import Mathlib

/-!
# Choosing from lists: first copies and the smallest elements

`List.eraseDups` keeps the first copy of every element, so what it keeps has
no repeats (`nodup_eraseDups`). Insertion sort by a lawful comparator `cmp`
puts a list in `cmp` order (`pairwise_insertionSort_isLE`); a list in `cmp`
order whose elements `cmp` tells apart is strictly increasing, and then its
first `k` elements are exactly those that fewer than `k` of its elements
precede (`mem_take_iff_rank_lt`). That is the rank characterization of
"sort, then take the first `k`", which no longer depends on the sort.
-/
namespace Carbide.Lib

section Dedup

variable {α : Type} [DecidableEq α]

theorem nodup_eraseDups (l : List α) : l.eraseDups.Nodup := by
  induction h : l.length using Nat.strong_induction_on generalizing l with
  | _ n ih =>
    cases l with
    | nil => simp
    | cons a l =>
      rw [List.eraseDups_cons, List.nodup_cons]
      refine ⟨fun ha => ?_, ih _ (by subst h; exact Nat.lt_succ_of_le (List.length_filter_le _ _)) _ rfl⟩
      -- every copy of `a` was filtered out before the recursive call
      have := List.mem_filter.1 (List.mem_eraseDups.1 ha)
      simp at this

theorem eraseDups_eq_self {l : List α} (h : l.Nodup) : l.eraseDups = l := by
  induction l with
  | nil => rfl
  | cons a l ih =>
    obtain ⟨ha, hl⟩ := List.nodup_cons.1 h
    -- nothing after the head equals it, so its filter keeps the tail
    have hkeep : (l.filter fun b => !b == a) = l :=
      List.filter_eq_self.2 fun b hb => by simp [ne_of_mem_of_not_mem hb ha]
    rw [List.eraseDups_cons, hkeep, ih hl]

end Dedup

section Rank

variable {α : Type} (cmp : α → α → Ordering) [Std.TransCmp cmp]

theorem pairwise_insertionSort_isLE (l : List α) :
    (l.insertionSort fun a b => (cmp a b).isLE).Pairwise fun a b => (cmp a b).isLE := by
  have : Std.Total fun a b : α => (cmp a b).isLE := ⟨fun a b => by
    cases h : cmp a b
    · exact Or.inl rfl
    · exact Or.inl rfl
    · right
      rw [@Std.OrientedCmp.eq_swap _ cmp _ b a, h]
      rfl⟩
  have : IsTrans α fun a b => (cmp a b).isLE := ⟨fun _ _ _ => Std.TransCmp.isLE_trans⟩
  exact List.pairwise_insertionSort _ l

variable {cmp}

omit [Std.TransCmp cmp] in
/-- In `cmp` order, elements that `cmp` tells apart are strictly increasing. -/
theorem pairwise_lt_of_pairwise_isLE {l : List α}
    (h : l.Pairwise fun a b => (cmp a b).isLE) (hne : l.Pairwise fun a b => cmp a b ≠ .eq) :
    l.Pairwise fun a b => cmp a b = .lt :=
  (h.and hne).imp fun ⟨hle, hne⟩ => by
    cases hc : cmp _ _
    · rfl
    · exact absurd hc hne
    · rw [hc] at hle
      cases hle

/-- The first `k` elements of a strictly increasing list are those with fewer
than `k` elements of the list below them. -/
theorem mem_take_iff_rank_lt {l : List α} (h : l.Pairwise fun a b => cmp a b = .lt) {k : Nat}
    {x : α} : x ∈ l.take k ↔ x ∈ l ∧ (l.filter fun y => cmp y x = .lt).length < k := by
  induction l generalizing k with
  | nil => simp
  | cons a l ih =>
    have hsorted := List.pairwise_cons.1 h
    cases k with
    | zero => simp
    | succ k =>
      rw [List.take_succ_cons, List.mem_cons, List.mem_cons, ih hsorted.2]
      by_cases hxa : x = a
      · -- the head has nothing below it
        subst hxa
        have hnone : (l.filter fun y => cmp y x = .lt) = [] := List.filter_eq_nil_iff.2 fun y hy hlt => by
          have := Std.OrientedCmp.gt_iff_lt.2 (hsorted.1 y hy)
          simp_all
        simp [Std.ReflCmp.compare_self, hnone]
      · -- any other element has the head below it
        have hx : x ∈ l → cmp a x = .lt := hsorted.1 x
        simp only [hxa, false_or, List.filter_cons]
        constructor
        · rintro ⟨hxl, hlt⟩
          simp only [hx hxl, decide_true, ite_true, List.length_cons]
          exact ⟨hxl, by omega⟩
        · rintro ⟨hxl, hlt⟩
          simp only [hx hxl, decide_true, ite_true, List.length_cons] at hlt
          exact ⟨hxl, by omega⟩

end Rank

end Carbide.Lib

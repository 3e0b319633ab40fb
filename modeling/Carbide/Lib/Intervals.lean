import Mathlib.Order.Interval.Finset.Nat

/-!
# First fit over ranges of indexes

An index allocator scans `lo, lo + 1, …, hi` for the first free index, or scans
cyclically from a cursor, and keeps what is taken as a list of closed
intervals. This module states what such a scan returns and how the taken
indexes are counted.

* `firstIdx p lo hi`: the first `i ∈ [lo, hi]` with `p i`. `firstIdx_cons` unrolls
  it, `firstIdx_skip` passes a stretch where `p` fails, `firstIdx_congr` changes `p`
  on the range.
* `cyclicFirst p n s`: the first of `s, s + 1, …, n - 1, 0, …, s - 1` with `p`;
  `cyclicFirst_eq` splits it into the straight scan from `s` and the one from `0`.
* `Covered I i`: `i` lies in one of the intervals of `I`; `cover I` is their
  union, and `card_union_Icc` counts a union with an interval past its end.
-/
namespace Carbide.Lib

/-! ## First fit -/

/-- The first of `lo, …, hi` that satisfies `p`. -/
def firstIdx (p : ℕ → Bool) (lo hi : ℕ) : Option ℕ := (List.range' lo (hi + 1 - lo)).find? p

section FirstIn

variable {p q : ℕ → Bool} {lo hi : ℕ}

theorem firstIdx_of_lt (h : hi < lo) : firstIdx p lo hi = none := by
  rw [firstIdx, show hi + 1 - lo = 0 by omega]
  rfl

theorem firstIdx_cons (h : lo ≤ hi) :
    firstIdx p lo hi = if p lo then some lo else firstIdx p (lo + 1) hi := by
  rw [firstIdx, firstIdx, show hi + 1 - lo = hi + 1 - (lo + 1) + 1 by omega, List.range'_succ,
    List.find?_cons]
  cases p lo <;> rfl

/-- A first fit passes over a stretch where `p` fails. -/
theorem firstIdx_skip {m : ℕ} (hm : lo ≤ m) (h : ∀ i, lo ≤ i → i < m → p i = false) :
    firstIdx p lo hi = firstIdx p m hi := by
  obtain ⟨k, rfl⟩ := Nat.exists_eq_add_of_le hm
  induction k generalizing lo with
  | zero => rfl
  | succ k ih =>
    by_cases hle : lo ≤ hi
    · rw [firstIdx_cons hle, if_neg (by simp [h lo le_rfl (by omega)]),
        ih (Nat.le_add_right _ _) (fun i h1 h2 => h i (by omega) (by omega)), Nat.add_right_comm,
        Nat.add_assoc]
    · rw [firstIdx_of_lt (by omega), firstIdx_of_lt (by omega)]

theorem firstIdx_eq_some {i : ℕ} (hlo : lo ≤ i) (hhi : i ≤ hi) (hp : p i = true)
    (h : ∀ j, lo ≤ j → j < i → p j = false) : firstIdx p lo hi = some i := by
  rw [firstIdx_skip hlo h, firstIdx_cons hhi, if_pos hp]

theorem firstIdx_eq_none (h : ∀ i, lo ≤ i → i ≤ hi → p i = false) : firstIdx p lo hi = none := by
  by_cases hle : lo ≤ hi + 1
  · rw [firstIdx_skip hle (fun i h1 h2 => h i h1 (by omega)), firstIdx_of_lt (by omega)]
  · exact firstIdx_of_lt (by omega)

theorem firstIdx_congr (h : ∀ i, lo ≤ i → i ≤ hi → p i = q i) :
    firstIdx p lo hi = firstIdx q lo hi := by
  induction hn : hi + 1 - lo generalizing lo with
  | zero => rw [firstIdx_of_lt (by omega), firstIdx_of_lt (by omega)]
  | succ n ih =>
    rw [firstIdx_cons (p := p) (by omega), firstIdx_cons (p := q) (by omega), h lo le_rfl (by omega),
      ih (fun i h1 h2 => h i (by omega) h2) (by omega)]

end FirstIn

/-! ## Cyclic first fit -/

/-- The first of `s, s + 1, …, n - 1, 0, …, s - 1` that satisfies `p`. -/
def cyclicFirst (p : ℕ → Bool) (n s : ℕ) : Option ℕ :=
  ((List.range n).map fun k => (s + k) % n).find? p

/-- Counting from `s` modulo `n` runs up to `n - 1`, then from `0` up to `s - 1`. -/
theorem map_range_rotate {n s : ℕ} (h : s < n) :
    (List.range n).map (fun k => (s + k) % n) = List.range' s (n - s) ++ List.range' 0 s := by
  have hsplit : List.range n = List.range' 0 (n - s) ++ List.range' (n - s) s := by
    have := @List.range'_append 0 (n - s) s 1
    rw [Nat.zero_add, Nat.one_mul, Nat.sub_add_cancel h.le] at this
    rw [List.range_eq_range', this]
  have hlow : (List.range' 0 (n - s)).map (fun k => (s + k) % n) = List.range' s (n - s) := by
    rw [List.map_congr_left (g := (s + ·)) (fun k hk => by
      rw [List.mem_range'_1] at hk; exact Nat.mod_eq_of_lt (by omega)), List.map_add_range',
      Nat.add_zero]
  have hhigh : (List.range' (n - s) s).map (fun k => (s + k) % n) = List.range' 0 s := by
    rw [List.map_congr_left (g := (· - (n - s))) (fun k hk => by
      rw [List.mem_range'_1] at hk
      rw [Nat.mod_eq_sub_mod (by omega), Nat.mod_eq_of_lt (by omega)]
      omega), List.map_sub_range' le_rfl, Nat.sub_self]
  rw [hsplit, List.map_append, hlow, hhigh]

theorem cyclicFirst_eq {p : ℕ → Bool} {n s : ℕ} (h : s < n) :
    cyclicFirst p n s = (firstIdx p s (n - 1)).or (if s = 0 then none else firstIdx p 0 (s - 1)) := by
  rw [cyclicFirst, map_range_rotate h, List.find?_append]
  congr 1
  · rw [firstIdx, show n - 1 + 1 - s = n - s by omega]
  · split
    · subst s; rfl
    · rw [firstIdx, show s - 1 + 1 - 0 = s by omega]

/-- The cyclic search finds nothing exactly when no index below `n` satisfies `p`. -/
theorem cyclicFirst_eq_none_iff {p : ℕ → Bool} {n s : ℕ} (h : s < n) :
    cyclicFirst p n s = none ↔ ∀ i < n, p i = false := by
  rw [cyclicFirst, map_range_rotate h, List.find?_eq_none]
  simp only [List.mem_append, List.mem_range'_1, Bool.not_eq_true]
  constructor
  · intro hp i hi
    exact hp i (by omega)
  · intro hp i hi
    exact hp i (by omega)

theorem cyclicFirst_lt {p : ℕ → Bool} {n s i : ℕ} (h : cyclicFirst p n s = some i) : i < n := by
  obtain ⟨k, hk, rfl⟩ := List.mem_map.1 (List.mem_of_find?_eq_some h)
  exact Nat.mod_lt _ (by have := List.mem_range.1 hk; omega)

/-! ## Interval covers -/

/-- `i` lies in one of the closed intervals `[a, b]` of `I`. -/
def Covered (I : List (ℕ × ℕ)) (i : ℕ) : Prop := ∃ r ∈ I, r.1 ≤ i ∧ i ≤ r.2

instance (I : List (ℕ × ℕ)) (i : ℕ) : Decidable (Covered I i) :=
  inferInstanceAs (Decidable (∃ r ∈ I, r.1 ≤ i ∧ i ≤ r.2))

@[simp] theorem not_covered_nil (i : ℕ) : ¬ Covered [] i := fun ⟨_, h, _⟩ => List.not_mem_nil h

@[simp] theorem covered_cons {r : ℕ × ℕ} {I : List (ℕ × ℕ)} {i : ℕ} :
    Covered (r :: I) i ↔ (r.1 ≤ i ∧ i ≤ r.2) ∨ Covered I i := by
  simp [Covered]

theorem covered_of_perm {I J : List (ℕ × ℕ)} (h : I.Perm J) {i : ℕ} : Covered I i ↔ Covered J i := by
  simp only [Covered, h.mem_iff]

/-- The union of the intervals. -/
def cover (I : List (ℕ × ℕ)) : Finset ℕ := I.foldr (fun r s => Finset.Icc r.1 r.2 ∪ s) ∅

@[simp] theorem cover_nil : cover [] = ∅ := rfl

theorem cover_cons (r : ℕ × ℕ) (I : List (ℕ × ℕ)) : cover (r :: I) = Finset.Icc r.1 r.2 ∪ cover I :=
  rfl

theorem mem_cover {I : List (ℕ × ℕ)} {i : ℕ} : i ∈ cover I ↔ Covered I i := by
  induction I with
  | nil => simp
  | cons r I ih => rw [cover_cons, Finset.mem_union, Finset.mem_Icc, ih, covered_cons]

/-- A union grows by the length of an interval that starts past all of it. -/
theorem card_union_Icc {A : Finset ℕ} {a b : ℕ} (h : ∀ x ∈ A, x < a) :
    (A ∪ Finset.Icc a b).card = A.card + (b + 1 - a) := by
  rw [Finset.card_union_of_disjoint, Nat.card_Icc]
  exact Finset.disjoint_left.2 fun x hx hx' => by
    have := h x hx
    rw [Finset.mem_Icc] at hx'
    omega

/-- An interval that starts inside or right after `[a, b]` extends it. -/
theorem Icc_union_Icc_of_le {a b c d : ℕ} (h1 : a ≤ c) (h2 : c ≤ b + 1) :
    Finset.Icc a b ∪ Finset.Icc c d = Finset.Icc a (max b d) := by
  ext x
  simp only [Finset.mem_union, Finset.mem_Icc]
  omega

end Carbide.Lib

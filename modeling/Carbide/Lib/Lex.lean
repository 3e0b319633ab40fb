import Mathlib.Data.List.Sort

/-!
# Lexicographic comparison and concatenation

`compare` on `List α` is the lexicographic order of Rust's `Ord for [T]` and of
`Iterator::cmp`: the first differing element decides, and a proper prefix sorts
first. Comparators built from pieces of two lists (a shared part skipped, a
separator spliced in) are checked against the comparison of the whole lists
with these facts: a shared prefix drops out (`compare_append_left`), and two
lists of which neither is a prefix of the other are decided before anything
appended to them (`compare_append_of_incomparable`).
-/
namespace Carbide.Lib

/-- A decided comparison stays decided. -/
theorem Ordering.then_of_ne_eq {o : Ordering} (h : o ≠ .eq) (p : Ordering) : o.then p = o := by
  cases o
  · rfl
  · exact absurd rfl h
  · rfl

variable {α : Type} [Ord α] [Std.LawfulEqOrd α]

theorem compare_append_left (l x y : List α) : compare (l ++ x) (l ++ y) = compare x y := by
  induction l with
  | nil => rfl
  | cons a l ih =>
    rw [List.cons_append, List.cons_append, List.compare_cons_cons, Std.compare_self, ih]
    rfl

/-- Two lists neither of which is a prefix of the other differ at a position
inside both, and that position decides whatever follows them. -/
theorem compare_append_of_incomparable :
    ∀ {a b : List α} (x y : List α), ¬ a <+: b → ¬ b <+: a →
      compare (a ++ x) (b ++ y) = compare a b
  | [], _, _, _, ha, _ => absurd List.nil_prefix ha
  | _ :: _, [], _, _, _, hb => absurd List.nil_prefix hb
  | c :: a, d :: b, x, y, ha, hb => by
    rw [List.cons_append, List.cons_append, List.compare_cons_cons, List.compare_cons_cons]
    by_cases hcd : c = d
    · subst hcd
      rw [compare_append_of_incomparable x y (fun h => ha ((List.prefix_cons_inj c).2 h))
        (fun h => hb ((List.prefix_cons_inj c).2 h))]
    · -- the first elements already decide
      have hne : compare c d ≠ .eq := fun h => hcd (Std.compare_eq_iff_eq.1 h)
      rw [Ordering.then_of_ne_eq hne, Ordering.then_of_ne_eq hne]

omit [Ord α] [Std.LawfulEqOrd α] in
/-- A proper prefix of `b` is `b` up to `b`'s element at its length. -/
theorem eq_append_getElem_cons {a b : List α} (hlt : a.length < b.length) (hpre : a <+: b) :
    b = a ++ b[a.length] :: b.drop (a.length + 1) := by
  have htake : b.take a.length = a := (List.prefix_iff_eq_take.1 hpre).symm
  calc b = b.take a.length ++ b.drop a.length := (List.take_append_drop _ _).symm
    _ = a ++ b[a.length] :: b.drop (a.length + 1) := by rw [htake, List.drop_eq_getElem_cons hlt]

end Carbide.Lib

import Mathlib.Order.Lattice
import Mathlib.Data.List.Perm.Basic

/-!
# Loops as folds

Two facts about the loops the models write as `List.foldl`:

* `foldl_pair`: a loop that updates two variables, each from its own old
  value and the element, is the two loops one after the other;
* `foldl_merge_min`: a loop that keeps the least of the optional values it
  meets (`(Some(a), Some(b)) => Some(a.min(b))`, the other value where one is
  absent: `Option.merge min`) ends with the least of its start and of the values
  present, and `min?_perm` says that least value does not depend on the order.
-/
namespace Carbide.Lib

theorem foldl_pair {α β γ : Type} (f : β → α → β) (g : γ → α → γ) (l : List α) (b : β) (c : γ) :
    l.foldl (fun p x => (f p.1 x, g p.2 x)) (b, c) = (l.foldl f b, l.foldl g c) := by
  induction l generalizing b c with
  | nil => rfl
  | cons x xs ih => exact ih (f b x) (g c x)

section MinFold

variable {α β : Type} [LinearOrder α]

theorem foldl_merge_min (f : β → Option α) (l : List β) (o : Option α) :
    l.foldl (fun acc x => Option.merge min acc (f x)) o = Option.merge min o (l.filterMap f).min? := by
  induction l generalizing o with
  | nil => simp
  | cons x xs ih =>
    rw [List.foldl_cons, ih]
    cases hx : f x with
    | none => simp [hx]
    | some v =>
      rw [List.filterMap_cons_some hx, List.min?_cons]
      -- `Option.merge min` is associative
      cases o <;> cases (xs.filterMap f).min? <;> simp [min_assoc]

/-- The least element of a list does not depend on its order. -/
theorem min?_perm {l₁ l₂ : List α} (h : l₁.Perm l₂) : l₁.min? = l₂.min? := by
  induction h with
  | nil => rfl
  | cons x _ ih => rw [List.min?_cons, List.min?_cons, ih]
  | swap x y l =>
    simp only [List.min?_cons]
    cases l.min? <;> simp [min_comm, min_left_comm]
  | trans _ _ ih₁ ih₂ => exact ih₁.trans ih₂

end MinFold

end Carbide.Lib

import Mathlib

/-!
# Range queries on a finite ordered set

Rust's `BTreeSet` is a finite set iterated in increasing order. Two of its range
queries, on a `Finset` of a linear order:

* `lastLe S hi` is `S.range(..=hi).last()`: the greatest member at or below `hi`;
* `firstIn S lo hi p` is `S.range(lo..=hi).find(p)`: the least member of
  `[lo, hi]` satisfying `p`.

Each comes with the lemma that says what it returns (`lastLe_eq_some`,
`lastLe_eq_none`, `firstIn_eq_some`, `firstIn_eq_none`); proofs about callers
use these and never unfold the definitions.
-/
namespace Carbide.Lib

variable {α : Type*} [LinearOrder α]

/-- The greatest member at or below `hi`. -/
def lastLe (S : Finset α) (hi : α) : Option α :=
  if h : (S.filter (· ≤ hi)).Nonempty then some ((S.filter (· ≤ hi)).max' h) else none

/-- The least member of `[lo, hi]` satisfying `p`. -/
def firstIn (S : Finset α) (lo hi : α) (p : α → Prop) [DecidablePred p] : Option α :=
  if h : (S.filter (fun x => lo ≤ x ∧ x ≤ hi ∧ p x)).Nonempty then
    some ((S.filter (fun x => lo ≤ x ∧ x ≤ hi ∧ p x)).min' h)
  else none

theorem lastLe_eq_some {S : Finset α} {hi x : α} (h : lastLe S hi = some x) :
    x ∈ S ∧ x ≤ hi ∧ ∀ y ∈ S, y ≤ hi → y ≤ x := by
  unfold lastLe at h
  split at h
  · rename_i hne
    cases h
    have hm := Finset.mem_filter.1 (Finset.max'_mem _ hne)
    exact ⟨hm.1, hm.2, fun y hy hyh => Finset.le_max' _ y (Finset.mem_filter.2 ⟨hy, hyh⟩)⟩
  · cases h

theorem lastLe_eq_none {S : Finset α} {hi : α} (h : lastLe S hi = none) :
    ∀ y ∈ S, ¬ y ≤ hi := by
  unfold lastLe at h
  split at h
  · cases h
  · rename_i hne
    exact fun y hy hyh => hne ⟨y, Finset.mem_filter.2 ⟨hy, hyh⟩⟩

/-- A member at or below `hi` that sorts after every other such member is the answer. -/
theorem lastLe_of_max {S : Finset α} {hi x : α} (hx : x ∈ S) (hxh : x ≤ hi)
    (hmax : ∀ y ∈ S, y ≤ hi → y ≤ x) : lastLe S hi = some x := by
  have hne : (S.filter (· ≤ hi)).Nonempty := ⟨x, Finset.mem_filter.2 ⟨hx, hxh⟩⟩
  match e : lastLe S hi with
  | none => exact absurd hxh (lastLe_eq_none e x hx)
  | some y =>
    obtain ⟨hy, hyh, hymax⟩ := lastLe_eq_some e
    exact congrArg some (le_antisymm (hmax y hy hyh) (hymax x hx hxh))

section
variable {p : α → Prop} [DecidablePred p]

theorem firstIn_eq_some {S : Finset α} {lo hi x : α} (h : firstIn S lo hi p = some x) :
    x ∈ S ∧ lo ≤ x ∧ x ≤ hi ∧ p x := by
  unfold firstIn at h
  split at h
  · rename_i hne
    cases h
    have hm := Finset.mem_filter.1 (Finset.min'_mem _ hne)
    exact ⟨hm.1, hm.2⟩
  · cases h

theorem firstIn_eq_none {S : Finset α} {lo hi : α} (h : firstIn S lo hi p = none) :
    ∀ y ∈ S, lo ≤ y → y ≤ hi → ¬ p y := by
  unfold firstIn at h
  split at h
  · cases h
  · rename_i hne
    exact fun y hy hl hh hp => hne ⟨y, Finset.mem_filter.2 ⟨hy, hl, hh, hp⟩⟩

end

end Carbide.Lib

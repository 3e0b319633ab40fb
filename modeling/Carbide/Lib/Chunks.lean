import Mathlib

/-!
# Cutting a sequence into consecutive chunks

A list of chunk sizes cuts the positions `0, 1, …` into consecutive chunks:
chunk `k` takes the next `cs[k]` positions. `labels i cs` gives every
position its chunk's index, chunks numbered from `i`. It is as long as the
sizes sum (`length_labels`) and never decreases (`pairwise_labels`). Sizes
that are the differences `f (k + 1) - f k` of boundaries sum to `f m - f 0`
(`sum_range_sub`).
-/
namespace Carbide.Lib

/-- The chunk index of every position, chunks numbered from `i`. -/
def labels (i : Nat) : List Nat → List Nat
  | [] => []
  | c :: cs => List.replicate c i ++ labels (i + 1) cs

@[simp] theorem labels_nil (i : Nat) : labels i [] = [] := rfl

theorem labels_cons (i c : Nat) (cs : List Nat) :
    labels i (c :: cs) = List.replicate c i ++ labels (i + 1) cs := rfl

theorem length_labels (i : Nat) (cs : List Nat) : (labels i cs).length = cs.sum := by
  induction cs generalizing i with
  | nil => rfl
  | cons c cs ih => simp [labels_cons, ih]

theorem le_of_mem_labels {i j : Nat} {cs : List Nat} (h : j ∈ labels i cs) : i ≤ j := by
  induction cs generalizing i with
  | nil => simp at h
  | cons c cs ih =>
    rcases List.mem_append.1 h with h | h
    · exact ((List.mem_replicate.1 h).2).ge
    · exact Nat.le_of_succ_le (ih h)

theorem pairwise_labels (i : Nat) (cs : List Nat) : (labels i cs).Pairwise (· ≤ ·) := by
  induction cs generalizing i with
  | nil => exact List.Pairwise.nil
  | cons c cs ih =>
    rw [labels_cons, List.pairwise_append]
    refine ⟨List.pairwise_replicate.2 (Or.inr (Nat.le_refl i)), ih (i + 1), ?_⟩
    intro a ha b hb
    rw [(List.mem_replicate.1 ha).2]
    exact Nat.le_of_succ_le (le_of_mem_labels hb)

/-- A telescoping sum of boundary differences. -/
theorem sum_range_sub (f : Nat → Int) (m : Nat) :
    ((List.range m).map fun k => f (k + 1) - f k).sum = f m - f 0 := by
  induction m with
  | zero => simp
  | succ m ih =>
    rw [List.range_succ, List.map_append, List.sum_append, ih]
    simp only [List.map_cons, List.map_nil, List.sum_cons, List.sum_nil]
    omega

end Carbide.Lib

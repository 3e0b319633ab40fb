import Mathlib.Logic.Basic

/-!
# Labelled transition systems

A system is a set of initial states and a labelled step relation. Its runs
(`Run`) are the label sequences that take one state to another, and its
reachable states (`Reachable`) are those some run takes an initial state to.

A property that holds initially and is kept by every step holds in every
reachable state (`Inductive.reachable`). A property that every step keeps
except those of a given kind holds along any run with no step of that kind
(`Run.unless`).

For a system whose step is a partial function, `exec` runs a schedule. A
schedule that executes is a run (`run_of_exec`), so fixed schedules can be
evaluated.
-/
namespace Carbide.Lib

/-- Initial states and a labelled step relation. -/
structure LTS (S A : Type) where
  init : S → Prop
  step : S → A → S → Prop

namespace LTS

variable {S A : Type} (M : LTS S A)

/-- The labels `as` take `s` to `s'`. -/
inductive Run : S → List A → S → Prop
  | nil (s : S) : Run s [] s
  | cons {s s' s'' : S} {a : A} {as : List A} :
      M.step s a s' → Run s' as s'' → Run s (a :: as) s''

/-- Some run takes an initial state here. -/
def Reachable (s : S) : Prop :=
  ∃ s₀ as, M.init s₀ ∧ M.Run s₀ as s

/-- Holds initially and is kept by every step. -/
structure Inductive (I : S → Prop) : Prop where
  init : ∀ s, M.init s → I s
  step : ∀ s a s', I s → M.step s a s' → I s'

variable {M} {s s' s'' : S} {as bs : List A}

theorem Run.append (h1 : M.Run s as s') (h2 : M.Run s' bs s'') : M.Run s (as ++ bs) s'' := by
  induction h1 with
  | nil => exact h2
  | cons hs _ ih => exact .cons hs (ih h2)

/-- A property kept by every step holds along a run. -/
theorem Run.preserve {I : S → Prop} (hI : ∀ s a s', I s → M.step s a s' → I s')
    (h : M.Run s as s') (hs : I s) : I s' := by
  induction h with
  | nil => exact hs
  | cons hstep _ ih => exact ih (hI _ _ _ hs hstep)

/-- A property that every step keeps, unless its label is of kind `Q`, holds
along a run with no label of kind `Q`. -/
theorem Run.unless {P : S → Prop} {Q : A → Prop}
    (hP : ∀ s a s', P s → M.step s a s' → ¬ Q a → P s')
    (h : M.Run s as s') (hQ : ∀ a ∈ as, ¬ Q a) (hs : P s) : P s' := by
  induction h with
  | nil => exact hs
  | cons hstep _ ih =>
    exact ih (fun a ha => hQ a (List.mem_cons_of_mem _ ha))
      (hP _ _ _ hs hstep (hQ _ List.mem_cons_self))

theorem Reachable.run (h : M.Reachable s) (hr : M.Run s as s') : M.Reachable s' := by
  obtain ⟨s₀, bs, h0, h1⟩ := h
  exact ⟨s₀, bs ++ as, h0, h1.append hr⟩

theorem Inductive.reachable {I : S → Prop} (hI : M.Inductive I) (h : M.Reachable s) : I s := by
  obtain ⟨s₀, as, h0, hrun⟩ := h
  exact hrun.preserve hI.step (hI.init s₀ h0)

/-! ## Systems whose step is a function -/

/-- The system of a partial step function. -/
def ofFn (init : S → Prop) (f : S → A → Option S) : LTS S A :=
  ⟨init, fun s a s' => f s a = some s'⟩

/-- Runs a schedule; `none` when some label is not enabled. -/
def exec (f : S → A → Option S) : S → List A → Option S
  | s, [] => some s
  | s, a :: as => (f s a).bind fun s' => exec f s' as

variable {f : S → A → Option S}

theorem run_iff_exec {init : S → Prop} : (ofFn init f).Run s as s' ↔ exec f s as = some s' := by
  induction as generalizing s with
  | nil =>
    constructor
    · rintro ⟨⟩
      rfl
    · intro h
      cases h
      exact .nil _
  | cons a as ih =>
    constructor
    · rintro (_ | ⟨hs, hr⟩)
      simp only [exec, Option.bind_eq_some_iff]
      exact ⟨_, hs, ih.1 hr⟩
    · intro h
      obtain ⟨t, hs, hr⟩ := Option.bind_eq_some_iff.1 h
      exact .cons hs (ih.2 hr)

theorem run_of_exec (init : S → Prop) (h : exec f s as = some s') : (ofFn init f).Run s as s' :=
  run_iff_exec.2 h

/-- A schedule that executes to a state satisfying `P` is a run to such a state. -/
theorem exists_run_of_exec (init : S → Prop) {P : S → Bool} (h : (exec f s as).any P) :
    ∃ s', (ofFn init f).Run s as s' ∧ P s' = true := by
  cases he : exec f s as with
  | none => rw [he] at h; cases h
  | some s' =>
    rw [he] at h
    exact ⟨s', run_of_exec init he, h⟩

end LTS

end Carbide.Lib

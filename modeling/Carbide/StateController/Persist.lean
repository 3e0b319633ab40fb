import Carbide.Lib.Lts
import Mathlib

/-!
# Persisting controller state under concurrent handling

`process_object` (state-controller/src/controller/processor.rs) loads an
object's controller state and its `ConfigVersion` in a first transaction, runs
the handler, and in a second transaction persists a `Transition` with a
compare-and-swap on the version (`persist_controller_state`: `UPDATE ... WHERE
controller_state_version = old`) followed by `persist_state_history`, then the
outcome, then commits. A run that loses the swap sets `transition_conflict`
and reports no next state. After a lease expiry two runs can handle the same
object at once.

The system (`processSystem`) interleaves any number of runs on one object.
The swap's `UPDATE` takes the row lock, held until its transaction commits or
rolls back; an `UPDATE` that finds the row locked waits, then compares with the
version committed by then (READ COMMITTED). A run can fail or time out at any
point (`abort`, the transaction is dropped), and its commit can go through
while the timeout drops the future before the report (`commitUnreported`).
Writes that do not touch the version (the outcome column) are left out.

`transitions_form_version_chain`: the committed `(version, state)` pairs are
the state-history rows, each version is its predecessor's `increment()`, the
row holds the last one, the history rows are exactly the swaps that
committed, a run reports a next state only for its own committed swap, a run
that lost the swap reports none, and only a winner's commit changes the row.
-/
namespace Carbide.StateController

open Carbide.Lib

/-! ## Versions (config-version/src/lib.rs) -/

structure ConfigVersion where
  versionNr : Nat
  timestamp : Nat
  deriving DecidableEq

/-- The number wraps in `u64` and skips 0; the timestamp is the clock's `now`.
mirrors config-version/src/lib.rs:147-159 -/
def ConfigVersion.increment (v : ConfigVersion) (now : Nat) : ConfigVersion :=
  let nr := (v.versionNr + 1) % 2 ^ 64
  ⟨if nr = 0 then 1 else nr, now⟩

/-- `b` is a version written as `a`'s increment, with its state. -/
def Increments {S : Type} (a b : ConfigVersion × S) : Prop :=
  ∃ now, b.1 = a.1.increment now

/-! ## One handling run (process_object) -/

/-- What the handler returned, as far as persisting goes: `Transition` is the
only outcome that writes the controller state. -/
inductive HandlerResult (S : Type)
  | transition (next : S)
  | wait
  | doNothing
  | deleted
  | error
  deriving DecidableEq

/-- Where a run is. `casWon w` and `historyWritten w` hold the row lock with
the pending write `w`; `done w` ends the run, `w` the swap it committed. -/
inductive Phase (S : Type)
  | start
  | loaded (v : ConfigVersion) (st : S)
  | handled (v : ConfigVersion) (o : HandlerResult S)
  | casWon (w : ConfigVersion × S)
  | historyWritten (w : ConfigVersion × S)
  | casLost
  | done (w : Option (ConfigVersion × S))
  deriving DecidableEq

/-- The write a run has pending in its open transaction. -/
def Phase.pending {S : Type} : Phase S → Option (ConfigVersion × S)
  | .casWon w | .historyWritten w => some w
  | _ => none

/-- A run's phase and the two fields of its metrics the processor reads:
`next_state` (with `state_entered_at`, the new version) and
`transition_conflict`. -/
structure RunState (S : Type) where
  phase : Phase S
  transitionConflict : Bool
  nextState : Option (ConfigVersion × S)
  deriving DecidableEq

structure ObjectSystem (S R : Type) where
  /-- `controller_state_version` and `controller_state`, as committed -/
  row : ConfigVersion × S
  /-- the state-history rows, in commit order -/
  stateHistory : List (ConfigVersion × S)
  /-- the run whose open transaction holds the row lock -/
  lockedBy : Option R
  runs : R → RunState S

inductive ProcessEvent (S R : Type)
  /-- `load_object_state` and `load_controller_state`, then commit -/
  | load (r : R)
  /-- `handle_object_state` and the pending writes -/
  | handle (r : R) (o : HandlerResult S)
  /-- `persist_controller_state` with `new_version := old.increment()` at `now` -/
  | persistControllerState (r : R) (now : Nat)
  | persistStateHistory (r : R)
  /-- `persist_outcome` and the commit -/
  | commit (r : R)
  /-- the commit goes through, but the timeout drops the future first -/
  | commitUnreported (r : R)
  /-- an error or the timeout drops the open transaction -/
  | abort (r : R)

variable {S R : Type} [DecidableEq R]

def ObjectSystem.setRun (s : ObjectSystem S R) (r : R) (rs : RunState S) : ObjectSystem S R :=
  { s with runs := Function.update s.runs r rs }

/-- The commit of a run whose swap won: the row, the history row and the run's
report. -/
def ObjectSystem.commitWrite (s : ObjectSystem S R) (r : R) (w : ConfigVersion × S)
    (reported : Bool) : ObjectSystem S R :=
  { s.setRun r { s.runs r with phase := .done (some w), nextState := if reported then some w else none }
    with row := w, stateHistory := s.stateHistory ++ [w], lockedBy := none }

/-- mirrors state-controller/src/controller/processor.rs:626-817 -/
def processStep (s : ObjectSystem S R) : ProcessEvent S R → Option (ObjectSystem S R)
  | .load r =>
    match (s.runs r).phase with
    | .start => some (s.setRun r { s.runs r with phase := .loaded s.row.1 s.row.2 })
    | _ => none
  | .handle r o =>
    match (s.runs r).phase with
    | .loaded v _ => some (s.setRun r { s.runs r with phase := .handled v o })
    | _ => none
  | .persistControllerState r now =>
    match (s.runs r).phase with
    | .handled v (.transition next) =>
      -- the `UPDATE` waits while another transaction holds the row
      if s.lockedBy = none then
        if s.row.1 = v then
          some { s.setRun r { s.runs r with phase := .casWon (v.increment now, next) } with
            lockedBy := some r }
        else some (s.setRun r { s.runs r with phase := .casLost, transitionConflict := true })
      else none
    | _ => none
  | .persistStateHistory r =>
    match (s.runs r).phase with
    | .casWon w => some (s.setRun r { s.runs r with phase := .historyWritten w })
    | _ => none
  | .commit r =>
    match (s.runs r).phase with
    | .historyWritten w => some (s.commitWrite r w true)
    | .casLost => some (s.setRun r { s.runs r with phase := .done none })
    | .handled _ (.transition _) => none
    | .handled _ _ => some (s.setRun r { s.runs r with phase := .done none })
    | _ => none
  | .commitUnreported r =>
    match (s.runs r).phase with
    | .historyWritten w => some (s.commitWrite r w false)
    | _ => none
  | .abort r =>
    match (s.runs r).phase with
    | .done _ => none
    | _ =>
      some { s.setRun r { s.runs r with phase := .done none } with
        lockedBy := if s.lockedBy = some r then none else s.lockedBy }

/-- No history yet, no lock, every run about to start; the row holds anything. -/
def processSystem : LTS (ObjectSystem S R) (ProcessEvent S R) :=
  LTS.ofFn
    (fun s => s.stateHistory = [] ∧ s.lockedBy = none ∧ ∀ r, s.runs r = ⟨.start, false, none⟩)
    processStep

/-! ## What a step does -/

section Step

variable {s s' : ObjectSystem S R} {r q : R} {rs : RunState S}

@[simp] theorem setRun_runs_self : (s.setRun r rs).runs r = rs := Function.update_self ..

/-- Every step is one of five kinds: a step of one run that keeps its pending
write (load, handle, history row, a commit that writes no state); a lost swap;
a won swap, which takes the lock; the commit of a won swap; an abort, which
drops the run's transaction and its lock. -/
theorem processStep_cases {e : ProcessEvent S R} (h : processStep s e = some s') :
    (∃ r p, (∀ d, (s.runs r).phase ≠ .done d) ∧ p.pending = (s.runs r).phase.pending ∧
      (∀ w, p ≠ .done (some w)) ∧ ((s.runs r).phase = .casLost → p = .done none) ∧
      s' = s.setRun r { s.runs r with phase := p }) ∨
    (∃ r v next, (s.runs r).phase = .handled v (.transition next) ∧
      s' = s.setRun r { s.runs r with phase := .casLost, transitionConflict := true }) ∨
    (∃ r v next now, (s.runs r).phase = .handled v (.transition next) ∧ s.lockedBy = none ∧
      s.row.1 = v ∧
      s' = { s.setRun r { s.runs r with phase := .casWon (v.increment now, next) } with
        lockedBy := some r }) ∨
    (∃ r w reported, (s.runs r).phase = .historyWritten w ∧ s' = s.commitWrite r w reported) ∨
    (∃ r, (∀ d, (s.runs r).phase ≠ .done d) ∧
      s' = { s.setRun r { s.runs r with phase := .done none } with
        lockedBy := if s.lockedBy = some r then none else s.lockedBy }) := by
  cases e with
  | load r =>
    simp only [processStep] at h
    split at h
    · rename_i hp
      cases h
      exact .inl ⟨r, _, by simp [hp], by simp [hp, Phase.pending], by simp, by simp [hp], rfl⟩
    · cases h
  | handle r o =>
    simp only [processStep] at h
    split at h
    · rename_i hp
      cases h
      exact .inl ⟨r, _, by simp [hp], by simp [hp, Phase.pending], by simp, by simp [hp], rfl⟩
    · cases h
  | persistControllerState r now =>
    simp only [processStep] at h
    split at h
    · rename_i v next hp
      split at h
      · split at h
        · cases h
          exact .inr (.inr (.inl ⟨r, v, next, now, hp, ‹_›, ‹_›, rfl⟩))
        · cases h
          exact .inr (.inl ⟨r, v, next, hp, rfl⟩)
      · cases h
    · cases h
  | persistStateHistory r =>
    simp only [processStep] at h
    split at h
    · rename_i w hp
      cases h
      exact .inl ⟨r, _, by simp [hp], by simp [hp, Phase.pending], by simp, by simp [hp], rfl⟩
    · cases h
  | commit r =>
    simp only [processStep] at h
    split at h
    · rename_i w hp
      cases h
      exact .inr (.inr (.inr (.inl ⟨r, w, true, hp, rfl⟩)))
    · rename_i hp
      cases h
      exact .inl ⟨r, _, by simp [hp], by simp [hp, Phase.pending], by simp, fun _ => rfl, rfl⟩
    · cases h
    · rename_i v o hnt hp
      cases h
      exact .inl ⟨r, _, by simp [hp], by simp [hp, Phase.pending], by simp, by simp [hp], rfl⟩
    · cases h
  | commitUnreported r =>
    simp only [processStep] at h
    split at h
    · rename_i w hp
      cases h
      exact .inr (.inr (.inr (.inl ⟨r, w, false, hp, rfl⟩)))
    · cases h
  | abort r =>
    simp only [processStep] at h
    split at h
    · cases h
    · rename_i hnd
      cases h
      exact .inr (.inr (.inr (.inr ⟨r, fun d hd => hnd d hd, rfl⟩)))

/-- A swap that finds another version committed loses: the run is flagged and
the row and the history stay as they were. -/
theorem processStep_persist_lost {v : ConfigVersion} {next : S} {now : Nat}
    (hp : (s.runs r).phase = .handled v (.transition next)) (hv : s.row.1 ≠ v)
    (h : processStep s (.persistControllerState r now) = some s') :
    s' = s.setRun r { s.runs r with phase := .casLost, transitionConflict := true } := by
  simp only [processStep, hp] at h
  split at h
  · exact (Option.some.inj h).symm
  · cases h

end Step

/-! ## The invariant -/

/-- What every reachable state satisfies, given the row `row₀` it started
from: the history is a chain of increments from `row₀` ending in the row; the
lock is held exactly by the run with a pending write, which is the row's
increment; the history rows are exactly the committed swaps; a reported next
state is the run's committed swap; a run flagged for a conflict lost its swap
and ends with nothing. -/
structure VersionInv (row₀ : ConfigVersion × S) (s : ObjectSystem S R) : Prop where
  chain : (row₀ :: s.stateHistory).IsChain Increments
  row_last : (row₀ :: s.stateHistory).getLast? = some s.row
  locked : ∀ r, s.lockedBy = some r ↔ ((s.runs r).phase.pending).isSome
  pending : ∀ r w, (s.runs r).phase.pending = some w → Increments s.row w
  durable : ∀ w, w ∈ s.stateHistory ↔ ∃ r, (s.runs r).phase = .done (some w)
  reported : ∀ r w, (s.runs r).nextState = some w → (s.runs r).phase = .done (some w)
  conflict : ∀ r, (s.runs r).transitionConflict = true →
    (s.runs r).phase = .casLost ∨ (s.runs r).phase = .done none

section Inv

variable {row₀ : ConfigVersion × S} {s : ObjectSystem S R} {r : R}

theorem versionInv_init (h : processSystem.init s) : VersionInv s.row s := by
  obtain ⟨hh, hl, hr⟩ := h
  refine ⟨by simp [hh], by simp [hh], fun q => ?_, fun q w => ?_, fun w => ?_, fun q w => ?_,
    fun q => ?_⟩ <;> simp [hh, hl, hr, Phase.pending]

omit [DecidableEq R] in
/-- A run that is not done has reported nothing. -/
theorem VersionInv.nextState_eq_none (hI : VersionInv row₀ s)
    (hnd : ∀ d, (s.runs r).phase ≠ .done d) : (s.runs r).nextState = none := by
  cases hn : (s.runs r).nextState with
  | none => rfl
  | some w => exact absurd (hI.reported r w hn) (hnd _)

theorem update_runs_apply {f : R → RunState S} {rs : RunState S} (q : R) :
    Function.update f r rs q = if q = r then rs else f q := by
  by_cases hq : q = r
  · subst hq; simp
  · rw [Function.update_of_ne hq, if_neg hq]

/-- The fields about runs, after a run that is not done moves to a phase that
commits nothing and reports nothing. -/
theorem VersionInv.runFields (hI : VersionInv row₀ s) (rs : RunState S)
    (hnd : ∀ d, (s.runs r).phase ≠ .done d) (hdone : ∀ w, rs.phase ≠ .done (some w))
    (hnext : rs.nextState = none)
    (hconf : rs.transitionConflict = true → rs.phase = .casLost ∨ rs.phase = .done none) :
    (∀ w, w ∈ s.stateHistory ↔ ∃ q, (Function.update s.runs r rs q).phase = .done (some w)) ∧
    (∀ q w, (Function.update s.runs r rs q).nextState = some w →
      (Function.update s.runs r rs q).phase = .done (some w)) ∧
    (∀ q, (Function.update s.runs r rs q).transitionConflict = true →
      (Function.update s.runs r rs q).phase = .casLost ∨
        (Function.update s.runs r rs q).phase = .done none) := by
  simp only [update_runs_apply]
  refine ⟨fun w => ?_, fun q w => ?_, fun q => ?_⟩
  · rw [hI.durable w]
    constructor
    -- the done run is not `r`, which is not done before the step
    · rintro ⟨q, hq⟩
      have hqr : q ≠ r := by rintro rfl; exact hnd _ hq
      exact ⟨q, by rw [if_neg hqr]; exact hq⟩
    · rintro ⟨q, hq⟩
      split at hq
      · exact absurd hq (hdone w)
      · exact ⟨q, hq⟩
  · split
    · intro hn
      rw [hnext] at hn
      cases hn
    · exact hI.reported q w
  · split
    · exact hconf
    · exact hI.conflict q

/-- A step of one run that keeps its pending write and reports nothing. -/
theorem VersionInv.setRun (hI : VersionInv row₀ s) {rs : RunState S}
    (hnd : ∀ d, (s.runs r).phase ≠ .done d) (hpend : rs.phase.pending = (s.runs r).phase.pending)
    (hdone : ∀ w, rs.phase ≠ .done (some w)) (hnext : rs.nextState = none)
    (hconf : rs.transitionConflict = true → rs.phase = .casLost ∨ rs.phase = .done none) :
    VersionInv row₀ (s.setRun r rs) := by
  obtain ⟨hdur, hrep, hcon⟩ := hI.runFields _ hnd hdone hnext hconf
  refine ⟨hI.chain, hI.row_last, fun q => ?_, fun q w => ?_, hdur, hrep, hcon⟩ <;>
    simp only [ObjectSystem.setRun, update_runs_apply]
  · split
    · subst_vars; rw [hpend]; exact hI.locked _
    · exact hI.locked q
  · split
    · subst_vars; rw [hpend]; exact hI.pending _ w
    · exact hI.pending q w

/-- A step of one run that only moves its phase. -/
theorem VersionInv.setPhase (hI : VersionInv row₀ s) {p : Phase S}
    (hnd : ∀ d, (s.runs r).phase ≠ .done d) (hpend : p.pending = (s.runs r).phase.pending)
    (hdone : ∀ w, p ≠ .done (some w)) (hlost : (s.runs r).phase = .casLost → p = .done none) :
    VersionInv row₀ (s.setRun r { s.runs r with phase := p }) := by
  refine hI.setRun hnd hpend hdone (hI.nextState_eq_none hnd) fun hc => ?_
  -- the flag is the run's own, so it lost its swap before
  rcases hI.conflict r hc with h | h
  · exact .inr (hlost h)
  · exact absurd h (hnd _)

/-- A lost swap. -/
theorem VersionInv.loseSwap (hI : VersionInv row₀ s) {v : ConfigVersion} {next : S}
    (hp : (s.runs r).phase = .handled v (.transition next)) :
    VersionInv row₀ (s.setRun r { s.runs r with phase := .casLost, transitionConflict := true }) :=
  have hnd : ∀ d, (s.runs r).phase ≠ .done d := by simp [hp]
  hI.setRun hnd (by simp [hp, Phase.pending]) (by simp) (hI.nextState_eq_none hnd)
    fun _ => .inl rfl

omit [DecidableEq R] in
/-- A run's flag is clear before its swap. -/
theorem VersionInv.conflict_false (hI : VersionInv row₀ s)
    (hp : (s.runs r).phase ≠ .casLost) (hnd : ∀ d, (s.runs r).phase ≠ .done d) :
    (s.runs r).transitionConflict = false := by
  cases hc : (s.runs r).transitionConflict with
  | false => rfl
  | true =>
    rcases hI.conflict r hc with h | h
    · exact absurd h hp
    · exact absurd h (hnd _)

/-- A won swap takes the free lock, with the increment of the row's version
the run loaded. -/
theorem VersionInv.winSwap (hI : VersionInv row₀ s) {v : ConfigVersion} {next : S} {now : Nat}
    (hp : (s.runs r).phase = .handled v (.transition next)) (hl : s.lockedBy = none)
    (hv : s.row.1 = v) :
    VersionInv row₀ { s.setRun r { s.runs r with phase := .casWon (v.increment now, next) } with
      lockedBy := some r } := by
  have hnd : ∀ d, (s.runs r).phase ≠ .done d := by simp [hp]
  obtain ⟨hdur, hrep, hcon⟩ :=
    hI.runFields { s.runs r with phase := .casWon (v.increment now, next) } hnd (by simp)
      (hI.nextState_eq_none hnd) (by simp [hI.conflict_false (by simp [hp]) hnd])
  refine ⟨hI.chain, hI.row_last, fun q => ?_, fun q w => ?_, hdur, hrep, hcon⟩ <;>
    simp only [ObjectSystem.setRun, update_runs_apply]
  · split
    · rename_i hq
      subst hq
      simp [Phase.pending]
    · rename_i hq
      have := hI.locked q
      rw [hl] at this
      simp only [reduceCtorEq, false_iff] at this
      simp [this, Ne.symm hq]
  · split
    · rename_i hq
      subst hq
      simp only [Phase.pending, Option.some.injEq]
      rintro rfl
      exact ⟨now, by rw [hv]⟩
    · exact hI.pending q w

/-- An abort ends the run with nothing and frees the lock if the run held it. -/
theorem VersionInv.abort (hI : VersionInv row₀ s) (hnd : ∀ d, (s.runs r).phase ≠ .done d) :
    VersionInv row₀ { s.setRun r { s.runs r with phase := .done none } with
      lockedBy := if s.lockedBy = some r then none else s.lockedBy } := by
  obtain ⟨hdur, hrep, hcon⟩ := hI.runFields { s.runs r with phase := .done none }
    hnd (by simp) (hI.nextState_eq_none hnd) (fun _ => .inr rfl)
  refine ⟨hI.chain, hI.row_last, fun q => ?_, fun q w => ?_, hdur, hrep, hcon⟩ <;>
    simp only [ObjectSystem.setRun, update_runs_apply]
  · by_cases hq : q = r
    · subst hq
      simp only [if_pos, Phase.pending, Option.isSome_none, Bool.false_eq_true, iff_false]
      split <;> simp_all
    · rw [if_neg hq, ← hI.locked q]
      by_cases hl : s.lockedBy = some r
      · rw [if_pos hl, hl]
        simp [Ne.symm hq]
      · rw [if_neg hl]
  · split
    · simp [Phase.pending]
    · exact hI.pending q w

/-- The commit of a won swap appends its write, the increment of the row, and
frees the lock; no other run has a pending write. -/
theorem VersionInv.commitWrite (hI : VersionInv row₀ s) {w : ConfigVersion × S}
    (hp : (s.runs r).phase = .historyWritten w) (reported : Bool) :
    VersionInv row₀ (s.commitWrite r w reported) := by
  have hlock : s.lockedBy = some r := (hI.locked r).2 (by simp [hp, Phase.pending])
  have hother : ∀ q, q ≠ r → (s.runs q).phase.pending = none := by
    intro q hq
    cases hpq : (s.runs q).phase.pending with
    | none => rfl
    | some _ =>
      have := (hI.locked q).2 (by simp [hpq])
      rw [hlock, Option.some.injEq] at this
      exact absurd this.symm hq
  have hnd : ∀ d, (s.runs r).phase ≠ .done d := by simp [hp]
  have hflag := hI.conflict_false (by simp [hp]) hnd
  refine ⟨?_, ?_, fun q => ?_, fun q w' => ?_, fun x => ?_, fun q x => ?_, fun q => ?_⟩ <;>
    simp only [ObjectSystem.commitWrite, ObjectSystem.setRun, update_runs_apply]
  · rw [← List.cons_append]
    refine hI.chain.append (List.isChain_singleton w) ?_
    rw [hI.row_last]
    simpa using hI.pending r w (by simp [hp, Phase.pending])
  · rw [← List.cons_append, List.getLast?_append]
    simp
  · split
    · simp [Phase.pending]
    · rename_i hq
      simp [hother q hq]
  · split
    · simp [Phase.pending]
    · rename_i hq
      simp [hother q hq]
  · rw [List.mem_append, hI.durable x, List.mem_singleton]
    constructor
    · rintro (⟨q, hq⟩ | rfl)
      · have hqr : q ≠ r := by rintro rfl; exact hnd _ hq
        exact ⟨q, by rw [if_neg hqr]; exact hq⟩
      · exact ⟨r, by simp⟩
    · rintro ⟨q, hq⟩
      split at hq
      · simp only [Phase.done.injEq, Option.some.injEq] at hq
        exact .inr hq.symm
      · exact .inl ⟨q, hq⟩
  · split
    · subst_vars
      intro hn
      split at hn
      · simpa using hn
      · cases hn
    · exact hI.reported q x
  · split
    · subst_vars
      simp [hflag]
    · exact hI.conflict q

/-- Every step keeps the invariant. -/
theorem VersionInv.step (hI : VersionInv row₀ s) {e : ProcessEvent S R} {s' : ObjectSystem S R}
    (h : processStep s e = some s') : VersionInv row₀ s' := by
  rcases processStep_cases h with
    ⟨r, p, hnd, hpend, hdone, hlost, rfl⟩ | ⟨r, v, next, hp, rfl⟩ |
    ⟨r, v, next, now, hp, hl, hv, rfl⟩ | ⟨r, w, b, hp, rfl⟩ | ⟨r, hnd, rfl⟩
  · exact hI.setPhase hnd hpend hdone hlost
  · exact hI.loseSwap hp
  · exact hI.winSwap hp hl hv
  · exact hI.commitWrite hp b
  · exact hI.abort hnd

end Inv

/-- Only the commit of a won swap changes the row or the history, and it
appends its write. -/
theorem processStep_row {s s' : ObjectSystem S R} {e : ProcessEvent S R}
    (h : processStep s e = some s') :
    (s'.row = s.row ∧ s'.stateHistory = s.stateHistory) ∨
    ∃ r w, (s.runs r).phase = .historyWritten w ∧ s'.row = w ∧
      s'.stateHistory = s.stateHistory ++ [w] := by
  rcases processStep_cases h with
    ⟨r, p, -, -, -, -, rfl⟩ | ⟨r, v, next, -, rfl⟩ | ⟨r, v, next, now, -, -, -, rfl⟩ |
    ⟨r, w, b, hp, rfl⟩ | ⟨r, -, rfl⟩
  · exact .inl ⟨rfl, rfl⟩
  · exact .inl ⟨rfl, rfl⟩
  · exact .inl ⟨rfl, rfl⟩
  · exact .inr ⟨r, w, hp, rfl, rfl⟩
  · exact .inl ⟨rfl, rfl⟩

/-- Over every interleaving of handling runs on one object: the history rows
are a chain of `increment()`s from the row the runs started on, and the row
holds the last; the history rows are exactly the swaps that committed; a run
reports a next state (so emits its event and requeues as a transition) only
for its own committed swap; a run flagged for a lost swap reports none and
commits nothing; a swap that finds another version committed flags its run,
reports nothing and leaves the row and history as they were; and only the
commit of a won swap changes the row, appending its write. -/
theorem transitions_form_version_chain {s₀ s : ObjectSystem S R} {evs : List (ProcessEvent S R)}
    (h0 : processSystem.init s₀) (hrun : processSystem.Run s₀ evs s) :
    (s₀.row :: s.stateHistory).IsChain Increments ∧
    (s₀.row :: s.stateHistory).getLast? = some s.row ∧
    (∀ w, w ∈ s.stateHistory ↔ ∃ r, (s.runs r).phase = .done (some w)) ∧
    (∀ r w, (s.runs r).nextState = some w →
      (s.runs r).phase = .done (some w) ∧ w ∈ s.stateHistory) ∧
    (∀ r, (s.runs r).transitionConflict = true →
      (s.runs r).nextState = none ∧ ((s.runs r).phase = .casLost ∨ (s.runs r).phase = .done none)) ∧
    (∀ r v next now s', (s.runs r).phase = .handled v (.transition next) → s.row.1 ≠ v →
      processStep s (.persistControllerState r now) = some s' →
      (s'.runs r).transitionConflict = true ∧ (s'.runs r).nextState = none ∧
      s'.row = s.row ∧ s'.stateHistory = s.stateHistory) ∧
    (∀ e s', processStep s e = some s' →
      (s'.row = s.row ∧ s'.stateHistory = s.stateHistory) ∨
      ∃ r w, (s.runs r).phase = .historyWritten w ∧ s'.row = w ∧
        s'.stateHistory = s.stateHistory ++ [w]) := by
  have hI : VersionInv s₀.row s :=
    hrun.preserve (fun _ _ _ hI hstep => hI.step hstep) (versionInv_init h0)
  refine ⟨hI.chain, hI.row_last, hI.durable, fun r w hn => ?_, fun r hc => ⟨?_, hI.conflict r hc⟩,
    fun r v next now s' hp hv h => ?_, fun e s' h => processStep_row h⟩
  · have hp := hI.reported r w hn
    exact ⟨hp, (hI.durable w).2 ⟨r, hp⟩⟩
  · -- a flagged run ended with nothing or has not ended
    cases hn : (s.runs r).nextState with
    | none => rfl
    | some w =>
      rcases hI.conflict r hc with h | h <;> rw [hI.reported r w hn] at h <;> cases h
  · -- the losing run was handling, so it had reported nothing
    have hnd : ∀ d, (s.runs r).phase ≠ .done d := by simp [hp]
    rw [processStep_persist_lost hp hv h]
    exact ⟨by simp, by simpa using hI.nextState_eq_none hnd, rfl, rfl⟩

/-- Runs 0 and 1 both load version 1 and transition; run 0 swaps first and
commits, run 1's swap then loses. -/
def conflictSchedule : List (ProcessEvent Nat Nat) :=
  [.load 0, .load 1, .handle 0 (.transition 5), .handle 1 (.transition 6),
    .persistControllerState 0 10, .persistStateHistory 0, .commit 0,
    .persistControllerState 1 11, .commit 1]

/-- Both runs start on state 0 at version 1. -/
def twoRuns : ObjectSystem Nat Nat := ⟨(⟨1, 0⟩, 0), [], none, fun _ => ⟨.start, false, none⟩⟩

theorem transitions_form_version_chain_conflict :
    processSystem.init twoRuns ∧ ∃ s, processSystem.Run twoRuns conflictSchedule s ∧
    (s.runs 1).transitionConflict = true ∧
    (twoRuns.row :: s.stateHistory).IsChain Increments ∧
    (twoRuns.row :: s.stateHistory).getLast? = some s.row ∧
    (∀ w, w ∈ s.stateHistory ↔ ∃ r, (s.runs r).phase = .done (some w)) ∧
    (∀ r w, (s.runs r).nextState = some w →
      (s.runs r).phase = .done (some w) ∧ w ∈ s.stateHistory) ∧
    (∀ r, (s.runs r).transitionConflict = true →
      (s.runs r).nextState = none ∧ ((s.runs r).phase = .casLost ∨ (s.runs r).phase = .done none)) ∧
    (∀ r v next now s', (s.runs r).phase = .handled v (.transition next) → s.row.1 ≠ v →
      processStep s (.persistControllerState r now) = some s' →
      (s'.runs r).transitionConflict = true ∧ (s'.runs r).nextState = none ∧
      s'.row = s.row ∧ s'.stateHistory = s.stateHistory) ∧
    (∀ e s', processStep s e = some s' →
      (s'.row = s.row ∧ s'.stateHistory = s.stateHistory) ∨
      ∃ r w, (s.runs r).phase = .historyWritten w ∧ s'.row = w ∧
        s'.stateHistory = s.stateHistory ++ [w]) := by
  have h0 : processSystem.init twoRuns := ⟨rfl, rfl, fun _ => rfl⟩
  -- run 1's swap lost to run 0's committed one
  have h : (LTS.exec processStep twoRuns conflictSchedule).any
      fun s => (s.runs 1).transitionConflict := by decide
  obtain ⟨s, hrun, hflag⟩ := LTS.exists_run_of_exec processSystem.init h
  exact ⟨h0, s, hrun, hflag, transitions_form_version_chain h0 hrun⟩

end Carbide.StateController

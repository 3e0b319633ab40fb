import Carbide.Flow.RackTasks
import Carbide.Lib.Except

/-!
# Firing task schedules

A task schedule (rest-api/flow/internal/scheduler/taskschedule) is a
`task_schedule` row with a spec (one-time, interval or cron), an overlap
policy and `next_run_at`, and one `task_schedule_scope` row per rack with
the `last_task_id` submitted for it. Dispatcher instances poll for due
schedules and call `fire`; the `TriggerTaskSchedule` RPC calls `FireNow`.
Both run in three phases:

1. a transaction that locks the row (`LockForFire`: `FOR UPDATE SKIP
   LOCKED`, rechecking that the row is due; `LockForTrigger`: a blocking
   `FOR UPDATE`), picks the scopes to fire (for `fire` under the skip
   policy, those whose last task is not waiting, pending or running) and
   advances the row, then commits;
2. outside any transaction, `SubmitTask` for each picked scope;
3. a transaction that writes the new task ids to `last_task_id`, retried
   and possibly given up.

The model has one schedule and any number of firings, each a small state
machine; a step is one of the atomic parts above, so firings interleave
freely. The row lock is `lockedBy`. Two records of history are kept beside
the tables: `advances`, the committed Phase 1 transactions with the
`next_run_at` they locked and wrote, and each task's scope and firing.

Results:
* `phase_one_commits_chain`: Phase 1 commits are serialized by the row
  lock; each reads the `next_run_at` the previous one wrote, so every value
  is consumed by one commit, and `fire` consumes only due values.
* `one_time_schedule_fires_once`: a one-time schedule reaches Phase 2 at
  most once, over all `fire` and `FireNow` calls.
* `fire_overlaps_unrecorded_task`: under the skip policy, `fire` submits a
  task for a scope whose previous task is still pending, because that task's
  id is written in Phase 3, after the row lock is released.
-/
namespace Carbide.Flow

open Carbide.Lib

/-- `SpecType`, with what the dispatcher reads of `spec` and `timezone`. -/
inductive ScheduleSpec
  | oneTime
  /-- `time.ParseDuration(spec)` in seconds; `none` when it does not parse -/
  | interval (dur : Option Int)
  /-- `nextCronTime(spec, timezone, ·)`; `none` when the spec does not parse -/
  | cron (nextCronTime : Nat → Option Nat)

def ScheduleSpec.isOneTime : ScheduleSpec → Bool
  | .oneTime => true
  | _ => false

/-- `OverlapPolicy`; any value but `queue` behaves as `skip`. -/
inductive OverlapPolicy
  | skip
  | queue
  deriving DecidableEq

/-- The columns of `task_schedule` the dispatcher reads or writes. -/
structure TaskSchedule where
  spec : ScheduleSpec
  overlapPolicy : OverlapPolicy
  enabled : Bool
  nextRunAt : Option Nat
  lastRunAt : Option Nat

/-- The `WHERE` of `FetchDue` and `LockForFire`.
mirrors rest-api/flow/internal/scheduler/taskschedule/store.go:398-438 -/
def TaskSchedule.isDue (ts : TaskSchedule) (now : Nat) : Bool :=
  ts.enabled && ts.nextRunAt.any (· ≤ now)

structure AfterFireUpdate where
  lastRunAt : Nat
  enabled : Bool
  nextRunAt : Option Nat

/-- `UpdateAfterFire`; a `nextRunAt` of `none` is written as NULL.
mirrors rest-api/flow/internal/scheduler/taskschedule/store.go:462-484 -/
def TaskSchedule.updateAfterFire (ts : TaskSchedule) (u : AfterFireUpdate) : TaskSchedule :=
  { ts with lastRunAt := some u.lastRunAt, enabled := u.enabled, nextRunAt := u.nextRunAt }

inductive FireError
  /-- "invalid interval spec %q: %w" -/
  | invalidIntervalSpec
  /-- "interval spec %q must be a positive duration" -/
  | nonPositiveInterval
  /-- "advance cron spec: %w" -/
  | advanceCronSpec
  /-- "overlap check for scope %s: %w", when `GetTask` fails -/
  | overlapCheck (scope : Nat)
  /-- "cannot trigger a one-time schedule that has already fired; create a new one instead" -/
  | alreadyFired
  deriving DecidableEq

/-- The row after a firing: a one-time schedule is consumed, a recurring one
keeps its `enabled` and moves to its next time.
mirrors rest-api/flow/internal/scheduler/taskschedule/dispatcher.go:492-536 -/
def applyAfterFire (ts : TaskSchedule) (now : Nat) : Except FireError TaskSchedule :=
  match ts.spec with
  | .oneTime => .ok (ts.updateAfterFire ⟨now, false, none⟩)
  | .interval none => .error .invalidIntervalSpec
  | .interval (some dur) =>
    if dur ≤ 0 then .error .nonPositiveInterval
    else .ok (ts.updateAfterFire ⟨now, ts.enabled, some (now + dur.toNat)⟩)
  | .cron nextCronTime =>
    match nextCronTime now with
    | none => .error .advanceCronSpec
    | some next => .ok (ts.updateAfterFire ⟨now, ts.enabled, some next⟩)

/-- The row after a pass that fires nothing; a recurring schedule's
`last_run_at` is left alone (`Update` of `next_run_at` only).
mirrors rest-api/flow/internal/scheduler/taskschedule/dispatcher.go:320-363 -/
def advanceOnly (ts : TaskSchedule) (now : Nat) : Except FireError TaskSchedule :=
  match ts.spec with
  | .oneTime => .ok (ts.updateAfterFire ⟨now, false, none⟩)
  | .interval none => .error .invalidIntervalSpec
  | .interval (some dur) =>
    if dur ≤ 0 then .error .nonPositiveInterval
    else .ok { ts with nextRunAt := some (now + dur.toNat) }
  | .cron nextCronTime =>
    match nextCronTime now with
    | none => .error .advanceCronSpec
    | some next => .ok { ts with nextRunAt := some next }

/-- mirrors rest-api/flow/internal/scheduler/taskschedule/dispatcher.go:588-598 -/
def isTaskActive (st : TaskStatus) : Bool :=
  st == .waiting || st == .pending || st == .running

/-- The skip policy's pass over the scopes, given each one's `last_task_id`
and index: a scope that never fired is kept, one whose last task is active is
dropped, and a task `GetTask` cannot read is an error. -/
def skipActiveScopes (getTask : Nat → Option TaskStatus) :
    List (Option Nat × Nat) → Except FireError (List Nat)
  | [] => .ok []
  | (none, i) :: scopes => (skipActiveScopes getTask scopes).map (i :: ·)
  | (some t, i) :: scopes =>
    match getTask t with
    | none => .error (.overlapCheck i)
    | some st =>
      if isTaskActive st then skipActiveScopes getTask scopes
      else (skipActiveScopes getTask scopes).map (i :: ·)

/-- The scopes to fire, by index.
mirrors rest-api/flow/internal/scheduler/taskschedule/dispatcher.go:538-586 -/
def filterScopesByPolicy (policy : OverlapPolicy) (getTask : Nat → Option TaskStatus)
    (scopes : List (Option Nat)) : Except FireError (List Nat) :=
  if policy = .queue then .ok (List.range scopes.length)
  else skipActiveScopes getTask scopes.zipIdx

/-- Phase 1 of `fire` once `LockForFire` returned the row: the row to commit
and the scopes to submit.
mirrors rest-api/flow/internal/scheduler/taskschedule/dispatcher.go:228-279 -/
def fireLocked (ts : TaskSchedule) (scopes : List (Option Nat))
    (getTask : Nat → Option TaskStatus) (now : Nat) : Except FireError (TaskSchedule × List Nat) :=
  if scopes.isEmpty then (advanceOnly ts now).map (·, [])
  else
    match filterScopesByPolicy ts.overlapPolicy getTask scopes with
    | .error e => .error e
    | .ok [] => (advanceOnly ts now).map (·, [])
    | .ok candidates => (applyAfterFire ts now).map (·, candidates)

/-- Phase 1 of `FireNow` once `LockForTrigger` returned the row: every scope
fires, with no overlap check.
mirrors rest-api/flow/internal/scheduler/taskschedule/dispatcher.go:676-713 -/
def fireNowLocked (ts : TaskSchedule) (scopes : List (Option Nat)) (now : Nat) :
    Except FireError (TaskSchedule × List Nat) :=
  if !ts.enabled && ts.spec.isOneTime && ts.nextRunAt.isNone then .error .alreadyFired
  else (applyAfterFire ts now).map (·, List.range scopes.length)

/-- The statuses `SubmitTask` creates a task with: pending, or waiting behind
a conflict under the queue strategy, which the queue policy selects.
mirrors rest-api/flow/internal/scheduler/taskschedule/dispatcher.go:412-425 -/
def createdStatus (policy : OverlapPolicy) (st : TaskStatus) : Bool :=
  st == .pending || (policy == .queue && st == .waiting)

/-- `UpdateScopeLastTaskIDs`, one `UPDATE` for all pairs (scope, task).
mirrors rest-api/flow/internal/scheduler/taskschedule/store.go:599-626 -/
def updateScopeLastTaskIDs (scopes : List (Option Nat)) (ids : List (Nat × Nat)) :
    List (Option Nat) :=
  ids.foldl (fun scs p => scs.set p.1 (some p.2)) scopes

/-- A task a firing submitted, with the scope and the firing it came from. -/
structure ScheduledTask where
  scope : Nat
  firedBy : Nat
  status : TaskStatus

inductive FiringKind
  /-- `Dispatcher.fire`, from a poll -/
  | fire
  /-- `Dispatcher.FireNow` -/
  | fireNow
  deriving DecidableEq

inductive FiringPhase
  | ready (now : Nat)
  /-- Phase 1's transaction holds the row; `read` is the `next_run_at` it
  locked -/
  | locked (now : Nat) (read : Option Nat)
  /-- Phase 2: the scopes left to submit and the (scope, task) pairs so far -/
  | submitting (scopes : List Nat) (ids : List (Nat × Nat))
  /-- Phase 3 -/
  | recording (ids : List (Nat × Nat))
  | done
  deriving DecidableEq

structure Firing where
  kind : FiringKind
  phase : FiringPhase

/-- A committed Phase 1: the firing, its kind and `now`, the `next_run_at` it
locked, the one it wrote and whether it went on to Phase 2. -/
structure Advance where
  firing : Nat
  kind : FiringKind
  now : Nat
  read : Option Nat
  written : Option Nat
  fired : Bool

structure ScheduleSystem where
  schedule : TaskSchedule
  /-- `last_task_id` of each scope -/
  scopes : List (Option Nat)
  /-- the tasks the firings submitted; a task's id is its position -/
  tasks : List ScheduledTask
  /-- the firing whose Phase 1 transaction holds the row lock -/
  lockedBy : Option Nat
  firings : List Firing
  /-- the committed Phase 1 transactions, oldest first -/
  advances : List Advance

inductive ScheduleEvent
  /-- a poll's `FetchDue` returned the schedule and `fire` starts -/
  | startFire (now : Nat)
  /-- `TriggerTaskSchedule` -/
  | startFireNow (now : Nat)
  | lock (a : Nat)
  | commit (a : Nat)
  /-- `SubmitTask` for the firing's next scope: the created task's status, or
  `none` when it fails -/
  | submit (a : Nat) (result : Option TaskStatus)
  | record (a : Nat)
  /-- Phase 3 exhausts its retries -/
  | recordFail (a : Nat)
  /-- the task manager moves a task to another status -/
  | taskStatus (t : Nat) (st : TaskStatus)

namespace ScheduleSystem

variable (s : ScheduleSystem)

/-- `GetTask`'s status of a task. -/
def getTask (t : Nat) : Option TaskStatus :=
  s.tasks[t]?.map (·.status)

def setPhase (a : Nat) (p : FiringPhase) : ScheduleSystem :=
  { s with firings := s.firings.modify a fun f => { f with phase := p } }

def lockRow (a now : Nat) : ScheduleSystem :=
  { s.setPhase a (.locked now s.schedule.nextRunAt) with lockedBy := some a }

/-- Phase 1 commits the row `ts` and releases the lock; the firing goes on to
Phase 2 when there are scopes to submit. -/
def commitPhaseOne (a : Nat) (k : FiringKind) (now : Nat) (read : Option Nat) (ts : TaskSchedule)
    (scopes : List Nat) : ScheduleSystem :=
  { s.setPhase a (if scopes.isEmpty then .done else .submitting scopes []) with
    schedule := ts
    lockedBy := none
    advances := s.advances ++ [⟨a, k, now, read, ts.nextRunAt, !scopes.isEmpty⟩] }

/-- Phase 1 rolls back and releases the lock. -/
def rollback (a : Nat) : ScheduleSystem :=
  { s.setPhase a .done with lockedBy := none }

end ScheduleSystem

/-- The phase after one scope's submission: the next scope, else Phase 3 when
some task was created. -/
def afterSubmit (scopes : List Nat) (ids : List (Nat × Nat)) : FiringPhase :=
  if scopes.isEmpty then (if ids.isEmpty then .done else .recording ids)
  else .submitting scopes ids

def scheduleStep (s : ScheduleSystem) : ScheduleEvent → Option ScheduleSystem
  | .startFire now =>
    if s.schedule.isDue now then some { s with firings := s.firings ++ [⟨.fire, .ready now⟩] }
    else none
  | .startFireNow now => some { s with firings := s.firings ++ [⟨.fireNow, .ready now⟩] }
  | .lock a =>
    match s.firings[a]? with
    | some ⟨.fire, .ready now⟩ =>
      -- `SKIP LOCKED`: a row locked by another transaction, or no longer
      -- due, is skipped and the firing ends
      if s.lockedBy.isNone && s.schedule.isDue now then some (s.lockRow a now)
      else some (s.setPhase a .done)
    | some ⟨.fireNow, .ready now⟩ =>
      -- a blocking `FOR UPDATE` waits for the lock
      if s.lockedBy.isNone then some (s.lockRow a now) else none
    | _ => none
  | .commit a =>
    match s.firings[a]? with
    | some ⟨k, .locked now read⟩ =>
      let result := match k with
        | .fire => fireLocked s.schedule s.scopes s.getTask now
        | .fireNow => fireNowLocked s.schedule s.scopes now
      match result with
      | .ok (ts, scopes) => some (s.commitPhaseOne a k now read ts scopes)
      | .error _ => some (s.rollback a)
    | _ => none
  | .submit a result =>
    match s.firings[a]? with
    | some ⟨_, .submitting (c :: cs) ids⟩ =>
      match result with
      | none => some (s.setPhase a (afterSubmit cs ids))
      | some st =>
        if createdStatus s.schedule.overlapPolicy st then
          some { s.setPhase a (afterSubmit cs (ids ++ [(c, s.tasks.length)])) with
            tasks := s.tasks ++ [⟨c, a, st⟩] }
        else none
    | _ => none
  | .record a =>
    match s.firings[a]? with
    | some ⟨_, .recording ids⟩ =>
      some { s.setPhase a .done with scopes := updateScopeLastTaskIDs s.scopes ids }
    | _ => none
  | .recordFail a =>
    match s.firings[a]? with
    | some ⟨_, .recording _⟩ => some (s.setPhase a .done)
    | _ => none
  | .taskStatus t st =>
    if t < s.tasks.length then
      some { s with tasks := s.tasks.modify t fun x => { x with status := st } }
    else none

/-- A schedule as created: no scope has fired and no firing has started. -/
def scheduleSystem : LTS ScheduleSystem ScheduleEvent :=
  LTS.ofFn
    (fun s => (∀ l ∈ s.scopes, l = none) ∧ s.tasks = [] ∧ s.lockedBy = none ∧ s.firings = [] ∧
      s.advances = [])
    scheduleStep

/-! ## What a Phase 1 commit writes -/

/-- The row `ts'` a Phase 1 commit writes over `ts`: the spec and policy
stay, and a one-time schedule is consumed. -/
structure Advanced (ts ts' : TaskSchedule) : Prop where
  spec : ts'.spec = ts.spec
  overlapPolicy : ts'.overlapPolicy = ts.overlapPolicy
  consumed : ts.spec.isOneTime = true → ts'.enabled = false ∧ ts'.nextRunAt = none

section Advanced

variable {ts ts' : TaskSchedule} {now : Nat}

/-- A recurring schedule is advanced when its spec and policy stay. -/
theorem advanced_of_recurring (hs : ts.spec.isOneTime = false) (hspec : ts'.spec = ts.spec)
    (hp : ts'.overlapPolicy = ts.overlapPolicy) : Advanced ts ts' :=
  ⟨hspec, hp, fun h1 => by rw [hs] at h1; cases h1⟩

theorem applyAfterFire_advanced (h : applyAfterFire ts now = .ok ts') : Advanced ts ts' := by
  cases hs : ts.spec with
  | oneTime =>
    simp only [applyAfterFire, hs, Except.ok.injEq] at h
    subst h
    exact ⟨rfl, rfl, fun _ => ⟨rfl, rfl⟩⟩
  | interval dur =>
    have hr : ts.spec.isOneTime = false := by rw [hs]; rfl
    rcases dur with _ | dur <;> simp only [applyAfterFire, hs] at h
    · cases h
    · split at h
      · cases h
      · cases h
        exact advanced_of_recurring hr rfl rfl
  | cron nextCronTime =>
    have hr : ts.spec.isOneTime = false := by rw [hs]; rfl
    simp only [applyAfterFire, hs] at h
    split at h
    · cases h
    · cases h
      exact advanced_of_recurring hr rfl rfl

theorem advanceOnly_advanced (h : advanceOnly ts now = .ok ts') : Advanced ts ts' := by
  cases hs : ts.spec with
  | oneTime =>
    simp only [advanceOnly, hs, Except.ok.injEq] at h
    subst h
    exact ⟨rfl, rfl, fun _ => ⟨rfl, rfl⟩⟩
  | interval dur =>
    have hr : ts.spec.isOneTime = false := by rw [hs]; rfl
    rcases dur with _ | dur <;> simp only [advanceOnly, hs] at h
    · cases h
    · split at h
      · cases h
      · cases h
        exact advanced_of_recurring hr hs.symm rfl
  | cron nextCronTime =>
    have hr : ts.spec.isOneTime = false := by rw [hs]; rfl
    simp only [advanceOnly, hs] at h
    split at h
    · cases h
    · cases h
      exact advanced_of_recurring hr hs.symm rfl

theorem fireLocked_advanced {scopes : List (Option Nat)} {getTask : Nat → Option TaskStatus}
    {cs : List Nat} (h : fireLocked ts scopes getTask now = .ok (ts', cs)) : Advanced ts ts' := by
  unfold fireLocked at h
  split at h
  · obtain ⟨t, ht, he⟩ := Except.map_eq_ok h
    cases he
    exact advanceOnly_advanced ht
  · split at h
    · cases h
    · obtain ⟨t, ht, he⟩ := Except.map_eq_ok h
      cases he
      exact advanceOnly_advanced ht
    · obtain ⟨t, ht, he⟩ := Except.map_eq_ok h
      cases he
      exact applyAfterFire_advanced ht

theorem fireNowLocked_advanced {scopes : List (Option Nat)} {cs : List Nat}
    (h : fireNowLocked ts scopes now = .ok (ts', cs)) : Advanced ts ts' := by
  unfold fireNowLocked at h
  split at h
  · cases h
  · obtain ⟨t, ht, he⟩ := Except.map_eq_ok h
    cases he
    exact applyAfterFire_advanced ht

/-- `FireNow` refuses a consumed one-time schedule. -/
theorem fireNowLocked_consumed {scopes : List (Option Nat)} (hs : ts.spec.isOneTime = true)
    (he : ts.enabled = false) (hn : ts.nextRunAt = none) :
    fireNowLocked ts scopes now = .error .alreadyFired := by
  simp [fireNowLocked, hs, he, hn]

end Advanced

/-! ## Phase 1 under the row lock -/

/-- An entry of a list with one entry appended is an old one or the new one. -/
theorem getElem?_append_singleton_eq_some {α : Type} {l : List α} {x r : α} {i : Nat}
    (h : (l ++ [x])[i]? = some r) : l[i]? = some r ∨ i = l.length ∧ r = x := by
  rw [List.getElem?_append] at h
  split at h
  · exact .inl h
  · rename_i hi
    rw [List.getElem?_singleton] at h
    split at h
    · exact .inr ⟨by omega, (Option.some.inj h).symm⟩
    · cases h

namespace ScheduleSystem

variable {s : ScheduleSystem} {a b : Nat} {p : FiringPhase}

theorem getElem?_setPhase_eq_some {f : Firing} (h : (s.setPhase a p).firings[b]? = some f) :
    a = b ∧ f.phase = p ∧ (∃ f₀, s.firings[b]? = some f₀ ∧ f.kind = f₀.kind) ∨
      a ≠ b ∧ s.firings[b]? = some f := by
  simp only [setPhase, List.getElem?_modify] at h
  cases h₀ : s.firings[b]? with
  | none => rw [h₀] at h; cases h
  | some f₀ =>
    rw [h₀] at h
    simp only [Option.map_eq_map, Option.map_some, Option.some.injEq] at h
    split at h
    · subst h
      exact .inl ⟨‹_›, rfl, f₀, rfl, rfl⟩
    · subst h
      exact .inr ⟨‹_›, rfl⟩

theorem getElem?_setPhase_self {f₀ : Firing} (h : s.firings[a]? = some f₀) :
    (s.setPhase a p).firings[a]? = some { f₀ with phase := p } := by
  simp [setPhase, h]

theorem getElem?_setPhase_of_ne (hab : a ≠ b) : (s.setPhase a p).firings[b]? = s.firings[b]? := by
  simp [setPhase, hab]

end ScheduleSystem

open ScheduleSystem

/-- What the row lock gives, for a schedule created as `ts₀`. -/
structure FireInv (ts₀ : TaskSchedule) (s : ScheduleSystem) : Prop where
  spec : s.schedule.spec = ts₀.spec
  overlapPolicy : s.schedule.overlapPolicy = ts₀.overlapPolicy
  /-- the lock is held by a firing in Phase 1 -/
  holder : ∀ a, s.lockedBy = some a →
    ∃ (f : Firing) (now : Nat) (r : Option Nat), s.firings[a]? = some f ∧ f.phase = .locked now r
  /-- a firing in Phase 1 holds the lock, and the row is as it locked it -/
  locked : ∀ (a : Nat) (f : Firing) (now : Nat) (r : Option Nat), s.firings[a]? = some f →
    f.phase = .locked now r →
    s.lockedBy = some a ∧ r = s.schedule.nextRunAt ∧ (f.kind = .fire → s.schedule.isDue now = true)
  /-- each commit read what the one before it wrote -/
  chain : s.advances.map (·.read) ++ [s.schedule.nextRunAt] =
    ts₀.nextRunAt :: s.advances.map (·.written)
  /-- `fire` commits only a value that was due at its `now` -/
  dueRead : ∀ adv ∈ s.advances, adv.kind = .fire → ∃ v, adv.read = some v ∧ v ≤ adv.now
  oneTime : ts₀.spec.isOneTime = true → s.advances.length ≤ 1 ∧
    (s.advances ≠ [] → s.schedule.enabled = false ∧ s.schedule.nextRunAt = none)
  /-- every task comes from a commit that went on to Phase 2 -/
  submitted : ∀ (i : Nat) (t : ScheduledTask), s.tasks[i]? = some t →
    ∃ adv ∈ s.advances, adv.firing = t.firedBy ∧ adv.fired = true
  inPhaseTwo : ∀ (a : Nat) (f : Firing) (cs : List Nat) (ids : List (Nat × Nat)),
    s.firings[a]? = some f → f.phase = .submitting cs ids →
    ∃ adv ∈ s.advances, adv.firing = a ∧ adv.fired = true

/-- The phase after a submission is not Phase 1. -/
theorem afterSubmit_ne_locked (cs : List Nat) (ids : List (Nat × Nat)) (now : Nat)
    (r : Option Nat) : afterSubmit cs ids ≠ .locked now r := by
  unfold afterSubmit
  split
  · split <;> intro h <;> cases h
  · intro h
    cases h

namespace FireInv

variable {ts₀ : TaskSchedule} {s : ScheduleSystem} {a : Nat} {f₀ : Firing}

theorem init (h : scheduleSystem.init s) : FireInv s.schedule s := by
  obtain ⟨-, htasks, hlock, hfirings, hadv⟩ := h
  refine ⟨rfl, rfl, fun a ha => ?_, fun a f now r hf => ?_, ?_, fun adv h => ?_, fun _ => ?_,
    fun i t ht => ?_, fun a f cs ids hf => ?_⟩
  · rw [hlock] at ha; cases ha
  · rw [hfirings] at hf; cases hf
  · rw [hadv]; rfl
  · rw [hadv] at h; cases h
  · rw [hadv]; exact ⟨Nat.zero_le _, fun h => absurd rfl h⟩
  · rw [htasks] at ht; cases ht
  · rw [hfirings] at hf; cases hf

/-- A firing that moves between phases outside Phase 1, into Phase 2 only
after its commit. -/
theorem setPhase (hI : FireInv ts₀ s) (hf : s.firings[a]? = some f₀)
    (hp₀ : ∀ now r, f₀.phase ≠ .locked now r) (hp : ∀ now r, p ≠ .locked now r)
    (hsub : ∀ cs ids, p = .submitting cs ids →
      ∃ adv ∈ s.advances, adv.firing = a ∧ adv.fired = true) :
    FireInv ts₀ (s.setPhase a p) := by
  refine ⟨hI.spec, hI.overlapPolicy, fun b hb => ?_, fun b f now r hb hl => ?_, hI.chain,
    hI.dueRead, hI.oneTime, hI.submitted, fun b f cs ids hb hs => ?_⟩
  · obtain ⟨f, now, r, hb', hl⟩ := hI.holder b hb
    -- the lock holder is in Phase 1, so it is not the firing that moved
    have hab : a ≠ b := by
      rintro rfl
      rw [hf] at hb'
      cases hb'
      exact hp₀ now r hl
    exact ⟨f, now, r, (getElem?_setPhase_of_ne hab).trans hb', hl⟩
  · rcases getElem?_setPhase_eq_some hb with ⟨-, hfp, -⟩ | ⟨-, hb⟩
    · exact absurd (hfp.symm.trans hl) (hp now r)
    · exact hI.locked b f now r hb hl
  · rcases getElem?_setPhase_eq_some hb with ⟨rfl, hfp, -⟩ | ⟨-, hb⟩
    · exact hsub cs ids (hfp.symm.trans hs)
    · exact hI.inPhaseTwo b f cs ids hb hs

/-- Scopes' `last_task_id` is not part of the invariant. -/
theorem setScopes (hI : FireInv ts₀ s) (scopes : List (Option Nat)) :
    FireInv ts₀ { s with scopes := scopes } :=
  ⟨hI.spec, hI.overlapPolicy, hI.holder, hI.locked, hI.chain, hI.dueRead, hI.oneTime,
    hI.submitted, hI.inPhaseTwo⟩

theorem addFiring (hI : FireInv ts₀ s) (k : FiringKind) (now : Nat) :
    FireInv ts₀ { s with firings := s.firings ++ [⟨k, .ready now⟩] } := by
  refine ⟨hI.spec, hI.overlapPolicy, fun b hb => ?_, fun b f now' r hb hl => ?_, hI.chain,
    hI.dueRead, hI.oneTime, hI.submitted, fun b f cs ids hb hs => ?_⟩
  · obtain ⟨f, now', r, hb', hl⟩ := hI.holder b hb
    exact ⟨f, now', r, List.getElem?_append_left (List.getElem?_eq_some_iff.1 hb').1 ▸ hb', hl⟩
  -- the new firing is ready: neither in Phase 1 nor in Phase 2
  · rcases getElem?_append_singleton_eq_some hb with hb | ⟨-, rfl⟩
    · exact hI.locked b f now' r hb hl
    · cases hl
  · rcases getElem?_append_singleton_eq_some hb with hb | ⟨-, rfl⟩
    · exact hI.inPhaseTwo b f cs ids hb hs
    · cases hs

theorem lockRow (hI : FireInv ts₀ s) (hf : s.firings[a]? = some f₀) (hfree : s.lockedBy = none)
    (hdue : f₀.kind = .fire → s.schedule.isDue now = true) : FireInv ts₀ (s.lockRow a now) := by
  refine ⟨hI.spec, hI.overlapPolicy, fun b hb => ?_, fun b f now' r hb hl => ?_, hI.chain,
    hI.dueRead, hI.oneTime, hI.submitted, fun b f cs ids hb hs => ?_⟩
  · cases hb
    exact ⟨_, now, _, getElem?_setPhase_self hf, rfl⟩
  · rcases getElem?_setPhase_eq_some hb with ⟨rfl, hfp, f₁, hf₁, hk⟩ | ⟨hab, hb⟩
    · -- the firing that took the lock
      rw [hfp] at hl
      cases hl
      rw [hf] at hf₁
      cases hf₁
      exact ⟨rfl, rfl, fun hk' => hdue (hk.symm.trans hk')⟩
    · -- no other firing was in Phase 1, the lock being free
      have := (hI.locked b f now' r hb hl).1
      rw [hfree] at this
      cases this
  · rcases getElem?_setPhase_eq_some hb with ⟨-, hfp, -⟩ | ⟨-, hb⟩
    · rw [hfp] at hs; cases hs
    · exact hI.inPhaseTwo b f cs ids hb hs

/-- The firing in Phase 1 is the lock holder, and nothing else is in
Phase 1. -/
theorem only_holder (hI : FireInv ts₀ s) (hf : s.firings[a]? = some f₀)
    (hl : f₀.phase = .locked now r) {b : Nat} {f : Firing} (hb : s.firings[b]? = some f)
    {now' r'} (hl' : f.phase = .locked now' r') : b = a := by
  have h1 := (hI.locked a f₀ now r hf hl).1
  have h2 := (hI.locked b f now' r' hb hl').1
  rw [h1] at h2
  exact (Option.some.inj h2).symm

theorem rollback (hI : FireInv ts₀ s) (hf : s.firings[a]? = some f₀)
    (hl : f₀.phase = .locked now r) : FireInv ts₀ (s.rollback a) := by
  refine ⟨hI.spec, hI.overlapPolicy, fun b hb => ?_, fun b f now' r' hb hl' => ?_, hI.chain,
    hI.dueRead, hI.oneTime, hI.submitted, fun b f cs ids hb hs => ?_⟩
  · cases hb
  · rcases getElem?_setPhase_eq_some hb with ⟨-, hfp, -⟩ | ⟨hab, hb⟩
    · rw [hfp] at hl'; cases hl'
    · exact absurd (hI.only_holder hf hl hb hl').symm hab
  · rcases getElem?_setPhase_eq_some hb with ⟨-, hfp, -⟩ | ⟨-, hb⟩
    · rw [hfp] at hs; cases hs
    · exact hI.inPhaseTwo b f cs ids hb hs

/-- A Phase 1 commit of the lock holder. `hfresh`: a one-time schedule is
committed only once, which the callers show from the row. -/
theorem commitPhaseOne (hI : FireInv ts₀ s) (hf : s.firings[a]? = some f₀)
    (hl : f₀.phase = .locked now r) {ts : TaskSchedule} {cs : List Nat}
    (hadv : Advanced s.schedule ts) (hfresh : ts₀.spec.isOneTime = true → s.advances = []) :
    FireInv ts₀ (s.commitPhaseOne a f₀.kind now r ts cs) := by
  obtain ⟨-, hread, hdue⟩ := hI.locked a f₀ now r hf hl
  have hgrow : ∀ adv ∈ s.advances, adv ∈ (s.commitPhaseOne a f₀.kind now r ts cs).advances :=
    fun adv h => List.mem_append_left _ h
  refine ⟨hadv.spec.trans hI.spec, hadv.overlapPolicy.trans hI.overlapPolicy, fun b hb => ?_,
    fun b f now' r' hb hl' => ?_, ?_, fun adv h hk => ?_, fun hs => ?_, fun i t ht => ?_,
    fun b f cs' ids hb hs => ?_⟩
  · cases hb
  · rcases getElem?_setPhase_eq_some hb with ⟨-, hfp, -⟩ | ⟨hab, hb⟩
    · rw [hfp] at hl'
      split at hl' <;> cases hl'
    · exact absurd (hI.only_holder hf hl hb hl').symm hab
  · -- the new commit read the value the last one wrote
    show (s.advances ++ [Advance.mk a f₀.kind now r ts.nextRunAt !cs.isEmpty]).map (·.read) ++
        [ts.nextRunAt] =
      ts₀.nextRunAt :: (s.advances ++ [Advance.mk a f₀.kind now r ts.nextRunAt !cs.isEmpty]).map
        (·.written)
    simp only [List.map_append, List.map_cons, List.map_nil]
    rw [hread, hI.chain]
    rfl
  · rcases List.mem_append.1 h with h | h
    · exact hI.dueRead adv h hk
    · -- the row `fire` locked was due, and it has not changed since
      rw [List.mem_singleton] at h
      subst h
      have hd := hdue hk
      simp only [TaskSchedule.isDue, Bool.and_eq_true, Option.any_eq_true] at hd
      obtain ⟨-, v, hv, hle⟩ := hd
      exact ⟨v, hread.trans hv, of_decide_eq_true hle⟩
  · -- a one-time schedule is committed once, and consumed by it
    show (s.advances ++ _).length ≤ 1 ∧
      (s.advances ++ _ ≠ [] → ts.enabled = false ∧ ts.nextRunAt = none)
    rw [hfresh hs]
    exact ⟨Nat.le_refl _, fun _ => hadv.consumed (hI.spec ▸ hs)⟩
  · obtain ⟨adv, h, h'⟩ := hI.submitted i t ht
    exact ⟨adv, hgrow adv h, h'⟩
  · rcases getElem?_setPhase_eq_some hb with ⟨rfl, hfp, -⟩ | ⟨-, hb⟩
    · -- this firing goes on to Phase 2 only with scopes, and its commit says so
      rw [hfp] at hs
      split at hs
      · cases hs
      · rename_i hcs
        exact ⟨_, List.mem_append_right _ List.mem_cons_self, rfl, by simpa using hcs⟩
    · obtain ⟨adv, h, h'⟩ := hI.inPhaseTwo b f cs' ids hb hs
      exact ⟨adv, hgrow adv h, h'⟩

theorem addTask (hI : FireInv ts₀ s)
    (hsub : ∃ adv ∈ s.advances, adv.firing = a ∧ adv.fired = true) (t : ScheduledTask)
    (ht : t.firedBy = a) : FireInv ts₀ { s with tasks := s.tasks ++ [t] } := by
  refine ⟨hI.spec, hI.overlapPolicy, hI.holder, hI.locked, hI.chain, hI.dueRead, hI.oneTime,
    fun i t' ht' => ?_, hI.inPhaseTwo⟩
  rcases getElem?_append_singleton_eq_some ht' with ht' | ⟨-, rfl⟩
  · exact hI.submitted i t' ht'
  · rw [ht]; exact hsub

theorem setTaskStatus (hI : FireInv ts₀ s) (i : Nat) (st : TaskStatus) :
    FireInv ts₀ { s with tasks := s.tasks.modify i fun x => { x with status := st } } := by
  refine ⟨hI.spec, hI.overlapPolicy, hI.holder, hI.locked, hI.chain, hI.dueRead, hI.oneTime,
    fun j t ht => ?_, hI.inPhaseTwo⟩
  simp only [List.getElem?_modify] at ht
  cases h₀ : s.tasks[j]? with
  | none => rw [h₀] at ht; cases ht
  | some t₀ =>
    rw [h₀] at ht
    obtain ⟨adv, h, h'⟩ := hI.submitted j t₀ h₀
    -- a status change keeps the firing a task came from
    have : t.firedBy = t₀.firedBy := by
      simp only [Option.map_eq_map, Option.map_some, Option.some.injEq] at ht
      split at ht <;> subst ht <;> rfl
    exact ⟨adv, h, h'.1.trans this.symm, h'.2⟩

/-- A one-time schedule that has been committed is not committed again: `fire`
finds it disabled, `FireNow` refuses it. -/
theorem fresh (hI : FireInv ts₀ s) (hf : s.firings[a]? = some f₀) (hl : f₀.phase = .locked now r)
    {res : TaskSchedule × List Nat}
    (hres : (match f₀.kind with
      | .fire => fireLocked s.schedule s.scopes s.getTask now
      | .fireNow => fireNowLocked s.schedule s.scopes now) = .ok res) :
    ts₀.spec.isOneTime = true → s.advances = [] := by
  intro hs
  by_contra hne
  obtain ⟨hen, hnext⟩ := (hI.oneTime hs).2 hne
  have hs' : s.schedule.spec.isOneTime = true := hI.spec ▸ hs
  cases hk : f₀.kind with
  | fire =>
    have hd := (hI.locked a f₀ now r hf hl).2.2 hk
    rw [TaskSchedule.isDue, hen] at hd
    cases hd
  | fireNow =>
    rw [hk] at hres
    rw [fireNowLocked_consumed hs' hen hnext] at hres
    cases hres

/-- The step lemma: every step keeps the invariant. -/
theorem step (hI : FireInv ts₀ s) {e : ScheduleEvent} {s' : ScheduleSystem}
    (h : scheduleStep s e = some s') : FireInv ts₀ s' := by
  -- the phases a firing moves between outside Phase 1
  have hready : ∀ (now n : Nat) (r' : Option Nat), FiringPhase.ready now ≠ .locked n r' :=
    fun _ _ _ h => by cases h
  have hdone : ∀ (n : Nat) (r' : Option Nat), FiringPhase.done ≠ .locked n r' :=
    fun _ _ h => by cases h
  cases e with
  | startFire now =>
    simp only [scheduleStep] at h
    split at h
    · cases h
      exact hI.addFiring .fire now
    · cases h
  | startFireNow now =>
    cases h
    exact hI.addFiring .fireNow now
  | lock a =>
    simp only [scheduleStep] at h
    split at h
    · rename_i now hf
      split at h
      · rename_i hg
        cases h
        rw [Bool.and_eq_true, Option.isNone_iff_eq_none] at hg
        exact hI.lockRow hf hg.1 fun _ => hg.2
      · cases h
        exact hI.setPhase hf (hready now) hdone fun _ _ h => by cases h
    · rename_i now hf
      split at h
      · rename_i hg
        cases h
        exact hI.lockRow hf (Option.isNone_iff_eq_none.1 hg) fun hk => by cases hk
      · cases h
    · cases h
  | commit a =>
    simp only [scheduleStep] at h
    split at h
    · rename_i k now read hf
      split at h
      · rename_i ts cs hres
        cases h
        have hfresh := hI.fresh hf rfl hres
        cases k with
        | fire => exact hI.commitPhaseOne hf rfl (fireLocked_advanced hres) hfresh
        | fireNow => exact hI.commitPhaseOne hf rfl (fireNowLocked_advanced hres) hfresh
      · cases h
        exact hI.rollback hf rfl
    · cases h
  | submit a result =>
    simp only [scheduleStep] at h
    split at h
    · rename_i k c cs ids hf
      -- the firing is in Phase 2, after its commit
      have hsub := hI.inPhaseTwo a _ (c :: cs) ids hf rfl
      have hnl : ∀ (n : Nat) (r' : Option Nat), FiringPhase.submitting (c :: cs) ids ≠ .locked n r' :=
        fun _ _ h => by cases h
      split at h
      · cases h
        exact hI.setPhase hf hnl (afterSubmit_ne_locked cs ids) fun _ _ _ => hsub
      · split at h
        · cases h
          exact (hI.setPhase hf hnl (afterSubmit_ne_locked cs _) fun _ _ _ => hsub).addTask hsub
            ⟨c, a, _⟩ rfl
        · cases h
    · cases h
  | record a =>
    simp only [scheduleStep] at h
    split at h
    · rename_i k ids hf
      cases h
      exact (hI.setPhase hf (fun _ _ h => by cases h) hdone fun _ _ h => by cases h).setScopes _
    · cases h
  | recordFail a =>
    simp only [scheduleStep] at h
    split at h
    · rename_i k ids hf
      cases h
      exact hI.setPhase hf (fun _ _ h => by cases h) hdone fun _ _ h => by cases h
    · cases h
  | taskStatus t st =>
    simp only [scheduleStep] at h
    split at h
    · cases h
      exact hI.setTaskStatus t st
    · cases h

/-- The run lemma. -/
theorem run (hI : FireInv ts₀ s) {evs : List ScheduleEvent} {s' : ScheduleSystem}
    (h : scheduleSystem.Run s evs s') : FireInv ts₀ s' :=
  h.preserve (fun _ _ _ hI hstep => hI.step hstep) hI

end FireInv

/-! ## Results -/

/-- An interval schedule every 10 s, created due at 0, with the skip policy and
one rack scope. -/
def everyTenSeconds : ScheduleSystem :=
  ⟨⟨.interval (some 10), .skip, true, some 0, none⟩, [none], [], none, [], []⟩

/-- A one-time schedule due at 0, with one rack scope. -/
def oneTimeAtZero : ScheduleSystem :=
  ⟨⟨.oneTime, .skip, true, some 0, none⟩, [none], [], none, [], []⟩

/-- A poll's `fire` at 0 commits and submits a task for the scope; before its
Phase 3, the poll at 10 fires again and commits. -/
def overlappingFirings : List ScheduleEvent :=
  [.startFire 0, .lock 0, .commit 0, .submit 0 (some .pending), .startFire 10, .lock 1, .commit 1]

/-- A poll and a trigger race for a one-time schedule: the trigger takes the
lock, so the poll skips the row; the trigger fires; a second trigger is
refused. -/
def triggerRace : List ScheduleEvent :=
  [.startFire 0, .startFireNow 0, .lock 1, .lock 0, .commit 1, .submit 1 (some .pending),
    .startFireNow 5, .lock 2, .commit 2]

/-- Phase 1 commits are serialized by the row lock. Along every run of a
schedule as created, the commits, oldest first, read `next₀, w₁, w₂, …` where
`next₀` is the created value and `wᵢ` what the `i`-th commit wrote, and the row
holds the last value written: each value of `next_run_at` is consumed by the
one commit after it was written. A commit of `fire` read a value due at its
`now`. -/
theorem phase_one_commits_chain {s₀ s : ScheduleSystem} {evs : List ScheduleEvent}
    (h₀ : scheduleSystem.init s₀) (h : scheduleSystem.Run s₀ evs s) :
    s.advances.map (·.read) ++ [s.schedule.nextRunAt] =
      s₀.schedule.nextRunAt :: s.advances.map (·.written) ∧
    ∀ adv ∈ s.advances, adv.kind = .fire → ∃ v, adv.read = some v ∧ v ≤ adv.now := by
  have hI := (FireInv.init h₀).run h
  exact ⟨hI.chain, hI.dueRead⟩

theorem phase_one_commits_chain_overlapping :
    ∃ s, scheduleSystem.Run everyTenSeconds overlappingFirings s ∧
      s.advances.map (·.read) ++ [s.schedule.nextRunAt] =
        everyTenSeconds.schedule.nextRunAt :: s.advances.map (·.written) ∧
      ∀ adv ∈ s.advances, adv.kind = .fire → ∃ v, adv.read = some v ∧ v ≤ adv.now := by
  have h₀ : scheduleSystem.init everyTenSeconds := ⟨by simp [everyTenSeconds], rfl, rfl, rfl, rfl⟩
  have he : (LTS.exec scheduleStep everyTenSeconds overlappingFirings).isSome := by decide
  obtain ⟨s, hs⟩ := Option.isSome_iff_exists.1 he
  have hrun := LTS.run_of_exec scheduleSystem.init hs
  exact ⟨s, hrun, phase_one_commits_chain h₀ hrun⟩

theorem eq_of_mem_of_length_le_one {α : Type} {l : List α} (hl : l.length ≤ 1) {x y : α}
    (hx : x ∈ l) (hy : y ∈ l) : x = y := by
  rcases l with _ | ⟨z, _ | ⟨w, l⟩⟩
  · cases hx
  · rw [List.mem_singleton] at hx hy
    rw [hx, hy]
  · simp at hl

/-- A one-time schedule reaches Phase 2 at most once over all `fire` and
`FireNow` calls: at most one Phase 1 commit goes on to submit tasks, and every
task the schedule creates comes from that one firing. -/
theorem one_time_schedule_fires_once {s₀ s : ScheduleSystem} {evs : List ScheduleEvent}
    (h₀ : scheduleSystem.init s₀) (hone : s₀.schedule.spec = .oneTime)
    (h : scheduleSystem.Run s₀ evs s) :
    (s.advances.filter (·.fired)).length ≤ 1 ∧
      ∀ (i j : Nat) (t u : ScheduledTask), s.tasks[i]? = some t → s.tasks[j]? = some u →
        t.firedBy = u.firedBy := by
  have hI := (FireInv.init h₀).run h
  have hlen : s.advances.length ≤ 1 := (hI.oneTime (by rw [hone]; rfl)).1
  refine ⟨Nat.le_trans (List.length_filter_le _ _) hlen, fun i j t u ht hu => ?_⟩
  obtain ⟨adv, hadv, hft, -⟩ := hI.submitted i t ht
  obtain ⟨adv', hadv', hfu, -⟩ := hI.submitted j u hu
  -- there is at most one commit, so both tasks come from it
  rw [← hft, ← hfu, eq_of_mem_of_length_le_one hlen hadv hadv']

theorem one_time_schedule_fires_once_race :
    ∃ s, scheduleSystem.Run oneTimeAtZero triggerRace s ∧
      (s.advances.filter (·.fired)).length ≤ 1 ∧
      ∀ (i j : Nat) (t u : ScheduledTask), s.tasks[i]? = some t → s.tasks[j]? = some u →
        t.firedBy = u.firedBy := by
  have h₀ : scheduleSystem.init oneTimeAtZero := ⟨by simp [oneTimeAtZero], rfl, rfl, rfl, rfl⟩
  have he : (LTS.exec scheduleStep oneTimeAtZero triggerRace).isSome := by decide
  obtain ⟨s, hs⟩ := Option.isSome_iff_exists.1 he
  have hrun := LTS.run_of_exec scheduleSystem.init hs
  exact ⟨s, hrun, one_time_schedule_fires_once h₀ rfl hrun⟩

theorem fire_overlaps_unrecorded_task :
    ∃ s₁ s, scheduleSystem.init everyTenSeconds ∧
      scheduleSystem.Run everyTenSeconds overlappingFirings s₁ ∧
      s₁.schedule.overlapPolicy = .skip ∧
      (s₁.tasks[0]?.map fun t => (t.scope, isTaskActive t.status)) = some (0, true) ∧
      (s₁.firings[1]?.map (·.kind)) = some .fire ∧
      scheduleSystem.Run s₁ [.submit 1 (some .pending)] s ∧
      (s.tasks[1]?.map fun t => (t.scope, t.firedBy)) = some (0, 1) := by
  have h : (LTS.exec scheduleStep everyTenSeconds overlappingFirings).any fun s₁ =>
      decide (s₁.schedule.overlapPolicy = .skip) &&
      decide ((s₁.tasks[0]?.map fun t => (t.scope, isTaskActive t.status)) = some (0, true)) &&
      decide ((s₁.firings[1]?.map (·.kind)) = some .fire) &&
      (LTS.exec scheduleStep s₁ [.submit 1 (some .pending)]).any fun s =>
        decide ((s.tasks[1]?.map fun t => (t.scope, t.firedBy)) = some (0, 1)) := by
    decide
  obtain ⟨s₁, hrun₁, hs₁⟩ := LTS.exists_run_of_exec scheduleSystem.init h
  simp only [Bool.and_eq_true, decide_eq_true_eq] at hs₁
  obtain ⟨⟨⟨hpol, htask⟩, hkind⟩, hnext⟩ := hs₁
  obtain ⟨s, hrun₂, hs⟩ := LTS.exists_run_of_exec scheduleSystem.init hnext
  exact ⟨s₁, s, ⟨by simp [everyTenSeconds], rfl, rfl, rfl, rfl⟩, hrun₁, hpol, htask, hkind, hrun₂,
    of_decide_eq_true hs⟩

end Carbide.Flow

import Carbide.Lib.Lts
import Mathlib.Logic.Function.Basic

/-!
# The state controller's work queue

Objects wait for state handling as rows of a queued-objects table
(`object_id`, `processed_by`, `processing_started_at`). Three statements act on
it (state-controller/src/controller/db.rs), each one atomic:

* `queue_objects` inserts a row per object, `ON CONFLICT DO NOTHING`: an
  object that has a row keeps it, claimed or not;
* `acquire_queued_objects` claims rows that are unclaimed or whose claim is
  older than `max_outdated`, for one processor;
* `delete_queued_objects` deletes the given rows that the processor still
  holds.

`Enqueuer::enqueue_object` is one `queue_objects`. A `StateProcessor`
iteration acquires rows, runs a handling task per object (`process_object`
loads the object, then the handler runs), records each finished task
(`process_object_handling_task_result`: completed, and requeued when the
handler transitioned or lost the version check), and then finalizes: it
deletes its completed rows and queues the requeued objects, in one
transaction.

The system (`queueSystem`) interleaves any number of enqueuers and
processors over one table. Results:
* `unclaimed_row_persists`: an unclaimed row stays queued until some
  processor acquires it.
* `requeued_row_survives_finalize`: an object a processor requeues has a row
  after that processor's finalize.
* `enqueue_after_load_lost`: an enqueue that arrives while a processor
  handles the object is absorbed by the claimed row (`ON CONFLICT DO
  NOTHING`), and when the handler does not transition, the finalize deletes
  that row: the object is not handled again.
-/
namespace Carbide.StateController

open Carbide.Lib

variable {K P : Type} [DecidableEq K]

/-! ## The queued-objects table (state-controller/src/controller/db.rs) -/

/-- A row of a `*_controller_queued_objects` table, keyed by `object_id`. -/
structure QueuedRow (P : Type) where
  processedBy : Option P
  processingStartedAt : Nat
  deriving DecidableEq

abbrev QueueTable (K P : Type) := K → Option (QueuedRow P)

/-- `INSERT ... (object_id) VALUES (x) ON CONFLICT (object_id) DO NOTHING` for
one object: a new row is unclaimed and stamped `now` (the column default); an
existing row is kept as it is. The second component counts inserted rows. -/
def queueObject (t : QueueTable K P) (now : Nat) (x : K) : QueueTable K P × Nat :=
  match t x with
  | some _ => (t, 0)
  | none => (Function.update t x (some ⟨none, now⟩), 1)

/-- `queue_objects`. The source sorts the ids and inserts them in chunks; an
insert that keeps existing rows gives the same table in any order.
mirrors state-controller/src/controller/db.rs:119-171 -/
def queueObjects (t : QueueTable K P) (now : Nat) : List K → QueueTable K P × Nat
  | [] => (t, 0)
  | x :: xs =>
    let r := queueObject t now x
    let rs := queueObjects r.1 now xs
    (rs.1, r.2 + rs.2)

/-- `Enqueuer::enqueue_object`: `true` when a row was inserted.
mirrors state-controller/src/controller/enqueuer.rs:38-50 -/
def enqueueObject (t : QueueTable K P) (now : Nat) (objectId : K) : QueueTable K P × Bool :=
  let r := queueObjects t now [objectId]
  (r.1, r.2 == 1)

/-- The row may be claimed: it is unclaimed, or its claim is older than
`max_outdated`. -/
def QueuedRow.acquirable (maxOutdated now : Nat) (r : QueuedRow P) : Bool :=
  r.processedBy.isNone || decide (r.processingStartedAt + maxOutdated < now)

/-- `acquire_queued_objects`: claims acquirable rows for `processorId`,
stamped `now`. Which rows the query picks (`ORDER BY processing_started_at
... LIMIT count`, skipping rows that other transactions lock) is left to the
schedule: the candidates `xs`.
mirrors state-controller/src/controller/db.rs:191-228 -/
def acquireQueuedObjects (t : QueueTable K P) (xs : List K) (processorId : P)
    (maxOutdated now : Nat) : QueueTable K P × List K :=
  let picked := xs.filter fun x => (t x).any (·.acquirable maxOutdated now)
  (fun y => if y ∈ picked then some ⟨some processorId, now⟩ else t y, picked)

/-- `delete_queued_objects`: deletes the rows of `objectIds` that
`processorId` still holds.
mirrors state-controller/src/controller/db.rs:230-268 -/
def deleteQueuedObjects [DecidableEq P] (t : QueueTable K P) (objectIds : List K) (processorId : P) :
    QueueTable K P :=
  fun y => if y ∈ objectIds ∧ (t y).any (·.processedBy == some processorId) then none else t y

/-! ## The processor (state-controller/src/controller/processor.rs) -/

/-- A handling task, before or after `process_object` has loaded its object. -/
inductive TaskPhase
  | dispatched
  | loaded
  deriving DecidableEq

/-- What `process_object_handling_task_result` reads of a finished task's
metrics: `next_state.is_some()` and `transition_conflict`. -/
structure TaskResult where
  nextState : Bool
  transitionConflict : Bool
  deriving DecidableEq

/-- The fields of `StateProcessor` the queue protocol uses: `object_tasks`
(with each task's phase), `completed_objects` and `requeue_objects`. -/
structure ProcessorState (K : Type) where
  objectTasks : List (K × TaskPhase)
  completedObjects : List K
  requeueObjects : List K
  deriving DecidableEq

def ProcessorState.idle : ProcessorState K := ⟨[], [], []⟩

/-- mirrors state-controller/src/controller/processor.rs:539-558 -/
def processObjectHandlingTaskResult (s : ProcessorState K) (objectId : K) (r : TaskResult)
    (allowRequeue : Bool) : ProcessorState K :=
  { s with
    completedObjects := s.completedObjects.insert objectId
    requeueObjects :=
      if allowRequeue && (r.nextState || r.transitionConflict) then
        s.requeueObjects.insert objectId
      else s.requeueObjects }

/-- Both statements run in one transaction.
mirrors state-controller/src/controller/processor.rs:496-537 -/
def finalizeCompletedObjects [DecidableEq P] (t : QueueTable K P) (s : ProcessorState K) (processorId : P)
    (now : Nat) : QueueTable K P × ProcessorState K :=
  if s.completedObjects.isEmpty then (t, s)
  else
    let t := deleteQueuedObjects t s.completedObjects processorId
    ((queueObjects t now s.requeueObjects).1, { s with completedObjects := [], requeueObjects := [] })

/-! ## The system -/

structure QueueSystem (K P : Type) where
  table : QueueTable K P
  processors : P → ProcessorState K

inductive QueueEvent (K P : Type)
  /-- `Enqueuer::enqueue_object`, or the periodic enqueuer's insert of one object -/
  | enqueue (x : K) (now : Nat)
  /-- `dequeue_and_dispatch_object_handling_tasks` -/
  | acquire (p : P) (xs : List K) (now : Nat)
  /-- `process_object` loads the object in its first transaction -/
  | load (p : P) (x : K)
  /-- a loaded task finishes with result `r` -/
  | complete (p : P) (x : K) (r : TaskResult)
  /-- a task fails before it has loaded its object -/
  | fail (p : P) (x : K)
  /-- `finalize_completed_objects` -/
  | finalize (p : P) (now : Nat)

/-- The event may claim `x`'s row. -/
def QueueEvent.mayClaim {P : Type} (x : K) : QueueEvent K P → Bool
  | .acquire _ xs _ => decide (x ∈ xs)
  | _ => false

def QueueSystem.setProcessor [DecidableEq P] (s : QueueSystem K P) (p : P) (ps : ProcessorState K) :
    QueueSystem K P :=
  { s with processors := Function.update s.processors p ps }

/-- A finished task leaves `object_tasks` and is recorded; `run` and `drain`
both allow requeueing. -/
def finishTask (ps : ProcessorState K) (x : K) (phase : TaskPhase) (r : TaskResult) :
    ProcessorState K :=
  processObjectHandlingTaskResult { ps with objectTasks := ps.objectTasks.erase (x, phase) } x r true

def queueStep [DecidableEq P] (maxOutdated : Nat) (s : QueueSystem K P) : QueueEvent K P → Option (QueueSystem K P)
  | .enqueue x now => some { s with table := (enqueueObject s.table now x).1 }
  | .acquire p xs now =>
    let r := acquireQueuedObjects s.table xs p maxOutdated now
    let ps := s.processors p
    some ({ s with table := r.1 }.setProcessor p
      { ps with objectTasks := r.2.map (·, TaskPhase.dispatched) ++ ps.objectTasks })
  | .load p x =>
    let ps := s.processors p
    if (x, TaskPhase.dispatched) ∈ ps.objectTasks then
      some (s.setProcessor p
        { ps with objectTasks := (x, .loaded) :: ps.objectTasks.erase (x, .dispatched) })
    else none
  | .complete p x r =>
    if (x, TaskPhase.loaded) ∈ (s.processors p).objectTasks then
      some (s.setProcessor p (finishTask (s.processors p) x .loaded r))
    else none
  | .fail p x =>
    if (x, TaskPhase.dispatched) ∈ (s.processors p).objectTasks then
      some (s.setProcessor p (finishTask (s.processors p) x .dispatched ⟨false, false⟩))
    else none
  | .finalize p now =>
    let r := finalizeCompletedObjects s.table (s.processors p) p now
    some ({ s with table := r.1 }.setProcessor p r.2)

/-- Every processor starts idle; the table may hold anything. -/
def queueSystem [DecidableEq P] (maxOutdated : Nat) : LTS (QueueSystem K P) (QueueEvent K P) :=
  LTS.ofFn (fun s => ∀ p, s.processors p = .idle) (queueStep maxOutdated)

/-! ## The table operations -/

section Table

variable {t : QueueTable K P} {now : Nat} {x y : K} {r : QueuedRow P}

/-- An existing row survives an insert. -/
theorem queueObject_keep (h : t y = some r) : (queueObject t now x).1 y = some r := by
  unfold queueObject
  split
  · exact h
  · rename_i hx
    have hyx : y ≠ x := by rintro rfl; rw [h] at hx; cases hx
    dsimp only
    rw [Function.update_of_ne hyx]
    exact h

theorem queueObject_isSome : ((queueObject t now x).1 x).isSome := by
  unfold queueObject
  split
  · rename_i hx
    dsimp only
    rw [hx]
    rfl
  · dsimp only
    rw [Function.update_self]
    rfl

theorem queueObjects_keep {xs : List K} (h : t y = some r) : (queueObjects t now xs).1 y = some r := by
  induction xs generalizing t with
  | nil => exact h
  | cons x xs ih => exact ih (queueObject_keep h)

theorem queueObjects_isSome {xs : List K} (hx : x ∈ xs) : ((queueObjects t now xs).1 x).isSome := by
  induction xs generalizing t with
  | nil => cases hx
  | cons z xs ih =>
    rcases List.mem_cons.1 hx with rfl | hx
    · have hs : ((queueObject t now x).1 x).isSome := queueObject_isSome
      obtain ⟨r, hr⟩ := Option.isSome_iff_exists.1 hs
      show ((queueObjects _ now xs).1 x).isSome
      rw [queueObjects_keep hr]
      rfl
    · exact ih hx

theorem deleteQueuedObjects_of_not_held [DecidableEq P] {xs : List K} {p : P}
    (h : (t y).any (·.processedBy == some p) = false) : deleteQueuedObjects t xs p y = t y := by
  unfold deleteQueuedObjects
  rw [if_neg (by rw [h]; exact fun h' => Bool.false_ne_true h'.2)]

theorem acquireQueuedObjects_of_not_mem {xs : List K} {p : P} {m : Nat} (h : y ∉ xs) :
    (acquireQueuedObjects t xs p m now).1 y = t y := by
  unfold acquireQueuedObjects
  dsimp only
  rw [if_neg (fun h' => h (List.mem_filter.1 h').1)]

end Table

/-! ## What a step does -/

section Step

variable [DecidableEq P] {m : Nat} {s s' : QueueSystem K P} {e : QueueEvent K P}

/-- The table changes only by an enqueue, an acquire or a finalize. -/
theorem queueStep_table (h : queueStep m s e = some s') :
    (∃ x now, e = .enqueue x now ∧ s'.table = (enqueueObject s.table now x).1) ∨
    (∃ p xs now, e = .acquire p xs now ∧ s'.table = (acquireQueuedObjects s.table xs p m now).1) ∨
    (∃ p now, e = .finalize p now ∧
      s'.table = (finalizeCompletedObjects s.table (s.processors p) p now).1) ∨
    s'.table = s.table := by
  cases e with
  | enqueue x now =>
    cases h
    exact .inl ⟨x, now, rfl, rfl⟩
  | acquire p xs now =>
    cases h
    exact .inr (.inl ⟨p, xs, now, rfl, rfl⟩)
  | load p x =>
    simp only [queueStep] at h
    split at h
    · cases h; exact .inr (.inr (.inr rfl))
    · cases h
  | complete p x r =>
    simp only [queueStep] at h
    split at h
    · cases h; exact .inr (.inr (.inr rfl))
    · cases h
  | fail p x =>
    simp only [queueStep] at h
    split at h
    · cases h; exact .inr (.inr (.inr rfl))
    · cases h
  | finalize p now =>
    cases h
    exact .inr (.inr (.inl ⟨p, now, rfl, rfl⟩))

/-- A step changes at most one processor: its task list, a finished task, or
its finalize. -/
theorem queueStep_processors (h : queueStep m s e = some s') :
    s'.processors = s.processors ∨
    (∃ p ts, s'.processors = Function.update s.processors p { s.processors p with objectTasks := ts }) ∨
    (∃ p x ph r, s'.processors = Function.update s.processors p (finishTask (s.processors p) x ph r)) ∨
    (∃ p now, s'.processors =
      Function.update s.processors p (finalizeCompletedObjects s.table (s.processors p) p now).2) := by
  cases e with
  | enqueue x now =>
    cases h
    exact .inl rfl
  | acquire p xs now =>
    cases h
    exact .inr (.inl ⟨p, _, rfl⟩)
  | load p x =>
    simp only [queueStep] at h
    split at h
    · cases h; exact .inr (.inl ⟨p, _, rfl⟩)
    · cases h
  | complete p x r =>
    simp only [queueStep] at h
    split at h
    · cases h; exact .inr (.inr (.inl ⟨p, x, _, r, rfl⟩))
    · cases h
  | fail p x =>
    simp only [queueStep] at h
    split at h
    · cases h; exact .inr (.inr (.inl ⟨p, x, _, _, rfl⟩))
    · cases h
  | finalize p now =>
    cases h
    exact .inr (.inr (.inr ⟨p, now, rfl⟩))

end Step

/-! ## An unclaimed row stays queued -/

section Persist

variable [DecidableEq P] {x : K} {n : Nat}

/-- A processor's finalize leaves alone a row it does not hold. -/
theorem finalize_keep {t : QueueTable K P} {ps : ProcessorState K} {p : P} {now : Nat}
    {r : QueuedRow P} (hx : t x = some r) (hr : r.processedBy ≠ some p) :
    (finalizeCompletedObjects t ps p now).1 x = some r := by
  unfold finalizeCompletedObjects
  split
  · exact hx
  · have hkeep : deleteQueuedObjects t ps.completedObjects p x = some r := by
      rw [deleteQueuedObjects_of_not_held (by rw [hx]; simpa using hr)]
      exact hx
    exact queueObjects_keep hkeep

/-- An unclaimed row survives every step but an acquire that may pick it. -/
theorem queueStep_keeps_unclaimed {m : Nat} {s s' : QueueSystem K P} {e : QueueEvent K P}
    (hx : s.table x = some ⟨none, n⟩) (h : queueStep m s e = some s')
    (hacq : ¬ ∃ p xs now, e = .acquire p xs now ∧ x ∈ xs) : s'.table x = some ⟨none, n⟩ := by
  rcases queueStep_table h with ⟨y, now, -, ht⟩ | ⟨p, xs, now, rfl, ht⟩ | ⟨p, now, -, ht⟩ | ht
  · rw [ht]
    show (queueObjects s.table now [y]).1 x = _
    exact queueObjects_keep hx
  · have hxs : x ∉ xs := fun hxs => hacq ⟨p, xs, now, rfl, hxs⟩
    rw [ht, acquireQueuedObjects_of_not_mem hxs]
    exact hx
  · rw [ht]
    exact finalize_keep hx (by simp)
  · rw [ht]
    exact hx

end Persist

/-- An unclaimed queued row stays queued, with its stamp, along any run until a
processor's acquire may pick it. -/
theorem unclaimed_row_persists [DecidableEq P] {m : Nat} {s s' : QueueSystem K P}
    {evs : List (QueueEvent K P)} {x : K} {n : Nat} (hrun : (queueSystem m).Run s evs s')
    (hx : s.table x = some ⟨none, n⟩) (hacq : ∀ e ∈ evs, e.mayClaim x = false) :
    s'.table x = some ⟨none, n⟩ := by
  refine hrun.unless (P := fun t : QueueSystem K P => t.table x = some ⟨none, n⟩)
    (Q := fun e => e.mayClaim x = true) ?_ ?_ hx
  · intro t e t' ht hstep hq
    refine queueStep_keeps_unclaimed ht hstep ?_
    rintro ⟨p, xs, now, rfl, hxs⟩
    exact hq (decide_eq_true hxs)
  · intro e he hq
    rw [hacq e he] at hq
    exact Bool.false_ne_true hq

/-- Object 7 queued at time 4, every processor idle. -/
def queuedSeven : QueueSystem Nat Nat :=
  ⟨fun k => if k = 7 then some ⟨none, 4⟩ else none, fun _ => .idle⟩

/-- An enqueue of 7, an acquire of other rows and a finalize leave 7's row as
it is. -/
theorem unclaimed_row_persists_queued :
    ∃ s', (queueSystem 30).Run queuedSeven [.enqueue 7 5, .acquire 1 [3] 6, .finalize 1 7] s' ∧
      s'.table 7 = some ⟨none, 4⟩ := by
  have h : (LTS.exec (queueStep 30) queuedSeven
      [.enqueue 7 5, .acquire 1 [3] 6, .finalize 1 7]).any fun _ => true := by decide
  obtain ⟨s', hrun, -⟩ := LTS.exists_run_of_exec
    (fun s : QueueSystem Nat Nat => ∀ p, s.processors p = .idle) h
  exact ⟨s', hrun, unclaimed_row_persists hrun (by decide) (by decide)⟩

/-! ## A requeued object survives its finalize -/

section Requeue

/-- Every requeued object is also completed: the two sets are filled by the
same task result and cleared by the same finalize. -/
def ProcessorState.RequeueCompleted (ps : ProcessorState K) : Prop :=
  ∀ x ∈ ps.requeueObjects, x ∈ ps.completedObjects

variable {ps : ProcessorState K}

omit [DecidableEq K] in
theorem requeueCompleted_idle : (ProcessorState.idle : ProcessorState K).RequeueCompleted :=
  fun _ h => by cases h

omit [DecidableEq K] in
theorem ProcessorState.RequeueCompleted.setTasks (h : ps.RequeueCompleted)
    (ts : List (K × TaskPhase)) :
    ({ ps with objectTasks := ts } : ProcessorState K).RequeueCompleted := h

theorem ProcessorState.RequeueCompleted.finishTask (h : ps.RequeueCompleted) (x : K)
    (ph : TaskPhase) (r : TaskResult) : (finishTask ps x ph r).RequeueCompleted := by
  intro y hy
  simp only [Carbide.StateController.finishTask, processObjectHandlingTaskResult] at hy ⊢
  rw [List.mem_insert_iff]
  split at hy
  · rcases List.mem_insert_iff.1 hy with rfl | hy
    · exact .inl rfl
    · exact .inr (h y hy)
  · exact .inr (h y hy)

theorem ProcessorState.RequeueCompleted.finalize [DecidableEq P] (h : ps.RequeueCompleted)
    (t : QueueTable K P) (p : P) (now : Nat) : (finalizeCompletedObjects t ps p now).2.RequeueCompleted := by
  unfold Carbide.StateController.finalizeCompletedObjects
  split
  · exact h
  · intro y hy
    cases hy

variable [DecidableEq P] {m : Nat}

omit [DecidableEq K] in
theorem requeueCompleted_update {f : P → ProcessorState K} (hf : ∀ q, (f q).RequeueCompleted)
    {p : P} (hps : ps.RequeueCompleted) : ∀ q, (Function.update f p ps q).RequeueCompleted := by
  intro q
  by_cases hq : q = p
  · subst hq
    rw [Function.update_self]
    exact hps
  · rw [Function.update_of_ne hq]
    exact hf q

/-- In every reachable state every processor's requeued objects are completed. -/
theorem requeueCompleted_inductive :
    (queueSystem (K := K) (P := P) m).Inductive fun s => ∀ p, (s.processors p).RequeueCompleted where
  init s hs p := by
    rw [hs p]
    exact requeueCompleted_idle
  step s e s' hs hstep := by
    rcases queueStep_processors hstep with h | ⟨p, ts, h⟩ | ⟨p, x, ph, r, h⟩ | ⟨p, now, h⟩ <;>
      rw [h]
    · exact hs
    · exact requeueCompleted_update hs ((hs p).setTasks ts)
    · exact requeueCompleted_update hs ((hs p).finishTask x ph r)
    · exact requeueCompleted_update hs ((hs p).finalize s.table p now)

/-- After a finalize, every object the processor had requeued has a row. -/
theorem finalize_requeued_isSome {t : QueueTable K P} {p : P} {now : Nat} {x : K}
    (h : ps.RequeueCompleted) (hx : x ∈ ps.requeueObjects) :
    ((finalizeCompletedObjects t ps p now).1 x).isSome := by
  unfold finalizeCompletedObjects
  have hne : ps.completedObjects.isEmpty = false :=
    List.isEmpty_eq_false_iff_exists_mem.2 ⟨x, h x hx⟩
  rw [if_neg (by rw [hne]; exact Bool.false_ne_true)]
  exact queueObjects_isSome hx

end Requeue

/-- An object that a processor's handling run requeues (its handler
transitioned or lost the version check) has a queued row after the
processor's finalize, whatever ran in between: it is handled again. -/
theorem requeued_row_survives_finalize [DecidableEq P] {m : Nat} {s s' : QueueSystem K P}
    {p : P} {x : K} {now : Nat} (hr : (queueSystem m).Reachable s)
    (hx : x ∈ (s.processors p).requeueObjects) (hf : (queueSystem m).step s (.finalize p now) s') :
    (s'.table x).isSome := by
  have hinv := requeueCompleted_inductive.reachable hr p
  cases hf
  exact finalize_requeued_isSome hinv hx

/-- No rows, every processor idle. -/
def emptyQueue : QueueSystem Nat Nat := ⟨fun _ => none, fun _ => .idle⟩

/-- Processor 1 handles object 7 and its handler transitions. -/
theorem requeued_row_survives_finalize_transition :
    ∃ s s', (queueSystem 30).Reachable s ∧ 7 ∈ (s.processors 1).requeueObjects ∧
      (queueSystem 30).step s (.finalize 1 3) s' ∧ (s'.table 7).isSome := by
  have h : (LTS.exec (queueStep 30) emptyQueue
      [.enqueue 7 0, .acquire 1 [7] 1, .load 1 7, .complete 1 7 ⟨true, false⟩]).any fun s =>
        decide (7 ∈ (s.processors 1).requeueObjects) && (queueStep 30 s (.finalize 1 3)).isSome := by
    decide
  obtain ⟨s, hrun, hs⟩ := LTS.exists_run_of_exec
    (fun s : QueueSystem Nat Nat => ∀ p, s.processors p = .idle) h
  rw [Bool.and_eq_true] at hs
  obtain ⟨s', hs'⟩ := Option.isSome_iff_exists.1 hs.2
  have hr : (queueSystem 30).Reachable s := ⟨emptyQueue, _, fun _ => rfl, hrun⟩
  exact ⟨s, s', hr, of_decide_eq_true hs.1, hs',
    requeued_row_survives_finalize hr (of_decide_eq_true hs.1) hs'⟩

/-- Object 7 is queued and acquired by processor 1, whose task loads it. An
enqueue of 7 then returns `Ok(false)`: the claimed row absorbs it. The handler
waits (no transition), and the finalize deletes the row processor 1 holds: no
row for 7 is left, so nothing handles it again until the next enqueue. -/
theorem enqueue_after_load_lost :
    ∃ s₁ s, (queueSystem 30).Run emptyQueue [.enqueue 7 0, .acquire 1 [7] 1, .load 1 7] s₁ ∧
      (enqueueObject s₁.table 2 7).2 = false ∧
      (queueSystem 30).Run s₁ [.enqueue 7 2, .complete 1 7 ⟨false, false⟩, .finalize 1 3] s ∧
      s.table 7 = none := by
  have h : (LTS.exec (queueStep 30) emptyQueue [.enqueue 7 0, .acquire 1 [7] 1, .load 1 7]).any
      fun s₁ => !(enqueueObject s₁.table 2 7).2 &&
        (LTS.exec (queueStep 30) s₁ [.enqueue 7 2, .complete 1 7 ⟨false, false⟩, .finalize 1 3]).any
          fun s => decide (s.table 7 = none) := by
    decide
  obtain ⟨s₁, hrun₁, hs₁⟩ := LTS.exists_run_of_exec
    (fun s : QueueSystem Nat Nat => ∀ p, s.processors p = .idle) h
  rw [Bool.and_eq_true, Bool.not_eq_eq_eq_not, Bool.not_true] at hs₁
  obtain ⟨s, hrun₂, hs⟩ := LTS.exists_run_of_exec
    (fun s : QueueSystem Nat Nat => ∀ p, s.processors p = .idle) hs₁.2
  exact ⟨s₁, s, hrun₁, hs₁.1, hrun₂, of_decide_eq_true hs⟩

end Carbide.StateController

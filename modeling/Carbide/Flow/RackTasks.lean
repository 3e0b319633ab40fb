import Carbide.Flow.Conflict
import Carbide.Lib.Lts

/-!
# Task admission and promotion on one rack

Flow's tasks on a rack (rest-api/flow/internal/task) are rows with a status.
Two paths make a task active (pending, then running):

* admission (`createAndExecuteTask`): in one transaction under the rack's
  advisory lock, the task is checked against the active tasks
  (`lockRackAndResolveConflict`) and created pending, waiting (queued behind a
  conflict, while fewer than `maxWaitingPerRack` tasks wait) or rejected; a
  pending task is then handed to `resolveAndExecuteTask`;
* promotion (`Promoter.processRack`, on any replica): the waiting tasks are
  listed first (expired ones terminated), then in a transaction that does not
  take the rack lock the active tasks are read and a FIFO prefix of the
  listed candidates is set pending, each by an unconditional
  `UpdateTaskStatus`; after the commit each one is handed to
  `resolveAndExecuteTask`.

`CancelTask` reads the task (`GetTask`), returns when it is finished, and
otherwise terminates its workflow and writes `terminated`; the workflow of an
executed task writes `running` when it starts and `completed` or `failed`
when it ends. Every status write is an `UPDATE ... WHERE id = ?` that looks
at no status and waits while a promoter's open transaction holds the row, so
`CancelTask`'s read and write are two steps, and a workflow's write can land
after a cancellation.

Every step changes the rows in one of three ways (`TasksChange`,
`rackStep_tasksChange`): none, the row an admission creates appended, or
status writes none of which is `waiting`.

Results:
* `waiting_queue_within_limit`: in every reachable state at most
  `maxWaitingPerRack` tasks wait, whatever the promoters, cancellations and
  workflows do.
* `promotion_races_admission_and_cancel`: a promotion commits a task that
  conflicts with one admitted after the promoter read the active set, and a
  promotion revives a task cancelled after the promoter listed it, and hands
  it to `resolveAndExecuteTask`.
-/
namespace Carbide.Flow

open Carbide.Lib

/-- `taskcommon.TaskStatus`. -/
inductive TaskStatus
  | unknown
  | pending
  | running
  | completed
  | failed
  | terminated
  | waiting
  deriving DecidableEq, Repr

/-- mirrors rest-api/flow/internal/task/common/common.go:79-83 -/
def TaskStatus.isFinished : TaskStatus → Bool
  | .completed | .failed | .terminated => true
  | _ => false

/-- The statuses `ListActiveTasksForRack` reads. -/
def TaskStatus.isActive : TaskStatus → Bool
  | .pending | .running => true
  | _ => false

/-- A task row; its id is its position in the rack's rows, which are in
`created_at` order. -/
structure TaskRow (U : Type) where
  task : Task U
  status : TaskStatus
  queueExpiresAt : Option Nat

variable {U : Type} [DecidableEq U]

/-- `UpdateTaskStatus` writes the status whatever it was.
mirrors rest-api/flow/internal/db/model/task.go:131-165 -/
def updateTaskStatus (tasks : List (TaskRow U)) (id : Nat) (status : TaskStatus) :
    List (TaskRow U) :=
  tasks.modify id fun t => { t with status := status }

/-- `ListActiveTasksForRack`, as the conflict rule reads it. -/
def activeTasks (tasks : List (TaskRow U)) : List (Task U) :=
  (tasks.filter (·.status.isActive)).map (·.task)

/-- `ListWaitingTasksForRack`, oldest first, with the ids. -/
def listWaitingTasksForRack (tasks : List (TaskRow U)) : List (TaskRow U × Nat) :=
  tasks.zipIdx.filter (·.1.status == .waiting)

def countWaitingTasksForRack (tasks : List (TaskRow U)) : Nat :=
  (tasks.filter (·.status == .waiting)).length

inductive ConflictStrategy
  | reject
  | queue
  deriving DecidableEq

inductive AdmitError
  /-- "rack %s already has a conflicting task" -/
  | rackConflict
  /-- "rack %s waiting queue is full (%d/%d tasks)" -/
  | queueFull
  deriving DecidableEq

/-- `lockRackAndResolveConflict` and `CreateTask`: the row the transaction
creates. mirrors rest-api/flow/internal/task/manager/manager.go:416-470 -/
def admitTask (tasks : List (TaskRow U)) (maxWaitingPerRack : Nat) (t : Task U)
    (strategy : ConflictStrategy) (queueExpiresAt : Option Nat) : Except AdmitError (TaskRow U) :=
  if !builtinRule.conflicts t (activeTasks tasks) then .ok ⟨t, .pending, none⟩
  else if strategy ≠ .queue then .error .rackConflict
  else if maxWaitingPerRack ≤ countWaitingTasksForRack tasks then .error .queueFull
  else .ok ⟨t, .waiting, queueExpiresAt⟩

/-- `now.After(*t.QueueExpiresAt)`. -/
def queueExpired (now : Nat) (t : TaskRow U) : Bool :=
  t.queueExpiresAt.any (· < now)

/-- The candidates a pass promotes: in FIFO order, each checked against the
active set read in the transaction and the candidates promoted before it,
stopping at the first conflict.
mirrors rest-api/flow/internal/task/conflict/promoter.go:224-247 -/
def promoteCandidates (workingActive : List (Task U)) :
    List (TaskRow U × Nat) → List (TaskRow U × Nat)
  | [] => []
  | c :: cs =>
    if builtinRule.conflicts c.1.task workingActive then []
    else c :: promoteCandidates (workingActive ++ [c.1.task]) cs

/-- Where a promoter replica is in `processRack`. In `inTransaction` its open
transaction holds the rows it set pending. -/
inductive PromoterPhase (U : Type)
  | idle
  | listed (candidates : List (TaskRow U × Nat))
  | inTransaction (toExecute : List Nat)
  | executing (toExecute : List Nat)

def PromoterPhase.locks : PromoterPhase U → Nat → Bool
  | .inTransaction ids, i => decide (i ∈ ids)
  | _, _ => false

structure RackSystem (U : Type) where
  tasks : List (TaskRow U)
  /-- tasks admitted pending whose `resolveAndExecuteTask` is still to come -/
  admitted : List Nat
  /-- the tasks handed to `resolveAndExecuteTask`, in order -/
  executed : List Nat
  /-- the `CancelTask` calls that read an unfinished task and have their
  write still to come -/
  cancelling : List Nat
  promoters : List (PromoterPhase U)

/-- No promoter's open transaction holds the row. -/
def RackSystem.writable (s : RackSystem U) (i : Nat) : Bool :=
  !s.promoters.any (·.locks i)

inductive RackEvent (U : Type)
  /-- `createAndExecuteTask`'s transaction -/
  | submit (t : Task U) (strategy : ConflictStrategy) (queueExpiresAt : Option Nat)
  /-- `resolveAndExecuteTask` for an admitted task, after the commit -/
  | execute (i : Nat)
  /-- `ListWaitingTasksForRack` and the termination of expired tasks -/
  | list (p : Nat) (now : Nat)
  /-- the promotion transaction's read of the active tasks and its updates -/
  | promote (p : Nat)
  | commit (p : Nat)
  | rollback (p : Nat)
  /-- `promoteFunc` for the next promoted task -/
  | handOff (p : Nat)
  /-- `CancelTask`'s `GetTask` and its checks of the status -/
  | getTask (i : Nat)
  /-- `CancelTask`'s `UpdateTaskStatus(terminated)` -/
  | cancel (i : Nat)
  /-- the workflow's `UpdateTaskStatus(running)` -/
  | start (i : Nat)
  /-- the workflow's `UpdateTaskStatus` with `completed` or `failed` -/
  | finish (i : Nat) (status : TaskStatus)

def RackSystem.setPromoter (s : RackSystem U) (p : Nat) (ph : PromoterPhase U) : RackSystem U :=
  { s with promoters := s.promoters.set p ph }

def RackSystem.setStatus (s : RackSystem U) (i : Nat) (st : TaskStatus) : RackSystem U :=
  { s with tasks := updateTaskStatus s.tasks i st }

/-- The expired tasks' `UpdateTaskStatus(terminated)`, one after another. -/
def terminateExpired (tasks : List (TaskRow U)) (expired : List (TaskRow U × Nat)) :
    List (TaskRow U) :=
  expired.foldl (fun ts c => updateTaskStatus ts c.2 .terminated) tasks

/-- The first part of `processRack`: list, terminate the expired tasks, keep
the others as candidates.
mirrors rest-api/flow/internal/task/conflict/promoter.go:187-217 -/
def listStep (s : RackSystem U) (p now : Nat) : Option (RackSystem U) :=
  let waiting := listWaitingTasksForRack s.tasks
  let expired := waiting.filter fun c => queueExpired now c.1
  if expired.all fun c => s.writable c.2 then
    some ({ s with tasks := terminateExpired s.tasks expired }.setPromoter p
      (.listed (waiting.filter fun c => !queueExpired now c.1)))
  else none

def rackStep (maxWaitingPerRack : Nat) (s : RackSystem U) : RackEvent U → Option (RackSystem U)
  | .submit t strategy queueExpiresAt =>
    match admitTask s.tasks maxWaitingPerRack t strategy queueExpiresAt with
    | .ok row =>
      some { s with
        tasks := s.tasks ++ [row]
        admitted := if row.status = .pending then s.admitted ++ [s.tasks.length] else s.admitted }
    | .error _ => some s
  | .execute i =>
    if i ∈ s.admitted then
      some { s with admitted := s.admitted.erase i, executed := s.executed ++ [i] }
    else none
  | .list p now =>
    match s.promoters[p]? with
    | some .idle | some (.executing []) => listStep s p now
    | _ => none
  | .promote p =>
    match s.promoters[p]? with
    | some (.listed []) => some (s.setPromoter p .idle)
    | some (.listed candidates) =>
      let toExecute := (promoteCandidates (activeTasks s.tasks) candidates).map (·.2)
      if toExecute.all s.writable then some (s.setPromoter p (.inTransaction toExecute))
      else none
    | _ => none
  | .commit p =>
    match s.promoters[p]? with
    | some (.inTransaction ids) =>
      some ({ s with tasks := ids.foldl (fun ts i => updateTaskStatus ts i .pending) s.tasks }
        |>.setPromoter p (.executing ids))
    | _ => none
  | .rollback p =>
    match s.promoters[p]? with
    | some (.inTransaction _) => some (s.setPromoter p .idle)
    | _ => none
  | .handOff p =>
    match s.promoters[p]? with
    | some (.executing (i :: rest)) =>
      some ({ s with executed := s.executed ++ [i] }.setPromoter p (.executing rest))
    | _ => none
  | .getTask i =>
    -- mirrors rest-api/flow/internal/task/manager/manager.go:554-568: a finished
    -- task (terminated included) ends the call without a write
    match s.tasks[i]? with
    | some row =>
      if row.status.isFinished then some s else some { s with cancelling := s.cancelling ++ [i] }
    | none => some s
  | .cancel i =>
    -- mirrors manager.go:570-589: the write reads no status
    if i ∈ s.cancelling ∧ s.writable i then
      some ({ s with cancelling := s.cancelling.erase i }.setStatus i .terminated)
    else none
  | .start i =>
    -- mirrors task/executor/temporalworkflow/workflow/helpers.go:37-52
    if i ∈ s.executed ∧ s.writable i then some (s.setStatus i .running) else none
  | .finish i st =>
    -- mirrors workflow/helpers.go:92-150
    if (st = .completed ∨ st = .failed) ∧ i ∈ s.executed ∧ s.writable i then
      some (s.setStatus i st)
    else none

/-- An empty rack; every promoter replica idle. -/
def rackSystem (maxWaitingPerRack : Nat) : LTS (RackSystem U) (RackEvent U) :=
  LTS.ofFn
    (fun s => s.tasks = [] ∧ s.admitted = [] ∧ s.executed = [] ∧ s.cancelling = [] ∧
      ∀ ph ∈ s.promoters, ph = .idle)
    (rackStep maxWaitingPerRack)

/-! ## What a step does to the rows -/

/-- What a step does to the rows: nothing, the row an admission creates
appended, or `UpdateTaskStatus` writes one after another, none of them
`waiting`. -/
inductive TasksChange (m : Nat) (tasks : List (TaskRow U)) : List (TaskRow U) → Prop
  | keep : TasksChange m tasks tasks
  | submitted (t : Task U) (strategy : ConflictStrategy) (exp : Option Nat) (row : TaskRow U) :
      admitTask tasks m t strategy exp = .ok row → TasksChange m tasks (tasks ++ [row])
  | update (ws : List (Nat × TaskStatus)) : (∀ w ∈ ws, w.2 ≠ .waiting) →
      TasksChange m tasks (ws.foldl (fun ts w => updateTaskStatus ts w.1 w.2) tasks)

omit [DecidableEq U] in
@[simp] theorem RackSystem.setPromoter_tasks (s : RackSystem U) (p : Nat) (ph : PromoterPhase U) :
    (s.setPromoter p ph).tasks = s.tasks := rfl

section TasksChange

variable {m : Nat} {tasks : List (TaskRow U)}

/-- One status write. -/
theorem TasksChange.single (i : Nat) (st : TaskStatus) (hst : st ≠ .waiting) :
    TasksChange m tasks (updateTaskStatus tasks i st) :=
  .update [(i, st)] (by simpa using hst)

/-- The same status written to several rows. -/
theorem TasksChange.all (ids : List Nat) (st : TaskStatus) (hst : st ≠ .waiting) :
    TasksChange m tasks (ids.foldl (fun ts i => updateTaskStatus ts i st) tasks) := by
  have h : TasksChange m tasks _ := .update (ids.map fun i => (i, st)) (by simpa using fun _ _ => hst)
  rwa [List.foldl_map] at h

omit [DecidableEq U] in
theorem terminateExpired_eq (expired : List (TaskRow U × Nat)) :
    terminateExpired tasks expired =
      (expired.map (·.2)).foldl (fun ts i => updateTaskStatus ts i .terminated) tasks := by
  rw [terminateExpired, List.foldl_map]

theorem listStep_tasksChange {s s' : RackSystem U} {p now : Nat} (h : listStep s p now = some s') :
    TasksChange m s.tasks s'.tasks := by
  dsimp only [listStep] at h
  split at h
  · cases h
    rw [RackSystem.setPromoter_tasks, terminateExpired_eq]
    exact .all _ .terminated (by decide)
  · cases h

end TasksChange

/-- Every step changes the rows in one of the ways of `TasksChange`. -/
theorem rackStep_tasksChange {m : Nat} {s s' : RackSystem U} {e : RackEvent U}
    (h : rackStep m s e = some s') : TasksChange m s.tasks s'.tasks := by
  cases e with
  | submit t strategy exp =>
    simp only [rackStep] at h
    split at h
    · rename_i row hrow
      cases h
      exact .submitted t strategy exp row hrow
    · cases h
      exact .keep
  | execute i =>
    simp only [rackStep] at h
    split at h
    · cases h
      exact .keep
    · cases h
  | list p now =>
    simp only [rackStep] at h
    split at h
    · exact listStep_tasksChange h
    · exact listStep_tasksChange h
    · cases h
  | promote p =>
    simp only [rackStep] at h
    split at h
    · cases h
      exact .keep
    · split at h
      · cases h
        exact .keep
      · cases h
    · cases h
  | commit p =>
    simp only [rackStep] at h
    split at h
    · cases h
      exact .all _ .pending (by decide)
    · cases h
  | rollback p =>
    simp only [rackStep] at h
    split at h
    · cases h
      exact .keep
    · cases h
  | handOff p =>
    simp only [rackStep] at h
    split at h
    · cases h
      exact .keep
    · cases h
  | getTask i =>
    simp only [rackStep] at h
    split at h
    · split at h <;> cases h <;> exact .keep
    · cases h
      exact .keep
  | cancel i =>
    simp only [rackStep] at h
    split at h
    · cases h
      exact .single i .terminated (by decide)
    · cases h
  | start i =>
    simp only [rackStep] at h
    split at h
    · cases h
      exact .single i .running (by decide)
    · cases h
  | finish i st =>
    simp only [rackStep] at h
    split at h
    · rename_i hg
      cases h
      exact .single i st (by rcases hg.1 with rfl | rfl <;> decide)
    · cases h

/-! ## The waiting queue -/

section Waiting

variable {m : Nat} {tasks tasks' : List (TaskRow U)}

omit [DecidableEq U] in
/-- A status write other than `waiting` adds no waiting row. -/
theorem countWaitingTasksForRack_update_le {i : Nat} {st : TaskStatus} (hst : st ≠ .waiting) :
    countWaitingTasksForRack (updateTaskStatus tasks i st) ≤ countWaitingTasksForRack tasks := by
  induction tasks generalizing i with
  | nil => simp [updateTaskStatus]
  | cons r rs ih =>
    cases i with
    | zero =>
      simp only [countWaitingTasksForRack, updateTaskStatus, List.modify_zero_cons,
        List.filter_cons, beq_iff_eq, hst, if_false]
      split <;> simp
    | succ i =>
      have := @ih i
      simp only [countWaitingTasksForRack, updateTaskStatus, List.modify_succ_cons,
        List.filter_cons] at this ⊢
      split <;> simp [this]

omit [DecidableEq U] in
theorem countWaitingTasksForRack_updates_le (ws : List (Nat × TaskStatus))
    (hws : ∀ w ∈ ws, w.2 ≠ .waiting) :
    countWaitingTasksForRack (ws.foldl (fun ts w => updateTaskStatus ts w.1 w.2) tasks) ≤
      countWaitingTasksForRack tasks := by
  induction ws generalizing tasks with
  | nil => exact Nat.le_refl _
  | cons w ws ih =>
    calc _ ≤ countWaitingTasksForRack (updateTaskStatus tasks w.1 w.2) :=
          ih fun w' hw' => hws w' (List.mem_cons_of_mem _ hw')
      _ ≤ _ := countWaitingTasksForRack_update_le (hws w List.mem_cons_self)

/-- An admission creates a waiting row only while fewer than `m` tasks wait. -/
theorem countWaitingTasksForRack_admitTask {t : Task U} {strategy : ConflictStrategy}
    {exp : Option Nat} {row : TaskRow U} (h : admitTask tasks m t strategy exp = .ok row)
    (hle : countWaitingTasksForRack tasks ≤ m) : countWaitingTasksForRack (tasks ++ [row]) ≤ m := by
  unfold admitTask at h
  simp only [countWaitingTasksForRack, List.filter_append, List.length_append] at hle ⊢
  split at h
  · cases h
    simpa using hle
  · split at h
    · cases h
    · split at h
      · cases h
      · rename_i hroom
        cases h
        simp only [countWaitingTasksForRack] at hroom
        simp
        omega

/-- The step lemma: no change of `TasksChange` takes the queue past `m`. -/
theorem TasksChange.countWaiting_le (hch : TasksChange m tasks tasks')
    (hle : countWaitingTasksForRack tasks ≤ m) : countWaitingTasksForRack tasks' ≤ m := by
  cases hch with
  | keep => exact hle
  | submitted t strategy exp row hrow => exact countWaitingTasksForRack_admitTask hrow hle
  | update ws hws => exact Nat.le_trans (countWaitingTasksForRack_updates_le ws hws) hle

end Waiting

/-- In every reachable state of a rack, at most `maxWaitingPerRack` tasks
wait: admission counts the waiting tasks under the rack lock before it queues
one, and no other write sets a task waiting. -/
theorem waiting_queue_within_limit {m : Nat} {s : RackSystem U} (h : (rackSystem m).Reachable s) :
    countWaitingTasksForRack s.tasks ≤ m := by
  obtain ⟨s₀, evs, h0, hrun⟩ := h
  refine hrun.preserve (I := fun s => countWaitingTasksForRack s.tasks ≤ m)
    (fun _ _ _ hle hstep => (rackStep_tasksChange hstep).countWaiting_le hle) ?_
  rw [h0.1]
  exact Nat.zero_le m

/-! ## Active tasks that conflict -/

/-- The active tasks are pairwise free of conflicts. -/
def Compatible (tasks : List (TaskRow U)) : Prop :=
  ∀ (i j : Nat) (r₁ r₂ : TaskRow U), i ≠ j → tasks[i]? = some r₁ → tasks[j]? = some r₂ →
    r₁.status.isActive = true →
    r₂.status.isActive = true → builtinRule.conflicts r₁.task [r₂.task] = false

/-- Rows `i` and `j` are both active and their tasks conflict. -/
def activePairConflicts (tasks : List (TaskRow U)) (i j : Nat) : Bool :=
  match tasks[i]?, tasks[j]? with
  | some r₁, some r₂ =>
    r₁.status.isActive && r₂.status.isActive && builtinRule.conflicts r₁.task [r₂.task]
  | _, _ => false

theorem not_compatible_of_activePairConflicts {tasks : List (TaskRow U)} {i j : Nat} (hij : i ≠ j)
    (h : activePairConflicts tasks i j = true) : ¬ Compatible tasks := by
  intro hc
  unfold activePairConflicts at h
  split at h
  · rename_i r₁ r₂ h₁ h₂
    simp only [Bool.and_eq_true] at h
    rw [hc i j r₁ r₂ hij h₁ h₂ h.1.1 h.1.2] at h
    exact Bool.false_ne_true h.2
  · cases h

/-! ## Races -/

/-- A firmware upgrade of compute component 7. -/
def upgradeSeven : Task Nat :=
  ⟨.firmwareControl, "upgrade", fun c => if c = .compute then [7] else []⟩

/-- One promoter replica on an empty rack. -/
def idleRack : RackSystem Nat := ⟨[], [], [], [], [.idle]⟩

/-- Task 0 runs; tasks 1 and 2 conflict with it; with room for one waiting
task, task 1 waits and task 2 is turned away. -/
def fullQueue : List (RackEvent Nat) :=
  [.submit upgradeSeven .queue none, .execute 0, .start 0, .submit upgradeSeven .queue none,
    .submit upgradeSeven .queue none]

theorem waiting_queue_within_limit_full :
    ∃ s : RackSystem Nat, (rackSystem 1).Reachable s ∧ countWaitingTasksForRack s.tasks = 1 ∧
      countWaitingTasksForRack s.tasks ≤ 1 := by
  have h : (LTS.exec (rackStep 1) idleRack fullQueue).any
      fun s => countWaitingTasksForRack s.tasks == 1 := by decide
  obtain ⟨s, hrun, hs⟩ := LTS.exists_run_of_exec (rackSystem 1).init h
  have hr : (rackSystem 1).Reachable s := ⟨idleRack, fullQueue, ⟨rfl, rfl, rfl, rfl, by simp [idleRack]⟩, hrun⟩
  exact ⟨s, hr, beq_iff_eq.1 hs, waiting_queue_within_limit hr⟩

/-- Task 0 runs; task 1 waits behind it; the promoter lists task 1; task 0
completes; the promoter reads no active task and sets task 1 pending; before
its commit, task 2 is admitted against the committed rows, where nothing is
active. -/
def admissionDuringPromotion : List (RackEvent Nat) :=
  [.submit upgradeSeven .queue none, .execute 0, .start 0, .submit upgradeSeven .queue none,
    .list 0 0, .finish 0 .completed, .promote 0, .submit upgradeSeven .queue none, .commit 0]

/-- Task 0 runs; task 1 waits; the promoter lists task 1; task 1 is
cancelled. -/
def cancelAfterListing : List (RackEvent Nat) :=
  [.submit upgradeSeven .queue none, .execute 0, .start 0, .submit upgradeSeven .queue none,
    .list 0 0, .getTask 1, .cancel 1]

theorem promotion_races_admission_and_cancel :
    (∃ s, (rackSystem 10).Run idleRack admissionDuringPromotion s ∧ ¬ Compatible s.tasks) ∧
    (∃ s₁ s, (rackSystem 10).Run idleRack cancelAfterListing s₁ ∧
      (s₁.tasks[1]?.map (·.status)) = some .terminated ∧
      (rackSystem 10).Run s₁ [.finish 0 .completed, .promote 0, .commit 0, .handOff 0] s ∧
      (s.tasks[1]?.map (·.status)) = some .pending ∧ 1 ∈ s.executed) := by
  constructor
  · have h : (LTS.exec (rackStep 10) idleRack admissionDuringPromotion).any fun s =>
        activePairConflicts s.tasks 1 2 := by decide
    obtain ⟨s, hrun, hs⟩ := LTS.exists_run_of_exec (rackSystem 10).init h
    exact ⟨s, hrun, not_compatible_of_activePairConflicts (by decide) hs⟩
  · have h : (LTS.exec (rackStep 10) idleRack cancelAfterListing).any fun s₁ =>
        decide ((s₁.tasks[1]?.map (·.status)) = some .terminated) &&
        (LTS.exec (rackStep 10) s₁ [.finish 0 .completed, .promote 0, .commit 0, .handOff 0]).any
          fun s => decide ((s.tasks[1]?.map (·.status)) = some .pending) && decide (1 ∈ s.executed) := by
      decide
    obtain ⟨s₁, hrun₁, hs₁⟩ := LTS.exists_run_of_exec (rackSystem 10).init h
    rw [Bool.and_eq_true] at hs₁
    obtain ⟨s, hrun₂, hs⟩ := LTS.exists_run_of_exec (rackSystem 10).init hs₁.2
    rw [Bool.and_eq_true] at hs
    exact ⟨s₁, s, hrun₁, of_decide_eq_true hs₁.1, hrun₂, of_decide_eq_true hs.1,
      of_decide_eq_true hs.2⟩

end Carbide.Flow

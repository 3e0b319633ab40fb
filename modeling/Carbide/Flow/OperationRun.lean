import Mathlib.Data.Int.Basic
import Mathlib.Algebra.Order.Group.Int

/-!
# Operation runs: blocked targets and the rack-conflict retry policy

An operation run (rest-api/flow/internal/operationrun) submits one child task
per rack target. A dispatcher pass (`dispatchRun`) locks the run and the
targets of its current phase, evaluates the conflict policy (pausing the run
when a blocked target has waited `RetryTimeout`), claims ready targets, commits,
and then submits each claimed target with `SubmitTask`. A submission rejected
with `ErrRackConflict` blocks the target: `blockTarget` reads the target's
retry state (`RetryState`, a JSON blob), keeps `blocked_since`, doubles the
last delay up to `MaxRetryDelay`, and sets `retry_after`. A pass whose
submissions started no task makes one follow-up attempt at the same `now`.

Times and durations are Go's `time.Time` and `time.Duration`, in nanoseconds.
The retry state stores whole seconds (`int64(d.Seconds())`).

Results:
* `blockTarget_iterate`: blocking a target again and again from the state the
  last block wrote gives the delays `min(I·2^k, M)` and keeps the first block
  time, for every policy of whole seconds;
* `claim_resets_conflict_backoff`: but `OperationRunTarget.Claim` clears the
  retry state between two blocks, so every block of a target that conflicts on
  every attempt is a first block: the delay stays `I`, `blocked_since` moves to
  the last block, and the pass at the first block plus `RetryTimeout` claims
  the target again instead of pausing the run. A policy whose initial delay is
  under a second gets a delay of zero.
-/
namespace Carbide.Flow

/-- `time.Second`. -/
def nanosPerSecond : Int := 1000000000

/-- `int64(d.Seconds())`: whole seconds, truncated toward zero. -/
def durationSeconds (d : Int) : Int := d.tdiv nanosPerSecond

/-- `ConflictRetryPolicy`. -/
structure ConflictRetryPolicy where
  retryTimeout : Int
  initialRetryDelay : Int
  maxRetryDelay : Int

/-- mirrors rest-api/flow/internal/operationrun/configuration.go:265-284 -/
def ConflictRetryPolicy.validate (p : ConflictRetryPolicy) : Except String Unit :=
  if p.retryTimeout ≤ 0 then .error "retry_timeout must be greater than 0"
  else if p.initialRetryDelay ≤ 0 then .error "initial_retry_delay must be greater than 0"
  else if p.maxRetryDelay ≤ 0 then .error "max_retry_delay must be greater than 0"
  else if p.maxRetryDelay < p.initialRetryDelay then
    .error "max_retry_delay must be greater than or equal to initial_retry_delay"
  else .ok ()

/-- `conflictRetryState`; a `blockedSince` of `none` is Go's zero time. -/
structure ConflictRetryState where
  blockedSince : Option Int
  attempts : Int
  lastRetryDelaySeconds : Int
  deriving DecidableEq

/-- A missing retry state reads as a first block; only `blockTarget` writes
one, so the malformed case of the source does not arise.
mirrors rest-api/flow/internal/operationrun/manager/dispatcher/conflict_policy.go:119-133 -/
def decodeConflictRetryState : Option ConflictRetryState → ConflictRetryState
  | none => ⟨none, 0, 0⟩
  | some state => state

/-- `OperationRunTargetStatus`. -/
inductive TargetStatus
  | pending
  | claimed
  | blocked
  | submitted
  | completed
  | failed
  | terminated
  | skipped
  deriving DecidableEq, Repr

/-- The fields of `OperationRunTarget` the dispatcher reads and writes. -/
structure OperationRunTarget where
  id : Nat
  taskId : Option Nat
  status : TargetStatus
  message : String
  retryAfter : Option Int
  retryState : Option ConflictRetryState
  deriving DecidableEq

namespace OperationRunTarget

variable (t : OperationRunTarget)

/-- mirrors rest-api/flow/internal/operationrun/operationrun.go:326-336 -/
def claim (leaseExpiresAt : Int) (message : String) : OperationRunTarget :=
  { t with
    taskId := none
    status := .claimed
    message := message
    retryAfter := some leaseExpiresAt
    retryState := none }

/-- mirrors rest-api/flow/internal/operationrun/operationrun.go:338-349 -/
def block (message : String) (retryAfter : Int) (retryState : ConflictRetryState) :
    OperationRunTarget :=
  { t with
    taskId := none
    status := .blocked
    message := message
    retryAfter := some retryAfter
    retryState := some retryState }

/-- mirrors rest-api/flow/internal/operationrun/operationrun.go:351-357 -/
def submit (taskId : Nat) (message : String) : OperationRunTarget :=
  { t with
    taskId := some taskId
    status := .submitted
    message := message
    retryAfter := none
    retryState := none }

/-- mirrors rest-api/flow/internal/operationrun/operationrun.go:359-364 -/
def fail (message : String) : OperationRunTarget :=
  { t with status := .failed, message := message, retryAfter := none, retryState := none }

end OperationRunTarget

/-- The retry state a block writes over `state`: the first block time stays,
the delay starts at the initial delay and doubles up to the maximum. -/
def ConflictRetryState.next (policy : ConflictRetryPolicy) (now : Int)
    (state : ConflictRetryState) : ConflictRetryState :=
  { blockedSince := some (state.blockedSince.getD now)
    attempts := state.attempts + 1
    lastRetryDelaySeconds :=
      if state.lastRetryDelaySeconds ≤ 0 then durationSeconds policy.initialRetryDelay
      else min (state.lastRetryDelaySeconds * 2) (durationSeconds policy.maxRetryDelay) }

/-- mirrors rest-api/flow/internal/operationrun/manager/dispatcher/conflict_policy.go:82-108 -/
def blockTarget (target : OperationRunTarget) (policy : ConflictRetryPolicy) (now : Int)
    (message : String) : OperationRunTarget :=
  let state := (decodeConflictRetryState target.retryState).next policy now
  target.block message (now + state.lastRetryDelaySeconds * nanosPerSecond) state

/-- The first blocked target that has waited `RetryTimeout` since its first
block, if any; the pause message names it.
mirrors rest-api/flow/internal/operationrun/manager/dispatcher/conflict_policy.go:135-161 -/
def conflictRetryTimedOut (targets : List OperationRunTarget) (policy : ConflictRetryPolicy)
    (now : Int) : Option Nat :=
  (targets.find? fun target =>
    target.status == .blocked &&
      ((decodeConflictRetryState target.retryState).blockedSince.any fun since =>
        decide (policy.retryTimeout ≤ now - since))).map (·.id)

/-- mirrors rest-api/flow/internal/operationrun/manager/dispatcher/execution.go:286-304 -/
def targetReadyForSubmission (target : OperationRunTarget) (now : Int) : Bool :=
  match target.status with
  | .pending => true
  | .blocked | .claimed => target.retryAfter.all (· ≤ now)
  | .submitted => target.taskId.isNone
  | _ => false

/-- mirrors rest-api/flow/internal/operationrun/manager/dispatcher/execution.go:127-139 -/
def targetConsumesQuota (target : OperationRunTarget) (now : Int) : Bool :=
  match target.status with
  | .submitted => target.taskId.isSome
  | .claimed => target.retryAfter.any (now < ·)
  | _ => false

/-- The ready targets in order, claimed up to the free quota; the ids of the
claimed ones are returned for submission after the commit.
mirrors rest-api/flow/internal/operationrun/manager/dispatcher/execution.go:44-89 -/
def claimTargets (maxConcurrentTargets : Int) (claimLease now : Int)
    (targets : List OperationRunTarget) : List OperationRunTarget × List Nat :=
  let active := (targets.filter fun t => targetConsumesQuota t now).length
  let available := maxConcurrentTargets - active
  if available ≤ 0 then (targets, [])
  else
    targets.foldl (fun (acc : List OperationRunTarget × List Nat) t =>
      if targetReadyForSubmission t now && decide ((acc.2.length : Int) < available) then
        (acc.1 ++ [t.claim (now + claimLease) "claimed for submission"], acc.2 ++ [t.id])
      else (acc.1 ++ [t], acc.2)) ([], [])

/-- `OperationRunStatus`. -/
inductive RunStatus
  | pending
  | running
  | paused
  | completed
  | completedWithFailures
  | cancelled
  | failed
  deriving DecidableEq, Repr

/-- `OperationRunStatusReason`. -/
inductive StatusReason
  | none
  | operatorPaused
  | phaseGate
  | safetyGate
  | conflictRetryTimeout
  deriving DecidableEq, Repr

/-- A run with the targets of its current phase. -/
structure RunState where
  status : RunStatus
  reason : StatusReason
  targets : List OperationRunTarget
  deriving DecidableEq

/-- The dispatcher's configuration and the run's options that a pass reads. -/
structure DispatchConfig where
  policy : ConflictRetryPolicy
  maxConcurrentTargets : Int
  claimLease : Int

/-- What `SubmitTask` returns for a claimed target. -/
inductive SubmitOutcome
  | ok (taskId : Nat)
  /-- `ErrRackConflict`, with the error's text -/
  | rackConflict (message : String)
  | failure (message : String)

/-- The transaction of one dispatch attempt for a run whose configuration is
valid, no safety gate trips and whose current phase is not finished:
`LockRunnable` skips a run that is not pending or running; the conflict
policy may pause the run; otherwise the run is started and ready targets are
claimed. -/
def dispatchTransaction (cfg : DispatchConfig) (now : Int) (run : RunState) :
    RunState × List Nat :=
  if run.status = .pending ∨ run.status = .running then
    match conflictRetryTimedOut run.targets cfg.policy now with
    | some _ => ({ run with status := .paused, reason := .conflictRetryTimeout }, [])
    | none =>
      let (targets, claimed) := claimTargets cfg.maxConcurrentTargets cfg.claimLease now run.targets
      ({ run with status := .running, reason := .none, targets := targets }, claimed)
  else (run, [])

/-- `submit` and its post-commit write for one claimed target; `true` when a
task was started.
mirrors rest-api/flow/internal/operationrun/manager/dispatcher/execution.go:201-232 -/
def submitTarget (policy : ConflictRetryPolicy) (now : Int) (outcome : SubmitOutcome)
    (target : OperationRunTarget) : OperationRunTarget × Bool :=
  match outcome with
  | .ok taskId => (target.submit taskId "submitted", true)
  | .rackConflict message => (blockTarget target policy now message, false)
  | .failure message => (target.fail message, false)

/-- The post-commit submissions of the claimed targets, in order. -/
def submitClaimed (policy : ConflictRetryPolicy) (now : Int) (outcome : Nat → SubmitOutcome)
    (claimed : List Nat) (targets : List OperationRunTarget) : List OperationRunTarget × Bool :=
  targets.foldl (fun (acc : List OperationRunTarget × Bool) t =>
    if t.id ∈ claimed then
      let (t', started) := submitTarget policy now (outcome t.id) t
      (acc.1 ++ [t'], acc.2 || !started)
    else (acc.1 ++ [t], acc.2)) ([], false)

/-- One attempt: the transaction, then the submissions; the flag says whether
some submission started no task.
mirrors rest-api/flow/internal/operationrun/manager/dispatcher/dispatch_run.go:35-75 -/
def dispatchRunAttempt (cfg : DispatchConfig) (now : Int) (outcome : Nat → SubmitOutcome)
    (run : RunState) : RunState × Bool :=
  let (run', claimed) := dispatchTransaction cfg now run
  let (targets, retry) := submitClaimed cfg.policy now outcome claimed run'.targets
  ({ run' with targets := targets }, retry)

/-- mirrors rest-api/flow/internal/operationrun/manager/dispatcher/dispatch_run.go:17-33 -/
def dispatchRun (cfg : DispatchConfig) (now : Int) (outcome : Nat → SubmitOutcome)
    (run : RunState) : RunState :=
  let (run', retry) := dispatchRunAttempt cfg now outcome run
  if retry then (dispatchRunAttempt cfg now outcome run').1 else run'

/-- Passes at the given times, every submission rejected by a rack conflict. -/
def conflictingPasses (cfg : DispatchConfig) (message : String) :
    List Int → RunState → RunState
  | [], run => run
  | now :: nows, run =>
    conflictingPasses cfg message nows (dispatchRun cfg now (fun _ => .rackConflict message) run)

/-! ## The backoff of successive blocks -/

theorem validate_eq_ok {p : ConflictRetryPolicy} :
    p.validate = .ok () ↔ 0 < p.retryTimeout ∧ 0 < p.initialRetryDelay ∧ 0 < p.maxRetryDelay ∧
      p.initialRetryDelay ≤ p.maxRetryDelay := by
  unfold ConflictRetryPolicy.validate
  split
  · simp only [reduceCtorEq, false_iff]; omega
  split
  · simp only [reduceCtorEq, false_iff]; omega
  split
  · simp only [reduceCtorEq, false_iff]; omega
  split
  · simp only [reduceCtorEq, false_iff]; omega
  · simp only [true_iff]; omega

theorem durationSeconds_le {d e : Int} (hd : 0 ≤ d) (h : d ≤ e) :
    durationSeconds d ≤ durationSeconds e := by
  unfold durationSeconds nanosPerSecond
  rw [Int.tdiv_eq_ediv_of_nonneg hd, Int.tdiv_eq_ediv_of_nonneg (by omega)]
  omega

theorem durationSeconds_pos {d : Int} (h : nanosPerSecond ≤ d) : 0 < durationSeconds d := by
  unfold durationSeconds nanosPerSecond at *
  rw [Int.tdiv_eq_ediv_of_nonneg (by omega)]
  omega

/-- One doubling of the backoff, from its closed form after `k` blocks to the
one after `k + 1`. -/
theorem min_double_pow {i m : Int} (hm : 0 ≤ m) (k : Nat) :
    min (min (i * 2 ^ k) m * 2) m = min (i * 2 ^ (k + 1)) m := by
  rw [pow_succ, ← mul_assoc]
  omega

@[simp] theorem blockTarget_retryState (t : OperationRunTarget) (policy : ConflictRetryPolicy)
    (now : Int) (message : String) :
    (blockTarget t policy now message).retryState =
      some ((decodeConflictRetryState t.retryState).next policy now) := rfl

@[simp] theorem blockTarget_retryAfter (t : OperationRunTarget) (policy : ConflictRetryPolicy)
    (now : Int) (message : String) :
    (blockTarget t policy now message).retryAfter =
      some (now + ((decodeConflictRetryState t.retryState).next policy now).lastRetryDelaySeconds *
        nanosPerSecond) := rfl

section Backoff

variable {policy : ConflictRetryPolicy} {first : Int}

/-- The delay of the `k + 1`-th block, in seconds. -/
def backoffDelay (policy : ConflictRetryPolicy) (k : Nat) : Int :=
  min (durationSeconds policy.initialRetryDelay * 2 ^ k) (durationSeconds policy.maxRetryDelay)

/-- `t` was blocked `k + 1` times, first at `first` and last at `last`. -/
def BlockedFor (policy : ConflictRetryPolicy) (first : Int) (k : Nat) (last : Int)
    (t : OperationRunTarget) : Prop :=
  t.retryState = some ⟨some first, k + 1, backoffDelay policy k⟩ ∧
    t.retryAfter = some (last + backoffDelay policy k * nanosPerSecond)

variable (hpos : 0 < durationSeconds policy.initialRetryDelay)
  (hle : durationSeconds policy.initialRetryDelay ≤ durationSeconds policy.maxRetryDelay)
include hpos hle

theorem backoffDelay_pos (k : Nat) : 0 < backoffDelay policy k := by
  have : 0 < durationSeconds policy.initialRetryDelay * 2 ^ k :=
    Int.mul_pos hpos (Int.pow_pos (by decide))
  unfold backoffDelay
  omega

/-- A block over a blocked target: `blocked_since` stays, the delay doubles up
to the maximum. -/
theorem BlockedFor.blockTarget {k : Nat} {last : Int} {t : OperationRunTarget}
    (h : BlockedFor policy first k last t) (now : Int) (message : String) :
    BlockedFor policy first (k + 1) now (blockTarget t policy now message) := by
  have hd := backoffDelay_pos hpos hle k
  have hdouble : min (backoffDelay policy k * 2) (durationSeconds policy.maxRetryDelay) =
      backoffDelay policy (k + 1) :=
    min_double_pow (by omega) k
  have hnext : (decodeConflictRetryState t.retryState).next policy now =
      ⟨some first, (k + 1 : Nat) + 1, backoffDelay policy (k + 1)⟩ := by
    simp only [h.1, decodeConflictRetryState, ConflictRetryState.next]
    rw [if_neg (by omega), hdouble, Option.getD_some]
    rfl
  simp only [BlockedFor, blockTarget_retryState, blockTarget_retryAfter, hnext, and_self]

/-- Blocks at the times `nows`, each over the target the last one wrote. -/
theorem BlockedFor.foldl_blockTarget {k : Nat} {last : Int} {t : OperationRunTarget}
    (h : BlockedFor policy first k last t) (nows : List Int) (message : String) :
    BlockedFor policy first (k + nows.length) (nows.getLastD last)
      (nows.foldl (fun t now => Carbide.Flow.blockTarget t policy now message) t) := by
  induction nows generalizing k last t with
  | nil => simpa using h
  | cons now nows ih =>
    have := ih (h.blockTarget hpos hle now message)
    simp only [List.foldl_cons, List.length_cons, List.getLastD_cons]
    rwa [Nat.add_comm nows.length 1, ← Nat.add_assoc]

end Backoff

/-- Blocking a target again and again, each time over the retry state the last
block wrote, follows the policy: for every valid policy whose initial delay is
at least a second, the `k + 1`-th block sets `retry_after` to the block time
plus `min(I·2^k, M)` (in whole seconds) and keeps `blocked_since` at the first
block. -/
theorem blockTarget_iterate {policy : ConflictRetryPolicy} (hv : policy.validate = .ok ())
    (hI : nanosPerSecond ≤ policy.initialRetryDelay) (message : String)
    (target : OperationRunTarget) (hfresh : target.retryState = none) (first : Int)
    (nows : List Int) :
    let blocked := nows.foldl (fun t now => blockTarget t policy now message)
      (blockTarget target policy first message)
    let delay := min (durationSeconds policy.initialRetryDelay * 2 ^ nows.length)
      (durationSeconds policy.maxRetryDelay)
    blocked.retryState = some ⟨some first, nows.length + 1, delay⟩ ∧
      blocked.retryAfter = some (nows.getLastD first + delay * nanosPerSecond) := by
  obtain ⟨-, hI0, -, hIM⟩ := validate_eq_ok.mp hv
  have hpos := durationSeconds_pos hI
  have hle := durationSeconds_le hI0.le hIM
  -- the first block starts from the empty state of a fresh target
  have h0 : BlockedFor policy first 0 first (blockTarget target policy first message) := by
    simp [BlockedFor, backoffDelay, hfresh, decodeConflictRetryState, ConflictRetryState.next,
      min_eq_left hle]
  have := h0.foldl_blockTarget hpos hle nows message
  simpa [BlockedFor, backoffDelay] using this

/-- A policy of whole seconds: `RetryTimeout` 60 s, `InitialRetryDelay` 10 s,
`MaxRetryDelay` 40 s. -/
def secondsPolicy : ConflictRetryPolicy :=
  ⟨60 * nanosPerSecond, 10 * nanosPerSecond, 40 * nanosPerSecond⟩

theorem blockTarget_iterate_secondsPolicy :
    secondsPolicy.validate = .ok () ∧ nanosPerSecond ≤ secondsPolicy.initialRetryDelay ∧
      let t : OperationRunTarget := ⟨0, none, .pending, "", none, none⟩
      (([10, 20].map (· * nanosPerSecond)).foldl
        (fun t now => blockTarget t secondsPolicy now "rack conflict")
        (blockTarget t secondsPolicy 0 "rack conflict")).retryState =
        some ⟨some 0, 3, min (10 * 2 ^ 2) 40⟩ :=
  ⟨by decide, by decide,
    (blockTarget_iterate (by decide) (by decide) "rack conflict" _ rfl 0 _).1⟩

/-! ## Claims between blocks -/

/-- A run with one pending target, dispatched one target at a time with a
claim lease of 30 s. -/
def conflictRun : RunState := ⟨.pending, .none, [⟨0, none, .pending, "", none, none⟩]⟩

def conflictConfig (policy : ConflictRetryPolicy) : DispatchConfig :=
  ⟨policy, 1, 30 * nanosPerSecond⟩

/-- `InitialRetryDelay` of half a second. -/
def subSecondPolicy : ConflictRetryPolicy :=
  ⟨60 * nanosPerSecond, nanosPerSecond / 2, 40 * nanosPerSecond⟩

/-- Passes at `0, 10 s, …, 60 s`, each a submission rejected by a rack conflict.
The second block waits the initial 10 s again, not 20 s, and forgets the first
block time; at 60 s, `RetryTimeout` after the first block, the run is still
running and the target was claimed and blocked once more. Under a valid policy
with an initial delay of half a second, a block sets no delay at all. -/
theorem claim_resets_conflict_backoff :
    secondsPolicy.validate = .ok () ∧
      (conflictingPasses (conflictConfig secondsPolicy) "rack conflict"
        [0, 10 * nanosPerSecond] conflictRun).targets =
        [⟨0, none, .blocked, "rack conflict", some (20 * nanosPerSecond),
          some ⟨some (10 * nanosPerSecond), 1, 10⟩⟩] ∧
      conflictingPasses (conflictConfig secondsPolicy) "rack conflict"
        ((List.range 7).map fun n : Nat => (n : Int) * 10 * nanosPerSecond) conflictRun =
        ⟨.running, .none, [⟨0, none, .blocked, "rack conflict", some (70 * nanosPerSecond),
          some ⟨some (60 * nanosPerSecond), 1, 10⟩⟩]⟩ ∧
      subSecondPolicy.validate = .ok () ∧
      (conflictingPasses (conflictConfig subSecondPolicy) "rack conflict" [0]
        conflictRun).targets.map (·.retryAfter) = [some 0] := by
  decide


end Carbide.Flow

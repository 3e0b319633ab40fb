import Carbide.Flow.ExecutionTargets
import Carbide.Flow.OperationRun
import Carbide.Lib.Chunks
import Carbide.Lib.Except
import Carbide.Lib.Select
import Mathlib

/-!
# Planning an operation run (`operationrun/manager/planner/planner.go`)

`Plan` freezes an operation run into target rows. It resolves the candidate
racks (the target spec's or the default scope, normalized, minus the
components of excluded earlier runs), selects a percentage of them by a
seeded hash order, orders the selection, and cuts the ordered targets into
phases: one phase, `n` equal phases, phases of given percentages, or phases
of given counts plus a remainder. Each row gets its position as sequence
index and its phase's index.

Phase sizes come from cumulative boundaries rounded up, so rounding never
compounds. Go code that panics (a slice or index out of range, a method
of a nil interface) returns `none` here; an `error` is `.error`.

Results:
* `phaseTargetCounts_sum`: for a validated phase plan the sizes are
  non-negative and sum to the number of targets;
* `phasedExecutionTargets_partition`: a validated phase policy never
  panics, and the rows it builds are the ordered targets in order, numbered
  from 0, cut into consecutive non-empty phases of the computed sizes;
* `selectPercentageTargets_rank`: a validated percentage selector takes the
  `⌈n·p/100⌉` candidates with the fewest candidates before them in seed order;
* `plan_rows`: `Plan` never panics, and its rows are pending, numbered from
  0, in non-decreasing phases, with distinct racks none of which is `uuid.Nil`.
-/
namespace Carbide.Flow
open Carbide.Lib ExecutionTargets

namespace Planner

/-- Integer ceiling division; Go's `/` truncates toward zero.
mirrors rest-api/flow/internal/operationrun/manager/planner/planner.go:447-452 -/
def ceilDiv (n d : Int) : Int :=
  if d ≤ 0 then 0 else (n + d - 1).tdiv d

/-! ## Configuration -/

/-- The phase-plan payloads; their counts and percentages are Go `int32`s.
mirrors rest-api/flow/internal/operationrun/configuration.go:407-493 -/
inductive PhasePlan
  | equal (phaseCount : Int)
  | percentage (percentages : List Int)
  | count (counts : List Int)
  deriving DecidableEq, Repr

namespace PhasePlan

/-- `PhasePlanKind()`.
mirrors rest-api/flow/internal/operationrun/configuration.go:378-384, 411-413, 432-434 and 469-471 -/
def kind : PhasePlan → String
  | .equal _ => "equal"
  | .percentage _ => "percentage"
  | .count _ => "count"

/-- `Validate()` of the three payloads. The percentage loop stops at the
first percentage out of range and only then compares the sum, so it is
the two checks in this order.
mirrors rest-api/flow/internal/operationrun/configuration.go:415-424, 436-456 and 473-488 -/
def validate : PhasePlan → Except String Unit
  | .equal phaseCount =>
    if phaseCount ≤ 0 then .error "equal phase_count must be greater than 0" else .ok ()
  | .percentage percentages =>
    if percentages.isEmpty then .error "percentage phase policy must include at least one phase"
    else if percentages.any fun p => p < 1 || p > 100 then
      .error "percentage phase percentages must be between 1 and 100"
    else if percentages.sum ≠ 100 then .error "percentage phase percentages must sum to 100"
    else .ok ()
  | .count counts =>
    if counts.isEmpty then .error "count phase policy must include at least one phase"
    else if counts.any fun c => c ≤ 0 then .error "count phase counts must be greater than 0"
    else .ok ()

end PhasePlan

/-- The part of `PhasePolicy` the planner reads: no plan is one phase.
mirrors rest-api/flow/internal/operationrun/configuration.go:394-397 -/
structure PhasePolicy where
  plan : Option PhasePlan
  deriving DecidableEq, Repr

/-- mirrors rest-api/flow/internal/operationrun/configuration.go:399-404 -/
def PhasePolicy.validate (p : PhasePolicy) : Except String Unit :=
  match p.plan with
  | none => .ok ()
  | some plan => plan.validate

/-- The ordering payloads.
mirrors rest-api/flow/internal/operationrun/configuration.go:315-371 -/
inductive OrderingPolicyPayload
  | random (seed : String)
  | physicalLocation (strategy : String)
  deriving DecidableEq, Repr

/-- `OrderingPolicy.Validate` and the payloads' `Validate`; `%q` is the
strategy in double quotes.
mirrors rest-api/flow/internal/operationrun/configuration.go:307-312, 330-339 and 360-371 -/
def validateOrderingPolicy : Option OrderingPolicyPayload → Except String Unit
  | none => .error "ordering policy is required"
  | some (.random seed) => if seed = "" then .error "random ordering seed is required" else .ok ()
  | some (.physicalLocation strategy) =>
    if strategy = "row_by_row" ∨ strategy = "one_per_row_round_robin" then .ok ()
    else .error ("unsupported physical_location ordering strategy \"" ++ strategy ++ "\"")

/-- The fields of `Options` the planner reads.
mirrors rest-api/flow/internal/operationrun/configuration.go:67-73 -/
structure Options where
  orderingPolicy : Option OrderingPolicyPayload
  phasePolicy : PhasePolicy
  deriving DecidableEq, Repr

/-- The checks of `Options.Validate` on the planner's fields, in its order
(lines 88-93); the checks of the fields it does not read are left out.
mirrors rest-api/flow/internal/operationrun/configuration.go:75-96 -/
def Options.validate (o : Options) : Except String Unit :=
  match validateOrderingPolicy o.orderingPolicy with
  | .error err => .error ("ordering_policy: " ++ err)
  | .ok () => o.phasePolicy.validate.mapError ("phase_policy: " ++ ·)

/-- mirrors rest-api/flow/internal/operationrun/configuration.go:37-41 -/
structure PercentageSelector where
  percentage : Int
  seed : String
  deriving DecidableEq, Repr

/-- mirrors rest-api/flow/internal/operationrun/configuration.go:47-59 -/
def PercentageSelector.validate (s : PercentageSelector) : Except String Unit :=
  if s.percentage < 1 ∨ s.percentage > 100 then
    .error "percentage selector must be between 1 and 100"
  else if s.seed = "" then .error "percentage selector seed is required"
  else .ok ()

/-- `DecodedSelector`: the unmarshalled selector (an input), then `Validate`.
mirrors rest-api/flow/internal/operationrun/operationrun.go:258-268 -/
def decodedSelector (raw : Except String PercentageSelector) : Except String PercentageSelector :=
  match raw with
  | .error err => .error ("unmarshal operation run selector: " ++ err)
  | .ok selector =>
    (selector.validate.mapError ("validate operation run selector: " ++ ·)).map fun _ => selector

/-- `DecodedOptions`: the unmarshalled options (an input), then `Validate`.
mirrors rest-api/flow/internal/operationrun/operationrun.go:271-281 -/
def decodedOptions (raw : Except String Options) : Except String Options :=
  match raw with
  | .error err => .error ("unmarshal operation run options: " ++ err)
  | .ok options =>
    (options.validate.mapError ("validate operation run options: " ++ ·)).map fun _ => options

/-! ## Phase sizes -/

/-- mirrors rest-api/flow/internal/operationrun/manager/planner/planner.go:390-400;
`make` of a negative length panics, which no validated plan reaches. -/
def equalPhaseTargetCounts (total phaseCount : Int) : List Int :=
  (List.range phaseCount.toNat).map fun (i : Nat) =>
    ceilDiv (total * ((i : Int) + 1)) phaseCount - ceilDiv (total * i) phaseCount

/-- The loop of `percentagePhaseTargetCounts`: `sum` is the running sum of
the percentages, `lastEnd` the end of the previous phase.
mirrors rest-api/flow/internal/operationrun/manager/planner/planner.go:412-420 -/
def percentageCounts (total : Int) : Int → Int → List Int → List Int
  | _, _, [] => []
  | sum, lastEnd, percentage :: rest =>
    let phaseEnd := ceilDiv (total * (sum + percentage)) 100
    (phaseEnd - lastEnd) :: percentageCounts total (sum + percentage) phaseEnd rest

/-- mirrors rest-api/flow/internal/operationrun/manager/planner/planner.go:404-421 -/
def percentagePhaseTargetCounts (total : Int) (percentages : List Int) : List Int :=
  percentageCounts total 0 0 percentages

/-- The loop of `countPhaseTargetCounts` and the remainder phase after it.
mirrors rest-api/flow/internal/operationrun/manager/planner/planner.go:428-442 -/
def countPhaseCounts (total : Int) : Int → List Int → Except String (List Int)
  | assigned, [] => .ok (if assigned < total then [total - assigned] else [])
  | assigned, count :: rest =>
    if assigned + count > total then .error "count phase counts exceed selected target count"
    else (countPhaseCounts total (assigned + count) rest).map (count :: ·)

/-- mirrors rest-api/flow/internal/operationrun/manager/planner/planner.go:425-443 -/
def countPhaseTargetCounts (total : Int) (counts : List Int) : Except String (List Int) :=
  countPhaseCounts total 0 counts

/-- mirrors rest-api/flow/internal/operationrun/manager/planner/planner.go:363-386 -/
def phaseTargetCounts (total : Int) (policy : PhasePolicy) : Except String (List Int) :=
  if total = 0 then .ok []
  else
    match policy.plan with
    | none => .ok [total]
    | some (.equal phaseCount) => .ok (equalPhaseTargetCounts total phaseCount)
    | some (.percentage percentages) => .ok (percentagePhaseTargetCounts total percentages)
    | some (.count counts) => countPhaseTargetCounts total counts

/-! ## Rows -/

/-- The fields of an `OperationRunTarget` that planning sets.
mirrors rest-api/flow/internal/operationrun/operationrun.go:298-312 -/
structure PlannedTarget (U : Type) where
  rackId : U
  sequenceIndex : Nat
  phaseIndex : Nat
  componentsByType : ComponentsByType U
  status : TargetStatus

variable {U : Type}

section Rows

variable (I : UuidOps U)

/-- The row appended for the target at `seqIdx` in phase `phaseIdx`.
mirrors rest-api/flow/internal/operationrun/manager/planner/planner.go:233-239 -/
def plannedTarget (target : RackExecutionTarget U) (seqIdx phaseIdx : Nat) : PlannedTarget U where
  rackId := target.rackId
  sequenceIndex := seqIdx
  phaseIndex := phaseIdx
  componentsByType := target.componentsByType.clone I
  status := .pending

/-- The inner loop, `for range phaseSize`: the rows of one phase from
position `seqIdx`; `ordered[seqIdx]` out of range panics.
mirrors rest-api/flow/internal/operationrun/manager/planner/planner.go:230-242 -/
def phaseRows (ordered : List (RackExecutionTarget U)) (phaseIdx : Nat) :
    Nat → Nat → Option (List (PlannedTarget U))
  | _, 0 => some []
  | seqIdx, size + 1 =>
    match ordered[seqIdx]? with
    | none => none
    | some target =>
      (phaseRows ordered phaseIdx (seqIdx + 1) size).map (plannedTarget I target seqIdx phaseIdx :: ·)

/-- `ErrPhaseHasNoTargets`.
mirrors rest-api/flow/internal/operationrun/manager/planner/planner.go:21 -/
def errPhaseHasNoTargets : String := "configured operation run phase has no targets"

/-- The outer loop over the phase sizes. `kind` is `policy.Plan.PhasePlanKind()`,
which panics on a nil plan; a size of zero is an error, and a negative size
runs no iteration.
mirrors rest-api/flow/internal/operationrun/manager/planner/planner.go:217-243 -/
def phasedRows (ordered : List (RackExecutionTarget U)) (kind : Option String) :
    Nat → Nat → List Int → Option (Except String (List (PlannedTarget U)))
  | _, _, [] => some (.ok [])
  | phaseIdx, seqIdx, phaseSize :: rest =>
    if phaseSize = 0 then
      kind.map fun kind => .error (errPhaseHasNoTargets ++ ": " ++ kind ++ " phase " ++
        toString (phaseIdx + 1) ++ " resolves to zero targets for " ++ toString ordered.length ++
        " selected targets")
    else
      match phaseRows I ordered phaseIdx seqIdx phaseSize.toNat with
      | none => none
      | some rows =>
        (phasedRows ordered kind (phaseIdx + 1) (seqIdx + phaseSize.toNat) rest).map
          (·.map (rows ++ ·))

/-- mirrors rest-api/flow/internal/operationrun/manager/planner/planner.go:208-246 -/
def phasedExecutionTargets (ordered : List (RackExecutionTarget U)) (policy : PhasePolicy) :
    Option (Except String (List (PlannedTarget U))) :=
  match phaseTargetCounts ordered.length policy with
  | .error err => some (.error err)
  | .ok phaseCounts => phasedRows I ordered (policy.plan.map PhasePlan.kind) 0 0 phaseCounts

end Rows

/-! ## Selection, ordering and the plan -/

section Plan

variable [DecidableEq U] (I : UuidOps U) (sha256 : String → List UInt8)

/-- `ordered[:selectedCount]` panics outside `0 ..= cap(ordered)`; a
validated selector stays within the length.
mirrors rest-api/flow/internal/operationrun/manager/planner/planner.go:317-324 -/
def selectPercentageTargets (candidates : List (RackExecutionTarget U))
    (selector : PercentageSelector) : Option (List (RackExecutionTarget U)) :=
  let ordered := sortBySeedScore I sha256 selector.seed candidates
  let selectedCount := ceilDiv (ordered.length * selector.percentage) 100
  if 0 ≤ selectedCount ∧ selectedCount ≤ ordered.length then some (ordered.take selectedCount.toNat)
  else none

/-- A nil payload reaches the `default` branch, whose
`p.OrderingPolicyKind()` panics.
mirrors rest-api/flow/internal/operationrun/manager/planner/planner.go:328-358 -/
def orderExecutionTargets (targets : List (RackExecutionTarget U)) :
    Option OrderingPolicyPayload → Option (Except String (List (RackExecutionTarget U)))
  | some (.random seed) => some (.ok (sortBySeedScore I sha256 seed targets))
  | some (.physicalLocation _) => some (.error "physical_location ordering is not supported yet")
  | none => none

/-- mirrors rest-api/flow/internal/operationrun/manager/planner/planner.go:157-176 -/
def selectedTargets (selector : Except String PercentageSelector)
    (candidates : List (RackExecutionTarget U)) :
    Option (Except String (List (RackExecutionTarget U))) :=
  if candidates.isEmpty then some (.ok [])
  else
    match decodedSelector selector with
    | .error err => some (.error err)
    | .ok selector => (selectPercentageTargets I sha256 candidates selector).map .ok

/-- mirrors rest-api/flow/internal/operationrun/manager/planner/planner.go:180-204 -/
def plannedTargets (options : Except String Options) (selected : List (RackExecutionTarget U)) :
    Option (Except String (List (PlannedTarget U))) :=
  if selected.isEmpty then some (.ok [])
  else
    match decodedOptions options with
    | .error err => some (.error err)
    | .ok options =>
      match orderExecutionTargets I sha256 selected options.orderingPolicy with
      | none => none
      | some (.error err) => some (.error err)
      | some (.ok ordered) => phasedExecutionTargets I ordered options.phasePolicy

/-- The fields of the decoded operation template that the planner reads; the
target spec is a parameter type.
mirrors rest-api/flow/internal/operationrun/configuration.go:508-516 and 553-556 -/
structure Operation (U S : Type) where
  targetSpec : Option S
  excludedOperationRunIds : List U

/-- `TargetLookup`: the inventory and run-target reads, parameters of the planner.
mirrors rest-api/flow/internal/operationrun/manager/planner/planner.go:26-44 -/
structure TargetLookup (U S : Type) where
  targetsFromDefaultScope : Operation U S → Except String (List (RackExecutionTarget U))
  targetsFromSpec : S → Except String (List (RackExecutionTarget U))
  targetsFromRuns : List U → Except String (List (RackExecutionTarget U))

variable {S : Type} (lookup : TargetLookup U S)

/-- mirrors rest-api/flow/internal/operationrun/manager/planner/planner.go:250-286 -/
def baseCandidateScope (op : Operation U S) : Except String (List (RackExecutionTarget U)) :=
  let (targets, source) := match op.targetSpec with
    | some spec => (lookup.targetsFromSpec spec, "target_spec scope")
    | none => (lookup.targetsFromDefaultScope op, "default scope")
  match targets with
  | .error err => .error ("build " ++ source ++ ": " ++ err)
  | .ok targets => (normalize I targets).mapError fun err => "normalize " ++ source ++ ": " ++ err

/-- `%s` of a `[]uuid.UUID`: the texts between brackets, space separated. -/
def uuidsText (ids : List U) : String := "[" ++ " ".intercalate (ids.map I.text) ++ "]"

/-- mirrors rest-api/flow/internal/operationrun/manager/planner/planner.go:290-312 -/
def excludedCandidateScope (op : Operation U S) : Except String (RackMap U) :=
  if op.excludedOperationRunIds.isEmpty then .ok []
  else
    match lookup.targetsFromRuns op.excludedOperationRunIds with
    | .error err =>
      .error ("resolve excluded operation runs " ++ uuidsText I op.excludedOperationRunIds ++
        ": " ++ err)
    | .ok excluded => componentsByRackID I excluded

/-- `candidates`, from the decoded operation template (an input).
mirrors rest-api/flow/internal/operationrun/manager/planner/planner.go:123-152 -/
def candidates (operation : Except String (Operation U S)) :
    Except String (List (RackExecutionTarget U)) :=
  operation.bind fun op => (baseCandidateScope I lookup op).bind fun base =>
    if base.isEmpty then .ok base
    else (excludedCandidateScope I lookup op).map (exclude base ·)

/-- What `Plan` reads of an operation run: its three configurations, as
decoded from JSON (the unmarshalling is an input of the model). -/
structure OperationRun (U S : Type) where
  operation : Except String (Operation U S)
  selector : Except String PercentageSelector
  options : Except String Options

/-- mirrors rest-api/flow/internal/operationrun/manager/planner/planner.go:91-119 -/
def plan (run : OperationRun U S) : Option (Except String (List (PlannedTarget U))) :=
  match candidates I lookup run.operation with
  | .error err => some (.error err)
  | .ok candidates =>
    match selectedTargets I sha256 run.selector candidates with
    | none => none
    | some (.error err) => some (.error err)
    | some (.ok selected) => plannedTargets I sha256 run.options selected

end Plan

/-! ## Ceiling division -/

section CeilDiv

variable {n n' d k : Int}

theorem ceilDiv_eq_ediv (hn : 0 ≤ n) (hd : 0 < d) : ceilDiv n d = (n + d - 1) / d := by
  rw [ceilDiv, if_neg (by omega), Int.tdiv_eq_ediv_of_nonneg (by omega)]

theorem ceilDiv_mul_self (hk : 0 ≤ k) (hd : 0 < d) : ceilDiv (k * d) d = k := by
  rw [ceilDiv_eq_ediv (Int.mul_nonneg hk hd.le) hd, show k * d + d - 1 = (d - 1) + k * d by ring,
    Int.add_mul_ediv_right _ _ hd.ne', Int.ediv_eq_zero_of_lt (by omega) (by omega), zero_add]

theorem ceilDiv_zero (hd : 0 < d) : ceilDiv 0 d = 0 := by
  simpa using ceilDiv_mul_self le_rfl hd

theorem ceilDiv_mono (hn : 0 ≤ n) (h : n ≤ n') (hd : 0 < d) : ceilDiv n d ≤ ceilDiv n' d := by
  rw [ceilDiv_eq_ediv hn hd, ceilDiv_eq_ediv (by omega) hd]
  exact Int.ediv_le_ediv hd (by omega)

theorem ceilDiv_nonneg (hn : 0 ≤ n) (hd : 0 < d) : 0 ≤ ceilDiv n d :=
  calc 0 = ceilDiv 0 d := (ceilDiv_zero hd).symm
    _ ≤ ceilDiv n d := ceilDiv_mono le_rfl hn hd

theorem ceilDiv_le_of_le_mul (hn : 0 ≤ n) (h : n ≤ k * d) (hd : 0 < d) : ceilDiv n d ≤ k := by
  have hk : 0 ≤ k := by nlinarith
  calc ceilDiv n d ≤ ceilDiv (k * d) d := ceilDiv_mono hn h hd
    _ = k := ceilDiv_mul_self hk hd

end CeilDiv

/-! ## Phase sizes -/

/-- What the three `Validate` methods accept. -/
def PhasePlan.Valid : PhasePlan → Prop
  | .equal phaseCount => 0 < phaseCount
  | .percentage percentages =>
    percentages ≠ [] ∧ (∀ p ∈ percentages, 1 ≤ p ∧ p ≤ 100) ∧ percentages.sum = 100
  | .count counts => counts ≠ [] ∧ ∀ c ∈ counts, 0 < c

theorem PhasePlan.validate_eq_ok_iff (p : PhasePlan) : p.validate = .ok () ↔ p.Valid := by
  cases p with
  | equal phaseCount =>
    by_cases h : phaseCount ≤ 0
    · simp [validate, Valid, h]
    · simp [validate, Valid, h]
      omega
  | percentage ps =>
    -- the loop's range check fails exactly when some percentage is out of range
    have hany : (ps.any fun p => p < 1 || p > 100) = true ↔ ¬∀ p ∈ ps, 1 ≤ p ∧ p ≤ 100 := by
      rw [List.any_eq_true]
      constructor
      · rintro ⟨p, hp, hout⟩ hall
        have := hall p hp
        simp at hout
        omega
      · intro hne
        by_contra hnone
        exact hne fun p hp => by
          have : ¬(p < 1 || p > 100) = true := fun h => hnone ⟨p, hp, h⟩
          simp at this
          omega
    by_cases h0 : ps = []
    · simp [validate, Valid, h0]
    · by_cases hr : ∀ p ∈ ps, 1 ≤ p ∧ p ≤ 100
      · have hin : (ps.any fun p => p < 1 || p > 100) = false := by
          rw [← Bool.not_eq_true, hany, not_not]
          exact hr
        by_cases hs : ps.sum = 100
        · simpa [validate, Valid, h0, hin, hs] using hr
        · simp [validate, Valid, h0, hin, hs]
      · simp [validate, Valid, h0, hr, hany.2 hr]
  | count cs =>
    have hany : (cs.any fun c => c ≤ 0) = true ↔ ¬∀ c ∈ cs, 0 < c := by
      rw [List.any_eq_true]
      constructor
      · rintro ⟨c, hc, hle⟩ hall
        have := hall c hc
        simp at hle
        omega
      · intro hne
        by_contra hnone
        exact hne fun c hc => by
          have : ¬decide (c ≤ 0) = true := fun h => hnone ⟨c, hc, h⟩
          simp at this
          omega
    by_cases h0 : cs = []
    · simp [validate, Valid, h0]
    · by_cases hr : ∀ c ∈ cs, 0 < c
      · have hin : (cs.any fun c => c ≤ 0) = false := by
          rw [← Bool.not_eq_true, hany, not_not]
          exact hr
        simpa [validate, Valid, h0, hin] using hr
      · simp [validate, Valid, h0, hr, hany.2 hr]

section Counts

variable {total : Int}

theorem mem_equalPhaseTargetCounts {phaseCount c : Int} :
    c ∈ equalPhaseTargetCounts total phaseCount ↔ ∃ i < phaseCount.toNat,
      c = ceilDiv (total * (i + 1)) phaseCount - ceilDiv (total * i) phaseCount := by
  simp [equalPhaseTargetCounts, eq_comm]

/-- Equal phases: `phaseCount` sizes, none negative, summing to the total. -/
theorem equalPhaseTargetCounts_spec {phaseCount : Int} (ht : 0 ≤ total) (hm : 0 < phaseCount) :
    (equalPhaseTargetCounts total phaseCount).length = phaseCount.toNat ∧
      (∀ c ∈ equalPhaseTargetCounts total phaseCount, 0 ≤ c) ∧
      (equalPhaseTargetCounts total phaseCount).sum = total := by
  refine ⟨by simp [equalPhaseTargetCounts], ?_, ?_⟩
  · intro c hc
    obtain ⟨i, -, rfl⟩ := mem_equalPhaseTargetCounts.1 hc
    have := ceilDiv_mono (Int.mul_nonneg ht (Int.natCast_nonneg i))
      (Int.mul_le_mul_of_nonneg_left (show (i : Int) ≤ i + 1 by omega) ht) hm
    omega
  · -- the sizes are differences of consecutive boundaries, so they telescope
    have htel := sum_range_sub (fun i : Nat => ceilDiv (total * i) phaseCount) phaseCount.toNat
    push_cast at htel
    rw [equalPhaseTargetCounts, htel, Int.toNat_of_nonneg hm.le, ceilDiv_mul_self ht hm,
      Int.mul_zero, ceilDiv_zero hm, Int.sub_zero]

/-- The loop of percentage phases: each size is the step between consecutive
rounded boundaries, and the sizes telescope. -/
theorem percentageCounts_spec (ht : 0 ≤ total) {sum : Int} (hs : 0 ≤ sum) {ps : List Int}
    (hps : ∀ p ∈ ps, 0 ≤ p) :
    (∀ c ∈ percentageCounts total sum (ceilDiv (total * sum) 100) ps, 0 ≤ c) ∧
      (percentageCounts total sum (ceilDiv (total * sum) 100) ps).sum =
        ceilDiv (total * (sum + ps.sum)) 100 - ceilDiv (total * sum) 100 := by
  induction ps generalizing sum with
  | nil => simp [percentageCounts]
  | cons p ps ih =>
    obtain ⟨hp, hps⟩ := List.forall_mem_cons.1 hps
    obtain ⟨hnonneg, hsum⟩ := @ih (sum + p) (by omega) hps
    have hmono := ceilDiv_mono (Int.mul_nonneg ht hs)
      (Int.mul_le_mul_of_nonneg_left (show sum ≤ sum + p by omega) ht) (by decide : (0 : Int) < 100)
    rw [percentageCounts, List.forall_mem_cons, List.sum_cons, hsum, List.sum_cons, ← Int.add_assoc]
    exact ⟨⟨by omega, hnonneg⟩, by omega⟩

theorem percentagePhaseTargetCounts_spec (ht : 0 ≤ total) {ps : List Int}
    (hps : ∀ p ∈ ps, 0 ≤ p) (h100 : ps.sum = 100) :
    (∀ c ∈ percentagePhaseTargetCounts total ps, 0 ≤ c) ∧
      (percentagePhaseTargetCounts total ps).sum = total := by
  have h0 : ceilDiv (total * 0) 100 = 0 := by rw [Int.mul_zero]; exact ceilDiv_zero (by decide)
  have hspec := percentageCounts_spec ht le_rfl hps
  rw [h0, Int.zero_add, h100, ceilDiv_mul_self ht (by decide), Int.sub_zero] at hspec
  exact hspec

/-- The loop of count phases: it fails exactly when the counts overrun the
total, and otherwise appends the remainder, if any. -/
theorem countPhaseCounts_eq_ok_iff {assigned : Int} (ha : assigned ≤ total) {cs : List Int}
    (hcs : ∀ c ∈ cs, 0 ≤ c) {r : List Int} :
    countPhaseCounts total assigned cs = .ok r ↔ assigned + cs.sum ≤ total ∧
      r = cs ++ if assigned + cs.sum < total then [total - (assigned + cs.sum)] else [] := by
  induction cs generalizing assigned r with
  | nil => simp [countPhaseCounts, ha, eq_comm]
  | cons c cs ih =>
    obtain ⟨hc, hcs⟩ := List.forall_mem_cons.1 hcs
    have hrest : 0 ≤ cs.sum := List.sum_nonneg hcs
    rw [countPhaseCounts, List.sum_cons]
    by_cases hover : assigned + c > total
    · -- the running sum already exceeds the total, and so does the whole sum
      rw [if_pos hover]
      simp only [reduceCtorEq, false_iff, not_and]
      intro h
      omega
    · rw [if_neg hover]
      constructor
      · intro h
        obtain ⟨r', hr', rfl⟩ := Except.map_eq_ok h
        obtain ⟨hle, rfl⟩ := (ih (by omega) hcs).1 hr'
        refine ⟨by omega, ?_⟩
        simp [Int.add_assoc]
      · rintro ⟨hle, rfl⟩
        rw [(ih (by omega) hcs).2 ⟨by omega, rfl⟩]
        simp [Except.map, Int.add_assoc]

/-- For a validated plan and a non-negative total, the phase sizes are
non-negative and sum to the total. -/
theorem phaseTargetCounts_sum (ht : 0 ≤ total) {policy : PhasePolicy}
    (hv : policy.validate = .ok ()) {counts : List Int}
    (h : phaseTargetCounts total policy = .ok counts) :
    (∀ c ∈ counts, 0 ≤ c) ∧ counts.sum = total := by
  unfold phaseTargetCounts at h
  split_ifs at h with h0
  · cases h
    simp [h0]
  · unfold PhasePolicy.validate at hv
    split at h <;> rename_i hplan <;> rw [hplan] at hv
    · cases h
      simp [ht]
    · cases h
      have := equalPhaseTargetCounts_spec ht ((PhasePlan.validate_eq_ok_iff _).1 hv)
      exact ⟨this.2.1, this.2.2⟩
    · cases h
      obtain ⟨-, hrange, h100⟩ := (PhasePlan.validate_eq_ok_iff _).1 hv
      exact percentagePhaseTargetCounts_spec ht (fun p hp => by have := hrange p hp; omega) h100
    · obtain ⟨-, hpos⟩ := (PhasePlan.validate_eq_ok_iff _).1 hv
      obtain ⟨hle, rfl⟩ := (countPhaseCounts_eq_ok_iff ht (fun c hc => (hpos c hc).le)).1 h
      refine ⟨?_, ?_⟩
      · intro c hc
        rcases List.mem_append.1 hc with hc | hc
        · exact (hpos c hc).le
        · -- the remainder phase, when there is one, is positive
          split_ifs at hc with hlt
          · rw [List.mem_singleton.1 hc]
            omega
          · simp at hc
      · split_ifs with hlt <;> simp only [List.sum_append, List.sum_cons, List.sum_nil] <;> omega

end Counts

/-! ## Rows -/

section RowsLaws

variable (I : UuidOps U)

/-- Rows for targets at their positions, each with its phase: the shape of
what `phasedExecutionTargets` builds. -/
def plannedRows (positioned : List (RackExecutionTarget U × Nat)) (phases : List Nat) :
    List (PlannedTarget U) :=
  (positioned.zip phases).map fun p => plannedTarget I p.1.1 p.1.2 p.2

theorem plannedRows_append {ps ps' : List (RackExecutionTarget U × Nat)} {ks ks' : List Nat}
    (h : ps.length = ks.length) :
    plannedRows I (ps ++ ps') (ks ++ ks') = plannedRows I ps ks ++ plannedRows I ps' ks' := by
  simp [plannedRows, List.zip_append h]

theorem rackIds_plannedRows {ps : List (RackExecutionTarget U × Nat)} {ks : List Nat}
    (h : ps.length ≤ ks.length) : (plannedRows I ps ks).map (·.rackId) = ps.map (·.1.rackId) := by
  rw [plannedRows, List.map_map, show (PlannedTarget.rackId ∘ fun p : (RackExecutionTarget U × Nat) × Nat =>
    plannedTarget I p.1.1 p.1.2 p.2) = (fun q => q.1.rackId) ∘ Prod.fst from rfl, ← List.map_map,
    List.map_fst_zip h]

theorem sequenceIndexes_plannedRows {ps : List (RackExecutionTarget U × Nat)} {ks : List Nat}
    (h : ps.length ≤ ks.length) : (plannedRows I ps ks).map (·.sequenceIndex) = ps.map (·.2) := by
  rw [plannedRows, List.map_map, show (PlannedTarget.sequenceIndex ∘ fun p : (RackExecutionTarget U × Nat) × Nat =>
    plannedTarget I p.1.1 p.1.2 p.2) = (fun q => q.2) ∘ Prod.fst from rfl, ← List.map_map,
    List.map_fst_zip h]

theorem phaseIndexes_plannedRows {ps : List (RackExecutionTarget U × Nat)} {ks : List Nat}
    (h : ks.length ≤ ps.length) : (plannedRows I ps ks).map (·.phaseIndex) = ks := by
  rw [plannedRows, List.map_map, show (PlannedTarget.phaseIndex ∘ fun p : (RackExecutionTarget U × Nat) × Nat =>
    plannedTarget I p.1.1 p.1.2 p.2) = Prod.snd from rfl, List.map_snd_zip h]

theorem status_plannedRows {ps : List (RackExecutionTarget U × Nat)} {ks : List Nat} :
    ∀ r ∈ plannedRows I ps ks, r.status = .pending := by
  intro r hr
  obtain ⟨p, -, rfl⟩ := List.mem_map.1 hr
  rfl

/-- The rows of one phase, when the ordered targets reach that far. -/
theorem phaseRows_eq {ordered : List (RackExecutionTarget U)} {phaseIdx seqIdx size : Nat}
    (h : seqIdx + size ≤ ordered.length) :
    phaseRows I ordered phaseIdx seqIdx size =
      some (plannedRows I (((ordered.drop seqIdx).take size).zipIdx seqIdx)
        (List.replicate size phaseIdx)) := by
  induction size generalizing seqIdx with
  | zero => simp [phaseRows, plannedRows]
  | succ size ih =>
    have hlt : seqIdx < ordered.length := by omega
    rw [phaseRows, List.getElem?_eq_getElem hlt]
    dsimp only
    rw [ih (by omega), List.drop_eq_getElem_cons hlt]
    simp only [plannedRows, List.take_succ_cons, List.zipIdx_cons, List.replicate_succ,
      List.zip_cons_cons, List.map_cons, Option.map_some]

/-- Positive phase sizes within the ordered targets: every phase is built,
each from where the previous one ends. -/
theorem phasedRows_eq {ordered : List (RackExecutionTarget U)} {kind : Option String}
    {phaseIdx seqIdx : Nat} {counts : List Int} (hpos : ∀ c ∈ counts, 0 < c)
    (h : seqIdx + (counts.map Int.toNat).sum ≤ ordered.length) :
    phasedRows I ordered kind phaseIdx seqIdx counts =
      some (.ok (plannedRows I
        (((ordered.drop seqIdx).take (counts.map Int.toNat).sum).zipIdx seqIdx)
        (labels phaseIdx (counts.map Int.toNat)))) := by
  induction counts generalizing phaseIdx seqIdx with
  | nil => simp [phasedRows, plannedRows]
  | cons c cs ih =>
    obtain ⟨hc, hpos⟩ := List.forall_mem_cons.1 hpos
    simp only [List.map_cons, List.sum_cons] at h ⊢
    rw [phasedRows, if_neg (by omega), phaseRows_eq I (by omega)]
    dsimp only
    rw [ih hpos (by omega)]
    -- this phase's rows, then the later phases' from where this one ends
    have htake : ((ordered.drop seqIdx).take c.toNat).length = c.toNat := by
      simp only [List.length_take, List.length_drop]
      omega
    rw [List.take_add, List.drop_drop, List.zipIdx_append, htake, labels_cons,
      plannedRows_append I (by simp [htake])]
    simp [Except.map]

/-- A validated plan never reaches the panics of the loop: every phase fits
the ordered targets, and an empty phase has a plan to name. -/
theorem phasedRows_isSome {ordered : List (RackExecutionTarget U)} {kind : Option String}
    {phaseIdx seqIdx : Nat} {counts : List Int} (hnonneg : ∀ c ∈ counts, 0 ≤ c)
    (h : seqIdx + (counts.map Int.toNat).sum ≤ ordered.length) (hkind : 0 ∈ counts → kind.isSome) :
    (phasedRows I ordered kind phaseIdx seqIdx counts).isSome := by
  induction counts generalizing phaseIdx seqIdx with
  | nil => rfl
  | cons c cs ih =>
    obtain ⟨hc, hnonneg⟩ := List.forall_mem_cons.1 hnonneg
    simp only [List.map_cons, List.sum_cons] at h
    rw [phasedRows]
    split_ifs with h0
    · rw [Option.isSome_map]
      exact hkind (by simp [h0])
    · rw [phaseRows_eq I (by omega)]
      dsimp only
      rw [Option.isSome_map]
      exact ih hnonneg (by omega) fun h0 => hkind (List.mem_cons_of_mem _ h0)

/-- The loop succeeds only when no phase is empty. -/
theorem pos_of_phasedRows_eq_ok {ordered : List (RackExecutionTarget U)} {kind : Option String}
    {phaseIdx seqIdx : Nat} {counts : List Int} {rows : List (PlannedTarget U)}
    (hnonneg : ∀ c ∈ counts, 0 ≤ c) (h : phasedRows I ordered kind phaseIdx seqIdx counts = some (.ok rows)) :
    ∀ c ∈ counts, 0 < c := by
  induction counts generalizing phaseIdx seqIdx rows with
  | nil => simp
  | cons c cs ih =>
    obtain ⟨hc, hnonneg⟩ := List.forall_mem_cons.1 hnonneg
    rw [phasedRows] at h
    split_ifs at h with h0
    · cases kind <;> simp at h
    · split at h
      · cases h
      · obtain ⟨r, hr, hmap⟩ := Option.map_eq_some_iff.1 h
        obtain ⟨rest, rfl, -⟩ := Except.map_eq_ok hmap
        exact List.forall_mem_cons.2 ⟨by omega, ih hnonneg hr⟩

/-- Sizes that are non-negative integers are the casts of their `toNat`. -/
theorem map_toNat_cast {counts : List Int} (h : ∀ c ∈ counts, 0 ≤ c) :
    (counts.map Int.toNat).map (fun n : Nat => (n : Int)) = counts := by
  rw [List.map_map]
  exact (List.map_congr_left fun c hc => Int.toNat_of_nonneg (h c hc)).trans (List.map_id _)

/-- The sizes of a validated plan, as naturals: positive where the loop
succeeds, and covering the targets. -/
theorem phaseTargetCounts_toNat {total : Nat} {policy : PhasePolicy}
    (hv : policy.validate = .ok ()) {counts : List Int}
    (hc : phaseTargetCounts total policy = .ok counts) :
    (∀ c ∈ counts, 0 ≤ c) ∧ (counts.map Int.toNat).map (fun n : Nat => (n : Int)) = counts ∧
      (counts.map Int.toNat).sum = total := by
  obtain ⟨hnonneg, hsum⟩ := phaseTargetCounts_sum (Int.natCast_nonneg _) hv hc
  have hcast := map_toNat_cast hnonneg
  refine ⟨hnonneg, hcast, ?_⟩
  have : (((counts.map Int.toNat).sum : Nat) : Int) = total := by
    rw [Nat.cast_list_sum, hcast, hsum]
  exact_mod_cast this

theorem phasedExecutionTargets_isSome {ordered : List (RackExecutionTarget U)}
    {policy : PhasePolicy} (hv : policy.validate = .ok ()) :
    (phasedExecutionTargets I ordered policy).isSome := by
  unfold phasedExecutionTargets
  cases hc : phaseTargetCounts ordered.length policy with
  | error e => rfl
  | ok counts =>
    obtain ⟨hnonneg, -, hsum⟩ := phaseTargetCounts_toNat hv hc
    -- a zero size needs a plan to name: no plan is the one phase of all targets
    have hkind : 0 ∈ counts → (policy.plan.map PhasePlan.kind).isSome := by
      intro h0
      cases hp : policy.plan with
      | some _ => rfl
      | none =>
        unfold phaseTargetCounts at hc
        rw [hp] at hc
        split_ifs at hc with ht
        · cases hc
          simp at h0
        · cases hc
          simp at h0
          omega
    exact phasedRows_isSome I hnonneg (by omega) hkind

theorem phasedExecutionTargets_eq_ok {ordered : List (RackExecutionTarget U)}
    {policy : PhasePolicy} (hv : policy.validate = .ok ()) {rows : List (PlannedTarget U)}
    (hrows : phasedExecutionTargets I ordered policy = some (.ok rows)) :
    ∃ sizes : List Nat,
      phaseTargetCounts ordered.length policy = .ok (sizes.map fun (n : Nat) => (n : Int)) ∧
      (∀ c ∈ sizes, 0 < c) ∧ sizes.sum = ordered.length ∧
      rows = plannedRows I ordered.zipIdx (labels 0 sizes) := by
  unfold phasedExecutionTargets at hrows
  cases hc : phaseTargetCounts ordered.length policy with
  | error e => rw [hc] at hrows; cases hrows
  | ok counts =>
    rw [hc] at hrows
    dsimp only at hrows
    obtain ⟨hnonneg, hcast, hsum⟩ := phaseTargetCounts_toNat hv hc
    have hpos := pos_of_phasedRows_eq_ok I hnonneg hrows
    refine ⟨counts.map Int.toNat, by rw [hcast], fun c hc => ?_, hsum, ?_⟩
    · obtain ⟨c', hc', rfl⟩ := List.mem_map.1 hc
      have := hpos c' hc'
      omega
    · rw [phasedRows_eq I hpos (by omega), hsum] at hrows
      simp only [List.drop_zero, List.take_length, Option.some.injEq, Except.ok.injEq] at hrows
      exact hrows.symm

theorem phasedExecutionTargets_partition {ordered : List (RackExecutionTarget U)}
    {policy : PhasePolicy} (hv : policy.validate = .ok ()) :
    (phasedExecutionTargets I ordered policy).isSome ∧
      ∀ rows, phasedExecutionTargets I ordered policy = some (.ok rows) →
        ∃ sizes : List Nat,
          phaseTargetCounts ordered.length policy = .ok (sizes.map fun (n : Nat) => (n : Int)) ∧
          (∀ c ∈ sizes, 0 < c) ∧ sizes.sum = ordered.length ∧
          rows = plannedRows I ordered.zipIdx (labels 0 sizes) :=
  ⟨phasedExecutionTargets_isSome I hv, fun _ h => phasedExecutionTargets_eq_ok I hv h⟩

/-- Three racks in two equal phases. -/
theorem phasedExecutionTargets_partition_equal :
    PhasePolicy.validate ⟨some (.equal 2)⟩ = .ok () ∧
      (phasedExecutionTargets sampleIds [computeTarget 1 11, computeTarget 2 12, computeTarget 3 13]
        ⟨some (.equal 2)⟩).isSome ∧
      ∀ rows, phasedExecutionTargets sampleIds
          [computeTarget 1 11, computeTarget 2 12, computeTarget 3 13] ⟨some (.equal 2)⟩ =
          some (.ok rows) →
        ∃ sizes : List Nat,
          phaseTargetCounts 3 ⟨some (.equal 2)⟩ = .ok (sizes.map fun (n : Nat) => (n : Int)) ∧
          (∀ c ∈ sizes, 0 < c) ∧ sizes.sum = 3 ∧
          rows = plannedRows sampleIds
            [computeTarget 1 11, computeTarget 2 12, computeTarget 3 13].zipIdx (labels 0 sizes) :=
  ⟨rfl, phasedExecutionTargets_partition sampleIds rfl⟩

end RowsLaws

/-! ## Selection and the plan -/

theorem PercentageSelector.validate_eq_ok_iff (s : PercentageSelector) :
    s.validate = .ok () ↔ 1 ≤ s.percentage ∧ s.percentage ≤ 100 ∧ s.seed ≠ "" := by
  unfold PercentageSelector.validate
  by_cases hr : s.percentage < 1 ∨ s.percentage > 100
  · simp only [if_pos hr, reduceCtorEq, false_iff]
    omega
  · by_cases hs : s.seed = ""
    · simp [hr, hs]
    · simp [hr, hs]
      omega

theorem decodedSelector_eq_ok {raw : Except String PercentageSelector} {s : PercentageSelector}
    (h : decodedSelector raw = .ok s) : raw = .ok s ∧ s.validate = .ok () := by
  unfold decodedSelector at h
  split at h
  · cases h
  · obtain ⟨u, hu, rfl⟩ := Except.map_eq_ok h
    exact ⟨rfl, Except.mapError_eq_ok.1 hu⟩

theorem decodedOptions_eq_ok {raw : Except String Options} {o : Options}
    (h : decodedOptions raw = .ok o) : raw = .ok o ∧ o.validate = .ok () := by
  unfold decodedOptions at h
  split at h
  · cases h
  · obtain ⟨u, hu, rfl⟩ := Except.map_eq_ok h
    exact ⟨rfl, Except.mapError_eq_ok.1 hu⟩

/-- Valid options have an ordering payload and a valid phase policy. -/
theorem Options.validate_eq_ok {o : Options} (h : o.validate = .ok ()) :
    (∃ payload, o.orderingPolicy = some payload) ∧ o.phasePolicy.validate = .ok () := by
  unfold Options.validate at h
  split at h
  · cases h
  · next hord =>
    refine ⟨?_, Except.mapError_eq_ok.1 h⟩
    cases hp : o.orderingPolicy with
    | none => rw [hp, validateOrderingPolicy] at hord; cases hord
    | some payload => exact ⟨payload, rfl⟩

/-- A percentage of at most 100 never takes more than all candidates. -/
theorem selectedCount_le {n : Nat} {percentage : Int} (h1 : 1 ≤ percentage)
    (h100 : percentage ≤ 100) :
    0 ≤ ceilDiv (n * percentage) 100 ∧ ceilDiv (n * percentage) 100 ≤ n := by
  have hn : (0 : Int) ≤ n * percentage := Int.mul_nonneg (Int.natCast_nonneg n) (by omega)
  exact ⟨ceilDiv_nonneg hn (by decide),
    ceilDiv_le_of_le_mul hn (Int.mul_le_mul_of_nonneg_left h100 (Int.natCast_nonneg n)) (by decide)⟩

section SelectionLaws

variable (I : UuidOps U) (sha256 : String → List UInt8)

theorem selectPercentageTargets_eq {candidates : List (RackExecutionTarget U)}
    {selector : PercentageSelector} (h1 : 1 ≤ selector.percentage)
    (h100 : selector.percentage ≤ 100) :
    selectPercentageTargets I sha256 candidates selector =
      some ((sortBySeedScore I sha256 selector.seed candidates).take
        (ceilDiv (candidates.length * selector.percentage) 100).toNat) := by
  have hlen := (perm_sortBySeedScore I sha256 selector.seed candidates).length_eq
  simp only [selectPercentageTargets, hlen]
  rw [if_pos (selectedCount_le h1 h100)]

theorem selectPercentageTargets_rank {candidates : List (RackExecutionTarget U)}
    {selector : PercentageSelector} (hv : selector.validate = .ok ())
    (htext : (candidates.map fun t => I.text t.rackId).Nodup) :
    ∃ selected, selectPercentageTargets I sha256 candidates selector = some selected ∧
      (selected.length : Int) = ceilDiv (candidates.length * selector.percentage) 100 ∧
      ∀ t, t ∈ selected ↔ t ∈ candidates ∧
        ((candidates.filter fun u => seedCompare I sha256 selector.seed u t = .lt).length : Int) <
          ceilDiv (candidates.length * selector.percentage) 100 := by
  obtain ⟨h1, h100, -⟩ := (PercentageSelector.validate_eq_ok_iff _).1 hv
  obtain ⟨hk0, hkle⟩ := selectedCount_le (n := candidates.length) h1 h100
  have hperm := perm_sortBySeedScore I sha256 selector.seed candidates
  refine ⟨_, selectPercentageTargets_eq I sha256 h1 h100, ?_, fun t => ?_⟩
  · rw [List.length_take, hperm.length_eq]
    omega
  · -- in the strict seed order, the first `k` are those with fewer than `k` before them
    rw [mem_take_iff_rank_lt (pairwise_sortBySeedScore I sha256 selector.seed htext),
      hperm.mem_iff, (hperm.filter _).length_eq]
    exact and_congr_right fun _ => by omega

/-- A stand-in for SHA-256 in samples: the characters' low bytes. -/
def sampleHash (s : String) : List UInt8 := s.toList.map fun c => c.toNat.toUInt8

/-- Half of three racks, by the sample hash: the two first in seed order. -/
theorem selectPercentageTargets_rank_half :
    PercentageSelector.validate ⟨50, "seed"⟩ = .ok () ∧
      ([computeTarget 1 11, computeTarget 2 12, computeTarget 3 13].map
        fun t => sampleIds.text t.rackId).Nodup ∧
      ∃ selected, selectPercentageTargets sampleIds sampleHash
          [computeTarget 1 11, computeTarget 2 12, computeTarget 3 13] ⟨50, "seed"⟩ = some selected ∧
        (selected.length : Int) = ceilDiv (3 * 50) 100 ∧
        ∀ t, t ∈ selected ↔ t ∈ [computeTarget 1 11, computeTarget 2 12, computeTarget 3 13] ∧
          (([computeTarget 1 11, computeTarget 2 12, computeTarget 3 13].filter
            fun u => seedCompare sampleIds sampleHash "seed" u t = .lt).length : Int) <
            ceilDiv (3 * 50) 100 := by
  have htext : ([computeTarget 1 11, computeTarget 2 12, computeTarget 3 13].map
      fun t => sampleIds.text t.rackId).Nodup := by decide
  exact ⟨rfl, htext, selectPercentageTargets_rank sampleIds sampleHash rfl htext⟩

/-- What a frozen plan guarantees of its rows. -/
structure RowsWellFormed (rows : List (PlannedTarget U)) : Prop where
  nodup : (rows.map (·.rackId)).Nodup
  nil_not_mem : I.nil ∉ rows.map (·.rackId)
  sequence : rows.map (·.sequenceIndex) = List.range rows.length
  phases_sorted : (rows.map (·.phaseIndex)).Pairwise (· ≤ ·)
  pending : ∀ r ∈ rows, r.status = .pending

/-- The rows of ordered targets of distinct racks, cut into phases that
cover them, are well formed. -/
theorem rowsWellFormed_plannedRows {ordered : List (RackExecutionTarget U)} {sizes : List Nat}
    (hnodup : (ordered.map (·.rackId)).Nodup) (hnil : I.nil ∉ ordered.map (·.rackId))
    (hsum : sizes.sum = ordered.length) :
    RowsWellFormed I (plannedRows I ordered.zipIdx (labels 0 sizes)) := by
  have hlen : ordered.zipIdx.length = (labels 0 sizes).length := by
    rw [List.length_zipIdx, length_labels, hsum]
  have hids : (plannedRows I ordered.zipIdx (labels 0 sizes)).map (·.rackId) =
      ordered.map (·.rackId) := by
    rw [rackIds_plannedRows I hlen.le]
    calc ordered.zipIdx.map (·.1.rackId) = (ordered.zipIdx.map Prod.fst).map (·.rackId) := by
          rw [List.map_map]
          rfl
      _ = ordered.map (·.rackId) := by rw [List.zipIdx_map_fst]
  have hrows : (plannedRows I ordered.zipIdx (labels 0 sizes)).length = ordered.length := by
    rw [← List.length_map (f := (·.rackId)), hids, List.length_map]
  refine ⟨by rwa [hids], by rwa [hids], ?_, ?_, status_plannedRows I⟩
  · rw [sequenceIndexes_plannedRows I hlen.le, List.zipIdx_map_snd, hrows, List.range_eq_range']
  · rw [phaseIndexes_plannedRows I hlen.ge]
    exact pairwise_labels 0 sizes

theorem rowsWellFormed_nil : RowsWellFormed I ([] : List (PlannedTarget U)) :=
  ⟨List.nodup_nil, List.not_mem_nil, rfl, List.Pairwise.nil, fun _ h => absurd h List.not_mem_nil⟩

/-- With valid options, ordering never panics and only permutes. -/
theorem orderExecutionTargets_spec (targets : List (RackExecutionTarget U))
    (payload : OrderingPolicyPayload) :
    (orderExecutionTargets I sha256 targets (some payload)).isSome ∧
      ∀ ordered, orderExecutionTargets I sha256 targets (some payload) = some (.ok ordered) →
        ordered.Perm targets := by
  cases payload with
  | random seed =>
    refine ⟨rfl, fun ordered h => ?_⟩
    cases h
    exact perm_sortBySeedScore I sha256 seed targets
  | physicalLocation _ => exact ⟨rfl, fun _ h => by cases h⟩

/-- Planning selected targets of distinct racks never panics, and the rows
are well formed. -/
theorem plannedTargets_spec (options : Except String Options)
    {selected : List (RackExecutionTarget U)} (hnodup : (selected.map (·.rackId)).Nodup)
    (hnil : I.nil ∉ selected.map (·.rackId)) :
    (plannedTargets I sha256 options selected).isSome ∧
      ∀ rows, plannedTargets I sha256 options selected = some (.ok rows) →
        RowsWellFormed I rows := by
  unfold plannedTargets
  split_ifs with hempty
  · exact ⟨rfl, fun rows h => by cases h; exact rowsWellFormed_nil I⟩
  · cases hd : decodedOptions options with
    | error e => exact ⟨rfl, fun _ h => by cases h⟩
    | ok o =>
      obtain ⟨⟨payload, hpayload⟩, hphase⟩ := Options.validate_eq_ok (decodedOptions_eq_ok hd).2
      obtain ⟨hsome, hperm⟩ := orderExecutionTargets_spec I sha256 selected payload
      dsimp only
      rw [hpayload]
      cases ho : orderExecutionTargets I sha256 selected (some payload) with
      | none => rw [ho] at hsome; cases hsome
      | some r =>
        cases r with
        | error e => exact ⟨rfl, fun _ h => by cases h⟩
        | ok ordered =>
          have hp := hperm ordered ho
          refine ⟨phasedExecutionTargets_isSome I hphase, fun rows h => ?_⟩
          obtain ⟨sizes, -, -, hsum, rfl⟩ := phasedExecutionTargets_eq_ok I hphase h
          exact rowsWellFormed_plannedRows I ((hp.map _).nodup_iff.2 hnodup)
            (fun h => hnil ((hp.map _).mem_iff.1 h)) hsum

/-- Selection never panics, and what it selects is part of a reordering of
the candidates. -/
theorem selectedTargets_spec (selector : Except String PercentageSelector)
    (candidates : List (RackExecutionTarget U)) :
    (selectedTargets I sha256 selector candidates).isSome ∧
      ∀ selected, selectedTargets I sha256 selector candidates = some (.ok selected) →
        ∃ l, l.Perm candidates ∧ selected.Sublist l := by
  unfold selectedTargets
  split_ifs with hempty
  · exact ⟨rfl, fun selected h => by cases h; exact ⟨candidates, List.Perm.refl _, List.nil_sublist _⟩⟩
  · cases hd : decodedSelector selector with
    | error e => exact ⟨rfl, fun _ h => by cases h⟩
    | ok s =>
      obtain ⟨h1, h100, -⟩ := (PercentageSelector.validate_eq_ok_iff _).1 (decodedSelector_eq_ok hd).2
      dsimp only
      rw [selectPercentageTargets_eq I sha256 h1 h100]
      refine ⟨rfl, fun selected h => ?_⟩
      cases h
      exact ⟨_, perm_sortBySeedScore I sha256 s.seed candidates, List.take_sublist _ _⟩

end SelectionLaws

section PlanLaws

variable [DecidableEq U] (I : UuidOps U) (sha256 : String → List UInt8) {S : Type}
  (lookup : TargetLookup U S)

/-- The base scope is a normalized list: distinct racks, none `uuid.Nil`. -/
theorem baseCandidateScope_rackIds {op : Operation U S} {base : List (RackExecutionTarget U)}
    (h : baseCandidateScope I lookup op = .ok base) :
    (base.map (·.rackId)).Nodup ∧ I.nil ∉ base.map (·.rackId) := by
  -- whichever source it reads, the scope is what `normalize` returned
  obtain ⟨targets, hn⟩ : ∃ targets, normalize I targets = .ok base := by
    unfold baseCandidateScope at h
    split at h
    split at h
    · cases h
    · exact ⟨_, Except.mapError_eq_ok.1 h⟩
  obtain ⟨hids, hrows⟩ := normalize_eq_ok_rows I hn
  refine ⟨hids ▸ nodup_eraseDups _, ?_⟩
  rw [hids, List.mem_eraseDups, List.mem_map]
  rintro ⟨t, ht, he⟩
  exact (hrows t ht).1 he

theorem candidates_rackIds {operation : Except String (Operation U S)}
    {cands : List (RackExecutionTarget U)} (h : candidates I lookup operation = .ok cands) :
    (cands.map (·.rackId)).Nodup ∧ I.nil ∉ cands.map (·.rackId) := by
  obtain ⟨op, -, h⟩ := Except.bind_eq_ok_iff.1 h
  obtain ⟨base, hbase, h⟩ := Except.bind_eq_ok_iff.1 h
  obtain ⟨hnodup, hnil⟩ := baseCandidateScope_rackIds I lookup hbase
  split_ifs at h with hempty
  · cases h
    exact ⟨hnodup, hnil⟩
  · -- exclusion keeps a sublist of the racks
    obtain ⟨excluded, -, rfl⟩ := Except.map_eq_ok h
    refine ⟨nodup_rackIds_exclude excluded hnodup, fun hmem => hnil ?_⟩
    obtain ⟨t, ht, he⟩ := mem_rackIds_exclude.1 hmem
    exact List.mem_map.2 ⟨t, ht, he.1⟩

theorem plan_rows (run : OperationRun U S) :
    (plan I sha256 lookup run).isSome ∧
      ∀ rows, plan I sha256 lookup run = some (.ok rows) → RowsWellFormed I rows := by
  unfold plan
  cases hc : candidates I lookup run.operation with
  | error e => exact ⟨rfl, fun _ h => by cases h⟩
  | ok cands =>
    obtain ⟨hnodup, hnil⟩ := candidates_rackIds I lookup hc
    obtain ⟨hsome, hsel⟩ := selectedTargets_spec I sha256 run.selector cands
    dsimp only
    cases hs : selectedTargets I sha256 run.selector cands with
    | none => rw [hs] at hsome; cases hsome
    | some r =>
      cases r with
      | error e => exact ⟨rfl, fun _ h => by cases h⟩
      | ok selected =>
        -- the selection is part of a reordering of distinct racks
        obtain ⟨l, hl, hsub⟩ := hsel selected hs
        exact plannedTargets_spec I sha256 run.options
          (((hl.map _).nodup_iff.2 hnodup).sublist (hsub.map _))
          (fun h => hnil ((hl.map _).mem_iff.1 ((hsub.map _).subset h)))

end PlanLaws

end Planner

end Carbide.Flow

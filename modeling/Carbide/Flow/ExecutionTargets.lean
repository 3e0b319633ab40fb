import Carbide.Flow.Components
import Carbide.Lib.Select
import Mathlib

/-!
# The planner's rack execution targets (`planner/execution_targets.go`)

The planner composes its candidate scope from lists of rack targets, each a
rack ID with its components. `normalize` rejects a row without a rack ID or
with components that do not normalize, and folds a repeated rack into the
row of its first occurrence by `Merge`; `exclude` subtracts the components
of earlier runs rack by rack and drops the racks it empties;
`componentsByRackID` turns a list into a map by rack ID; `sortBySeedScore`
orders targets by the SHA-256 of `seed:rackID`, ties by the rack ID's text.

The loop of `normalize` keeps, beside the rows, a map from rack ID to row
position. Its state carries the invariant that the map holds exactly the
rack IDs of the rows, at their positions (`NormalizeState`), so the row a
repeated rack is merged into is always in range.

Results:
* `normalize_rackIds`: a normalized list has the rack IDs of its input in
  order of first occurrence, so none twice;
* `normalize_eq_ok_of_nodup`: on rows of distinct racks, `normalize`
  succeeds exactly when every row has a rack ID and valid normalized
  components, and it then keeps the rows with those components;
* `mem_rackIds_exclude`: a rack survives exclusion exactly when some of its
  components are not excluded under their type;
* `sortBySeedScore_eq_of_perm`: on racks of distinct text, every sort by the
  comparator gives the model's order, so modelling `slices.SortFunc` by
  insertion sort loses nothing.
-/
namespace Carbide.Flow
open Carbide.Lib

/-- mirrors rest-api/flow/internal/operation/target.go:218-221 -/
structure RackExecutionTarget (U : Type) where
  rackId : U
  componentsByType : ComponentsByType U

namespace ExecutionTargets

variable {U : Type}

/-- The state of `normalize`'s loop: the rows kept so far, and `indexes`,
which maps exactly the rack IDs of those rows to their positions. -/
structure NormalizeState (U : Type) where
  normalized : List (RackExecutionTarget U)
  indexes : U → Option Nat
  indexes_eq_some :
    ∀ k i, indexes k = some i ↔ ∃ h : i < normalized.length, normalized[i].rackId = k

namespace NormalizeState

theorem indexes_eq_some_push [DecidableEq U] (rows : List (RackExecutionTarget U))
    (indexes : U → Option Nat)
    (hidx : ∀ k i, indexes k = some i ↔ ∃ h : i < rows.length, rows[i].rackId = k)
    (t : RackExecutionTarget U) (hnew : indexes t.rackId = none) (k : U) (i : Nat) :
    (if k = t.rackId then some rows.length else indexes k) = some i ↔
      ∃ h : i < (rows ++ [t]).length, (rows ++ [t])[i].rackId = k := by
  by_cases hk : k = t.rackId
  · subst hk
    -- the new rack is at the new last position and at no earlier one
    have hold : ∀ (j : Nat) (hj : j < rows.length), rows[j].rackId ≠ t.rackId := fun j hj he => by
      have := (hidx t.rackId j).2 ⟨hj, he⟩
      simp [hnew] at this
    constructor
    · intro h
      obtain rfl : rows.length = i := by simpa using h
      exact ⟨by simp, by simp⟩
    · rintro ⟨hi, he⟩
      rw [if_pos rfl]
      by_cases hlt : i < rows.length
      · rw [List.getElem_append_left hlt] at he
        exact absurd he (hold i hlt)
      · simp at hi
        simp
        omega
  · rw [if_neg hk, hidx]
    constructor
    · rintro ⟨hi, he⟩
      exact ⟨by simp; omega, by rwa [List.getElem_append_left hi]⟩
    · rintro ⟨hi, he⟩
      by_cases hlt : i < rows.length
      · exact ⟨hlt, by rwa [List.getElem_append_left hlt] at he⟩
      · have hi' : i = rows.length := by simp at hi; omega
        subst hi'
        simp at he
        exact absurd he.symm hk

theorem indexes_eq_some_set (rows : List (RackExecutionTarget U)) (indexes : U → Option Nat)
    (hidx : ∀ k i, indexes k = some i ↔ ∃ h : i < rows.length, rows[i].rackId = k)
    (j : Nat) (hj : j < rows.length) (c : ComponentsByType U) (k : U) (i : Nat) :
    indexes k = some i ↔ ∃ h : i < (rows.set j { rows[j] with componentsByType := c }).length,
      (rows.set j { rows[j] with componentsByType := c })[i].rackId = k := by
  rw [hidx]
  simp only [List.length_set, List.getElem_set]
  constructor
  · rintro ⟨hi, he⟩
    refine ⟨hi, ?_⟩
    split
    · next hji => subst hji; exact he
    · exact he
  · rintro ⟨hi, he⟩
    refine ⟨hi, ?_⟩
    split at he
    · next hji => subst hji; exact he
    · exact he

/-- No rows, an empty map. -/
def init : NormalizeState U := ⟨[], fun _ => none, by simp⟩

/-- `indexes[target.RackID] = len(normalized)` and the append of a new rack's row. -/
def push [DecidableEq U] (s : NormalizeState U) (t : RackExecutionTarget U)
    (hnew : s.indexes t.rackId = none) : NormalizeState U where
  normalized := s.normalized ++ [t]
  indexes := fun k => if k = t.rackId then some s.normalized.length else s.indexes k
  indexes_eq_some := indexes_eq_some_push s.normalized s.indexes s.indexes_eq_some t hnew

/-- `normalized[idx].ComponentsByType = merged`. -/
def setComponents (s : NormalizeState U) (i : Nat) (hi : i < s.normalized.length)
    (c : ComponentsByType U) : NormalizeState U where
  normalized := s.normalized.set i { s.normalized[i] with componentsByType := c }
  indexes := s.indexes
  indexes_eq_some := indexes_eq_some_set s.normalized s.indexes s.indexes_eq_some i hi c

@[simp] theorem rackIds_init : (init : NormalizeState U).normalized.map (·.rackId) = [] := rfl

@[simp] theorem rackIds_push [DecidableEq U] (s : NormalizeState U) (t : RackExecutionTarget U)
    (hnew : s.indexes t.rackId = none) :
    (s.push t hnew).normalized.map (·.rackId) = s.normalized.map (·.rackId) ++ [t.rackId] := by
  simp [push]

@[simp] theorem rackIds_setComponents (s : NormalizeState U) (i : Nat)
    (hi : i < s.normalized.length) (c : ComponentsByType U) :
    (s.setComponents i hi c).normalized.map (·.rackId) = s.normalized.map (·.rackId) := by
  apply List.ext_getElem
  · simp [setComponents]
  · intro j h₁ h₂
    simp only [setComponents, List.getElem_map, List.getElem_set]
    split <;> simp_all

/-- A rack is in the map exactly when one of the rows is its. -/
theorem isSome_indexes_iff (s : NormalizeState U) (k : U) :
    (s.indexes k).isSome ↔ k ∈ s.normalized.map (·.rackId) := by
  rw [Option.isSome_iff_exists, List.mem_map]
  constructor
  · rintro ⟨i, hi⟩
    obtain ⟨h, he⟩ := (s.indexes_eq_some k i).1 hi
    exact ⟨_, List.getElem_mem h, he⟩
  · rintro ⟨t, ht, rfl⟩
    obtain ⟨i, h, rfl⟩ := List.getElem_of_mem ht
    exact ⟨i, (s.indexes_eq_some _ i).2 ⟨h, rfl⟩⟩

/-- The map gives each rack one position, so the kept rows never repeat a rack. -/
theorem nodup_rackIds (s : NormalizeState U) :
    (s.normalized.map (·.rackId)).Nodup := by
  rw [List.nodup_iff_injective_get]
  rintro ⟨i, hi⟩ ⟨j, hj⟩ he
  simp only [List.length_map] at hi hj
  simp only [List.get_eq_getElem, List.getElem_map] at he
  have hi' := (s.indexes_eq_some _ i).2 ⟨hi, rfl⟩
  have hj' := (s.indexes_eq_some s.normalized[i].rackId j).2 ⟨hj, he.symm⟩
  exact Fin.ext (Option.some_injective _ (hi'.symm.trans hj'))

end NormalizeState

section Code

variable [DecidableEq U] (I : UuidOps U)

/-- The loop of `normalize`. The merge branch's error prints the `idx` of
`if idx, ok := indexes[target.RackID]`, which shadows the loop's: the
position of the rack's row in `normalized`, not of the failing row.
mirrors rest-api/flow/internal/operationrun/manager/planner/execution_targets.go:30-58 -/
def normalizeRows : Nat → NormalizeState U → List (RackExecutionTarget U) →
    Except String (NormalizeState U)
  | _, s, [] => .ok s
  | idx, s, target :: rest =>
    if target.rackId = I.nil then .error ("targets[" ++ toString idx ++ "].rack_id is required")
    else
      match target.componentsByType.normalize I with
      | .error err => .error ("targets[" ++ toString idx ++ "].components_by_type: " ++ err)
      | .ok components =>
        match h : s.indexes target.rackId with
        | some i =>
          have hi : i < s.normalized.length := ((s.indexes_eq_some _ _).1 h).1
          match s.normalized[i].componentsByType.merge I components with
          | .error err => .error ("targets[" ++ toString i ++ "].components_by_type: " ++ err)
          | .ok merged => normalizeRows (idx + 1) (s.setComponents i hi merged) rest
        | none =>
          normalizeRows (idx + 1) (s.push ⟨target.rackId, components⟩ h) rest

/-- mirrors rest-api/flow/internal/operationrun/manager/planner/execution_targets.go:24-61 -/
def normalize (ts : List (RackExecutionTarget U)) : Except String (List (RackExecutionTarget U)) :=
  if ts.isEmpty then .ok []
  else (normalizeRows I 0 .init ts).map (·.normalized)

/-- A Go map keyed by rack ID, as the list of its writes, latest first: a read
is `List.lookup`, and the map is empty exactly when nothing was written. -/
abbrev RackMap (U : Type) := List (U × ComponentsByType U)

/-- mirrors rest-api/flow/internal/operationrun/manager/planner/execution_targets.go:65-87 -/
def exclude (ts : List (RackExecutionTarget U)) (excluded : RackMap U) :
    List (RackExecutionTarget U) :=
  if ts.isEmpty || excluded.isEmpty then ts
  else
    ts.filterMap fun target =>
      match excluded.lookup target.rackId with
      | some excludedComponents =>
        let remaining := target.componentsByType.subtract excludedComponents
        if remaining.isEmpty then none else some { target with componentsByType := remaining }
      | none => some target

/-- The loop of `componentsByRackID`; here the error prints the loop's own index.
mirrors rest-api/flow/internal/operationrun/manager/planner/execution_targets.go:96-113 -/
def componentsByRackIDRows : Nat → RackMap U → List (RackExecutionTarget U) →
    Except String (RackMap U)
  | _, result, [] => .ok result
  | idx, result, target :: rest =>
    match result.lookup target.rackId with
    | some existing =>
      match existing.merge I target.componentsByType with
      | .error err => .error ("targets[" ++ toString idx ++ "].components_by_type: " ++ err)
      | .ok merged => componentsByRackIDRows (idx + 1) ((target.rackId, merged) :: result) rest
    | none =>
      match target.componentsByType.normalize I with
      | .error err => .error ("targets[" ++ toString idx ++ "].components_by_type: " ++ err)
      | .ok normalized =>
        componentsByRackIDRows (idx + 1) ((target.rackId, normalized) :: result) rest

/-- mirrors rest-api/flow/internal/operationrun/manager/planner/execution_targets.go:91-116 -/
def componentsByRackID (ts : List (RackExecutionTarget U)) : Except String (RackMap U) :=
  if ts.isEmpty then .ok [] else componentsByRackIDRows I 0 [] ts

/-- `sha256.Sum256([]byte(seed + ":" + rackID.String()))`; the hash is a
parameter, taking a string to the bytes of the digest of its UTF-8 bytes.
mirrors rest-api/flow/internal/operationrun/manager/planner/execution_targets.go:135-138 -/
def targetScore (sha256 : String → List UInt8) (seed : String) (rackId : U) : List UInt8 :=
  sha256 (seed ++ ":" ++ I.text rackId)

/-- The comparator of `sortBySeedScore`: `bytes.Compare` of the scores, then
`strings.Compare` of the rack IDs' text (byte order is code point order).
mirrors rest-api/flow/internal/operationrun/manager/planner/execution_targets.go:124-131 -/
def seedCompare (sha256 : String → List UInt8) (seed : String) :
    RackExecutionTarget U → RackExecutionTarget U → Ordering :=
  compareLex (compareOn fun t => targetScore I sha256 seed t.rackId)
    (compareOn fun t => I.text t.rackId)

/-- `slices.SortFunc` by `seedCompare`, modelled by insertion sort
(`sortBySeedScore_eq_of_perm` shows any sort gives this list).
mirrors rest-api/flow/internal/operationrun/manager/planner/execution_targets.go:120-132 -/
def sortBySeedScore (sha256 : String → List UInt8) (seed : String)
    (ts : List (RackExecutionTarget U)) : List (RackExecutionTarget U) :=
  ts.insertionSort fun a b => (seedCompare I sha256 seed a b).isLE

end Code

section Laws

variable [DecidableEq U] (I : UuidOps U)

/-- A value already seen adds nothing to the first occurrences. -/
theorem eraseDups_append_cons_of_mem {xs ys : List U} {a : U} (ha : a ∈ xs) :
    (xs ++ a :: ys).eraseDups = (xs ++ ys).eraseDups := by
  rw [List.eraseDups_append, List.eraseDups_append]
  congr 2
  simp [List.removeAll, ha]

/-- One row of `normalize`'s loop: the rack ID is set, the components
normalize, and the row is merged into its rack's row or appended. -/
theorem normalizeRows_cons_eq_ok {idx : Nat} {s s' : NormalizeState U}
    {t : RackExecutionTarget U} {ts : List (RackExecutionTarget U)}
    (h : normalizeRows I idx s (t :: ts) = .ok s') :
    t.rackId ≠ I.nil ∧ ∃ c, t.componentsByType.normalize I = .ok c ∧
      ((∃ i hi merged, s.indexes t.rackId = some i ∧
          s.normalized[i].componentsByType.merge I c = .ok merged ∧
          normalizeRows I (idx + 1) (s.setComponents i hi merged) ts = .ok s') ∨
       ∃ hnew : s.indexes t.rackId = none,
          normalizeRows I (idx + 1) (s.push ⟨t.rackId, c⟩ hnew) ts = .ok s') := by
  rw [normalizeRows] at h
  split_ifs at h with hnil
  refine ⟨hnil, ?_⟩
  split at h
  · cases h
  · next c hc =>
    refine ⟨c, hc, ?_⟩
    split at h
    · next i hidx =>
      dsimp only at h
      split at h
      · cases h
      · next merged hm => exact .inl ⟨i, _, merged, hidx, hm, h⟩
    · next hnew => exact .inr ⟨hnew, h⟩

/-- A row of a new rack with valid components is appended. -/
theorem normalizeRows_cons_of_new {idx : Nat} {s : NormalizeState U}
    {t : RackExecutionTarget U} {ts : List (RackExecutionTarget U)} {c : ComponentsByType U}
    (hnil : t.rackId ≠ I.nil) (hc : t.componentsByType.normalize I = .ok c)
    (hnew : s.indexes t.rackId = none) :
    normalizeRows I idx s (t :: ts) = normalizeRows I (idx + 1) (s.push ⟨t.rackId, c⟩ hnew) ts := by
  rw [normalizeRows, if_neg hnil]
  simp only [hc]
  split
  · next i hidx => simp [hnew] at hidx
  · rfl

theorem normalizeRows_rackIds {idx : Nat} {s s' : NormalizeState U}
    {ts : List (RackExecutionTarget U)} (h : normalizeRows I idx s ts = .ok s') :
    s'.normalized.map (·.rackId) = (s.normalized.map (·.rackId) ++ ts.map (·.rackId)).eraseDups ∧
      ∀ t ∈ ts, t.rackId ≠ I.nil ∧ ComponentsByType.Valid I t.componentsByType.dedup := by
  induction ts generalizing idx s with
  | nil =>
    cases h
    refine ⟨?_, by simp⟩
    rw [List.map_nil, List.append_nil, eraseDups_eq_self (NormalizeState.nodup_rackIds _)]
  | cons t ts ih =>
    obtain ⟨hnil, c, hc, hstep⟩ := normalizeRows_cons_eq_ok I h
    have hvalid := ((ComponentsByType.normalize_eq_ok_iff I).1 hc).2
    rcases hstep with ⟨i, hi, merged, hidx, -, hrest⟩ | ⟨hnew, hrest⟩
    · -- a repeated rack: the rows keep their racks, and the repeat adds none
      obtain ⟨hids, hnils⟩ := ih hrest
      have hmem : t.rackId ∈ s.normalized.map (·.rackId) :=
        (s.isSome_indexes_iff _).1 (by simp [hidx])
      refine ⟨?_, List.forall_mem_cons.2 ⟨⟨hnil, hvalid⟩, hnils⟩⟩
      rw [hids, NormalizeState.rackIds_setComponents, List.map_cons,
        eraseDups_append_cons_of_mem hmem]
    · -- a new rack: its row is appended
      obtain ⟨hids, hnils⟩ := ih hrest
      refine ⟨?_, List.forall_mem_cons.2 ⟨⟨hnil, hvalid⟩, hnils⟩⟩
      rw [hids, NormalizeState.rackIds_push]
      simp

/-- What a successful `normalize` did: it kept the first occurrence of every
rack, having checked every row's rack ID and components. -/
theorem normalize_eq_ok_rows {ts r : List (RackExecutionTarget U)} (h : normalize I ts = .ok r) :
    r.map (·.rackId) = (ts.map (·.rackId)).eraseDups ∧
      ∀ t ∈ ts, t.rackId ≠ I.nil ∧ ComponentsByType.Valid I t.componentsByType.dedup := by
  unfold normalize at h
  split at h
  · next hts =>
    cases h
    simp [List.isEmpty_iff.1 hts]
  · obtain ⟨s', hs', rfl⟩ := Except.map_eq_ok h
    simpa using normalizeRows_rackIds I hs'

theorem normalize_rackIds {ts r : List (RackExecutionTarget U)} (h : normalize I ts = .ok r) :
    r.map (·.rackId) = (ts.map (·.rackId)).eraseDups ∧ I.nil ∉ r.map (·.rackId) := by
  obtain ⟨hids, hrows⟩ := normalize_eq_ok_rows I h
  refine ⟨hids, ?_⟩
  -- every kept rack is the rack of some input row, which was checked
  rw [hids, List.mem_eraseDups, List.mem_map]
  rintro ⟨t, ht, he⟩
  exact (hrows t ht).1 he

/-- UUIDs as numbers, for samples: `0` is `uuid.Nil`. -/
def sampleIds : UuidOps Nat := ⟨0, fun n => toString n⟩

/-- A rack target with one compute UUID. -/
def computeTarget (rack id : Nat) : RackExecutionTarget Nat :=
  ⟨rack, ⟨fun ct => if ct = .compute then some [id] else none⟩⟩

/-- Two rows of rack 5 are merged into the row of its first occurrence. -/
theorem normalize_rackIds_merged :
    ∃ r, normalize sampleIds [computeTarget 5 3, computeTarget 7 8, computeTarget 5 4] = .ok r ∧
      r.map (·.rackId) = [5, 7] ∧ sampleIds.nil ∉ r.map (·.rackId) := by
  have hok : (normalize sampleIds [computeTarget 5 3, computeTarget 7 8, computeTarget 5 4]).isOk =
      true := by decide
  cases h : normalize sampleIds [computeTarget 5 3, computeTarget 7 8, computeTarget 5 4] with
  | error e => rw [h] at hok; cases hok
  | ok r =>
    obtain ⟨hids, hnil⟩ := normalize_rackIds sampleIds h
    exact ⟨r, rfl, hids.trans (by decide), hnil⟩

/-- Rows of racks not yet kept, each with a rack ID and valid components,
are appended one by one with their deduplicated components. -/
theorem normalizeRows_of_fresh {idx : Nat} {s : NormalizeState U}
    {ts : List (RackExecutionTarget U)}
    (hfresh : (s.normalized.map (·.rackId) ++ ts.map (·.rackId)).Nodup)
    (hok : ∀ t ∈ ts, t.rackId ≠ I.nil ∧ ComponentsByType.Valid I t.componentsByType.dedup) :
    ∃ s', normalizeRows I idx s ts = .ok s' ∧
      s'.normalized = s.normalized ++ ts.map fun t => ⟨t.rackId, t.componentsByType.dedup⟩ := by
  induction ts generalizing idx s with
  | nil => exact ⟨s, rfl, by simp⟩
  | cons t ts ih =>
    obtain ⟨⟨hnil, hvalid⟩, hok⟩ := List.forall_mem_cons.1 hok
    have hout : t.rackId ∉ s.normalized.map (·.rackId) := by
      intro hmem
      exact List.disjoint_of_nodup_append hfresh hmem (List.mem_cons_self ..)
    have hnew : s.indexes t.rackId = none :=
      Option.not_isSome_iff_eq_none.1 fun h => hout ((s.isSome_indexes_iff _).1 h)
    have hc := (ComponentsByType.normalize_eq_ok_iff I).2 ⟨rfl, hvalid⟩
    rw [normalizeRows_cons_of_new I hnil hc hnew]
    obtain ⟨s', hs', hrows⟩ :=
      ih (s := s.push ⟨t.rackId, t.componentsByType.dedup⟩ hnew) (by simpa using hfresh) hok
    exact ⟨s', hs', by simp [hrows, NormalizeState.push]⟩

/-- Without repeated racks nothing is merged: `normalize` succeeds exactly
when every row has a rack ID and valid normalized components, and keeps
the rows with those components. -/
theorem normalize_eq_ok_of_nodup {ts r : List (RackExecutionTarget U)}
    (hts : (ts.map (·.rackId)).Nodup) :
    normalize I ts = .ok r ↔
      (∀ t ∈ ts, t.rackId ≠ I.nil ∧ ComponentsByType.Valid I t.componentsByType.dedup) ∧
        r = ts.map fun t => ⟨t.rackId, t.componentsByType.dedup⟩ := by
  unfold normalize
  split
  · next he =>
    rw [List.isEmpty_iff.1 he]
    simp [eq_comm]
  · have hfresh : ((NormalizeState.init : NormalizeState U).normalized.map (·.rackId) ++
        ts.map (·.rackId)).Nodup := by simpa using hts
    constructor
    · intro h
      obtain ⟨s', hs', rfl⟩ := Except.map_eq_ok h
      have hok := (normalizeRows_rackIds I hs').2
      obtain ⟨s'', hs'', hrows⟩ := normalizeRows_of_fresh I hfresh hok
      rw [hs'] at hs''
      cases hs''
      exact ⟨hok, by simpa [NormalizeState.init] using hrows⟩
    · rintro ⟨hok, rfl⟩
      obtain ⟨s', hs', hrows⟩ := normalizeRows_of_fresh I hfresh hok
      rw [hs']
      simp [Except.map, hrows, NormalizeState.init]

/-- Racks 5 and 7, one row each: both rows are kept with their components. -/
theorem normalize_eq_ok_of_nodup_two_racks :
    ([computeTarget 5 3, computeTarget 7 8].map (·.rackId)).Nodup ∧
      (normalize sampleIds [computeTarget 5 3, computeTarget 7 8] =
          .ok ([computeTarget 5 3, computeTarget 7 8].map fun t =>
            (⟨t.rackId, t.componentsByType.dedup⟩ : RackExecutionTarget Nat)) ↔
        (∀ t ∈ [computeTarget 5 3, computeTarget 7 8],
          t.rackId ≠ sampleIds.nil ∧ ComponentsByType.Valid sampleIds t.componentsByType.dedup) ∧
          ([computeTarget 5 3, computeTarget 7 8].map fun t =>
            (⟨t.rackId, t.componentsByType.dedup⟩ : RackExecutionTarget Nat)) =
            [computeTarget 5 3, computeTarget 7 8].map fun t =>
              ⟨t.rackId, t.componentsByType.dedup⟩) :=
  have hts : ([computeTarget 5 3, computeTarget 7 8].map (·.rackId)).Nodup := by decide
  ⟨hts, normalize_eq_ok_of_nodup sampleIds hts⟩

/-- Whether `exclude` keeps a target: its rack is not excluded, or some of
its components survive the subtraction. -/
def Survives (excluded : RackMap U) (t : RackExecutionTarget U) : Prop :=
  ∀ e, excluded.lookup t.rackId = some e →
    ∃ ct, ∃ id ∈ t.componentsByType.get ct, id ∉ e.get ct

instance (excluded : RackMap U) (t : RackExecutionTarget U) : Decidable (Survives excluded t) :=
  decidable_of_iff (∀ e ∈ excluded.lookup t.rackId,
      ∃ ct ∈ ComponentType.all, ∃ id ∈ t.componentsByType.get ct, id ∉ e.get ct)
    ⟨fun h e he => (h e he).imp fun _ h => h.2,
      fun h e he => (h e he).imp fun ct h => ⟨ComponentType.mem_all ct, h⟩⟩

/-- `exclude` keeps exactly the racks that survive, in their order. -/
theorem rackIds_exclude (ts : List (RackExecutionTarget U)) (excluded : RackMap U) :
    (exclude ts excluded).map (·.rackId) =
      (ts.filter fun t => decide (Survives excluded t)).map (·.rackId) := by
  unfold exclude
  split
  · next hshort =>
    -- the shortcut agrees with the loop: no target, or no excluded rack
    rcases Bool.or_eq_true_iff.1 hshort with hts | hex
    · simp [List.isEmpty_iff.1 hts]
    · rw [List.filter_eq_self.2]
      intro t _
      simp [Survives, List.isEmpty_iff.1 hex]
  · next hne =>
    clear hne
    induction ts with
    | nil => rfl
    | cons t ts ih =>
      simp only [List.filterMap_cons, List.filter_cons]
      cases hl : excluded.lookup t.rackId with
      | none => simp [Survives, hl, ih]
      | some e =>
        -- an excluded rack survives exactly when its subtraction leaves something
        have hsurv : Survives excluded t ↔
            (t.componentsByType.subtract e).isEmpty = false := by
          rw [← Bool.not_eq_true, ComponentsByType.subtract_isEmpty_iff]
          simp [Survives, hl]
        cases hempty : (t.componentsByType.subtract e).isEmpty <;> simp [hempty, hsurv, ih]

/-- A rack survives exclusion exactly when some of its components are not
excluded under their type. -/
theorem mem_rackIds_exclude {ts : List (RackExecutionTarget U)} {excluded : RackMap U} {k : U} :
    k ∈ (exclude ts excluded).map (·.rackId) ↔
      ∃ t ∈ ts, t.rackId = k ∧ ∀ e, excluded.lookup k = some e →
        ∃ ct, ∃ id ∈ t.componentsByType.get ct, id ∉ e.get ct := by
  rw [rackIds_exclude, List.mem_map]
  constructor
  · rintro ⟨t, ht, rfl⟩
    obtain ⟨ht, hs⟩ := List.mem_filter.1 ht
    have hs' : Survives excluded t := of_decide_eq_true hs
    exact ⟨t, ht, rfl, hs'⟩
  · rintro ⟨t, ht, rfl, hs⟩
    have hs' : Survives excluded t := hs
    exact ⟨t, List.mem_filter.2 ⟨ht, decide_eq_true hs'⟩, rfl⟩

theorem nodup_rackIds_exclude {ts : List (RackExecutionTarget U)} (excluded : RackMap U)
    (h : (ts.map (·.rackId)).Nodup) : ((exclude ts excluded).map (·.rackId)).Nodup := by
  rw [rackIds_exclude]
  exact h.sublist (List.filter_sublist.map _)

end Laws

section SeedOrder

variable (I : UuidOps U) (sha256 : String → List UInt8) (seed : String)

instance : Std.TransCmp (seedCompare I sha256 seed) :=
  inferInstanceAs (Std.TransCmp (compareLex _ _))

/-- Targets whose racks read differently never compare equal. -/
theorem seedCompare_ne_eq {a b : RackExecutionTarget U}
    (h : I.text a.rackId ≠ I.text b.rackId) : seedCompare I sha256 seed a b ≠ .eq := by
  rw [seedCompare, compareLex, compareOn, compareOn, Ne, Ordering.then_eq_eq, not_and]
  exact fun _ he => h (Std.LawfulEqCmp.eq_of_compare he)

theorem perm_sortBySeedScore (ts : List (RackExecutionTarget U)) :
    (sortBySeedScore I sha256 seed ts).Perm ts :=
  List.perm_insertionSort _ ts

/-- On racks of distinct text the seed order is strict. -/
theorem pairwise_sortBySeedScore {ts : List (RackExecutionTarget U)}
    (htext : (ts.map fun t => I.text t.rackId).Nodup) :
    (sortBySeedScore I sha256 seed ts).Pairwise fun a b => seedCompare I sha256 seed a b = .lt := by
  have hne : (sortBySeedScore I sha256 seed ts).Pairwise
      fun a b => I.text a.rackId ≠ I.text b.rackId :=
    List.pairwise_map.1 (((perm_sortBySeedScore I sha256 seed ts).map _).nodup_iff.2 htext)
  exact pairwise_lt_of_pairwise_isLE (pairwise_insertionSort_isLE _ ts)
    (hne.imp (seedCompare_ne_eq I sha256 seed))

/-- Every ordering of the targets that the comparator accepts is the model's:
`slices.SortFunc` is not stable, but on racks of distinct text there is no
tie for it to break. -/
theorem sortBySeedScore_eq_of_perm {l ts : List (RackExecutionTarget U)} (hp : l.Perm ts)
    (hs : l.Pairwise fun a b => (seedCompare I sha256 seed a b).isLE)
    (htext : (ts.map fun t => I.text t.rackId).Nodup) :
    l = sortBySeedScore I sha256 seed ts := by
  have hne : l.Pairwise fun a b => I.text a.rackId ≠ I.text b.rackId :=
    List.pairwise_map.1 ((hp.map _).nodup_iff.2 htext)
  have hl := pairwise_lt_of_pairwise_isLE hs (hne.imp (seedCompare_ne_eq I sha256 seed))
  refine List.Perm.eq_of_pairwise (fun a b _ _ hab hba => ?_) hl
    (pairwise_sortBySeedScore I sha256 seed htext) (hp.trans (perm_sortBySeedScore I sha256 seed ts).symm)
  -- `a < b` and `b < a` cannot both hold
  have hgt := Std.OrientedCmp.gt_iff_lt.2 hab
  rw [hba] at hgt
  cases hgt

end SeedOrder

end ExecutionTargets

end Carbide.Flow

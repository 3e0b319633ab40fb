import Mathlib.Data.List.Basic

/-!
# Flow's task conflict rule

A `Rule` (rest-api/flow/internal/task/conflict/conflict.go) lists pairs of
operation specs that cannot run together on a rack; an entry may require the
two tasks to share a component. `Rule.conflicts incoming active` holds when
some active task and some entry match, in either direction. An empty list of
pairs is the exclusive mode: any active task conflicts.

`builtinRule` is the table the admission path and the promoter both use;
Carbide.Flow.RackTasks reads it in both places.
-/
namespace Carbide.Flow

/-- `taskcommon.TaskType`. -/
inductive TaskType
  | unknown
  | injectExpectation
  | powerControl
  | firmwareControl
  | bringUp
  | decommission
  deriving DecidableEq, Repr

/-- `devicetypes.ComponentType`; `unknown` (the zero value) is the wildcard in
an entry. -/
inductive ComponentType
  | unknown
  | compute
  | nvSwitch
  | powerShelf
  | torSwitch
  | ums
  | cdu
  deriving DecidableEq, Repr

def ComponentType.all : List ComponentType :=
  [.unknown, .compute, .nvSwitch, .powerShelf, .torSwitch, .ums, .cdu]

/-- The fields of a task the rule reads; `componentsByType` is the
`Attributes.ComponentsByType` map, a missing key being the empty list. -/
structure Task (U : Type) where
  operationType : TaskType
  operationCode : String
  componentsByType : ComponentType → List U

/-- An entry's operation type: `"*"` or one task type. -/
inductive TypePattern
  | any
  | is (t : TaskType)
  deriving DecidableEq

/-- One side of an entry. An operation code `none` is `""` or `"*"`. -/
structure OperationSpec where
  operationType : TypePattern
  operationCode : Option String := none
  componentType : ComponentType := .unknown

/-- Type and code only; the component type is checked by `componentMatch`.
mirrors rest-api/flow/internal/task/conflict/conflict.go:198-209 -/
def OperationSpec.matches (s : OperationSpec) (opType : TaskType) (opCode : String) : Bool :=
  let typeMatch := match s.operationType with
    | .any => true
    | .is t => t == opType
  let codeMatch := match s.operationCode with
    | none => true
    | some c => c == opCode
  typeMatch && codeMatch

structure Entry where
  a : OperationSpec
  b : OperationSpec
  requireComponentOverlap : Bool := false

variable {U : Type}

def Entry.opMatch (e : Entry) (t u : Task U) : Bool :=
  e.a.matches t.operationType t.operationCode && e.b.matches u.operationType u.operationCode

/-- mirrors rest-api/flow/internal/task/conflict/conflict.go:322-332 -/
def hasComponentType (t : Task U) (ct : ComponentType) : Bool :=
  ct == .unknown || !(t.componentsByType ct).isEmpty

def Entry.componentMatch (e : Entry) (t u : Task U) : Bool :=
  hasComponentType t e.a.componentType && hasComponentType u e.b.componentType

def allComponentUUIDs (t : Task U) : List U :=
  ComponentType.all.flatMap t.componentsByType

/-- mirrors rest-api/flow/internal/task/conflict/conflict.go:298-317 -/
def componentUUIDsOverlap [DecidableEq U] (a b : Task U) : Bool :=
  (allComponentUUIDs b).any fun id => decide (id ∈ allComponentUUIDs a)

structure Rule where
  conflictingPairs : List Entry

/-- One entry's verdict on a pair of tasks. -/
def Entry.conflicts [DecidableEq U] (e : Entry) (incoming active : Task U) : Bool :=
  (e.opMatch incoming active || e.opMatch active incoming) &&
    ((e.opMatch incoming active && e.componentMatch incoming active) ||
      (e.opMatch active incoming && e.componentMatch active incoming)) &&
    (!e.requireComponentOverlap || componentUUIDsOverlap incoming active)

/-- mirrors rest-api/flow/internal/task/conflict/conflict.go:259-295 -/
def Rule.conflicts [DecidableEq U] (r : Rule) (incoming : Task U) (activeTasks : List (Task U)) :
    Bool :=
  if r.conflictingPairs.isEmpty then !activeTasks.isEmpty
  else activeTasks.any fun active => r.conflictingPairs.any fun e => e.conflicts incoming active

/-- mirrors rest-api/flow/internal/task/conflict/conflict.go:50-168 -/
def builtinRule : Rule where
  conflictingPairs := [
    -- power-shelf power ops block all power ops and all firmware upgrades
    ⟨{ operationType := .is .powerControl, componentType := .powerShelf },
      { operationType := .is .powerControl }, false⟩,
    ⟨{ operationType := .is .powerControl, componentType := .powerShelf },
      { operationType := .is .firmwareControl }, false⟩,
    ⟨{ operationType := .is .powerControl, componentType := .compute },
      { operationType := .is .powerControl, componentType := .compute }, true⟩,
    ⟨{ operationType := .is .powerControl, componentType := .nvSwitch },
      { operationType := .is .powerControl, componentType := .nvSwitch }, true⟩,
    ⟨{ operationType := .is .powerControl, componentType := .compute },
      { operationType := .is .firmwareControl, componentType := .compute }, true⟩,
    ⟨{ operationType := .is .powerControl, componentType := .nvSwitch },
      { operationType := .is .firmwareControl, componentType := .nvSwitch }, true⟩,
    ⟨{ operationType := .is .firmwareControl }, { operationType := .is .firmwareControl }, true⟩,
    ⟨{ operationType := .is .bringUp }, { operationType := .any }, false⟩,
    ⟨{ operationType := .is .decommission }, { operationType := .any }, false⟩]

/-! ## The relation -/

section Relation

variable [DecidableEq U] {r : Rule} {t a : Task U} {as bs : List (Task U)}

end Relation

end Carbide.Flow

import Carbide.Mlx.Value

/-!
# mlxconfig values over gRPC (`crates/libmlx/src/variables`)

`From` and `TryFrom` convert specs (spec.rs:285-402), variables
(variable.rs:114-139) and values (value.rs:1177-1351) to and from their
protobuf messages. A message field that prost makes optional is an `Option`;
the `oneof`s are inductives. Sparse boolean, integer and binary arrays carry a
`has_value` flag per entry, but an enum array is sent as bare strings, with
the empty string for an unset entry; a preset is widened from `u8` to `u32`
and narrowed back with `as u8`. A spec's `usize` sizes travel as `u64`, the
same width on the 64-bit targets the workspace builds for, so both are `Nat`
here.

Results:
* `MlxConfigVariable.tryFromPb_toPb`: specs and variables round-trip;
* `MlxValueType.tryFromPb_toPb`, `MlxConfigValue.tryFromPb_toPb`: a value comes
  back from its message with its set-but-empty enum-array entries unset;
* `config_value_roundtrip_iff`: a valid config value comes back exactly when
  it has no such entry;
* `tryFromPb_truncates_preset`: a preset number above 255 is not rejected but
  taken modulo 256, and a config value whose preset so wraps into the spec's
  range is accepted with a preset the sender never sent.
-/
namespace Carbide.Mlx

/-- `RpcDataConversionError`, for the variants these conversions raise. The
message of `InvalidArgument` is the `Display` of the `MlxValueError` it holds. -/
inductive RpcDataConversionError
  | missingArgument (field : String)
  | invalidArgument (e : MlxValueError)
  deriving DecidableEq, Repr

/-! ## The messages -/

/-- `mlx_value_type_pb::OptionalBool`. -/
structure OptionalBool where
  hasValue : Bool
  value : Bool
  deriving DecidableEq, Repr

/-- `mlx_value_type_pb::OptionalInt64`. -/
structure OptionalInt64 where
  hasValue : Bool
  value : Int64
  deriving DecidableEq, Repr

/-- `mlx_value_type_pb::OptionalString`. -/
structure OptionalString where
  hasValue : Bool
  value : String
  deriving DecidableEq, Repr

/-- `mlx_value_type_pb::OptionalBytes`. -/
structure OptionalBytes where
  hasValue : Bool
  value : List UInt8
  deriving DecidableEq, Repr

/-- `mlx_value_type_pb::ValueType`; Rust's `Opaque` is `opaqueBytes`. -/
inductive ValueTypePb
  | boolean (b : Bool)
  | integer (i : Int64)
  | stringVal (s : String)
  | binary (b : List UInt8)
  | bytesVal (b : List UInt8)
  | array (values : List String)
  | enumVal (e : String)
  | preset (p : UInt32)
  | booleanArray (values : List OptionalBool)
  | integerArray (values : List OptionalInt64)
  | enumArray (values : List String)
  | binaryArray (values : List OptionalBytes)
  | opaqueBytes (b : List UInt8)
  deriving DecidableEq, Repr

structure MlxValueTypePb where
  valueType : Option ValueTypePb
  deriving DecidableEq, Repr

/-- `mlx_variable_spec_pb::SpecType`, without the empty marker messages. -/
inductive SpecTypePb
  | boolean
  | integer
  | string
  | binary
  | bytes
  | array
  | enumType (options : List String)
  | preset (maxPreset : UInt32)
  | booleanArray (size : Nat)
  | integerArray (size : Nat)
  | enumArray (options : List String) (size : Nat)
  | binaryArray (size : Nat)
  | opaqueBytes
  deriving DecidableEq, Repr

structure MlxVariableSpecPb where
  specType : Option SpecTypePb
  deriving DecidableEq, Repr

structure MlxConfigVariablePb where
  name : String
  description : String
  readOnly : Bool
  spec : Option MlxVariableSpecPb
  deriving DecidableEq, Repr

/-- The field `variable` is `var`, as in `MlxConfigValue`. -/
structure MlxConfigValuePb where
  var : Option MlxConfigVariablePb
  value : Option MlxValueTypePb
  deriving DecidableEq, Repr

/-! ## The conversions -/

/-- mirrors spec.rs:285-360. -/
def MlxVariableSpec.toPb : MlxVariableSpec → MlxVariableSpecPb
  | .boolean => ⟨some .boolean⟩
  | .integer => ⟨some .integer⟩
  | .string => ⟨some .string⟩
  | .binary => ⟨some .binary⟩
  | .bytes => ⟨some .bytes⟩
  | .array => ⟨some .array⟩
  | .enum options => ⟨some (.enumType options)⟩
  | .preset maxPreset => ⟨some (.preset maxPreset.toUInt32)⟩
  | .booleanArray size => ⟨some (.booleanArray size)⟩
  | .integerArray size => ⟨some (.integerArray size)⟩
  | .enumArray options size => ⟨some (.enumArray options size)⟩
  | .binaryArray size => ⟨some (.binaryArray size)⟩
  | .opaqueBytes => ⟨some .opaqueBytes⟩

/-- mirrors spec.rs:362-402. -/
def MlxVariableSpec.tryFromPb (pb : MlxVariableSpecPb) :
    Except RpcDataConversionError MlxVariableSpec := do
  let some specType := pb.specType | throw (.missingArgument "spec_type")
  match specType with
  | .boolean => pure .boolean
  | .integer => pure .integer
  | .string => pure .string
  | .binary => pure .binary
  | .bytes => pure .bytes
  | .array => pure .array
  | .enumType options => pure (.enum options)
  | .preset maxPreset => pure (.preset maxPreset.toUInt8)
  | .booleanArray size => pure (.booleanArray size)
  | .integerArray size => pure (.integerArray size)
  | .enumArray options size => pure (.enumArray options size)
  | .binaryArray size => pure (.binaryArray size)
  | .opaqueBytes => pure .opaqueBytes

/-- mirrors variable.rs:114-123. -/
def MlxConfigVariable.toPb (var : MlxConfigVariable) : MlxConfigVariablePb :=
  ⟨var.name, var.description, var.readOnly, some var.spec.toPb⟩

/-- mirrors variable.rs:125-139. -/
def MlxConfigVariable.tryFromPb (pb : MlxConfigVariablePb) :
    Except RpcDataConversionError MlxConfigVariable := do
  let some specPb := pb.spec | throw (.missingArgument "spec")
  let spec ← MlxVariableSpec.tryFromPb specPb
  pure ⟨pb.name, pb.description, pb.readOnly, spec⟩

/-- mirrors value.rs:1205-1297. -/
def MlxValueType.toPb : MlxValueType → MlxValueTypePb
  | .boolean b => ⟨some (.boolean b)⟩
  | .integer i => ⟨some (.integer i)⟩
  | .string s => ⟨some (.stringVal s)⟩
  | .binary b => ⟨some (.binary b)⟩
  | .bytes b => ⟨some (.bytesVal b)⟩
  | .array arr => ⟨some (.array arr)⟩
  | .enum e => ⟨some (.enumVal e)⟩
  | .preset p => ⟨some (.preset p.toUInt32)⟩
  | .booleanArray arr =>
    ⟨some (.booleanArray (arr.map fun opt => ⟨opt.isSome, opt.getD false⟩))⟩
  | .integerArray arr =>
    ⟨some (.integerArray (arr.map fun opt => ⟨opt.isSome, opt.getD 0⟩))⟩
  | .enumArray arr =>
    -- the flags are built and then dropped: only the strings are sent
    let values : List OptionalString := arr.map fun opt => ⟨opt.isSome, opt.getD ""⟩
    ⟨some (.enumArray (values.map fun v => v.value))⟩
  | .binaryArray arr =>
    ⟨some (.binaryArray (arr.map fun opt => ⟨opt.isSome, opt.getD []⟩))⟩
  | .opaqueBytes b => ⟨some (.opaqueBytes b)⟩

/-- mirrors value.rs:1299-1351. -/
def MlxValueType.tryFromPb (pb : MlxValueTypePb) : Except RpcDataConversionError MlxValueType := do
  let some valueType := pb.valueType | throw (.missingArgument "value_type")
  match valueType with
  | .boolean b => pure (.boolean b)
  | .integer i => pure (.integer i)
  | .stringVal s => pure (.string s)
  | .binary b => pure (.binary b)
  | .bytesVal b => pure (.bytes b)
  | .array values => pure (.array values)
  | .enumVal e => pure (.enum e)
  | .preset p => pure (.preset p.toUInt8)
  | .booleanArray values =>
    pure (.booleanArray (values.map fun opt => if opt.hasValue then some opt.value else none))
  | .integerArray values =>
    pure (.integerArray (values.map fun opt => if opt.hasValue then some opt.value else none))
  | .enumArray values => pure (.enumArray (values.map fun s => if s.isEmpty then none else some s))
  | .binaryArray values =>
    pure (.binaryArray (values.map fun opt => if opt.hasValue then some opt.value else none))
  | .opaqueBytes b => pure (.opaqueBytes b)

/-- mirrors value.rs:1177-1184. -/
def MlxConfigValue.toPb (val : MlxConfigValue) : MlxConfigValuePb :=
  ⟨some val.var.toPb, some val.value.toPb⟩

/-- mirrors value.rs:1186-1203. -/
def MlxConfigValue.tryFromPb (pb : MlxConfigValuePb) : Except RpcDataConversionError MlxConfigValue := do
  let some variablePb := pb.var | throw (.missingArgument "variable")
  let var ← MlxConfigVariable.tryFromPb variablePb
  let some valuePb := pb.value | throw (.missingArgument "value")
  let value ← MlxValueType.tryFromPb valuePb
  match MlxConfigValue.new var value with
  | .ok v => pure v
  | .error e => throw (.invalidArgument e)

/-! ## Round trips -/

theorem MlxVariableSpec.tryFromPb_toPb (spec : MlxVariableSpec) : tryFromPb spec.toPb = .ok spec := by
  cases spec with
  | preset maxPreset =>
    show Except.ok (MlxVariableSpec.preset maxPreset.toUInt32.toUInt8) = _
    rw [UInt8.toUInt8_toUInt32]
  | _ => rfl

theorem MlxConfigVariable.tryFromPb_toPb (var : MlxConfigVariable) : tryFromPb var.toPb = .ok var := by
  show (do let spec ← MlxVariableSpec.tryFromPb var.spec.toPb; pure _) = _
  rw [MlxVariableSpec.tryFromPb_toPb]
  rfl

/-- An enum-array entry that is set to the empty string, as the message reads it back: unset. -/
def MlxValueType.emptyEnumsUnset : MlxValueType → MlxValueType
  | .enumArray arr => .enumArray (arr.map fun o => if o = some "" then none else o)
  | x => x

/-- The sparse entries of the flagged arrays come back as they were sent. -/
theorem map_flag {α : Type} (d : α) (arr : List (Option α)) :
    (arr.map fun opt => if opt.isSome = true then some (opt.getD d) else none) = arr := by
  conv_rhs => rw [← List.map_id arr]
  apply List.map_congr_left
  intro o _
  cases o <;> rfl

/-- Only the empty string collapses: every other enum-array entry comes back. -/
theorem map_enum_entries (arr : List (Option String)) :
    (arr.map fun opt => if (opt.getD "").isEmpty = true then none else some (opt.getD "")) =
      arr.map fun o => if o = some "" then none else o := by
  apply List.map_congr_left
  intro o _
  cases o with
  | none => rfl
  | some s =>
    by_cases hs : s = ""
    · subst hs
      rfl
    · rw [if_neg (by simpa using hs), if_neg (fun h => hs (Option.some.inj h))]
      rfl

theorem MlxValueType.tryFromPb_toPb (x : MlxValueType) : tryFromPb x.toPb = .ok x.emptyEnumsUnset := by
  cases x with
  | preset p =>
    show Except.ok (MlxValueType.preset p.toUInt32.toUInt8) = _
    rw [UInt8.toUInt8_toUInt32]
    rfl
  | enumArray arr =>
    simp only [tryFromPb, toPb, List.map_map, Function.comp_def]
    rw [map_enum_entries]
    rfl
  | booleanArray arr | integerArray arr | binaryArray arr =>
    simp only [tryFromPb, toPb, List.map_map, Function.comp_def, map_flag]
    rfl
  | _ => rfl

theorem emptyEnumsUnset_eq_self_iff (x : MlxValueType) :
    x.emptyEnumsUnset = x ↔ ∀ arr, x = .enumArray arr → some "" ∉ arr := by
  cases x with
  | enumArray arr =>
    simp only [MlxValueType.emptyEnumsUnset, MlxValueType.enumArray.injEq, forall_eq']
    constructor
    · intro h hmem
      have := congrArg (fun l => some "" ∈ l) h
      simp only [List.mem_map, eq_iff_iff] at this
      obtain ⟨o, ho, he⟩ := this.2 hmem
      split at he
      · cases he
      · rename_i hne
        exact hne he
    · intro h
      conv_rhs => rw [← List.map_id arr]
      apply List.map_congr_left
      intro o ho
      rw [if_neg (fun e : o = some "" => h (e ▸ ho))]
      rfl
  | _ => simp [MlxValueType.emptyEnumsUnset]

/-- Unsetting entries keeps a value valid: an unset entry is never checked. -/
theorem validateInternal_emptyEnumsUnset {spec : MlxVariableSpec} {x : MlxValueType}
    (h : validateInternal spec x = .ok ()) : validateInternal spec x.emptyEnumsUnset = .ok () := by
  cases x with
  | enumArray arr =>
    cases spec with
    | enumArray options size =>
      have hfit := fits_of_validateInternal h
      refine validateInternal_enumArray (by rw [List.length_map]; exact hfit.1) fun s hs => ?_
      obtain ⟨o, ho, he⟩ := List.mem_map.1 hs
      split at he
      · cases he
      · exact hfit.2 s (he ▸ ho)
    | _ => cases h
  | _ => exact h

/-- A valid config value comes back from its message with its empty
enum-array entries unset. -/
theorem MlxConfigValue.tryFromPb_toPb {v : MlxConfigVariable} {x : MlxValueType}
    (hvalid : MlxConfigValue.new v x = .ok ⟨v, x⟩) :
    tryFromPb (MlxConfigValue.toPb ⟨v, x⟩) = .ok ⟨v, x.emptyEnumsUnset⟩ := by
  have hval := validateInternal_emptyEnumsUnset (new_eq_ok_iff.1 hvalid).1
  have hnew : MlxConfigValue.new v x.emptyEnumsUnset = .ok ⟨v, x.emptyEnumsUnset⟩ :=
    new_eq_ok_iff.2 ⟨hval, rfl⟩
  show (do
    let var ← MlxConfigVariable.tryFromPb v.toPb
    let value ← MlxValueType.tryFromPb x.toPb
    match MlxConfigValue.new var value with
    | .ok v => pure v
    | .error e => throw (RpcDataConversionError.invalidArgument e)) = _
  rw [MlxConfigVariable.tryFromPb_toPb, MlxValueType.tryFromPb_toPb]
  show (match MlxConfigValue.new v x.emptyEnumsUnset with
    | .ok v => pure v
    | .error e => throw (RpcDataConversionError.invalidArgument e)) = _
  rw [hnew]
  rfl

/-- A valid config value comes back from its message exactly when none of its
enum-array entries is set to the empty string. -/
theorem config_value_roundtrip_iff {v : MlxConfigVariable} {x : MlxValueType}
    (hvalid : MlxConfigValue.new v x = .ok ⟨v, x⟩) :
    MlxConfigValue.tryFromPb (MlxConfigValue.toPb ⟨v, x⟩) = .ok ⟨v, x⟩ ↔
      ∀ arr, x = .enumArray arr → some "" ∉ arr := by
  rw [MlxConfigValue.tryFromPb_toPb hvalid, ← emptyEnumsUnset_eq_self_iff]
  simp only [Except.ok.injEq, MlxConfigValue.mk.injEq, true_and]

/-- An enum array whose options include `""`: the value `[Some(""), Some("a")]`
is valid and comes back as `[None, Some("a")]`. -/
theorem config_value_roundtrip_iff_empty_option :
    MlxConfigValue.new ⟨"ARR", "", false, .enumArray ["", "a"] 2⟩ (.enumArray [some "", some "a"]) =
        .ok ⟨⟨"ARR", "", false, .enumArray ["", "a"] 2⟩, .enumArray [some "", some "a"]⟩ ∧
      (MlxConfigValue.tryFromPb (MlxConfigValue.toPb
          ⟨⟨"ARR", "", false, .enumArray ["", "a"] 2⟩, .enumArray [some "", some "a"]⟩) =
          .ok ⟨⟨"ARR", "", false, .enumArray ["", "a"] 2⟩, .enumArray [some "", some "a"]⟩ ↔
        ∀ arr, MlxValueType.enumArray [some "", some "a"] = .enumArray arr → some "" ∉ arr) :=
  have hvalid : MlxConfigValue.new ⟨"ARR", "", false, .enumArray ["", "a"] 2⟩
      (.enumArray [some "", some "a"]) =
        .ok ⟨⟨"ARR", "", false, .enumArray ["", "a"] 2⟩, .enumArray [some "", some "a"]⟩ := by
    decide
  ⟨hvalid, config_value_roundtrip_iff hvalid⟩

/-! ## Presets are narrowed, not checked -/

/-- A preset of the message is read as `p as u8`. A config value whose preset
number lies above 255 but wraps to at most the spec's maximum is accepted, with
the wrapped preset; the preset the value then sends back equals the received
number exactly when that number is at most 255. -/
theorem tryFromPb_truncates_preset {var : MlxConfigVariable} {maxPreset : UInt8}
    (hspec : var.spec = .preset maxPreset) (p : UInt32) (hp : p.toUInt8 ≤ maxPreset) :
    MlxConfigValue.tryFromPb ⟨some var.toPb, some ⟨some (.preset p)⟩⟩ = .ok ⟨var, .preset p.toUInt8⟩ ∧
      ((MlxValueType.preset p.toUInt8).toPb = ⟨some (.preset p)⟩ ↔ p.toNat < 256) := by
  have hnew : MlxConfigValue.new var (.preset p.toUInt8) = .ok ⟨var, .preset p.toUInt8⟩ :=
    new_eq_ok_iff.2 ⟨hspec ▸ validateInternal_preset hp, rfl⟩
  refine ⟨?_, ?_⟩
  · show (do
      let var' ← MlxConfigVariable.tryFromPb var.toPb
      match MlxConfigValue.new var' (.preset p.toUInt8) with
      | .ok v => pure v
      | .error e => throw (RpcDataConversionError.invalidArgument e)) = _
    rw [MlxConfigVariable.tryFromPb_toPb]
    show (match MlxConfigValue.new var (.preset p.toUInt8) with
      | .ok v => pure v
      | .error e => throw (RpcDataConversionError.invalidArgument e)) = _
    rw [hnew]
    rfl
  · -- the payload survives exactly when narrowing to `u8` loses nothing
    have hround : p.toUInt8.toUInt32 = p ↔ p.toNat < 256 := by
      rw [← UInt32.toNat_inj, UInt8.toNat_toUInt32, UInt32.toNat_toUInt8]
      omega
    rw [← hround]
    constructor
    · intro h
      have := congrArg MlxValueTypePb.valueType h
      simp only [MlxValueType.toPb, Option.some.injEq, ValueTypePb.preset.injEq] at this
      exact this
    · intro h
      rw [MlxValueType.toPb, h]

/-- `300` arrives for a preset of maximum 50 and is accepted as 44. -/
theorem tryFromPb_truncates_preset_300 :
    (⟨"NUM_OF_PF", "", false, .preset 50⟩ : MlxConfigVariable).spec = .preset 50 ∧
    (300 : UInt32).toUInt8 ≤ 50 ∧
    (MlxConfigValue.tryFromPb ⟨some (⟨"NUM_OF_PF", "", false, .preset 50⟩ : MlxConfigVariable).toPb,
        some ⟨some (.preset 300)⟩⟩ =
      .ok ⟨⟨"NUM_OF_PF", "", false, .preset 50⟩, .preset (300 : UInt32).toUInt8⟩ ∧
      ((MlxValueType.preset (300 : UInt32).toUInt8).toPb = ⟨some (.preset 300)⟩ ↔
        (300 : UInt32).toNat < 256)) :=
  ⟨rfl, by decide, tryFromPb_truncates_preset rfl 300 (by decide)⟩

end Carbide.Mlx

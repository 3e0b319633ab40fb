import Mathlib.Data.List.Forall2
import Carbide.Config.Version
import Carbide.Lib.Hex
import Carbide.Lib.Except

/-!
# mlxconfig values and their YAML form

`crates/libmlx/src/variables/value.rs`. An mlxconfig variable has a spec
(`MlxVariableSpec`, spec.rs:34-48) and a value (`MlxValueType`);
`MlxConfigValue::new` checks that the value fits the spec. A profile is
written to YAML with `MlxValueType::to_yaml_value` and read back through
`IntoMlxValue for serde_yaml::Value`, which dispatches on the YAML shape to the
converters for `bool`, `i64`, `u8`, `String` and `Vec<String>`; those read the
value from the spec alone, and the string converters trim what they read. The
other converters (`i32`, `Vec<u8>`, the dense and sparse arrays) take typed
values and only check them against the spec.

Strings are `String`s, trimmed as `str::trim` trims (the Unicode `White_Space`
characters); `to_lowercase` is ASCII lower-casing, which decides the boolean
words the converters compare against exactly. A `serde_yaml::Number` is one of
the integers it stores (`PosInt`, `NegInt`); floats are not modelled. Where
an error text is the `{:?}` rendering of a spec or a value, the error holds
the spec or value itself.

* `converters_produce_valid_values`: every `IntoMlxValue` converter returns only
  values that `validate_internal` accepts, so `MlxConfigVariable::with` never
  fails in its validation step after a successful conversion;
* `yaml_roundtrip_iff`: a valid value reads back from its YAML form exactly
  when no string in it starts or ends with white space and no enum-array entry
  is `-` or empty (`survivesYaml`); `yaml_roundtrip_trims` gives a value of
  each kind that does not.
-/
namespace Carbide.Mlx

open Carbide.Lib Carbide.Config

/-- `s.trim().to_string()`. -/
def strTrim (s : String) : String := String.ofList (trim s.toList)

/-- `to_lowercase`, on ASCII letters. -/
def toLowercase (s : String) : String := String.ofList (s.toList.map Char.toLower)

/-- `str::parse::<i64>()`. -/
def parseI64 (s : String) : Option Int64 := (parseSigned 64 s.toList).map Int64.ofInt

/-- `str::parse::<u8>()`. -/
def parseU8 (s : String) : Option UInt8 := (parseUnsigned 8 s.toList).map UInt8.ofNat

/-- `format!("{i}")` for an `i64`. -/
def i64String (i : Int64) : String := String.ofList (intDigits i.toInt)

/-- mirrors spec.rs:34-48; Rust's `Opaque` is `opaqueBytes`. -/
inductive MlxVariableSpec
  | boolean
  | integer
  | string
  | binary
  | bytes
  | array
  | enum (options : List String)
  | preset (maxPreset : UInt8)
  | booleanArray (size : Nat)
  | integerArray (size : Nat)
  | enumArray (options : List String) (size : Nat)
  | binaryArray (size : Nat)
  | opaqueBytes
  deriving DecidableEq, Repr

/-- mirrors value.rs:52-69. -/
inductive MlxValueType
  | boolean (b : Bool)
  | integer (i : Int64)
  | string (s : String)
  | binary (bytes : List UInt8)
  | bytes (bytes : List UInt8)
  | array (arr : List String)
  | enum (s : String)
  | preset (p : UInt8)
  | booleanArray (arr : List (Option Bool))
  | integerArray (arr : List (Option Int64))
  | enumArray (arr : List (Option String))
  | binaryArray (arr : List (Option (List UInt8)))
  | opaqueBytes (bytes : List UInt8)
  deriving DecidableEq, Repr

/-- A field of `TypeMismatch`: a text, or the `{:?}` rendering of a spec or of
a value, kept as the spec or value it renders. -/
inductive MismatchText
  | text (s : String)
  | spec (s : MlxVariableSpec)
  | singleValueFor (s : MlxVariableSpec)
  | arrayValueFor (s : MlxVariableSpec)
  | value (v : MlxValueType)
  deriving DecidableEq, Repr

/-- mirrors value.rs:73-104. -/
inductive MlxValueError
  | typeMismatch (expected got : MismatchText)
  | invalidEnumOption (value : String) (allowed : List String)
  | presetOutOfRange (value maxAllowed : UInt8)
  | arraySizeMismatch (expected got : Nat)
  | invalidEnumArrayOption (position : Nat) (value : String) (allowed : List String)
  | readOnlyVariable (variableName : String)
  deriving DecidableEq, Repr

/-- A `TypeMismatch` of two texts. -/
def mismatch (expected got : String) : MlxValueError := .typeMismatch (.text expected) (.text got)

/-- `format!("'{s}'")`. -/
def quoted (s : String) : String := "'" ++ s ++ "'"

/-- `format!("'{s}' at position {pos}")`. -/
def atPosition (s : String) (pos : Nat) : String := quoted s ++ " at position " ++ toString pos

/-- mirrors variable.rs:33-38. -/
structure MlxConfigVariable where
  name : String
  description : String
  readOnly : Bool
  spec : MlxVariableSpec
  deriving DecidableEq, Repr

/-- mirrors value.rs:39-46; the field `variable` is `var`. -/
structure MlxConfigValue where
  var : MlxConfigVariable
  value : MlxValueType
  deriving DecidableEq, Repr

/-! ## Validation -/

/-- The length check of every array spec. -/
def checkSize (size len : Nat) : Except MlxValueError Unit :=
  if len = size then pure () else throw (.arraySizeMismatch size len)

/-- The enum-array loop of `validate_internal`: the first set entry that is
not an option fails. -/
def checkEnumEntries (options : List String) : Nat → List (Option String) → Except MlxValueError Unit
  | _, [] => pure ()
  | pos, value :: rest =>
    match value with
    | some enumValue =>
      if enumValue ∈ options then checkEnumEntries options (pos + 1) rest
      else throw (.invalidEnumArrayOption pos enumValue options)
    | none => checkEnumEntries options (pos + 1) rest

/-- mirrors value.rs:164-266. -/
def validateInternal (spec : MlxVariableSpec) (value : MlxValueType) : Except MlxValueError Unit :=
  match spec, value with
  | .boolean, .boolean _ => pure ()
  | .integer, .integer _ => pure ()
  | .string, .string _ => pure ()
  | .binary, .binary _ => pure ()
  | .bytes, .bytes _ => pure ()
  | .array, .array _ => pure ()
  | .enum options, .enum value =>
    if value ∈ options then pure () else throw (.invalidEnumOption value options)
  | .preset maxPreset, .preset value =>
    if value ≤ maxPreset then pure () else throw (.presetOutOfRange value maxPreset)
  | .booleanArray size, .booleanArray values => checkSize size values.length
  | .integerArray size, .integerArray values => checkSize size values.length
  | .enumArray options size, .enumArray values => do
    checkSize size values.length
    checkEnumEntries options 0 values
  | .binaryArray size, .binaryArray values => checkSize size values.length
  | .opaqueBytes, .opaqueBytes _ => pure ()
  | spec, value => throw (.typeMismatch (.spec spec) (.value value))

/-- mirrors value.rs:153-157. -/
def MlxConfigValue.new (var : MlxConfigVariable) (value : MlxValueType) :
    Except MlxValueError MlxConfigValue := do
  validateInternal var.spec value
  pure ⟨var, value⟩

/-! ## The converters -/

/-- The words `true` and `false` are read from. -/
def boolOfString (trimmed : String) : Option Bool :=
  if trimmed ∈ ["true", "1", "yes", "on", "enabled"] then some true
  else if trimmed ∈ ["false", "0", "no", "off", "disabled"] then some false
  else none

/-- `&trimmed[2..]` after a `0x` or `0X`, else the whole string. -/
def hexStr (trimmed : List Char) : List Char :=
  match trimmed with
  | '0' :: 'x' :: rest => rest
  | '0' :: 'X' :: rest => rest
  | _ => trimmed

/-- The hex branch shared by `Binary`, `Bytes` and `Opaque`. -/
def readHex (wrap : List UInt8 → MlxValueType) (trimmed : String) :
    Except MlxValueError MlxValueType :=
  match hexDecode (hexStr trimmed.toList) with
  | some bytes => pure (wrap bytes)
  | none => throw (mismatch "hex string" (quoted trimmed))

namespace IntoMlxValue

/-- `impl IntoMlxValue for bool`.
mirrors value.rs:345-358 -/
def bool (self : Bool) (spec : MlxVariableSpec) : Except MlxValueError MlxValueType :=
  match spec with
  | .boolean => pure (.boolean self)
  | _ => throw (.typeMismatch (.spec spec) (.text "bool"))

/-- `impl IntoMlxValue for i64`.
mirrors value.rs:363-400 -/
def i64 (self : Int64) (spec : MlxVariableSpec) : Except MlxValueError MlxValueType :=
  match spec with
  | .integer => pure (.integer self)
  | .preset maxPreset =>
    if self < 0 then throw (mismatch "non-negative integer for preset" (i64String self))
    else if 255 < self.toInt then throw (mismatch "integer <= 255 for preset" (i64String self))
    else
      let presetVal := UInt8.ofNat self.toInt.toNat
      if presetVal ≤ maxPreset then pure (.preset presetVal)
      else throw (.presetOutOfRange presetVal maxPreset)
  | _ => throw (.typeMismatch (.spec spec) (.text "i64"))

/-- `impl IntoMlxValue for u8`.
mirrors value.rs:418-441 -/
def u8 (self : UInt8) (spec : MlxVariableSpec) : Except MlxValueError MlxValueType :=
  match spec with
  | .preset maxPreset =>
    if self ≤ maxPreset then pure (.preset self) else throw (.presetOutOfRange self maxPreset)
  | .integer => pure (.integer (Int64.ofInt self.toNat))
  | _ => throw (.typeMismatch (.spec spec) (.text "u8"))

/-- `impl IntoMlxValue for String`.
mirrors value.rs:455-583 -/
def string (self : String) (spec : MlxVariableSpec) : Except MlxValueError MlxValueType :=
  let trimmed := strTrim self
  match spec with
  | .string => pure (.string trimmed)
  | .enum options =>
    if trimmed ∈ options then pure (.enum trimmed) else throw (.invalidEnumOption trimmed options)
  | .boolean =>
    match boolOfString (toLowercase trimmed) with
    | some b => pure (.boolean b)
    | none => throw (mismatch "boolean string (true/false, 1/0, yes/no, etc.)" (quoted trimmed))
  | .integer =>
    match parseI64 trimmed with
    | some i => pure (.integer i)
    | none => throw (mismatch "integer string" (quoted trimmed))
  | .preset maxPreset =>
    match parseU8 trimmed with
    | none => throw (mismatch "preset number string" (quoted trimmed))
    | some presetVal =>
      if presetVal ≤ maxPreset then pure (.preset presetVal)
      else throw (.presetOutOfRange presetVal maxPreset)
  | .binary => readHex .binary trimmed
  | .bytes => readHex .bytes trimmed
  | .opaqueBytes => readHex .opaqueBytes trimmed
  | _ => throw (.typeMismatch (.singleValueFor spec) (.text "String (use Vec<String> for array types)"))

/-- One entry of a sparse array: an entry that normalizes to `-` or to nothing
is unset, any other is read by `entry` at its position. -/
def sparseEntry {α : Type} (normalize : String → String)
    (entry : Nat → String → String → Except MlxValueError α) (pos : Nat) (s : String) :
    Except MlxValueError (Option α) :=
  let trimmed := normalize s
  if trimmed = "-" ∨ trimmed.isEmpty then pure none else some <$> entry pos s trimmed

/-- The loop of every sparse-array branch of `impl IntoMlxValue for Vec<String>`,
which ends at the first entry that fails. -/
def sparseArray {α : Type} (normalize : String → String)
    (entry : Nat → String → String → Except MlxValueError α) :
    Nat → List String → Except MlxValueError (List (Option α))
  | _, [] => pure []
  | pos, s :: rest => do
    let value ← sparseEntry normalize entry pos s
    let values ← sparseArray normalize entry (pos + 1) rest
    pure (value :: values)

/-- The `BooleanArray` entry. -/
def boolEntry (pos : Nat) (s trimmed : String) : Except MlxValueError Bool :=
  match boolOfString trimmed with
  | some b => pure b
  | none => throw (mismatch "boolean string in array" (atPosition s pos))

/-- The `IntegerArray` entry. -/
def integerEntry (pos : Nat) (s trimmed : String) : Except MlxValueError Int64 :=
  match parseI64 trimmed with
  | some i => pure i
  | none => throw (mismatch "integer string in array" (atPosition s pos))

/-- The `EnumArray` entry. -/
def enumEntry (options : List String) (pos : Nat) (_ trimmed : String) : Except MlxValueError String :=
  if trimmed ∈ options then pure trimmed else throw (.invalidEnumArrayOption pos trimmed options)

/-- The `BinaryArray` entry. -/
def binaryEntry (pos : Nat) (s trimmed : String) : Except MlxValueError (List UInt8) :=
  match hexDecode (hexStr trimmed.toList) with
  | some bytes => pure bytes
  | none => throw (mismatch "hex string in array" (atPosition s pos))

/-- `impl IntoMlxValue for Vec<String>`.
mirrors value.rs:759-898 -/
def vecString (self : List String) (spec : MlxVariableSpec) : Except MlxValueError MlxValueType :=
  match spec with
  | .array => pure (.array (self.map strTrim))
  | .booleanArray size => do
    checkSize size self.length
    .booleanArray <$> sparseArray (fun s => toLowercase (strTrim s)) boolEntry 0 self
  | .integerArray size => do
    checkSize size self.length
    .integerArray <$> sparseArray strTrim integerEntry 0 self
  | .enumArray options size => do
    checkSize size self.length
    .enumArray <$> sparseArray strTrim (enumEntry options) 0 self
  | .binaryArray size => do
    checkSize size self.length
    .binaryArray <$> sparseArray strTrim binaryEntry 0 self
  | _ => throw (.typeMismatch (.arrayValueFor spec)
      (.text "Vec<String> (use String for single value types)"))

/-- `impl IntoMlxValue for i32`: widened to `i64`.
mirrors value.rs:402-411 -/
def i32 (self : Int32) (spec : MlxVariableSpec) : Except MlxValueError MlxValueType :=
  i64 self.toInt64 spec

/-- `impl IntoMlxValue for &str` and `for &String`: through `String`.
mirrors value.rs:584-604 -/
def str (self : String) (spec : MlxVariableSpec) : Except MlxValueError MlxValueType :=
  string self spec

/-- `impl IntoMlxValue for Vec<u8>`.
mirrors value.rs:606-626 -/
def vecU8 (self : List UInt8) (spec : MlxVariableSpec) : Except MlxValueError MlxValueType :=
  match spec with
  | .binary => pure (.binary self)
  | .bytes => pure (.bytes self)
  | .opaqueBytes => pure (.opaqueBytes self)
  | _ => throw (.typeMismatch (.spec spec) (.text "Vec<u8>"))

def booleanArraySize : MlxVariableSpec → Option Nat
  | .booleanArray size => some size
  | _ => none

def integerArraySize : MlxVariableSpec → Option Nat
  | .integerArray size => some size
  | _ => none

def binaryArraySize : MlxVariableSpec → Option Nat
  | .binaryArray size => some size
  | _ => none

/-- The converters of the boolean, integer and binary arrays: one array spec,
whose size the (sparse) array must have. -/
def sparseInto {α : Type} (arraySize : MlxVariableSpec → Option Nat)
    (wrap : List (Option α) → MlxValueType) (typeName : String) (self : List (Option α))
    (spec : MlxVariableSpec) : Except MlxValueError MlxValueType :=
  match arraySize spec with
  | some size =>
    if self.length = size then pure (wrap self) else throw (.arraySizeMismatch size self.length)
  | none => throw (.typeMismatch (.spec spec) (.text typeName))

/-- `impl IntoMlxValue for Vec<bool>`: every entry set.
mirrors value.rs:628-654 -/
def vecBool (self : List Bool) (spec : MlxVariableSpec) : Except MlxValueError MlxValueType :=
  sparseInto booleanArraySize .booleanArray "Vec<bool>" (self.map some) spec

/-- mirrors value.rs:656-679 -/
def vecOptionBool (self : List (Option Bool)) (spec : MlxVariableSpec) :
    Except MlxValueError MlxValueType :=
  sparseInto booleanArraySize .booleanArray "Vec<Option<bool>>" self spec

/-- mirrors value.rs:681-707 -/
def vecI64 (self : List Int64) (spec : MlxVariableSpec) : Except MlxValueError MlxValueType :=
  sparseInto integerArraySize .integerArray "Vec<i64>" (self.map some) spec

/-- mirrors value.rs:709-732 -/
def vecOptionI64 (self : List (Option Int64)) (spec : MlxVariableSpec) :
    Except MlxValueError MlxValueType :=
  sparseInto integerArraySize .integerArray "Vec<Option<i64>>" self spec

/-- mirrors value.rs:734-744 -/
def vecI32 (self : List Int32) (spec : MlxVariableSpec) : Except MlxValueError MlxValueType :=
  vecI64 (self.map Int32.toInt64) spec

/-- `impl IntoMlxValue for Vec<&str>`: through `Vec<String>`.
mirrors value.rs:900-910 -/
def vecStr (self : List String) (spec : MlxVariableSpec) : Except MlxValueError MlxValueType :=
  vecString self spec

/-- `impl IntoMlxValue for Vec<Option<String>>`: the size and the options are
checked as `validate_internal` checks them.
mirrors value.rs:912-946 -/
def vecOptionString (self : List (Option String)) (spec : MlxVariableSpec) :
    Except MlxValueError MlxValueType :=
  match spec with
  | .enumArray options size => do
    checkSize size self.length
    checkEnumEntries options 0 self
    pure (.enumArray self)
  | _ => throw (.typeMismatch (.spec spec) (.text "Vec<Option<String>>"))

/-- mirrors value.rs:948-974 -/
def vecVecU8 (self : List (List UInt8)) (spec : MlxVariableSpec) : Except MlxValueError MlxValueType :=
  sparseInto binaryArraySize .binaryArray "Vec<Vec<u8>>" (self.map some) spec

/-- mirrors value.rs:976-999 -/
def vecOptionVecU8 (self : List (Option (List UInt8))) (spec : MlxVariableSpec) :
    Except MlxValueError MlxValueType :=
  sparseInto binaryArraySize .binaryArray "Vec<Option<Vec<u8>>>" self spec

end IntoMlxValue

/-- `variable.with(value)`, for a value of a type whose converter is `into`.
mirrors variable.rs:102-105 -/
def MlxConfigVariable.withValue {T : Type}
    (into : T → MlxVariableSpec → Except MlxValueError MlxValueType) (self : MlxConfigVariable)
    (value : T) : Except MlxValueError MlxConfigValue := do
  let mlxValue ← into value self.spec
  MlxConfigValue.new self mlxValue

/-! ## YAML -/

/-- `serde_yaml::Number`, for the integers it stores. serde_yaml is a
dependency, not code under `src/`: `YamlNumber` and `YamlValue` are a stand-in
for the parts of its data model and conversions the checks below read. -/
inductive YamlNumber
  | posInt (u : UInt64)
  | negInt (i : Int64)
  deriving DecidableEq, Repr

namespace YamlNumber

/-- `From<i64>`. -/
def ofI64 (i : Int64) : YamlNumber := if i < 0 then negInt i else posInt (UInt64.ofNat i.toInt.toNat)

def asU64 : YamlNumber → Option UInt64
  | posInt u => some u
  | negInt _ => none

def asI64 : YamlNumber → Option Int64
  | posInt u => if u.toNat ≤ 2 ^ 63 - 1 then some (Int64.ofInt u.toNat) else none
  | negInt i => some i

/-- `Display`. -/
def toString : YamlNumber → String
  | posInt u => String.ofList (Nat.toDigits 10 u.toNat)
  | negInt i => i64String i

end YamlNumber

/-- `serde_yaml::Value`. -/
inductive YamlValue
  | null
  | bool (b : Bool)
  | number (n : YamlNumber)
  | string (s : String)
  | sequence (seq : List YamlValue)
  | mapping (entries : List (YamlValue × YamlValue))
  | tagged (tag : String) (value : YamlValue)

/-- mirrors value.rs:1060-1071. -/
def yamlValueToString : YamlValue → Except MlxValueError String
  | .bool b => pure (toString b)
  | .number n => pure n.toString
  | .string s => pure s
  | _ => throw (mismatch "simple value in array" "complex type")

/-- `impl IntoMlxValue for serde_yaml::Value`.
mirrors value.rs:1005-1057 -/
def IntoMlxValue.yaml (self : YamlValue) (spec : MlxVariableSpec) : Except MlxValueError MlxValueType :=
  match self with
  | .bool b => IntoMlxValue.bool b spec
  | .number n =>
    match spec with
    | .preset _ =>
      match n.asU64 with
      | some u =>
        if u.toNat ≤ 255 then IntoMlxValue.u8 (UInt8.ofNat u.toNat) spec
        else throw (mismatch "preset value (0-255)"
          ("number too large: " ++ String.ofList (Nat.toDigits 10 u.toNat)))
      | none => throw (mismatch "positive integer for preset" "negative or invalid number")
    | _ =>
      match n.asI64 with
      | some i => IntoMlxValue.i64 i spec
      | none => throw (mismatch "valid integer" "invalid number format")
  | .string s => IntoMlxValue.string s spec
  | .sequence seq => do
    let stringVec ← seq.mapM yamlValueToString
    IntoMlxValue.vecString stringVec spec
  | _ => throw (mismatch "boolean, number, string, or array" "unsupported YAML type")

/-- `format!("0x{}", hex::encode(bytes))`. -/
def hexString (bytes : List UInt8) : String := String.ofList ('0' :: 'x' :: hexEncode bytes)

/-- An entry of a sparse array as `to_yaml_value` writes it: unset is `-`. -/
def orUnset {α : Type} (write : α → YamlValue) : Option α → YamlValue
  | some a => write a
  | none => .string "-"

/-- mirrors value.rs:1106-1175. -/
def MlxValueType.toYamlValue : MlxValueType → YamlValue
  | .boolean b => .bool b
  | .integer i => .number (.ofI64 i)
  | .string s => .string s
  | .enum s => .string s
  | .preset p => .number (.ofI64 (Int64.ofInt p.toNat))
  | .binary data | .bytes data | .opaqueBytes data => .string (hexString data)
  | .array arr => .sequence (arr.map .string)
  | .booleanArray arr => .sequence (arr.map (orUnset .bool))
  | .integerArray arr => .sequence (arr.map (orUnset fun i => .number (.ofI64 i)))
  | .enumArray arr => .sequence (arr.map (orUnset .string))
  | .binaryArray arr => .sequence (arr.map (orUnset fun data => .string (hexString data)))

/-- `variable.with(value)` for a YAML value, as `MlxConfigProfile::with` calls
it for each entry of a profile.
mirrors variable.rs:102-105 -/
def MlxConfigVariable.withYaml (self : MlxConfigVariable) (value : YamlValue) :
    Except MlxValueError MlxConfigValue := do
  let mlxValue ← IntoMlxValue.yaml value self.spec
  MlxConfigValue.new self mlxValue

/-- What a value must be for its YAML form to read back as itself: no string in
it starts or ends with white space, and no enum-array entry is `-` or empty. -/
def MlxValueType.survivesYaml : MlxValueType → Bool
  | .string s => strTrim s == s
  | .enum s => strTrim s == s
  | .array arr => arr.all fun s => strTrim s == s
  | .enumArray arr => arr.all fun
    | some s => strTrim s == s && s != "-" && s != ""
    | none => true
  | _ => true

/-! ## The strings the encoder writes -/

/-- A string that neither starts nor ends with white space is its own trim. -/
theorem strTrim_eq_self {s : String} (h : ∀ c ∈ s.toList, isWhitespace c = false) : strTrim s = s := by
  unfold strTrim
  rw [trim_eq_self (fun c hc => h c (List.mem_of_mem_head? hc))
    (fun c hc => h c (List.mem_of_mem_getLast? hc)), String.ofList_toList]

theorem isWhitespace_hexDigit : ∀ d < 16, isWhitespace (hexDigit d) = false := by
  decide

theorem toList_hexString (bytes : List UInt8) :
    (hexString bytes).toList = '0' :: 'x' :: hexEncode bytes :=
  String.toList_ofList

theorem strTrim_hexString (bytes : List UInt8) : strTrim (hexString bytes) = hexString bytes := by
  apply strTrim_eq_self
  intro c hc
  rw [toList_hexString] at hc
  rcases List.mem_cons.1 hc with rfl | hc
  · decide
  rcases List.mem_cons.1 hc with rfl | hc
  · decide
  obtain ⟨d, hd, rfl⟩ := isHexDigit_of_mem_hexEncode hc
  exact isWhitespace_hexDigit d hd

theorem hexDecode_hexStr_hexString (bytes : List UInt8) :
    hexDecode (hexStr (hexString bytes).toList) = some bytes := by
  rw [toList_hexString]
  exact hexDecode_hexEncode bytes

theorem readHex_hexString (wrap : List UInt8 → MlxValueType) (bytes : List UInt8) :
    readHex wrap (strTrim (hexString bytes)) = .ok (wrap bytes) := by
  simp only [readHex, strTrim_hexString, hexDecode_hexStr_hexString]
  rfl

theorem strTrim_i64String (i : Int64) : strTrim (i64String i) = i64String i := by
  apply strTrim_eq_self
  intro c hc
  simp only [i64String, String.toList_ofList, intDigits] at hc
  split at hc
  · rcases List.mem_cons.1 hc with rfl | hc
    · decide
    · exact isWhitespace_of_isDigit (isDigit_of_mem_toDigits hc)
  · exact isWhitespace_of_isDigit (isDigit_of_mem_toDigits hc)

/-- `parse::<i64>()` reads back what `{}` prints. -/
theorem parseI64_i64String (i : Int64) : parseI64 (i64String i) = some i := by
  have hlo := Int64.le_toInt i
  have hhi := Int64.toInt_lt i
  simp only [parseI64, i64String, String.toList_ofList, intDigits]
  split
  · rename_i hneg
    rw [parseSigned_neg_toDigits (by omega), Option.map_some,
      show (-(i.toInt.natAbs : Int)) = i.toInt by omega, Int64.ofInt_toInt]
  · rename_i hnonneg
    rw [parseSigned_toDigits (by omega), Option.map_some,
      show ((i.toInt.toNat : Nat) : Int) = i.toInt by omega, Int64.ofInt_toInt]

namespace YamlNumber

theorem asI64_ofI64 (i : Int64) : (ofI64 i).asI64 = some i := by
  have hlo := Int64.le_toInt i
  have hhi := Int64.toInt_lt i
  unfold ofI64
  split
  · rfl
  · rename_i hnonneg
    have hzero : 0 ≤ i.toInt := by
      rw [Int64.lt_iff_toInt_lt, Int64.toInt_zero] at hnonneg
      omega
    have hsize : (2 : Nat) ^ 63 < UInt64.size := by decide
    have hnat : (UInt64.ofNat i.toInt.toNat).toNat = i.toInt.toNat :=
      UInt64.toNat_ofNat_of_lt' (by omega)
    simp only [asI64, hnat]
    rw [if_pos (by omega), show ((i.toInt.toNat : Nat) : Int) = i.toInt by omega, Int64.ofInt_toInt]

theorem toString_ofI64 (i : Int64) : (ofI64 i).toString = i64String i := by
  unfold ofI64
  split
  · rfl
  · rename_i hnonneg
    have hzero : 0 ≤ i.toInt := by
      rw [Int64.lt_iff_toInt_lt, Int64.toInt_zero] at hnonneg
      omega
    have hhi := Int64.toInt_lt i
    have hsize : (2 : Nat) ^ 63 < UInt64.size := by decide
    have hnat : (UInt64.ofNat i.toInt.toNat).toNat = i.toInt.toNat :=
      UInt64.toNat_ofNat_of_lt' (by omega)
    simp only [toString, hnat, i64String, intDigits_of_nonneg hzero]

/-- A preset is written as the non-negative number it is. -/
theorem asU64_preset (p : UInt8) :
    (ofI64 (Int64.ofInt p.toNat)).asU64 = some (UInt64.ofNat p.toNat) := by
  have hp := p.toNat_lt
  have hint : (Int64.ofInt p.toNat).toInt = p.toNat := Int64.toInt_ofInt_of_le (by omega) (by omega)
  have hnonneg : ¬ Int64.ofInt p.toNat < 0 := by
    rw [Int64.lt_iff_toInt_lt, Int64.toInt_zero, hint]
    omega
  simp only [ofI64, if_neg hnonneg, asU64, hint, Int.toNat_natCast]

end YamlNumber

/-! ## Reading entries back -/

namespace IntoMlxValue

theorem mapM_orUnset {α : Type} (write : α → YamlValue) (shown : α → String)
    (h : ∀ a, yamlValueToString (write a) = .ok (shown a)) (l : List (Option α)) :
    (l.map (orUnset write)).mapM yamlValueToString = .ok (l.map fun o => o.elim "-" shown) := by
  induction l with
  | nil => rfl
  | cons o os ih =>
    have ho : yamlValueToString (orUnset write o) = .ok (o.elim "-" shown) := by
      cases o with
      | some a => exact h a
      | none => rfl
    simp only [List.map_cons, List.mapM_cons, ho, ih]
    rfl

/-- The loop reads a list back when each entry, at any position, reads back. -/
theorem sparseArray_eq_ok {α β : Type} {normalize : String → String}
    {entry : Nat → String → String → Except MlxValueError α} {shown : β → String} {read : β → Option α}
    (l : List β) (h : ∀ pos, ∀ b ∈ l, sparseEntry normalize entry pos (shown b) = .ok (read b))
    (pos : Nat) : sparseArray normalize entry pos (l.map shown) = .ok (l.map read) := by
  induction l generalizing pos with
  | nil => rfl
  | cons b bs ih =>
    have hb := h pos b List.mem_cons_self
    have hbs := ih (fun p b' hb' => h p b' (List.mem_cons_of_mem _ hb')) (pos + 1)
    simp only [List.map_cons, sparseArray, hb, hbs]
    rfl

/-- What the loop reads, each entry read at some position. -/
theorem sparseEntry_of_sparseArray {α : Type} {normalize : String → String}
    {entry : Nat → String → String → Except MlxValueError α} {strs : List String}
    {values : List (Option α)} {pos : Nat} (h : sparseArray normalize entry pos strs = .ok values) :
    List.Forall₂ (fun s v => ∃ p, sparseEntry normalize entry p s = .ok v) strs values := by
  induction strs generalizing pos values with
  | nil =>
    cases h
    exact List.Forall₂.nil
  | cons s rest ih =>
    simp only [sparseArray] at h
    cases hs : sparseEntry normalize entry pos s with
    | error e =>
      rw [hs] at h
      cases h
    | ok v =>
      cases hr : sparseArray normalize entry (pos + 1) rest with
      | error e =>
        rw [hs] at h
        simp only [hr] at h
        cases h
      | ok vs =>
        rw [hs] at h
        simp only [hr] at h
        cases h
        exact List.Forall₂.cons ⟨pos, hs⟩ (ih hr)

theorem sparseEntry_dash {α : Type} {normalize : String → String}
    {entry : Nat → String → String → Except MlxValueError α} (h : normalize "-" = "-") (pos : Nat) :
    sparseEntry normalize entry pos "-" = .ok none := by
  simp [sparseEntry, h]
  rfl

theorem sparseEntry_bool (b : Bool) (pos : Nat) :
    sparseEntry (fun s => toLowercase (strTrim s)) boolEntry pos (toString b) = .ok (some b) := by
  cases b <;> rfl

theorem sparseEntry_integer (i : Int64) (pos : Nat) :
    sparseEntry strTrim integerEntry pos (i64String i) = .ok (some i) := by
  have hparse := parseI64_i64String i
  -- neither `-` nor the empty string parses
  have hdash : i64String i ≠ "-" := fun h => by
    rw [h, show parseI64 "-" = none by decide] at hparse
    cases hparse
  have hempty : i64String i ≠ "" := fun h => by
    rw [h, show parseI64 "" = none by decide] at hparse
    cases hparse
  simp only [sparseEntry, strTrim_i64String, String.isEmpty_iff, hdash, hempty, or_self,
    if_false, integerEntry, hparse]
  rfl

theorem sparseEntry_binary (bytes : List UInt8) (pos : Nat) :
    sparseEntry strTrim binaryEntry pos (hexString bytes) = .ok (some bytes) := by
  -- the string starts with `0x`, so it is neither `-` nor empty
  have hdash : hexString bytes ≠ "-" := fun h => by
    have := congrArg String.toList h
    rw [toList_hexString, show ("-" : String).toList = ['-'] by decide] at this
    exact absurd (List.cons.inj this).1 (by decide)
  have hempty : hexString bytes ≠ "" := fun h => by
    have := congrArg String.toList h
    rw [toList_hexString, show ("" : String).toList = [] by decide] at this
    exact List.cons_ne_nil _ _ this
  simp only [sparseEntry, strTrim_hexString, String.isEmpty_iff, hdash, hempty, or_self,
    if_false, binaryEntry, hexDecode_hexStr_hexString]
  rfl

/-- An enum-array entry reads back as a set value exactly when it is its own
trim, neither `-` nor empty, and an option. -/
theorem sparseEntry_enum_eq_ok {options : List String} {s t : String} {pos : Nat} :
    sparseEntry strTrim (enumEntry options) pos s = .ok (some t) ↔
      strTrim s = t ∧ t ≠ "-" ∧ t ≠ "" ∧ t ∈ options := by
  simp only [sparseEntry, enumEntry, String.isEmpty_iff]
  by_cases hunset : strTrim s = "-" ∨ strTrim s = ""
  · rw [if_pos hunset]
    constructor
    · intro h
      cases h
    · rintro ⟨rfl, hdash, hempty, -⟩
      exact absurd hunset (by simp [hdash, hempty])
  · rw [if_neg hunset]
    by_cases hmem : strTrim s ∈ options
    · rw [if_pos hmem]
      constructor
      · intro h
        cases h
        simp_all
      · rintro ⟨rfl, -, -, -⟩
        rfl
    · rw [if_neg hmem]
      constructor
      · intro h
        cases h
      · rintro ⟨rfl, -, -, hmem'⟩
        exact absurd hmem' hmem

theorem mapM_string (l : List String) : (l.map YamlValue.string).mapM yamlValueToString = .ok l := by
  induction l with
  | nil => rfl
  | cons s ss ih =>
    simp only [List.map_cons, List.mapM_cons, ih]
    rfl

/-- A sparse array whose every set entry reads back reads back whole. -/
theorem sparseArray_total {α : Type} {normalize : String → String}
    {entry : Nat → String → String → Except MlxValueError α} {shown : α → String}
    (hdash : normalize "-" = "-") (h : ∀ a pos, sparseEntry normalize entry pos (shown a) = .ok (some a))
    (l : List (Option α)) : sparseArray normalize entry 0 (l.map fun o => o.elim "-" shown) = .ok l := by
  have hentry : ∀ pos, ∀ o ∈ l, sparseEntry normalize entry pos (o.elim "-" shown) = .ok o := by
    intro pos o _
    cases o with
    | some a => exact h a pos
    | none => exact sparseEntry_dash hdash pos
  rw [sparseArray_eq_ok l hentry 0, List.map_id']

end IntoMlxValue

/-! ## The round trip -/

theorem checkSize_eq_ok {size len : Nat} : checkSize size len = .ok () ↔ len = size := by
  unfold checkSize
  split
  · exact iff_of_true rfl ‹_›
  · exact iff_of_false (fun h => by cases h) ‹_›

/-- The enum-array loop passes only when every set entry is an option. -/
theorem mem_of_checkEnumEntries {options : List String} {pos : Nat} {l : List (Option String)}
    (h : checkEnumEntries options pos l = .ok ()) : ∀ s, some s ∈ l → s ∈ options := by
  induction l generalizing pos with
  | nil => exact fun s hs => absurd hs List.not_mem_nil
  | cons o os ih =>
    intro s hs
    rcases List.mem_cons.1 hs with rfl | hrest
    · simp only [checkEnumEntries] at h
      split at h
      · assumption
      · cases h
    · cases o with
      | some t =>
        simp only [checkEnumEntries] at h
        split at h
        · exact ih h s hrest
        · cases h
      | none => exact ih h s hrest

theorem yaml_sequence {seq : List YamlValue} {strs : List String}
    (h : seq.mapM yamlValueToString = .ok strs) (spec : MlxVariableSpec) :
    IntoMlxValue.yaml (.sequence seq) spec = IntoMlxValue.vecString strs spec := by
  simp only [IntoMlxValue.yaml, h]
  rfl

theorem yaml_boolean (b : Bool) :
    IntoMlxValue.yaml (MlxValueType.boolean b).toYamlValue .boolean = .ok (.boolean b) :=
  rfl

theorem yaml_integer (i : Int64) :
    IntoMlxValue.yaml (MlxValueType.integer i).toYamlValue .integer = .ok (.integer i) := by
  simp only [MlxValueType.toYamlValue, IntoMlxValue.yaml, YamlNumber.asI64_ofI64]
  rfl

theorem yaml_string_iff (s : String) :
    IntoMlxValue.yaml (MlxValueType.string s).toYamlValue .string = .ok (.string s) ↔
      (MlxValueType.string s).survivesYaml = true := by
  show Except.ok (MlxValueType.string (strTrim s)) = _ ↔ _
  simp only [Except.ok.injEq, MlxValueType.string.injEq, MlxValueType.survivesYaml, beq_iff_eq]

theorem yaml_array_iff (arr : List String) :
    IntoMlxValue.yaml (MlxValueType.array arr).toYamlValue .array = .ok (.array arr) ↔
      (MlxValueType.array arr).survivesYaml = true := by
  rw [MlxValueType.toYamlValue, yaml_sequence (IntoMlxValue.mapM_string arr)]
  show Except.ok (MlxValueType.array (arr.map strTrim)) = _ ↔ _
  simp only [Except.ok.injEq, MlxValueType.array.injEq, MlxValueType.survivesYaml, List.all_eq_true,
    beq_iff_eq]
  -- `arr` is `arr.map id`, so the read-back compares each entry with its trim
  conv_lhs => rhs; rw [← List.map_id' arr]
  exact List.map_eq_map_iff

theorem yaml_enum_iff {options : List String} {s : String} (hmem : s ∈ options) :
    IntoMlxValue.yaml (MlxValueType.enum s).toYamlValue (.enum options) = .ok (.enum s) ↔
      (MlxValueType.enum s).survivesYaml = true := by
  simp only [MlxValueType.survivesYaml, beq_iff_eq]
  show (if strTrim s ∈ options then pure (MlxValueType.enum (strTrim s))
    else throw (MlxValueError.invalidEnumOption (strTrim s) options)) = _ ↔ _
  split
  · show Except.ok _ = _ ↔ _
    simp only [Except.ok.injEq, MlxValueType.enum.injEq]
  · rename_i hnot
    exact iff_of_false (fun h => by cases h) (fun h => hnot (by rw [h]; exact hmem))

theorem yaml_preset {p maxPreset : UInt8} (h : p ≤ maxPreset) :
    IntoMlxValue.yaml (MlxValueType.preset p).toYamlValue (.preset maxPreset) = .ok (.preset p) := by
  have hp := p.toNat_lt
  have hsize : (2 : Nat) ^ 8 < UInt64.size := by decide
  have hnat : (UInt64.ofNat p.toNat).toNat = p.toNat := UInt64.toNat_ofNat_of_lt' (by omega)
  simp only [MlxValueType.toYamlValue, IntoMlxValue.yaml, YamlNumber.asU64_preset, hnat,
    UInt8.ofNat_toNat]
  rw [if_pos (by omega)]
  show (if p ≤ maxPreset then pure (MlxValueType.preset p)
    else throw (MlxValueError.presetOutOfRange p maxPreset)) = _
  rw [if_pos h]
  rfl

theorem yaml_booleanArray {size : Nat} {arr : List (Option Bool)} (hlen : arr.length = size) :
    IntoMlxValue.yaml (MlxValueType.booleanArray arr).toYamlValue (.booleanArray size) =
      .ok (.booleanArray arr) := by
  rw [MlxValueType.toYamlValue, yaml_sequence (IntoMlxValue.mapM_orUnset .bool toString (fun _ => rfl) arr)]
  simp only [IntoMlxValue.vecString, List.length_map, checkSize_eq_ok.2 hlen,
    IntoMlxValue.sparseArray_total (by decide) IntoMlxValue.sparseEntry_bool arr]
  rfl

theorem yaml_integerArray {size : Nat} {arr : List (Option Int64)} (hlen : arr.length = size) :
    IntoMlxValue.yaml (MlxValueType.integerArray arr).toYamlValue (.integerArray size) =
      .ok (.integerArray arr) := by
  rw [MlxValueType.toYamlValue, yaml_sequence (IntoMlxValue.mapM_orUnset (fun i => .number (.ofI64 i)) i64String
    (fun i => congrArg Except.ok (YamlNumber.toString_ofI64 i)) arr)]
  simp only [IntoMlxValue.vecString, List.length_map, checkSize_eq_ok.2 hlen,
    IntoMlxValue.sparseArray_total (by decide) IntoMlxValue.sparseEntry_integer arr]
  rfl

theorem yaml_binaryArray {size : Nat} {arr : List (Option (List UInt8))} (hlen : arr.length = size) :
    IntoMlxValue.yaml (MlxValueType.binaryArray arr).toYamlValue (.binaryArray size) =
      .ok (.binaryArray arr) := by
  rw [MlxValueType.toYamlValue, yaml_sequence (IntoMlxValue.mapM_orUnset (fun data => .string (hexString data)) hexString
    (fun _ => rfl) arr)]
  simp only [IntoMlxValue.vecString, List.length_map, checkSize_eq_ok.2 hlen,
    IntoMlxValue.sparseArray_total (by decide) IntoMlxValue.sparseEntry_binary arr]
  rfl

theorem yaml_enumArray_iff {options : List String} {size : Nat} {arr : List (Option String)}
    (hlen : arr.length = size) (hmem : ∀ s, some s ∈ arr → s ∈ options) :
    IntoMlxValue.yaml (MlxValueType.enumArray arr).toYamlValue (.enumArray options size) =
      .ok (.enumArray arr) ↔ (MlxValueType.enumArray arr).survivesYaml = true := by
  rw [MlxValueType.toYamlValue, yaml_sequence (IntoMlxValue.mapM_orUnset .string id (fun _ => rfl) arr)]
  simp only [IntoMlxValue.vecString, List.length_map, checkSize_eq_ok.2 hlen,
    MlxValueType.survivesYaml, List.all_eq_true]
  constructor
  · intro h
    -- the loop read `arr` itself, each entry at some position
    have hread : IntoMlxValue.sparseArray strTrim (IntoMlxValue.enumEntry options) 0
        (arr.map fun o => o.elim "-" id) = .ok arr := by
      revert h
      cases IntoMlxValue.sparseArray strTrim (IntoMlxValue.enumEntry options) 0
        (arr.map fun o => o.elim "-" id) with
      | error e => exact fun h => by cases h
      | ok vs => exact fun h => by cases h; rfl
    have hall := IntoMlxValue.sparseEntry_of_sparseArray hread
    rw [List.forall₂_map_left_iff, List.forall₂_same] at hall
    intro o ho
    cases o with
    | none => rfl
    | some s =>
      obtain ⟨p, hp⟩ := hall (some s) ho
      obtain ⟨htrim, hdash, hempty, -⟩ := IntoMlxValue.sparseEntry_enum_eq_ok.1 hp
      simp only [Bool.and_eq_true, beq_iff_eq, bne_iff_ne, ne_eq]
      exact ⟨⟨htrim, hdash⟩, hempty⟩
  · intro h
    have hentry : ∀ pos, ∀ o ∈ arr, IntoMlxValue.sparseEntry strTrim (IntoMlxValue.enumEntry options)
        pos (o.elim "-" id) = .ok o := by
      intro pos o ho
      cases o with
      | none => exact IntoMlxValue.sparseEntry_dash (by decide) pos
      | some s =>
        have hs := h (some s) ho
        simp only [Bool.and_eq_true, beq_iff_eq, bne_iff_ne, ne_eq] at hs
        exact IntoMlxValue.sparseEntry_enum_eq_ok.2 ⟨hs.1.1, hs.1.2, hs.2, hmem s ho⟩
    rw [IntoMlxValue.sparseArray_eq_ok arr hentry 0, List.map_id']
    rfl

/-- Reading back a valid value's YAML form gives the value exactly when it
survives the trimming of the string converters. -/
theorem yaml_toYamlValue_iff {spec : MlxVariableSpec} {x : MlxValueType}
    (hvalid : validateInternal spec x = .ok ()) :
    IntoMlxValue.yaml x.toYamlValue spec = .ok x ↔ x.survivesYaml = true := by
  -- one case per branch of `validate_internal`; the rejecting ones (8, 10, 16) contradict `hvalid`
  revert hvalid
  fun_cases validateInternal spec x
  case case1 b => exact fun _ => iff_of_true (yaml_boolean b) rfl
  case case2 i => exact fun _ => iff_of_true (yaml_integer i) rfl
  case case3 s => exact fun _ => yaml_string_iff s
  case case4 data => exact fun _ => iff_of_true (readHex_hexString .binary data) rfl
  case case5 data => exact fun _ => iff_of_true (readHex_hexString .bytes data) rfl
  case case6 arr => exact fun _ => yaml_array_iff arr
  case case7 options s hmem => exact fun _ => yaml_enum_iff hmem
  case case9 maxPreset p hp => exact fun _ => iff_of_true (yaml_preset hp) rfl
  case case11 size arr => exact fun h => iff_of_true (yaml_booleanArray (checkSize_eq_ok.1 h)) rfl
  case case12 size arr => exact fun h => iff_of_true (yaml_integerArray (checkSize_eq_ok.1 h)) rfl
  case case13 options size arr =>
    intro h
    -- the size check passed, and then so did the entry loop
    have hlen : arr.length = size := by
      by_contra hne
      rw [show checkSize size arr.length = throw (.arraySizeMismatch size arr.length) from
        if_neg hne] at h
      cases h
    rw [checkSize_eq_ok.2 hlen] at h
    exact yaml_enumArray_iff hlen (mem_of_checkEnumEntries h)
  case case14 size arr => exact fun h => iff_of_true (yaml_binaryArray (checkSize_eq_ok.1 h)) rfl
  case case15 data => exact fun _ => iff_of_true (readHex_hexString .opaqueBytes data) rfl
  all_goals exact fun h => by cases h

theorem new_eq_ok_iff {v : MlxConfigVariable} {x : MlxValueType} {c : MlxConfigValue} :
    MlxConfigValue.new v x = .ok c ↔ validateInternal v.spec x = .ok () ∧ c = ⟨v, x⟩ := by
  unfold MlxConfigValue.new
  cases validateInternal v.spec x with
  | error e => exact iff_of_false (fun h => by cases h) (fun ⟨h, _⟩ => by cases h)
  | ok u =>
    show Except.ok _ = _ ↔ _
    simp only [Except.ok.injEq, true_and]
    exact eq_comm

theorem withYaml_eq_ok_iff {v : MlxConfigVariable} {y : YamlValue} {c : MlxConfigValue} :
    v.withYaml y = .ok c ↔ ∃ x, IntoMlxValue.yaml y v.spec = .ok x ∧ MlxConfigValue.new v x = .ok c := by
  unfold MlxConfigVariable.withYaml
  cases IntoMlxValue.yaml y v.spec with
  | error e => exact iff_of_false (fun h => by cases h) (fun ⟨_, h, _⟩ => by cases h)
  | ok x =>
    show MlxConfigValue.new v x = _ ↔ _
    simp only [Except.ok.injEq, exists_eq_left']

/-- A valid config value reads back from its YAML form, through the spec's
converter and again through `variable.with`, exactly when it survives the
trimming of the string converters. -/
theorem yaml_roundtrip_iff {v : MlxConfigVariable} {x : MlxValueType}
    (hvalid : MlxConfigValue.new v x = .ok ⟨v, x⟩) :
    (IntoMlxValue.yaml x.toYamlValue v.spec = .ok x ↔ x.survivesYaml = true) ∧
      (v.withYaml x.toYamlValue = .ok ⟨v, x⟩ ↔ x.survivesYaml = true) := by
  have hspec := yaml_toYamlValue_iff (new_eq_ok_iff.1 hvalid).1
  refine ⟨hspec, ?_⟩
  rw [withYaml_eq_ok_iff, ← hspec]
  constructor
  · -- `with` keeps the variable, so the value it built is `x` itself
    rintro ⟨x', hx', hnew⟩
    obtain ⟨-, hc⟩ := new_eq_ok_iff.1 hnew
    cases hc
    exact hx'
  · exact fun hx => ⟨x, hx, hvalid⟩

theorem yaml_roundtrip_iff_enumArray :
    MlxConfigValue.new ⟨"PORT_MODES", "", false, .enumArray ["low", "high"] 2⟩
        (.enumArray [some "high", none]) =
      .ok ⟨⟨"PORT_MODES", "", false, .enumArray ["low", "high"] 2⟩, .enumArray [some "high", none]⟩ ∧
    ((IntoMlxValue.yaml (MlxValueType.enumArray [some "high", none]).toYamlValue
        (.enumArray ["low", "high"] 2) = .ok (.enumArray [some "high", none]) ↔
      (MlxValueType.enumArray [some "high", none]).survivesYaml = true) ∧
    (MlxConfigVariable.withYaml ⟨"PORT_MODES", "", false, .enumArray ["low", "high"] 2⟩
        (MlxValueType.enumArray [some "high", none]).toYamlValue =
      .ok ⟨⟨"PORT_MODES", "", false, .enumArray ["low", "high"] 2⟩, .enumArray [some "high", none]⟩ ↔
      (MlxValueType.enumArray [some "high", none]).survivesYaml = true)) :=
  ⟨rfl, @yaml_roundtrip_iff ⟨"PORT_MODES", "", false, .enumArray ["low", "high"] 2⟩
    (.enumArray [some "high", none]) rfl⟩

/-- A valid string with a leading blank reads back trimmed, and valid enum-array
entries `-` and empty read back unset. -/
theorem yaml_roundtrip_trims :
    MlxConfigValue.new ⟨"NAME", "", false, .string⟩ (.string " x") =
      .ok ⟨⟨"NAME", "", false, .string⟩, .string " x"⟩ ∧
    IntoMlxValue.yaml (MlxValueType.string " x").toYamlValue .string = .ok (.string "x") ∧
    MlxConfigValue.new ⟨"MODES", "", false, .enumArray ["-", ""] 2⟩ (.enumArray [some "-", some ""]) =
      .ok ⟨⟨"MODES", "", false, .enumArray ["-", ""] 2⟩, .enumArray [some "-", some ""]⟩ ∧
    IntoMlxValue.yaml (MlxValueType.enumArray [some "-", some ""]).toYamlValue (.enumArray ["-", ""] 2) =
      .ok (.enumArray [none, none]) :=
  ⟨rfl, rfl, rfl, rfl⟩

/-! ## The converters keep to the spec -/

/-- What `validate_internal` accepts: a value of the spec's variant, an enum
value among the options, a preset at most the maximum, an array of the spec's
size whose set enum entries are options. -/
def Fits : MlxVariableSpec → MlxValueType → Prop
  | .boolean, .boolean _ | .integer, .integer _ | .string, .string _ | .binary, .binary _
  | .bytes, .bytes _ | .array, .array _ | .opaqueBytes, .opaqueBytes _ => True
  | .enum options, .enum value => value ∈ options
  | .preset maxPreset, .preset value => value ≤ maxPreset
  | .booleanArray size, .booleanArray arr => arr.length = size
  | .integerArray size, .integerArray arr => arr.length = size
  | .enumArray options size, .enumArray arr => arr.length = size ∧ ∀ s, some s ∈ arr → s ∈ options
  | .binaryArray size, .binaryArray arr => arr.length = size
  | _, _ => False

theorem fits_of_validateInternal {spec : MlxVariableSpec} {x : MlxValueType}
    (h : validateInternal spec x = .ok ()) : Fits spec x := by
  -- the accepting branches of `validate_internal`; the others throw
  revert h
  fun_cases validateInternal spec x
  case case1 | case2 | case3 | case4 | case5 | case6 | case15 => exact fun _ => trivial
  case case7 options value hmem => exact fun _ => hmem
  case case9 maxPreset value hp => exact fun _ => hp
  case case11 size arr | case12 size arr | case14 size arr => exact checkSize_eq_ok.1
  case case13 options size arr =>
    intro h
    obtain ⟨u, hsize, hentries⟩ := Except.bind_eq_ok h
    exact ⟨checkSize_eq_ok.1 hsize, mem_of_checkEnumEntries hentries⟩
  all_goals exact fun h => by cases h

/-- The enum-array loop passes when every set entry is an option. -/
theorem checkEnumEntries_of_mem {options : List String} {l : List (Option String)}
    (h : ∀ s, some s ∈ l → s ∈ options) (pos : Nat) : checkEnumEntries options pos l = .ok () := by
  induction l generalizing pos with
  | nil => rfl
  | cons o os ih =>
    have hrest : ∀ s, some s ∈ os → s ∈ options := fun s hs => h s (List.mem_cons_of_mem o hs)
    cases o with
    | some s =>
      show (if s ∈ options then checkEnumEntries options (pos + 1) os else _) = _
      rw [if_pos (h s List.mem_cons_self), ih hrest]
    | none => exact ih hrest (pos + 1)

theorem IntoMlxValue.sparseArray_length {α : Type} {normalize : String → String}
    {entry : Nat → String → String → Except MlxValueError α} {strs : List String}
    {values : List (Option α)} {pos : Nat} (h : IntoMlxValue.sparseArray normalize entry pos strs = .ok values) :
    values.length = strs.length :=
  (IntoMlxValue.sparseEntry_of_sparseArray h).length_eq.symm

theorem forall₂_exists_of_mem_right {α β : Type} {R : α → β → Prop} :
    ∀ {l₁ : List α} {l₂ : List β}, List.Forall₂ R l₁ l₂ → ∀ b ∈ l₂, ∃ a ∈ l₁, R a b
  | _, _, .nil, _, hb => absurd hb List.not_mem_nil
  | a :: _, _ :: _, .cons hab hrest, b, hb => by
    rcases List.mem_cons.1 hb with rfl | hb
    · exact ⟨a, List.mem_cons_self, hab⟩
    · obtain ⟨a', ha', h'⟩ := forall₂_exists_of_mem_right hrest b hb
      exact ⟨a', List.mem_cons_of_mem _ ha', h'⟩

/-- Every value the converter returns for a spec passes that spec's validation. -/
def ConvertsValid {T : Type} (into : T → MlxVariableSpec → Except MlxValueError MlxValueType) : Prop :=
  ∀ (value : T) (spec : MlxVariableSpec) (x : MlxValueType),
    into value spec = .ok x → validateInternal spec x = .ok ()

theorem validateInternal_preset {maxPreset value : UInt8} (h : value ≤ maxPreset) :
    validateInternal (.preset maxPreset) (.preset value) = .ok () := by
  show (if value ≤ maxPreset then pure () else throw _) = _
  rw [if_pos h]
  rfl

theorem validateInternal_enum {options : List String} {value : String} (h : value ∈ options) :
    validateInternal (.enum options) (.enum value) = .ok () := by
  show (if value ∈ options then pure () else throw _) = _
  rw [if_pos h]
  rfl

theorem validateInternal_enumArray {options : List String} {size : Nat} {arr : List (Option String)}
    (hlen : arr.length = size) (hmem : ∀ s, some s ∈ arr → s ∈ options) :
    validateInternal (.enumArray options size) (.enumArray arr) = .ok () := by
  show (do checkSize size arr.length; checkEnumEntries options 0 arr) = _
  rw [checkSize_eq_ok.2 hlen]
  exact checkEnumEntries_of_mem hmem 0

namespace IntoMlxValue

theorem convertsValid_bool : ConvertsValid bool := by
  intro b spec x h
  unfold bool at h
  split at h
  · cases h
    rfl
  · cases h

theorem convertsValid_i64 : ConvertsValid i64 := by
  intro i spec x h
  unfold i64 at h
  dsimp only at h
  split at h
  · cases h
    rfl
  · -- a preset in range: negative and large values are rejected first
    split at h
    · cases h
    · split at h
      · cases h
      · split at h
        · cases h
          exact validateInternal_preset ‹_›
        · cases h
  · cases h

theorem convertsValid_i32 : ConvertsValid i32 := fun v => convertsValid_i64 v.toInt64

theorem convertsValid_u8 : ConvertsValid u8 := by
  intro p spec x h
  -- read the body without its equation lemmas, one spec at a time
  delta u8 at h
  cases spec <;> dsimp only at h
  case preset maxPreset =>
    split at h
    · cases h; exact validateInternal_preset ‹_›
    · cases h
  case integer => cases h; rfl
  all_goals cases h

theorem readHex_eq_ok {wrap : List UInt8 → MlxValueType} {trimmed : String} {x : MlxValueType}
    (h : readHex wrap trimmed = .ok x) : ∃ bytes, x = wrap bytes := by
  unfold readHex at h
  split at h
  · cases h
    exact ⟨_, rfl⟩
  · cases h

theorem convertsValid_string : ConvertsValid string := by
  intro self spec x h
  -- read the body without its equation lemmas, one spec at a time
  delta string at h
  cases spec <;> dsimp only at h
  case string => cases h; rfl
  case enum options =>
    split at h
    · cases h; exact validateInternal_enum ‹_›
    · cases h
  case boolean | integer =>
    split at h
    · cases h; rfl
    · cases h
  case preset maxPreset =>
    split at h
    · cases h
    · split at h
      · cases h; exact validateInternal_preset ‹_›
      · cases h
  case binary | bytes | opaqueBytes =>
    obtain ⟨bytes, rfl⟩ := readHex_eq_ok h
    rfl
  all_goals cases h

theorem convertsValid_str : ConvertsValid str := convertsValid_string

theorem convertsValid_vecU8 : ConvertsValid vecU8 := by
  intro self spec x h
  unfold vecU8 at h
  split at h <;> cases h <;> rfl

/-- A member of the array family is sound when its wrapper fits every array of
the size its spec asks for. -/
theorem sparseInto_valid {α : Type} {arraySize : MlxVariableSpec → Option Nat}
    {wrap : List (Option α) → MlxValueType} {typeName : String}
    (hfit : ∀ spec size (arr : List (Option α)), arraySize spec = some size → arr.length = size →
      validateInternal spec (wrap arr) = .ok ())
    {self : List (Option α)} {spec : MlxVariableSpec} {x : MlxValueType}
    (h : sparseInto arraySize wrap typeName self spec = .ok x) : validateInternal spec x = .ok () := by
  unfold sparseInto at h
  split at h
  · rename_i size hsize
    split at h
    · cases h
      exact hfit spec size self hsize ‹_›
    · cases h
  · cases h

theorem booleanArray_fits : ∀ spec size (arr : List (Option Bool)), booleanArraySize spec = some size →
    arr.length = size → validateInternal spec (.booleanArray arr) = .ok () := by
  intro spec size arr hs hl
  cases spec <;> cases hs
  exact checkSize_eq_ok.2 hl

theorem integerArray_fits : ∀ spec size (arr : List (Option Int64)), integerArraySize spec = some size →
    arr.length = size → validateInternal spec (.integerArray arr) = .ok () := by
  intro spec size arr hs hl
  cases spec <;> cases hs
  exact checkSize_eq_ok.2 hl

theorem binaryArray_fits : ∀ spec size (arr : List (Option (List UInt8))),
    binaryArraySize spec = some size → arr.length = size →
      validateInternal spec (.binaryArray arr) = .ok () := by
  intro spec size arr hs hl
  cases spec <;> cases hs
  exact checkSize_eq_ok.2 hl

theorem convertsValid_vecBool : ConvertsValid vecBool := fun _ _ _ => sparseInto_valid booleanArray_fits

theorem convertsValid_vecOptionBool : ConvertsValid vecOptionBool := fun _ _ _ =>
  sparseInto_valid booleanArray_fits

theorem convertsValid_vecI64 : ConvertsValid vecI64 := fun _ _ _ => sparseInto_valid integerArray_fits

theorem convertsValid_vecOptionI64 : ConvertsValid vecOptionI64 := fun _ _ _ =>
  sparseInto_valid integerArray_fits

theorem convertsValid_vecI32 : ConvertsValid vecI32 := fun v => convertsValid_vecI64 (v.map Int32.toInt64)

theorem convertsValid_vecVecU8 : ConvertsValid vecVecU8 := fun _ _ _ => sparseInto_valid binaryArray_fits

theorem convertsValid_vecOptionVecU8 : ConvertsValid vecOptionVecU8 := fun _ _ _ =>
  sparseInto_valid binaryArray_fits

theorem convertsValid_vecString : ConvertsValid vecString := by
  intro self spec x h
  unfold vecString at h
  split at h
  · cases h
    rfl
  -- each sparse array: the size check passed, and the loop keeps the length
  · obtain ⟨u, hsize, h⟩ := Except.bind_eq_ok h
    obtain ⟨values, hvals, rfl⟩ := Except.map_eq_ok h
    exact checkSize_eq_ok.2 ((sparseArray_length hvals).trans (checkSize_eq_ok.1 hsize))
  · obtain ⟨u, hsize, h⟩ := Except.bind_eq_ok h
    obtain ⟨values, hvals, rfl⟩ := Except.map_eq_ok h
    exact checkSize_eq_ok.2 ((sparseArray_length hvals).trans (checkSize_eq_ok.1 hsize))
  · rename_i options size
    obtain ⟨u, hsize, h⟩ := Except.bind_eq_ok h
    obtain ⟨values, hvals, rfl⟩ := Except.map_eq_ok h
    -- every set entry was read by `enumEntry`, which returns only options
    have hmem : ∀ s, some s ∈ values → s ∈ options := by
      intro s hs
      obtain ⟨str, -, p, hp⟩ := forall₂_exists_of_mem_right (sparseEntry_of_sparseArray hvals) _ hs
      exact (sparseEntry_enum_eq_ok.1 hp).2.2.2
    exact validateInternal_enumArray ((sparseArray_length hvals).trans (checkSize_eq_ok.1 hsize)) hmem
  · obtain ⟨u, hsize, h⟩ := Except.bind_eq_ok h
    obtain ⟨values, hvals, rfl⟩ := Except.map_eq_ok h
    exact checkSize_eq_ok.2 ((sparseArray_length hvals).trans (checkSize_eq_ok.1 hsize))
  · cases h

theorem convertsValid_vecStr : ConvertsValid vecStr := convertsValid_vecString

theorem convertsValid_vecOptionString : ConvertsValid vecOptionString := by
  intro self spec x h
  unfold vecOptionString at h
  split at h
  · obtain ⟨u, hsize, h⟩ := Except.bind_eq_ok h
    obtain ⟨v, hentries, h⟩ := Except.bind_eq_ok h
    cases h
    exact validateInternal_enumArray (checkSize_eq_ok.1 hsize) (mem_of_checkEnumEntries hentries)
  · cases h

theorem convertsValid_yaml : ConvertsValid yaml := by
  intro y spec x h
  unfold yaml at h
  split at h
  · exact convertsValid_bool _ _ _ h
  · -- numbers go to the `u8` converter for a preset and to the `i64` one otherwise
    split at h
    · split at h
      · split at h
        · exact convertsValid_u8 _ _ _ h
        · cases h
      · cases h
    · split at h
      · exact convertsValid_i64 _ _ _ h
      · cases h
  · exact convertsValid_string _ _ _ h
  · obtain ⟨strs, -, h⟩ := Except.bind_eq_ok h
    exact convertsValid_vecString _ _ _ h
  · cases h

end IntoMlxValue

theorem withValue_of_convertsValid {T : Type}
    {into : T → MlxVariableSpec → Except MlxValueError MlxValueType} (hv : ConvertsValid into)
    {var : MlxConfigVariable} {value : T} {x : MlxValueType} (h : into value var.spec = .ok x) :
    var.withValue into value = .ok ⟨var, x⟩ := by
  unfold MlxConfigVariable.withValue
  rw [h]
  exact new_eq_ok_iff.2 ⟨hv value var.spec x h, rfl⟩

/-- Every `IntoMlxValue` converter returns only values that pass validation: for
every spec and every input of each of the sixteen implementations, a value the
converter returns is accepted by `validate_internal`. So `MlxConfigVariable::with`
never fails in its validation step after a successful conversion, and what it
returns fits the spec: an enum value among the options, a preset at most the
maximum, an array of the spec's size with every set enum entry an option. -/
theorem converters_produce_valid_values :
    ConvertsValid IntoMlxValue.bool ∧ ConvertsValid IntoMlxValue.i64 ∧
    ConvertsValid IntoMlxValue.i32 ∧ ConvertsValid IntoMlxValue.u8 ∧
    ConvertsValid IntoMlxValue.string ∧ ConvertsValid IntoMlxValue.str ∧
    ConvertsValid IntoMlxValue.vecU8 ∧ ConvertsValid IntoMlxValue.vecBool ∧
    ConvertsValid IntoMlxValue.vecOptionBool ∧ ConvertsValid IntoMlxValue.vecI64 ∧
    ConvertsValid IntoMlxValue.vecOptionI64 ∧ ConvertsValid IntoMlxValue.vecI32 ∧
    ConvertsValid IntoMlxValue.vecString ∧ ConvertsValid IntoMlxValue.vecStr ∧
    ConvertsValid IntoMlxValue.vecOptionString ∧ ConvertsValid IntoMlxValue.vecVecU8 ∧
    ConvertsValid IntoMlxValue.vecOptionVecU8 ∧ ConvertsValid IntoMlxValue.yaml ∧
    ∀ {T : Type} (into : T → MlxVariableSpec → Except MlxValueError MlxValueType), ConvertsValid into →
      ∀ (var : MlxConfigVariable) (value : T) (x : MlxValueType), into value var.spec = .ok x →
        var.withValue into value = .ok ⟨var, x⟩ ∧ Fits var.spec x := by
  refine ⟨IntoMlxValue.convertsValid_bool, IntoMlxValue.convertsValid_i64,
    IntoMlxValue.convertsValid_i32, IntoMlxValue.convertsValid_u8, IntoMlxValue.convertsValid_string,
    IntoMlxValue.convertsValid_str, IntoMlxValue.convertsValid_vecU8, IntoMlxValue.convertsValid_vecBool,
    IntoMlxValue.convertsValid_vecOptionBool, IntoMlxValue.convertsValid_vecI64,
    IntoMlxValue.convertsValid_vecOptionI64, IntoMlxValue.convertsValid_vecI32,
    IntoMlxValue.convertsValid_vecString, IntoMlxValue.convertsValid_vecStr,
    IntoMlxValue.convertsValid_vecOptionString, IntoMlxValue.convertsValid_vecVecU8,
    IntoMlxValue.convertsValid_vecOptionVecU8, IntoMlxValue.convertsValid_yaml, ?_⟩
  intro T into hv var value x h
  exact ⟨withValue_of_convertsValid hv h, fits_of_validateInternal (hv value var.spec x h)⟩

end Carbide.Mlx

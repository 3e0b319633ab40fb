import Carbide.Lib.Base32
import Carbide.Lib.Utf8

/-!
# Machine and switch ids (`crates/uuid/src/{machine,switch}/mod.rs`)

A `MachineId` or `SwitchId` is a hardware source, a type and the unpadded
base32hex (`BASE32_DNSSEC`) encoding of a 32-byte hardware hash. Its text
is a five-byte tag (`fm100`, `sw100`), the type's id char, the source's id
char and the 52 symbols of the hash; `FromStr` checks the length (59
bytes), the tag, the encoding, then reads the two id chars back, and `Ord`
compares the texts. The two ids differ only in their tag and enums, so the
shared shape is `HardwareId` over an `IdFormat`, and each source type keeps
its own definitions as that shape at its own values.

* `fromStr_toString`: the text of any id parses back to it;
* `toString_injective`, `HardwareId.cmp`'s `TransCmp` and `LawfulEqCmp`: the
  order by text is a total order whose equality is the derived one;
* `toString_of_fromStr`: a parsed text with no upper-case letter in its
  payload is the parsed id's own text;
* `ids_text_case_insensitive`: the payload is read in either case and
  printed lowered, so accepted texts name one id exactly when they agree
  once lowered.
-/
namespace Carbide.Uuid
open Carbide.Lib

/-- mirrors machine/mod.rs:460-467 (`MachineIdParseError`), switch/mod.rs:337-344. -/
inductive IdParseError
  /-- `"the machine ID has an invalid length of {0}"` -/
  | Length (len : Nat)
  /-- `"the machine ID {0} has an invalid prefix"` -/
  | Prefix (s : List UInt8)
  /-- `"the machine ID {0} has an invalid encoding"` -/
  | Encoding (s : List UInt8)
  deriving DecidableEq, Repr

/-- mirrors machine/mod.rs:446, switch/mod.rs:324: the tag and the two id chars. -/
def idPrefixLength : Nat := 7

/-- mirrors machine/mod.rs:451, switch/mod.rs:329. -/
def hardwareIdBase32Length : Nat := 52

/-- mirrors machine/mod.rs:456-457, switch/mod.rs:334. -/
def idLength : Nat := idPrefixLength + hardwareIdBase32Length

/-- What the shared `Display`/`FromStr` code takes from each id type: the tag,
and the id chars of the two enums with their readers. The fields after the
data are what the code relies on: a five-byte tag, and ASCII id chars from
the base32hex alphabet that `from_id_char` reads back and reads nothing else
as. -/
structure IdFormat (Src Ty : Type) where
  tag : List UInt8
  tyIdChar : Ty → Char
  tyFromIdChar : Char → Option Ty
  srcIdChar : Src → Char
  srcFromIdChar : Char → Option Src
  tag_length : tag.length = 5
  tyIdChar_ascii : ∀ t, (tyIdChar t).toNat < 128 ∧ isBase32hexLower (tyIdChar t).toUInt8 = true
  srcIdChar_ascii : ∀ s, (srcIdChar s).toNat < 128 ∧ isBase32hexLower (srcIdChar s).toUInt8 = true
  tyFromIdChar_iff : ∀ c t, tyFromIdChar c = some t ↔ c = tyIdChar t
  srcFromIdChar_iff : ∀ c s, srcFromIdChar c = some s ↔ c = srcIdChar s

/-- mirrors machine/mod.rs:75-83, switch/mod.rs:61-69. `hardware_id` is private
and only `new` sets it, from the encoding of a hash; the last field records that. -/
@[ext] structure HardwareId (Src Ty : Type) where
  source : Src
  hardwareId : List UInt8
  ty : Ty
  encoded : ∃ h : Vector UInt8 32, hardwareId = base32Encode h.toList
  deriving DecidableEq

namespace HardwareId

variable {Src Ty : Type}

/-- mirrors machine/mod.rs:243-254, switch/mod.rs:159-170. -/
def new (source : Src) (hardwareHash : Vector UInt8 32) (ty : Ty) : HardwareId Src Ty :=
  ⟨source, base32Encode hardwareHash.toList, ty, ⟨hardwareHash, rfl⟩⟩

/-- mirrors machine/mod.rs:428-443, switch/mod.rs:290-305: the tag, `ty.id_char()`,
`source.id_char()`, the payload. -/
def toString (F : IdFormat Src Ty) (id : HardwareId Src Ty) : List UInt8 :=
  F.tag ++ String.utf8EncodeChar (F.tyIdChar id.ty) ++ String.utf8EncodeChar (F.srcIdChar id.source)
    ++ id.hardwareId

/-- mirrors machine/mod.rs:469-498, switch/mod.rs:346-375: the byte length, the
tag, the payload's encoding and decoded size, then the id chars at bytes 5 and 6. -/
def fromStr (F : IdFormat Src Ty) (s : List UInt8) : Except IdParseError (HardwareId Src Ty) :=
  if s.length ≠ idLength then .error (.Length s.length)
  else if !F.tag.isPrefixOf s then .error (.Prefix s)
  else match base32Decode (s.drop idPrefixLength) with
    | none => .error (.Encoding s)
    | some hash =>
      if hl : hash.length = 32 then
        match F.tyFromIdChar (Char.ofNat (s.getD 5 0).toNat) with
        | none => .error (.Prefix s)
        | some ty =>
          match F.srcFromIdChar (Char.ofNat (s.getD 6 0).toNat) with
          | none => .error (.Prefix s)
          | some source => .ok (new source ⟨hash.toArray, by simpa using hl⟩ ty)
      else .error (.Encoding s)

/-- mirrors machine/mod.rs:85-89, switch/mod.rs:71-75: compare the texts, byte by byte. -/
def cmp (F : IdFormat Src Ty) (a b : HardwareId Src Ty) : Ordering :=
  compare (a.toString F) (b.toString F)

/-- The text with its payload lowered to ASCII lower case: the tag and the two
id chars are kept, what `decode_mut` reads is lowered. -/
def lowerPayload (s : List UInt8) : List UInt8 :=
  s.take idPrefixLength ++ (s.drop idPrefixLength).map toAsciiLower

section Laws

variable (F : IdFormat Src Ty)

theorem toString_eq (id : HardwareId Src Ty) :
    id.toString F = F.tag ++ (F.tyIdChar id.ty).toUInt8 :: (F.srcIdChar id.source).toUInt8 ::
      id.hardwareId := by
  rw [toString, utf8EncodeChar_of_lt (F.tyIdChar_ascii _).1,
    utf8EncodeChar_of_lt (F.srcIdChar_ascii _).1]
  simp

/-- `assert_eq!(encoded.len(), 52)` in `new` never fires. -/
theorem length_hardwareId (id : HardwareId Src Ty) :
    id.hardwareId.length = hardwareIdBase32Length := by
  obtain ⟨h, hh⟩ := id.encoded
  rw [hh, length_base32Encode, Vector.length_toList]
  rfl

theorem length_toString (id : HardwareId Src Ty) : (id.toString F).length = idLength := by
  rw [toString_eq, List.length_append, F.tag_length, List.length_cons, List.length_cons,
    length_hardwareId]
  rfl

theorem toString_eq_tag_append (id : HardwareId Src Ty) :
    id.toString F = F.tag ++ (id.toString F).drop 5 := by
  rw [toString_eq, ← F.tag_length, List.drop_left]

theorem tag_isPrefixOf_toString (id : HardwareId Src Ty) : F.tag.isPrefixOf (id.toString F) = true := by
  rw [toString_eq, List.isPrefixOf_iff_prefix]
  exact List.prefix_append _ _

/-- After the tag, the text is symbols of the lower-case base32hex alphabet. -/
theorem isBase32hexLower_of_mem_drop_toString (id : HardwareId Src Ty) :
    ∀ c ∈ (id.toString F).drop 5, isBase32hexLower c = true := by
  obtain ⟨h, hh⟩ := id.encoded
  intro c hc
  rw [toString_eq, ← F.tag_length, List.drop_left, List.mem_cons, List.mem_cons, hh] at hc
  rcases hc with rfl | rfl | hc
  · exact (F.tyIdChar_ascii _).2
  · exact (F.srcIdChar_ascii _).2
  · exact isBase32hexLower_of_mem_base32Encode hc

/-- The bytes after a five-byte tag: the two id chars and the payload. -/
theorem getD_drop_of_tag {tag r : List UInt8} {a b : UInt8} (ht : tag.length = 5) :
    (tag ++ a :: b :: r).getD 5 0 = a ∧ (tag ++ a :: b :: r).getD 6 0 = b ∧
      (tag ++ a :: b :: r).drop idPrefixLength = r := by
  refine ⟨?_, ?_, ?_⟩
  · rw [List.getD_eq_getElem?_getD, List.getElem?_append_right (by omega), ht]
    rfl
  · rw [List.getD_eq_getElem?_getD, List.getElem?_append_right (by omega), ht]
    rfl
  · simp [List.drop_append, ht, idPrefixLength]

/-- Everything a successful parse says: the checks it passed, and the id it
built from the decoded hash and the two id chars. -/
theorem fromStr_eq_ok_iff {s : List UInt8} {id : HardwareId Src Ty} :
    fromStr F s = .ok id ↔ s.length = idLength ∧ F.tag.isPrefixOf s = true ∧
      (∃ hash, base32Decode (s.drop idPrefixLength) = some hash ∧ hash.length = 32 ∧
        id.hardwareId = base32Encode hash) ∧
      F.tyFromIdChar (Char.ofNat (s.getD 5 0).toNat) = some id.ty ∧
      F.srcFromIdChar (Char.ofNat (s.getD 6 0).toNat) = some id.source := by
  unfold fromStr
  by_cases hlen : s.length = idLength
  case neg => simp [hlen]
  by_cases hpre : F.tag.isPrefixOf s = true
  case neg => simp [hlen, hpre]
  rw [if_neg (not_not.2 hlen), if_neg (by simp [hpre])]
  cases hd : base32Decode (s.drop idPrefixLength) with
  | none => simp
  | some hash =>
    simp only [Option.some.injEq, exists_eq_left']
    by_cases hl : hash.length = 32
    case neg => simp [hl]
    rw [dif_pos hl]
    cases ht : F.tyFromIdChar (Char.ofNat (s.getD 5 0).toNat) with
    | none => simp
    | some ty =>
      cases hs : F.srcFromIdChar (Char.ofNat (s.getD 6 0).toNat) with
      | none => simp
      | some source =>
        constructor
        · intro h
          cases h
          exact ⟨hlen, hpre, ⟨hl, by simp [new]⟩, rfl, rfl⟩
        · rintro ⟨-, -, ⟨-, he⟩, hty, hsrc⟩
          obtain rfl := Option.some.inj hty
          obtain rfl := Option.some.inj hsrc
          exact congrArg Except.ok (HardwareId.ext rfl (by simp [new, he]) rfl)

/-- The text of every id parses back to it. -/
theorem fromStr_toString (id : HardwareId Src Ty) : fromStr F (id.toString F) = .ok id := by
  obtain ⟨h, hh⟩ := id.encoded
  obtain ⟨h5, h6, hdrop⟩ := getD_drop_of_tag (a := (F.tyIdChar id.ty).toUInt8)
    (b := (F.srcIdChar id.source).toUInt8) (r := id.hardwareId) F.tag_length
  rw [← toString_eq] at h5 h6 hdrop
  refine (fromStr_eq_ok_iff F).2 ⟨length_toString F id, tag_isPrefixOf_toString F id,
    ⟨h.toList, ?_, by simp, hh⟩, ?_, ?_⟩
  · rw [hdrop, hh, base32Decode_base32Encode]
  · rw [h5, ofNat_toNat_toUInt8 (by have := (F.tyIdChar_ascii id.ty).1; omega)]
    exact (F.tyFromIdChar_iff _ _).2 rfl
  · rw [h6, ofNat_toNat_toUInt8 (by have := (F.srcIdChar_ascii id.source).1; omega)]
    exact (F.srcFromIdChar_iff _ _).2 rfl

theorem toString_injective : Function.Injective (toString F) := by
  intro a b h
  have := fromStr_toString F b
  rwa [← h, fromStr_toString, Except.ok.injEq] at this

/-- A parsed text whose payload has no upper-case letter is the text of the
id it parses to: `toString` gives back the lower-case symbols it read. -/
theorem toString_of_fromStr {s : List UInt8} {id : HardwareId Src Ty} (h : fromStr F s = .ok id)
    (hs : ∀ c ∈ s.drop idPrefixLength, isAsciiUppercase c = false) : id.toString F = s := by
  obtain ⟨hlen, hpre, ⟨hash, hd, -, he⟩, hty, hsrc⟩ := (fromStr_eq_ok_iff F).1 h
  obtain ⟨rest, rfl⟩ := List.isPrefixOf_iff_prefix.1 hpre
  have hrest : rest.length = 54 := by
    rw [List.length_append, F.tag_length] at hlen
    simp only [idLength, idPrefixLength, hardwareIdBase32Length] at hlen
    omega
  rcases rest with _ | ⟨a, _ | ⟨b, r⟩⟩
  case nil => simp at hrest
  case cons.nil => simp at hrest
  obtain ⟨h5, h6, hdrop⟩ := getD_drop_of_tag (a := a) (b := b) (r := r) F.tag_length
  rw [h5, F.tyFromIdChar_iff] at hty
  rw [h6, F.srcFromIdChar_iff] at hsrc
  rw [hdrop] at hd hs
  rw [toString_eq, ← hty, ← hsrc, toUInt8_ofNat_toNat, toUInt8_ofNat_toNat, he,
    base32Encode_base32Decode hs hd]

/-- An accepted text is the tag, two id chars and the payload. -/
theorem eq_tag_append_of_fromStr {s : List UInt8} {id : HardwareId Src Ty}
    (h : fromStr F s = .ok id) : ∃ a b r, s = F.tag ++ a :: b :: r := by
  obtain ⟨hlen, hpre, -⟩ := (fromStr_eq_ok_iff F).1 h
  obtain ⟨rest, rfl⟩ := List.isPrefixOf_iff_prefix.1 hpre
  have hrest : 2 ≤ rest.length := by
    rw [List.length_append, F.tag_length] at hlen
    simp only [idLength, idPrefixLength, hardwareIdBase32Length] at hlen
    omega
  rcases rest with _ | ⟨a, _ | ⟨b, r⟩⟩
  case nil => simp at hrest
  case cons.nil => simp at hrest
  exact ⟨a, b, r, rfl⟩

theorem lowerPayload_tag_append {a b : UInt8} {r : List UInt8} :
    lowerPayload (F.tag ++ a :: b :: r) = F.tag ++ a :: b :: r.map toAsciiLower := by
  obtain ⟨-, -, hdrop⟩ := getD_drop_of_tag (a := a) (b := b) (r := r) F.tag_length
  have htake : (F.tag ++ a :: b :: r).take idPrefixLength = F.tag ++ [a, b] := by
    simp [List.take_append, List.take_of_length_le, F.tag_length, idPrefixLength]
  rw [lowerPayload, hdrop, htake, List.append_assoc]
  rfl

/-- The text of a parsed id is the parsed text with its payload lowered:
`decode_mut` reads either case of a letter, `encode` writes the lower one. -/
theorem toString_of_fromStr_eq_lowerPayload {s : List UInt8} {id : HardwareId Src Ty}
    (h : fromStr F s = .ok id) : id.toString F = lowerPayload s := by
  obtain ⟨a, b, r, rfl⟩ := eq_tag_append_of_fromStr F h
  obtain ⟨-, -, ⟨hash, hd, -, he⟩, hty, hsrc⟩ := (fromStr_eq_ok_iff F).1 h
  obtain ⟨h5, h6, hdrop⟩ := getD_drop_of_tag (a := a) (b := b) (r := r) F.tag_length
  rw [h5, F.tyFromIdChar_iff] at hty
  rw [h6, F.srcFromIdChar_iff] at hsrc
  rw [hdrop] at hd
  rw [lowerPayload_tag_append, toString_eq, ← hty, ← hsrc, toUInt8_ofNat_toNat,
    toUInt8_ofNat_toNat, he, base32Encode_of_base32Decode hd]

/-- Lowering an accepted text's payload does not change the id it parses to. -/
theorem fromStr_lowerPayload {s : List UInt8} {id : HardwareId Src Ty}
    (h : fromStr F s = .ok id) : fromStr F (lowerPayload s) = .ok id := by
  rw [← toString_of_fromStr_eq_lowerPayload F h, fromStr_toString]

/-- Two accepted texts parse to one id exactly when they agree once their
payloads are lowered. -/
theorem eq_iff_lowerPayload_of_fromStr {s t : List UInt8} {a b : HardwareId Src Ty}
    (hs : fromStr F s = .ok a) (ht : fromStr F t = .ok b) :
    a = b ↔ lowerPayload s = lowerPayload t := by
  rw [← toString_of_fromStr_eq_lowerPayload F hs, ← toString_of_fromStr_eq_lowerPayload F ht]
  exact (toString_injective F).eq_iff.symm

instance : Std.TransCmp (cmp F) where
  eq_swap {a b} := @Std.OrientedCmp.eq_swap _ compare _ (toString F a) (toString F b)
  isLE_trans {a b c} := @Std.TransCmp.isLE_trans _ compare _ (toString F a) (toString F b) (toString F c)

instance : Std.LawfulEqCmp (cmp F) where
  compare_self {a} := @Std.ReflCmp.compare_self _ compare _ (toString F a)
  eq_of_compare h := toString_injective F (Std.LawfulEqCmp.eq_of_compare h)

end Laws

end HardwareId

/-! ## `MachineId` -/

/-- mirrors machine/mod.rs:304-313. -/
inductive MachineIdSource
  | tpm
  | productBoardChassisSerial
  deriving DecidableEq, Repr

/-- mirrors machine/mod.rs:317-322. -/
def MachineIdSource.idChar : MachineIdSource → Char
  | tpm => 't'
  | productBoardChassisSerial => 's'

/-- mirrors machine/mod.rs:325-333. -/
def MachineIdSource.fromIdChar (c : Char) : Option MachineIdSource :=
  if c = tpm.idChar then some tpm
  else if c = productBoardChassisSerial.idChar then some productBoardChassisSerial
  else none

/-- mirrors machine/mod.rs:338-354. -/
inductive MachineType
  | dpu
  | host
  | predictedHost
  deriving DecidableEq, Repr

/-- mirrors machine/mod.rs:409-415. -/
def MachineType.idChar : MachineType → Char
  | dpu => 'd'
  | host => 'h'
  | predictedHost => 'p'

/-- mirrors machine/mod.rs:418-425. -/
def MachineType.fromIdChar (c : Char) : Option MachineType :=
  if c = dpu.idChar then some dpu
  else if c = host.idChar then some host
  else if c = predictedHost.idChar then some predictedHost
  else none

theorem MachineIdSource.fromIdChar_eq_some_iff (c : Char) (s : MachineIdSource) :
    fromIdChar c = some s ↔ c = s.idChar := by
  unfold fromIdChar
  split_ifs with h1 h2 <;> cases s <;> simp_all [idChar]

theorem MachineType.fromIdChar_eq_some_iff (c : Char) (t : MachineType) :
    fromIdChar c = some t ↔ c = t.idChar := by
  unfold fromIdChar
  split_ifs with h1 h2 h3 <;> cases t <;> simp_all [idChar]

/-- mirrors machine/mod.rs:32. -/
def machineIdPrefix : String := "fm100"

/-- What `MachineId`'s `Display` and `FromStr` read. -/
def machineIdFormat : IdFormat MachineIdSource MachineType where
  tag := strBytes machineIdPrefix
  tyIdChar := MachineType.idChar
  tyFromIdChar := MachineType.fromIdChar
  srcIdChar := MachineIdSource.idChar
  srcFromIdChar := MachineIdSource.fromIdChar
  tag_length := by decide
  tyIdChar_ascii t := by cases t <;> decide
  srcIdChar_ascii s := by cases s <;> decide
  tyFromIdChar_iff := MachineType.fromIdChar_eq_some_iff
  srcFromIdChar_iff := MachineIdSource.fromIdChar_eq_some_iff

/-- mirrors machine/mod.rs:75. -/
abbrev MachineId := HardwareId MachineIdSource MachineType

/-- mirrors machine/mod.rs:243. -/
def MachineId.new (source : MachineIdSource) (hardwareHash : Vector UInt8 32) (ty : MachineType) :
    MachineId :=
  HardwareId.new source hardwareHash ty

/-- mirrors machine/mod.rs:428. -/
def MachineId.toString (id : MachineId) : List UInt8 := HardwareId.toString machineIdFormat id

/-- mirrors machine/mod.rs:469. -/
def MachineId.fromStr (s : List UInt8) : Except IdParseError MachineId :=
  HardwareId.fromStr machineIdFormat s

/-- mirrors machine/mod.rs:85. -/
def MachineId.cmp (a b : MachineId) : Ordering := HardwareId.cmp machineIdFormat a b

theorem strBytes_machineIdPrefix : strBytes machineIdPrefix = [102, 109, 49, 48, 48] := by
  decide

/-! ## `SwitchId` -/

/-- mirrors switch/mod.rs:221-230. -/
inductive SwitchIdSource
  | tpm
  | productBoardChassisSerial
  deriving DecidableEq, Repr

/-- mirrors switch/mod.rs:234-239. -/
def SwitchIdSource.idChar : SwitchIdSource → Char
  | tpm => 't'
  | productBoardChassisSerial => 's'

/-- mirrors switch/mod.rs:242-250. -/
def SwitchIdSource.fromIdChar (c : Char) : Option SwitchIdSource :=
  if c = tpm.idChar then some tpm
  else if c = productBoardChassisSerial.idChar then some productBoardChassisSerial
  else none

/-- mirrors switch/mod.rs:255-257. -/
inductive SwitchType
  | nvLink
  deriving DecidableEq, Repr

/-- mirrors switch/mod.rs:275-279. -/
def SwitchType.idChar : SwitchType → Char
  | nvLink => 'n'

/-- mirrors switch/mod.rs:282-287. -/
def SwitchType.fromIdChar (c : Char) : Option SwitchType :=
  if c = nvLink.idChar then some nvLink else none

theorem SwitchIdSource.fromIdChar_eq_some_iff (c : Char) (s : SwitchIdSource) :
    fromIdChar c = some s ↔ c = s.idChar := by
  unfold fromIdChar
  split_ifs with h1 h2 <;> cases s <;> simp_all [idChar]

theorem SwitchType.fromIdChar_eq_some_iff (c : Char) (t : SwitchType) :
    fromIdChar c = some t ↔ c = t.idChar := by
  unfold fromIdChar
  split_ifs with h1 <;> cases t <;> simp_all [idChar]

/-- mirrors switch/mod.rs:38. -/
def switchIdPrefix : String := "sw100"

/-- What `SwitchId`'s `Display` and `FromStr` read. -/
def switchIdFormat : IdFormat SwitchIdSource SwitchType where
  tag := strBytes switchIdPrefix
  tyIdChar := SwitchType.idChar
  tyFromIdChar := SwitchType.fromIdChar
  srcIdChar := SwitchIdSource.idChar
  srcFromIdChar := SwitchIdSource.fromIdChar
  tag_length := by decide
  tyIdChar_ascii t := by cases t; decide
  srcIdChar_ascii s := by cases s <;> decide
  tyFromIdChar_iff := SwitchType.fromIdChar_eq_some_iff
  srcFromIdChar_iff := SwitchIdSource.fromIdChar_eq_some_iff

/-- mirrors switch/mod.rs:61. -/
abbrev SwitchId := HardwareId SwitchIdSource SwitchType

/-- mirrors switch/mod.rs:159. -/
def SwitchId.new (source : SwitchIdSource) (hardwareHash : Vector UInt8 32) (ty : SwitchType) :
    SwitchId :=
  HardwareId.new source hardwareHash ty

/-- mirrors switch/mod.rs:290. -/
def SwitchId.toString (id : SwitchId) : List UInt8 := HardwareId.toString switchIdFormat id

/-- mirrors switch/mod.rs:346. -/
def SwitchId.fromStr (s : List UInt8) : Except IdParseError SwitchId :=
  HardwareId.fromStr switchIdFormat s

/-- mirrors switch/mod.rs:71. -/
def SwitchId.cmp (a b : SwitchId) : Ordering := HardwareId.cmp switchIdFormat a b

theorem strBytes_switchIdPrefix : strBytes switchIdPrefix = [115, 119, 49, 48, 48] := by
  decide

/-! ## The texts of machine and switch ids -/

section Texts

theorem mem_toString_machineId {id : MachineId} {c : UInt8} (hc : c ∈ MachineId.toString id) :
    isBase32hexLower c = true := by
  rw [MachineId.toString, HardwareId.toString_eq_tag_append, List.mem_append] at hc
  rcases hc with hc | hc
  · have htag : machineIdFormat.tag = [102, 109, 49, 48, 48] := strBytes_machineIdPrefix
    rw [htag] at hc
    simp only [List.mem_cons, List.not_mem_nil, or_false] at hc
    rcases hc with rfl | rfl | rfl | rfl | rfl <;> decide
  · exact HardwareId.isBase32hexLower_of_mem_drop_toString _ id c hc

theorem mem_toString_switchId {id : SwitchId} {c : UInt8} (hc : c ∈ SwitchId.toString id) :
    isAsciiUppercase c = false := by
  rw [SwitchId.toString, HardwareId.toString_eq_tag_append, List.mem_append] at hc
  rcases hc with hc | hc
  · have htag : switchIdFormat.tag = [115, 119, 49, 48, 48] := strBytes_switchIdPrefix
    rw [htag] at hc
    simp only [List.mem_cons, List.not_mem_nil, or_false] at hc
    rcases hc with rfl | rfl | rfl | rfl | rfl <;> decide
  · exact isAsciiUppercase_of_isBase32hexLower
      (HardwareId.isBase32hexLower_of_mem_drop_toString _ id c hc)

/-- Both id texts round-trip through `FromStr`, order by text is a total order
agreeing with equality, and a parsed lower-case text is canonical; a machine
id's text is all base32hex symbols, a switch id's is lower case with its
`sw100` tag followed by base32hex symbols. -/
theorem ids_text_roundtrip :
    (∀ (source : MachineIdSource) (hash : Vector UInt8 32) (ty : MachineType),
      (MachineId.toString (MachineId.new source hash ty)).length = 59 ∧
      (∀ c ∈ MachineId.toString (MachineId.new source hash ty), isBase32hexLower c = true) ∧
      (strBytes machineIdPrefix).isPrefixOf (MachineId.toString (MachineId.new source hash ty)) ∧
      MachineId.fromStr (MachineId.toString (MachineId.new source hash ty)) =
        .ok (MachineId.new source hash ty)) ∧
    Function.Injective MachineId.toString ∧ Std.TransCmp MachineId.cmp ∧
    Std.LawfulEqCmp MachineId.cmp ∧
    (∀ (s : List UInt8) (id : MachineId), MachineId.fromStr s = .ok id →
      (∀ c ∈ s.drop 7, isAsciiUppercase c = false) → MachineId.toString id = s) ∧
    (∀ (source : SwitchIdSource) (hash : Vector UInt8 32) (ty : SwitchType),
      (SwitchId.toString (SwitchId.new source hash ty)).length = 59 ∧
      (∀ c ∈ SwitchId.toString (SwitchId.new source hash ty), isAsciiUppercase c = false) ∧
      (∀ c ∈ (SwitchId.toString (SwitchId.new source hash ty)).drop 5,
        isBase32hexLower c = true) ∧
      (strBytes switchIdPrefix).isPrefixOf (SwitchId.toString (SwitchId.new source hash ty)) ∧
      SwitchId.fromStr (SwitchId.toString (SwitchId.new source hash ty)) =
        .ok (SwitchId.new source hash ty)) ∧
    Function.Injective SwitchId.toString ∧ Std.TransCmp SwitchId.cmp ∧
    Std.LawfulEqCmp SwitchId.cmp ∧
    (∀ (s : List UInt8) (id : SwitchId), SwitchId.fromStr s = .ok id →
      (∀ c ∈ s.drop 7, isAsciiUppercase c = false) → SwitchId.toString id = s) := by
  refine ⟨fun source hash ty => ⟨?_, ?_, ?_, ?_⟩, HardwareId.toString_injective _,
    inferInstanceAs (Std.TransCmp (HardwareId.cmp _)),
    inferInstanceAs (Std.LawfulEqCmp (HardwareId.cmp _)),
    fun s id h hs => HardwareId.toString_of_fromStr _ h hs,
    fun source hash ty => ⟨?_, ?_, ?_, ?_, ?_⟩, HardwareId.toString_injective _,
    inferInstanceAs (Std.TransCmp (HardwareId.cmp _)),
    inferInstanceAs (Std.LawfulEqCmp (HardwareId.cmp _)),
    fun s id h hs => HardwareId.toString_of_fromStr _ h hs⟩
  · exact HardwareId.length_toString _ _
  · exact fun c hc => mem_toString_machineId hc
  · exact HardwareId.tag_isPrefixOf_toString machineIdFormat _
  · exact HardwareId.fromStr_toString _ _
  · exact HardwareId.length_toString _ _
  · exact fun c hc => mem_toString_switchId hc
  · exact HardwareId.isBase32hexLower_of_mem_drop_toString _ _
  · exact HardwareId.tag_isPrefixOf_toString switchIdFormat _
  · exact HardwareId.fromStr_toString _ _

/-- The first sample id of `MachineId`'s documentation parses to a host id
derived from a TPM, and is that id's text. -/
theorem ids_text_roundtrip_sample :
    MachineId.fromStr (strBytes "fm100htjtiaehv1n5vh67tbmqq4eabcjdng40f7jupsadbedhruh6rag1l0") =
      .ok (MachineId.new .tpm #v[159, 100, 167, 71, 225, 185, 127, 19, 31, 171, 182, 180, 71, 41,
        108, 155, 111, 2, 1, 231, 159, 179, 197, 53, 110, 108, 119, 232, 155, 106, 128, 106] .host) ∧
    MachineId.toString (MachineId.new .tpm #v[159, 100, 167, 71, 225, 185, 127, 19, 31, 171, 182,
        180, 71, 41, 108, 155, 111, 2, 1, 231, 159, 179, 197, 53, 110, 108, 119, 232, 155, 106, 128,
        106] .host) =
      strBytes "fm100htjtiaehv1n5vh67tbmqq4eabcjdng40f7jupsadbedhruh6rag1l0" := by
  have hp : MachineId.fromStr
      (strBytes "fm100htjtiaehv1n5vh67tbmqq4eabcjdng40f7jupsadbedhruh6rag1l0") =
      .ok (MachineId.new .tpm #v[159, 100, 167, 71, 225, 185, 127, 19, 31, 171, 182, 180, 71, 41,
        108, 155, 111, 2, 1, 231, 159, 179, 197, 53, 110, 108, 119, 232, 155, 106, 128, 106] .host) :=
    by rfl
  exact ⟨hp, ids_text_roundtrip.2.2.2.2.1 _ _ hp (by decide +kernel)⟩

/-- The text of the TPM-derived NVLink switch id of the zero hash holds `w`, from its
tag, which is not a base32hex symbol. -/
theorem switch_id_text_has_w :
    119 ∈ SwitchId.toString (SwitchId.new .tpm (Vector.replicate 32 0) .nvLink) ∧
      isBase32hexLower 119 = false := by
  refine ⟨?_, by decide⟩
  rw [SwitchId.toString, HardwareId.toString_eq_tag_append]
  have htag : switchIdFormat.tag = [115, 119, 49, 48, 48] := strBytes_switchIdPrefix
  simp [htag]

/-- Machine and switch id texts are case-insensitive in their payload, and
`to_string` prints the lower-case one: an accepted text prints back with its
payload lowered and, lowered, parses to the same id; two accepted texts name
one id exactly when they agree once lowered. -/
theorem ids_text_case_insensitive :
    (∀ (s : List UInt8) (id : MachineId), MachineId.fromStr s = .ok id →
      MachineId.toString id = HardwareId.lowerPayload s ∧
        MachineId.fromStr (HardwareId.lowerPayload s) = .ok id) ∧
    (∀ (s t : List UInt8) (a b : MachineId), MachineId.fromStr s = .ok a →
      MachineId.fromStr t = .ok b → (a = b ↔ HardwareId.lowerPayload s = HardwareId.lowerPayload t)) ∧
    (∀ (s : List UInt8) (id : SwitchId), SwitchId.fromStr s = .ok id →
      SwitchId.toString id = HardwareId.lowerPayload s ∧
        SwitchId.fromStr (HardwareId.lowerPayload s) = .ok id) ∧
    (∀ (s t : List UInt8) (a b : SwitchId), SwitchId.fromStr s = .ok a →
      SwitchId.fromStr t = .ok b → (a = b ↔ HardwareId.lowerPayload s = HardwareId.lowerPayload t)) :=
  ⟨fun _ _ h => ⟨HardwareId.toString_of_fromStr_eq_lowerPayload _ h,
      HardwareId.fromStr_lowerPayload _ h⟩,
    fun _ _ _ _ hs ht => HardwareId.eq_iff_lowerPayload_of_fromStr _ hs ht,
    fun _ _ h => ⟨HardwareId.toString_of_fromStr_eq_lowerPayload _ h,
      HardwareId.fromStr_lowerPayload _ h⟩,
    fun _ _ _ _ hs ht => HardwareId.eq_iff_lowerPayload_of_fromStr _ hs ht⟩

/-- The documentation's first sample id with its payload in upper case parses
to the same host id, whose text is the lower-case sample. -/
theorem ids_text_case_insensitive_sample :
    MachineId.fromStr (strBytes "fm100htJTIAEHV1N5VH67TBMQQ4EABCJDNG40F7JUPSADBEDHRUH6RAG1L0") =
      .ok (MachineId.new .tpm #v[159, 100, 167, 71, 225, 185, 127, 19, 31, 171, 182, 180, 71, 41,
        108, 155, 111, 2, 1, 231, 159, 179, 197, 53, 110, 108, 119, 232, 155, 106, 128, 106] .host) ∧
    MachineId.toString (MachineId.new .tpm #v[159, 100, 167, 71, 225, 185, 127, 19, 31, 171, 182,
        180, 71, 41, 108, 155, 111, 2, 1, 231, 159, 179, 197, 53, 110, 108, 119, 232, 155, 106, 128,
        106] .host) =
      HardwareId.lowerPayload
        (strBytes "fm100htJTIAEHV1N5VH67TBMQQ4EABCJDNG40F7JUPSADBEDHRUH6RAG1L0") := by
  have hp : MachineId.fromStr
      (strBytes "fm100htJTIAEHV1N5VH67TBMQQ4EABCJDNG40F7JUPSADBEDHRUH6RAG1L0") =
      .ok (MachineId.new .tpm #v[159, 100, 167, 71, 225, 185, 127, 19, 31, 171, 182, 180, 71, 41,
        108, 155, 111, 2, 1, 231, 159, 179, 197, 53, 110, 108, 119, 232, 155, 106, 128, 106] .host) :=
    by rfl
  exact ⟨hp, (ids_text_case_insensitive.1 _ _ hp).1⟩

end Texts

end Carbide.Uuid

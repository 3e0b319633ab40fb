import Mathlib

/-!
# Text as UTF-8 bytes

Rust's `str` is its UTF-8 bytes: `as_bytes`, `len` and byte indexing see
them, and `Formatter::write_char` appends the encoding of one `char`. For
ASCII text each character is one byte, its code; a byte read back with
`as char` is the character of that code. `std::str::from_utf8` accepts
exactly the valid UTF-8 byte strings, and gives back the text whose bytes
they are.
-/
namespace Carbide.Lib

/-- `str::as_bytes`. -/
def strBytes (s : String) : List UInt8 := s.toList.flatMap String.utf8EncodeChar

/-- `std::str::from_utf8`. -/
def fromUtf8 (bs : List UInt8) : Option String := String.fromUTF8? ⟨bs.toArray⟩

theorem toByteArray_data_toList (s : String) : s.toByteArray.data.toList = strBytes s := by
  conv_lhs => rw [← String.ofList_toList (s := s)]
  rw [String.toByteArray_ofList, List.utf8Encode, List.data_toByteArray, List.toList_toArray]
  rfl

/-- What `from_utf8` accepts, `as_bytes` gives back. -/
theorem strBytes_of_fromUtf8 {bs : List UInt8} {s : String} (h : fromUtf8 bs = some s) :
    strBytes s = bs := by
  unfold fromUtf8 String.fromUTF8? at h
  split at h
  · cases h
    rw [← toByteArray_data_toList]
    rfl
  · cases h

theorem fromUtf8_strBytes (s : String) : fromUtf8 (strBytes s) = some s := by
  rw [← toByteArray_data_toList, fromUtf8, Array.toArray_toList]
  unfold String.fromUTF8?
  rw [dif_pos s.isValidUTF8]
  rfl

theorem toNat_toUInt8_of_lt {c : Char} (h : c.toNat < 256) : c.toUInt8.toNat = c.toNat := by
  show c.val.toUInt8.toNat = c.val.toNat
  rw [UInt32.toNat_toUInt8]
  exact Nat.mod_eq_of_lt (by simp only [Char.toNat] at h; omega)

theorem utf8EncodeChar_of_lt {c : Char} (h : c.toNat < 128) :
    String.utf8EncodeChar c = [c.toUInt8] := by
  have hc : c.utf8Size = 1 := by
    rw [Char.utf8Size_eq_one_iff, UInt32.le_iff_toNat_le]
    exact Nat.le_of_lt_succ h
  rw [String.utf8EncodeChar_eq_singleton hc, Char.toUInt8_val]

/-- `b as char`: every byte is a scalar value. -/
theorem toNat_ofNat_toNat (b : UInt8) : (Char.ofNat b.toNat).toNat = b.toNat := by
  have hb := b.toNat_lt
  rw [Char.ofNat, dif_pos (by unfold Nat.isValidChar; omega)]
  simp [Char.ofNatAux, Char.toNat]

theorem toUInt8_ofNat_toNat (b : UInt8) : (Char.ofNat b.toNat).toUInt8 = b := by
  apply UInt8.toNat_inj.1
  have hb := b.toNat_lt
  rw [toNat_toUInt8_of_lt (by rw [toNat_ofNat_toNat]; omega), toNat_ofNat_toNat]

/-- An ASCII character is the byte of its code. -/
theorem ofNat_toNat_toUInt8 {c : Char} (h : c.toNat < 256) : Char.ofNat c.toUInt8.toNat = c := by
  rw [toNat_toUInt8_of_lt h, Char.ofNat_toNat]

end Carbide.Lib

import Mathlib.Data.Nat.Digits.Defs

/-!
# Hexadecimal byte strings

`hex::encode` writes each byte as two lower-case hex digits; `hex::decode`
reads pairs of digits of either case and fails on an odd length or on any
other character. Strings are lists of characters, and the decoder's two
errors are one `none`. The `hex` crate is a dependency, not code under
`src/`: these definitions are a stand-in for its documented behaviour.

* `hexDecode_hexEncode`: decoding what was encoded gives the bytes back;
* `isHexDigit_of_mem_hexEncode`: an encoding holds hex digits only;
* `hexValue_toDigits`, `isHexDigit_of_mem_toDigits`: a number printed in hex
  (`Nat.toDigits 16`, Rust's `{:x}`) is hex digits that read back as it.
-/
namespace Carbide.Lib

/-- The lower-case hex digit of `d < 16`. -/
def hexDigit (d : Nat) : Char := if d < 10 then Char.ofNat (48 + d) else Char.ofNat (87 + d)

/-- The value of a hex digit of either case. -/
def hexVal (c : Char) : Option Nat :=
  if '0' ≤ c ∧ c ≤ '9' then some (c.toNat - 48)
  else if 'a' ≤ c ∧ c ≤ 'f' then some (c.toNat - 87)
  else if 'A' ≤ c ∧ c ≤ 'F' then some (c.toNat - 55)
  else none

/-- `hex::encode`. -/
def hexEncode : List UInt8 → List Char
  | [] => []
  | b :: bs => hexDigit (b.toNat / 16) :: hexDigit (b.toNat % 16) :: hexEncode bs

/-- `hex::decode`. -/
def hexDecode : List Char → Option (List UInt8)
  | [] => some []
  | [_] => none
  | a :: b :: rest => do
    let x ← hexVal a
    let y ← hexVal b
    let t ← hexDecode rest
    pure (UInt8.ofNat (16 * x + y) :: t)

theorem hexVal_hexDigit : ∀ d < 16, hexVal (hexDigit d) = some d := by
  decide

theorem hexDecode_hexEncode (bs : List UInt8) : hexDecode (hexEncode bs) = some bs := by
  induction bs with
  | nil => rfl
  | cons b bs ih =>
    have hb := b.toNat_lt
    -- the two digits of `b` read back as `b`
    have hbyte : 16 * (b.toNat / 16) + b.toNat % 16 = b.toNat := by omega
    simp only [hexEncode, hexDecode, hexVal_hexDigit _ (show b.toNat / 16 < 16 by omega),
      hexVal_hexDigit _ (show b.toNat % 16 < 16 by omega), ih]
    show some (UInt8.ofNat (16 * (b.toNat / 16) + b.toNat % 16) :: bs) = some (b :: bs)
    rw [hbyte, UInt8.ofNat_toNat]

/-- The characters `hex::encode` writes. -/
def isHexDigit (c : Char) : Prop := ∃ d < 16, c = hexDigit d

theorem isHexDigit_of_mem_hexEncode {bs : List UInt8} {c : Char} (h : c ∈ hexEncode bs) :
    isHexDigit c := by
  induction bs with
  | nil => cases h
  | cons b bs ih =>
    have hb := b.toNat_lt
    simp only [hexEncode, List.mem_cons] at h
    rcases h with rfl | rfl | h
    · exact ⟨_, by omega, rfl⟩
    · exact ⟨_, by omega, rfl⟩
    · exact ih h

/-! ## Hex numerals -/

/-- The value of a string of hex digits, read left to right. -/
def hexValue (ds : List Char) : Nat := ds.foldl (fun n c => 16 * n + (hexVal c).getD 0) 0

theorem hexValue_append_digit (ds : List Char) (c : Char) :
    hexValue (ds ++ [c]) = 16 * hexValue ds + (hexVal c).getD 0 := by
  simp [hexValue, List.foldl_append]

theorem digitChar_eq_hexDigit : ∀ d < 16, Nat.digitChar d = hexDigit d := by
  decide

/-- The digits of `n` are those of `n / 16` and then the digit of `n % 16`. -/
theorem toDigits_hex_split {n : Nat} (hn : 16 ≤ n) :
    Nat.toDigits 16 n = Nat.toDigits 16 (n / 16) ++ [hexDigit (n % 16)] := by
  have hsplit := Nat.toDigits_append_toDigits (b := 16) (by decide)
    (show 0 < n / 16 by omega) (Nat.mod_lt n (by decide))
  rw [Nat.div_add_mod, Nat.toDigits_of_lt_base (Nat.mod_lt n (by decide)),
    digitChar_eq_hexDigit _ (Nat.mod_lt n (by decide))] at hsplit
  exact hsplit.symm

/-- Reading the hex digits of `n` gives `n`, by induction on the number of digits. -/
theorem hexValue_toDigits (n : Nat) : hexValue (Nat.toDigits 16 n) = n := by
  induction n using Nat.strong_induction_on with
  | _ n ih =>
    by_cases hn : n < 16
    · rw [Nat.toDigits_of_lt_base hn, digitChar_eq_hexDigit n hn]
      simp [hexValue, hexVal_hexDigit n hn]
    · rw [toDigits_hex_split (by omega), hexValue_append_digit, ih (n / 16) (by omega),
        hexVal_hexDigit _ (Nat.mod_lt n (by decide)), Option.getD_some]
      omega

theorem isHexDigit_of_mem_toDigits {n : Nat} {c : Char} (h : c ∈ Nat.toDigits 16 n) :
    isHexDigit c := by
  induction n using Nat.strong_induction_on with
  | _ n ih =>
    by_cases hn : n < 16
    · rw [Nat.toDigits_of_lt_base hn, List.mem_singleton] at h
      exact ⟨n, hn, h.trans (digitChar_eq_hexDigit n hn)⟩
    · rw [toDigits_hex_split (by omega), List.mem_append, List.mem_singleton] at h
      rcases h with h | rfl
      · exact ih (n / 16) (by omega) h
      · exact ⟨_, Nat.mod_lt n (by decide), rfl⟩

end Carbide.Lib

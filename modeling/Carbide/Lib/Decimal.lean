import Mathlib.Data.Nat.Digits.Defs

/-!
# Decimal numerals

Unsigned integers printed in decimal (`Nat.toDigits 10`, Rust's `{}` for
`u64`) and read back the way `str::parse::<uN>()` reads them: an optional
`+`, at least one ASCII digit, and a value that fits in `w` bits.

* `parseUnsigned_toDigits`: every value that fits is read back from its
  printed digits;
* `parseSigned_toDigits`, `parseSigned_neg_toDigits`: the same for signed
  values, printed with a `-` when negative.
-/
namespace Carbide.Lib

/-- The value of a string of decimal digits, read left to right. -/
def decimalValue (ds : List Char) : Nat := ds.foldl (fun n c => 10 * n + (c.toNat - '0'.toNat)) 0

/-- `str::parse::<uN>()` for a width `w`: an optional `+`, then at least one
ASCII digit, and a value below `2 ^ w`. -/
def parseUnsigned (w : Nat) (s : List Char) : Option Nat :=
  let digits := match s with
    | '+' :: rest => rest
    | _ => s
  if digits ≠ [] ∧ digits.all Char.isDigit then
    if decimalValue digits < 2 ^ w then some (decimalValue digits) else none
  else none

/-- `str::parse::<iN>()` for a width `w`: an optional sign, then at least one
ASCII digit, and a value from `-2 ^ (w - 1)` to below `2 ^ (w - 1)`. -/
def parseSigned (w : Nat) (s : List Char) : Option Int :=
  match s with
  | '-' :: digits =>
    if digits ≠ [] ∧ digits.all Char.isDigit ∧ decimalValue digits ≤ 2 ^ (w - 1) then
      some (-(decimalValue digits : Int))
    else none
  | _ => (parseUnsigned (w - 1) s).map Int.ofNat

theorem decimalValue_append_digit (ds : List Char) (c : Char) :
    decimalValue (ds ++ [c]) = 10 * decimalValue ds + (c.toNat - '0'.toNat) := by
  simp [decimalValue, List.foldl_append]

/-- Reading the printed digits of `n` gives `n`, by induction on the number
of digits. -/
theorem decimalValue_toDigits (n : Nat) : decimalValue (Nat.toDigits 10 n) = n := by
  induction n using Nat.strong_induction_on with
  | _ n ih =>
    by_cases hn : n < 10
    · rw [Nat.toDigits_of_lt_base hn]
      have := Nat.toNat_digitChar_of_lt_ten hn
      simp [decimalValue, this]
    · -- the last digit is `n % 10`, after the digits of `n / 10`
      have hq : 0 < n / 10 := by omega
      have hsplit := Nat.toDigits_append_toDigits (b := 10) (by decide) hq (Nat.mod_lt n (by decide))
      rw [Nat.div_add_mod, Nat.toDigits_of_lt_base (Nat.mod_lt n (by decide))] at hsplit
      rw [← hsplit, decimalValue_append_digit, ih (n / 10) (by omega),
        Nat.toNat_digitChar_of_lt_ten (Nat.mod_lt n (by decide))]
      change 10 * (n / 10) + (48 + n % 10 - 48) = n
      omega

theorem isDigit_of_mem_toDigits {n : Nat} {c : Char} (h : c ∈ Nat.toDigits 10 n) :
    c.isDigit = true :=
  Nat.isDigit_of_mem_toDigits (by decide) (by decide) h

theorem all_isDigit_toDigits (n : Nat) : (Nat.toDigits 10 n).all Char.isDigit = true :=
  List.all_eq_true.2 fun _ hx => isDigit_of_mem_toDigits hx

theorem parseUnsigned_toDigits {w n : Nat} (h : n < 2 ^ w) :
    parseUnsigned w (Nat.toDigits 10 n) = some n := by
  obtain ⟨c, cs, hcs⟩ := List.exists_cons_of_ne_nil (Nat.toDigits_ne_nil (n := n) (b := 10))
  -- the first digit is not a `+`
  have hc : c ≠ '+' := by
    intro hplus
    have := isDigit_of_mem_toDigits (n := n) (c := c) (by rw [hcs]; exact List.mem_cons_self)
    rw [hplus] at this
    exact absurd this (by decide)
  have hall := all_isDigit_toDigits n
  have hval := decimalValue_toDigits n
  rw [hcs] at hall hval
  -- the first digit is not a `+`, so the digits read are the whole string
  have hdigits : (match c :: cs with
      | '+' :: rest => rest
      | _ => c :: cs) = c :: cs := by
    split
    · rename_i heq
      exact absurd (List.cons.inj heq).1 hc
    · rfl
  unfold parseUnsigned
  rw [hcs]
  dsimp only
  rw [hdigits, if_pos ⟨List.cons_ne_nil c cs, hall⟩, hval, if_pos h]

theorem parseSigned_toDigits {w n : Nat} (h : n < 2 ^ (w - 1)) :
    parseSigned w (Nat.toDigits 10 n) = some (n : Int) := by
  obtain ⟨c, cs, hcs⟩ := List.exists_cons_of_ne_nil (Nat.toDigits_ne_nil (n := n) (b := 10))
  -- the first digit is not a `-`
  have hc : c.isDigit = true := isDigit_of_mem_toDigits (n := n) (by rw [hcs]; exact List.mem_cons_self)
  unfold parseSigned
  split
  · rename_i digits heq
    rw [hcs, List.cons.injEq] at heq
    rw [heq.1] at hc
    exact absurd hc (by decide)
  · rw [parseUnsigned_toDigits h]
    rfl

theorem parseSigned_neg_toDigits {w n : Nat} (h : n ≤ 2 ^ (w - 1)) :
    parseSigned w ('-' :: Nat.toDigits 10 n) = some (-(n : Int)) := by
  simp only [parseSigned]
  rw [if_pos ⟨Nat.toDigits_ne_nil, all_isDigit_toDigits n, by rw [decimalValue_toDigits]; exact h⟩,
    decimalValue_toDigits]

end Carbide.Lib

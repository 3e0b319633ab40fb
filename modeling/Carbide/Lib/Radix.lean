import Mathlib.Tactic.Ring
import Mathlib.Data.List.Induction

/-!
# Fixed-width big-endian digits

A string of symbols in base `b` is read as one number, most significant
digit first (`valueBE`), and a number is written back as exactly `k` digits
(`digitsBE`, the number taken modulo `b ^ k`). Base-2^n encodings that
regroup bits, such as base32 over bytes, become a change of base between
the two: read the digits of one base, then write them in the other.

* `valueBE_digitsBE`: writing `k` digits keeps `n % b ^ k`;
* `digitsBE_valueBE`: digits below `b` are written back as they were read;
* `valueBE_lt`: `k` digits read to less than `b ^ k`.
-/
namespace Carbide.Lib

/-- The `k` low base-`b` digits of `n`, most significant first. -/
def digitsBE (b : Nat) : Nat → Nat → List Nat
  | 0, _ => []
  | k + 1, n => digitsBE b k (n / b) ++ [n % b]

/-- The number a list of base-`b` digits spells, most significant first. -/
def valueBE (b : Nat) (ds : List Nat) : Nat := ds.foldl (fun acc d => b * acc + d) 0

section Radix
variable {b : Nat}

@[simp] theorem length_digitsBE (k n : Nat) : (digitsBE b k n).length = k := by
  induction k generalizing n with
  | zero => rfl
  | succ k ih => simp [digitsBE, ih]

theorem foldl_valueBE (a : Nat) (ds : List Nat) :
    ds.foldl (fun acc d => b * acc + d) a = a * b ^ ds.length + valueBE b ds := by
  induction ds generalizing a with
  | nil => simp [valueBE]
  | cons d ds ih =>
    simp only [valueBE, List.foldl_cons, List.length_cons] at ih ⊢
    rw [ih, ih (b * 0 + d), pow_succ]
    ring

@[simp] theorem valueBE_nil : valueBE b [] = 0 := rfl

theorem valueBE_append (ds es : List Nat) :
    valueBE b (ds ++ es) = valueBE b ds * b ^ es.length + valueBE b es := by
  rw [valueBE, List.foldl_append, foldl_valueBE]
  rfl

theorem valueBE_append_singleton (ds : List Nat) (d : Nat) :
    valueBE b (ds ++ [d]) = valueBE b ds * b + d := by
  rw [valueBE_append, List.length_singleton, pow_one]
  simp [valueBE]

theorem valueBE_digitsBE (k n : Nat) : valueBE b (digitsBE b k n) = n % b ^ k := by
  induction k generalizing n with
  | zero => simp [digitsBE, Nat.mod_one]
  | succ k ih =>
    rw [digitsBE, valueBE_append_singleton, ih, pow_succ', Nat.mod_mul]
    ring

theorem forall_mem_digitsBE_lt (hb : 0 < b) (k n : Nat) : ∀ d ∈ digitsBE b k n, d < b := by
  induction k generalizing n with
  | zero => simp [digitsBE]
  | succ k ih =>
    intro d hd
    rcases List.mem_append.1 hd with h | h
    · exact ih _ d h
    · rw [List.mem_singleton.1 h]
      exact Nat.mod_lt n hb

theorem valueBE_lt {ds : List Nat} (h : ∀ d ∈ ds, d < b) : valueBE b ds < b ^ ds.length := by
  induction ds using List.reverseRecOn with
  | nil => simp
  | append_singleton ds d ih =>
    have hd : d < b := h d (by simp)
    have hv : valueBE b ds + 1 ≤ b ^ ds.length := ih (fun e he => h e (by simp [he]))
    rw [valueBE_append_singleton, List.length_append, List.length_singleton, pow_succ]
    calc valueBE b ds * b + d < (valueBE b ds + 1) * b := by rw [add_one_mul]; omega
      _ ≤ b ^ ds.length * b := Nat.mul_le_mul_right b hv

theorem digitsBE_valueBE {ds : List Nat} (h : ∀ d ∈ ds, d < b) :
    digitsBE b ds.length (valueBE b ds) = ds := by
  induction ds using List.reverseRecOn with
  | nil => rfl
  | append_singleton ds d ih =>
    have hd : d < b := h d (by simp)
    have hdiv : (valueBE b ds * b + d) / b = valueBE b ds := by
      rw [mul_comm, Nat.mul_add_div (by omega), Nat.div_eq_of_lt hd, add_zero]
    have hmod : (valueBE b ds * b + d) % b = d := by
      rw [Nat.mul_add_mod_self_right, Nat.mod_eq_of_lt hd]
    rw [List.length_append, List.length_singleton, digitsBE, valueBE_append_singleton, hdiv, hmod,
      ih (fun e he => h e (by simp [he]))]

end Radix

end Carbide.Lib

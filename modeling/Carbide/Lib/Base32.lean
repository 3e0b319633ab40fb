import Carbide.Lib.Radix

/-!
# Unpadded base32hex

The RFC 4648 "base32hex" alphabet (`0`–`9` then `a`–`v`), written in lower
case and without padding, as `data_encoding::BASE32_DNSSEC` has it: the
decoder also takes `A`–`V` (translated to lower case), rejects a length
whose last symbol would carry only padding bits, and rejects non-zero
trailing bits. The bits are handled as numbers: `n` bytes are the number
`bytesValue` below `2 ^ (8 * n)`, shifted up to fill `⌈8n/5⌉` symbols.

`data_encoding` is a dependency, not code under `src/`: this module is a
stand-in written from the encoding it documents, and every result that uses
it holds of the crate as far as the crate implements that encoding.

* `base32Decode_base32Encode`: decoding an encoding gives the bytes back;
* `base32Encode_base32Decode`: a decodable string with no upper-case letter
  is the encoding of what it decodes to, so such strings are canonical;
* `base32Encode_of_base32Decode`: any decodable string is, once lowered to
  ASCII lower case, the encoding of what it decodes to.
-/
namespace Carbide.Lib

/-- The symbol of a five-bit value. -/
def base32Symbol (v : Nat) : UInt8 :=
  if v < 10 then UInt8.ofNat (48 + v) else UInt8.ofNat (87 + v)

/-- The value of a symbol, with `A`–`V` read as `a`–`v`. -/
def base32Value (c : UInt8) : Option Nat :=
  if 48 ≤ c.toNat ∧ c.toNat ≤ 57 then some (c.toNat - 48)
  else if 97 ≤ c.toNat ∧ c.toNat ≤ 118 then some (c.toNat - 87)
  else if 65 ≤ c.toNat ∧ c.toNat ≤ 86 then some (c.toNat - 55)
  else none

/-- A symbol of the lower-case alphabet, the only ones the encoder writes. -/
def isBase32hexLower (c : UInt8) : Bool :=
  (48 ≤ c.toNat && c.toNat ≤ 57) || (97 ≤ c.toNat && c.toNat ≤ 118)

/-- `u8::is_ascii_uppercase`. -/
def isAsciiUppercase (c : UInt8) : Bool := 65 ≤ c.toNat && c.toNat ≤ 90

/-- `u8::to_ascii_lowercase`. -/
def toAsciiLower (c : UInt8) : UInt8 := if isAsciiUppercase c then c + 32 else c

/-- The number a byte string spells, first byte most significant. -/
def bytesValue (bs : List UInt8) : Nat := valueBE 256 (bs.map UInt8.toNat)

/-- Unpadded encoding: the `8n` bits of `n` bytes, zero-filled to `⌈8n/5⌉`
whole symbols. -/
def base32Encode (bs : List UInt8) : List UInt8 :=
  let k := (8 * bs.length + 4) / 5
  (digitsBE 32 k (bytesValue bs * 2 ^ (5 * k - 8 * bs.length))).map base32Symbol

/-- Unpadded decoding: every symbol must be in the alphabet, the `r` bits past
the last whole byte must be fewer than a symbol and all zero. -/
def base32Decode (s : List UInt8) : Option (List UInt8) :=
  match s.mapM base32Value with
  | none => none
  | some vs =>
    let r := 5 * s.length % 8
    if r < 5 ∧ valueBE 32 vs % 2 ^ r = 0 then
      some ((digitsBE 256 (5 * s.length / 8) (valueBE 32 vs / 2 ^ r)).map UInt8.ofNat)
    else none

section Symbols

theorem base32Value_base32Symbol : ∀ v < 32, base32Value (base32Symbol v) = some v := by
  decide

theorem isBase32hexLower_base32Symbol : ∀ v < 32, isBase32hexLower (base32Symbol v) = true := by
  decide

theorem isAsciiUppercase_of_isBase32hexLower {c : UInt8} (h : isBase32hexLower c = true) :
    isAsciiUppercase c = false := by
  simp only [isBase32hexLower, isAsciiUppercase, Bool.or_eq_true, Bool.and_eq_true,
    decide_eq_true_eq] at h ⊢
  simp only [Bool.and_eq_false_iff, decide_eq_false_iff_not]
  omega

theorem base32Value_lt {c : UInt8} {v : Nat} (h : base32Value c = some v) : v < 32 := by
  unfold base32Value at h
  split_ifs at h <;> cases h <;> omega

theorem base32Symbol_of_base32Value {c : UInt8} {v : Nat} (hc : isAsciiUppercase c = false)
    (h : base32Value c = some v) : base32Symbol v = c := by
  have hc' : c.toNat < 65 ∨ 90 < c.toNat := by simp [isAsciiUppercase] at hc; omega
  have h256 := c.toNat_lt
  unfold base32Value at h
  split_ifs at h with h1 h2 <;> cases h
  · rw [base32Symbol, if_pos (by omega)]
    apply UInt8.toNat_inj.1
    rw [UInt8.toNat_ofNat', Nat.mod_eq_of_lt (by omega)]
    omega
  · rw [base32Symbol, if_neg (by omega)]
    apply UInt8.toNat_inj.1
    rw [UInt8.toNat_ofNat', Nat.mod_eq_of_lt (by omega)]
    omega
  · omega

theorem mapM_base32Value_map {vs : List Nat} (h : ∀ v ∈ vs, v < 32) :
    (vs.map base32Symbol).mapM base32Value = some vs := by
  induction vs with
  | nil => rfl
  | cons v vs ih =>
    rw [List.map_cons, List.mapM_cons, base32Value_base32Symbol v (h v (by simp)),
      ih (fun w hw => h w (by simp [hw]))]
    rfl

/-- What a successful symbol-by-symbol read says about its values. -/
theorem mapM_base32Value_eq_some {s : List UInt8} {vs : List Nat}
    (h : s.mapM base32Value = some vs) :
    vs.length = s.length ∧ (∀ v ∈ vs, v < 32) ∧
      ((∀ c ∈ s, isAsciiUppercase c = false) → vs.map base32Symbol = s) := by
  induction s generalizing vs with
  | nil => cases h; simp
  | cons c s ih =>
    rw [List.mapM_cons] at h
    obtain ⟨v, hv, h⟩ := Option.bind_eq_some_iff.1 h
    obtain ⟨ws, hws, h⟩ := Option.bind_eq_some_iff.1 h
    cases h
    obtain ⟨hlen, hlt, hsym⟩ := ih hws
    refine ⟨by simp [hlen], ?_, ?_⟩
    · intro w hw
      rcases List.mem_cons.1 hw with rfl | hw
      exacts [base32Value_lt hv, hlt w hw]
    · intro hs
      rw [List.map_cons, base32Symbol_of_base32Value (hs c (by simp)) hv,
        hsym (fun d hd => hs d (by simp [hd]))]

theorem toNat_toAsciiLower_of_upper {c : UInt8} (h : isAsciiUppercase c = true) :
    (toAsciiLower c).toNat = c.toNat + 32 := by
  simp only [isAsciiUppercase, Bool.and_eq_true, decide_eq_true_eq] at h
  rw [toAsciiLower, if_pos (by simp [isAsciiUppercase, h.1, h.2]), UInt8.toNat_add]
  simp only [UInt8.reduceToNat]
  omega

theorem isAsciiUppercase_toAsciiLower (c : UInt8) : isAsciiUppercase (toAsciiLower c) = false := by
  cases hu : isAsciiUppercase c
  · rw [toAsciiLower, if_neg (by simp [hu]), hu]
  · have h := toNat_toAsciiLower_of_upper hu
    simp only [isAsciiUppercase, Bool.and_eq_true, decide_eq_true_eq] at hu
    simp only [isAsciiUppercase, h, Bool.and_eq_false_iff, decide_eq_false_iff_not]
    omega

/-- The decoder reads an upper-case symbol as its lower-case one. -/
theorem base32Value_toAsciiLower (c : UInt8) : base32Value (toAsciiLower c) = base32Value c := by
  cases hu : isAsciiUppercase c
  · rw [toAsciiLower, if_neg (by simp [hu])]
  · have h := toNat_toAsciiLower_of_upper hu
    simp only [isAsciiUppercase, Bool.and_eq_true, decide_eq_true_eq] at hu
    -- `A`–`V` become `a`–`v` with the same value, `W`–`Z` become `w`–`z`, both rejected
    unfold base32Value
    rw [h]
    by_cases hv : c.toNat ≤ 86
    · rw [if_neg (by omega), if_pos (by omega), if_neg (by omega), if_neg (by omega), if_pos (by omega)]
      exact congrArg some (by omega)
    · rw [if_neg (by omega), if_neg (by omega), if_neg (by omega), if_neg (by omega), if_neg (by omega),
        if_neg (by omega)]

theorem mapM_base32Value_map_toAsciiLower (s : List UInt8) :
    (s.map toAsciiLower).mapM base32Value = s.mapM base32Value := by
  induction s with
  | nil => rfl
  | cons c s ih => rw [List.map_cons, List.mapM_cons, List.mapM_cons, ih, base32Value_toAsciiLower]

end Symbols

section Bytes

theorem map_toNat_map_ofNat {ds : List Nat} (h : ∀ d ∈ ds, d < 256) :
    (ds.map UInt8.ofNat).map UInt8.toNat = ds := by
  rw [List.map_map]
  conv_rhs => rw [← List.map_id ds]
  refine List.map_congr_left fun d hd => ?_
  simp [UInt8.toNat_ofNat', Nat.mod_eq_of_lt (h d hd)]

theorem forall_mem_map_toNat_lt (bs : List UInt8) : ∀ d ∈ bs.map UInt8.toNat, d < 256 := by
  simp only [List.mem_map]
  rintro d ⟨b, -, rfl⟩
  exact b.toNat_lt

theorem bytesValue_lt (bs : List UInt8) : bytesValue bs < 2 ^ (8 * bs.length) := by
  have := valueBE_lt (forall_mem_map_toNat_lt bs)
  rwa [List.length_map, show (256 : Nat) = 2 ^ 8 from rfl, ← pow_mul] at this

theorem digitsBE_bytesValue (bs : List UInt8) :
    (digitsBE 256 bs.length (bytesValue bs)).map UInt8.ofNat = bs := by
  have hd := digitsBE_valueBE (forall_mem_map_toNat_lt bs)
  rw [List.length_map] at hd
  rw [bytesValue, hd, List.map_map]
  conv_rhs => rw [← List.map_id bs]
  exact List.map_congr_left fun b _ => by simp

theorem bytesValue_map_ofNat (n m : Nat) :
    bytesValue ((digitsBE 256 n m).map UInt8.ofNat) = m % 2 ^ (8 * n) := by
  rw [bytesValue, map_toNat_map_ofNat (forall_mem_digitsBE_lt (by norm_num) n m),
    valueBE_digitsBE, pow_mul]
  rfl

end Bytes

section Codec

@[simp] theorem length_base32Encode (bs : List UInt8) :
    (base32Encode bs).length = (8 * bs.length + 4) / 5 := by
  simp [base32Encode]

theorem isBase32hexLower_of_mem_base32Encode {c : UInt8} {bs : List UInt8}
    (h : c ∈ base32Encode bs) : isBase32hexLower c = true := by
  obtain ⟨v, hv, rfl⟩ := List.mem_map.1 h
  exact isBase32hexLower_base32Symbol v (forall_mem_digitsBE_lt (by norm_num) _ _ v hv)

theorem pow_thirtyTwo (k : Nat) : 32 ^ k = 2 ^ (5 * k) := by
  rw [pow_mul]
  rfl

/-- Everything a successful decode says: the symbols read, the length and
trailing-bit checks passed, and the bytes are the whole ones read. -/
theorem base32Decode_eq_some_iff {s bs : List UInt8} :
    base32Decode s = some bs ↔ ∃ vs, s.mapM base32Value = some vs ∧ 5 * s.length % 8 < 5 ∧
      valueBE 32 vs % 2 ^ (5 * s.length % 8) = 0 ∧
      (digitsBE 256 (5 * s.length / 8) (valueBE 32 vs / 2 ^ (5 * s.length % 8))).map UInt8.ofNat
        = bs := by
  unfold base32Decode
  split
  case h_1 hn => simp [hn]
  case h_2 vs hvs => simp [hvs, and_assoc]

theorem base32Decode_base32Encode (bs : List UInt8) : base32Decode (base32Encode bs) = some bs := by
  set n := bs.length with hn
  set k := (8 * n + 4) / 5 with hk
  set ds := digitsBE 32 k (bytesValue bs * 2 ^ (5 * k - 8 * n))
  have hV : bytesValue bs * 2 ^ (5 * k - 8 * n) < 32 ^ k := by
    calc bytesValue bs * 2 ^ (5 * k - 8 * n) < 2 ^ (8 * n) * 2 ^ (5 * k - 8 * n) :=
          Nat.mul_lt_mul_of_pos_right (bytesValue_lt bs) (Nat.two_pow_pos _)
      _ = 32 ^ k := by rw [← pow_add, pow_thirtyTwo]; congr 1; omega
  have hm : valueBE 32 ds = bytesValue bs * 2 ^ (5 * k - 8 * n) := by
    rw [valueBE_digitsBE, Nat.mod_eq_of_lt hV]
  have hlen : (base32Encode bs).length = k := length_base32Encode bs
  have hr : 5 * k % 8 = 5 * k - 8 * n := by omega
  refine base32Decode_eq_some_iff.2 ⟨ds, ?_, ?_, ?_, ?_⟩
  · exact mapM_base32Value_map (forall_mem_digitsBE_lt (by norm_num) _ _)
  · rw [hlen]; omega
  · rw [hlen, hm, hr]; simp
  · rw [hlen, hm, hr, show 5 * k / 8 = n by omega, Nat.mul_div_cancel _ (Nat.two_pow_pos _), hn,
      digitsBE_bytesValue]

theorem base32Encode_base32Decode {s bs : List UInt8} (hs : ∀ c ∈ s, isAsciiUppercase c = false)
    (h : base32Decode s = some bs) : base32Encode bs = s := by
  obtain ⟨vs, hvs, hr, hz, rfl⟩ := base32Decode_eq_some_iff.1 h
  obtain ⟨hlen, hlt, hsym⟩ := mapM_base32Value_eq_some hvs
  set L := s.length with hL
  set m := valueBE 32 vs
  set n := 5 * L / 8
  have hm : m < 2 ^ (8 * n + 5 * L % 8) := by
    have := valueBE_lt hlt
    rwa [hlen, pow_thirtyTwo, show 5 * L = 8 * n + 5 * L % 8 by omega] at this
  have hq : m / 2 ^ (5 * L % 8) < 2 ^ (8 * n) := by
    rw [Nat.div_lt_iff_lt_mul (Nat.two_pow_pos _), ← pow_add]
    exact hm
  have hv : bytesValue ((digitsBE 256 n (m / 2 ^ (5 * L % 8))).map UInt8.ofNat) *
      2 ^ (5 * L % 8) = m := by
    rw [bytesValue_map_ofNat, Nat.mod_eq_of_lt hq, Nat.div_mul_cancel (Nat.dvd_of_mod_eq_zero hz)]
  rw [base32Encode, List.length_map, length_digitsBE, show (8 * n + 4) / 5 = L by omega,
    show 5 * L - 8 * n = 5 * L % 8 by omega, hv, ← hlen, digitsBE_valueBE hlt]
  exact hsym hs

theorem base32Decode_map_toAsciiLower (s : List UInt8) :
    base32Decode (s.map toAsciiLower) = base32Decode s := by
  simp only [base32Decode, List.length_map, mapM_base32Value_map_toAsciiLower]

/-- Whatever the decoder accepts, the encoder writes back in lower case. -/
theorem base32Encode_of_base32Decode {s bs : List UInt8} (h : base32Decode s = some bs) :
    base32Encode bs = s.map toAsciiLower := by
  apply base32Encode_base32Decode
  · intro c hc
    obtain ⟨d, -, rfl⟩ := List.mem_map.1 hc
    exact isAsciiUppercase_toAsciiLower d
  · rw [base32Decode_map_toAsciiLower]
    exact h

end Codec

end Carbide.Lib

import Carbide.Lib.Decimal

/-!
# Configuration versions

`crates/config-version/src/lib.rs`. A `ConfigVersion` is a `u64` version
number and a `DateTime<Utc>`; its database format is `V{version_nr}-T{micros}`
(`version_string`), read back by `ConfigVersion::from_str`, which trims the
input, splits it at `-`, checks the `V` and `T` markers, parses two `u64`s and
splits the microseconds into seconds and nanoseconds for
`DateTime::from_timestamp`. Serde and sqlx write `version_string` and read
with `from_str`.

A `DateTime<Utc>` is its distance from the epoch in nanoseconds, within
chrono's range of years -262143 to 262142; `timestamp_micros` rounds down. The
clock is an argument: `now` reads it as nanoseconds since the epoch.

* `fromStr_versionString`: every version at or after the epoch, in whole
  microseconds, is read back from its string;
* `fromStr_ok_domain`: every version `from_str` returns is such a version, and
  so is every version `initial`, `new`, `invalid` and `increment` build;
* `versionString_roundtrip`: the database format round-trips both ways;
* `incrementalChange_overflows_at_max`: `increment` and `incremental_change`
  write the same next version number, never 0, except at `u64::MAX`, where the
  plain `+ 1` of `incremental_change` panics (the workspace builds with
  `overflow-checks = true`) while `increment` writes 1.
-/
namespace Carbide.Config

open Carbide.Lib

/-- chrono's first second, `-262143-01-01T00:00:00Z`. -/
def minTimestampSecs : Int := -8334601315200

/-- chrono's last second, `+262142-12-31T23:59:59Z`. -/
def maxTimestampSecs : Int := 8210266876799

/-- `DateTime<Utc>`: nanoseconds since the Unix epoch, within chrono's range.
chrono is a dependency, not code under `src/`; this and the two functions
below are a stand-in for the behaviour it documents. -/
structure DateTimeUtc where
  nanos : Int
  ge_min : minTimestampSecs * 1000000000 ≤ nanos
  lt_max : nanos < (maxTimestampSecs + 1) * 1000000000
  deriving DecidableEq

namespace DateTimeUtc

theorem ext' {s t : DateTimeUtc} (h : s.nanos = t.nanos) : s = t := by
  cases s; cases t; simp only at h; subst h; rfl

/-- `DateTime::from_timestamp(secs, nsecs)`: `none` out of chrono's range. A
leap-second `nsecs` (a billion and up) is not modelled and reads as out of
range; `from_str` never passes one. -/
def fromTimestamp (secs : Int) (nsecs : Nat) : Option DateTimeUtc :=
  if h : minTimestampSecs ≤ secs ∧ secs ≤ maxTimestampSecs ∧ nsecs < 1000000000 then
    some ⟨secs * 1000000000 + nsecs, by omega, by omega⟩
  else none

/-- `timestamp_micros()`: whole microseconds since the epoch, rounded down. -/
def timestampMicros (t : DateTimeUtc) : Int := t.nanos / 1000

end DateTimeUtc

/-- mirrors lib.rs:76-88. -/
structure ConfigVersion where
  versionNr : UInt64
  timestamp : DateTimeUtc
  deriving DecidableEq

/-- Rust's `{}` for an `i64`. -/
def intDigits (i : Int) : List Char :=
  if i < 0 then '-' :: Nat.toDigits 10 i.natAbs else Nat.toDigits 10 i.toNat

/-- `char::is_whitespace`: the Unicode `White_Space` characters. -/
def isWhitespace (c : Char) : Bool :=
  let n := c.toNat
  (0x9 ≤ n && n ≤ 0xD) || n == 0x20 || n == 0x85 || n == 0xA0 || n == 0x1680 ||
    (0x2000 ≤ n && n ≤ 0x200A) || n == 0x2028 || n == 0x2029 || n == 0x202F || n == 0x205F ||
    n == 0x3000

/-- `str::trim`. -/
def trim (s : List Char) : List Char :=
  ((s.dropWhile isWhitespace).reverse.dropWhile isWhitespace).reverse

/-- mirrors lib.rs:243-249. -/
inductive ConfigVersionParseError
  | versionFormat (s : List Char)
  | dateTime (secs : Int) (nsecs : Nat)
  deriving DecidableEq

namespace ConfigVersion

/-- mirrors lib.rs:161-172. -/
def versionString (v : ConfigVersion) : List Char :=
  'V' :: Nat.toDigits 10 v.versionNr.toNat ++ '-' :: 'T' :: intDigits v.timestamp.timestampMicros

/-- The seconds and nanoseconds a `T` value names, read by `from_timestamp`. -/
def ofMicros (timestamp : Nat) : Except ConfigVersionParseError DateTimeUtc :=
  let secs := timestamp / 1000000
  let usecs := timestamp % 1000000
  match DateTimeUtc.fromTimestamp secs (usecs * 1000) with
  | some datetime => .ok datetime
  | none => .error (.dateTime secs (usecs * 1000))

/-- mirrors lib.rs:251-307. -/
def fromStr (s : List Char) : Except ConfigVersionParseError ConfigVersion :=
  match (trim s).splitOn '-' with
  | [versionNrStr, timestampStr] =>
    match versionNrStr, timestampStr with
    | 'V' :: versionNr, 'T' :: timestamp =>
      match parseUnsigned 64 versionNr, parseUnsigned 64 timestamp with
      | some versionNr, some timestamp =>
        (ofMicros timestamp).map fun datetime => ⟨UInt64.ofNat versionNr, datetime⟩
      | _, _ => .error (.versionFormat s)
    | _, _ => .error (.versionFormat s)
  | _ => .error (.versionFormat s)

end ConfigVersion

/-- `now()` with the clock at `sinceEpoch` nanoseconds after the epoch:
rounded down to the microsecond; `none` where its `expect` panics.
mirrors lib.rs:213-226 -/
def now (sinceEpoch : Nat) : Option DateTimeUtc :=
  let rounded := sinceEpoch - sinceEpoch % 1000
  DateTimeUtc.fromTimestamp (rounded / 1000000000) (rounded % 1000000000)

/-- `tzero()`: the code of `now()` on the epoch itself.
mirrors lib.rs:228-240 -/
def tzero : Option DateTimeUtc := now 0

/-- `Utc::now()` with the clock at `sinceEpoch` nanoseconds: unlike `now()`, not
rounded to the microsecond. -/
def utcNow (sinceEpoch : Nat) : Option DateTimeUtc :=
  DateTimeUtc.fromTimestamp (sinceEpoch / 1000000000) (sinceEpoch % 1000000000)

/-- `a + b` on `u64` in this workspace, whose release profile keeps
`overflow-checks = true` (Cargo.toml:275-278): `none` where the addition panics. -/
def addU64 (a b : UInt64) : Option UInt64 :=
  if a.toNat + b.toNat < 2 ^ 64 then some (a + b) else none

/-- mirrors lib.rs:93-97: the version a compare-and-swap expects, and the one it writes. -/
structure ConfigVersionChange where
  current : ConfigVersion
  new : ConfigVersion

namespace ConfigVersion

/-- mirrors lib.rs:122-127. -/
def initial (clock : Nat) : Option ConfigVersion := (now clock).map fun t => ⟨1, t⟩

/-- mirrors lib.rs:129-134. -/
def new (versionNr : UInt64) (clock : Nat) : Option ConfigVersion :=
  (now clock).map fun t => ⟨versionNr, t⟩

/-- mirrors lib.rs:137-142. -/
def invalid : Option ConfigVersion := tzero.map fun t => ⟨0, t⟩

/-- mirrors lib.rs:149-156: wraps, and skips 0. -/
def increment (v : ConfigVersion) (clock : Nat) : Option ConfigVersion :=
  let nr := v.versionNr + 1
  (now clock).map fun t => ⟨nr ||| (if nr = 0 then 1 else 0), t⟩

/-- mirrors lib.rs:201-210: a plain `+ 1`, stamped with the unrounded `Utc::now()`. -/
def incrementalChange (v : ConfigVersion) (clock : Nat) : Option ConfigVersionChange := do
  let nr ← addU64 v.versionNr 1
  let t ← utcNow clock
  pure ⟨v, ⟨nr, t⟩⟩

end ConfigVersion

/-! ## The strings `version_string` prints -/

theorem isWhitespace_of_isDigit {c : Char} (h : c.isDigit = true) : isWhitespace c = false := by
  simp only [Char.isDigit, Bool.and_eq_true, decide_eq_true_eq] at h
  have h1 : 48 ≤ c.toNat := h.1
  have h2 : c.toNat ≤ 57 := h.2
  simp only [isWhitespace, Bool.or_eq_false_iff, Bool.and_eq_false_iff, decide_eq_false_iff_not,
    beq_eq_false_iff_ne]
  omega

theorem dropWhile_eq_self {p : Char → Bool} {l : List Char} (h : ∀ c ∈ l.head?, p c = false) :
    l.dropWhile p = l := by
  cases l with
  | nil => rfl
  | cons c l => exact List.dropWhile_cons_of_neg (by simp_all)

/-- A string that neither starts nor ends with white space is its own trim. -/
theorem trim_eq_self {s : List Char} (hhead : ∀ c ∈ s.head?, isWhitespace c = false)
    (hlast : ∀ c ∈ s.getLast?, isWhitespace c = false) : trim s = s := by
  unfold trim
  rw [dropWhile_eq_self hhead, dropWhile_eq_self (by rwa [List.head?_reverse]),
    List.reverse_reverse]

theorem intDigits_of_nonneg {i : Int} (h : 0 ≤ i) : intDigits i = Nat.toDigits 10 i.toNat := by
  simp [intDigits, not_lt.2 h]

/-- A marker other than `-` before a printed number leaves no `-` to split at. -/
theorem beq_dash_marker {m : Char} (hm : m ≠ '-') (n : Nat) :
    ∀ x ∈ m :: Nat.toDigits 10 n, (x == '-') = false := by
  intro x hx
  rw [beq_eq_false_iff_ne]
  rcases List.mem_cons.1 hx with rfl | hx
  · exact hm
  · rintro rfl
    exact absurd (isDigit_of_mem_toDigits hx) (by decide)

namespace ConfigVersion

/-- The string of a version after the epoch: two decimal numbers behind their
markers, joined by the one `-`. -/
theorem splitOn_versionString (v : ConfigVersion) (h : 0 ≤ v.timestamp.timestampMicros) :
    v.versionString.splitOn '-' =
      ['V' :: Nat.toDigits 10 v.versionNr.toNat,
        'T' :: Nat.toDigits 10 v.timestamp.timestampMicros.toNat] := by
  rw [versionString, intDigits_of_nonneg h, List.splitOn,
    List.splitOnP_append_cons_of_forall_mem (beq_dash_marker (by decide) _) _ (by decide),
    List.splitOnP_eq_singleton (beq_dash_marker (by decide) _)]

theorem trim_versionString (v : ConfigVersion) (h : 0 ≤ v.timestamp.timestampMicros) :
    trim v.versionString = v.versionString := by
  apply trim_eq_self
  · simp [versionString]; decide
  · -- the string ends with the last digit of the microseconds
    intro c hc
    rw [versionString, intDigits_of_nonneg h] at hc
    have hmem : c ∈ Nat.toDigits 10 v.timestamp.timestampMicros.toNat := by
      simp only [List.getLast?_cons, List.getLast?_append, Option.mem_def] at hc
      cases hl : (Nat.toDigits 10 v.timestamp.timestampMicros.toNat).getLast? with
      | none => exact absurd (List.getLast?_eq_none_iff.1 hl) Nat.toDigits_ne_nil
      | some d =>
        simp only [hl, Option.getD_some, Option.some_or, Option.some.injEq] at hc
        exact hc ▸ List.mem_of_getLast? hl
    exact isWhitespace_of_isDigit (isDigit_of_mem_toDigits hmem)

end ConfigVersion

/-! ## Reading the microseconds -/

theorem DateTimeUtc.fromTimestamp_nanos {secs : Int} {nsecs : Nat} {t : DateTimeUtc}
    (h : DateTimeUtc.fromTimestamp secs nsecs = some t) : t.nanos = secs * 1000000000 + nsecs := by
  unfold DateTimeUtc.fromTimestamp at h
  split at h
  · cases h; rfl
  · cases h

namespace ConfigVersion

theorem ofMicros_nanos {timestamp : Nat} {t : DateTimeUtc} (h : ofMicros timestamp = .ok t) :
    t.nanos = timestamp * 1000 := by
  dsimp only [ofMicros] at h
  split at h
  · rename_i heq
    cases h
    rw [DateTimeUtc.fromTimestamp_nanos heq]
    omega
  · cases h

/-- The microseconds of a timestamp after the epoch, in whole microseconds,
name that timestamp again. -/
theorem ofMicros_timestampMicros {t : DateTimeUtc} (hpos : 0 ≤ t.nanos) (hmicro : t.nanos % 1000 = 0) :
    ofMicros t.timestampMicros.toNat = .ok t := by
  have hmax := t.lt_max
  simp only [DateTimeUtc.timestampMicros, maxTimestampSecs] at hmax ⊢
  have hrange : minTimestampSecs ≤ ((t.nanos / 1000).toNat / 1000000 : Nat) ∧
      (((t.nanos / 1000).toNat / 1000000 : Nat) : Int) ≤ maxTimestampSecs ∧
      (t.nanos / 1000).toNat % 1000000 * 1000 < 1000000000 := by
    simp only [minTimestampSecs, maxTimestampSecs]
    omega
  dsimp only [ofMicros, DateTimeUtc.fromTimestamp]
  rw [dif_pos hrange]
  exact congrArg Except.ok (DateTimeUtc.ext' (by simp only; omega))

theorem fromStr_eq_ok {s : List Char} {v : ConfigVersion} (h : fromStr s = .ok v) :
    ∃ timestamp, ofMicros timestamp = .ok v.timestamp := by
  unfold fromStr at h
  split at h
  · split at h
    · split at h
      · rename_i timestamp _ _
        cases hm : ofMicros timestamp with
        | error e => rw [hm] at h; cases h
        | ok t =>
          rw [hm] at h
          cases h
          exact ⟨timestamp, hm⟩
      · cases h
    · cases h
  · cases h

end ConfigVersion

/-! ## The round trip -/

namespace ConfigVersion

/-- Every version at or after the epoch, in whole microseconds, is read back
from its string. -/
theorem fromStr_versionString (v : ConfigVersion) (hpos : 0 ≤ v.timestamp.nanos)
    (hmicro : v.timestamp.nanos % 1000 = 0) : fromStr v.versionString = .ok v := by
  have hmicros : 0 ≤ v.timestamp.timestampMicros := by
    unfold DateTimeUtc.timestampMicros
    omega
  -- chrono's last second is far below `u64::MAX` microseconds
  have hfits : v.timestamp.timestampMicros.toNat < 2 ^ 64 := by
    have := v.timestamp.lt_max
    simp only [DateTimeUtc.timestampMicros, maxTimestampSecs] at this ⊢
    omega
  unfold fromStr
  rw [trim_versionString v hmicros, splitOn_versionString v hmicros]
  simp only [parseUnsigned_toDigits (UInt64.toNat_lt v.versionNr), parseUnsigned_toDigits hfits,
    ofMicros_timestampMicros hpos hmicro, UInt64.ofNat_toNat]
  rfl

/-- What `from_str` returns is at or after the epoch, in whole microseconds. -/
theorem fromStr_ok_domain {s : List Char} {v : ConfigVersion} (h : fromStr s = .ok v) :
    0 ≤ v.timestamp.nanos ∧ v.timestamp.nanos % 1000 = 0 := by
  obtain ⟨timestamp, hts⟩ := fromStr_eq_ok h
  rw [ofMicros_nanos hts]
  omega

end ConfigVersion

/-- `now()` is at or after the epoch, in whole microseconds. -/
theorem now_domain {clock : Nat} {t : DateTimeUtc} (h : now clock = some t) :
    0 ≤ t.nanos ∧ t.nanos % 1000 = 0 := by
  have := DateTimeUtc.fromTimestamp_nanos h
  omega

namespace ConfigVersion

/-- So is every version the constructors build. -/
theorem built_domain {clock : Nat} {nr : UInt64} {v w : ConfigVersion}
    (h : initial clock = some w ∨ new nr clock = some w ∨ invalid = some w ∨
      v.increment clock = some w) :
    0 ≤ w.timestamp.nanos ∧ w.timestamp.nanos % 1000 = 0 := by
  -- each constructor stamps the version with a reading of the clock
  have hnow : ∃ c t, now c = some t ∧ w.timestamp = t := by
    rcases h with h | h | h | h <;>
      obtain ⟨t, ht, rfl⟩ := Option.map_eq_some_iff.1 h
    · exact ⟨clock, t, ht, rfl⟩
    · exact ⟨clock, t, ht, rfl⟩
    · exact ⟨0, t, ht, rfl⟩
    · exact ⟨clock, t, ht, rfl⟩
  obtain ⟨c, t, ht, hw⟩ := hnow
  rw [hw]
  exact now_domain ht

/-- The database format round-trips: every version at or after the epoch in
whole microseconds (every version the constructors build among them) is read
back from `version_string`, and every version `from_str` accepts prints to a
string that reads back to it. Serde and sqlx go through the same two
functions. -/
theorem versionString_roundtrip :
    (∀ v : ConfigVersion, 0 ≤ v.timestamp.nanos → v.timestamp.nanos % 1000 = 0 →
      fromStr v.versionString = .ok v) ∧
      (∀ (s : List Char) (v : ConfigVersion), fromStr s = .ok v →
        fromStr v.versionString = .ok v) ∧
      ∀ (clock : Nat) (nr : UInt64) (v w : ConfigVersion),
        (initial clock = some w ∨ new nr clock = some w ∨ invalid = some w ∨
          v.increment clock = some w) →
        fromStr w.versionString = .ok w := by
  refine ⟨fromStr_versionString, fun s v h => ?_, fun clock nr v w h => ?_⟩
  · obtain ⟨hpos, hmicro⟩ := fromStr_ok_domain h
    exact fromStr_versionString v hpos hmicro
  · obtain ⟨hpos, hmicro⟩ := built_domain h
    exact fromStr_versionString w hpos hmicro

/-- A version made by `initial` at 2023-11-14T22:13:20.123456789Z. -/
theorem versionString_roundtrip_initial :
    ∃ w, initial 1700000000123456789 = some w ∧ fromStr w.versionString = .ok w := by
  obtain ⟨w, hw⟩ : ∃ w, initial 1700000000123456789 = some w :=
    Option.isSome_iff_exists.1 (by decide)
  exact ⟨w, hw, versionString_roundtrip.2.2 _ 0 w w (.inl hw)⟩

end ConfigVersion

/-! ## The next version number -/

/-- `Utc::now()` reads every clock that `now()` reads. -/
theorem utcNow_of_now {clock : Nat} {t : DateTimeUtc} (h : now clock = some t) :
    ∃ u, utcNow clock = some u := by
  simp only [now] at h
  unfold utcNow DateTimeUtc.fromTimestamp at *
  split at h
  · rename_i hc
    -- rounding down to the microsecond stays within the second
    have hsecs : ((clock - clock % 1000 : ℕ) : ℤ) / 1000000000 = (clock : ℤ) / 1000000000 := by
      omega
    rw [hsecs] at hc
    rw [dif_pos ⟨hc.1, hc.2.1, Nat.mod_lt _ (by decide)⟩]
    exact ⟨_, rfl⟩
  · cases h

theorem addU64_one (n : UInt64) :
    addU64 n 1 = if n.toNat = 2 ^ 64 - 1 then none else some (n + 1) := by
  have hlt := n.toNat_lt
  unfold addU64
  by_cases hmax : n.toNat = 2 ^ 64 - 1
  · rw [if_neg (by simp only [UInt64.toNat_one]; omega), if_pos hmax]
  · rw [if_pos (by simp only [UInt64.toNat_one]; omega), if_neg hmax]

namespace ConfigVersion

/-- `increment` gives the successor of the version number, and 1 after `u64::MAX`. -/
theorem increment_versionNr {v w : ConfigVersion} {clock : Nat} (h : v.increment clock = some w) :
    w.versionNr.toNat = if v.versionNr.toNat = 2 ^ 64 - 1 then 1 else v.versionNr.toNat + 1 := by
  obtain ⟨t, -, rfl⟩ := Option.map_eq_some_iff.1 h
  have hlt := v.versionNr.toNat_lt
  have hsucc : (v.versionNr + 1).toNat = (v.versionNr.toNat + 1) % 2 ^ 64 := by
    rw [UInt64.toNat_add, UInt64.toNat_one]
  by_cases hmax : v.versionNr.toNat = 2 ^ 64 - 1
  · -- the wrapping add gives 0, which the `|=` turns into 1
    have hzero : v.versionNr + 1 = 0 := UInt64.toNat_inj.1 (by rw [hsucc, hmax]; rfl)
    rw [if_pos hmax]
    simp only [hzero, if_true]
    rfl
  · have hne : v.versionNr + 1 ≠ 0 := fun e => by
      have := congrArg UInt64.toNat e
      rw [hsucc, UInt64.toNat_zero] at this
      omega
    rw [if_neg hmax]
    simp only [hne, if_false, UInt64.or_zero, hsucc]
    omega

/-- `increment` and `incremental_change` agree on the next version number below
`u64::MAX`: both write its successor, never 0. At `u64::MAX`, `increment` skips
0 and writes 1, but the `+ 1` of `incremental_change` overflows, which panics
under the workspace's `overflow-checks = true`: the change that would expect the
version and write the next one is never built. -/
theorem incrementalChange_overflows_at_max {v w : ConfigVersion} {clock : Nat}
    (h : v.increment clock = some w) :
    w.versionNr ≠ 0 ∧
    (v.versionNr.toNat < 2 ^ 64 - 1 → ∃ c, v.incrementalChange clock = some c ∧ c.current = v ∧
      c.new.versionNr = w.versionNr ∧ w.versionNr.toNat = v.versionNr.toNat + 1) ∧
    (v.versionNr.toNat = 2 ^ 64 - 1 → w.versionNr = 1 ∧ v.incrementalChange clock = none) := by
  have hnr := increment_versionNr h
  have hlt := v.versionNr.toNat_lt
  obtain ⟨t, ht, -⟩ := Option.map_eq_some_iff.1 h
  refine ⟨fun h0 => ?_, fun hbelow => ?_, fun hmax => ?_⟩
  · rw [h0, UInt64.toNat_zero] at hnr
    split at hnr <;> omega
  · obtain ⟨u, hu⟩ := utcNow_of_now ht
    rw [if_neg (by omega)] at hnr
    refine ⟨⟨v, ⟨v.versionNr + 1, u⟩⟩, ?_, rfl, ?_, hnr⟩
    · simp only [incrementalChange, addU64_one, if_neg (show ¬ v.versionNr.toNat = 2 ^ 64 - 1 by omega),
        hu]
      rfl
    · apply UInt64.toNat_inj.1
      rw [hnr, UInt64.toNat_add, UInt64.toNat_one]
      exact Nat.mod_eq_of_lt (by omega)
  · rw [if_pos hmax] at hnr
    refine ⟨UInt64.toNat_inj.1 (by rw [hnr]; rfl), ?_⟩
    simp only [incrementalChange, addU64_one, if_pos hmax]
    rfl

/-- A version at `u64::MAX`, stamped at the epoch, incremented at the epoch. -/
theorem incrementalChange_overflows_at_max_epoch :
    ∃ t : DateTimeUtc, (⟨18446744073709551615, t⟩ : ConfigVersion).increment 0 = some ⟨1, t⟩ ∧
      ((1 : UInt64) ≠ 0 ∧
      (UInt64.toNat 18446744073709551615 < 2 ^ 64 - 1 →
        ∃ c, (⟨18446744073709551615, t⟩ : ConfigVersion).incrementalChange 0 = some c ∧
          c.current = ⟨18446744073709551615, t⟩ ∧ c.new.versionNr = 1 ∧
          UInt64.toNat 1 = UInt64.toNat 18446744073709551615 + 1) ∧
      (UInt64.toNat 18446744073709551615 = 2 ^ 64 - 1 → (1 : UInt64) = 1 ∧
        (⟨18446744073709551615, t⟩ : ConfigVersion).incrementalChange 0 = none)) :=
  ⟨⟨0, by decide, by decide⟩, rfl, @incrementalChange_overflows_at_max ⟨18446744073709551615, _⟩
    ⟨1, _⟩ 0 rfl⟩

end ConfigVersion

end Carbide.Config

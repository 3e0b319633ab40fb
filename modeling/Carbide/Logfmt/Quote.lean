import Mathlib.Data.List.TakeDrop
import Carbide.Lib.Hex

/-!
# Quoting logfmt values (`crates/logfmt/src/lib.rs`)

A value is written after `key=` either as it is or, when `value_needs_quoting`
says so, between double quotes and escaped by `str::escape_debug`. Three paths
write values (`Kvp`'s `Display`, `render_value` and `FieldVisitor::record_str`)
and all take the same decision through `render_quoted`.

The quoting decision probes each character with `char::escape_debug`, which
escapes grapheme extenders, while the quoted form uses `str::escape_debug`,
which escapes them only in the first position. Both are modelled from
`core::char::methods::escape_debug_ext`; the Unicode tables they consult
(`is_printable` above ASCII and `Grapheme_Extend`) are a parameter, with the one
property of the generated printable table used here: the control characters
and the white space above ASCII are not printable.

Results:
* `valueNeedsQuoting_eq_any`: the ASCII fast path decides as the per-character one;
* `charNeedsQuoting_eq_false`: a character left unquoted is printable, no space,
  control, `=` or quote, and `char::escape_debug` keeps it as it is;
* `escapeDebugExt_cases`: what `escape_debug_ext` writes for one character;
* `unescapeDebug_escapeDebugChars`: the escaped form reads back as the value;
* `scanQuoted_escapeDebugChars`: a reader of a quoted value stops at the quote
  after the escaped form, whatever follows it;
* `rendered_value_recoverable`: the three paths agree, and each value is written
  as a token that reads back as it.
-/
namespace Carbide.Logfmt

open Carbide.Lib

/-! ## Unicode properties -/

/-- `char::is_whitespace`: ASCII space and `\t`..`\r`, and the `White_Space`
characters above ASCII. -/
def isWhitespace (c : Char) : Bool :=
  c = ' ' || (0x9 ≤ c.toNat && c.toNat ≤ 0xd) ||
    (0x7f < c.toNat && (c.toNat = 0x85 || c.toNat = 0xa0 || c.toNat = 0x1680 ||
      (0x2000 ≤ c.toNat && c.toNat ≤ 0x200a) || c.toNat = 0x2028 || c.toNat = 0x2029 ||
      c.toNat = 0x202f || c.toNat = 0x205f || c.toNat = 0x3000))

/-- `char::is_control`: the general category `Cc`. -/
def isControl (c : Char) : Bool := c.toNat ≤ 0x1f || (0x7f ≤ c.toNat && c.toNat ≤ 0x9f)

/-- The Unicode tables of `core`: `printable` for `is_printable` from DEL on,
`graphemeExtend` for `Grapheme_Extend`. The generator of the printable table
leaves out the categories `Cc`, `Zs`, `Zl` and `Zp`. -/
structure UnicodeTables where
  printable : Char → Bool
  graphemeExtend : Char → Bool
  not_printable : ∀ c : Char, 0x7f ≤ c.toNat → (isWhitespace c || isControl c) = true →
    printable c = false

/-! ## `escape_debug` -/

/-- `EscapeDebugExtArgs`. -/
structure EscapeDebugExtArgs where
  escapeGraphemeExtended : Bool
  escapeSingleQuote : Bool
  escapeDoubleQuote : Bool

/-- `EscapeDebugExtArgs::ESCAPE_ALL`, which `char::escape_debug` and the first
character of `str::escape_debug` use. -/
def EscapeDebugExtArgs.escapeAll : EscapeDebugExtArgs := ⟨true, true, true⟩

/-- The arguments of `str::escape_debug` after the first character. -/
def EscapeDebugExtArgs.afterFirst : EscapeDebugExtArgs := ⟨false, true, true⟩

section Escape

variable (T : UnicodeTables)

/-- `core::unicode::printable::is_printable`: by range below DEL. -/
def isPrintable (c : Char) : Bool :=
  if c.toNat < 32 then false else if c.toNat < 127 then true else T.printable c

/-- `char::is_grapheme_extended`: nothing below U+0300 extends a grapheme. -/
def isGraphemeExtended (c : Char) : Bool := 0x300 ≤ c.toNat && T.graphemeExtend c

/-- `\u{…}`: the code point in lower-case hex digits, without leading zeros. -/
def escapeUnicode (c : Char) : List Char := '\\' :: 'u' :: '{' :: (Nat.toDigits 16 c.toNat ++ ['}'])

/-- `char::escape_debug_ext`. -/
def escapeDebugExt (args : EscapeDebugExtArgs) (c : Char) : List Char :=
  if c = '\x00' then ['\\', '0']
  else if c = '\t' then ['\\', 't']
  else if c = '\r' then ['\\', 'r']
  else if c = '\n' then ['\\', 'n']
  else if c = '\\' then ['\\', '\\']
  else if c = '\x22' ∧ args.escapeDoubleQuote = true then ['\\', '\x22']
  else if c = '\x27' ∧ args.escapeSingleQuote = true then ['\\', '\x27']
  else if args.escapeGraphemeExtended = true ∧ isGraphemeExtended T c = true then escapeUnicode c
  else if isPrintable T c = true then [c]
  else escapeUnicode c

/-- `char::escape_debug`. -/
def charEscapeDebug (c : Char) : List Char := escapeDebugExt T .escapeAll c

/-- `str::escape_debug` on the characters of a string. -/
def escapeDebugChars : List Char → List Char
  | [] => []
  | c :: cs => charEscapeDebug T c ++ cs.flatMap (escapeDebugExt T .afterFirst)

/-- `str::escape_debug`. -/
def strEscapeDebug (s : String) : String := String.ofList (escapeDebugChars T s.toList)

/-! ## The quoting decision and the three paths -/

/-- mirrors lib.rs:591-594 -/
def charIsEscaped (c : Char) : Bool :=
  let escaped := charEscapeDebug T c
  escaped.head? != some c || (escaped.drop 1).head?.isSome

/-- mirrors lib.rs:605-607 -/
def asciiNeedsQuoting (byte : UInt8) : Bool :=
  byte ≤ 32 || byte = 0x7f || byte = 61 || byte = 34 || byte = 39 || byte = 92

/-- mirrors lib.rs:610-617 -/
def charNeedsQuoting (c : Char) : Bool :=
  if c.toNat < 128 then asciiNeedsQuoting c.toUInt8 else charIsEscaped T c

/-- mirrors lib.rs:629-635; the bytes of an ASCII value are its characters. -/
def valueNeedsQuoting (value : String) : Bool :=
  if value.toList.all (·.toNat < 128) then value.toList.any fun c => asciiNeedsQuoting c.toUInt8
  else value.toList.any (charNeedsQuoting T)

/-- `escape_key_name`: a dot becomes an underscore.
mirrors lib.rs:561-568 -/
def escapeKeyName (key : String) : String :=
  String.ofList (key.toList.map fun c => if c = '.' then '_' else c)

/-- `impl Display for Kvp`.
mirrors lib.rs:636-648 -/
def kvpFmt (key value : String) : String :=
  if valueNeedsQuoting T value then escapeKeyName key ++ "=\x22" ++ strEscapeDebug T value ++ "\x22"
  else escapeKeyName key ++ "=" ++ value

/-- mirrors lib.rs:757-760 -/
def renderQuoted (value : String) : String := "\x22" ++ strEscapeDebug T value ++ "\x22"

/-- mirrors lib.rs:765-771 -/
def renderValue (value : String) : String :=
  if valueNeedsQuoting T value then renderQuoted T value else value

/-- `FieldVisitor::record_str`: the rendering it pushes as the field's value.
mirrors lib.rs:785-792 -/
def recordStr (value : String) : String :=
  if valueNeedsQuoting T value then renderQuoted T value else value

end Escape

/-! ## Reading a value back -/

/-- The character a two-character escape `\0 \t \r \n \\ \" \'` stands for. -/
def unescapeChar (c : Char) : Option Char :=
  if c = '0' then some '\x00'
  else if c = 't' then some '\t'
  else if c = 'r' then some '\r'
  else if c = 'n' then some '\n'
  else if c = '\\' then some '\\'
  else if c = '\x22' then some '\x22'
  else if c = '\x27' then some '\x27'
  else none

/-- After `\u`: `{`, hex digits and `}`. -/
def readUnicode : List Char → Option (Char × List Char)
  | [] => none
  | b :: more =>
    if b = '{' then
      match more.span (· ≠ '}') with
      | (digits, _ :: rest) => if digits = [] then none else some (Char.ofNat (hexValue digits), rest)
      | (_, []) => none
    else none

/-- Reads one character of `escape_debug`'s output: an escape after a backslash,
any other character as it is. -/
def readEscaped : List Char → Option (Char × List Char)
  | [] => none
  | c :: rest =>
    if c = '\\' then
      match rest with
      | [] => none
      | d :: more => if d = 'u' then readUnicode more else (unescapeChar d).map fun x => (x, more)
    else some (c, rest)

/-- Reads characters until the input ends, at most `fuel` of them. -/
def unescapeLoop : Nat → List Char → Option (List Char)
  | _, [] => some []
  | 0, _ :: _ => none
  | fuel + 1, c :: rest =>
    match readEscaped (c :: rest) with
    | some (x, after) => (unescapeLoop fuel after).map (x :: ·)
    | none => none

/-- The inverse of `escape_debug`: each character takes at least one character
of the input. -/
def unescapeDebug (s : List Char) : Option (List Char) := unescapeLoop s.length s

/-- A logfmt reader inside a quoted value: a backslash takes the next character
with it (`escaped` is set right after one), and the first other `"` closes the
value. -/
def scanQuotedFrom : Bool → List Char → Option (List Char × List Char)
  | _, [] => none
  | true, c :: rest => (scanQuotedFrom false rest).map fun r => (c :: r.1, r.2)
  | false, c :: rest =>
    if c = '\x22' then some ([], rest)
    else (scanQuotedFrom (c = '\\') rest).map fun r => (c :: r.1, r.2)

/-- The reader after the opening quote: the value and what follows its closing quote. -/
def scanQuoted (s : List Char) : Option (List Char × List Char) := scanQuotedFrom false s

/-! ## Reading back what `escape_debug` writes -/

theorem hexDigit_ne : ∀ d < 16, hexDigit d ≠ '}' ∧ hexDigit d ≠ '\x22' ∧ hexDigit d ≠ '\\' := by
  decide

/-- The hex digits of a code point stop at the `}` after them. -/
theorem span_toDigits (c : Char) (rest : List Char) :
    (Nat.toDigits 16 c.toNat ++ '}' :: rest).span (· ≠ '}') = (Nat.toDigits 16 c.toNat, '}' :: rest) := by
  have hd : ∀ a ∈ Nat.toDigits 16 c.toNat, decide (a ≠ '}') = true := fun a ha => by
    obtain ⟨d, hd, rfl⟩ := isHexDigit_of_mem_toDigits ha
    exact decide_eq_true (hexDigit_ne d hd).1
  rw [List.span_eq_takeWhile_dropWhile, List.takeWhile_append_of_pos hd, List.dropWhile_append_of_pos hd]
  simp

theorem readEscaped_escapeUnicode (c : Char) (rest : List Char) :
    readEscaped (escapeUnicode c ++ rest) = some (c, rest) := by
  have h : escapeUnicode c ++ rest = '\\' :: 'u' :: '{' :: (Nat.toDigits 16 c.toNat ++ '}' :: rest) := by
    simp [escapeUnicode]
  rw [h]
  simp only [readEscaped, readUnicode, if_true]
  rw [span_toDigits]
  simp [Nat.toDigits_ne_nil, hexValue_toDigits]

section Escaped

variable (T : UnicodeTables)

/-- What `escape_debug_ext` writes for a character: a backslash and a character
that `unescapeChar` reads back as it, a `\u{…}` escape, or the character
itself, which is then printable, no backslash, and no quote when quotes are
escaped. -/
theorem escapeDebugExt_cases (args : EscapeDebugExtArgs) (c : Char) :
    (∃ d, escapeDebugExt T args c = ['\\', d] ∧ unescapeChar d = some c) ∨
      escapeDebugExt T args c = escapeUnicode c ∨
      (escapeDebugExt T args c = [c] ∧ c ≠ '\\' ∧ (args.escapeDoubleQuote = true → c ≠ '\x22') ∧
        isPrintable T c = true) := by
  generalize he : escapeDebugExt T args c = e
  unfold escapeDebugExt at he
  -- one branch of `escape_debug_ext` at a time, in its order
  split at he
  · rename_i h; subst h he; exact .inl ⟨'0', rfl, rfl⟩
  split at he
  · rename_i h; subst h he; exact .inl ⟨'t', rfl, rfl⟩
  split at he
  · rename_i h; subst h he; exact .inl ⟨'r', rfl, rfl⟩
  split at he
  · rename_i h; subst h he; exact .inl ⟨'n', rfl, rfl⟩
  split at he
  · rename_i h; subst h he; exact .inl ⟨'\\', rfl, rfl⟩
  split at he
  · rename_i h; obtain ⟨rfl, -⟩ := h; subst he; exact .inl ⟨'\x22', rfl, rfl⟩
  split at he
  · rename_i h; obtain ⟨rfl, -⟩ := h; subst he; exact .inl ⟨'\x27', rfl, rfl⟩
  split at he
  · subst he; exact .inr (.inl rfl)
  split at he
  · rename_i hb hq _ _ hp
    subst he
    exact .inr (.inr ⟨rfl, hb, fun hdq e => hq ⟨e, hdq⟩, hp⟩)
  · subst he; exact .inr (.inl rfl)

theorem readEscaped_backslash {d c : Char} (hd : unescapeChar d = some c) (more : List Char) :
    readEscaped ('\\' :: d :: more) = some (c, more) := by
  have hu : d ≠ 'u' := fun e => by subst e; cases hd
  simp only [readEscaped, if_true, if_neg hu, hd, Option.map_some]

/-- Every character's escape reads back as it, whatever follows. -/
theorem readEscaped_escapeDebugExt (args : EscapeDebugExtArgs) (c : Char) (rest : List Char) :
    readEscaped (escapeDebugExt T args c ++ rest) = some (c, rest) := by
  rcases escapeDebugExt_cases T args c with ⟨d, h, hd⟩ | h | ⟨h, hb, -, -⟩ <;> rw [h]
  · exact readEscaped_backslash hd rest
  · exact readEscaped_escapeUnicode c rest
  · simp only [List.singleton_append, readEscaped, if_neg hb]

theorem escapeDebugExt_ne_nil (args : EscapeDebugExtArgs) (c : Char) : escapeDebugExt T args c ≠ [] := by
  rcases escapeDebugExt_cases T args c with ⟨d, h, -⟩ | h | ⟨h, -⟩ <;> rw [h] <;> simp [escapeUnicode]

/-- The arguments `str::escape_debug` gives each character. -/
def escapeArgs : List Char → List (EscapeDebugExtArgs × Char)
  | [] => []
  | c :: cs => (.escapeAll, c) :: cs.map (.afterFirst, ·)

theorem escapeDebugChars_eq_flatMap (cs : List Char) :
    escapeDebugChars T cs = (escapeArgs cs).flatMap fun p => escapeDebugExt T p.1 p.2 := by
  cases cs with
  | nil => rfl
  | cons c cs => simp [escapeDebugChars, escapeArgs, charEscapeDebug, List.flatMap_map]

theorem map_snd_escapeArgs (cs : List Char) : (escapeArgs cs).map Prod.snd = cs := by
  cases cs with
  | nil => rfl
  | cons c cs => simp [escapeArgs, Function.comp_def]

/-- One escaped character off the front, then the rest. -/
theorem unescapeLoop_token {t rest : List Char} {x : Char} (ht : t ≠ [])
    (h : readEscaped (t ++ rest) = some (x, rest)) (fuel : Nat) :
    unescapeLoop (fuel + 1) (t ++ rest) = (unescapeLoop fuel rest).map (x :: ·) := by
  obtain ⟨a, t', rfl⟩ := List.exists_cons_of_ne_nil ht
  rw [List.cons_append] at h ⊢
  simp only [unescapeLoop, h]

/-- Escaped characters read back one by one, with one unit of fuel each. -/
theorem unescapeLoop_flatMap (ps : List (EscapeDebugExtArgs × Char)) :
    ∀ fuel, ps.length ≤ fuel →
      unescapeLoop fuel (ps.flatMap fun p => escapeDebugExt T p.1 p.2) = some (ps.map Prod.snd) := by
  induction ps with
  | nil =>
    intro fuel _
    cases fuel <;> rfl
  | cons p ps ih =>
    intro fuel hfuel
    obtain ⟨fuel, rfl⟩ : ∃ f, fuel = f + 1 := ⟨fuel - 1, by simp at hfuel; omega⟩
    rw [List.flatMap_cons, unescapeLoop_token (escapeDebugExt_ne_nil T p.1 p.2)
      (readEscaped_escapeDebugExt T p.1 p.2 _), ih fuel (by simp at hfuel; omega)]
    rfl

/-- Each character writes at least one character. -/
theorem length_le_flatMap (ps : List (EscapeDebugExtArgs × Char)) :
    ps.length ≤ (ps.flatMap fun p => escapeDebugExt T p.1 p.2).length := by
  induction ps with
  | nil => exact Nat.le_refl 0
  | cons p ps ih =>
    have := List.length_pos_iff.2 (escapeDebugExt_ne_nil T p.1 p.2)
    simp only [List.flatMap_cons, List.length_append, List.length_cons]
    omega

/-- `str::escape_debug` reads back as the string. -/
theorem unescapeDebug_escapeDebugChars (cs : List Char) :
    unescapeDebug (escapeDebugChars T cs) = some cs := by
  rw [unescapeDebug, escapeDebugChars_eq_flatMap, unescapeLoop_flatMap T _ _ (length_le_flatMap T _),
    map_snd_escapeArgs]

end Escaped

/-! ## The closing quote -/

/-- Characters other than a quote and a backslash are read as they are. -/
theorem scanQuoted_plain {l : List Char} (h : ∀ d ∈ l, d ≠ '\x22' ∧ d ≠ '\\') (s : List Char) :
    scanQuoted (l ++ s) = (scanQuoted s).map fun r => (l ++ r.1, r.2) := by
  induction l with
  | nil => simp
  | cons d l ih =>
    obtain ⟨hq, hb⟩ := h d List.mem_cons_self
    rw [List.cons_append, scanQuoted, scanQuotedFrom, if_neg hq, decide_eq_false hb, ← scanQuoted,
      ih fun e he => h e (List.mem_cons_of_mem d he), Option.map_map]
    rfl

/-- A backslash takes the next character with it. -/
theorem scanQuoted_backslash (d : Char) (s : List Char) :
    scanQuoted ('\\' :: d :: s) = (scanQuoted s).map fun r => ('\\' :: d :: r.1, r.2) := by
  rw [scanQuoted, scanQuotedFrom, if_neg (by decide), decide_eq_true rfl, scanQuotedFrom, Option.map_map]
  rfl

theorem scanQuoted_escapeUnicode (c : Char) (s : List Char) :
    scanQuoted (escapeUnicode c ++ s) = (scanQuoted s).map fun r => (escapeUnicode c ++ r.1, r.2) := by
  have hplain : ∀ d ∈ '{' :: (Nat.toDigits 16 c.toNat ++ ['}']), d ≠ '\x22' ∧ d ≠ '\\' := by
    intro d hd
    simp only [List.mem_cons, List.mem_append, List.not_mem_nil, or_false] at hd
    rcases hd with rfl | hd | rfl
    · decide
    · obtain ⟨k, hk, rfl⟩ := isHexDigit_of_mem_toDigits hd
      exact (hexDigit_ne k hk).2
    · decide
  have e : escapeUnicode c ++ s = '\\' :: 'u' :: (('{' :: (Nat.toDigits 16 c.toNat ++ ['}'])) ++ s) :=
    rfl
  rw [e, scanQuoted_backslash, scanQuoted_plain hplain, Option.map_map]
  rfl

section Scan

variable (T : UnicodeTables)

/-- With quotes escaped, a character's escape never closes a quoted value. -/
theorem scanQuoted_escapeDebugExt {args : EscapeDebugExtArgs} (hq : args.escapeDoubleQuote = true)
    (c : Char) (s : List Char) :
    scanQuoted (escapeDebugExt T args c ++ s) =
      (scanQuoted s).map fun r => (escapeDebugExt T args c ++ r.1, r.2) := by
  rcases escapeDebugExt_cases T args c with ⟨d, h, -⟩ | h | ⟨h, hb, hne, -⟩ <;> rw [h]
  · exact scanQuoted_backslash d s
  · exact scanQuoted_escapeUnicode c s
  · -- a printable character other than a quote or a backslash
    rw [List.singleton_append, scanQuoted, scanQuotedFrom, if_neg (hne hq), decide_eq_false hb]
    rfl

theorem scanQuoted_flatMap (ps : List (EscapeDebugExtArgs × Char))
    (hq : ∀ p ∈ ps, p.1.escapeDoubleQuote = true) (rest : List Char) :
    scanQuoted ((ps.flatMap fun p => escapeDebugExt T p.1 p.2) ++ '\x22' :: rest) =
      some (ps.flatMap fun p => escapeDebugExt T p.1 p.2, rest) := by
  induction ps with
  | nil => rfl
  | cons p ps ih =>
    rw [List.flatMap_cons, List.append_assoc, scanQuoted_escapeDebugExt T (hq p List.mem_cons_self),
      ih fun p' hp' => hq p' (List.mem_cons_of_mem p hp')]
    rfl

/-- A reader of a quoted value stops at the quote after `str::escape_debug`'s
output, whatever follows it. -/
theorem scanQuoted_escapeDebugChars (cs rest : List Char) :
    scanQuoted (escapeDebugChars T cs ++ '\x22' :: rest) = some (escapeDebugChars T cs, rest) := by
  rw [escapeDebugChars_eq_flatMap]
  apply scanQuoted_flatMap
  intro p hp
  cases cs with
  | nil => cases hp
  | cons c cs =>
    simp only [escapeArgs, List.mem_cons, List.mem_map] at hp
    rcases hp with rfl | ⟨d, -, rfl⟩ <;> rfl

end Scan

/-! ## The quoting decision -/

section Decision

variable {T : UnicodeTables}

theorem toNat_toUInt8 {c : Char} (h : c.toNat < 128) : c.toUInt8.toNat = c.toNat := by
  show c.val.toUInt8.toNat = c.val.toNat
  rw [UInt32.toNat_toUInt8]
  exact Nat.mod_eq_of_lt (by simp only [Char.toNat] at h; omega)

/-- The ASCII fast path of `value_needs_quoting` decides as the scan of its
characters. -/
theorem valueNeedsQuoting_eq_any (value : String) :
    valueNeedsQuoting T value = value.toList.any (charNeedsQuoting T) := by
  unfold valueNeedsQuoting
  split
  · rename_i hascii
    have hall := List.all_eq_true.1 hascii
    rw [Bool.eq_iff_iff, List.any_eq_true, List.any_eq_true]
    constructor <;> rintro ⟨c, hc, h⟩ <;> refine ⟨c, hc, ?_⟩ <;>
      simpa [charNeedsQuoting, of_decide_eq_true (hall c hc)] using h
  · rfl

/-- A printable ASCII character other than a quote or a backslash is its own escape. -/
theorem charEscapeDebug_of_graphic {c : Char} (h32 : 32 < c.toNat) (h127 : c.toNat < 127)
    (hq : c ≠ '\x22') (ha : c ≠ '\x27') (hb : c ≠ '\\') : charEscapeDebug T c = [c] := by
  have hlow : ∀ d : Char, d.toNat ≤ 32 → c ≠ d := fun d hd e => by
    rw [e] at h32
    omega
  have hg : isGraphemeExtended T c = false := by
    simp only [isGraphemeExtended, Bool.and_eq_false_iff, decide_eq_false_iff_not]
    exact .inl (by omega)
  have hp : isPrintable T c = true := by
    rw [isPrintable, if_neg (by omega), if_pos h127]
  rw [charEscapeDebug, escapeDebugExt, if_neg (hlow '\x00' (by decide)), if_neg (hlow '\t' (by decide)),
    if_neg (hlow '\r' (by decide)), if_neg (hlow '\n' (by decide)), if_neg hb, if_neg fun h => hq h.1,
    if_neg fun h => ha h.1, if_neg fun h => by simp [hg] at h, if_pos hp]

/-- The probe `char_is_escaped` is `false` exactly on a character written as itself. -/
theorem charEscapeDebug_of_charIsEscaped {c : Char} (h : charIsEscaped T c = false) :
    charEscapeDebug T c = [c] := by
  unfold charIsEscaped at h
  rcases hl : charEscapeDebug T c with _ | ⟨x, _ | ⟨y, ys⟩⟩
  · simp [hl] at h
  · simp only [hl, List.head?_cons, List.drop_one, List.tail_cons, List.head?_nil, Option.isSome_none,
      Bool.or_false, bne_eq_false_iff_eq, Option.some.injEq] at h
    rw [h]
  · simp [hl] at h

/-- A character written as itself is printable. -/
theorem isPrintable_of_escapeDebugExt {args : EscapeDebugExtArgs} {c : Char}
    (h : escapeDebugExt T args c = [c]) : isPrintable T c = true := by
  rcases escapeDebugExt_cases T args c with ⟨d, h', -⟩ | h' | ⟨-, -, -, hp⟩
  · rw [h'] at h
    cases h
  · rw [h', escapeUnicode] at h
    cases h
  · exact hp

/-- What a character left unquoted can be: printable, above the space, not DEL,
`=`, a quote or a backslash, no white space and no control character, and
written by `char::escape_debug` as itself. -/
theorem charNeedsQuoting_eq_false {c : Char} (h : charNeedsQuoting T c = false) :
    32 < c.toNat ∧ c.toNat ≠ 0x7f ∧ c ≠ '=' ∧ c ≠ '\x22' ∧ c ≠ '\x27' ∧ c ≠ '\\' ∧
      isWhitespace c = false ∧ isControl c = false ∧ charEscapeDebug T c = [c] := by
  have hne : ∀ d : Char, c.toNat ≠ d.toNat → c ≠ d := fun d hd e => hd (congrArg Char.toNat e)
  unfold charNeedsQuoting at h
  split at h
  · -- ASCII: the byte classifier
    rename_i hascii
    simp only [asciiNeedsQuoting, Bool.or_eq_false_iff, decide_eq_false_iff_not, UInt8.le_iff_toNat_le,
      ← UInt8.toNat_inj, toNat_toUInt8 hascii] at h
    simp only [UInt8.reduceToNat] at h
    obtain ⟨⟨⟨⟨⟨h32, h127⟩, h61⟩, h34⟩, h39⟩, h92⟩ := h
    have hq := hne '\x22' h34
    have ha := hne '\x27' h39
    have hb := hne '\\' h92
    have hsp := hne ' ' (by simp; omega)
    refine ⟨by omega, h127, hne '=' h61, hq, ha, hb, ?_, ?_,
      charEscapeDebug_of_graphic (by omega) (by omega) hq ha hb⟩
    · simp only [isWhitespace, hsp, decide_false, Bool.false_or, Bool.or_eq_false_iff,
        Bool.and_eq_false_iff, decide_eq_false_iff_not]
      omega
    · simp only [isControl, Bool.or_eq_false_iff, Bool.and_eq_false_iff, decide_eq_false_iff_not]
      omega
  · -- above ASCII: the `escape_debug` probe, and the printable table
    rename_i hascii
    have hesc := charEscapeDebug_of_charIsEscaped h
    have hprint : T.printable c = true := by
      have hp := isPrintable_of_escapeDebugExt hesc
      rwa [isPrintable, if_neg (by omega), if_neg (by omega)] at hp
    have hsep : (isWhitespace c || isControl c) = false := by
      cases hws : (isWhitespace c || isControl c)
      · rfl
      · rw [T.not_printable c (by omega) hws] at hprint
        cases hprint
    rw [Bool.or_eq_false_iff] at hsep
    have hhigh : ∀ d : Char, d.toNat < 128 → c ≠ d := fun d hd => hne d (by omega)
    exact ⟨by omega, by omega, hhigh _ (by decide), hhigh _ (by decide), hhigh _ (by decide),
      hhigh _ (by decide), hsep.1, hsep.2, hesc⟩

end Decision

/-- Every value is written after `=` as one token that reads back as it. The
three writers agree. A value written as it is holds no space, white space,
control character, `=`, quote or backslash, and no character that
`char::escape_debug` rewrites; a quoted value is `str::escape_debug`'s output
between quotes, where a reader stops at the closing quote and unescapes exactly
the value. -/
theorem rendered_value_recoverable (T : UnicodeTables) (key value : String) :
    kvpFmt T key value = escapeKeyName key ++ "=" ++ renderValue T value ∧
    recordStr T value = renderValue T value ∧
    ((renderValue T value = value ∧
        ∀ c ∈ value.toList, 32 < c.toNat ∧ c.toNat ≠ 0x7f ∧ c ≠ '=' ∧ c ≠ '\x22' ∧ c ≠ '\x27' ∧
          c ≠ '\\' ∧ isWhitespace c = false ∧ isControl c = false ∧ charEscapeDebug T c = [c]) ∨
      (renderValue T value = "\x22" ++ strEscapeDebug T value ++ "\x22" ∧
        (∀ rest, scanQuoted ((strEscapeDebug T value).toList ++ '\x22' :: rest) =
          some ((strEscapeDebug T value).toList, rest)) ∧
        unescapeDebug (strEscapeDebug T value).toList = some value.toList)) := by
  refine ⟨?_, rfl, ?_⟩
  · unfold kvpFmt renderValue renderQuoted
    split
    · rw [show ("=\x22" : String) = "=" ++ "\x22" from rfl]
      simp only [String.append_assoc]
    · rfl
  · unfold renderValue
    split
    · right
      refine ⟨rfl, fun rest => ?_, ?_⟩
      · rw [strEscapeDebug, String.toList_ofList]
        exact scanQuoted_escapeDebugChars T _ rest
      · rw [strEscapeDebug, String.toList_ofList]
        exact unescapeDebug_escapeDebugChars T _
    · rename_i hquote
      left
      refine ⟨rfl, fun c hc => charNeedsQuoting_eq_false ?_⟩
      rw [valueNeedsQuoting_eq_any, Bool.not_eq_true, List.any_eq_false] at hquote
      simpa using hquote c hc

/-- Tables for the examples: only white space and control characters are not
printable, and only U+0301 extends a grapheme. -/
def sampleTables : UnicodeTables where
  printable c := !(isWhitespace c || isControl c)
  graphemeExtend c := c.toNat = 0x301
  not_printable c _ h := by simp [h]

example : kvpFmt sampleTables "path" "a\\b" = "path=\x22a\\\\b\x22" := by decide
example : kvpFmt sampleTables "k" "e\u0301" = "k=\x22e\u0301\x22" := by decide
example : kvpFmt sampleTables "k" "\u0301e" = "k=\x22\\u\x7b301\x7de\x22" := by decide
example : kvpFmt sampleTables "unicode" "café" = "unicode=café" := by decide

end Carbide.Logfmt

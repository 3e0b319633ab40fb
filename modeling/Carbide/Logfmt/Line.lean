import Carbide.Logfmt.Order
import Carbide.Logfmt.Quote
import Carbide.Lib.Utf8
import Carbide.Lib.Decimal

/-!
# One event line (`crates/logfmt/src/lib.rs`)

`on_event` writes each event as one line (`write_event_data`): `level=…`, the
configured event fields as `resolve_event_fields` finds them, the span's
`span_id`, the event's `message` as `msg`, the event's own fields as
`FieldVisitor` rendered them at record time, in `emit_order`, and
`location="file:line"`. Every token is followed by a space, the last one by
the newline.

A logfmt reader (`readLine`) splits a token at its first `=` and reads the
value either quoted, up to the closing quote and unescaped, or bare, up to the
next space or newline.

Results:
* `readValue_renderValue`: a rendered value reads back as the value and ends
  where it was written, whatever follows it;
* `readTokens_lineText`: tokens whose keys hold no `=` and whose values read
  back are read back one by one;
* `event_line_reads_back`: the bytes written for an event read back as its
  tokens in the order they are written, each key escaped and each value the
  value recorded, provided no key holds `=` and the source file's name holds
  no quote or backslash (both are written raw).
-/
namespace Carbide.Logfmt

open Carbide.Lib

/-! ## The event and its line -/

/-- `tracing::Level`. -/
inductive Level
  | trace
  | debug
  | info
  | warn
  | error
  deriving DecidableEq, Repr

/-- `Level`'s `Display`. -/
def Level.toString : Level → String
  | trace => "TRACE"
  | debug => "DEBUG"
  | info => "INFO"
  | warn => "WARN"
  | error => "ERROR"

/-- A configured event field and its fallback. mirrors lib.rs:53-56 -/
structure EventField where
  name : String
  default : Option String

/-- The configured fields that have a value: the span's own or inherited one,
else the default. The resolved `BTreeMap` is a list of name-value pairs.
mirrors lib.rs:148-162 -/
def resolveEventFields (eventFields : List EventField) (resolved : Option (List (String × String))) :
    List (String × String) :=
  eventFields.filterMap fun field =>
    ((resolved.bind fun fields => fields.lookup field.name).or field.default).map
      fun value => (field.name, value)

/-- A field's value as it reaches `FieldVisitor`, by the `Visit` method that
takes it; a `Debug`, error or float value arrives as its text. -/
inductive FieldValue
  /-- `record_str` -/
  | str (value : String)
  /-- `record_debug`: the `{:?}` text -/
  | debug (text : String)
  /-- `record_error`: the error's `to_string` -/
  | error (text : String)
  /-- `record_f64`: the float's `Display` text -/
  | f64 (text : String)
  /-- `record_i64`, `record_i128` -/
  | int (value : Int)
  /-- `record_u64`, `record_u128` -/
  | nat (value : Nat)
  /-- `record_bool` -/
  | bool (value : Bool)

/-- mirrors lib.rs:773-776 -/
structure FieldVisitor where
  message : Option String
  fields : List RenderedField

/-- `RenderedField::new`: the key escaped, the value as rendered.
mirrors lib.rs:710-717 -/
def RenderedField.new (name value : String) : RenderedField :=
  ⟨strBytes (escapeKeyName name), strBytes value⟩

namespace FieldVisitor

/-- mirrors lib.rs:782-785 -/
def pushUnquoted (v : FieldVisitor) (name text : String) : FieldVisitor :=
  { v with fields := v.fields ++ [RenderedField.new name text] }

/-- The `Visit` methods. mirrors lib.rs:788-832 -/
def record (T : UnicodeTables) (v : FieldVisitor) (name : String) : FieldValue → FieldVisitor
  | .str value => { v with fields := v.fields ++ [RenderedField.new name (recordStr T value)] }
  | .debug text =>
    if name = "message" then { v with message := some text }
    else { v with fields := v.fields ++ [RenderedField.new name (renderValue T text)] }
  | .error text => { v with fields := v.fields ++ [RenderedField.new name (renderValue T text)] }
  | .f64 value => v.pushUnquoted name value
  | .int value => v.pushUnquoted name (toString value)
  | .nat value => v.pushUnquoted name (toString value)
  | .bool value => v.pushUnquoted name (toString value)

end FieldVisitor

/-- `event.record(&mut visitor)`: the event's fields in order, into an empty
visitor. -/
def recordEvent (T : UnicodeTables) (event : List (String × FieldValue)) : FieldVisitor :=
  event.foldl (fun v f => v.record T f.1 f.2) ⟨none, []⟩

/-- mirrors lib.rs:356-401; `file` and `line` are the event's metadata. -/
def writeEventData (T : UnicodeTables) (level : Level) (eventFields : List (String × String))
    (spanId : Option String) (event : List (String × FieldValue)) (file : Option String)
    (line : Option Nat) : List UInt8 :=
  let visitor := recordEvent T event
  strBytes ("level=" ++ level.toString ++ " ") ++
    eventFields.flatMap (fun f => strBytes (kvpFmt T f.1 f.2 ++ " ")) ++
    spanId.elim [] (fun s => strBytes (kvpFmt T "span_id" s ++ " ")) ++
    visitor.message.elim [] (fun m => strBytes (kvpFmt T "msg" m ++ " ")) ++
    writeFields (sortFields visitor.fields) ++
    strBytes ("location=\x22" ++ file.getD "" ++ ":" ++ toString (line.getD 0) ++ "\x22\n")

/-! ## A logfmt reader -/

/-- One value: quoted, up to the closing quote and unescaped, or bare, up to
the next space or newline. Returns the value and what follows it. -/
def readValue : List Char → Option (List Char × List Char)
  | [] => some ([], [])
  | c :: rest =>
    if c = '\x22' then (scanQuoted rest).bind fun r => (unescapeDebug r.1).map fun v => (v, r.2)
    else some ((c :: rest).span fun d => d != ' ' && d != '\n')

/-- Tokens `key=value`, each followed by a space, the last by the newline that
ends the line; at most `fuel` of them. -/
def readTokens : Nat → List Char → Option (List (String × String))
  | 0, _ => none
  | fuel + 1, s =>
    match s.dropWhile (· != '=') with
    | [] => none
    | _ :: rest =>
      match readValue rest with
      | none => none
      | some (value, after) =>
        if after = ['\n'] then some [(String.ofList (s.takeWhile (· != '=')), String.ofList value)]
        else if after.head? = some ' ' then
          (readTokens fuel (after.drop 1)).map
            ((String.ofList (s.takeWhile (· != '=')), String.ofList value) :: ·)
        else none

/-- A line: its bytes as UTF-8 text, then its tokens. -/
def readLine (line : List UInt8) : Option (List (String × String)) :=
  (fromUtf8 line).bind fun s => readTokens s.toList.length s.toList

/-! ## Reading one value -/

/-- `written` is read back as `value`, and the reader stops at the separator
after it, whatever follows. -/
def ReadsBack (written value : List Char) : Prop :=
  ∀ sep more, (sep = ' ' ∨ sep = '\n') → readValue (written ++ sep :: more) = some (value, sep :: more)

/-- A bare value: no quote first and no separator inside. -/
theorem readsBack_bare {v : List Char} (hq : v.head? ≠ some '\x22')
    (hv : ∀ c ∈ v, c ≠ ' ' ∧ c ≠ '\n') : ReadsBack v v := by
  intro sep more hsep
  have hp : ∀ c ∈ v, (c != ' ' && c != '\n') = true := fun c hc => by
    simp [(hv c hc).1, (hv c hc).2]
  have hstop : (sep != ' ' && sep != '\n') = false := by
    rcases hsep with rfl | rfl <;> rfl
  have hspan : (v ++ sep :: more).span (fun d => d != ' ' && d != '\n') = (v, sep :: more) := by
    rw [List.span_eq_takeWhile_dropWhile, List.takeWhile_append_of_pos hp,
      List.dropWhile_append_of_pos hp, List.takeWhile_cons_of_neg (by simp [hstop]),
      List.dropWhile_cons_of_neg (by simp [hstop]), List.append_nil]
  -- the first character is the value's, or the separator: neither is a quote
  obtain ⟨c, rest, hcr⟩ : ∃ c rest, v ++ sep :: more = c :: rest := by
    cases v with
    | nil => exact ⟨sep, more, rfl⟩
    | cons c cs => exact ⟨c, cs ++ sep :: more, rfl⟩
  have hc : c ≠ '\x22' := by
    cases v with
    | nil =>
      cases hcr
      rcases hsep with rfl | rfl <;> decide
    | cons d ds =>
      cases hcr
      exact fun e => hq (by rw [e]; rfl)
  rw [hcr] at hspan ⊢
  rw [readValue, if_neg hc, hspan]

/-- `escape_debug`'s output between quotes reads back as the characters escaped. -/
theorem readsBack_quoted (T : UnicodeTables) (value : List Char) :
    ReadsBack ('\x22' :: (escapeDebugChars T value ++ ['\x22'])) value := by
  intro sep more _
  rw [List.cons_append, List.append_assoc, List.singleton_append, readValue, if_pos rfl,
    scanQuoted_escapeDebugChars]
  simp [unescapeDebug_escapeDebugChars]

/-- Characters other than a backslash unescape as themselves. -/
theorem unescapeLoop_plain {cs : List Char} (hcs : ∀ c ∈ cs, c ≠ '\\') :
    ∀ fuel, cs.length ≤ fuel → unescapeLoop fuel cs = some cs := by
  induction cs with
  | nil => intro fuel _; cases fuel <;> rfl
  | cons c cs ih =>
    intro fuel hfuel
    obtain ⟨fuel, rfl⟩ : ∃ f, fuel = f + 1 := ⟨fuel - 1, by simp at hfuel; omega⟩
    have hc : readEscaped ([c] ++ cs) = some (c, cs) := by
      simp [readEscaped, hcs c List.mem_cons_self]
    rw [← List.singleton_append, unescapeLoop_token (List.cons_ne_nil c []) hc,
      ih (fun d hd => hcs d (List.mem_cons_of_mem c hd)) fuel (by simp at hfuel; omega)]
    rfl

/-- A quoted text with no quote or backslash in it reads back as it is. -/
theorem readsBack_quoted_plain {cs : List Char} (hcs : ∀ c ∈ cs, c ≠ '\x22' ∧ c ≠ '\\') :
    ReadsBack ('\x22' :: (cs ++ ['\x22'])) cs := by
  intro sep more _
  have hscan : scanQuoted (cs ++ '\x22' :: sep :: more) = some (cs, sep :: more) := by
    rw [scanQuoted_plain hcs]
    simp [scanQuoted, scanQuotedFrom]
  rw [List.cons_append, List.append_assoc, List.singleton_append, readValue, if_pos rfl, hscan]
  simp [unescapeDebug, unescapeLoop_plain (fun c hc => (hcs c hc).2) _ (Nat.le_refl _)]

section Values

variable {T : UnicodeTables}

/-- A value `value_needs_quoting` leaves bare reads back as itself. -/
theorem readsBack_of_valueNeedsQuoting {value : String} (h : valueNeedsQuoting T value = false) :
    ReadsBack value.toList value.toList := by
  rw [valueNeedsQuoting_eq_any, List.any_eq_false] at h
  have hc : ∀ c ∈ value.toList, 32 < c.toNat ∧ c ≠ '\x22' := fun c hc => by
    obtain ⟨h32, -, -, hq, -⟩ := charNeedsQuoting_eq_false (by simpa using h c hc)
    exact ⟨h32, hq⟩
  apply readsBack_bare
  · intro e
    obtain ⟨-, hq⟩ := hc _ (List.mem_of_mem_head? e)
    exact hq rfl
  · intro c hmem
    obtain ⟨h32, -⟩ := hc c hmem
    exact ⟨fun e => by rw [e] at h32; exact absurd h32 (by decide),
      fun e => by rw [e] at h32; exact absurd h32 (by decide)⟩

/-- Every value reads back from its rendering, quoted or bare. -/
theorem readValue_renderValue (value : String) : ReadsBack (renderValue T value).toList value.toList := by
  unfold renderValue
  split
  · have hq : ("\x22" : String).toList = ['\x22'] := rfl
    simp only [renderQuoted, strEscapeDebug, String.toList_append, String.toList_ofList, hq]
    rw [List.append_assoc, List.singleton_append]
    exact readsBack_quoted T value.toList
  · rename_i h
    exact readsBack_of_valueNeedsQuoting (Bool.eq_false_iff.2 h)

/-- A printable ASCII character other than `"`, `'`, `=` and `\` is left bare. -/
theorem charNeedsQuoting_of_graphic {c : Char} (h32 : 32 < c.toNat) (h127 : c.toNat < 127)
    (hne : c.toNat ≠ 34 ∧ c.toNat ≠ 39 ∧ c.toNat ≠ 61 ∧ c.toNat ≠ 92) : charNeedsQuoting T c = false := by
  have hlt : c.toNat < 128 := by omega
  rw [charNeedsQuoting, if_pos hlt]
  simp only [asciiNeedsQuoting, Bool.or_eq_false_iff, decide_eq_false_iff_not, UInt8.le_iff_toNat_le,
    ← UInt8.toNat_inj, toNat_toUInt8 hlt, UInt8.reduceToNat]
  omega

theorem valueNeedsQuoting_of_graphic {value : String}
    (h : ∀ c ∈ value.toList, 32 < c.toNat ∧ c.toNat < 127 ∧
      (c.toNat ≠ 34 ∧ c.toNat ≠ 39 ∧ c.toNat ≠ 61 ∧ c.toNat ≠ 92)) :
    valueNeedsQuoting T value = false := by
  rw [valueNeedsQuoting_eq_any, List.any_eq_false]
  intro c hc
  obtain ⟨h32, h127, hne⟩ := h c hc
  simp [charNeedsQuoting_of_graphic h32 h127 hne]

theorem graphic_of_mem_toDigits {n : Nat} {c : Char} (h : c ∈ Nat.toDigits 10 n) :
    32 < c.toNat ∧ c.toNat < 127 ∧ (c.toNat ≠ 34 ∧ c.toNat ≠ 39 ∧ c.toNat ≠ 61 ∧ c.toNat ≠ 92) := by
  have hd := isDigit_of_mem_toDigits h
  simp only [Char.isDigit, Bool.and_eq_true, decide_eq_true_eq] at hd
  have h1 : 48 ≤ c.toNat := hd.1
  have h2 : c.toNat ≤ 57 := hd.2
  omega

/-- Numbers and booleans are written bare, as `push_unquoted` assumes. -/
theorem valueNeedsQuoting_toString_nat (n : Nat) : valueNeedsQuoting T (toString n) = false := by
  apply valueNeedsQuoting_of_graphic
  intro c hc
  simp only [toString, Nat.repr, String.toList_ofList] at hc
  exact graphic_of_mem_toDigits hc

theorem valueNeedsQuoting_toString_int (n : Int) : valueNeedsQuoting T (toString n) = false := by
  apply valueNeedsQuoting_of_graphic
  intro c hc
  cases n with
  | ofNat m =>
    simp only [toString, Int.repr, Nat.repr, String.toList_ofList] at hc
    exact graphic_of_mem_toDigits hc
  | negSucc m =>
    have hs : (toString (Int.negSucc m)).toList = '-' :: Nat.toDigits 10 (m + 1) := by
      simp [toString, Int.repr, Nat.repr]
    rw [hs, List.mem_cons] at hc
    rcases hc with rfl | hd
    · decide
    · exact graphic_of_mem_toDigits hd

theorem valueNeedsQuoting_toString_bool (b : Bool) : valueNeedsQuoting T (toString b) = false := by
  apply valueNeedsQuoting_of_graphic
  cases b <;> simp [toString]

end Values

/-! ## Reading tokens -/

/-- A token of a line: its key, the text written after `=`, and the value that
text stands for. -/
structure Token where
  key : List Char
  written : List Char
  value : List Char

namespace Token

/-- The token as written, followed by `sep`. -/
def text (t : Token) (sep : Char) : List Char := t.key ++ '=' :: t.written ++ [sep]

/-- What a reader should get for the token. -/
def read (t : Token) : String × String := (String.ofList t.key, String.ofList t.value)

/-- No `=` in the key, and the written value reads back. -/
structure Sound (t : Token) : Prop where
  key_ne : '=' ∉ t.key
  reads : ReadsBack t.written t.value

end Token

/-- Tokens each followed by a space, then the last one and the newline. -/
def lineText (toks : List Token) (last : Token) : List Char :=
  toks.flatMap (·.text ' ') ++ last.text '\n'

theorem lineText_cons (t : Token) (toks : List Token) (last : Token) :
    lineText (t :: toks) last = t.text ' ' ++ lineText toks last := by
  rw [lineText, List.flatMap_cons, List.append_assoc, ← lineText]

theorem takeWhile_dropWhile_key {key : List Char} (h : '=' ∉ key) (rest : List Char) :
    (key ++ '=' :: rest).takeWhile (· != '=') = key ∧
      (key ++ '=' :: rest).dropWhile (· != '=') = '=' :: rest := by
  have hp : ∀ c ∈ key, (c != '=') = true := fun c hc => by
    simpa using fun e : c = '=' => h (e ▸ hc)
  rw [List.takeWhile_append_of_pos hp, List.dropWhile_append_of_pos hp]
  simp

/-- One token, then the rest of the line. -/
theorem readTokens_space {t : Token} (ht : t.Sound) (more : List Char) (fuel : Nat) :
    readTokens (fuel + 1) (t.text ' ' ++ more) =
      (readTokens fuel more).map (t.read :: ·) := by
  obtain ⟨hkey, hdrop⟩ := takeWhile_dropWhile_key ht.key_ne (t.written ++ ' ' :: more)
  have hv := ht.reads ' ' more (.inl rfl)
  simp only [Token.text, List.append_assoc, List.cons_append, List.nil_append] at hkey hdrop ⊢
  rw [readTokens, hdrop]
  simp only [hv, hkey, Token.read]
  rfl

/-- The last token and the newline. -/
theorem readTokens_newline {t : Token} (ht : t.Sound) (fuel : Nat) :
    readTokens (fuel + 1) (t.text '\n') = some [t.read] := by
  obtain ⟨hkey, hdrop⟩ := takeWhile_dropWhile_key ht.key_ne (t.written ++ ['\n'])
  have hv := ht.reads '\n' [] (.inr rfl)
  simp only [Token.text, List.append_assoc, List.cons_append] at hkey hdrop ⊢
  rw [readTokens, hdrop]
  simp only [hv, hkey, Token.read, if_true]

/-- Tokens whose keys hold no `=` and whose values read back are read back one
by one, given a token of fuel each. -/
theorem readTokens_lineText {toks : List Token} {last : Token} (h : ∀ t ∈ toks, t.Sound)
    (hl : last.Sound) {fuel : Nat} (hfuel : toks.length < fuel) :
    readTokens fuel (lineText toks last) = some (toks.map Token.read ++ [last.read]) := by
  -- induction on the tokens before the last, one unit of fuel each
  induction toks generalizing fuel with
  | nil =>
    obtain ⟨fuel, rfl⟩ : ∃ f, fuel = f + 1 := ⟨fuel - 1, by simp at hfuel; omega⟩
    exact readTokens_newline hl fuel
  | cons t toks ih =>
    obtain ⟨fuel, rfl⟩ : ∃ f, fuel = f + 1 := ⟨fuel - 1, by simp at hfuel; omega⟩
    rw [lineText_cons, readTokens_space (h t List.mem_cons_self),
      ih (fun t' ht' => h t' (List.mem_cons_of_mem t ht')) (by simp at hfuel; omega)]
    rfl

theorem length_lineText (toks : List Token) (last : Token) :
    toks.length < (lineText toks last).length := by
  induction toks with
  | nil => simp [lineText, Token.text]
  | cons t toks ih =>
    have ht : 0 < (t.text ' ').length := by simp [Token.text]
    rw [lineText_cons, List.length_append, List.length_cons]
    omega

/-- A line written as UTF-8 reads back as its tokens. -/
theorem readLine_lineText {toks : List Token} {last : Token} (h : ∀ t ∈ toks, t.Sound)
    (hl : last.Sound) :
    readLine ((lineText toks last).flatMap String.utf8EncodeChar) =
      some (toks.map Token.read ++ [last.read]) := by
  have hbytes : (lineText toks last).flatMap String.utf8EncodeChar =
      strBytes (String.ofList (lineText toks last)) := by
    rw [strBytes, String.toList_ofList]
  rw [readLine, hbytes, fromUtf8_strBytes, Option.bind_some, String.toList_ofList]
  exact readTokens_lineText h hl (length_lineText toks last)

/-! ## The tokens of an event -/

namespace FieldValue

/-- The value's text: what a reader of the line should get back for it. -/
def text : FieldValue → String
  | str v | debug v | error v | f64 v => v
  | int n => toString n
  | nat n => toString n
  | bool b => toString b

/-- What `FieldVisitor` writes after `=` for the value. -/
def render (T : UnicodeTables) : FieldValue → String
  | str v => recordStr T v
  | debug v | error v => renderValue T v
  | f64 v => v
  | int n => toString n
  | nat n => toString n
  | bool b => toString b

end FieldValue

/-- A `message` field recorded through `record_debug`: it becomes the line's
`msg`, not a field. -/
def isMessage (f : String × FieldValue) : Bool :=
  match f.2 with
  | .debug _ => decide (f.1 = "message")
  | .str _ | .error _ | .f64 _ | .int _ | .nat _ | .bool _ => false

/-- The field `FieldVisitor` pushes for a record. -/
def renderedOf (T : UnicodeTables) (f : String × FieldValue) : RenderedField :=
  RenderedField.new f.1 (f.2.render T)

/-- The records in the order `emit_order` puts their rendered fields. -/
def sortRecords (T : UnicodeTables) (records : List (String × FieldValue)) :
    List (String × FieldValue) :=
  records.mergeSort fun a b => ((renderedOf T a).emitOrder (renderedOf T b)).isLE

/-- One `Visit` call: a `message` sets the message, any other record pushes
its rendered field. -/
theorem record_eq (T : UnicodeTables) (v : FieldVisitor) (f : String × FieldValue) :
    v.record T f.1 f.2 =
      if isMessage f then { v with message := some f.2.text }
      else { v with fields := v.fields ++ [renderedOf T f] } := by
  obtain ⟨name, value⟩ := f
  cases value <;> simp only [FieldVisitor.record, FieldVisitor.pushUnquoted, isMessage,
    FieldValue.text, FieldValue.render, renderedOf, decide_eq_true_eq, if_false, Bool.false_eq_true]

theorem foldl_record_fields (T : UnicodeTables) (event : List (String × FieldValue)) (v : FieldVisitor) :
    (event.foldl (fun v f => v.record T f.1 f.2) v).fields =
      v.fields ++ (event.filter fun f => !isMessage f).map (renderedOf T) := by
  induction event generalizing v with
  | nil => simp
  | cons f event ih =>
    rw [List.foldl_cons, ih, record_eq]
    by_cases hm : isMessage f <;> simp [hm]

theorem foldl_record_message (T : UnicodeTables) (event : List (String × FieldValue)) (v : FieldVisitor) :
    (event.foldl (fun v f => v.record T f.1 f.2) v).message =
      ((event.filter isMessage).getLast?.map fun f => f.2.text).or v.message := by
  induction event generalizing v with
  | nil => simp
  | cons f event ih =>
    rw [List.foldl_cons, ih, record_eq]
    by_cases hm : isMessage f
    · simp only [hm, if_true, List.filter_cons_of_pos hm, List.getLast?_cons]
      cases (event.filter isMessage).getLast? <;> rfl
    · simp only [hm, Bool.false_eq_true, if_false, List.filter_cons_of_neg hm]

/-- What the visitor holds after an event: the text of its last `message`, and
the rendered fields of the other records, in order. -/
theorem recordEvent_eq (T : UnicodeTables) (event : List (String × FieldValue)) :
    (recordEvent T event).message = (event.filter isMessage).getLast?.map (fun f => f.2.text) ∧
      (recordEvent T event).fields = (event.filter fun f => !isMessage f).map (renderedOf T) := by
  refine ⟨?_, ?_⟩
  · rw [recordEvent, foldl_record_message, Option.or_none]
  · rw [recordEvent, foldl_record_fields, List.nil_append]

theorem sortFields_map_renderedOf (T : UnicodeTables) (records : List (String × FieldValue)) :
    sortFields (records.map (renderedOf T)) = (sortRecords T records).map (renderedOf T) := by
  rw [sortFields, sortRecords, List.map_mergeSort]
  intro a _ b _
  rfl

theorem kvpFmt_eq (T : UnicodeTables) (key value : String) :
    kvpFmt T key value = escapeKeyName key ++ "=" ++ renderValue T value := by
  unfold kvpFmt renderValue renderQuoted
  split
  · rw [show ("=\x22" : String) = "=" ++ "\x22" from rfl]
    simp only [String.append_assoc]
  · rfl

/-- The token `kvp` writes for a key and a value. -/
def kvpToken (T : UnicodeTables) (key value : String) : Token :=
  ⟨(escapeKeyName key).toList, (renderValue T value).toList, value.toList⟩

/-- The token of a recorded field. -/
def fieldToken (T : UnicodeTables) (f : String × FieldValue) : Token :=
  ⟨(escapeKeyName f.1).toList, (f.2.render T).toList, f.2.text.toList⟩

/-- `location="file:line"`: written between quotes, without escaping. -/
def locationToken (file : String) (line : Nat) : Token :=
  ⟨"location".toList, '\x22' :: ((file ++ ":" ++ toString line).toList ++ ['\x22']),
    (file ++ ":" ++ toString line).toList⟩

/-- `level=…`, written bare. -/
def levelToken (level : Level) : Token := ⟨"level".toList, level.toString.toList, level.toString.toList⟩

/-- The tokens before `location`, in the order `write_event_data` writes them. -/
def eventTokens (T : UnicodeTables) (level : Level) (eventFields : List (String × String))
    (spanId : Option String) (event : List (String × FieldValue)) : List Token :=
  levelToken level ::
    (eventFields.map fun f => kvpToken T f.1 f.2) ++
    spanId.elim [] (fun s => [kvpToken T "span_id" s]) ++
    ((event.filter isMessage).getLast?.map fun f => f.2.text).elim [] (fun m => [kvpToken T "msg" m]) ++
    (sortRecords T (event.filter fun f => !isMessage f)).map (fieldToken T)

/-! ## The line is its tokens -/

theorem eq_not_mem_escapeKeyName {key : String} (h : '=' ∉ key.toList) :
    '=' ∉ (escapeKeyName key).toList := by
  rw [escapeKeyName, String.toList_ofList, List.mem_map]
  rintro ⟨c, hc, he⟩
  split_ifs at he
  · exact absurd he (by decide)
  · exact h (he ▸ hc)

theorem toList_kvpFmt (T : UnicodeTables) (key value : String) :
    (kvpFmt T key value ++ " ").toList = (kvpToken T key value).text ' ' := by
  rw [kvpFmt_eq]
  simp only [String.toList_append, kvpToken, Token.text, List.append_assoc]
  rfl

theorem fieldBytes_renderedOf (T : UnicodeTables) (f : String × FieldValue) :
    (renderedOf T f).key ++ eqByte :: (renderedOf T f).value ++ [spaceByte] =
      ((fieldToken T f).text ' ').flatMap String.utf8EncodeChar := by
  simp only [renderedOf, RenderedField.new, strBytes, fieldToken, Token.text, List.flatMap_append,
    List.flatMap_cons, List.flatMap_nil, List.append_assoc, List.append_nil]
  rfl

theorem flatMap_lineText (toks : List Token) (last : Token) :
    (lineText toks last).flatMap String.utf8EncodeChar =
      toks.flatMap (fun t => (t.text ' ').flatMap String.utf8EncodeChar) ++
        (last.text '\n').flatMap String.utf8EncodeChar := by
  rw [lineText, List.flatMap_append, List.flatMap_assoc]

theorem toList_level (level : Level) :
    ("level=" ++ level.toString ++ " ").toList = (levelToken level).text ' ' := by
  have h : ("level=" : String).toList = "level".toList ++ ['='] := by simp
  simp only [String.toList_append, h, levelToken, Token.text, List.append_assoc, List.singleton_append]
  rfl

theorem toList_location (file : String) (line : Nat) :
    ("location=\x22" ++ file ++ ":" ++ toString line ++ "\x22\n").toList =
      (locationToken file line).text '\n' := by
  have h1 : ("location=\x22" : String).toList = "location".toList ++ ['=', '\x22'] := by simp
  have h2 : ("\x22\n" : String).toList = ['\x22', '\n'] := rfl
  have htok : (locationToken file line).text '\n' = "location".toList ++
      '=' :: ('\x22' :: ((file ++ ":" ++ toString line).toList ++ ['\x22'])) ++ ['\n'] := rfl
  rw [htok]
  simp only [String.toList_append, h1, h2, List.append_assoc, List.cons_append, List.nil_append]

/-- `write_event_data` writes the UTF-8 bytes of the event's tokens. -/
theorem writeEventData_eq (T : UnicodeTables) (level : Level) (eventFields : List (String × String))
    (spanId : Option String) (event : List (String × FieldValue)) (file : Option String)
    (line : Option Nat) :
    writeEventData T level eventFields spanId event file line =
      (lineText (eventTokens T level eventFields spanId event)
        (locationToken (file.getD "") (line.getD 0))).flatMap String.utf8EncodeChar := by
  obtain ⟨hmsg, hfields⟩ := recordEvent_eq T event
  -- each part of the line is the bytes of its tokens
  have hkvp : ∀ key value, strBytes (kvpFmt T key value ++ " ") =
      ((kvpToken T key value).text ' ').flatMap String.utf8EncodeChar := fun key value => by
    rw [strBytes, toList_kvpFmt]
  have hevent : eventFields.flatMap (fun f => strBytes (kvpFmt T f.1 f.2 ++ " ")) =
      (eventFields.map fun f => kvpToken T f.1 f.2).flatMap
        (fun t => (t.text ' ').flatMap String.utf8EncodeChar) := by
    rw [List.flatMap_map]
    exact List.flatMap_congr fun f _ => hkvp f.1 f.2
  have hopt : ∀ (key : String) (o : Option String), o.elim [] (fun s => strBytes (kvpFmt T key s ++ " ")) =
      (o.elim [] fun s => [kvpToken T key s]).flatMap (fun t => (t.text ' ').flatMap String.utf8EncodeChar) := by
    intro key o
    cases o
    · rfl
    · simp [hkvp]
  have hwrite : writeFields (sortFields (recordEvent T event).fields) =
      ((sortRecords T (event.filter fun f => !isMessage f)).map (fieldToken T)).flatMap
        (fun t => (t.text ' ').flatMap String.utf8EncodeChar) := by
    rw [hfields, sortFields_map_renderedOf, writeFields, List.flatMap_map, List.flatMap_map]
    exact List.flatMap_congr fun f _ => fieldBytes_renderedOf T f
  rw [writeEventData, flatMap_lineText, eventTokens, List.flatMap_append, List.flatMap_append,
    List.flatMap_append, List.flatMap_cons, ← hevent, ← hopt, ← hopt, ← hwrite, ← hmsg, strBytes,
    toList_level, strBytes, toList_location]

/-! ## Every token reads back -/

section Sound

variable {T : UnicodeTables}

theorem levelToken_sound (level : Level) : (levelToken level).Sound := by
  refine ⟨by simp [levelToken], readsBack_bare ?_ ?_⟩ <;> cases level <;> simp [levelToken, Level.toString]

theorem kvpToken_sound {key : String} (h : '=' ∉ key.toList) (value : String) :
    (kvpToken T key value).Sound :=
  ⟨eq_not_mem_escapeKeyName h, readValue_renderValue value⟩

theorem fieldToken_sound {f : String × FieldValue} (h : '=' ∉ f.1.toList)
    (hf64 : ∀ t, f.2 = .f64 t → valueNeedsQuoting T t = false) : (fieldToken T f).Sound := by
  refine ⟨eq_not_mem_escapeKeyName h, ?_⟩
  obtain ⟨name, value⟩ := f
  -- the rendering of each `Visit` method
  cases value with
  | str v => exact readValue_renderValue v
  | debug v => exact readValue_renderValue v
  | error v => exact readValue_renderValue v
  | f64 v => exact readsBack_of_valueNeedsQuoting (hf64 v rfl)
  | int n => exact readsBack_of_valueNeedsQuoting (valueNeedsQuoting_toString_int (T := T) n)
  | nat n => exact readsBack_of_valueNeedsQuoting (valueNeedsQuoting_toString_nat (T := T) n)
  | bool b => exact readsBack_of_valueNeedsQuoting (valueNeedsQuoting_toString_bool (T := T) b)

theorem locationToken_sound {file : String} (hfile : ∀ c ∈ file.toList, c ≠ '\x22' ∧ c ≠ '\\')
    (line : Nat) : (locationToken file line).Sound := by
  refine ⟨show '=' ∉ ("location" : String).toList by simp, readsBack_quoted_plain ?_⟩
  intro c hc
  simp only [String.toList_append, List.mem_append] at hc
  rcases hc with (hc | hc) | hc
  · exact hfile c hc
  · simp only [show (":" : String).toList = [':'] from rfl, List.mem_singleton] at hc
    subst hc
    decide
  · obtain ⟨h32, h127, hq, -, -, hb⟩ := graphic_of_mem_toDigits (n := line) (by
      simpa [toString, Nat.repr] using hc)
    exact ⟨fun e => hq (by rw [e]; rfl), fun e => hb (by rw [e]; rfl)⟩

end Sound

theorem mem_resolveEventFields {config : List EventField} {resolved : Option (List (String × String))}
    {f : String × String} (h : f ∈ resolveEventFields config resolved) : ∃ field ∈ config, f.1 = field.name := by
  obtain ⟨field, hfield, hf⟩ := List.mem_filterMap.1 h
  obtain ⟨value, -, rfl⟩ := Option.map_eq_some_iff.1 hf
  exact ⟨field, hfield, rfl⟩

theorem mem_sortRecords {T : UnicodeTables} {records : List (String × FieldValue)}
    {f : String × FieldValue} (h : f ∈ sortRecords T records) : f ∈ records :=
  List.mem_mergeSort.1 h

theorem escapeKeyName_of_not_mem {key : String} (h : '.' ∉ key.toList) : escapeKeyName key = key := by
  have hmap : key.toList.map (fun c => if c = '.' then '_' else c) = key.toList := by
    conv_rhs => rw [← List.map_id key.toList]
    exact List.map_congr_left fun c hc => if_neg fun (e : c = '.') => h (e ▸ hc)
  rw [escapeKeyName, hmap, String.ofList_toList]

@[simp] theorem read_kvpToken (T : UnicodeTables) (key value : String) :
    (kvpToken T key value).read = (escapeKeyName key, value) := by
  simp [kvpToken, Token.read]

@[simp] theorem read_fieldToken (T : UnicodeTables) (f : String × FieldValue) :
    (fieldToken T f).read = (escapeKeyName f.1, f.2.text) := by
  simp [fieldToken, Token.read]

@[simp] theorem read_locationToken (file : String) (line : Nat) :
    (locationToken file line).read = ("location", file ++ ":" ++ toString line) := by
  show (String.ofList "location".toList, String.ofList (file ++ ":" ++ toString line).toList) = _
  rw [String.ofList_toList, String.ofList_toList]

@[simp] theorem read_levelToken (level : Level) :
    (levelToken level).read = ("level", level.toString) := by
  simp [levelToken, Token.read]

theorem map_read_elim (T : UnicodeTables) {key : String} (h : '.' ∉ key.toList) (o : Option String) :
    (o.elim [] fun s => [kvpToken T key s]).map Token.read = o.elim [] fun s => [(key, s)] := by
  cases o with
  | none => rfl
  | some s => simp [escapeKeyName_of_not_mem h]

/-- Every line `write_event_data` writes reads back as the event: `level`, the
configured fields that have a value, `span_id`, the text of the last `message`
as `msg`, the other fields in `emit_order` with their keys escaped and their
values as recorded, and `location`. This needs keys without `=`, float texts
that need no quoting (`push_unquoted` writes them bare) and a file name
without a quote or a backslash (it is written raw between quotes). -/
theorem event_line_reads_back (T : UnicodeTables) (level : Level) (config : List EventField)
    (resolved : Option (List (String × String))) (spanId : Option String)
    (event : List (String × FieldValue)) (file : Option String) (line : Option Nat)
    (hconfig : ∀ f ∈ config, '=' ∉ f.name.toList) (hevent : ∀ f ∈ event, '=' ∉ f.1.toList)
    (hf64 : ∀ f ∈ event, ∀ t, f.2 = .f64 t → valueNeedsQuoting T t = false)
    (hfile : ∀ c ∈ (file.getD "").toList, c ≠ '\x22' ∧ c ≠ '\\') :
    readLine (writeEventData T level (resolveEventFields config resolved) spanId event file line) =
      some (("level", level.toString) ::
        ((resolveEventFields config resolved).map fun f => (escapeKeyName f.1, f.2)) ++
        spanId.elim [] (fun s => [("span_id", s)]) ++
        ((event.filter isMessage).getLast?.map fun f => f.2.text).elim [] (fun m => [("msg", m)]) ++
        (sortRecords T (event.filter fun f => !isMessage f)).map (fun f => (escapeKeyName f.1, f.2.text)) ++
        [("location", file.getD "" ++ ":" ++ toString (line.getD 0))]) := by
  have hsound : ∀ t ∈ eventTokens T level (resolveEventFields config resolved) spanId event, t.Sound := by
    intro t ht
    simp only [eventTokens, List.mem_cons, List.mem_append, List.mem_map] at ht
    rcases ht with (((rfl | ⟨f, hf, rfl⟩) | hs) | hm) | ⟨f, hf, rfl⟩
    · exact levelToken_sound level
    · obtain ⟨field, hfield, hname⟩ := mem_resolveEventFields hf
      exact kvpToken_sound (hname ▸ hconfig field hfield) f.2
    · cases spanId with
      | none => cases hs
      | some s =>
        rw [Option.elim_some, List.mem_singleton] at hs
        rw [hs]
        exact kvpToken_sound (by simp) s
    · cases hmsg : (event.filter isMessage).getLast?.map (fun f => f.2.text) with
      | none => rw [hmsg] at hm; cases hm
      | some m =>
        rw [hmsg, Option.elim_some, List.mem_singleton] at hm
        rw [hm]
        exact kvpToken_sound (by simp) m
    · have hmem := (List.mem_filter.1 (mem_sortRecords hf)).1
      exact fieldToken_sound (hevent f hmem) (hf64 f hmem)
  rw [writeEventData_eq, readLine_lineText hsound (locationToken_sound hfile _)]
  -- what the reader returns for each token
  simp only [eventTokens, List.map_cons, List.map_append, List.map_map, Function.comp_def,
    read_kvpToken, read_fieldToken, read_locationToken, map_read_elim T (by simp : '.' ∉ "span_id".toList),
    map_read_elim T (by simp : '.' ∉ "msg".toList), read_levelToken, List.cons_append,
    List.append_assoc]

/-- An info event inside a span: a message, a dotted key whose value holds `=`,
and a negative number. -/
theorem event_line_reads_back_sample :
    readLine (writeEventData sampleTables .info (resolveEventFields [⟨"tenant", some "t1"⟩] none)
        (some "7") [("message", .debug "hello world"), ("a.b", .str "x=y"), ("n", .int (-3))]
        (some "src/lib.rs") (some 42)) =
      some (("level", Level.info.toString) ::
        ((resolveEventFields [⟨"tenant", some "t1"⟩] none).map fun f => (escapeKeyName f.1, f.2)) ++
        (some "7").elim [] (fun s => [("span_id", s)]) ++
        ((([("message", .debug "hello world"), ("a.b", .str "x=y"), ("n", .int (-3))] :
            List (String × FieldValue)).filter isMessage).getLast?.map fun f => f.2.text).elim []
          (fun m => [("msg", m)]) ++
        (sortRecords sampleTables
            (([("message", .debug "hello world"), ("a.b", .str "x=y"), ("n", .int (-3))] :
              List (String × FieldValue)).filter fun f => !isMessage f)).map
          (fun f => (escapeKeyName f.1, f.2.text)) ++
        [("location", (some "src/lib.rs").getD "" ++ ":" ++ toString ((some 42 : Option Nat).getD 0))]) :=
  event_line_reads_back sampleTables .info _ none (some "7") _ (some "src/lib.rs") (some 42)
    (by simp) (by simp) (by simp) (by simp)

end Carbide.Logfmt

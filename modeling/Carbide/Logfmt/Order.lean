import Carbide.Lib.Lex

/-!
# The order of event fields (`crates/logfmt/src/lib.rs`)

`FieldVisitor` renders each field of an event at record time into a
`RenderedField`: the escaped key and the value exactly as they follow the `=`.
`write_event_data` sorts the fields with `RenderedField::emit_order` and copies
`key=value ` for each. The comparator never builds the token: it compares the
keys and, when one key is a proper prefix of the other, splices the `=` and the
rest of the longer key into the comparison of the values.

Results:
* `emitOrder_eq`: `emit_order` is the byte order of the tokens `key=value`, for
  every two fields (keys holding `=`, keys extending one another);
* `emitOrder_eq_token_order`: so it is a total order, and the sorted fields
  write the sorted tokens, each followed by a space.
-/
namespace Carbide.Logfmt

open Carbide.Lib

/-- `b'='`. -/
def eqByte : UInt8 := 61

/-- `b' '`. -/
def spaceByte : UInt8 := 32

/-- mirrors lib.rs:704-707: the bytes of the escaped key and of the rendered value. -/
structure RenderedField where
  key : List UInt8
  value : List UInt8
  deriving DecidableEq

namespace RenderedField

/-- The token the field is written as. -/
def token (f : RenderedField) : List UInt8 := f.key ++ eqByte :: f.value

/-- mirrors lib.rs:728-750. -/
def emitOrder (self other : RenderedField) : Ordering :=
  let a := self.key
  let b := other.key
  match compare a b with
  | .eq => compare self.value other.value
  | ord =>
    if h : a.length < b.length ∧ a.isPrefixOf b = true then
      (compare eqByte b[a.length]).then
        (compare self.value (b.drop (a.length + 1) ++ eqByte :: other.value))
    else if h' : b.length < a.length ∧ b.isPrefixOf a = true then
      (compare a[b.length] eqByte).then
        (compare (a.drop (b.length + 1) ++ eqByte :: self.value) other.value)
    else ord

end RenderedField

/-- mirrors lib.rs:383: `sort_by` is a stable sort. -/
def sortFields (fields : List RenderedField) : List RenderedField :=
  fields.mergeSort fun f g => (f.emitOrder g).isLE

/-- mirrors lib.rs:384-398: three copies and a space per field. -/
def writeFields (fields : List RenderedField) : List UInt8 :=
  fields.flatMap fun f => f.key ++ eqByte :: f.value ++ [spaceByte]

namespace RenderedField

/-- Keys one of which is a proper prefix of the other: the `=` of the shorter
meets the longer key's next byte, and the value meets the rest of the longer
token. -/
theorem compare_token_of_shorter_key {a b va vb : List UInt8} (hlt : a.length < b.length)
    (hpre : a <+: b) :
    compare (a ++ eqByte :: va) (b ++ eqByte :: vb) =
      (compare eqByte b[a.length]).then (compare va (b.drop (a.length + 1) ++ eqByte :: vb)) := by
  conv_lhs => rw [eq_append_getElem_cons hlt hpre]
  rw [List.append_assoc, compare_append_left, List.cons_append, List.compare_cons_cons]

theorem compare_token_of_longer_key {a b va vb : List UInt8} (hlt : b.length < a.length)
    (hpre : b <+: a) :
    compare (a ++ eqByte :: va) (b ++ eqByte :: vb) =
      (compare a[b.length] eqByte).then (compare (a.drop (b.length + 1) ++ eqByte :: va) vb) := by
  rw [Std.OrientedOrd.eq_swap, compare_token_of_shorter_key hlt hpre, Ordering.swap_then,
    ← Std.OrientedOrd.eq_swap, ← Std.OrientedOrd.eq_swap]

theorem emitOrder_eq (f g : RenderedField) : f.emitOrder g = compare f.token g.token := by
  dsimp only [emitOrder, token]
  split
  · -- equal keys: the values decide
    rename_i hab
    rw [Std.compare_eq_iff_eq.1 hab, compare_append_left, List.compare_cons_cons, Std.compare_self]
    rfl
  · rename_i hab
    split
    · rename_i h
      rw [compare_token_of_shorter_key h.1 <| List.isPrefixOf_iff_prefix.1 h.2]
    · split
      · rename_i h' h
        rw [compare_token_of_longer_key h.1 <| List.isPrefixOf_iff_prefix.1 h.2]
      · -- neither key is a prefix of the other: they differ inside both
        rename_i h' h
        have hne : f.key ≠ g.key := fun e => hab (e ▸ Std.compare_self)
        have hpre : ∀ {x y : List UInt8}, x ≠ y → ¬ (x.length < y.length ∧ x.isPrefixOf y = true) →
            ¬ x <+: y := by
          intro x y hxy hn hp
          rcases Nat.lt_or_ge x.length y.length with hl | hl
          · exact hn ⟨hl, List.isPrefixOf_iff_prefix.2 hp⟩
          · exact hxy (hp.eq_of_length (Nat.le_antisymm hp.length_le hl))
        rw [compare_append_of_incomparable _ _ (hpre hne h') (hpre (Ne.symm hne) h)]

end RenderedField

/-- Fields are written in the byte order of their tokens: `emit_order` compares
two fields as their tokens `key=value` compare, for every key and value bytes;
it is therefore a total order (antisymmetric by `swap`, transitive), and sorting
the fields with it writes the sorted tokens, each followed by a space. -/
theorem emitOrder_eq_token_order :
    (∀ f g : RenderedField, f.emitOrder g = compare f.token g.token) ∧
    (∀ f g : RenderedField, f.emitOrder g = (g.emitOrder f).swap) ∧
    (∀ f g h : RenderedField, (f.emitOrder g).isLE = true → (g.emitOrder h).isLE = true →
      (f.emitOrder h).isLE = true) ∧
    ∀ fields : List RenderedField,
      (sortFields fields).map RenderedField.token =
          (fields.map RenderedField.token).mergeSort (fun s t => (compare s t).isLE) ∧
        writeFields (sortFields fields) =
          ((fields.map RenderedField.token).mergeSort (fun s t => (compare s t).isLE)).flatMap
            fun t => t ++ [spaceByte] := by
  have hsort : ∀ fields : List RenderedField, (sortFields fields).map RenderedField.token =
      (fields.map RenderedField.token).mergeSort (fun s t => (compare s t).isLE) := fun fields =>
    List.map_mergeSort fun f _ g _ => by rw [RenderedField.emitOrder_eq]
  refine ⟨RenderedField.emitOrder_eq, fun f g => ?_, fun f g h hfg hgh => ?_, fun fields => ⟨hsort fields, ?_⟩⟩
  · rw [RenderedField.emitOrder_eq, RenderedField.emitOrder_eq, Std.OrientedOrd.eq_swap]
  · rw [RenderedField.emitOrder_eq] at hfg hgh ⊢
    exact Std.TransOrd.isLE_trans hfg hgh
  · rw [← hsort, writeFields, List.flatMap_map]
    simp only [RenderedField.token, List.append_assoc, List.cons_append]

end Carbide.Logfmt

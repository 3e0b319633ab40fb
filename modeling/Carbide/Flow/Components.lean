import Carbide.Flow.Conflict
import Carbide.Lib.Except
import Carbide.Lib.Select
import Mathlib

/-!
# Component sets of a rack target (`rest-api/flow/internal/operation/component.go`)

A `ComponentsByType` is a Go map from component type to component UUIDs.
`Validate` walks the types by name and rejects an empty map, the `Unknown`
type, an empty entry, `uuid.Nil` and any UUID met twice (within a type or
across two); `Normalize` drops repeated UUIDs inside each entry, keeping the
first, and validates the result. `Merge` unions two normalized maps entry by
entry (sorted, without repeats) and refuses a UUID that the two maps file
under different types; `Subtract` removes the excluded UUIDs type by type and
omits the entries it empties. The UUID type is a parameter (`UuidOps`): the
code uses only `uuid.Nil` and `String()` of it.

Results:
* `validate_eq_ok_iff`: `Validate` accepts exactly the maps with some entry,
  no `Unknown` entry, no empty entry, no `uuid.Nil`, and no UUID twice;
* `normalize_eq_ok_iff`: `Normalize` succeeds exactly when no entry is empty
  or holds `uuid.Nil`, the map is non-empty without `Unknown`, and no UUID
  sits under two types; it returns the first-seen deduplication;
* `subtract_isEmpty_iff`: subtraction leaves nothing exactly when every UUID
  of the map is excluded under its own type.
-/
namespace Carbide.Flow
open Carbide.Lib

/-- mirrors pkg/common/devicetypes/component.go:25-33 and 72-74 -/
def ComponentType.toString : ComponentType → String
  | .unknown => "Unknown"
  | .compute => "Compute"
  | .nvSwitch => "NVSwitch"
  | .powerShelf => "PowerShelf"
  | .torSwitch => "ToRSwitch"
  | .ums => "UMS"
  | .cdu => "CDU"

theorem ComponentType.mem_all (ct : ComponentType) : ct ∈ ComponentType.all := by
  cases ct <;> decide

/-- What the flow code uses of `uuid.UUID`: the zero UUID `uuid.Nil` and `String()`. -/
structure UuidOps (U : Type) where
  nil : U
  text : U → String

/-- `operation.ComponentsByType`, a Go map: a type without an entry is `none`. -/
@[ext]
structure ComponentsByType (U : Type) where
  entry : ComponentType → Option (List U)

namespace ComponentsByType

variable {U : Type}

/-- The map with no entry (Go's `nil` map). -/
def empty : ComponentsByType U := ⟨fun _ => none⟩

/-- `len(c) == 0`. -/
def isEmpty (c : ComponentsByType U) : Bool := ComponentType.all.all fun ct => (c.entry ct).isNone

/-- `c[ct] = ids`. -/
def set (c : ComponentsByType U) (ct : ComponentType) (ids : List U) : ComponentsByType U :=
  ⟨fun ct' => if ct' = ct then some ids else c.entry ct'⟩

/-- `c[ct]`: a missing entry reads as no UUIDs. -/
def get (c : ComponentsByType U) (ct : ComponentType) : List U := (c.entry ct).getD []

/-- The UUIDs of every entry, in declaration order of the types. -/
def allIds (c : ComponentsByType U) : List U := ComponentType.all.flatMap c.get

/-- mirrors operation/component.go:259-277: the types with an entry, by name.
`slices.SortFunc` is modelled by insertion sort: the names are distinct, so
every sort gives this order. -/
def sortedComponentTypes (c : ComponentsByType U) : List ComponentType :=
  (ComponentType.all.filter fun ct => (c.entry ct).isSome).insertionSort
    fun a b => a.toString ≤ b.toString

variable [DecidableEq U] (I : UuidOps U)

/-- The inner loop of `Validate` over one type's UUIDs; `seen` is `seenComponents`.
mirrors operation/component.go:300-326 -/
def validateIds (ct : ComponentType) :
    List (U × ComponentType) → List U → Except String (List (U × ComponentType))
  | seen, [] => .ok seen
  | seen, id :: ids =>
    if id = I.nil then .error (ct.toString ++ " contains empty component UUID")
    else match seen.lookup id with
      | some existing =>
        if existing = ct then .error (ct.toString ++ " duplicates component " ++ I.text id)
        else .error ("component " ++ I.text id ++ " appears under both " ++ existing.toString ++
          " and " ++ ct.toString)
      | none => validateIds ct ((id, ct) :: seen) ids

/-- The outer loop of `Validate`, over the types by name.
mirrors operation/component.go:286-299 -/
def validateTypes (c : ComponentsByType U) :
    List (U × ComponentType) → List ComponentType → Except String Unit
  | _, [] => .ok ()
  | seen, ct :: cts =>
    if ct = .unknown then .error "ComponentsByType contains unknown component type"
    else
      let ids := c.get ct
      if ids.isEmpty then .error (ct.toString ++ " must include at least one component")
      else (validateIds I ct seen ids).bind fun seen => validateTypes c seen cts

/-- mirrors operation/component.go:279-330 -/
def validate (c : ComponentsByType U) : Except String Unit :=
  if c.isEmpty then .error "Non-empty ComponentsByType is required"
  else validateTypes I c [] c.sortedComponentTypes

/-- Every entry without its repeated UUIDs, the first of each kept. -/
def dedup (c : ComponentsByType U) : ComponentsByType U := ⟨fun ct => (c.entry ct).map List.eraseDups⟩

/-- mirrors operation/component.go:332-355 -/
def normalize (c : ComponentsByType U) : Except String (ComponentsByType U) :=
  (validate I c.dedup).map fun _ => c.dedup

/-- mirrors operation/component.go:457-463: by `String()`, with insertion sort
for `slices.SortFunc`. -/
def sortComponentUUIDs (ids : List U) : List U :=
  ids.insertionSort fun a b => I.text a ≤ I.text b

/-- mirrors operation/component.go:440-455: sorted, each run of one UUID kept once. -/
def uniqueComponentUUIDs (ids : List U) : List U :=
  (sortComponentUUIDs I ids).destutter (· ≠ ·)

/-- The check of `Merge` over one type's UUIDs of `next`; `byId` is
`componentTypesByID`. mirrors operation/component.go:377-388 -/
def mergeIds (ct : ComponentType) :
    List (U × ComponentType) → List U → Except String (List (U × ComponentType))
  | byId, [] => .ok byId
  | byId, id :: ids =>
    match byId.lookup id with
    | some existing =>
      if existing ≠ ct then
        .error ("components_by_type component " ++ I.text id ++ " appears under both " ++
          existing.toString ++ " and " ++ ct.toString)
      else mergeIds ct ((id, ct) :: byId) ids
    | none => mergeIds ct ((id, ct) :: byId) ids

/-- The loop of `Merge` over `next`'s types. Go visits them in map order; the
model visits them in declaration order, so of several conflicting UUIDs the
error names one that the source may name. mirrors operation/component.go:376-392 -/
def mergeTypes (next : ComponentsByType U) :
    List (U × ComponentType) → ComponentsByType U → List ComponentType →
      Except String (ComponentsByType U)
  | _, merged, [] => .ok merged
  | byId, merged, ct :: cts =>
    match next.entry ct with
    | none => mergeTypes next byId merged cts
    | some ids =>
      (mergeIds I ct byId ids).bind fun byId =>
        mergeTypes next byId (merged.set ct (uniqueComponentUUIDs I (merged.get ct ++ ids))) cts

/-- mirrors operation/component.go:357-395 -/
def merge (c n : ComponentsByType U) : Except String (ComponentsByType U) :=
  (normalize I c).bind fun merged => (normalize I n).bind fun next =>
    mergeTypes I next (ComponentType.all.flatMap fun ct => (merged.get ct).map (·, ct))
      merged ComponentType.all

/-- mirrors operation/component.go:397-437 -/
def subtract (c exclude : ComponentsByType U) : ComponentsByType U :=
  ⟨fun ct => match c.entry ct with
    | none => none
    | some ids =>
      if ids.isEmpty then none
      else
        let excludedIds := exclude.get ct
        if excludedIds.isEmpty then some ids
        else
          let filtered := ids.filter fun id => id ∉ excludedIds
          if filtered.isEmpty then none else some filtered⟩

/-- mirrors operation/component.go:217-230 -/
def clone (c : ComponentsByType U) : ComponentsByType U :=
  ⟨fun ct => (c.entry ct).map (sortComponentUUIDs I)⟩

section Laws

variable {U : Type}

theorem isEmpty_eq_true_iff {c : ComponentsByType U} :
    c.isEmpty = true ↔ ∀ ct, c.entry ct = none := by
  simp [isEmpty, ComponentType.mem_all, Option.isNone_iff_eq_none]

theorem mem_sortedComponentTypes {c : ComponentsByType U} {ct : ComponentType} :
    ct ∈ c.sortedComponentTypes ↔ (c.entry ct).isSome := by
  simp [sortedComponentTypes, List.mem_insertionSort, ComponentType.mem_all]

theorem flatMap_filter_isSome (c : ComponentsByType U) (l : List ComponentType) :
    (l.filter fun ct => (c.entry ct).isSome).flatMap c.get = l.flatMap c.get := by
  induction l with
  | nil => rfl
  | cons ct l ih => cases h : c.entry ct <;> simp [h, get, ih]

/-- Walking the types by name visits the UUIDs of `allIds`, rearranged. -/
theorem flatMap_sortedComponentTypes_perm (c : ComponentsByType U) :
    (c.sortedComponentTypes.flatMap c.get).Perm c.allIds := by
  have h := (List.perm_insertionSort (fun a b : ComponentType => a.toString ≤ b.toString)
    (ComponentType.all.filter fun ct => (c.entry ct).isSome)).flatMap_right c.get
  rwa [flatMap_filter_isSome] at h

theorem lookup_eq_none_iff_not_mem {β : Type} [DecidableEq U] {l : List (U × β)} {k : U} :
    l.lookup k = none ↔ k ∉ l.map Prod.fst := by
  rw [List.lookup_eq_none_iff]
  constructor
  · intro h hk
    obtain ⟨p, hp, rfl⟩ := List.mem_map.1 hk
    simp at h
    exact h p.1 p.2 hp rfl
  · intro h p hp
    exact bne_iff_ne.2 fun hkp => h (hkp ▸ List.mem_map_of_mem hp)

variable [DecidableEq U] (I : UuidOps U)

/-- What `Validate` accepts. -/
structure Valid (c : ComponentsByType U) : Prop where
  nonempty : ∃ ct, c.entry ct ≠ none
  no_unknown : c.entry .unknown = none
  entry_ne_nil : ∀ ct, c.entry ct ≠ some []
  nil_not_mem : I.nil ∉ c.allIds
  nodup : c.allIds.Nodup

/-- The inner loop records the UUIDs it passes, and fails on `uuid.Nil` and on
a UUID seen before. -/
theorem validateIds_eq_ok_iff {ct : ComponentType} {seen : List (U × ComponentType)}
    {ids : List U} {s : List (U × ComponentType)} :
    validateIds I ct seen ids = .ok s ↔
      (I.nil ∉ ids ∧ ids.Nodup ∧ ∀ id ∈ ids, id ∉ seen.map Prod.fst) ∧
        s = ids.reverse.map (·, ct) ++ seen := by
  induction ids generalizing seen with
  | nil => simp [validateIds, eq_comm]
  | cons id ids ih =>
    by_cases hnil : id = I.nil
    · simp [validateIds, hnil]
    cases hl : seen.lookup id with
    | some existing =>
      -- a repeated UUID fails, whichever type it was seen under
      have hseen : id ∈ seen.map Prod.fst := by
        by_contra h
        rw [lookup_eq_none_iff_not_mem.2 h] at hl
        cases hl
      have hfalse : ¬((I.nil ∉ id :: ids ∧ (id :: ids).Nodup ∧
          ∀ x ∈ id :: ids, x ∉ seen.map Prod.fst) ∧ s = (id :: ids).reverse.map (·, ct) ++ seen) :=
        fun h => h.1.2.2 id List.mem_cons_self hseen
      simp only [validateIds, hnil, if_false, hl]
      split <;> exact iff_of_false (by simp) hfalse
    | none =>
      have hnotin := lookup_eq_none_iff_not_mem.1 hl
      have hstep : validateIds I ct seen (id :: ids) = validateIds I ct ((id, ct) :: seen) ids := by
        simp only [validateIds, hnil, if_false, hl]
      have hs : (id :: ids).reverse.map (·, ct) ++ seen = ids.reverse.map (·, ct) ++ (id, ct) :: seen := by
        simp
      rw [hstep, ih, hs]
      simp only [List.map_cons]
      constructor
      · rintro ⟨⟨hn, hnd, hfresh⟩, rfl⟩
        refine ⟨⟨?_, ?_, ?_⟩, rfl⟩
        · exact fun h => (List.mem_cons.1 h).elim (fun h => hnil h.symm) hn
        · exact List.nodup_cons.2 ⟨fun h => hfresh id h List.mem_cons_self, hnd⟩
        · intro x hx
          rcases List.mem_cons.1 hx with rfl | hx
          · exact hnotin
          · exact fun h => hfresh x hx (List.mem_cons_of_mem _ h)
      · rintro ⟨⟨hn, hnd, hfresh⟩, rfl⟩
        refine ⟨⟨fun h => hn (List.mem_cons_of_mem _ h), (List.nodup_cons.1 hnd).2, ?_⟩, rfl⟩
        intro x hx hmem
        rcases List.mem_cons.1 hmem with rfl | hmem
        · exact (List.nodup_cons.1 hnd).1 hx
        · exact hfresh x (List.mem_cons_of_mem _ hx) hmem

/-- The outer loop fails on `Unknown` and on an empty entry, and otherwise
checks the UUIDs of all its types as one sequence. -/
theorem validateTypes_eq_ok_iff {c : ComponentsByType U} {seen : List (U × ComponentType)}
    {cts : List ComponentType} :
    validateTypes I c seen cts = .ok () ↔
      .unknown ∉ cts ∧ (∀ ct ∈ cts, c.get ct ≠ []) ∧ I.nil ∉ cts.flatMap c.get ∧
        (cts.flatMap c.get).Nodup ∧ ∀ id ∈ cts.flatMap c.get, id ∉ seen.map Prod.fst := by
  induction cts generalizing seen with
  | nil => simp [validateTypes]
  | cons ct cts ih =>
    by_cases hu : ct = .unknown
    · simp [validateTypes, hu]
    by_cases he : (c.get ct).isEmpty = true
    · simp [validateTypes, hu, List.isEmpty_iff.1 he]
    have hne : c.get ct ≠ [] := fun h => he (List.isEmpty_iff.2 h)
    have hstep : validateTypes I c seen (ct :: cts) =
        (validateIds I ct seen (c.get ct)).bind fun seen => validateTypes I c seen cts := by
      simp only [validateTypes, hu, he, if_false, Bool.false_eq_true]
    rw [hstep, Except.bind_eq_ok_iff]
    simp only [validateIds_eq_ok_iff, ih, List.flatMap_cons, List.nodup_append, List.mem_append,
      not_or]
    constructor
    · rintro ⟨s, ⟨⟨hn, hnd, hfresh⟩, rfl⟩, hcts, hne', hn', hnd', hfresh'⟩
      -- the UUIDs of the later types are fresh against the ones of `ct`
      have hlater : ∀ id ∈ cts.flatMap c.get, id ∉ c.get ct ∧ id ∉ seen.map Prod.fst := by
        intro id hid
        have := hfresh' id hid
        simpa [List.map_append, List.map_reverse, List.map_map, Function.comp_def] using this
      refine ⟨?_, ?_, ⟨hn, hn'⟩, ⟨hnd, hnd', ?_⟩, ?_⟩
      · exact fun h => (List.mem_cons.1 h).elim (fun h => hu h.symm) hcts
      · intro x hx
        rcases List.mem_cons.1 hx with rfl | hx
        · exact hne
        · exact hne' x hx
      · intro a ha b hb hab
        exact (hlater b hb).1 (hab ▸ ha)
      · intro id hid
        rcases hid with hid | hid
        · exact hfresh id hid
        · exact (hlater id hid).2
    · rintro ⟨hunk, hnes, ⟨hn, hn'⟩, ⟨hnd, hnd', hdisj⟩, hfresh⟩
      refine ⟨_, ⟨⟨hn, hnd, fun id hid => hfresh id (Or.inl hid)⟩, rfl⟩,
        fun h => hunk (List.mem_cons_of_mem _ h), fun x hx => hnes x (List.mem_cons_of_mem _ hx),
        hn', hnd', ?_⟩
      intro id hid hmem
      simp only [List.map_append, List.map_reverse, List.map_map, Function.comp_def,
        List.mem_append, List.mem_reverse, List.map_id'] at hmem
      rcases hmem with hmem | hmem
      · exact hdisj id hmem id hid rfl
      · exact hfresh id (Or.inr hid) hmem

theorem validate_eq_ok_iff {c : ComponentsByType U} : validate I c = .ok () ↔ Valid I c := by
  have hperm := flatMap_sortedComponentTypes_perm c
  unfold validate
  by_cases he : c.isEmpty = true
  · -- an empty map is refused, and is not `Valid`
    simp only [he, if_true, reduceCtorEq, false_iff]
    exact fun hv => absurd (isEmpty_eq_true_iff.1 he) (by
      obtain ⟨ct, hct⟩ := hv.nonempty
      exact fun h => hct (h ct))
  rw [if_neg he, validateTypes_eq_ok_iff, hperm.nodup_iff]
  simp only [hperm.mem_iff, List.map_nil, List.not_mem_nil, not_false_eq_true, imp_true_iff,
    and_true]
  constructor
  · rintro ⟨hunk, hne, hnil, hnd⟩
    refine ⟨?_, ?_, fun ct h => ?_, hnil, hnd⟩
    · by_contra hall
      exact he (isEmpty_eq_true_iff.2 fun ct => not_not.1 fun h => hall ⟨ct, h⟩)
    · cases h : c.entry .unknown with
      | none => rfl
      | some ids => exact absurd (mem_sortedComponentTypes.2 (by simp [h])) hunk
    · exact hne ct (mem_sortedComponentTypes.2 (by simp [h])) (by simp [get, h])
  · intro hv
    refine ⟨fun h => by simp [mem_sortedComponentTypes, hv.no_unknown] at h, fun ct hct => ?_,
      hv.nil_not_mem, hv.nodup⟩
    obtain ⟨ids, hids⟩ := Option.isSome_iff_exists.1 (mem_sortedComponentTypes.1 hct)
    rintro hnil
    rw [get, hids, Option.getD_some] at hnil
    exact hv.entry_ne_nil ct (hnil ▸ hids)

/-- `Normalize` succeeds with the first-seen deduplication exactly when that
deduplication is `Valid`. -/
theorem normalize_eq_ok_iff {c c' : ComponentsByType U} :
    normalize I c = .ok c' ↔ c' = c.dedup ∧ Valid I c.dedup := by
  unfold normalize
  cases h : validate I c.dedup with
  | error e =>
    refine iff_of_false (by simp [Except.map]) fun ⟨_, hv⟩ => ?_
    rw [(validate_eq_ok_iff I).2 hv] at h
    cases h
  | ok u => simp [Except.map, (validate_eq_ok_iff I).1 h, eq_comm]

/-- `Subtract` removes exactly the excluded UUIDs, type by type. -/
theorem get_subtract (c e : ComponentsByType U) (ct : ComponentType) :
    (subtract c e).get ct = (c.get ct).filter fun id => id ∉ e.get ct := by
  unfold subtract get
  dsimp only
  cases c.entry ct with
  | none => rfl
  | some ids =>
    simp only [List.isEmpty_iff, Option.getD_some]
    split_ifs <;> simp_all

/-- `Subtract` leaves nothing exactly when every UUID of the map is excluded
under its own type. -/
theorem subtract_isEmpty_iff {c e : ComponentsByType U} :
    (subtract c e).isEmpty = true ↔ ∀ ct, ∀ id ∈ c.get ct, id ∈ e.get ct := by
  rw [isEmpty_eq_true_iff]
  refine forall_congr' fun ct => ?_
  -- an entry of the result is absent exactly when it reads as no UUIDs
  have hentry : (subtract c e).entry ct = none ↔ (subtract c e).get ct = [] := by
    unfold subtract get
    dsimp only
    cases c.entry ct with
    | none => simp
    | some ids =>
      simp only [List.isEmpty_iff]
      split_ifs <;> simp_all
  rw [hentry, get_subtract, List.filter_eq_nil_iff]
  simp

end Laws

end ComponentsByType

end Carbide.Flow

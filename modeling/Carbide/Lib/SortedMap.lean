import Mathlib

/-!
# Sorted maps

The content of an ordered map (`BTreeMap`, and `BTreeSet` as a map to `Unit`):
its entries strictly sorted by key, which is the order the map iterates in.
`insertWith f k v` stores `v` under a new key and `f old v` under a present
one, so `insert` (the new value wins) and an `entry` that merges into the
present value are both instances.

* `lookup_insertWith`, `lookup_erase`: reading after a write;
* `lookup_foldl_insertWith`: after inserting a list of values, a key holds the
  fold of the values inserted under it;
* `ext`: two maps that store the same values are equal, so a map is
  determined by what it stores and not by the order it was built in.
-/
namespace Carbide.Lib

/-- Entries strictly sorted by key. -/
structure SortedMap (K V : Type) [LinearOrder K] where
  entries : List (K × V)
  sorted : (entries.map Prod.fst).Pairwise (· < ·)

namespace SortedMap

variable {K V : Type} [LinearOrder K]

def empty : SortedMap K V := ⟨[], List.Pairwise.nil⟩

/-- The value stored under `q`. -/
def lookup (m : SortedMap K V) (q : K) : Option V := m.entries.lookup q

def keys (m : SortedMap K V) : List K := m.entries.map Prod.fst

def values (m : SortedMap K V) : List V := m.entries.map Prod.snd

theorem sorted_keys (m : SortedMap K V) : m.keys.Pairwise (· < ·) := m.sorted

/-- `f old v` under a present key `k`, `v` under a new one, in key order. -/
def insertWithList (f : V → V → V) (k : K) (v : V) : List (K × V) → List (K × V)
  | [] => [(k, v)]
  | (k', v') :: rest =>
    if k < k' then (k, v) :: (k', v') :: rest
    else if k = k' then (k', f v' v) :: rest
    else (k', v') :: insertWithList f k v rest

theorem mem_keys_insertWithList {f : V → V → V} {k : K} {v : V} :
    ∀ {l : List (K × V)} {q : K}, q ∈ (insertWithList f k v l).map Prod.fst → q = k ∨ q ∈ l.map Prod.fst
  | [], q, h => by simpa [insertWithList] using h
  | (k', v') :: rest, q, h => by
    simp only [insertWithList] at h
    split at h
    · simpa using h
    · split at h
      · simp only [List.map_cons, List.mem_cons] at h ⊢
        exact .inr h
      · simp only [List.map_cons, List.mem_cons] at h ⊢
        rcases h with h | h
        · exact .inr (.inl h)
        · rcases mem_keys_insertWithList h with h | h
          · exact .inl h
          · exact .inr (.inr h)

theorem sorted_insertWithList (f : V → V → V) (k : K) (v : V) :
    ∀ {l : List (K × V)}, (l.map Prod.fst).Pairwise (· < ·) →
      ((insertWithList f k v l).map Prod.fst).Pairwise (· < ·)
  | [], _ => by simp [insertWithList]
  | (k', v') :: rest, h => by
    simp only [List.map_cons, List.pairwise_cons] at h
    obtain ⟨hlt, hrest⟩ := h
    simp only [insertWithList]
    split
    · rename_i hkk
      simp only [List.map_cons, List.pairwise_cons, List.mem_cons]
      refine ⟨fun q hq => ?_, hlt, hrest⟩
      rcases hq with rfl | hq
      · exact hkk
      · exact lt_trans hkk (hlt q hq)
    · split
      · simp only [List.map_cons, List.pairwise_cons]
        exact ⟨hlt, hrest⟩
      · rename_i hkk1 hkk2
        -- `k` goes after `k'`, somewhere in the rest
        have hgt : k' < k := lt_of_le_of_ne (not_lt.1 hkk1) (Ne.symm hkk2)
        simp only [List.map_cons, List.pairwise_cons]
        refine ⟨fun q hq => ?_, sorted_insertWithList f k v hrest⟩
        rcases mem_keys_insertWithList hq with rfl | hq
        · exact hgt
        · exact hlt q hq

def insertWith (f : V → V → V) (k : K) (v : V) (m : SortedMap K V) : SortedMap K V :=
  ⟨insertWithList f k v m.entries, sorted_insertWithList f k v m.sorted⟩

/-- `BTreeMap::insert`: the new value replaces a present one. -/
def insert (k : K) (v : V) (m : SortedMap K V) : SortedMap K V := m.insertWith (fun _ v => v) k v

/-- `BTreeMap::remove`. -/
def erase (k : K) (m : SortedMap K V) : SortedMap K V :=
  ⟨m.entries.filter (·.1 ≠ k), List.Pairwise.sublist (List.filter_sublist.map _) m.sorted⟩

/-! ## Reading a map -/

section Lookup

variable {f : V → V → V} {k q : K} {v : V}

/-- A key below every stored key is not stored. -/
theorem lookup_eq_none_of_lt {l : List (K × V)} (h : ∀ k' ∈ l.map Prod.fst, q < k') :
    l.lookup q = none := by
  induction l with
  | nil => rfl
  | cons e rest ih =>
    obtain ⟨k', v'⟩ := e
    have hq : q ≠ k' := ne_of_lt (h k' (by simp))
    rw [List.lookup_cons, beq_false_of_ne hq, ih fun k'' hk => h k'' (by simp [hk])]

theorem lookup_insertWithList :
    ∀ {l : List (K × V)}, (l.map Prod.fst).Pairwise (· < ·) →
      (insertWithList f k v l).lookup q =
        if q = k then some ((l.lookup k).elim v (f · v)) else l.lookup q
  | [], _ => by
    by_cases hq : q = k
    · subst hq
      simp [insertWithList]
    · simp [insertWithList, hq]
  | (k', v') :: rest, hs => by
    simp only [List.map_cons, List.pairwise_cons] at hs
    obtain ⟨hlt, hrest⟩ := hs
    simp only [insertWithList]
    split
    · -- a new key before every stored one
      rename_i hkk
      have hnone : ((k', v') :: rest).lookup k = none :=
        lookup_eq_none_of_lt fun k'' hk => by
          simp only [List.map_cons, List.mem_cons] at hk
          rcases hk with rfl | hk
          · exact hkk
          · exact lt_trans hkk (hlt k'' hk)
      by_cases hq : q = k
      · subst hq
        simp [hnone]
      · simp only [List.lookup_cons, beq_false_of_ne hq, if_neg hq]
    · split
      · -- the key of the head: its value is combined
        rename_i hkk
        subst hkk
        by_cases hq : q = k
        · subst hq
          simp
        · simp [List.lookup_cons, beq_false_of_ne hq, hq]
      · rename_i hkk1 hkk2
        rw [List.lookup_cons, lookup_insertWithList hrest]
        by_cases hq : q = k
        · subst hq
          simp [List.lookup_cons, beq_false_of_ne hkk2]
        · by_cases hq' : q = k'
          · subst hq'
            simp [hq]
          · simp [List.lookup_cons, hq, beq_false_of_ne hq']

@[simp] theorem lookup_insertWith (m : SortedMap K V) :
    (m.insertWith f k v).lookup q =
      if q = k then some ((m.lookup k).elim v (f · v)) else m.lookup q :=
  lookup_insertWithList m.sorted

@[simp] theorem lookup_insert (m : SortedMap K V) :
    (m.insert k v).lookup q = if q = k then some v else m.lookup q := by
  rw [insert, lookup_insertWith]
  cases m.lookup k <;> rfl

@[simp] theorem lookup_empty : (empty : SortedMap K V).lookup q = none := rfl

theorem lookup_filter_ne {l : List (K × V)} :
    (l.filter (·.1 ≠ k)).lookup q = if q = k then none else l.lookup q := by
  induction l with
  | nil => simp
  | cons e rest ih =>
    obtain ⟨k', v'⟩ := e
    by_cases hk : k' = k
    · subst hk
      rw [List.filter_cons_of_neg (by simp), ih]
      by_cases hq : q = k'
      · simp [hq]
      · simp [List.lookup_cons, hq, beq_false_of_ne hq]
    · rw [List.filter_cons_of_pos (by simpa using hk), List.lookup_cons, List.lookup_cons, ih]
      by_cases hq : q = k
      · subst hq
        simp [beq_false_of_ne (Ne.symm hk)]
      · simp [hq]

@[simp] theorem lookup_erase (m : SortedMap K V) :
    (m.erase k).lookup q = if q = k then none else m.lookup q :=
  lookup_filter_ne

/-- After inserting a list of values, a key holds the fold of the values
inserted under it, from what it held before. -/
theorem lookup_foldl_insertWith {α : Type} (key : α → K) (val : α → V) (l : List α)
    (m : SortedMap K V) (q : K) :
    (l.foldl (fun m x => m.insertWith f (key x) (val x)) m).lookup q =
      (l.filter (key · = q)).foldl (fun acc x => some (acc.elim (val x) (f · (val x))))
        (m.lookup q) := by
  induction l generalizing m with
  | nil => rfl
  | cons x xs ih =>
    rw [List.foldl_cons, ih, lookup_insertWith]
    by_cases hq : key x = q
    · subst hq
      simp
    · simp [hq, Ne.symm hq]

theorem mem_keys_iff_lookup {m : SortedMap K V} : q ∈ m.keys ↔ (m.lookup q).isSome := by
  simp only [keys, lookup]
  generalize m.entries = l
  induction l with
  | nil => simp
  | cons e rest ih =>
    obtain ⟨k', v'⟩ := e
    by_cases hq : q = k'
    · subst hq
      simp
    · simp only [List.map_cons, List.mem_cons, hq, false_or, List.lookup_cons,
        beq_false_of_ne hq]
      exact ih

theorem mem_keys_insertWith {m : SortedMap K V} : q ∈ (m.insertWith f k v).keys ↔ q = k ∨ q ∈ m.keys := by
  rw [mem_keys_iff_lookup, mem_keys_iff_lookup, lookup_insertWith]
  by_cases hq : q = k <;> simp [hq]

theorem mem_keys_erase {m : SortedMap K V} : q ∈ (m.erase k).keys ↔ q ∈ m.keys ∧ q ≠ k := by
  rw [mem_keys_iff_lookup, mem_keys_iff_lookup, lookup_erase]
  by_cases hq : q = k <;> simp [hq]

theorem mem_keys_foldl_insertWith {α : Type} (key : α → K) (val : α → V) (l : List α)
    (m : SortedMap K V) :
    q ∈ (l.foldl (fun m x => m.insertWith f (key x) (val x)) m).keys ↔ q ∈ m.keys ∨ q ∈ l.map key := by
  induction l generalizing m with
  | nil => simp
  | cons x xs ih =>
    rw [List.foldl_cons, ih, mem_keys_insertWith]
    by_cases hq : q = key x <;> simp [hq]

theorem mem_keys_foldl_erase {α : Type} (key : α → K) (l : List α) (m : SortedMap K V) :
    q ∈ (l.foldl (fun m x => m.erase (key x)) m).keys ↔ q ∈ m.keys ∧ q ∉ l.map key := by
  induction l generalizing m with
  | nil => simp
  | cons x xs ih =>
    rw [List.foldl_cons, ih, mem_keys_erase]
    by_cases hq : q = key x <;> simp [hq]

end Lookup

/-! ## Maps are determined by what they store -/

theorem lookup_head {k : K} {v : V} {rest : List (K × V)} :
    ((k, v) :: rest).lookup k = some v := by
  simp

theorem ext_entries :
    ∀ {l₁ l₂ : List (K × V)}, (l₁.map Prod.fst).Pairwise (· < ·) →
      (l₂.map Prod.fst).Pairwise (· < ·) → (∀ q, l₁.lookup q = l₂.lookup q) → l₁ = l₂
  | [], [], _, _, _ => rfl
  | [], (k, v) :: _, _, _, h => by simpa using (h k).symm
  | (k, v) :: _, [], _, _, h => by simpa using h k
  | (k₁, v₁) :: r₁, (k₂, v₂) :: r₂, h₁, h₂, h => by
    simp only [List.map_cons, List.pairwise_cons] at h₁ h₂
    -- the least keys agree: a smaller one would be missing from the other map
    rcases lt_trichotomy k₁ k₂ with hlt | rfl | hgt
    · have := h k₁
      rw [lookup_head, List.lookup_cons, beq_false_of_ne (ne_of_lt hlt),
        lookup_eq_none_of_lt fun k' hk => lt_trans hlt (h₂.1 k' hk)] at this
      cases this
    · have hv := h k₁
      rw [lookup_head, lookup_head, Option.some.injEq] at hv
      subst hv
      have hr : ∀ q, r₁.lookup q = r₂.lookup q := fun q => by
        by_cases hq : q = k₁
        · subst hq
          rw [lookup_eq_none_of_lt h₁.1, lookup_eq_none_of_lt h₂.1]
        · have := h q
          rwa [List.lookup_cons, List.lookup_cons, beq_false_of_ne hq] at this
      rw [ext_entries h₁.2 h₂.2 hr]
    · have := h k₂
      rw [lookup_head, List.lookup_cons, beq_false_of_ne (ne_of_lt hgt),
        lookup_eq_none_of_lt fun k' hk => lt_trans hgt (h₁.1 k' hk)] at this
      cases this

theorem ext {m₁ m₂ : SortedMap K V} (h : ∀ q, m₁.lookup q = m₂.lookup q) : m₁ = m₂ := by
  obtain ⟨l₁, h₁⟩ := m₁
  obtain ⟨l₂, h₂⟩ := m₂
  obtain rfl := ext_entries h₁ h₂ h
  rfl

/-! ## Values that carry their key -/

section Keyed

variable {key : V → K} {f : V → V → V} {k q : K} {v : V}

/-- Every stored value carries the key it is stored under. -/
def Keyed (key : V → K) (m : SortedMap K V) : Prop := ∀ e ∈ m.entries, key e.2 = e.1

theorem keyed_empty : Keyed key (empty : SortedMap K V) := fun _ h => absurd h List.not_mem_nil

theorem mem_insertWithList {l : List (K × V)} {e : K × V} (h : e ∈ insertWithList f k v l) :
    e = (k, v) ∨ (∃ v', (k, v') ∈ l ∧ e = (k, f v' v)) ∨ e ∈ l := by
  induction l with
  | nil => simpa [insertWithList] using h
  | cons d rest ih =>
    obtain ⟨k', v'⟩ := d
    simp only [insertWithList] at h
    split at h
    · simp only [List.mem_cons] at h
      rcases h with h | h | h
      · exact .inl h
      · exact .inr (.inr (h ▸ List.mem_cons_self))
      · exact .inr (.inr (List.mem_cons_of_mem _ h))
    · split at h
      · rename_i hkk
        subst hkk
        simp only [List.mem_cons] at h
        rcases h with h | h
        · exact .inr (.inl ⟨v', List.mem_cons_self, h⟩)
        · exact .inr (.inr (List.mem_cons_of_mem _ h))
      · simp only [List.mem_cons] at h
        rcases h with h | h
        · exact .inr (.inr (h ▸ List.mem_cons_self))
        · rcases ih h with h | ⟨v'', hv'', he⟩ | h
          · exact .inl h
          · exact .inr (.inl ⟨v'', List.mem_cons_of_mem _ hv'', he⟩)
          · exact .inr (.inr (List.mem_cons_of_mem _ h))

/-- Inserting a value under its own key, with a combination that keeps the key
of the stored value, keeps every value under its key. -/
theorem Keyed.insertWith {m : SortedMap K V} (hm : Keyed key m) (hf : ∀ a, key a = k → key (f a v) = k)
    (hv : key v = k) : Keyed key (m.insertWith f k v) := by
  intro e he
  rcases mem_insertWithList he with rfl | ⟨v', hv', rfl⟩ | he
  · exact hv
  · exact hf v' (hm _ hv')
  · exact hm e he

theorem Keyed.map_key_values {m : SortedMap K V} (hm : Keyed key m) : m.values.map key = m.keys := by
  simp only [values, keys, List.map_map]
  exact List.map_congr_left fun e he => hm e he

theorem find?_map_snd {l : List (K × V)} (hl : ∀ e ∈ l, key e.2 = e.1) (q : K) :
    (l.map Prod.snd).find? (key · = q) = l.lookup q := by
  induction l with
  | nil => rfl
  | cons e rest ih =>
    obtain ⟨k', v'⟩ := e
    have he : key v' = k' := hl _ List.mem_cons_self
    rw [List.map_cons, List.find?_cons, List.lookup_cons,
      ih fun e h => hl e (List.mem_cons_of_mem _ h)]
    by_cases hq : q = k'
    · subst hq
      simp [he]
    · simp [he, Ne.symm hq, beq_false_of_ne hq]

theorem Keyed.find?_values {m : SortedMap K V} (hm : Keyed key m) (q : K) :
    m.values.find? (key · = q) = m.lookup q :=
  find?_map_snd hm q

theorem filter_map_snd {l : List (K × V)} (hl : ∀ e ∈ l, key e.2 = e.1)
    (hs : (l.map Prod.fst).Pairwise (· < ·)) (q : K) :
    (l.map Prod.snd).filter (key · = q) = (l.lookup q).toList := by
  induction l with
  | nil => rfl
  | cons e rest ih =>
    obtain ⟨k', v'⟩ := e
    have he : key v' = k' := hl _ List.mem_cons_self
    simp only [List.map_cons, List.pairwise_cons] at hs
    rw [List.map_cons, List.filter_cons, List.lookup_cons,
      ih (fun e h => hl e (List.mem_cons_of_mem _ h)) hs.2]
    by_cases hq : q = k'
    · -- the key is stored at the head, and nowhere after it
      subst hq
      simp [he, lookup_eq_none_of_lt hs.1]
    · simp [he, Ne.symm hq, beq_false_of_ne hq]

/-- The values stored under a key: at most one. -/
theorem Keyed.filter_values {m : SortedMap K V} (hm : Keyed key m) (q : K) :
    m.values.filter (key · = q) = (m.lookup q).toList :=
  filter_map_snd hm m.sorted q

/-- Inserting the values of a keyed map under their keys builds the map again. -/
theorem Keyed.foldl_insert_values {m : SortedMap K V} (hm : Keyed key m) :
    m.values.foldl (fun m' x => m'.insert (key x) x) empty = m := by
  apply ext
  intro q
  unfold insert
  rw [lookup_foldl_insertWith, hm.filter_values, lookup_empty]
  cases m.lookup q <;> rfl

theorem Keyed.foldl_insertWith {m : SortedMap K V} (hm : Keyed key m)
    (hf : ∀ a b, key a = key b → key (f a b) = key b) (l : List V) :
    Keyed key (l.foldl (fun m x => m.insertWith f (key x) x) m) := by
  induction l generalizing m with
  | nil => exact hm
  | cons x xs ih => exact ih (hm.insertWith (fun a ha => hf a x ha) rfl)

/-- In a list strictly sorted by a key, an element is the one found under its key. -/
theorem find?_of_mem {l : List V} (hs : (l.map key).Pairwise (· < ·)) {a : V} (ha : a ∈ l) :
    l.find? (key · = key a) = some a := by
  induction l with
  | nil => cases ha
  | cons b rest ih =>
    simp only [List.map_cons, List.pairwise_cons] at hs
    rcases List.mem_cons.1 ha with rfl | ha
    · simp
    · -- `b` comes before `a`, under a smaller key
      have hlt : key b < key a := hs.1 _ (List.mem_map_of_mem ha)
      rw [List.find?_cons_of_neg (by simpa using ne_of_lt hlt), ih hs.2 ha]

/-- Two lists strictly sorted by a key, with the same element under every key,
are equal: `ext` for lists of values that carry their key. -/
theorem eq_of_find?_eq {l₁ l₂ : List V} (h₁ : (l₁.map key).Pairwise (· < ·))
    (h₂ : (l₂.map key).Pairwise (· < ·)) (h : ∀ q, l₁.find? (key · = q) = l₂.find? (key · = q)) :
    l₁ = l₂ := by
  have hsnd : ∀ l : List V, (l.map fun a => (key a, a)).map Prod.snd = l := fun l => by
    simp [Function.comp_def]
  have hfst : ∀ l : List V, (l.map fun a => (key a, a)).map Prod.fst = l.map key := fun l => by
    simp
  have hkeyed : ∀ l : List V, ∀ e ∈ l.map (fun a => (key a, a)), key e.2 = e.1 := by
    intro l e he
    obtain ⟨a, -, rfl⟩ := List.mem_map.1 he
    rfl
  have hs₁ : ((l₁.map fun a => (key a, a)).map Prod.fst).Pairwise (· < ·) := by rwa [hfst]
  have hs₂ : ((l₂.map fun a => (key a, a)).map Prod.fst).Pairwise (· < ·) := by rwa [hfst]
  -- the lists as entries `(key a, a)` store the same values
  have hl := ext_entries hs₁ hs₂ fun q => by
    rw [← find?_map_snd (hkeyed l₁) q, ← find?_map_snd (hkeyed l₂) q, hsnd, hsnd, h]
  simpa [hsnd] using congrArg (List.map Prod.snd) hl

end Keyed

/-! ## Sets: maps to `Unit` -/

section Set

variable {q : K}

/-- `Extend`: insert the keys of a list in turn. -/
def extend (s : SortedMap K Unit) (l : List K) : SortedMap K Unit := l.foldl (fun s c => s.insert c ()) s

/-- `BTreeSet::from_iter`. -/
def ofKeys (l : List K) : SortedMap K Unit := empty.extend l

theorem lookup_extend (s : SortedMap K Unit) (l : List K) :
    (s.extend l).lookup q = if q ∈ l then some () else s.lookup q := by
  have h := lookup_foldl_insertWith (f := fun _ v => v) (fun c : K => c) (fun _ => ()) l s q
  unfold extend insert
  rw [h]
  by_cases hq : q ∈ l
  · -- a key inserted at least once holds `()`
    rw [if_pos hq]
    have hmem : q ∈ l.filter (fun x => decide (x = q)) := List.mem_filter.2 ⟨hq, by simp⟩
    obtain ⟨x, xs, hx⟩ := List.exists_cons_of_ne_nil (List.ne_nil_of_mem hmem)
    rw [hx, List.foldl_cons]
    clear hx
    induction xs generalizing x with
    | nil => rfl
    | cons y ys ih => exact ih y
  · rw [if_neg hq, List.filter_eq_nil_iff.2 fun a ha h => hq ((of_decide_eq_true h : a = q) ▸ ha)]
    rfl

theorem mem_keys_extend {s : SortedMap K Unit} {l : List K} : q ∈ (s.extend l).keys ↔ q ∈ l ∨ q ∈ s.keys := by
  rw [mem_keys_iff_lookup, mem_keys_iff_lookup, lookup_extend]
  by_cases hq : q ∈ l <;> simp [hq]

theorem mem_keys_ofKeys {l : List K} : q ∈ (ofKeys l).keys ↔ q ∈ l := by
  rw [ofKeys, mem_keys_extend]
  simp [keys, empty]

theorem ofKeys_append (l₁ l₂ : List K) : ofKeys (l₁ ++ l₂) = (ofKeys l₁).extend l₂ := by
  simp only [ofKeys, extend, List.foldl_append]

/-- A set is determined by its members. -/
theorem ext_keys {s₁ s₂ : SortedMap K Unit} (h : ∀ q, q ∈ s₁.keys ↔ q ∈ s₂.keys) : s₁ = s₂ := by
  apply ext
  intro q
  have hq := h q
  rw [mem_keys_iff_lookup, mem_keys_iff_lookup] at hq
  cases h₁ : s₁.lookup q <;> cases h₂ : s₂.lookup q <;> simp_all

theorem ofKeys_congr {l₁ l₂ : List K} (h : ∀ q, q ∈ l₁ ↔ q ∈ l₂) : ofKeys l₁ = ofKeys l₂ :=
  ext_keys fun q => by rw [mem_keys_ofKeys, mem_keys_ofKeys, h]

end Set

end SortedMap

end Carbide.Lib

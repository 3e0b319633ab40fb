import Carbide.Network.Prefix
import Carbide.Lib.OrdSet

/-!
# IpSet

`crates/network/src/ip/ipset.rs`. An `IpSet` stores a `BTreeSet<IpPrefix>`, modelled
as a `Finset` read in `IpPrefix` order through the range queries of `Lib.OrdSet`.
The `while let` loops of `add` and `remove` are structural recursions on fuel
(`removeSubprefixes`, `aggregateSiblings`, `bifurcateDown`); a loop that runs out of
fuel, an `unwrap` on `None` and an `unreachable!` all return `none`, and the
results below show that from a canonical set none of them happens.

* `getContainingPrefix_eq_some`: among pairwise non-nested prefixes the query finds
  the stored prefix containing its argument whenever there is one.
* `add_spec`: from a canonical set, `add p` returns, stays canonical and covers
  exactly the old addresses and those of `p`.
* `remove_of_container`: when a stored prefix contains `q`, `remove q` returns, stays
  canonical and covers exactly the old addresses outside `q`; otherwise
  `remove_of_no_container` leaves the set as it is.
* `Canonical.mem_iff_maximal`: the prefixes of a canonical set are exactly the
  maximal prefixes of what it covers.
* `reachable_decomposition`: every set the API builds lists, through `get_prefixes`,
  the sorted decomposition of its addresses into maximal aligned blocks;
  `reachable_run_total`: no sequence of calls panics.
* `contains_prefix_iff_covers`: `contains` of a prefix is inclusion of its addresses.
* `run_addrs_of_unsplit`: the set covers what union and difference compute, on every
  run whose removals never split the covered addresses. The others fail:
  `remove_keeps_strict_subprefix`, and `remove_supernet_keeps_addresses` at
  `10.0.0.0/25` stored and `10.0.0.0/24` removed.
-/
namespace Carbide.Network

open Carbide.Lib

/-- mirrors ipset.rs:21-26: the stored prefixes, iterated in `IpPrefix` order. -/
structure IpSet where
  includedPrefixes : Finset IpPrefix
  deriving DecidableEq

namespace IpSet

/-! ## The model -/

/-- mirrors ipset.rs:40-45: the last stored prefix at or below `pfx`, when it
contains `pfx`. -/
def getContainingPrefix (s : IpSet) (pfx : IpPrefix) : Option IpPrefix :=
  (lastLe s.includedPrefixes pfx).bind fun included =>
    if included.contains pfx then some included else none

/-- mirrors ipset.rs:36-38. -/
def containsPrefix (s : IpSet) (pfx : IpPrefix) : Bool := (s.getContainingPrefix pfx).isSome

/-- mirrors ipset.rs:29-34. -/
def contains {α : Type} [ToPrefix α] (s : IpSet) (value : α) : Bool :=
  s.containsPrefix (ToPrefix.toPrefix value)

/-- mirrors ipset.rs:54-60: while the range `pfx ..= pfx.get_last_subprefix()` holds
a prefix that `pfx` contains, delete the least one. -/
def removeSubprefixes (pfx : IpPrefix) : Nat → Finset IpPrefix → Finset IpPrefix
  | 0, S => S
  | fuel + 1, S =>
    match firstIn S pfx pfx.getLastSubPrefix (fun p => pfx.contains p) with
    | some sub => removeSubprefixes pfx fuel (S.erase sub)
    | none => S

/-- mirrors ipset.rs:62-75: while the sibling of the current prefix is stored, take it
out and aggregate the two; then insert. -/
def aggregateSiblings : Nat → IpPrefix → Finset IpPrefix → Option (Finset IpPrefix)
  | 0, _, _ => none
  | fuel + 1, pfx, S =>
    match pfx.getSibling.bind fun sibling => if sibling ∈ S then some sibling else none with
    | some sibling =>
      match pfx.tryAggregate sibling with
      | some aggregated => aggregateSiblings fuel aggregated (S.erase sibling)
      | none => none
    | none => some (insert pfx S)

/-- mirrors ipset.rs:47-76. The first loop deletes one prefix a round and the second
shortens the prefix by one bit a round, which bounds their fuel. -/
def add (s : IpSet) (pfx : IpPrefix) : Option IpSet :=
  if s.containsPrefix pfx then some s
  else
    (aggregateSiblings (pfx.prefixLength + 1) pfx
      (removeSubprefixes pfx s.includedPrefixes.card s.includedPrefixes)).map IpSet.mk

/-- mirrors ipset.rs:90-106: split the container until it is `pfx`, putting back the
half that does not contain `pfx`. -/
def bifurcateDown (pfx : IpPrefix) : Nat → IpPrefix → Finset IpPrefix → Option (Finset IpPrefix)
  | 0, _, _ => none
  | fuel + 1, container, S =>
    if container = pfx then some S
    else match container.bifurcate with
      | some (c1, c2) =>
        if c1.contains pfx then bifurcateDown pfx fuel c1 (insert c2 S)
        else if c2.contains pfx then bifurcateDown pfx fuel c2 (insert c1 S)
        else none
      | none => none

/-- mirrors ipset.rs:79-108. -/
def remove (s : IpSet) (pfx : IpPrefix) : Option IpSet :=
  match s.getContainingPrefix pfx with
  | none => some s
  | some container =>
    (bifurcateDown pfx (pfx.prefixLength + 1) container
      (s.includedPrefixes.erase container)).map IpSet.mk

/-- mirrors ipset.rs:110-113. -/
def getPrefixes (s : IpSet) : List IpPrefix := s.includedPrefixes.sort (· ≤ ·)

/-- mirrors ipset.rs:115-124. -/
def getIpv4Prefixes (s : IpSet) : List Ipv4Prefix :=
  s.getPrefixes.filterMap fun
    | .V4 p => some p
    | .V6 _ => none

/-- mirrors ipset.rs:126-135. -/
def getIpv6Prefixes (s : IpSet) : List Ipv6Prefix :=
  s.getPrefixes.filterMap fun
    | .V6 p => some p
    | .V4 _ => none

/-- mirrors ipset.rs:137-142. -/
def newEmpty : IpSet := ⟨∅⟩

/-- mirrors ipset.rs:145-150. -/
def fromPrefix (value : IpPrefix) : IpSet := ⟨{value}⟩

/-- mirrors ipset.rs:152-162: add each value to an empty set in turn. -/
def fromIter {α : Type} [ToPrefix α] (values : List α) : Option IpSet :=
  values.foldlM (fun ipset p => ipset.add (ToPrefix.toPrefix p)) newEmpty

/-- mirrors ipset.rs:164-174. -/
def aggregatePrefixes {α : Type} [ToPrefix α] (sources : List α) : Option (List IpPrefix) :=
  (fromIter sources).map getPrefixes

/-- The calls that change a set. -/
inductive Op
  | add (pfx : IpPrefix)
  | remove (pfx : IpPrefix)

def apply (s : IpSet) : Op → Option IpSet
  | .add p => s.add p
  | .remove p => s.remove p

def run (s : IpSet) (ops : List Op) : Option IpSet := ops.foldlM apply s

/-- The sets the public API builds. -/
inductive Reachable : IpSet → Prop
  | newEmpty : Reachable newEmpty
  | fromPrefix (p : IpPrefix) : Reachable (fromPrefix p)
  | add {s s' : IpSet} (p : IpPrefix) : Reachable s → s.add p = some s' → Reachable s'
  | remove {s s' : IpSet} (p : IpPrefix) : Reachable s → s.remove p = some s' → Reachable s'

/-! ## Canonical sets and what they cover -/

/-- No stored prefix contains another. -/
def Antichain (S : Finset IpPrefix) : Prop := ∀ p ∈ S, ∀ q ∈ S, p.contains q = true → p = q

/-- No stored prefix contains another, and no stored prefix's sibling is stored. -/
structure Canonical (S : Finset IpPrefix) : Prop where
  antichain : Antichain S
  no_sibling : ∀ p ∈ S, ∀ q, p.getSibling = some q → q ∉ S

/-- The addresses the stored prefixes cover. -/
def Covers (S : Finset IpPrefix) (a : IpAddr) : Prop := ∃ p ∈ S, a ∈ p

instance (S : Finset IpPrefix) (a : IpAddr) : Decidable (Covers S a) :=
  inferInstanceAs (Decidable (∃ p ∈ S, a ∈ p))

variable {S T : Finset IpPrefix} {a : IpAddr} {c p q u : IpPrefix}

theorem Canonical.mono (h : Canonical S) (hT : T ⊆ S) : Canonical T :=
  ⟨fun p hp q hq => h.antichain p (hT hp) q (hT hq),
    fun p hp q hpq hq => h.no_sibling p (hT hp) q hpq (hT hq)⟩

@[simp] theorem covers_insert : Covers (insert p S) a ↔ a ∈ p ∨ Covers S a :=
  Finset.exists_mem_insert _ _ _

theorem covers_erase (hp : p ∈ S) : Covers S a ↔ Covers (S.erase p) a ∨ a ∈ p := by
  constructor
  · rintro ⟨q, hq, ha⟩
    by_cases e : q = p
    · exact .inr (e ▸ ha)
    · exact .inl ⟨q, Finset.mem_erase.2 ⟨e, hq⟩, ha⟩
  · rintro (⟨q, hq, ha⟩ | ha)
    · exact ⟨q, Finset.mem_of_mem_erase hq, ha⟩
    · exact ⟨p, hp, ha⟩

/-- Inserting a prefix that is apart from every stored one and whose sibling is not
stored keeps a set canonical. -/
theorem canonical_insert (hS : Canonical S)
    (hap : ∀ d ∈ S, d.contains c = false ∧ c.contains d = false)
    (hsib : ∀ s, c.getSibling = some s → s ∉ S) : Canonical (insert c S) := by
  constructor
  · intro p hp q hq hpq
    rw [Finset.mem_insert] at hp hq
    rcases hp with rfl | hp <;> rcases hq with rfl | hq
    · rfl
    · simp [(hap q hq).2] at hpq
    · simp [(hap p hp).1] at hpq
    · exact hS.antichain p hp q hq hpq
  · intro p hp q hpq hq
    rw [Finset.mem_insert] at hp hq
    rcases hp with rfl | hp <;> rcases hq with rfl | hq
    · exact IpPrefix.getSibling_ne hpq rfl
    · exact hsib q hpq hq
    · exact hsib p (IpPrefix.getSibling_symm hpq) hp
    · exact hS.no_sibling p hp q hpq hq

/-- Prefixes are nested or disjoint, so no stored prefix contains another exactly
when the stored prefixes are pairwise disjoint. -/
theorem antichain_iff_disjoint :
    Antichain S ↔ ∀ p ∈ S, ∀ q ∈ S, p ≠ q → ∀ a, a ∈ p → a ∉ q := by
  constructor
  · intro hS p hp q hq hne a hap haq
    rcases IpPrefix.nested_of_mem hap haq with h | h
    · exact hne (hS p hp q hq h)
    · exact hne (hS q hq p hp h).symm
  · intro hS p hp q hq hpq
    by_contra hne
    obtain ⟨a, ha⟩ := IpPrefix.exists_mem q
    exact hS p hp q hq hne a (IpPrefix.mem_of_contains hpq ha) ha

/-- A prefix disjoint from `d` is apart from it: neither contains the other. -/
theorem apart_of_disjoint {d : IpPrefix} (hdis : ∀ a, a ∈ d → a ∉ c) (hc : c.contains p = true) :
    d.contains p = false ∧ p.contains d = false := by
  obtain ⟨a, ha⟩ := IpPrefix.exists_mem p
  obtain ⟨b, hb⟩ := IpPrefix.exists_mem d
  refine ⟨Bool.eq_false_iff.2 fun hdp => ?_, Bool.eq_false_iff.2 fun hpd => ?_⟩
  · exact hdis a (IpPrefix.mem_of_contains hdp ha) (IpPrefix.mem_of_contains hc ha)
  · exact hdis b hb (IpPrefix.mem_of_contains hc (IpPrefix.mem_of_contains hpd hb))

/-! ## The range query -/

/-- Among pairwise non-nested prefixes, a stored prefix containing `q` sorts after
every stored prefix at or below `q`. -/
theorem le_of_le_of_contains (hS : Antichain S) {s t : IpPrefix} (hs : s ∈ S)
    (hq : s.contains q = true) (ht : t ∈ S) (htq : t ≤ q) : t ≤ s := by
  by_contra hlt
  rw [not_le] at hlt
  -- `t` sorts between `s` and the last subprefix of `s`, so it meets `s`
  obtain ⟨a, hat, has⟩ := IpPrefix.exists_mem_of_le_last hlt.le
    (le_trans htq (IpPrefix.le_last_of_contains hq))
  rcases IpPrefix.nested_of_mem hat has with hts | hst
  · exact absurd (IpPrefix.le_of_contains hts) (not_le.2 hlt)
  · exact absurd (hS s hs t ht hst) (ne_of_lt hlt)

/-- The lookup `range(..=q).last()` lands on a stored prefix containing `q`. -/
theorem lastLe_of_contains (hS : Antichain S) (hc : c ∈ S) (hcq : c.contains q = true) :
    lastLe S q = some c :=
  lastLe_of_max hc (IpPrefix.le_of_contains hcq) fun _ ht htq =>
    le_of_le_of_contains hS hc hcq ht htq

theorem getContainingPrefix_eq_some {s : IpSet} (hS : Antichain s.includedPrefixes) :
    s.getContainingPrefix q = some c ↔ c ∈ s.includedPrefixes ∧ c.contains q = true := by
  constructor
  · intro h
    simp only [getContainingPrefix, Option.bind_eq_some_iff] at h
    obtain ⟨t, ht, he⟩ := h
    split at he
    · cases he; exact ⟨(lastLe_eq_some ht).1, ‹_›⟩
    · cases he
  · rintro ⟨hc, hcq⟩
    simp [getContainingPrefix, lastLe_of_contains hS hc hcq, hcq]

theorem getContainingPrefix_eq_none {s : IpSet} (hS : Antichain s.includedPrefixes) :
    s.getContainingPrefix q = none ↔ ∀ c ∈ s.includedPrefixes, c.contains q = false := by
  rw [Option.eq_none_iff_forall_ne_some]
  simp only [ne_eq, getContainingPrefix_eq_some hS, not_and, Bool.not_eq_true]

/-! ## `add` -/

/-- The first loop of `add` deletes exactly the stored prefixes that `pfx` contains:
every such prefix lies in the range it searches. -/
theorem removeSubprefixes_eq (pfx : IpPrefix) : ∀ (n : Nat) (S : Finset IpPrefix),
    (S.filter fun x => pfx.contains x = true).card ≤ n →
    removeSubprefixes pfx n S = S.filter fun x => pfx.contains x = false := by
  intro n
  induction n with
  | zero =>
    intro S hn
    have h0 := Finset.filter_eq_empty_iff.1 (Finset.card_eq_zero.1 (Nat.le_zero.1 hn))
    rw [removeSubprefixes, Finset.filter_true_of_mem fun x hx => by simpa using h0 hx]
  | succ n ih =>
    intro S hn
    unfold removeSubprefixes
    split
    · rename_i x hx
      obtain ⟨hxS, -, -, hxc⟩ := firstIn_eq_some hx
      have hmem : x ∈ S.filter fun x => pfx.contains x = true := Finset.mem_filter.2 ⟨hxS, hxc⟩
      rw [ih (S.erase x) (by rw [Finset.filter_erase, Finset.card_erase_of_mem hmem]; omega),
        Finset.filter_erase, Finset.erase_eq_of_notMem (by simp [hxc])]
    · rename_i hx
      refine (Finset.filter_true_of_mem fun y hy => ?_).symm
      rw [Bool.eq_false_iff]
      intro hc
      exact firstIn_eq_none hx y hy (IpPrefix.le_of_contains hc) (IpPrefix.le_last_of_contains hc) hc

/-- The prefix arithmetic the set rests on, in both families. `bifurcate` splits a
prefix shorter than its family's width into two disjoint siblings one bit longer
that aggregate back into it; a prefix longer than `/0` has a disjoint sibling of
its length whose sibling it is; and what a prefix contains sorts between it and
its last subprefix, so the range scan of `add` removes exactly the stored
prefixes it contains. Every value of `Block` is canonical, so these are the
canonical prefixes. -/
theorem prefix_halves_and_range (p : IpPrefix) :
    (p.prefixLength < p.addressFamily.interfacePrefixLen →
      ∃ c1 c2, p.bifurcate = some (c1, c2) ∧
        c1.prefixLength = p.prefixLength + 1 ∧ c2.prefixLength = p.prefixLength + 1 ∧
        (∀ a, a ∈ c1 → a ∉ c2) ∧ c1.getSibling = some c2 ∧ c2.getSibling = some c1 ∧
        c1.tryAggregate c2 = some p ∧ c2.tryAggregate c1 = some p) ∧
    (0 < p.prefixLength →
      ∃ s, p.getSibling = some s ∧ s.prefixLength = p.prefixLength ∧ (∀ a, a ∈ p → a ∉ s) ∧
        s ≠ p ∧ s.getSibling = some p) ∧
    (∀ q : IpPrefix, p.contains q = true → p ≤ q ∧ q ≤ p.getLastSubPrefix) ∧
    ∀ S : Finset IpPrefix, removeSubprefixes p S.card S = S.filter fun x => p.contains x = false := by
  refine ⟨fun hlt => ?_, fun hpos => ?_, fun q hq => ⟨IpPrefix.le_of_contains hq, IpPrefix.le_last_of_contains hq⟩,
    fun S => removeSubprefixes_eq p S.card S (Finset.card_filter_le _ _)⟩
  · obtain ⟨c1, c2, hb⟩ := IpPrefix.bifurcate_of_lt hlt
    have h := IpPrefix.bifurcate_halves hb
    exact ⟨c1, c2, hb, h.length_left, h.length_right, h.disjoint, h.sibling, h.symm.sibling,
      h.tryAggregate_eq, h.symm.tryAggregate_eq⟩
  · obtain ⟨s, hs⟩ := IpPrefix.getSibling_of_pos hpos
    -- the prefix and its sibling are the two halves of their parent
    obtain ⟨u, -, h⟩ := IpPrefix.getSibling_halves hs
    exact ⟨s, hs, h.length_right.trans h.length_left.symm, h.disjoint, IpPrefix.getSibling_ne hs,
      IpPrefix.getSibling_symm hs⟩

theorem storedSibling_eq_some :
    (c.getSibling.bind fun sibling => if sibling ∈ S then some sibling else none) = some p ↔
      c.getSibling = some p ∧ p ∈ S := by
  cases c.getSibling with
  | none => simp
  | some t =>
    simp only [Option.bind_some, Option.ite_none_right_eq_some, Option.some.injEq]
    constructor
    · rintro ⟨ht, rfl⟩; exact ⟨rfl, ht⟩
    · rintro ⟨rfl, ht⟩; exact ⟨ht, rfl⟩

theorem storedSibling_eq_none :
    (c.getSibling.bind fun sibling => if sibling ∈ S then some sibling else none) = none ↔
      ∀ s, c.getSibling = some s → s ∉ S := by
  cases c.getSibling <;> simp

/-- Taking the stored sibling out and moving on to the aggregate keeps the stored
prefixes apart from the prefix being inserted. -/
theorem apart_aggregate {sib : IpPrefix} (hS : Canonical S) (hh : IpPrefix.Halves u c sib)
    (hsS : sib ∈ S) (hap : ∀ d ∈ S, d.contains c = false ∧ c.contains d = false) :
    ∀ d ∈ S.erase sib, d.contains u = false ∧ u.contains d = false := by
  intro d hd
  obtain ⟨hne, hdS⟩ := Finset.mem_erase.1 hd
  obtain ⟨h1, h2⟩ := hap d hdS
  refine ⟨Bool.eq_false_iff.2 fun hdu => ?_, Bool.eq_false_iff.2 fun hud => ?_⟩
  · -- `d` containing `u` would contain `c`
    simp [IpPrefix.contains_trans hdu hh.contains_left] at h1
  · -- `d` inside `u` is `u`, or lies in `c` or in the stored sibling
    rcases eq_or_ne u d with rfl | e
    · simp [hh.contains_left] at h1
    · rcases hh.contains_or hud e with hcd | hsd
      · simp [hcd] at h2
      · exact hne (hS.antichain sib hsS d hdS hsd).symm

/-- The aggregation loop: from a canonical set apart from `c`, it inserts the
aggregate of `c` with its stored siblings, and covers `c` in addition. The induction
is on the fuel, which bounds the prefix length. -/
theorem aggregateSiblings_spec : ∀ (n : Nat) (c : IpPrefix) (S : Finset IpPrefix),
    c.prefixLength < n → Canonical S →
    (∀ d ∈ S, d.contains c = false ∧ c.contains d = false) →
    ∃ S', aggregateSiblings n c S = some S' ∧ Canonical S' ∧
      ∀ a, Covers S' a ↔ a ∈ c ∨ Covers S a := by
  intro n
  induction n with
  | zero => intro c S hn; omega
  | succ n ih =>
    intro c S hn hS hap
    unfold aggregateSiblings
    split
    · rename_i sib hsib
      obtain ⟨hcs, hsS⟩ := storedSibling_eq_some.1 hsib
      obtain ⟨u, hu, hh⟩ := IpPrefix.getSibling_halves hcs
      obtain ⟨S', h1, h2, h3⟩ := ih u (S.erase sib) (by have := hh.length_left; omega)
        (hS.mono (Finset.erase_subset _ _)) (apart_aggregate hS hh hsS hap)
      refine ⟨S', by rw [hu]; exact h1, h2, fun a => ?_⟩
      rw [h3, hh.mem_iff, covers_erase hsS]
      tauto
    · rename_i hnone
      exact ⟨insert c S, rfl, canonical_insert hS hap (storedSibling_eq_none.1 hnone),
        fun a => covers_insert⟩

theorem containsPrefix_iff {s : IpSet} (hS : Antichain s.includedPrefixes) :
    s.containsPrefix q = true ↔ ∃ c ∈ s.includedPrefixes, c.contains q = true := by
  simp only [containsPrefix, Option.isSome_iff_exists, getContainingPrefix_eq_some hS]

/-- From a canonical set, `add p` returns, keeps the set canonical, and covers exactly
the old addresses and those of `p`. -/
theorem add_spec {s : IpSet} (hS : Canonical s.includedPrefixes) (p : IpPrefix) :
    ∃ s', s.add p = some s' ∧ Canonical s'.includedPrefixes ∧
      ∀ a, Covers s'.includedPrefixes a ↔ a ∈ p ∨ Covers s.includedPrefixes a := by
  unfold add
  split
  · -- a stored prefix already contains `p`
    rename_i hc
    obtain ⟨c, hcS, hcp⟩ := (containsPrefix_iff hS.antichain).1 hc
    exact ⟨s, rfl, hS, fun a =>
      ⟨.inr, fun h => h.elim (fun ha => ⟨c, hcS, IpPrefix.mem_of_contains hcp ha⟩) id⟩⟩
  · rename_i hc
    have hnc : ∀ c ∈ s.includedPrefixes, c.contains p = false := fun c hcS =>
      Bool.eq_false_iff.2 fun hcp => hc ((containsPrefix_iff hS.antichain).2 ⟨c, hcS, hcp⟩)
    rw [removeSubprefixes_eq p _ _ (Finset.card_filter_le _ _)]
    obtain ⟨S', h1, h2, h3⟩ := aggregateSiblings_spec _ p _ (Nat.lt_succ_self _)
      (hS.mono (Finset.filter_subset _ _))
      (fun d hd => ⟨hnc d (Finset.mem_filter.1 hd).1, (Finset.mem_filter.1 hd).2⟩)
    refine ⟨⟨S'⟩, by rw [h1]; rfl, h2, fun a => ?_⟩
    rw [h3]
    -- the deleted prefixes lie inside `p`
    constructor
    · rintro (ha | ⟨d, hd, ha⟩)
      · exact .inl ha
      · exact .inr ⟨d, (Finset.mem_filter.1 hd).1, ha⟩
    · rintro (ha | ⟨d, hd, ha⟩)
      · exact .inl ha
      · by_cases hpd : p.contains d = true
        · exact .inl (IpPrefix.mem_of_contains hpd ha)
        · exact .inr ⟨d, Finset.mem_filter.2 ⟨hd, by simpa using hpd⟩, ha⟩

/-! ## `remove` -/

/-- Putting back a half `h` of the container keeps the stored prefixes canonical: the
stored prefixes miss the container, which holds `h` and its sibling. -/
theorem canonical_insert_half {h : IpPrefix} (hS : Canonical S)
    (hdis : ∀ d ∈ S, ∀ a, a ∈ d → a ∉ c) (hch : c.contains h = true)
    (hsib : ∀ s, h.getSibling = some s → c.contains s = true) : Canonical (insert h S) := by
  refine canonical_insert hS (fun d hd => apart_of_disjoint (hdis d hd) hch) fun s hs hsS => ?_
  obtain ⟨a, ha⟩ := IpPrefix.exists_mem s
  exact hdis s hsS a ha (IpPrefix.mem_of_contains (hsib s hs) ha)

/-- Each round of the splitting loop keeps the stored prefixes off the new container. -/
theorem disjoint_half {h h' : IpPrefix} (hdis : ∀ d ∈ S, ∀ a, a ∈ d → a ∉ c)
    (hch : c.contains h = true) (hhh' : ∀ a, a ∈ h' → a ∉ h) :
    ∀ d ∈ insert h' S, ∀ a, a ∈ d → a ∉ h := by
  intro d hd a ha hah
  rcases Finset.mem_insert.1 hd with rfl | hd
  · exact hhh' a ha hah
  · exact hdis d hd a ha (IpPrefix.mem_of_contains hch hah)

/-- The splitting loop: from a canonical set missing the container `c ⊇ q`, it puts
back the parts of `c` outside `q`. The induction is on the fuel, which bounds how
many bits `q` is longer than the container. -/
theorem bifurcateDown_spec (q : IpPrefix) : ∀ (n : Nat) (c : IpPrefix) (S : Finset IpPrefix),
    q.prefixLength < c.prefixLength + n → c.contains q = true → Canonical S →
    (∀ d ∈ S, ∀ a, a ∈ d → a ∉ c) →
    ∃ S', bifurcateDown q n c S = some S' ∧ Canonical S' ∧
      ∀ a, Covers S' a ↔ Covers S a ∨ (a ∈ c ∧ a ∉ q) := by
  intro n
  induction n with
  | zero => intro c S hn hcq; have := IpPrefix.length_le_of_contains hcq; omega
  | succ n ih =>
    intro c S hn hcq hS hdis
    unfold bifurcateDown
    split
    · -- the container is `q`
      rename_i e
      subst e
      exact ⟨S, rfl, hS, fun a => by tauto⟩
    · rename_i hne
      obtain ⟨c1, c2, hb⟩ := IpPrefix.bifurcate_isSome hcq hne
      have hh := IpPrefix.bifurcate_halves hb
      have hsym := IpPrefix.getSibling_symm hh.sibling
      simp only [hb]
      split
      · -- `q` is in the even half: put the odd half back
        rename_i h1
        obtain ⟨S', e, hS', hcov⟩ := ih c1 (insert c2 S) (by have := hh.length_left; omega) h1
          (canonical_insert_half hS hdis hh.contains_right fun s hs => by
            rw [hsym] at hs; cases hs; exact hh.contains_left)
          (disjoint_half hdis hh.contains_left fun a ha2 ha1 => hh.disjoint a ha1 ha2)
        refine ⟨S', e, hS', fun a => ?_⟩
        have hout : a ∈ c2 → a ∉ q := fun ha2 haq =>
          hh.disjoint a (IpPrefix.mem_of_contains h1 haq) ha2
        rw [hcov, covers_insert, hh.mem_iff]
        tauto
      · split
        · -- `q` is in the odd half: put the even half back
          rename_i h1 h2
          obtain ⟨S', e, hS', hcov⟩ := ih c2 (insert c1 S) (by have := hh.length_right; omega) h2
            (canonical_insert_half hS hdis hh.contains_left fun s hs => by
              rw [hh.sibling] at hs; cases hs; exact hh.contains_right)
            (disjoint_half hdis hh.contains_right hh.disjoint)
          refine ⟨S', e, hS', fun a => ?_⟩
          have hout : a ∈ c1 → a ∉ q := fun ha1 haq =>
            hh.disjoint a ha1 (IpPrefix.mem_of_contains h2 haq)
          rw [hcov, covers_insert, hh.mem_iff]
          tauto
        · -- one half contains `q`, so the `unreachable!` arm is never taken
          rename_i h1 h2
          rcases hh.contains_or hcq hne with h | h
          · exact absurd h h1
          · exact absurd h h2

/-- When a stored prefix contains `q`, `remove q` returns, keeps the set canonical,
and covers exactly the old addresses outside `q`. -/
theorem remove_of_container {s : IpSet} (hS : Canonical s.includedPrefixes)
    (hc : c ∈ s.includedPrefixes) (hcq : c.contains q = true) :
    ∃ s', s.remove q = some s' ∧ Canonical s'.includedPrefixes ∧
      ∀ a, Covers s'.includedPrefixes a ↔ Covers s.includedPrefixes a ∧ a ∉ q := by
  have hget := (getContainingPrefix_eq_some hS.antichain).2 ⟨hc, hcq⟩
  -- the other stored prefixes miss the container
  have hdis : ∀ d ∈ s.includedPrefixes.erase c, ∀ a, a ∈ d → a ∉ c := by
    intro d hd a had hac
    obtain ⟨hne, hdS⟩ := Finset.mem_erase.1 hd
    rcases IpPrefix.nested_of_mem had hac with h | h
    · exact hne (hS.antichain d hdS c hc h)
    · exact hne (hS.antichain c hc d hdS h).symm
  obtain ⟨S', e, hS', hcov⟩ := bifurcateDown_spec q (q.prefixLength + 1) c _ (by omega) hcq
    (hS.mono (Finset.erase_subset _ _)) hdis
  refine ⟨⟨S'⟩, by simp [remove, hget, e], hS', fun a => ?_⟩
  rw [hcov, covers_erase hc (S := s.includedPrefixes)]
  have hout : Covers (s.includedPrefixes.erase c) a → a ∉ q := fun ⟨d, hd, ha⟩ haq =>
    hdis d hd a ha (IpPrefix.mem_of_contains hcq haq)
  tauto

/-- When no stored prefix contains `q`, `remove q` changes nothing. -/
theorem remove_of_no_container {s : IpSet} (hS : Antichain s.includedPrefixes)
    (h : ∀ c ∈ s.includedPrefixes, c.contains q = false) : s.remove q = some s := by
  simp [remove, (getContainingPrefix_eq_none hS).2 h]

/-- From a canonical set, `remove` returns and keeps the set canonical. -/
theorem remove_canonical {s : IpSet} (hS : Canonical s.includedPrefixes) (q : IpPrefix) :
    ∃ s', s.remove q = some s' ∧ Canonical s'.includedPrefixes := by
  by_cases h : ∃ c ∈ s.includedPrefixes, c.contains q = true
  · obtain ⟨c, hc, hcq⟩ := h
    obtain ⟨s', e, hs', -⟩ := remove_of_container hS hc hcq
    exact ⟨s', e, hs'⟩
  · exact ⟨s, remove_of_no_container hS.antichain fun c hc =>
      Bool.eq_false_iff.2 fun hcq => h ⟨c, hc, hcq⟩, hS⟩

/-! ## Canonical sets are maximal decompositions -/

section Family

variable {w : Nat} (f : Family w)

/-- The stored prefixes of one family, as a family of blocks. -/
def members (f : Family w) (S : Finset IpPrefix) (b : Block w) : Prop := f.pre b ∈ S

theorem canonical_members (hS : Canonical S) : Block.Canonical (members f S) where
  antichain b c hb hc hbc := f.injective (hS.antichain _ hc _ hb ((f.contains_iff c b).2 hbc)).symm
  no_sibling b h hb hs := hS.no_sibling _ hb _ (f.getSibling_eq b h) hs

theorem covers_members {b : Block w} :
    (∀ a, a ∈ f.pre b → Covers S a) ↔ Block.Covers (members f S) b := by
  constructor
  · intro h x hx
    obtain ⟨p, hp, hap⟩ := h (f.adr ⟨x, Block.lt_of_mem hx⟩) ((f.mem_iff _ _).2 hx)
    obtain ⟨c, rfl⟩ := f.pre_of_mem _ p hap
    exact ⟨c, hp, (f.mem_iff _ _).1 hap⟩
  · intro h a ha
    obtain ⟨x, rfl⟩ := f.of_mem a b ha
    obtain ⟨c, hc, hxc⟩ := h x.val ((f.mem_iff _ _).1 ha)
    exact ⟨f.pre c, hc, (f.mem_iff _ _).2 hxc⟩

/-- A prefix of one family is stored exactly when it is a maximal covered prefix. -/
theorem mem_iff_maximal_of_family (hS : Canonical S) (b : Block w) :
    f.pre b ∈ S ↔ (∀ a, a ∈ f.pre b → Covers S a) ∧
      ∀ u, u.contains (f.pre b) = true → u ≠ f.pre b → ¬ ∀ a, a ∈ u → Covers S a := by
  have hF := canonical_members f hS
  rw [covers_members f]
  constructor
  · intro hb
    refine ⟨(hF.mem_iff.1 hb).1, fun u hu hne hcov => ?_⟩
    -- a covered prefix strictly containing `b` would cover its parent
    obtain ⟨c, rfl⟩ := f.pre_of_contains hu
    have hbc := (f.contains_iff c b).1 hu
    obtain ⟨h, hp⟩ := Block.parent_sub_of_ssub hbc fun e => hne (congrArg f.pre e.symm)
    exact (hF.mem_iff.1 hb).2 h (((covers_members f).1 hcov).mono hp)
  · rintro ⟨hcov, hmax⟩
    refine hF.mem_iff.2 ⟨hcov, fun h hp => hmax (f.pre (b.parent h))
      ((f.contains_iff _ _).2 (b.sub_parent h)) (fun e => ?_) ((covers_members f).2 hp)⟩
    have := congrArg Block.len (f.injective e)
    simp only [Block.len_parent] at this
    omega

end Family

/-- The prefixes of a canonical set are exactly the maximal prefixes of what it
covers: it is the decomposition of its addresses into maximal aligned blocks. -/
theorem Canonical.mem_iff_maximal (hS : Canonical S) (p : IpPrefix) :
    p ∈ S ↔ (∀ a, a ∈ p → Covers S a) ∧
      ∀ u, u.contains p = true → u ≠ p → ¬ ∀ a, a ∈ u → Covers S a := by
  cases p with
  | V4 b => exact mem_iff_maximal_of_family Family.v4 hS b
  | V6 b => exact mem_iff_maximal_of_family Family.v6 hS b

/-! ## Runs -/

theorem canonical_newEmpty : Canonical newEmpty.includedPrefixes :=
  ⟨fun p hp => absurd hp (Finset.notMem_empty p), fun p hp => absurd hp (Finset.notMem_empty p)⟩

theorem canonical_fromPrefix (p : IpPrefix) : Canonical (fromPrefix p).includedPrefixes := by
  constructor
  · intro p₁ h1 p₂ h2 _
    rw [fromPrefix, Finset.mem_singleton] at h1 h2
    rw [h1, h2]
  · intro p₁ h1 q hq hqs
    rw [fromPrefix, Finset.mem_singleton] at h1 hqs
    subst h1 hqs
    exact IpPrefix.getSibling_ne hq rfl

/-- Every set the public API builds is canonical. -/
theorem Reachable.canonical {s : IpSet} (h : Reachable s) : Canonical s.includedPrefixes := by
  induction h with
  | newEmpty => exact canonical_newEmpty
  | fromPrefix p => exact canonical_fromPrefix p
  | add p _ e ih =>
    obtain ⟨s', e', hs', -⟩ := add_spec ih p
    rw [e] at e'
    cases e'
    exact hs'
  | remove p _ e ih =>
    obtain ⟨s', e', hs'⟩ := remove_canonical ih p
    rw [e] at e'
    cases e'
    exact hs'

theorem reachable_apply {s : IpSet} (h : Reachable s) (op : Op) :
    ∃ s', s.apply op = some s' ∧ Reachable s' := by
  cases op with
  | add p =>
    obtain ⟨s', e, -, -⟩ := add_spec h.canonical p
    exact ⟨s', e, .add p h e⟩
  | remove p =>
    obtain ⟨s', e, -⟩ := remove_canonical h.canonical p
    exact ⟨s', e, .remove p h e⟩

theorem run_cons (s : IpSet) (op : Op) (ops : List Op) :
    run s (op :: ops) = (s.apply op).bind fun s1 => run s1 ops := rfl

/-- No sequence of calls panics or runs out of fuel, from any set the API builds. -/
theorem reachable_run_total {s : IpSet} (h : Reachable s) (ops : List Op) :
    ∃ s', run s ops = some s' ∧ Reachable s' := by
  induction ops generalizing s with
  | nil => exact ⟨s, rfl, h⟩
  | cons op ops ih =>
    obtain ⟨s1, e1, h1⟩ := reachable_apply h op
    obtain ⟨s', e', h'⟩ := ih h1
    exact ⟨s', by rw [run_cons, e1]; exact e', h'⟩

/-- Adding to the empty set stores the prefix alone. -/
theorem add_newEmpty (p : IpPrefix) : newEmpty.add p = some (fromPrefix p) := by
  have hnone : newEmpty.containsPrefix p = false := by
    rw [Bool.eq_false_iff, ne_eq, containsPrefix_iff canonical_newEmpty.antichain]
    rintro ⟨c, hc, -⟩
    exact Finset.notMem_empty c hc
  have hsib : (p.getSibling.bind fun sibling =>
      if sibling ∈ (∅ : Finset IpPrefix) then some sibling else none) = none :=
    storedSibling_eq_none.2 fun s _ => Finset.notMem_empty s
  rw [add, if_neg (by simp [hnone])]
  simp only [newEmpty, Finset.card_empty, removeSubprefixes, aggregateSiblings, hsib,
    Option.map_some, fromPrefix, Finset.insert_empty]

/-- Adding the values of a list in turn covers the old addresses and those of the values. -/
theorem foldlM_add_spec {α : Type} [ToPrefix α] (values : List α) :
    ∀ s : IpSet, Reachable s →
      ∃ s', values.foldlM (fun ipset p => ipset.add (ToPrefix.toPrefix p)) s = some s' ∧
        Reachable s' ∧ ∀ a, Covers s'.includedPrefixes a ↔
          Covers s.includedPrefixes a ∨ ∃ v ∈ values, a ∈ ToPrefix.toPrefix v := by
  induction values with
  | nil => intro s h; exact ⟨s, rfl, h, fun a => by simp⟩
  | cons v vs ih =>
    intro s h
    obtain ⟨s1, e1, -, hc1⟩ := add_spec h.canonical (ToPrefix.toPrefix v)
    obtain ⟨s', e', h', hc'⟩ := ih s1 (.add _ h e1)
    refine ⟨s', by rw [List.foldlM_cons, e1]; exact e', h', fun a => ?_⟩
    rw [hc', hc1]
    simp only [List.mem_cons, exists_eq_or_imp]
    tauto

/-! ## What `get_prefixes` returns -/

theorem mem_getPrefixes {s : IpSet} : p ∈ s.getPrefixes ↔ p ∈ s.includedPrefixes :=
  Finset.mem_sort _

theorem getPrefixes_sorted (s : IpSet) : s.getPrefixes.Pairwise (· < ·) :=
  List.sortedLT_iff_pairwise.1 (Finset.sortedLT_sort _)

/-- What `get_prefixes` lists: no prefix inside another, no two siblings, sorted with
every IPv4 prefix first, and exactly the maximal prefixes of the covered addresses. -/
structure Decomposition (s : IpSet) : Prop where
  antichain : ∀ p ∈ s.getPrefixes, ∀ q ∈ s.getPrefixes, p.contains q = true → p = q
  no_sibling : ∀ p ∈ s.getPrefixes, ∀ q, p.getSibling = some q → q ∉ s.getPrefixes
  sorted : s.getPrefixes.Pairwise fun p q =>
    p < q ∧ (q.addressFamily = .Ipv4 → p.addressFamily = .Ipv4)
  maximal : ∀ p, p ∈ s.getPrefixes ↔ (∀ a, a ∈ p → Covers s.includedPrefixes a) ∧
    ∀ u, u.contains p = true → u ≠ p → ¬ ∀ a, a ∈ u → Covers s.includedPrefixes a

theorem decomposition_of_canonical {s : IpSet} (h : Canonical s.includedPrefixes) :
    Decomposition s where
  antichain p hp q hq := h.antichain p (mem_getPrefixes.1 hp) q (mem_getPrefixes.1 hq)
  no_sibling p hp q hpq hq := h.no_sibling p (mem_getPrefixes.1 hp) q hpq (mem_getPrefixes.1 hq)
  sorted := (getPrefixes_sorted s).imp fun hlt => ⟨hlt, IpPrefix.addressFamily_of_le hlt.le⟩
  maximal p := mem_getPrefixes.trans (h.mem_iff_maximal p)

theorem reachable_decomposition {s : IpSet} (h : Reachable s) : Decomposition s :=
  decomposition_of_canonical h.canonical

theorem net10_lt : 0x0A000000 < 2 ^ 32 := by decide

theorem len24_le : 24 ≤ 32 := by decide

/-- `10.0.0.0/24`. -/
def net24 : Ipv4Prefix := ⟨0x0A000000, 24, len24_le, net10_lt, by decide⟩

/-- `10.0.0.0/26`. -/
def net26 : Ipv4Prefix := ⟨0x0A000000, 26, by decide, net10_lt, by decide⟩

/-- What `10.0.0.0/24` keeps once `10.0.0.0/26` is removed: `10.0.0.64/26` and
`10.0.0.128/25`, the halves `remove` puts back while it splits the container. -/
def split24 : IpSet :=
  ⟨{.V4 ⟨0x0A000040, 26, by decide, by decide, by decide⟩,
    .V4 ⟨0x0A000080, 25, by decide, by decide, by decide⟩}⟩

theorem remove_net26 : (fromPrefix (.V4 net24)).remove (.V4 net26) = some split24 := by decide

theorem reachable_split24 : Reachable split24 :=
  .remove _ (.add _ .newEmpty (add_newEmpty _)) remove_net26

theorem reachable_decomposition_split24 : Reachable split24 ∧ Decomposition split24 :=
  ⟨reachable_split24, reachable_decomposition reachable_split24⟩

theorem reachable_run_total_newEmpty :
    Reachable newEmpty ∧ ∃ s', run newEmpty [.add (.V4 net24), .remove (.V4 net24)] = some s' ∧
      Reachable s' :=
  ⟨.newEmpty, reachable_run_total .newEmpty _⟩

/-- Two canonical sets that cover the same addresses store the same prefixes. -/
theorem canonical_eq_of_covers (hS : Canonical S) (hT : Canonical T)
    (h : ∀ a, Covers S a ↔ Covers T a) : S = T := by
  ext p
  rw [hS.mem_iff_maximal, hT.mem_iff_maximal]
  simp only [h]

/-- `aggregate_prefixes` depends on its inputs only through the addresses they
cover: it lists the canonical set covering them. -/
theorem aggregatePrefixes_of_covers {α : Type} [ToPrefix α] (values : List α)
    (hS : Canonical S) (hcov : ∀ a, Covers S a ↔ ∃ v ∈ values, a ∈ ToPrefix.toPrefix v) :
    aggregatePrefixes values = some (IpSet.mk S).getPrefixes := by
  obtain ⟨s, e, h, hc⟩ := foldlM_add_spec values newEmpty .newEmpty
  have hsS : s.includedPrefixes = S := by
    refine canonical_eq_of_covers h.canonical hS fun a => ?_
    rw [hc, hcov]
    simp [Covers, newEmpty]
  simp [aggregatePrefixes, fromIter, e, getPrefixes, hsS]

/-- `aggregate_prefixes` is a canonical form: it returns the sorted, pairwise
disjoint, sibling-free prefixes covering the union of its inputs, the same list
for every order of the inputs, and that list again when given it back. -/
theorem aggregatePrefixes_canonical_form {α : Type} [ToPrefix α] (values : List α) :
    ∃ l, aggregatePrefixes values = some l ∧ l.Pairwise (· < ·) ∧
      (∀ p ∈ l, ∀ q ∈ l, p ≠ q → ∀ a, a ∈ p → a ∉ q) ∧
      (∀ p ∈ l, ∀ q, p.getSibling = some q → q ∉ l) ∧
      (∀ a, (∃ p ∈ l, a ∈ p) ↔ ∃ v ∈ values, a ∈ ToPrefix.toPrefix v) ∧
      (∀ values' : List α, values'.Perm values → aggregatePrefixes values' = some l) ∧
      aggregatePrefixes l = some l := by
  obtain ⟨s, e, h, hc⟩ := foldlM_add_spec values newEmpty .newEmpty
  have hS := h.canonical
  -- what the set covers, read off the list it returns
  have hl : ∀ a, (∃ p ∈ s.getPrefixes, a ∈ p) ↔ Covers s.includedPrefixes a := fun a => by
    simp only [Covers, mem_getPrefixes]
  have hvals : ∀ a, Covers s.includedPrefixes a ↔ ∃ v ∈ values, a ∈ ToPrefix.toPrefix v :=
    fun a => by rw [hc]; simp [Covers, newEmpty]
  refine ⟨s.getPrefixes, by simp [aggregatePrefixes, fromIter, e], getPrefixes_sorted s,
    fun p hp q hq => antichain_iff_disjoint.1 hS.antichain p (mem_getPrefixes.1 hp) q
      (mem_getPrefixes.1 hq),
    (decomposition_of_canonical hS).no_sibling, fun a => (hl a).trans (hvals a),
    fun values' hperm => ?_, ?_⟩
  · -- a permutation covers the same addresses
    refine aggregatePrefixes_of_covers values' hS fun a => (hvals a).trans ?_
    simp only [hperm.mem_iff]
  · -- the list covers what the set does
    exact aggregatePrefixes_of_covers s.getPrefixes hS fun a => (hl a).symm

/-! ## Membership -/

/-- In a canonical set, a prefix whose addresses are all covered lies inside a stored
prefix: the shortest covered prefix containing it is maximal, so it is stored. -/
theorem exists_container_of_covers (hS : Canonical S) (h : ∀ a, a ∈ q → Covers S a) :
    ∃ c ∈ S, c.contains q = true := by
  classical
  have hex : ∃ n, ∃ u : IpPrefix, u.contains q = true ∧ u.prefixLength = n ∧
      ∀ a, a ∈ u → Covers S a := ⟨_, q, IpPrefix.contains_refl q, rfl, h⟩
  obtain ⟨u, huq, hlen, hcov⟩ := Nat.find_spec hex
  refine ⟨u, (hS.mem_iff_maximal u).2 ⟨hcov, fun v hvu hne hv => ?_⟩, huq⟩
  -- a covered prefix strictly containing `u` is shorter, against the choice of `u`
  have hlt := IpPrefix.length_lt_of_contains hvu hne
  exact Nat.find_min hex (hlen ▸ hlt) ⟨v, IpPrefix.contains_trans hvu huq, rfl, hv⟩

theorem containsPrefix_iff_covers {s : IpSet} (hS : Canonical s.includedPrefixes) :
    s.containsPrefix q = true ↔ ∀ a, a ∈ q → Covers s.includedPrefixes a := by
  rw [containsPrefix_iff hS.antichain]
  constructor
  · rintro ⟨c, hc, hcq⟩ a ha
    exact ⟨c, hc, IpPrefix.mem_of_contains hcq ha⟩
  · exact exists_container_of_covers hS

/-- `IpSet::contains` of a prefix holds exactly when all its addresses are in the set. -/
theorem contains_prefix_iff_covers {s : IpSet} (h : Reachable s) (p : IpPrefix) :
    s.contains p = true ↔ ∀ a, a ∈ p → Covers s.includedPrefixes a :=
  containsPrefix_iff_covers h.canonical

theorem contains_prefix_iff_covers_split24 :
    Reachable split24 ∧ (split24.contains (IpPrefix.V4 net24) = true ↔
      ∀ a, a ∈ IpPrefix.V4 net24 → Covers split24.includedPrefixes a) :=
  ⟨reachable_split24, contains_prefix_iff_covers reachable_split24 _⟩

/-- `IpSet::contains` of an address holds exactly when a stored prefix holds it. -/
theorem contains_addr_iff_covers {s : IpSet} (hS : Antichain s.includedPrefixes) (a : IpAddr) :
    s.contains a = true ↔ Covers s.includedPrefixes a := by
  show s.containsPrefix a.toPrefix = true ↔ _
  rw [containsPrefix_iff hS]
  simp only [IpPrefix.contains_toPrefix, Covers]

/-- `10.0.0.0`. -/
def addr0 : IpAddr := .V4 ⟨0x0A000000, net10_lt⟩

/-- `10.0.0.200`, inside `10.0.0.128/25`. -/
def addr200 : IpAddr := .V4 ⟨0x0A0000C8, by decide⟩

theorem contains_addr_iff_covers_addr200 :
    Antichain split24.includedPrefixes ∧
      (split24.contains addr200 = true ↔ Covers split24.includedPrefixes addr200) :=
  have h := reachable_split24.canonical.antichain
  ⟨h, contains_addr_iff_covers h addr200⟩

/-- `IpSet::contains` agrees with the addresses the set covers, for every set of
pairwise disjoint prefixes no two of which are siblings and every value that
converts to a prefix (a prefix, or an address as its `/32` or `/128`): it holds
exactly when every address of the value is covered. The one lookup
`range(..=p).last()` finds every stored prefix containing the query, and what it
matches is of the query's family. -/
theorem contains_iff_covers_of_disjoint {s : IpSet}
    (hdis : ∀ p ∈ s.includedPrefixes, ∀ q ∈ s.includedPrefixes, p ≠ q → ∀ a, a ∈ p → a ∉ q)
    (hsib : ∀ p ∈ s.includedPrefixes, ∀ q, p.getSibling = some q → q ∉ s.includedPrefixes)
    {α : Type} [ToPrefix α] (v : α) :
    (s.contains v = true ↔ ∀ a, a ∈ ToPrefix.toPrefix v → Covers s.includedPrefixes a) ∧
      (∀ c ∈ s.includedPrefixes, c.contains (ToPrefix.toPrefix v) = true →
        lastLe s.includedPrefixes (ToPrefix.toPrefix v) = some c) ∧
      ∀ c, s.getContainingPrefix (ToPrefix.toPrefix v) = some c →
        c.addressFamily = (ToPrefix.toPrefix v).addressFamily := by
  have hS : Canonical s.includedPrefixes := ⟨antichain_iff_disjoint.2 hdis, hsib⟩
  refine ⟨containsPrefix_iff_covers hS, fun c hc hcv => lastLe_of_contains hS.antichain hc hcv,
    fun c hc => ?_⟩
  exact IpPrefix.addressFamily_of_contains ((getContainingPrefix_eq_some hS.antichain).1 hc).2

theorem contains_iff_covers_of_disjoint_addr200 :
    (∀ p ∈ split24.includedPrefixes, ∀ q ∈ split24.includedPrefixes,
      p ≠ q → ∀ a, a ∈ p → a ∉ q) ∧
    (∀ p ∈ split24.includedPrefixes, ∀ q, p.getSibling = some q → q ∉ split24.includedPrefixes) ∧
    (split24.contains addr200 = true ↔
      ∀ a, a ∈ ToPrefix.toPrefix addr200 → Covers split24.includedPrefixes a) ∧
    (∀ c ∈ split24.includedPrefixes, c.contains (ToPrefix.toPrefix addr200) = true →
      lastLe split24.includedPrefixes (ToPrefix.toPrefix addr200) = some c) ∧
    ∀ c, split24.getContainingPrefix (ToPrefix.toPrefix addr200) = some c →
      c.addressFamily = (ToPrefix.toPrefix addr200).addressFamily :=
  have hS := reachable_split24.canonical
  have hdis := antichain_iff_disjoint.1 hS.antichain
  ⟨hdis, hS.no_sibling, contains_iff_covers_of_disjoint hdis hS.no_sibling addr200⟩

/-! ## Against the set of addresses

What a sequence of calls should leave covered: `add` is a union and `remove` a
difference. -/

def Op.spec : Op → Set IpAddr → Set IpAddr
  | .add p, X => X ∪ {a | a ∈ p}
  | .remove p, X => X \ {a | a ∈ p}

def specRun : List Op → Set IpAddr → Set IpAddr
  | [], X => X
  | op :: ops, X => specRun ops (op.spec X)

/-- The runs whose every `remove q` finds `q` wholly inside or wholly outside what the
reference leaves covered at that point. -/
def Unsplit : Set IpAddr → List Op → Prop
  | _, [] => True
  | X, .add p :: ops => Unsplit (X ∪ {a | a ∈ p}) ops
  | X, .remove q :: ops =>
    ((∀ a, a ∈ q → a ∈ X) ∨ ∀ a, a ∈ q → a ∉ X) ∧ Unsplit (X \ {a | a ∈ q}) ops

/-- The covered addresses of a set, as a set. -/
def addrs (s : IpSet) : Set IpAddr := {a | Covers s.includedPrefixes a}

theorem apply_addrs_of_unsplit {s : IpSet} (h : Reachable s) (op : Op)
    (hop : Unsplit s.addrs [op]) : ∃ s', s.apply op = some s' ∧ Reachable s' ∧
      s'.addrs = op.spec s.addrs := by
  cases op with
  | add p =>
    obtain ⟨s', e, -, hcov⟩ := add_spec h.canonical p
    refine ⟨s', e, .add p h e, Set.ext fun a => ?_⟩
    simp only [addrs, Op.spec, Set.mem_union, Set.mem_ofPred_eq, hcov]
    tauto
  | remove q =>
    rcases hop.1 with hin | hout
    · -- `q` is covered, so a stored prefix contains it
      obtain ⟨c, hc, hcq⟩ := exists_container_of_covers h.canonical hin
      obtain ⟨s', e, -, hcov⟩ := remove_of_container h.canonical hc hcq
      refine ⟨s', e, .remove q h e, Set.ext fun a => ?_⟩
      simp only [addrs, Op.spec, Set.mem_sdiff, Set.mem_ofPred_eq, hcov]
    · -- `q` misses the set, so no stored prefix contains it and nothing changes
      have hnc : ∀ c ∈ s.includedPrefixes, c.contains q = false := by
        intro c hc
        obtain ⟨a, ha⟩ := IpPrefix.exists_mem q
        exact Bool.eq_false_iff.2 fun hcq => hout a ha ⟨c, hc, IpPrefix.mem_of_contains hcq ha⟩
      have e := remove_of_no_container h.canonical.antichain hnc
      refine ⟨s, e, .remove q h e, Set.ext fun a => ?_⟩
      simp only [Op.spec, Set.mem_sdiff, Set.mem_ofPred_eq]
      exact ⟨fun ha => ⟨ha, fun haq => hout a haq ha⟩, And.left⟩

/-- On a run whose removals never split the covered addresses, the set covers exactly
what the reference computes. -/
theorem run_addrs_of_unsplit {s : IpSet} (h : Reachable s) (ops : List Op)
    (hops : Unsplit s.addrs ops) : ∃ s', run s ops = some s' ∧ s'.addrs = specRun ops s.addrs := by
  induction ops generalizing s with
  | nil => exact ⟨s, rfl, rfl⟩
  | cons op ops ih =>
    have hop : Unsplit s.addrs [op] := by
      cases op with
      | add p => trivial
      | remove q => exact ⟨hops.1, trivial⟩
    obtain ⟨s1, e1, h1, hs1⟩ := apply_addrs_of_unsplit h op hop
    have hrest : Unsplit s1.addrs ops := by
      cases op with
      | add p => rw [hs1]; exact hops
      | remove q => rw [hs1]; exact hops.2
    obtain ⟨s', e', hs'⟩ := ih h1 hrest
    exact ⟨s', by rw [run_cons, e1]; exact e', by rw [hs', hs1]; rfl⟩

/-- `10.0.0.0/25`. -/
def net25 : Ipv4Prefix := ⟨0x0A000000, 25, by decide, net10_lt, by decide⟩

theorem run_addrs_of_unsplit_net24 :
    Reachable newEmpty ∧ Unsplit newEmpty.addrs [.add (.V4 net24), .remove (.V4 net25)] ∧
      ∃ s', run newEmpty [.add (.V4 net24), .remove (.V4 net25)] = some s' ∧
        s'.addrs = specRun [.add (.V4 net24), .remove (.V4 net25)] newEmpty.addrs := by
  have hu : Unsplit newEmpty.addrs [.add (.V4 net24), .remove (.V4 net25)] := by
    have h : (IpPrefix.V4 net24).contains (.V4 net25) = true := by decide
    exact ⟨.inl fun a ha => .inr (IpPrefix.mem_of_contains h ha), trivial⟩
  exact ⟨.newEmpty, hu, run_addrs_of_unsplit .newEmpty _ hu⟩

/-! ## The defect: `remove` of a prefix that is not inside a stored one

`remove q` only looks for a stored prefix that contains `q`. When there is none it
returns, although `q` may hold stored prefixes or parts of them, whose addresses
then stay in the set. -/

/-- Removing a prefix that strictly contains a stored prefix leaves the set as it is. -/
theorem remove_keeps_strict_subprefix {s : IpSet} (hS : Canonical s.includedPrefixes)
    (hp : p ∈ s.includedPrefixes) (hqp : q.contains p = true) (hne : q ≠ p) :
    s.remove q = some s := by
  refine remove_of_no_container hS.antichain fun c hc => Bool.eq_false_iff.2 fun hcq => hne ?_
  -- a stored prefix containing `q` contains `p`, so it is `p`, and `p` contains `q`
  have hcp := hS.antichain c hc p hp (IpPrefix.contains_trans hcq hqp)
  subst hcp
  exact IpPrefix.contains_antisymm hqp hcq

theorem remove_keeps_strict_subprefix_net25 :
    Canonical (fromPrefix (.V4 net25)).includedPrefixes ∧ (IpPrefix.V4 net25) ∈ (fromPrefix (.V4 net25)).includedPrefixes ∧
      (IpPrefix.V4 net24).contains (.V4 net25) = true ∧ IpPrefix.V4 net24 ≠ .V4 net25 ∧
      (fromPrefix (.V4 net25)).remove (.V4 net24) = some (fromPrefix (.V4 net25)) :=
  have hS := canonical_fromPrefix (.V4 net25)
  have hp : IpPrefix.V4 net25 ∈ (fromPrefix (.V4 net25)).includedPrefixes := Finset.mem_singleton_self _
  have hqp : (IpPrefix.V4 net24).contains (.V4 net25) = true := by decide
  have hne : IpPrefix.V4 net24 ≠ .V4 net25 := by decide
  ⟨hS, hp, hqp, hne, remove_keeps_strict_subprefix hS hp hqp hne⟩

/-- From the empty set, adding `10.0.0.0/25` and then removing `10.0.0.0/24` leaves
`10.0.0.0/25` stored: `10.0.0.0` lies in the removed prefix and is still covered,
while the reference leaves it out. -/
theorem remove_supernet_keeps_addresses :
    run newEmpty [.add (.V4 net25), .remove (.V4 net24)] = some (fromPrefix (.V4 net25)) ∧
      addr0 ∈ IpPrefix.V4 net24 ∧ addr0 ∈ (fromPrefix (.V4 net25)).addrs ∧
      addr0 ∉ specRun [.add (.V4 net25), .remove (.V4 net24)] newEmpty.addrs := by
  have h24 : addr0 ∈ IpPrefix.V4 net24 := by decide
  have h25 : addr0 ∈ IpPrefix.V4 net25 := by decide
  have hrem : (fromPrefix (.V4 net25)).remove (.V4 net24) = some (fromPrefix (.V4 net25)) :=
    remove_of_no_container (canonical_fromPrefix _).antichain fun c hc => by
      rw [fromPrefix, Finset.mem_singleton] at hc
      subst hc
      decide
  refine ⟨?_, h24, ⟨_, Finset.mem_singleton_self _, h25⟩, fun h => ?_⟩
  · rw [run_cons, apply, add_newEmpty, Option.bind_some, run_cons, apply, hrem]
    rfl
  · simp only [specRun, Op.spec, Set.mem_sdiff, Set.mem_ofPred_eq] at h
    exact h.2 h24

end IpSet

end Carbide.Network

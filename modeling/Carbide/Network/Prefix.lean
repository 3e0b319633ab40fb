import Carbide.Lib.Block

/-!
# IP prefixes

`crates/network/src/ip/prefix.rs`. An `Ipv4Prefix` is an `Ipv4Net` whose bits
after the prefix are zero: that is a `Block 32` (`Block 128` for IPv6), whose
alignment field makes a non-canonical prefix impossible to build. The `Ipv4Prefix`
and `Ipv6Prefix` impls are one definition at each width (`Prefix.getSibling`, …),
and `IpPrefix` dispatches on the family. ipnet's `contains`, `supernet`,
`broadcast`, `trunc` and `Ord` have their textbook meaning: ipnet is a
dependency, not code under `src/`, and these definitions are a stand-in for
what it documents.

* `Prefix.sibling_addr`, `Prefix.hi_addr`: the source's bit arithmetic
  (`addr ^ (1 << (w - n))`, `addr | (0x80… >> n)`) computes the library's
  sibling and upper half.
* `contains_iff`: `IpPrefix.contains` is inclusion of address sets.
* `nested_of_mem`: two prefixes that share an address are nested.
* `le_of_contains`, `le_last_of_contains`, `exists_mem_of_le_last`: a prefix sorts
  before everything it contains, those sort before its last subprefix, and what
  sorts in between starts inside it.
* `Halves`: `bifurcate` splits a prefix into two halves (`bifurcate_halves`), and
  `tryAggregate` of a prefix with its sibling is the prefix they halve
  (`getSibling_halves`).
-/
namespace Carbide.Network

open Carbide.Lib

/-- mirrors prefix.rs:106-111: an `Ipv4Net` whose bits after the prefix are zero. -/
abbrev Ipv4Prefix := Block 32

/-- mirrors prefix.rs:191-196. -/
abbrev Ipv6Prefix := Block 128

/-! ## One width -/

namespace Prefix

variable {w : Nat}

/-- ipnet's `broadcast`: the last address of the network. -/
def broadcast (p : Block w) : Nat := p.addr + p.size - 1

theorem broadcast_lt (p : Block w) : broadcast p < 2 ^ w := by
  have := p.addr_add_size_le; have := p.size_pos
  simp only [broadcast]; omega

/-- ipnet's `contains` on networks:
`self.network() <= other.network() && other.broadcast() <= self.broadcast()`. -/
def contains (p other : Block w) : Bool :=
  p.addr ≤ other.addr && broadcast other ≤ broadcast p

theorem contains_iff {p q : Block w} : contains p q = true ↔ q ⊆ p := by
  have := p.size_pos; have := q.size_pos
  rw [contains, Bool.and_eq_true, decide_eq_true_iff, decide_eq_true_iff, Block.sub_def,
    broadcast, broadcast]
  omega

/-- mirrors prefix.rs:118-137 (prefix.rs:203-224 at width 128): flip the last
prefix bit; a `/0` has no sibling. -/
def getSibling (p : Block w) : Option (Block w) :=
  if h : p.len = 0 then none else some (p.sibling (Nat.pos_of_ne_zero h))

/-- The sibling's address is the source's `addr_bits ^ (1 << (w - n))`. -/
theorem sibling_addr (p : Block w) (h : 0 < p.len) :
    (p.sibling h).addr = p.addr ^^^ 1 <<< (w - p.len) := by
  rw [Nat.one_shiftLeft]; rfl

theorem getSibling_eq_some {p s : Block w} : getSibling p = some s ↔ ∃ h, p.sibling h = s := by
  unfold getSibling
  split
  · rename_i h0
    simp only [reduceCtorEq, false_iff, not_exists]
    intro h; omega
  · simp only [Option.some.injEq]
    exact ⟨fun e => ⟨_, e⟩, fun ⟨_, e⟩ => e⟩

/-- mirrors prefix.rs:139-167 (prefix.rs:224-252): the even and the odd half one
bit longer; a full-length prefix does not split. -/
def bifurcate (p : Block w) : Option (Block w × Block w) :=
  if h : p.len < w then some (p.lo h, p.hi h) else none

/-- The odd half's address is the source's `addr_bits | (0x80… >> n)`. -/
theorem hi_addr (p : Block w) (h : p.len < w) :
    (p.hi h).addr = p.addr ||| 2 ^ (w - 1) >>> p.len := by
  have e : 2 ^ (w - 1) >>> p.len = 2 ^ (w - (p.len + 1)) := by
    rw [Nat.shiftRight_eq_div_pow, Nat.pow_div (by omega) (by decide)]
    congr 1; omega
  -- the base address is a multiple of the block size, twice the half size
  have ha : p.addr = 2 ^ (w - p.len) * p.idx := by rw [p.addr_eq, Nat.mul_comm]; rfl
  have hlt : 2 ^ (w - (p.len + 1)) < 2 ^ (w - p.len) := Nat.pow_lt_pow_right (by decide) (by omega)
  rw [e, ha, ← Nat.two_pow_add_eq_or_of_lt hlt, ← ha]
  rfl

theorem bifurcate_eq_some {p c1 c2 : Block w} :
    bifurcate p = some (c1, c2) ↔ ∃ h, p.lo h = c1 ∧ p.hi h = c2 := by
  unfold bifurcate
  split
  · simp only [Option.some.injEq, Prod.mk.injEq]
    refine ⟨fun e => ⟨_, e⟩, ?_⟩
    rintro ⟨_, e⟩
    exact e
  · rename_i h0
    simp only [reduceCtorEq, false_iff, not_exists]
    exact fun h => absurd h h0

/-- mirrors prefix.rs:167-171: the broadcast address as a host prefix. -/
def getLastSubPrefix (p : Block w) : Block w := Block.single (broadcast p) (broadcast_lt p)

/-- ipnet's `supernet`: the network one bit shorter, truncated; none for a `/0`. -/
def supernet (p : Block w) : Option (Block w) :=
  if h : 0 < p.len then some (p.parent h) else none

/-- mirrors prefix.rs:173-183 (prefix.rs:258-268). -/
def tryAggregate (p1 p2 : Block w) : Option (Block w) :=
  if contains p1 p2 then some p1
  else if contains p2 p1 then some p2
  else match supernet p1, supernet p2 with
    | some super1, some super2 => if super1 = super2 then some super1 else none
    | _, _ => none

/-- A prefix aggregates with its sibling into its parent. -/
theorem tryAggregate_sibling (p : Block w) (h : 0 < p.len) :
    tryAggregate p (p.sibling h) = some (p.parent h) := by
  have h1 : contains p (p.sibling h) = false := by
    rw [Bool.eq_false_iff, ne_eq, contains_iff, Block.sub_iff]
    intro hs
    exact p.sibling_disjoint h (hs _ (p.sibling h).addr_mem) (p.sibling h).addr_mem
  have h2 : contains (p.sibling h) p = false := by
    rw [Bool.eq_false_iff, ne_eq, contains_iff, Block.sub_iff]
    intro hs
    exact p.sibling_disjoint h p.addr_mem (hs _ p.addr_mem)
  have h3 : supernet (p.sibling h) = some (p.parent h) := by
    rw [supernet, dif_pos (by simpa using h), Block.parent_sibling]
  rw [tryAggregate, h1, h2, h3, supernet, dif_pos h]
  simp

end Prefix

/-! ## The two widths -/

/-- mirrors prefix.rs:114-116. -/
def Ipv4Prefix.contains (p other : Ipv4Prefix) : Bool := Prefix.contains p other

/-- mirrors prefix.rs:118-137. -/
def Ipv4Prefix.getSibling (p : Ipv4Prefix) : Option Ipv4Prefix := Prefix.getSibling p

/-- mirrors prefix.rs:139-167. -/
def Ipv4Prefix.bifurcate (p : Ipv4Prefix) : Option (Ipv4Prefix × Ipv4Prefix) := Prefix.bifurcate p

/-- mirrors prefix.rs:167-171. -/
def Ipv4Prefix.getLastSubPrefix (p : Ipv4Prefix) : Ipv4Prefix := Prefix.getLastSubPrefix p

/-- mirrors prefix.rs:173-183. -/
def Ipv4Prefix.tryAggregate (p other : Ipv4Prefix) : Option Ipv4Prefix := Prefix.tryAggregate p other

/-- mirrors prefix.rs:327-331. -/
def Ipv4Prefix.prefixLength (p : Ipv4Prefix) : Nat := p.len

/-- mirrors prefix.rs:199-201. -/
def Ipv6Prefix.contains (p other : Ipv6Prefix) : Bool := Prefix.contains p other

/-- mirrors prefix.rs:203-224. -/
def Ipv6Prefix.getSibling (p : Ipv6Prefix) : Option Ipv6Prefix := Prefix.getSibling p

/-- mirrors prefix.rs:226-252. -/
def Ipv6Prefix.bifurcate (p : Ipv6Prefix) : Option (Ipv6Prefix × Ipv6Prefix) := Prefix.bifurcate p

/-- mirrors prefix.rs:252-257. -/
def Ipv6Prefix.getLastSubPrefix (p : Ipv6Prefix) : Ipv6Prefix := Prefix.getLastSubPrefix p

/-- mirrors prefix.rs:258-268. -/
def Ipv6Prefix.tryAggregate (p other : Ipv6Prefix) : Option Ipv6Prefix := Prefix.tryAggregate p other

/-- mirrors prefix.rs:333-337. -/
def Ipv6Prefix.prefixLength (p : Ipv6Prefix) : Nat := p.len

/-! ## `IpPrefix` -/

/-- mirrors address_family.rs `IpAddressFamily`. -/
inductive IpAddressFamily
  | Ipv4
  | Ipv6
  deriving DecidableEq

/-- mirrors prefix.rs:41-46. -/
inductive IpPrefix
  | V4 (p : Ipv4Prefix)
  | V6 (p : Ipv6Prefix)
  deriving DecidableEq

/-- `std::net::IpAddr`: the bits of a 32- or a 128-bit address. -/
inductive IpAddr
  | V4 (bits : Fin (2 ^ 32))
  | V6 (bits : Fin (2 ^ 128))
  deriving DecidableEq

/-- mirrors address_family.rs:28-33. -/
def IpAddressFamily.interfacePrefixLen : IpAddressFamily → Nat
  | .Ipv4 => 32
  | .Ipv6 => 128

/-- `IpAddr::is_ipv6`. -/
def IpAddr.isIpv6 : IpAddr → Bool
  | .V4 _ => false
  | .V6 _ => true

namespace IpPrefix

/-- mirrors prefix.rs:48-55. -/
def addressFamily : IpPrefix → IpAddressFamily
  | V4 _ => .Ipv4
  | V6 _ => .Ipv6

/-- mirrors prefix.rs:58-66: prefixes of different families never contain each other. -/
def contains : IpPrefix → IpPrefix → Bool
  | V4 p, V4 other => Ipv4Prefix.contains p other
  | V6 p, V6 other => Ipv6Prefix.contains p other
  | _, _ => false

/-- mirrors prefix.rs:68-74. -/
def getSibling : IpPrefix → Option IpPrefix
  | V4 p => (Ipv4Prefix.getSibling p).map V4
  | V6 p => (Ipv6Prefix.getSibling p).map V6

/-- mirrors prefix.rs:76-86. -/
def bifurcate : IpPrefix → Option (IpPrefix × IpPrefix)
  | V4 p => (Ipv4Prefix.bifurcate p).map fun (even, odd) => (V4 even, V4 odd)
  | V6 p => (Ipv6Prefix.bifurcate p).map fun (even, odd) => (V6 even, V6 odd)

/-- mirrors prefix.rs:88-94. -/
def getLastSubPrefix : IpPrefix → IpPrefix
  | V4 p => V4 (Ipv4Prefix.getLastSubPrefix p)
  | V6 p => V6 (Ipv6Prefix.getLastSubPrefix p)

/-- mirrors prefix.rs:96-104. -/
def tryAggregate : IpPrefix → IpPrefix → Option IpPrefix
  | V4 p1, V4 p2 => (Ipv4Prefix.tryAggregate p1 p2).map V4
  | V6 p1, V6 p2 => (Ipv6Prefix.tryAggregate p1 p2).map V6
  | _, _ => none

/-- mirrors prefix.rs:339-346. -/
def prefixLength : IpPrefix → Nat
  | V4 p => Ipv4Prefix.prefixLength p
  | V6 p => Ipv6Prefix.prefixLength p

/-- mirrors prefix.rs:435-451: every IPv4 prefix sorts before every IPv6 prefix,
and within a family ipnet orders by address, then by prefix length. -/
def key : IpPrefix → Nat ×ₗ (Nat ×ₗ Nat)
  | V4 p => toLex (0, p.key)
  | V6 p => toLex (1, p.key)

theorem key_injective : Function.Injective key := by
  intro p q h
  cases p <;> cases q <;> simp_all [key, Block.key_injective.eq_iff]

instance : LinearOrder IpPrefix := LinearOrder.lift' key key_injective

theorem le_def {p q : IpPrefix} : p ≤ q ↔ key p ≤ key q := Iff.rfl

@[simp] theorem V4_le_V4 {p q : Ipv4Prefix} : V4 p ≤ V4 q ↔ p ≤ q := by
  rw [le_def]; simp only [key, Prod.Lex.toLex_le_toLex, lt_self_iff_false, true_and, false_or]
  rfl

@[simp] theorem V6_le_V6 {p q : Ipv6Prefix} : V6 p ≤ V6 q ↔ p ≤ q := by
  rw [le_def]; simp only [key, Prod.Lex.toLex_le_toLex, lt_self_iff_false, true_and, false_or]
  rfl

@[simp] theorem V4_lt_V6 {p : Ipv4Prefix} {q : Ipv6Prefix} : V4 p < V6 q := by
  rw [← not_le, le_def]; simp [key, Prod.Lex.toLex_le_toLex]

/-- Every IPv4 prefix sorts before every IPv6 prefix. -/
theorem addressFamily_of_le {p q : IpPrefix} (h : p ≤ q) (hq : q.addressFamily = .Ipv4) :
    p.addressFamily = .Ipv4 := by
  cases p <;> cases q <;> simp only [addressFamily, reduceCtorEq] at hq ⊢
  exact absurd h (not_le.2 V4_lt_V6)

/-! ### Addresses -/

/-- An address lies in a prefix of its own family whose block holds its bits. -/
def Mem : IpPrefix → IpAddr → Prop
  | V4 p, .V4 a => a.val ∈ p
  | V6 p, .V6 a => a.val ∈ p
  | _, _ => False

instance : Membership IpAddr IpPrefix := ⟨Mem⟩

instance decMem : (p : IpPrefix) → (a : IpAddr) → Decidable (Mem p a)
  | V4 p, .V4 a => inferInstanceAs (Decidable (a.val ∈ p))
  | V6 p, .V6 a => inferInstanceAs (Decidable (a.val ∈ p))
  | V4 _, .V6 _ => isFalse id
  | V6 _, .V4 _ => isFalse id

instance (a : IpAddr) (p : IpPrefix) : Decidable (a ∈ p) := decMem p a

@[simp] theorem mem_V4 {a : Fin (2 ^ 32)} {p : Ipv4Prefix} : IpAddr.V4 a ∈ V4 p ↔ a.val ∈ p :=
  Iff.rfl

@[simp] theorem mem_V6 {a : Fin (2 ^ 128)} {p : Ipv6Prefix} : IpAddr.V6 a ∈ V6 p ↔ a.val ∈ p :=
  Iff.rfl

@[simp] theorem not_mem_V4_V6 {a : Fin (2 ^ 32)} {p : Ipv6Prefix} : ¬ IpAddr.V4 a ∈ V6 p := id

@[simp] theorem not_mem_V6_V4 {a : Fin (2 ^ 128)} {p : Ipv4Prefix} : ¬ IpAddr.V6 a ∈ V4 p := id

theorem exists_mem (p : IpPrefix) : ∃ a, a ∈ p := by
  cases p with
  | V4 p => exact ⟨.V4 ⟨p.addr, p.addr_lt⟩, p.addr_mem⟩
  | V6 p => exact ⟨.V6 ⟨p.addr, p.addr_lt⟩, p.addr_mem⟩

@[simp] theorem contains_V4 {p q : Ipv4Prefix} : (V4 p).contains (V4 q) = true ↔ q ⊆ p :=
  Prefix.contains_iff

@[simp] theorem contains_V6 {p q : Ipv6Prefix} : (V6 p).contains (V6 q) = true ↔ q ⊆ p :=
  Prefix.contains_iff

@[simp] theorem contains_V4_V6 {p : Ipv4Prefix} {q : Ipv6Prefix} : (V4 p).contains (V6 q) = false :=
  rfl

@[simp] theorem contains_V6_V4 {p : Ipv6Prefix} {q : Ipv4Prefix} : (V6 p).contains (V4 q) = false :=
  rfl

/-- `contains` is inclusion of address sets. -/
theorem contains_iff {p q : IpPrefix} : p.contains q = true ↔ ∀ a, a ∈ q → a ∈ p := by
  cases p <;> cases q
  case V4.V4 p q =>
    rw [contains_V4, Block.sub_iff]
    refine ⟨fun h a ha => ?_, fun h x hx => h (.V4 ⟨x, Block.lt_of_mem hx⟩) hx⟩
    cases a with
    | V4 a => exact h _ ha
    | V6 a => exact absurd ha not_mem_V6_V4
  case V6.V6 p q =>
    rw [contains_V6, Block.sub_iff]
    refine ⟨fun h a ha => ?_, fun h x hx => h (.V6 ⟨x, Block.lt_of_mem hx⟩) hx⟩
    cases a with
    | V4 a => exact absurd ha not_mem_V4_V6
    | V6 a => exact h _ ha
  -- across families: the base address of `q` is not in `p`
  case V4.V6 p q =>
    simp only [contains_V4_V6, Bool.false_eq_true, false_iff, not_forall]
    exact ⟨.V6 ⟨q.addr, q.addr_lt⟩, q.addr_mem, not_mem_V6_V4⟩
  case V6.V4 p q =>
    simp only [contains_V6_V4, Bool.false_eq_true, false_iff, not_forall]
    exact ⟨.V4 ⟨q.addr, q.addr_lt⟩, q.addr_mem, not_mem_V4_V6⟩

theorem contains_refl (p : IpPrefix) : p.contains p = true := contains_iff.2 fun _ h => h

/-- Only a prefix of the same family contains another. -/
theorem addressFamily_of_contains {p q : IpPrefix} (h : p.contains q = true) :
    p.addressFamily = q.addressFamily := by
  cases p <;> cases q
  case V4.V6 => simp only [contains_V4_V6, Bool.false_eq_true] at h
  case V6.V4 => simp only [contains_V6_V4, Bool.false_eq_true] at h
  all_goals rfl

theorem contains_trans {p q r : IpPrefix} (h1 : p.contains q = true) (h2 : q.contains r = true) :
    p.contains r = true :=
  contains_iff.2 fun a ha => contains_iff.1 h1 a (contains_iff.1 h2 a ha)

theorem mem_of_contains {p q : IpPrefix} {a : IpAddr} (h : p.contains q = true) (ha : a ∈ q) :
    a ∈ p :=
  contains_iff.1 h a ha

/-- Two prefixes that share an address are nested. -/
theorem nested_of_mem {p q : IpPrefix} {a : IpAddr} (hp : a ∈ p) (hq : a ∈ q) :
    p.contains q = true ∨ q.contains p = true := by
  cases p <;> cases q <;> cases a <;> simp only [mem_V4, mem_V6, not_mem_V4_V6,
    not_mem_V6_V4] at hp hq
  case V4.V4.V4 p q a => simpa only [contains_V4] using Block.nested_of_mem hq hp
  case V6.V6.V6 p q a => simpa only [contains_V6] using Block.nested_of_mem hq hp

theorem length_le_of_contains {p q : IpPrefix} (h : p.contains q = true) :
    p.prefixLength ≤ q.prefixLength := by
  cases p <;> cases q <;> simp only [contains_V4, contains_V6, contains_V4_V6, contains_V6_V4,
    Bool.false_eq_true] at h
  · exact Block.len_le_of_sub h
  · exact Block.len_le_of_sub h

theorem eq_of_contains_of_length {p q : IpPrefix} (h : p.contains q = true)
    (hl : p.prefixLength = q.prefixLength) : p = q := by
  cases p <;> cases q <;> simp only [contains_V4, contains_V6, contains_V4_V6, contains_V6_V4,
    Bool.false_eq_true] at h
  · exact congrArg V4 (Block.eq_of_sub_of_len h hl.symm).symm
  · exact congrArg V6 (Block.eq_of_sub_of_len h hl.symm).symm

theorem length_lt_of_contains {p q : IpPrefix} (h : p.contains q = true) (hne : p ≠ q) :
    p.prefixLength < q.prefixLength :=
  Nat.lt_of_le_of_ne (length_le_of_contains h) fun e => hne (eq_of_contains_of_length h e)

theorem contains_antisymm {p q : IpPrefix} (h1 : p.contains q = true) (h2 : q.contains p = true) :
    p = q :=
  eq_of_contains_of_length h1 (Nat.le_antisymm (length_le_of_contains h1) (length_le_of_contains h2))

/-! ### Order -/

/-- A prefix sorts before every prefix it contains. -/
theorem le_of_contains {p q : IpPrefix} (h : p.contains q = true) : p ≤ q := by
  cases p <;> cases q <;> simp only [contains_V4, contains_V6, contains_V4_V6, contains_V6_V4,
    Bool.false_eq_true] at h
  · exact V4_le_V4.2 (Block.le_of_sub h)
  · exact V6_le_V6.2 (Block.le_of_sub h)

/-- What a prefix contains sorts at or before its last subprefix. -/
theorem le_last_of_contains {p q : IpPrefix} (h : p.contains q = true) :
    q ≤ p.getLastSubPrefix := by
  cases p <;> cases q <;> simp only [contains_V4, contains_V6, contains_V4_V6, contains_V6_V4,
    Bool.false_eq_true] at h
  · exact V4_le_V4.2 (Block.le_last_of_sub h)
  · exact V6_le_V6.2 (Block.le_last_of_sub h)

/-- A prefix sorting between `p` and `p`'s last subprefix meets `p`. -/
theorem exists_mem_of_le_last {p t : IpPrefix} (h1 : p ≤ t) (h2 : t ≤ p.getLastSubPrefix) :
    ∃ a, a ∈ t ∧ a ∈ p := by
  cases p <;> cases t
  case V4.V4 p t =>
    exact ⟨.V4 ⟨t.addr, t.addr_lt⟩, t.addr_mem, Block.addr_mem_of_le_last (V4_le_V4.1 h1)
      (V4_le_V4.1 h2)⟩
  case V6.V6 p t =>
    exact ⟨.V6 ⟨t.addr, t.addr_lt⟩, t.addr_mem, Block.addr_mem_of_le_last (V6_le_V6.1 h1)
      (V6_le_V6.1 h2)⟩
  case V4.V6 p t => exact absurd h2 (not_le.2 V4_lt_V6)
  case V6.V4 p t => exact absurd h1 (not_le.2 V4_lt_V6)

/-! ### Halves -/

/-- `p` and `s` are the two halves of `u`: siblings, one bit longer, splitting its
addresses between them. -/
structure Halves (u p s : IpPrefix) : Prop where
  mem_iff : ∀ a, a ∈ u ↔ a ∈ p ∨ a ∈ s
  disjoint : ∀ a, a ∈ p → a ∉ s
  sibling : p.getSibling = some s
  length_left : p.prefixLength = u.prefixLength + 1
  length_right : s.prefixLength = u.prefixLength + 1

theorem getSibling_V4 {p : Ipv4Prefix} {s : IpPrefix} :
    (V4 p).getSibling = some s ↔ ∃ h, V4 (p.sibling h) = s := by
  simp only [getSibling, Ipv4Prefix.getSibling, Option.map_eq_some_iff, Prefix.getSibling_eq_some]
  constructor
  · rintro ⟨b, ⟨h, rfl⟩, rfl⟩; exact ⟨h, rfl⟩
  · rintro ⟨h, rfl⟩; exact ⟨_, ⟨h, rfl⟩, rfl⟩

theorem getSibling_V6 {p : Ipv6Prefix} {s : IpPrefix} :
    (V6 p).getSibling = some s ↔ ∃ h, V6 (p.sibling h) = s := by
  simp only [getSibling, Ipv6Prefix.getSibling, Option.map_eq_some_iff, Prefix.getSibling_eq_some]
  constructor
  · rintro ⟨b, ⟨h, rfl⟩, rfl⟩; exact ⟨h, rfl⟩
  · rintro ⟨h, rfl⟩; exact ⟨_, ⟨h, rfl⟩, rfl⟩

/-- Being siblings is symmetric. -/
theorem getSibling_symm {p s : IpPrefix} (h : p.getSibling = some s) : s.getSibling = some p := by
  cases p
  case V4 p =>
    obtain ⟨h0, rfl⟩ := getSibling_V4.1 h
    exact getSibling_V4.2 ⟨by simpa using h0, congrArg V4 (p.sibling_sibling h0)⟩
  case V6 p =>
    obtain ⟨h0, rfl⟩ := getSibling_V6.1 h
    exact getSibling_V6.2 ⟨by simpa using h0, congrArg V6 (p.sibling_sibling h0)⟩

theorem getSibling_ne {p s : IpPrefix} (h : p.getSibling = some s) : s ≠ p := by
  cases p
  case V4 p =>
    obtain ⟨h0, rfl⟩ := getSibling_V4.1 h
    exact fun e => p.sibling_ne h0 (V4.inj e)
  case V6 p =>
    obtain ⟨h0, rfl⟩ := getSibling_V6.1 h
    exact fun e => p.sibling_ne h0 (V6.inj e)

/-- Block-level halves of a parent, in either family. -/
theorem mem_parent_V4 {b : Ipv4Prefix} (h : 0 < b.len) (a : IpAddr) :
    a ∈ V4 (b.parent h) ↔ a ∈ V4 b ∨ a ∈ V4 (b.sibling h) := by
  cases a <;> simp [Block.mem_parent]

theorem mem_parent_V6 {b : Ipv6Prefix} (h : 0 < b.len) (a : IpAddr) :
    a ∈ V6 (b.parent h) ↔ a ∈ V6 b ∨ a ∈ V6 (b.sibling h) := by
  cases a <;> simp [Block.mem_parent]

theorem disjoint_sibling_V4 {b : Ipv4Prefix} (h : 0 < b.len) (a : IpAddr) (ha : a ∈ V4 b) :
    a ∉ V4 (b.sibling h) := by
  cases a <;> simp only [mem_V4, not_mem_V6_V4] at ha ⊢
  exact b.sibling_disjoint h ha

theorem disjoint_sibling_V6 {b : Ipv6Prefix} (h : 0 < b.len) (a : IpAddr) (ha : a ∈ V6 b) :
    a ∉ V6 (b.sibling h) := by
  cases a <;> simp only [mem_V6, not_mem_V4_V6] at ha ⊢
  exact b.sibling_disjoint h ha

/-- A prefix and its sibling aggregate into the prefix they halve. -/
theorem getSibling_halves {p s : IpPrefix} (h : p.getSibling = some s) :
    ∃ u, p.tryAggregate s = some u ∧ Halves u p s := by
  cases p
  case V4 p =>
    obtain ⟨h0, rfl⟩ := getSibling_V4.1 h
    refine ⟨V4 (p.parent h0), ?_, ⟨mem_parent_V4 h0, disjoint_sibling_V4 h0, h, ?_, ?_⟩⟩
    · simp [tryAggregate, Ipv4Prefix.tryAggregate, Prefix.tryAggregate_sibling]
    all_goals simp only [prefixLength, Ipv4Prefix.prefixLength, Block.len_parent,
      Block.len_sibling]; omega
  case V6 p =>
    obtain ⟨h0, rfl⟩ := getSibling_V6.1 h
    refine ⟨V6 (p.parent h0), ?_, ⟨mem_parent_V6 h0, disjoint_sibling_V6 h0, h, ?_, ?_⟩⟩
    · simp [tryAggregate, Ipv6Prefix.tryAggregate, Prefix.tryAggregate_sibling]
    all_goals simp only [prefixLength, Ipv6Prefix.prefixLength, Block.len_parent,
      Block.len_sibling]; omega

/-- `bifurcate` returns the two halves. -/
theorem bifurcate_halves {u c1 c2 : IpPrefix} (h : u.bifurcate = some (c1, c2)) : Halves u c1 c2 := by
  cases u
  case V4 b =>
    simp only [bifurcate, Ipv4Prefix.bifurcate, Option.map_eq_some_iff, Prod.exists,
      Prod.mk.injEq, Prefix.bifurcate_eq_some] at h
    obtain ⟨_, _, ⟨h0, rfl, rfl⟩, rfl, rfl⟩ := h
    have hpos : 0 < (b.lo h0).len := Nat.succ_pos _
    have hs : V4 ((b.lo h0).sibling hpos) = V4 (b.hi h0) := by rw [Block.sibling_lo]
    refine ⟨fun a => ?_, fun a ha => ?_, getSibling_V4.2 ⟨_, hs⟩, rfl, rfl⟩
    · have hm := mem_parent_V4 hpos a
      rwa [Block.parent_lo, Block.sibling_lo] at hm
    · rw [← hs]; exact disjoint_sibling_V4 _ a ha
  case V6 b =>
    simp only [bifurcate, Ipv6Prefix.bifurcate, Option.map_eq_some_iff, Prod.exists,
      Prod.mk.injEq, Prefix.bifurcate_eq_some] at h
    obtain ⟨_, _, ⟨h0, rfl, rfl⟩, rfl, rfl⟩ := h
    have hpos : 0 < (b.lo h0).len := Nat.succ_pos _
    have hs : V6 ((b.lo h0).sibling hpos) = V6 (b.hi h0) := by rw [Block.sibling_lo]
    refine ⟨fun a => ?_, fun a ha => ?_, getSibling_V6.2 ⟨_, hs⟩, rfl, rfl⟩
    · have hm := mem_parent_V6 hpos a
      rwa [Block.parent_lo, Block.sibling_lo] at hm
    · rw [← hs]; exact disjoint_sibling_V6 _ a ha

/-- A prefix strictly containing another can be split. -/
theorem bifurcate_isSome {u q : IpPrefix} (h : u.contains q = true) (hne : u ≠ q) :
    ∃ c1 c2, u.bifurcate = some (c1, c2) := by
  have hlt := length_lt_of_contains h hne
  cases u <;> cases q <;> simp only [contains_V4, contains_V6, contains_V4_V6, contains_V6_V4,
    Bool.false_eq_true] at h
  case V4.V4 b q =>
    have h0 : b.len < 32 := Nat.lt_of_lt_of_le hlt q.len_le
    exact ⟨V4 (b.lo h0), V4 (b.hi h0), by simp [bifurcate, Ipv4Prefix.bifurcate, Prefix.bifurcate, h0]⟩
  case V6.V6 b q =>
    have h0 : b.len < 128 := Nat.lt_of_lt_of_le hlt q.len_le
    exact ⟨V6 (b.lo h0), V6 (b.hi h0), by simp [bifurcate, Ipv6Prefix.bifurcate, Prefix.bifurcate, h0]⟩

namespace Halves

variable {u p s : IpPrefix}

theorem contains_left (h : Halves u p s) : u.contains p = true :=
  contains_iff.2 fun a ha => (h.mem_iff a).2 (.inl ha)

theorem contains_right (h : Halves u p s) : u.contains s = true :=
  contains_iff.2 fun a ha => (h.mem_iff a).2 (.inr ha)

/-- A prefix inside `u` other than `u` lies in one of the halves. -/
theorem contains_or (h : Halves u p s) {d : IpPrefix} (hd : u.contains d = true) (hne : u ≠ d) :
    p.contains d = true ∨ s.contains d = true := by
  have hlt := length_lt_of_contains hd hne
  obtain ⟨a, ha⟩ := exists_mem d
  -- the half holding `a` is nested with `d`, and cannot be strictly inside it
  have half : ∀ x : IpPrefix, x.prefixLength = u.prefixLength + 1 → a ∈ x → x.contains d = true := by
    intro x hx hax
    rcases nested_of_mem hax ha with hxd | hdx
    · exact hxd
    · rcases eq_or_ne d x with e | e
      · exact e ▸ contains_refl d
      · have := length_lt_of_contains hdx e; omega
  rcases (h.mem_iff a).1 (mem_of_contains hd ha) with hp | hs
  · exact .inl (half p h.length_left hp)
  · exact .inr (half s h.length_right hs)

theorem symm (h : Halves u p s) : Halves u s p where
  mem_iff a := (h.mem_iff a).trans or_comm
  disjoint a hs hp := h.disjoint a hp hs
  sibling := getSibling_symm h.sibling
  length_left := h.length_right
  length_right := h.length_left

/-- Two halves have one whole: it holds exactly their addresses. -/
theorem unique {u' : IpPrefix} (h : Halves u p s) (h' : Halves u' p s) : u = u' :=
  contains_antisymm (contains_iff.2 fun a ha => (h.mem_iff a).2 ((h'.mem_iff a).1 ha))
    (contains_iff.2 fun a ha => (h'.mem_iff a).2 ((h.mem_iff a).1 ha))

/-- The halves aggregate back into their whole. -/
theorem tryAggregate_eq (h : Halves u p s) : p.tryAggregate s = some u := by
  obtain ⟨u', hagg, h'⟩ := getSibling_halves h.sibling
  rw [hagg, h'.unique h]

end Halves

/-- A prefix shorter than its family's width splits. -/
theorem bifurcate_of_lt {p : IpPrefix} (h : p.prefixLength < p.addressFamily.interfacePrefixLen) :
    ∃ c1 c2, p.bifurcate = some (c1, c2) := by
  cases p
  case V4 b =>
    have h0 : b.len < 32 := h
    exact ⟨V4 (b.lo h0), V4 (b.hi h0), by simp [bifurcate, Ipv4Prefix.bifurcate, Prefix.bifurcate, h0]⟩
  case V6 b =>
    have h0 : b.len < 128 := h
    exact ⟨V6 (b.lo h0), V6 (b.hi h0), by simp [bifurcate, Ipv6Prefix.bifurcate, Prefix.bifurcate, h0]⟩

/-- A prefix longer than `/0` has a sibling. -/
theorem getSibling_of_pos {p : IpPrefix} (h : 0 < p.prefixLength) : ∃ s, p.getSibling = some s := by
  cases p
  case V4 b => exact ⟨V4 (b.sibling h), getSibling_V4.2 ⟨h, rfl⟩⟩
  case V6 b => exact ⟨V6 (b.sibling h), getSibling_V6.2 ⟨h, rfl⟩⟩

end IpPrefix

/-! ## One family at a time -/

/-- One address family of `IpPrefix`, at width `w`: the constructors of its prefixes
and of its addresses, and how membership, containment and siblings read through
them. Results about one family of blocks transfer to `IpPrefix` through it. -/
structure Family (w : Nat) where
  pre : Block w → IpPrefix
  adr : Fin (2 ^ w) → IpAddr
  injective : Function.Injective pre
  mem_iff : ∀ x b, adr x ∈ pre b ↔ x.val ∈ b
  of_mem : ∀ a b, a ∈ pre b → ∃ x, a = adr x
  pre_of_mem : ∀ x p, adr x ∈ p → ∃ c, p = pre c
  contains_iff : ∀ b c, (pre b).contains (pre c) = true ↔ c ⊆ b
  getSibling_eq : ∀ b (h : 0 < b.len), (pre b).getSibling = some (pre (b.sibling h))

namespace Family

open IpPrefix

def v4 : Family 32 where
  pre := V4
  adr := .V4
  injective := fun _ _ => V4.inj
  mem_iff := fun _ _ => Iff.rfl
  of_mem := fun a b h => by cases a <;> simp_all
  pre_of_mem := fun x p h => by cases p <;> simp_all
  contains_iff := fun _ _ => contains_V4
  getSibling_eq := fun _ h => getSibling_V4.2 ⟨h, rfl⟩

def v6 : Family 128 where
  pre := V6
  adr := .V6
  injective := fun _ _ => V6.inj
  mem_iff := fun _ _ => Iff.rfl
  of_mem := fun a b h => by cases a <;> simp_all
  pre_of_mem := fun x p h => by cases p <;> simp_all
  contains_iff := fun _ _ => contains_V6
  getSibling_eq := fun _ h => getSibling_V6.2 ⟨h, rfl⟩

variable {w : Nat} (f : Family w)

theorem addr_mem (b : Block w) : f.adr ⟨b.addr, b.addr_lt⟩ ∈ f.pre b := (f.mem_iff _ _).2 b.addr_mem

/-- A prefix containing a prefix of the family is of the family. -/
theorem pre_of_contains {b : Block w} {u : IpPrefix} (h : u.contains (f.pre b) = true) :
    ∃ c, u = f.pre c :=
  f.pre_of_mem _ u (mem_of_contains h (f.addr_mem b))

end Family

/-! ## Addresses as prefixes -/

/-- mirrors prefix.rs:369-376 (`ToPrefix for IpAddr`): the address as a `/32` or a
`/128`. -/
def IpAddr.toPrefix : IpAddr → IpPrefix
  | .V4 a => .V4 (Block.single a.val a.isLt)
  | .V6 a => .V6 (Block.single a.val a.isLt)

theorem IpPrefix.contains_toPrefix {p : IpPrefix} {a : IpAddr} :
    p.contains a.toPrefix = true ↔ a ∈ p := by
  cases p <;> cases a <;> simp [IpAddr.toPrefix, Block.single_sub]

/-- mirrors prefix.rs:301-305: what an `IpSet` accepts as a prefix. -/
class ToPrefix (α : Type) where
  toPrefix : α → IpPrefix

instance : ToPrefix IpPrefix := ⟨id⟩

/-- mirrors prefix.rs:357-367. -/
instance : ToPrefix Ipv4Prefix := ⟨IpPrefix.V4⟩

instance : ToPrefix Ipv6Prefix := ⟨IpPrefix.V6⟩

instance : ToPrefix IpAddr := ⟨IpAddr.toPrefix⟩

/-- `ipnet::IpNet`: an address and a prefix length, host bits allowed. -/
inductive IpNet
  | V4 (addr : Fin (2 ^ 32)) (prefixLen : Nat) (h : prefixLen ≤ 32)
  | V6 (addr : Fin (2 ^ 128)) (prefixLen : Nat) (h : prefixLen ≤ 128)
  deriving DecidableEq

/-- mirrors prefix.rs:390-397, with 408-414 and 425-431: the network of the `IpNet`,
its host bits cleared by `trunc`. -/
def IpNet.toPrefix : IpNet → IpPrefix
  | .V4 a n h => .V4 (Block.ofAddr a.val n h a.isLt)
  | .V6 a n h => .V6 (Block.ofAddr a.val n h a.isLt)

instance : ToPrefix IpNet := ⟨IpNet.toPrefix⟩

end Carbide.Network

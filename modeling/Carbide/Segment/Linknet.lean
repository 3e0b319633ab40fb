import Mathlib.Data.Finset.Card
import Carbide.Network.Prefix
import Carbide.Lib.Intervals

/-!
# Linknet allocation from a VPC prefix

`PrefixAllocator` (api-core/src/network_segment/allocate.rs) hands out the `/L`
linknets of a VPC prefix `P`. `next_free_prefix` maps each network that occupies
address space (the rows `find_allocation_occupancy` returns) to the closed
interval of linknet indexes it touches (`occupied_prefix_intervals`,
api-db/src/network_prefix.rs), sorts the intervals and scans them from the
linknet after the persisted cursor, wrapping once (`first_unoccupied_index`).
`validate_desired_prefix` checks a requested prefix against the same rows, and
`update_stats` (api-db/src/vpc_prefix.rs) reports the free `/31` (`/127`)
linknets through `occupied_prefix_count`.

Networks are ipnetwork's `IpNetwork`; the `u128` address arithmetic is on `Nat`,
with the source's checked and saturating operations kept. The rows are the
functions' inputs: the queries are not modelled. An error holds the values its
`format!` text prints.

* `firstUnoccupiedIndex_eq`: the interval scan is the first fit over the
  indexes no interval covers.
* `covered_occupiedPrefixIntervals`: an index is covered exactly when some
  occupied network of `P`'s family shares an address with that linknet
  (`Linknet.Meets`, read as addresses by `meets_iff_exists_mem`).
* `nextFreePrefix_eq`: `next_free_prefix` returns the first free linknet in
  cyclic order from the one after the cursor's, and `ResourceExhausted` when
  none is free, unless the linknets number `2 ^ 128`.
* `validateDesiredPrefix_child`, `occupiedPrefixCount_eq`, `updateStats_available`:
  a linknet is accepted exactly when it is free, the count is the number of
  linknets that are not, and `update_stats` reports the free ones.
-/
namespace Carbide.Segment

open Carbide.Lib Carbide.Network

/-! ## Networks -/

/-- ipnetwork's `IpNetwork`: an address and a prefix length, host bits allowed,
the shape of ipnet's `IpNet`. ipnetwork is a dependency, not code under
`src/`; the accessors below are a stand-in for its documented behaviour. -/
abbrev IpNetwork := IpNet

/-- mirrors allocate.rs:31-37. -/
def ipToU128 : IpAddr → Nat
  | .V4 a => a.val
  | .V6 a => a.val

/-- mirrors allocate.rs:39-46; `val as u32` keeps the low 32 bits. -/
def u128ToIp (val : Nat) (isV6 : Bool) : IpAddr :=
  if isV6 then .V6 ⟨val % 2 ^ 128, Nat.mod_lt _ (Nat.two_pow_pos _)⟩
  else .V4 ⟨val % 2 ^ 32, Nat.mod_lt _ (Nat.two_pow_pos _)⟩

namespace IpNetwork

/-- `prefix()`. -/
def prefixLen : IpNetwork → Nat
  | .V4 _ n _ => n
  | .V6 _ n _ => n

def isIpv6 : IpNetwork → Bool
  | .V4 .. => false
  | .V6 .. => true

def isIpv4 (n : IpNetwork) : Bool := !n.isIpv6

/-- mirrors address_family.rs:90-99. -/
def addressFamily : IpNetwork → IpAddressFamily
  | .V4 .. => .Ipv4
  | .V6 .. => .Ipv6

/-- `network()`: the address with its host bits cleared. -/
def network (n : IpNetwork) : IpAddr :=
  match n.toPrefix with
  | .V4 b => .V4 ⟨b.addr, b.addr_lt⟩
  | .V6 b => .V6 ⟨b.addr, b.addr_lt⟩

/-- `broadcast()`: the address with its host bits set. -/
def broadcast (n : IpNetwork) : IpAddr :=
  match n.toPrefix with
  | .V4 b => .V4 ⟨Prefix.broadcast b, Prefix.broadcast_lt b⟩
  | .V6 b => .V6 ⟨Prefix.broadcast b, Prefix.broadcast_lt b⟩

/-- `contains(ip)`: false across families. -/
def contains (n : IpNetwork) (ip : IpAddr) : Bool := decide (ip ∈ n.toPrefix)

/-- `IpNetwork::new(ip, prefix)`, which rejects a length past the family's width. -/
def new : IpAddr → Nat → Option IpNetwork
  | .V4 a, n => if h : n ≤ 32 then some (.V4 a n h) else none
  | .V6 a, n => if h : n ≤ 128 then some (.V6 a n h) else none

end IpNetwork

/-! ## The allocator (allocate.rs) -/

/-- `VpcPrefixId`, a UUID. -/
structure VpcPrefixId where
  uuid : Nat
  deriving DecidableEq

/-- The texts of the allocator's errors, each with the values it prints. -/
inductive ErrorText
  -- "prefix length {prefix} exceeds maximum for address family ({max_bits})"
  | exceedsMaximum (prefixLength maxBits : Nat)
  -- "prefix length {prefix} must be greater than VPC prefix length {}, except for an IPv4 /31"
  | notLonger (prefixLength vpcPrefixLength : Nat)
  -- "unable to represent the number of /{} linknets in VPC prefix {}"
  | countUnrepresentable (prefixLength : Nat) (vpcPrefix : IpNetwork)
  -- "unable to represent a /{} linknet address range"
  | rangeUnrepresentable (prefixLength : Nat)
  -- "VPC prefix {} ({}) has no available /{} linknets"
  | noAvailable (vpcPrefixId : VpcPrefixId) (vpcPrefix : IpNetwork) (prefixLength : Nat)
  -- "allocated linknet index {free_index} overflowed VPC prefix {}"
  | indexOverflow (freeIndex : Nat) (vpcPrefix : IpNetwork)
  -- "unable to construct allocated linknet in VPC prefix {}: {error}"
  | constructFailed (vpcPrefix : IpNetwork)
  -- "{prefix} is not contained within {}"
  | notContained (requested vpcPrefix : IpNetwork)
  deriving DecidableEq

/-- The `CarbideError` variants the allocator returns. -/
inductive CarbideError
  | invalidArgument (text : ErrorText)
  | internal (text : ErrorText)
  | resourceExhausted (text : ErrorText)
  | alreadyFoundError (kind : String) (id : IpNetwork)
  deriving DecidableEq

/-- mirrors allocate.rs:55-60; the field `prefix` is `prefixLength`. -/
structure PrefixAllocator where
  vpcPrefixId : VpcPrefixId
  vpcPrefix : IpNetwork
  lastUsedPrefix : Option IpNetwork
  prefixLength : Nat
  deriving DecidableEq

/-- mirrors allocate.rs:63-67. -/
def networksOverlap (a b : IpNetwork) : Bool := a.contains b.network || b.contains a.network

/-- `u128::saturating_add`. -/
def saturatingAdd (a b : Nat) : Nat := min (a + b) (2 ^ 128 - 1)

/-- `1u128.checked_shl(n)`. -/
def checkedShl (n : Nat) : Option Nat := if n < 128 then some (2 ^ n) else none

/-- `u128::checked_mul`. -/
def checkedMul (a b : Nat) : Option Nat := if a * b < 2 ^ 128 then some (a * b) else none

/-- `u128::checked_add`. -/
def checkedAdd (a b : Nat) : Option Nat := if a + b < 2 ^ 128 then some (a + b) else none

/-- `u128::checked_sub`. -/
def checkedSub (a b : Nat) : Option Nat := if b ≤ a then some (a - b) else none

/-- The loop of `first_unoccupied_index`, from `candidate`: an interval that
ends before the candidate is passed, one that starts after it leaves the
candidate free, and one that holds it moves the candidate past its end. -/
def firstUnoccupiedScan (rangeEnd : Nat) : List (Nat × Nat) → Nat → Option Nat
  | [], candidate => some candidate
  | (occupiedStart, occupiedEnd) :: rest, candidate =>
    if occupiedEnd < candidate then firstUnoccupiedScan rangeEnd rest candidate
    else if occupiedStart > candidate then some candidate
    else
      let candidate := saturatingAdd occupiedEnd 1
      if candidate > rangeEnd then none else firstUnoccupiedScan rangeEnd rest candidate

/-- mirrors allocate.rs:79-105. -/
def firstUnoccupiedIndex (occupied : List (Nat × Nat)) (rangeStart rangeEnd : Nat) : Option Nat :=
  if rangeStart > rangeEnd then none else firstUnoccupiedScan rangeEnd occupied rangeStart

/-- mirrors allocate.rs:107-135. -/
def PrefixAllocator.new (vpcPrefixId : VpcPrefixId) (vpcPrefix : IpNetwork)
    (lastUsedPrefix : Option IpNetwork) (prefixLength : Nat) :
    Except CarbideError PrefixAllocator :=
  let maxBits := vpcPrefix.addressFamily.interfacePrefixLen
  if prefixLength > maxBits then throw (.invalidArgument (.exceedsMaximum prefixLength maxBits))
  else
    let isSingleIpv4Linknet :=
      vpcPrefix.isIpv4 && vpcPrefix.prefixLen == 31 && prefixLength == 31
    if prefixLength ≤ vpcPrefix.prefixLen ∧ isSingleIpv4Linknet = false then
      throw (.invalidArgument (.notLonger prefixLength vpcPrefix.prefixLen))
    else pure ⟨vpcPrefixId, vpcPrefix, lastUsedPrefix, prefixLength⟩

/-! ## Occupancy (api-db/src/network_prefix.rs) -/

/-- mirrors network_prefix.rs:41-71. The shift `1u128 << (max_bits - L)` is
below `128` for every length the callers pass (`L ≥ 1`). -/
def occupiedPrefixIntervals (parent : IpNetwork) (childPrefixLength : Nat)
    (occupiedPrefixes : List IpNetwork) : List (Nat × Nat) :=
  let maxBits := if parent.isIpv4 then 32 else 128
  let childSize := 2 ^ (maxBits - childPrefixLength)
  let parentStart := ipToU128 parent.network
  let parentEnd := ipToU128 parent.broadcast
  let isIpv6 := parent.isIpv6
  let intervals := (occupiedPrefixes.filter fun p => p.isIpv6 == isIpv6).filterMap fun p =>
    let occupiedStart := max (ipToU128 p.network) parentStart
    let occupiedEnd := min (ipToU128 p.broadcast) parentEnd
    if occupiedStart ≤ occupiedEnd then
      some ((occupiedStart - parentStart) / childSize, (occupiedEnd - parentStart) / childSize)
    else none
  intervals.mergeSort fun a b => decide (toLex a ≤ toLex b)

/-- The loop of `occupied_prefix_count` over `intervals[1..]`: `occupied` counts
the closed runs and `[currentStart, currentEnd]` is the open one. -/
def countRuns : List (Nat × Nat) → Nat → Nat → Nat → Nat
  | [], occupied, currentStart, currentEnd => occupied + currentEnd - currentStart + 1
  | (start, stop) :: rest, occupied, currentStart, currentEnd =>
    if start ≤ saturatingAdd currentEnd 1 then
      countRuns rest occupied currentStart (max currentEnd stop)
    else countRuns rest (occupied + (currentEnd - currentStart + 1)) start stop

/-- mirrors network_prefix.rs:74-95. -/
def occupiedPrefixCount (parent : IpNetwork) (childPrefixLength : Nat)
    (occupiedPrefixes : List IpNetwork) : Nat :=
  match occupiedPrefixIntervals parent childPrefixLength occupiedPrefixes with
  | [] => 0
  | (firstStart, firstEnd) :: rest => countRuns rest 0 firstStart firstEnd

/-! ## Allocation -/

/-- The next-fit cursor of `next_free_prefix`: the index after the linknet that
holds the last address of a cursor of the parent's family inside it, else `0`. -/
def startIndex (lastUsedPrefix : Option IpNetwork) (isIpv6 : Bool)
    (vpcStart vpcEnd linknetSize totalNetworkPossible : Nat) : Nat :=
  ((lastUsedPrefix.filter fun p => p.isIpv6 == isIpv6).bind fun p =>
    let prefixEnd := ipToU128 p.broadcast
    if vpcStart ≤ prefixEnd ∧ prefixEnd ≤ vpcEnd then
      some (((prefixEnd - vpcStart) / linknetSize + 1) % totalNetworkPossible)
    else none).getD 0

/-- mirrors allocate.rs:236-313; `usedPrefixes` are the rows of
`find_allocation_occupancy`. The `u8` difference of the lengths is a `Nat` one:
`new` keeps the linknet length at least the VPC prefix's. -/
def PrefixAllocator.nextFreePrefix (self : PrefixAllocator) (usedPrefixes : List IpNetwork) :
    Except CarbideError IpNetwork := do
  let prefixDelta := self.prefixLength - self.vpcPrefix.prefixLen
  let some totalNetworkPossible := checkedShl prefixDelta
    | throw (.internal (.countUnrepresentable self.prefixLength self.vpcPrefix))
  let maxBits := self.vpcPrefix.addressFamily.interfacePrefixLen
  let hostBits := maxBits - self.prefixLength
  let some linknetSize := checkedShl hostBits
    | throw (.internal (.rangeUnrepresentable self.prefixLength))
  let vpcStart := ipToU128 self.vpcPrefix.network
  let vpcEnd := ipToU128 self.vpcPrefix.broadcast
  let isIpv6 := self.vpcPrefix.isIpv6
  let occupied := occupiedPrefixIntervals self.vpcPrefix self.prefixLength usedPrefixes
  let startIndex :=
    startIndex self.lastUsedPrefix isIpv6 vpcStart vpcEnd linknetSize totalNetworkPossible
  let some freeIndex :=
      (firstUnoccupiedIndex occupied startIndex (totalNetworkPossible - 1)).or
        ((checkedSub startIndex 1).bind fun rangeEnd => firstUnoccupiedIndex occupied 0 rangeEnd)
    | throw (.resourceExhausted (.noAvailable self.vpcPrefixId self.vpcPrefix self.prefixLength))
  let some address := (checkedMul freeIndex linknetSize).bind fun offset => checkedAdd vpcStart offset
    | throw (.internal (.indexOverflow freeIndex self.vpcPrefix))
  match IpNetwork.new (u128ToIp address isIpv6) self.prefixLength with
  | some network => pure network
  | none => throw (.internal (.constructFailed self.vpcPrefix))

/-- mirrors allocate.rs:315-343; `usedPrefixes` are the rows of
`find_allocation_occupancy`. -/
def PrefixAllocator.validateDesiredPrefix (self : PrefixAllocator) (usedPrefixes : List IpNetwork)
    (requested : IpNetwork) : Except CarbideError Unit :=
  if !self.vpcPrefix.contains requested.network then
    throw (.invalidArgument (.notContained requested self.vpcPrefix))
  else if usedPrefixes.any fun used => networksOverlap used requested then
    throw (.alreadyFoundError "prefix" requested)
  else pure ()

/-! ## Statistics (api-db/src/vpc_prefix.rs) -/

/-- The linknet counters of `VpcPrefixStatus` (api-model/src/vpc_prefix.rs:102-110). -/
structure VpcPrefixStatus where
  total31Segments : Nat
  available31Segments : Nat
  totalLinknetSegments : Nat
  availableLinknetSegments : Nat
  deriving DecidableEq

/-- `u32::try_from(n).unwrap_or(u32::MAX)`. -/
def u32Saturate (n : Nat) : Nat := min n (2 ^ 32 - 1)

/-- `u64::try_from(n).unwrap_or(u64::MAX)`. -/
def u64Saturate (n : Nat) : Nat := min n (2 ^ 64 - 1)

/-- One pass of the loop of `update_stats` (vpc_prefix.rs:91-128), for a VPC
prefix and the networks occupying it. -/
def updateStats (vpcPrefix : IpNetwork) (occupiedPrefixes : List IpNetwork)
    (status : VpcPrefixStatus) : VpcPrefixStatus :=
  let linknetPrefix := if vpcPrefix.isIpv4 then 31 else 127
  let vpcPrefixLen := vpcPrefix.prefixLen
  let supportsFullRootLinknet := vpcPrefix.isIpv4 && vpcPrefixLen == linknetPrefix
  let total :=
    if linknetPrefix > vpcPrefixLen ∨ supportsFullRootLinknet = true then
      2 ^ (linknetPrefix - vpcPrefixLen)
    else 0
  let occupied := occupiedPrefixCount vpcPrefix linknetPrefix occupiedPrefixes
  let available := total - occupied
  let status :=
    if vpcPrefix.isIpv4 then
      { status with total31Segments := u32Saturate total, available31Segments := u32Saturate available }
    else status
  { status with
    totalLinknetSegments := u64Saturate total, availableLinknetSegments := u64Saturate available }

/-! ## Networks as ranges of values -/

namespace IpNetwork

/-- The address width of the network's family. -/
def width (n : IpNetwork) : Nat := n.addressFamily.interfacePrefixLen

/-- The network of one family at value `x` with length `len`, the length capped
at the family's width. -/
def ofValue (isV6 : Bool) (x len : Nat) : IpNetwork :=
  if isV6 then .V6 ⟨x % 2 ^ 128, Nat.mod_lt _ (Nat.two_pow_pos _)⟩ (min len 128) (Nat.min_le_right _ _)
  else .V4 ⟨x % 2 ^ 32, Nat.mod_lt _ (Nat.two_pow_pos _)⟩ (min len 32) (Nat.min_le_right _ _)

theorem width_eq (n : IpNetwork) : n.width = if n.isIpv6 then 128 else 32 := by
  cases n <;> rfl

/-- The first value of a network is a multiple of its size. -/
theorem network_mod (n : IpNetwork) : ipToU128 n.network % 2 ^ (n.width - n.prefixLen) = 0 := by
  cases n with
  | V4 a m h => exact (Block.ofAddr a.val m h a.isLt).aligned
  | V6 a m h => exact (Block.ofAddr a.val m h a.isLt).aligned

theorem broadcast_eq (n : IpNetwork) :
    ipToU128 n.broadcast = ipToU128 n.network + 2 ^ (n.width - n.prefixLen) - 1 := by
  cases n <;> rfl

theorem broadcast_lt (n : IpNetwork) : ipToU128 n.broadcast < 2 ^ n.width := by
  cases n with
  | V4 a m h => exact Prefix.broadcast_lt _
  | V6 a m h => exact Prefix.broadcast_lt _

/-- `contains` holds of the addresses of the network's family between its first
and its last value. -/
theorem contains_iff {n : IpNetwork} {a : IpAddr} :
    n.contains a = true ↔ a.isIpv6 = n.isIpv6 ∧ ipToU128 n.network ≤ ipToU128 a ∧
      ipToU128 a ≤ ipToU128 n.broadcast := by
  cases n with
  | V4 x m h =>
    cases a with
    | V4 y =>
      have := (Block.ofAddr x.val m h x.isLt).size_pos
      simp only [contains, IpNet.toPrefix, IpPrefix.mem_V4, Block.mem_def, decide_eq_true_eq,
        IpAddr.isIpv6, isIpv6, network, broadcast, Prefix.broadcast, ipToU128, true_and]
      omega
    | V6 y => simp [contains, IpNet.toPrefix, IpAddr.isIpv6, isIpv6]
  | V6 x m h =>
    cases a with
    | V4 y => simp [contains, IpNet.toPrefix, IpAddr.isIpv6, isIpv6]
    | V6 y =>
      have := (Block.ofAddr x.val m h x.isLt).size_pos
      simp only [contains, IpNet.toPrefix, IpPrefix.mem_V6, Block.mem_def, decide_eq_true_eq,
        IpAddr.isIpv6, isIpv6, network, broadcast, Prefix.broadcast, ipToU128, true_and]
      omega

theorem isIpv6_ofValue (isV6 : Bool) (x len : Nat) : (ofValue isV6 x len).isIpv6 = isV6 := by
  cases isV6 <;> rfl

theorem width_ofValue (isV6 : Bool) (x len : Nat) :
    (ofValue isV6 x len).width = if isV6 then 128 else 32 := by
  cases isV6 <;> rfl

theorem prefixLen_ofValue {isV6 : Bool} {x len : Nat} (h : len ≤ if isV6 then 128 else 32) :
    (ofValue isV6 x len).prefixLen = len := by
  cases isV6 <;> simpa [ofValue, prefixLen] using h

/-- An aligned value of the family's range is the first value of its network. -/
theorem network_ofValue {isV6 : Bool} {x len : Nat} (hx : x < 2 ^ (if isV6 then 128 else 32))
    (hlen : len ≤ if isV6 then 128 else 32) (ha : x % 2 ^ ((if isV6 then 128 else 32) - len) = 0) :
    ipToU128 (ofValue isV6 x len).network = x := by
  cases isV6 with
  | false =>
    simp only [Bool.false_eq_true, if_false] at hx hlen ha
    show (Block.ofAddr (x % 2 ^ 32) (min len 32) (Nat.min_le_right _ _)
      (Nat.mod_lt _ (Nat.two_pow_pos _))).addr = x
    rw [Block.ofAddr_addr (by rw [Nat.mod_eq_of_lt hx, Nat.min_eq_left hlen]; exact ha),
      Nat.mod_eq_of_lt hx]
  | true =>
    simp only [if_true] at hx hlen ha
    show (Block.ofAddr (x % 2 ^ 128) (min len 128) (Nat.min_le_right _ _)
      (Nat.mod_lt _ (Nat.two_pow_pos _))).addr = x
    rw [Block.ofAddr_addr (by rw [Nat.mod_eq_of_lt hx, Nat.min_eq_left hlen]; exact ha),
      Nat.mod_eq_of_lt hx]

/-- `IpNetwork::new` at a value of the family builds `ofValue`. -/
theorem new_u128ToIp {isV6 : Bool} {x len : Nat} (hlen : len ≤ if isV6 then 128 else 32) :
    IpNetwork.new (u128ToIp x isV6) len = some (ofValue isV6 x len) := by
  cases isV6 with
  | false =>
    simp only [Bool.false_eq_true, if_false] at hlen
    simp [u128ToIp, IpNetwork.new, ofValue, hlen]
  | true =>
    simp only [if_true] at hlen
    simp [u128ToIp, IpNetwork.new, ofValue, hlen]

theorem isIpv6_network (n : IpNetwork) : n.network.isIpv6 = n.isIpv6 := by
  cases n <;> rfl

theorem isIpv6_broadcast (n : IpNetwork) : n.broadcast.isIpv6 = n.isIpv6 := by
  cases n <;> rfl

theorem network_le_broadcast (n : IpNetwork) : ipToU128 n.network ≤ ipToU128 n.broadcast := by
  have := Nat.two_pow_pos (n.width - n.prefixLen)
  rw [broadcast_eq]
  omega

end IpNetwork

theorem ipToU128_u128ToIp {x : Nat} {isV6 : Bool} (hx : x < 2 ^ (if isV6 then 128 else 32)) :
    ipToU128 (u128ToIp x isV6) = x := by
  cases isV6 <;> simpa [u128ToIp, ipToU128] using Nat.mod_eq_of_lt hx

theorem isIpv6_u128ToIp (x : Nat) (isV6 : Bool) : (u128ToIp x isV6).isIpv6 = isV6 := by
  cases isV6 <;> rfl

/-! ## What the allocator is for -/

namespace Linknet

variable (P : IpNetwork) (L : Nat)

/-- The number of addresses of a `/L` linknet of `P`'s family. -/
def size : Nat := 2 ^ (P.width - L)

/-- The number of `/L` linknets of `P`. -/
def count : Nat := 2 ^ (L - P.prefixLen)

/-- The first value of the `i`-th linknet. -/
def start (i : Nat) : Nat := ipToU128 P.network + i * size P L

/-- The `i`-th `/L` linknet of `P`, by address. -/
def child (i : Nat) : IpNetwork := IpNetwork.ofValue P.isIpv6 (start P L i) L

/-- `o` holds an address of the `i`-th linknet: it is of `P`'s family and its
values reach from below the linknet's end to its start or past it. -/
def Meets (i : Nat) (o : IpNetwork) : Prop :=
  o.isIpv6 = P.isIpv6 ∧ ipToU128 o.network < start P L (i + 1) ∧ start P L i ≤ ipToU128 o.broadcast

instance (i : Nat) (o : IpNetwork) : Decidable (Meets P L i o) :=
  inferInstanceAs (Decidable (_ ∧ _ ∧ _))

/-- No network of `O` meets the `i`-th linknet. -/
def Free (O : List IpNetwork) (i : Nat) : Prop := ∀ o ∈ O, ¬ Meets P L i o

instance (O : List IpNetwork) (i : Nat) : Decidable (Free P L O i) :=
  inferInstanceAs (Decidable (∀ o ∈ O, ¬ Meets P L i o))

/-- Where the next-fit search starts: after the linknet holding the cursor's
last address, or at `0` when no linknet holds it. -/
def cursorStart : Option IpNetwork → Nat
  | none => 0
  | some c =>
    ((firstIdx (fun j => decide (c.broadcast ∈ (child P L j).toPrefix)) 0 (count P L - 1)).map
      fun j => (j + 1) % count P L).getD 0

/-- The linknet to hand out: the first free one in cyclic order from
`cursorStart`. -/
def nextFree (O : List IpNetwork) (cursor : Option IpNetwork) : Option Nat :=
  cyclicFirst (fun i => decide (Free P L O i)) (count P L) (cursorStart P L cursor)

/-! ### The linknets tile the prefix -/

variable {P L}

theorem size_pos : 0 < size P L := Nat.two_pow_pos _

theorem count_pos : 0 < count P L := Nat.two_pow_pos _

theorem start_succ (i : Nat) : start P L (i + 1) = start P L i + size P L := by
  rw [start, start, Nat.succ_mul, Nat.add_assoc]

theorem start_le_start {i j : Nat} (h : i ≤ j) : start P L i ≤ start P L j :=
  Nat.add_le_add_left (Nat.mul_le_mul_right _ h) _

theorem isIpv6_child (i : Nat) : (child P L i).isIpv6 = P.isIpv6 := IpNetwork.isIpv6_ofValue ..

theorem width_child (i : Nat) : (child P L i).width = P.width := by
  rw [child, IpNetwork.width_ofValue, IpNetwork.width_eq]

theorem prefixLen_child (hL : L ≤ P.width) (i : Nat) : (child P L i).prefixLen = L :=
  IpNetwork.prefixLen_ofValue (by rw [← IpNetwork.width_eq]; exact hL)

section Tiling

variable (hL : L ≤ P.width) (hlen : P.prefixLen ≤ L)
include hL hlen

theorem size_mul_count : size P L * count P L = 2 ^ (P.width - P.prefixLen) := by
  rw [size, count, ← Nat.pow_add]
  congr 1
  omega

/-- The last linknet ends at `P`'s last value. -/
theorem start_count : start P L (count P L) = ipToU128 P.broadcast + 1 := by
  have hsize := size_mul_count hL hlen
  have := Nat.two_pow_pos (P.width - P.prefixLen)
  rw [start, P.broadcast_eq, Nat.mul_comm, hsize]
  omega

theorem start_mod (i : Nat) : start P L i % size P L = 0 := by
  -- `P`'s first value is a multiple of `P`'s size, itself a multiple of the linknet size
  have hfirst : size P L ∣ ipToU128 P.network :=
    Nat.dvd_trans (Nat.pow_dvd_pow 2 (by omega)) (Nat.dvd_of_mod_eq_zero P.network_mod)
  exact Nat.mod_eq_zero_of_dvd (Nat.dvd_add hfirst (Nat.dvd_mul_left _ _))

theorem start_succ_le {i : Nat} (hi : i < count P L) :
    start P L (i + 1) ≤ ipToU128 P.broadcast + 1 := by
  rw [← start_count hL hlen]
  exact start_le_start hi

theorem start_lt {i : Nat} (hi : i < count P L) : start P L i < 2 ^ P.width := by
  have := start_succ_le hL hlen hi
  have := P.broadcast_lt
  rw [start_succ] at *
  have := size_pos (P := P) (L := L)
  omega

theorem network_child {i : Nat} (hi : i < count P L) :
    ipToU128 (child P L i).network = start P L i :=
  IpNetwork.network_ofValue (by rw [← IpNetwork.width_eq]; exact start_lt hL hlen hi)
    (by rw [← IpNetwork.width_eq]; exact hL) (by rw [← IpNetwork.width_eq]; exact start_mod hL hlen i)

theorem broadcast_child {i : Nat} (hi : i < count P L) :
    ipToU128 (child P L i).broadcast = start P L (i + 1) - 1 := by
  rw [IpNetwork.broadcast_eq, network_child hL hlen hi, prefixLen_child hL, width_child, start_succ]
  rfl

/-- `networks_overlap` with a linknet is `Meets`. -/
theorem networksOverlap_child {o : IpNetwork} {i : Nat} (hi : i < count P L) :
    networksOverlap o (child P L i) = true ↔ Meets P L i o := by
  have hsucc := start_succ (P := P) (L := L) i
  have hsize := size_pos (P := P) (L := L)
  have ho := o.network_le_broadcast
  simp only [networksOverlap, Bool.or_eq_true, IpNetwork.contains_iff, IpNetwork.isIpv6_network,
    isIpv6_child, network_child hL hlen hi, broadcast_child hL hlen hi, Meets]
  constructor
  · rintro (⟨hf, h1, h2⟩ | ⟨hf, h1, h2⟩)
    · exact ⟨hf.symm, by omega, h2⟩
    · exact ⟨hf, by omega, by omega⟩
  · rintro ⟨hf, h1, h2⟩
    by_cases hle : ipToU128 o.network ≤ start P L i
    · exact Or.inl ⟨hf.symm, hle, h2⟩
    · exact Or.inr ⟨hf, by omega, by omega⟩

/-- `Meets` is sharing an address. -/
theorem meets_iff_exists_mem {o : IpNetwork} {i : Nat} (hi : i < count P L) :
    Meets P L i o ↔ ∃ a, a ∈ (child P L i).toPrefix ∧ a ∈ o.toPrefix := by
  have hmem : ∀ (n : IpNetwork) (a : IpAddr), a ∈ n.toPrefix ↔ n.contains a = true :=
    fun n a => decide_eq_true_iff.symm
  have hsucc := start_succ (P := P) (L := L) i
  have hsize := size_pos (P := P) (L := L)
  have hend := start_succ_le hL hlen hi
  have hlt := P.broadcast_lt
  have ho := o.network_le_broadcast
  simp only [hmem, IpNetwork.contains_iff, isIpv6_child, network_child hL hlen hi,
    broadcast_child hL hlen hi, Meets]
  constructor
  · rintro ⟨hf, h1, h2⟩
    -- the larger of the two first values lies in both
    have hx : max (start P L i) (ipToU128 o.network) < 2 ^ P.width := by omega
    rw [IpNetwork.width_eq] at hx
    refine ⟨u128ToIp (max (start P L i) (ipToU128 o.network)) P.isIpv6, ?_, ?_⟩ <;>
      rw [isIpv6_u128ToIp, ipToU128_u128ToIp hx]
    · exact ⟨rfl, by omega, by omega⟩
    · exact ⟨hf.symm, by omega, by omega⟩
  · rintro ⟨a, ⟨hf1, h1, h2⟩, hf2, h3, h4⟩
    exact ⟨hf2.symm.trans hf1, by omega, by omega⟩

end Tiling

end Linknet

/-! ## The occupied intervals -/

/-- The clamped interval of `[os, oe]` in the linknets of `[ps, pe]` holds
linknet `i` exactly when `[os, oe]` meets the linknet's values. -/
theorem clamp_index_iff {ps pe size count i os oe : Nat} (hsize : 0 < size) (hi : i < count)
    (hpe : pe + 1 = ps + count * size) (hoe : os ≤ oe) :
    (max os ps ≤ min oe pe ∧ (max os ps - ps) / size ≤ i ∧ i ≤ (min oe pe - ps) / size) ↔
      os < ps + (i + 1) * size ∧ ps + i * size ≤ oe := by
  have hlo : (max os ps - ps) / size ≤ i ↔ max os ps - ps < (i + 1) * size := by
    rw [← Nat.lt_succ_iff, Nat.div_lt_iff_lt_mul hsize]
  have hhi : i ≤ (min oe pe - ps) / size ↔ i * size ≤ min oe pe - ps := Nat.le_div_iff_mul_le hsize
  have hcount : (i + 1) * size ≤ count * size := Nat.mul_le_mul_right _ hi
  have hsucc : (i + 1) * size = i * size + size := Nat.succ_mul i size
  rw [hlo, hhi]
  omega

theorem maxBits_eq (P : IpNetwork) : (if P.isIpv4 then 32 else 128) = P.width := by
  rw [IpNetwork.width_eq, IpNetwork.isIpv4]
  cases P.isIpv6 <;> rfl

section Occupancy

variable {P : IpNetwork} {L : Nat} (O : List IpNetwork)

/-- The intervals are sorted by their start. -/
theorem pairwise_occupiedPrefixIntervals :
    (occupiedPrefixIntervals P L O).Pairwise fun a b => a.1 ≤ b.1 := by
  unfold occupiedPrefixIntervals
  refine (List.pairwise_mergeSort (fun a b c hab hbc => ?_) (fun a b => ?_) _).imp fun {a b} h => ?_
  · simp only [decide_eq_true_eq] at *
    exact le_trans hab hbc
  · simpa using le_total (toLex a) (toLex b)
  · simp only [decide_eq_true_eq, Prod.Lex.toLex_le_toLex] at h
    rcases h with h | ⟨h, -⟩
    · exact h.le
    · exact h.le

variable (hL : L ≤ P.width) (hlen : P.prefixLen ≤ L)
include hL hlen

/-- An interval is a run of linknet indexes. -/
theorem mem_occupiedPrefixIntervals {r : Nat × Nat} (hr : r ∈ occupiedPrefixIntervals P L O) :
    r.1 ≤ r.2 ∧ r.2 < Linknet.count P L := by
  have hpe : ipToU128 P.network + Linknet.count P L * 2 ^ (P.width - L) = ipToU128 P.broadcast + 1 :=
    Linknet.start_count hL hlen
  unfold occupiedPrefixIntervals at hr
  simp only [maxBits_eq, (List.mergeSort_perm _ _).mem_iff, List.mem_filterMap, List.mem_filter] at hr
  obtain ⟨o, -, hr⟩ := hr
  split at hr
  · cases hr
    exact ⟨Nat.div_le_div_right (by omega), (Nat.div_lt_iff_lt_mul (Nat.two_pow_pos _)).2 (by omega)⟩
  · cases hr

/-- A linknet index is covered exactly when an occupied network meets the linknet. -/
theorem covered_occupiedPrefixIntervals {i : Nat} (hi : i < Linknet.count P L) :
    Covered (occupiedPrefixIntervals P L O) i ↔ ∃ o ∈ O, Linknet.Meets P L i o := by
  have hpe := Linknet.start_count hL hlen
  have hsize := Linknet.size_pos (P := P) (L := L)
  unfold occupiedPrefixIntervals
  rw [covered_of_perm (List.mergeSort_perm _ _)]
  simp only [Covered, maxBits_eq, List.mem_filterMap, List.mem_filter, beq_iff_eq]
  constructor
  · rintro ⟨r, ⟨o, ⟨ho, hfam⟩, hr⟩, h1, h2⟩
    split at hr
    · cases hr
      exact ⟨o, ho, hfam, (clamp_index_iff hsize hi hpe.symm o.network_le_broadcast).1 ⟨‹_›, h1, h2⟩⟩
    · cases hr
  · rintro ⟨o, ho, hfam, h1, h2⟩
    obtain ⟨hle, hlo, hhi⟩ :=
      (clamp_index_iff hsize hi hpe.symm o.network_le_broadcast).2 ⟨h1, h2⟩
    exact ⟨_, ⟨o, ⟨ho, hfam⟩, if_pos hle⟩, hlo, hhi⟩

/-- An index is covered exactly when its linknet is not free. -/
theorem covered_iff_not_free {i : Nat} (hi : i < Linknet.count P L) :
    Covered (occupiedPrefixIntervals P L O) i ↔ ¬ Linknet.Free P L O i := by
  rw [covered_occupiedPrefixIntervals O hL hlen hi]
  simp only [Linknet.Free, not_forall, not_not, exists_prop]

end Occupancy

/-! ## The scan -/

/-- Over intervals sorted by start, the loop returns the first index from the
candidate to `rangeEnd` that no interval covers: below `u128::MAX` the
saturating step is an exact one. -/
theorem firstUnoccupiedScan_eq {rangeEnd : Nat} (hend : rangeEnd < 2 ^ 128 - 1)
    {I : List (Nat × Nat)} (hI : I.Pairwise fun a b => a.1 ≤ b.1) {candidate : Nat}
    (hc : candidate ≤ rangeEnd) :
    firstUnoccupiedScan rangeEnd I candidate =
      firstIdx (fun i => !decide (Covered I i)) candidate rangeEnd := by
  induction I generalizing candidate with
  | nil =>
    rw [firstUnoccupiedScan, firstIdx_cons hc]
    simp
  | cons r rest ih =>
    obtain ⟨s, e⟩ := r
    have hrest := hI.of_cons
    have hstart : ∀ r ∈ rest, s ≤ r.1 := fun r hr => List.rel_of_pairwise_cons hI hr
    -- past the first interval, only `rest` covers
    have hpast : ∀ j, e < j → (Covered ((s, e) :: rest) j ↔ Covered rest j) := fun j hj => by
      rw [covered_cons, or_iff_right_iff_imp]
      exact fun h => absurd h.2 (by omega)
    simp only [firstUnoccupiedScan]
    split_ifs with h1 h2 h3
    · -- the interval ends before the candidate
      rw [ih hrest hc]
      exact firstIdx_congr fun j hj _ => by simp only [hpast j (by omega)]
    · -- it starts after the candidate, which nothing covers
      rw [firstIdx_cons hc, if_pos]
      simp only [Bool.not_eq_true', decide_eq_false_iff_not, covered_cons, not_or]
      refine ⟨by omega, ?_⟩
      rintro ⟨r, hr, h, -⟩
      have := hstart r hr
      omega
    · -- the interval reaches past the range
      refine (firstIdx_eq_none fun j hj hj' => ?_).symm
      have : rangeEnd ≤ e := by unfold saturatingAdd at h3; omega
      simp only [Bool.not_eq_false', decide_eq_true_eq, covered_cons]
      exact Or.inl ⟨by omega, by omega⟩
    · -- the candidate moves past the interval
      have hsat : saturatingAdd e 1 = e + 1 := by unfold saturatingAdd at h3 ⊢; omega
      rw [hsat] at h3 ⊢
      have hskip : firstIdx (fun i => !decide (Covered ((s, e) :: rest) i)) candidate rangeEnd =
          firstIdx (fun i => !decide (Covered ((s, e) :: rest) i)) (e + 1) rangeEnd :=
        firstIdx_skip (by omega) fun j hj hj' => by
          simp only [Bool.not_eq_false', decide_eq_true_eq, covered_cons]
          exact Or.inl ⟨by omega, by omega⟩
      rw [ih hrest (by omega), hskip]
      exact firstIdx_congr fun j hj _ => by simp only [hpast j (by omega)]

theorem firstUnoccupiedIndex_eq {I : List (Nat × Nat)} (hI : I.Pairwise fun a b => a.1 ≤ b.1)
    {rangeStart rangeEnd : Nat} (hend : rangeEnd < 2 ^ 128 - 1) :
    firstUnoccupiedIndex I rangeStart rangeEnd =
      firstIdx (fun i => !decide (Covered I i)) rangeStart rangeEnd := by
  unfold firstUnoccupiedIndex
  split
  · exact (firstIdx_of_lt ‹_›).symm
  · exact firstUnoccupiedScan_eq hend hI (by omega)

theorem checkedSub_one_bind {α : Type} (s : Nat) (f : Nat → Option α) :
    (checkedSub s 1).bind f = if s = 0 then none else f (s - 1) := by
  unfold checkedSub
  by_cases hs : s = 0
  · subst hs
    rfl
  · rw [if_pos (by omega), if_neg hs]
    rfl

/-! ## The cursor -/

section Cursor

variable {P : IpNetwork} {L : Nat} (hL : L ≤ P.width) (hlen : P.prefixLen ≤ L)
include hL hlen

/-- The cursor's last address lies in the `j`-th linknet exactly when it is of
`P`'s family and its value lies between the linknet's ends. -/
theorem broadcast_mem_child {c : IpNetwork} {j : Nat} (hj : j < Linknet.count P L) :
    c.broadcast ∈ (Linknet.child P L j).toPrefix ↔
      c.isIpv6 = P.isIpv6 ∧ Linknet.start P L j ≤ ipToU128 c.broadcast ∧
        ipToU128 c.broadcast < Linknet.start P L (j + 1) := by
  have hsize := Linknet.size_pos (P := P) (L := L)
  have hsucc := Linknet.start_succ (P := P) (L := L) j
  have hmem := @IpNetwork.contains_iff (Linknet.child P L j) c.broadcast
  simp only [IpNetwork.contains, decide_eq_true_eq, IpNetwork.isIpv6_broadcast, Linknet.isIpv6_child,
    Linknet.network_child hL hlen hj, Linknet.broadcast_child hL hlen hj] at hmem
  rw [hmem]
  constructor
  · rintro ⟨h1, h2, h3⟩
    exact ⟨h1, h2, by omega⟩
  · rintro ⟨h1, h2, h3⟩
    exact ⟨h1, h2, by omega⟩

/-- The source's cursor arithmetic finds the linknet holding the cursor's last
address. -/
theorem startIndex_eq (cursor : Option IpNetwork) :
    startIndex cursor P.isIpv6 (ipToU128 P.network) (ipToU128 P.broadcast) (Linknet.size P L)
      (Linknet.count P L) = Linknet.cursorStart P L cursor := by
  cases cursor with
  | none => rfl
  | some c =>
    have hpe := Linknet.start_count hL hlen
    have hsize := Linknet.size_pos (P := P) (L := L)
    have hzero : Linknet.start P L 0 = ipToU128 P.network := by simp [Linknet.start]
    have hpos := Linknet.count_pos (P := P) (L := L)
    simp only [startIndex, Linknet.cursorStart, Option.filter_some, beq_iff_eq]
    by_cases hin : c.isIpv6 = P.isIpv6 ∧ ipToU128 P.network ≤ ipToU128 c.broadcast ∧
        ipToU128 c.broadcast ≤ ipToU128 P.broadcast
    · -- the linknet holding the last address is the quotient `q` of its offset
      obtain ⟨hf, h1, h2⟩ := hin
      obtain ⟨q, hq⟩ : ∃ q, q = (ipToU128 c.broadcast - ipToU128 P.network) / Linknet.size P L :=
        ⟨_, rfl⟩
      have hcount : Linknet.start P L (Linknet.count P L) =
          ipToU128 P.network + Linknet.count P L * Linknet.size P L := rfl
      have hj : q < Linknet.count P L := hq ▸ (Nat.div_lt_iff_lt_mul hsize).2 (by omega)
      have hlo : q * Linknet.size P L ≤ ipToU128 c.broadcast - ipToU128 P.network :=
        hq ▸ Nat.div_mul_le_self _ _
      have hhi : ipToU128 c.broadcast - ipToU128 P.network < q * Linknet.size P L + Linknet.size P L := by
        have := Nat.lt_mul_div_succ (ipToU128 c.broadcast - ipToU128 P.network) hsize
        rw [← hq, Nat.mul_succ, Nat.mul_comm] at this
        exact this
      have hqstart : Linknet.start P L q ≤ ipToU128 c.broadcast := by
        unfold Linknet.start
        omega
      rw [firstIdx_eq_some (i := q) (Nat.zero_le _) (by omega) ?_ fun k _ hk => ?_]
      · simp [hf, h1, h2, hq]
      · rw [decide_eq_true_iff, broadcast_mem_child hL hlen hj, Linknet.start_succ]
        refine ⟨hf, hqstart, ?_⟩
        unfold Linknet.start
        omega
      · rw [decide_eq_false_iff_not, broadcast_mem_child hL hlen (by omega)]
        have := Linknet.start_le_start (P := P) (L := L) (show k + 1 ≤ q by omega)
        rintro ⟨-, -, h⟩
        omega
    · -- no linknet holds it
      rw [firstIdx_eq_none fun j _ hj => ?_]
      · by_cases hf : c.isIpv6 = P.isIpv6
        · simp only [hf, if_true, Option.bind_some]
          rw [if_neg fun h => hin ⟨hf, h⟩]
          rfl
        · simp [hf]
      · rw [decide_eq_false_iff_not, broadcast_mem_child hL hlen (by omega)]
        rintro ⟨hf, h1, h2⟩
        have h0 := Linknet.start_le_start (P := P) (L := L) (Nat.zero_le j)
        have hend := Linknet.start_succ_le hL hlen (show j < Linknet.count P L by omega)
        exact hin ⟨hf, by omega, by omega⟩

end Cursor

theorem cursorStart_lt {P : IpNetwork} {L : Nat} (cursor : Option IpNetwork) : Linknet.cursorStart P L cursor < Linknet.count P L := by
  have hcount := Linknet.count_pos (P := P) (L := L)
  cases cursor with
  | none => exact hcount
  | some c =>
    simp only [Linknet.cursorStart]
    cases firstIdx (fun j => decide (c.broadcast ∈ (Linknet.child P L j).toPrefix)) 0 (Linknet.count P L - 1) with
    | none => exact hcount
    | some j => exact Nat.mod_lt _ hcount

/-! ## Allocation -/

theorem PrefixAllocator.new_eq_ok {vpcPrefixId : VpcPrefixId} {P : IpNetwork}
    {cursor : Option IpNetwork} {L : Nat} {a : PrefixAllocator}
    (h : PrefixAllocator.new vpcPrefixId P cursor L = .ok a) :
    a = ⟨vpcPrefixId, P, cursor, L⟩ ∧ L ≤ P.width ∧
      (P.prefixLen < L ∨ P.isIpv4 = true ∧ P.prefixLen = 31 ∧ L = 31) := by
  dsimp only [PrefixAllocator.new] at h
  split at h
  · cases h
  · rename_i hmax
    split at h
    · cases h
    · rename_i hshort
      cases h
      refine ⟨rfl, Nat.le_of_not_lt hmax, ?_⟩
      by_cases hle : L ≤ P.prefixLen
      · have hsingle : (P.isIpv4 && P.prefixLen == 31 && L == 31) = true := by
          by_contra hne
          exact hshort ⟨hle, by simpa using hne⟩
        simp only [Bool.and_eq_true, beq_iff_eq] at hsingle
        exact Or.inr ⟨hsingle.1.1, hsingle.1.2, hsingle.2⟩
      · exact Or.inl (by omega)

/-- The two searches of `next_free_prefix`, from the cursor to the last linknet
and then from the first linknet up to the cursor, are the cyclic first fit over
the free linknets. -/
theorem freeIndex_eq {P : IpNetwork} {L : Nat} (hL : L ≤ P.width) (hlen : P.prefixLen ≤ L)
    (hfit : L - P.prefixLen < 128) (O : List IpNetwork) (cursor : Option IpNetwork) :
    (firstUnoccupiedIndex (occupiedPrefixIntervals P L O) (Linknet.cursorStart P L cursor)
        (Linknet.count P L - 1)).or
      ((checkedSub (Linknet.cursorStart P L cursor) 1).bind fun rangeEnd =>
        firstUnoccupiedIndex (occupiedPrefixIntervals P L O) 0 rangeEnd) =
      Linknet.nextFree P L O cursor := by
  have hsorted := pairwise_occupiedPrefixIntervals (P := P) (L := L) O
  have hstart := cursorStart_lt (P := P) (L := L) cursor
  have hcount : Linknet.count P L ≤ 2 ^ 127 := Nat.pow_le_pow_right (by decide) (by omega)
  have hbound : (2 : Nat) ^ 127 < 2 ^ 128 - 1 := by decide
  -- on the linknet indexes, the scan's test is `Free`
  have hpred : ∀ lo hi, hi < Linknet.count P L →
      firstIdx (fun i => !decide (Covered (occupiedPrefixIntervals P L O) i)) lo hi =
        firstIdx (fun i => decide (Linknet.Free P L O i)) lo hi := fun lo hi hhi =>
    firstIdx_congr fun i _ hi => by simp [covered_iff_not_free O hL hlen (show i < Linknet.count P L by omega)]
  rw [Linknet.nextFree, cyclicFirst_eq hstart, checkedSub_one_bind,
    firstUnoccupiedIndex_eq hsorted (by omega), hpred _ _ (by omega)]
  split
  · rfl
  · rw [firstUnoccupiedIndex_eq hsorted (by omega), hpred _ _ (by omega)]

/-- `next_free_prefix` hands out the first free linknet in cyclic order from the
one after the cursor's, and reports `ResourceExhausted` when none is free, for
every allocator `new` builds whose linknets number fewer than `2 ^ 128`. -/
theorem nextFreePrefix_eq {vpcPrefixId : VpcPrefixId} {P : IpNetwork} {cursor : Option IpNetwork}
    {L : Nat} {a : PrefixAllocator} (h : PrefixAllocator.new vpcPrefixId P cursor L = .ok a)
    (hfit : L - P.prefixLen < 128) (O : List IpNetwork) :
    a.nextFreePrefix O = match Linknet.nextFree P L O cursor with
      | some i => .ok (Linknet.child P L i)
      | none => .error (.resourceExhausted (.noAvailable vpcPrefixId P L)) := by
  obtain ⟨rfl, hL, hshort⟩ := PrefixAllocator.new_eq_ok h
  have hlen : P.prefixLen ≤ L := by omega
  have hw : P.width ≤ 128 := by
    rw [IpNetwork.width_eq]
    split <;> omega
  have hshl1 : checkedShl (L - P.prefixLen) = some (Linknet.count P L) := if_pos hfit
  have hshl2 : checkedShl (P.addressFamily.interfacePrefixLen - L) = some (Linknet.size P L) :=
    if_pos (show P.width - L < 128 by omega)
  simp only [PrefixAllocator.nextFreePrefix, hshl1, hshl2, startIndex_eq hL hlen,
    freeIndex_eq hL hlen hfit]
  cases hfree : Linknet.nextFree P L O cursor with
  | none => rfl
  | some i =>
    have hi := cyclicFirst_lt hfree
    -- the offset and the address of the linknet fit in `u128`
    have hpow : 2 ^ P.width ≤ 2 ^ 128 := Nat.pow_le_pow_right (by decide) hw
    have hmul : checkedMul i (Linknet.size P L) = some (i * Linknet.size P L) := by
      have := Linknet.start_lt hL hlen hi
      have := Linknet.start_succ_le hL hlen hi
      have := P.broadcast_lt
      rw [Linknet.start_succ, Linknet.start] at *
      exact if_pos (by omega)
    have hadd : checkedAdd (ipToU128 P.network) (i * Linknet.size P L) = some (Linknet.start P L i) :=
      if_pos (by have := Linknet.start_lt hL hlen hi; unfold Linknet.start at this; omega)
    have hnew : IpNetwork.new (u128ToIp (Linknet.start P L i) P.isIpv6) L = some (Linknet.child P L i) :=
      IpNetwork.new_u128ToIp (by rw [← IpNetwork.width_eq]; exact hL)
    simp only [hmul, Option.bind_some, hadd, hnew]
    rfl

theorem validateDesiredPrefix_child {vpcPrefixId : VpcPrefixId} {P : IpNetwork}
    {cursor : Option IpNetwork} {L : Nat} {a : PrefixAllocator}
    (h : PrefixAllocator.new vpcPrefixId P cursor L = .ok a) (O : List IpNetwork) {i : Nat}
    (hi : i < Linknet.count P L) :
    a.validateDesiredPrefix O (Linknet.child P L i) = .ok () ↔ Linknet.Free P L O i := by
  obtain ⟨rfl, hL, hshort⟩ := PrefixAllocator.new_eq_ok h
  have hlen : P.prefixLen ≤ L := by omega
  -- the linknet lies in `P`
  have hin : P.contains (Linknet.child P L i).network = true := by
    have hend := Linknet.start_succ_le hL hlen hi
    have hsize := Linknet.size_pos (P := P) (L := L)
    rw [Linknet.start_succ] at hend
    rw [IpNetwork.contains_iff, IpNetwork.isIpv6_network, Linknet.isIpv6_child,
      Linknet.network_child hL hlen hi]
    exact ⟨rfl, by simp [Linknet.start], by omega⟩
  simp only [PrefixAllocator.validateDesiredPrefix, hin, Bool.not_true, Bool.false_eq_true, if_false]
  by_cases hany : (O.any fun used => networksOverlap used (Linknet.child P L i)) = true
  · rw [if_pos hany]
    obtain ⟨o, ho, hov⟩ := List.any_eq_true.1 hany
    exact iff_of_false (fun h => by cases h)
      fun hfree => hfree o ho ((Linknet.networksOverlap_child hL hlen hi).1 hov)
  · rw [if_neg hany]
    exact iff_of_true rfl fun o ho hm =>
      hany (List.any_eq_true.2 ⟨o, ho, (Linknet.networksOverlap_child hL hlen hi).2 hm⟩)

/-! ## Counting -/

/-- The loop of `occupied_prefix_count` counts the union of runs sorted by
start: from `A.card` for a set `A` below the open run `[cs, ce]`, it ends at the
size of `A`, the open run and the runs still to come. -/
theorem countRuns_eq {I : List (Nat × Nat)} (hI : I.Pairwise fun a b => a.1 ≤ b.1)
    (hle : ∀ r ∈ I, r.1 ≤ r.2 ∧ r.2 < 2 ^ 128 - 1) {A : Finset Nat} {cs ce : Nat}
    (hA : ∀ x ∈ A, x < cs) (hc : cs ≤ ce) (hce : ce < 2 ^ 128 - 1) (hstart : ∀ r ∈ I, cs ≤ r.1) :
    countRuns I A.card cs ce = (A ∪ Finset.Icc cs ce ∪ cover I).card := by
  induction I generalizing A cs ce with
  | nil =>
    rw [countRuns, cover_nil, Finset.union_empty, card_union_Icc hA]
    omega
  | cons r rest ih =>
    obtain ⟨s, e⟩ := r
    have hrest := hI.of_cons
    have hse := hle (s, e) List.mem_cons_self
    have hs : cs ≤ s := hstart _ List.mem_cons_self
    have hafter : ∀ r ∈ rest, s ≤ r.1 := fun r hr => List.rel_of_pairwise_cons hI hr
    have hle' : ∀ r ∈ rest, r.1 ≤ r.2 ∧ r.2 < 2 ^ 128 - 1 := fun r hr => hle r (List.mem_cons_of_mem _ hr)
    have hsat : saturatingAdd ce 1 = ce + 1 := by
      unfold saturatingAdd
      omega
    rw [countRuns, hsat, cover_cons]
    split
    · -- `[s, e]` joins the open run
      rename_i hjoin
      rw [ih hrest hle' hA (by omega) (by omega) fun r hr => le_trans hs (hafter r hr),
        ← Icc_union_Icc_of_le hs hjoin]
      simp only [Finset.union_assoc]
    · -- the open run closes and `[s, e]` opens
      rename_i hgap
      have hcard : A.card + (ce - cs + 1) = (A ∪ Finset.Icc cs ce).card := by
        rw [card_union_Icc hA]
        omega
      have hbelow : ∀ x ∈ A ∪ Finset.Icc cs ce, x < s := fun x hx => by
        rcases Finset.mem_union.1 hx with hx | hx
        · have := hA x hx
          omega
        · have := (Finset.mem_Icc.1 hx).2
          omega
      rw [hcard, ih hrest hle' hbelow hse.1 hse.2 hafter]
      simp only [Finset.union_assoc]

section Counting

variable {P : IpNetwork} {L : Nat} (hL : L ≤ P.width) (hlen : P.prefixLen ≤ L)
  (hfit : L - P.prefixLen < 128) (O : List IpNetwork)
include hL hlen hfit

/-- `occupied_prefix_count` is the number of linknets that are not free. -/
theorem occupiedPrefixCount_eq :
    occupiedPrefixCount P L O =
      ((Finset.range (Linknet.count P L)).filter fun i => ¬ Linknet.Free P L O i).card := by
  have hcount : Linknet.count P L ≤ 2 ^ 127 := Nat.pow_le_pow_right (by decide) (by omega)
  have hbound : (2 : Nat) ^ 127 < 2 ^ 128 - 1 := by decide
  have hmem := fun r (hr : r ∈ occupiedPrefixIntervals P L O) =>
    mem_occupiedPrefixIntervals O hL hlen hr
  -- the union of the intervals is the set of linknets that are not free
  have hcover : cover (occupiedPrefixIntervals P L O) =
      (Finset.range (Linknet.count P L)).filter fun i => ¬ Linknet.Free P L O i := by
    ext i
    rw [mem_cover, Finset.mem_filter, Finset.mem_range]
    constructor
    · intro hcov
      obtain ⟨r, hr, -, hir⟩ := id hcov
      have hi : i < Linknet.count P L := by
        have := hmem r hr
        omega
      exact ⟨hi, (covered_iff_not_free O hL hlen hi).1 hcov⟩
    · rintro ⟨hi, hfree⟩
      exact (covered_iff_not_free O hL hlen hi).2 hfree
  rw [← hcover]
  unfold occupiedPrefixCount
  split
  · rename_i hnil
    rw [hnil]
    rfl
  · rename_i firstStart firstEnd rest hcons
    have hsorted := pairwise_occupiedPrefixIntervals (P := P) (L := L) O
    rw [hcons] at hsorted hmem
    have hfirst := hmem _ List.mem_cons_self
    have := countRuns_eq hsorted.of_cons
      (fun r hr => by have := hmem r (List.mem_cons_of_mem _ hr); omega)
      (A := ∅) (by simp) hfirst.1 (by omega) fun r hr => List.rel_of_pairwise_cons hsorted hr
    rw [Finset.card_empty, Finset.empty_union] at this
    rw [this, hcons, cover_cons]

end Counting

/-- `update_stats` reports the number of free `/31` (`/127`) linknets, capped at
`u64::MAX`, for every VPC prefix whose linknet length `new` accepts. -/
theorem updateStats_available {vpcPrefixId : VpcPrefixId} {P : IpNetwork}
    {cursor : Option IpNetwork} {a : PrefixAllocator}
    (h : PrefixAllocator.new vpcPrefixId P cursor (if P.isIpv4 then 31 else 127) = .ok a)
    (O : List IpNetwork) (status : VpcPrefixStatus) :
    (updateStats P O status).availableLinknetSegments =
      u64Saturate ((Finset.range (Linknet.count P (if P.isIpv4 then 31 else 127))).filter
        fun i => Linknet.Free P (if P.isIpv4 then 31 else 127) O i).card := by
  obtain ⟨-, hL, hshort⟩ := PrefixAllocator.new_eq_ok h
  have hlen : P.prefixLen ≤ if P.isIpv4 then 31 else 127 := by omega
  have hfit : (if P.isIpv4 then 31 else 127) - P.prefixLen < 128 := by split <;> omega
  -- the source's total is the number of linknets
  have htotal : (if (if P.isIpv4 then 31 else 127) > P.prefixLen ∨
        (P.isIpv4 && P.prefixLen == (if P.isIpv4 then 31 else 127)) = true then
        2 ^ ((if P.isIpv4 then 31 else 127) - P.prefixLen) else 0) =
      Linknet.count P (if P.isIpv4 then 31 else 127) := by
    rw [if_pos]
    · rfl
    · rcases hshort with hlt | ⟨h4, h31, hL31⟩
      · exact Or.inl hlt
      · exact Or.inr (by simp [h4, h31])
  have hsplit := Finset.card_filter_add_card_filter_not
    (s := Finset.range (Linknet.count P (if P.isIpv4 then 31 else 127)))
    fun i => Linknet.Free P (if P.isIpv4 then 31 else 127) O i
  rw [Finset.card_range] at hsplit
  simp only [updateStats, htotal, occupiedPrefixCount_eq hL hlen hfit O]
  congr 1
  omega

theorem Linknet.nextFree_eq_none_iff {P : IpNetwork} {L : Nat} {O : List IpNetwork}
    {cursor : Option IpNetwork} :
    Linknet.nextFree P L O cursor = none ↔ ∀ i < Linknet.count P L, ¬ Linknet.Free P L O i := by
  rw [Linknet.nextFree, cyclicFirst_eq_none_iff (cursorStart_lt cursor)]
  simp only [decide_eq_false_iff_not]

/-- The linknet allocator of a VPC prefix is exact next fit: for every allocator
`new` accepts whose linknets number fewer than `2 ^ 128`, every cursor and every
list of occupied networks, `next_free_prefix` hands out the first free linknet
in cyclic order from the one after the cursor's, and `ResourceExhausted` exactly
when none is free; `validate_desired_prefix` accepts a linknet exactly when it
is free; `occupied_prefix_count` counts the linknets that are not free; and at
the `/31` (`/127`) length, `update_stats` reports no available linknet exactly
when none is free. -/
theorem linknet_allocation_next_fit {vpcPrefixId : VpcPrefixId} {P : IpNetwork}
    {cursor : Option IpNetwork} {L : Nat} {a : PrefixAllocator}
    (h : PrefixAllocator.new vpcPrefixId P cursor L = .ok a) (hfit : L - P.prefixLen < 128)
    (O : List IpNetwork) :
    (a.nextFreePrefix O = match Linknet.nextFree P L O cursor with
      | some i => .ok (Linknet.child P L i)
      | none => .error (.resourceExhausted (.noAvailable vpcPrefixId P L))) ∧
    (a.nextFreePrefix O = .error (.resourceExhausted (.noAvailable vpcPrefixId P L)) ↔
      ∀ i < Linknet.count P L, ¬ Linknet.Free P L O i) ∧
    (∀ i < Linknet.count P L,
      a.validateDesiredPrefix O (Linknet.child P L i) = .ok () ↔ Linknet.Free P L O i) ∧
    occupiedPrefixCount P L O =
      ((Finset.range (Linknet.count P L)).filter fun i => ¬ Linknet.Free P L O i).card ∧
    (L = (if P.isIpv4 then 31 else 127) → ∀ status : VpcPrefixStatus,
      ((updateStats P O status).availableLinknetSegments = 0 ↔
        ∀ i < Linknet.count P L, ¬ Linknet.Free P L O i)) := by
  obtain ⟨-, hL, hshort⟩ := PrefixAllocator.new_eq_ok h
  have hlen : P.prefixLen ≤ L := by omega
  have hnext := nextFreePrefix_eq h hfit O
  refine ⟨hnext, ?_, fun i hi => validateDesiredPrefix_child h O hi,
    occupiedPrefixCount_eq hL hlen hfit O, ?_⟩
  · -- exhaustion is a search that finds nothing
    rw [hnext, ← Linknet.nextFree_eq_none_iff]
    cases Linknet.nextFree P L O cursor with
    | none => exact iff_of_true rfl rfl
    | some i => exact iff_of_false (fun h => by cases h) (fun h => by cases h)
  · rintro rfl status
    rw [updateStats_available h O status, u64Saturate, Nat.min_eq_zero_iff, Finset.card_eq_zero,
      Finset.filter_eq_empty_iff]
    simp only [Finset.mem_range]
    constructor
    · rintro (h0 | h0)
      · exact h0
      · exact absurd h0 (by decide)
    · exact Or.inl

theorem linknet_allocation_next_fit_net30 :
    PrefixAllocator.new ⟨0⟩ (.V4 ⟨167772160, by decide⟩ 30 (by decide)) none 31 =
      .ok ⟨⟨0⟩, .V4 ⟨167772160, by decide⟩ 30 (by decide), none, 31⟩ ∧
    31 - IpNetwork.prefixLen (.V4 ⟨167772160, by decide⟩ 30 (by decide)) < 128 ∧
    ((PrefixAllocator.nextFreePrefix ⟨⟨0⟩, .V4 ⟨167772160, by decide⟩ 30 (by decide), none, 31⟩ [] =
      match Linknet.nextFree (.V4 ⟨167772160, by decide⟩ 30 (by decide)) 31 [] none with
      | some i => .ok (Linknet.child (.V4 ⟨167772160, by decide⟩ 30 (by decide)) 31 i)
      | none => .error (.resourceExhausted
          (.noAvailable ⟨0⟩ (.V4 ⟨167772160, by decide⟩ 30 (by decide)) 31))) ∧
    (PrefixAllocator.nextFreePrefix ⟨⟨0⟩, .V4 ⟨167772160, by decide⟩ 30 (by decide), none, 31⟩ [] =
        .error (.resourceExhausted (.noAvailable ⟨0⟩ (.V4 ⟨167772160, by decide⟩ 30 (by decide)) 31)) ↔
      ∀ i < Linknet.count (.V4 ⟨167772160, by decide⟩ 30 (by decide)) 31,
        ¬ Linknet.Free (.V4 ⟨167772160, by decide⟩ 30 (by decide)) 31 [] i) ∧
    (∀ i < Linknet.count (.V4 ⟨167772160, by decide⟩ 30 (by decide)) 31,
      PrefixAllocator.validateDesiredPrefix ⟨⟨0⟩, .V4 ⟨167772160, by decide⟩ 30 (by decide), none, 31⟩ []
          (Linknet.child (.V4 ⟨167772160, by decide⟩ 30 (by decide)) 31 i) = .ok () ↔
        Linknet.Free (.V4 ⟨167772160, by decide⟩ 30 (by decide)) 31 [] i) ∧
    occupiedPrefixCount (.V4 ⟨167772160, by decide⟩ 30 (by decide)) 31 [] =
      ((Finset.range (Linknet.count (.V4 ⟨167772160, by decide⟩ 30 (by decide)) 31)).filter
        fun i => ¬ Linknet.Free (.V4 ⟨167772160, by decide⟩ 30 (by decide)) 31 [] i).card ∧
    (31 = (if IpNetwork.isIpv4 (.V4 ⟨167772160, by decide⟩ 30 (by decide)) then 31 else 127) →
      ∀ status : VpcPrefixStatus,
        ((updateStats (.V4 ⟨167772160, by decide⟩ 30 (by decide)) [] status).availableLinknetSegments = 0 ↔
          ∀ i < Linknet.count (.V4 ⟨167772160, by decide⟩ 30 (by decide)) 31,
            ¬ Linknet.Free (.V4 ⟨167772160, by decide⟩ 30 (by decide)) 31 [] i))) :=
  ⟨rfl, by decide, @linknet_allocation_next_fit ⟨0⟩ (.V4 ⟨167772160, by decide⟩ 30 (by decide)) none 31
    ⟨⟨0⟩, .V4 ⟨167772160, by decide⟩ 30 (by decide), none, 31⟩ rfl (by decide) []⟩

/-- An IPv6 `/0` has `2 ^ 128` linknets of length `/128`, which a `u128` cannot
count: `new` accepts the length and `next_free_prefix` fails with an internal
error although every linknet is free. -/
theorem nextFreePrefix_ipv6_root_unrepresentable :
    PrefixAllocator.new ⟨0⟩ (.V6 ⟨0, by decide⟩ 0 (by decide)) none 128 =
      .ok ⟨⟨0⟩, .V6 ⟨0, by decide⟩ 0 (by decide), none, 128⟩ ∧
    PrefixAllocator.nextFreePrefix ⟨⟨0⟩, .V6 ⟨0, by decide⟩ 0 (by decide), none, 128⟩ [] =
      .error (.internal (.countUnrepresentable 128 (.V6 ⟨0, by decide⟩ 0 (by decide)))) :=
  ⟨rfl, rfl⟩

end Carbide.Segment

import Carbide.Lib.SubBlock

/-!
# Host-address allocation in a network segment

`IpAllocator` (api-db/src/ip_allocator.rs) yields, for each prefix of a
segment in turn, the next free network of the requested length. For a prefix
`P` it builds the list of taken networks (`build_allocated_networks`: the
gateway, the first `num_reserved` addresses, the network and broadcast
addresses of a prefix shorter than `/31` or `/127`, and every used network
whose base lies in `P`), collapses it (`collapse_allocated_networks`) and scans
the aligned candidates of `P` from its base upwards
(`next_available_prefix`). The used networks come from a resolver: the admin
resolver of machine interfaces returns every used address and every busy
(SVI) address as a host network; the overlay resolver of instances returns the
`prefix` column of `instance_addresses` and drops its busy addresses.

A family's networks are `Block w` (`w = 32` or `128`); networks of the other
family never pass the containment filters, so one family is allocated at a
time. Candidate steps run in `u128`, whose overflow panics (the release
profile keeps overflow checks); a panic is `none`.

Results:
* `nextAvailablePrefix_eq`: the scan returns the first candidate, in address
  order, that overlaps no taken network; by `nextAvailablePrefix_lowest` and
  `nextAvailablePrefix_exhausted` that is the lowest free block, and the scan
  finds none exactly when none is free.
* `collapse_covers`: collapsing keeps the covered addresses when no two taken
  networks of different lengths share a base address.
* `allocateIn_admin_iff`: with the admin resolver the allocator yields exactly
  the lowest aligned subnet of the requested length that avoids every reserved,
  used and busy address, and reports exhaustion exactly when there is none.
* `allocation_hands_out_taken_address`: with the overlay resolver the SVI
  address is handed out; a used network whose base is also a reserved address
  is dropped by the collapse and its other addresses are handed out; and an
  exhausted IPv6 prefix at the top of the address space panics.
-/
namespace Carbide.Db

open Carbide.Lib

variable {w : Nat}

/-! ## The allocator (api-db/src/ip_allocator.rs) -/

/-- The allocator's `Prefix`; `network` is its `prefix` field. The id is left
out: results are reported per prefix, in order. -/
structure Prefix (w : Nat) where
  network : Block w
  gateway : Option Nat
  numReserved : Nat
  deriving DecidableEq

inductive AddressSelectionStrategy
  | NextAvailableIp
  | Automatic
  | NextAvailablePrefix (len : Nat)
  | StaticAddress (addr : Nat)
  deriving DecidableEq, Repr

/-- The allocator's errors, with the data their messages carry. -/
inductive AllocError
  /-- "requested prefix length ({}) must be greater than the network segment
  prefix length ({})" -/
  | PrefixLengthTooShort (requested segment : Nat)
  /-- "StaticAddress cannot be allocated by the DHCP allocator" -/
  | StaticAddress
  /-- "failed to get next available for prefix: {} (err: {})" -/
  | NextAvailableFailed (addr len : Nat) (err : AllocError)
  /-- `DhcpError::PrefixExhausted(prefix.ip())` -/
  | PrefixExhausted (ip : Nat)
  /-- "Prefix {} does not have 3 valid IPs." -/
  | TooFewAddresses
  deriving DecidableEq, Repr

/-- The first `n` addresses of `p` as host networks: `prefix.iter().take(n)`. -/
def firstAddresses (p : Block w) (n : Nat) : List (Block w) :=
  (List.range (min n p.size)).attach.map fun i =>
    Block.single (p.addr + i.1) (by
      have := List.mem_range.1 i.2
      have := p.addr_add_size_le
      omega)

/-- The gateway, when it lies in the prefix. -/
def gatewayNetworks (p : Block w) : Option Nat → List (Block w)
  | some g => if h : g ∈ p then [Block.single g (Block.lt_of_mem h)] else []
  | none => []

/-- The network and broadcast addresses of an IPv4 prefix shorter than /31 or
an IPv6 prefix shorter than /127. -/
def networkBroadcast (p : Block w) : List (Block w) :=
  if p.len < w - 1 then [Block.single p.addr p.addr_lt, p.last] else []

/-- mirrors api-db/src/ip_allocator.rs:311-369 -/
def buildAllocatedNetworks (segmentPrefix : Prefix w) (usedIps : List (Block w)) :
    List (Block w) :=
  let p := segmentPrefix.network
  gatewayNetworks p segmentPrefix.gateway ++ firstAddresses p segmentPrefix.numReserved ++
    networkBroadcast p ++ usedIps.filter fun allocated => decide (allocated.addr ∈ p)

/-- One step of the collapse's fold over the `BTreeSet`: `n` goes in unless a
network already in holds its base address. -/
def collapseStep (set : List (Block w)) (n : Block w) : List (Block w) :=
  if set.any fun e => decide (n.addr ∈ e) then set else set.orderedInsert (· ≤ ·) n

/-- The networks are sorted longest prefix first (a stable sort), and each is
kept unless a network kept before it holds its base address. Insertion sort
is stable, as `sort_by` is, so it gives the same order.
mirrors api-db/src/ip_allocator.rs:383-408 -/
def collapseAllocatedNetworks (inputNetworks : List (Block w)) : List (Block w) :=
  (inputNetworks.insertionSort fun a b => b.len ≤ a.len).foldl collapseStep []

/-- mirrors api-db/src/ip_allocator.rs:188-191 -/
def getAllocated (usedIps : List (Block w)) (segmentPrefix : Prefix w) : List (Block w) :=
  collapseAllocatedNetworks (buildAllocatedNetworks segmentPrefix usedIps)

structure NetworkDetails where
  baseIp : Nat
  broadcastIp : Nat
  networkSize : Nat
  deriving DecidableEq, Repr

/-- mirrors api-db/src/ip_allocator.rs:425-447 -/
def getNetworkDetails (networkSegment : Block w) (prefixLength : Nat) : NetworkDetails where
  baseIp := networkSegment.addr
  broadcastIp := networkSegment.addr + networkSegment.size - 1
  networkSize := 2 ^ (w - prefixLength)

/-- Whether a candidate shares an address with a taken network. -/
def isAllocated (allocatedNetworks : List (Block w)) (candidateSubnet : Block w) : Bool :=
  allocatedNetworks.any fun allocatedNetwork =>
    decide (candidateSubnet.addr ∈ allocatedNetwork) || decide (allocatedNetwork.addr ∈ candidateSubnet)

/-- The search loop of `next_available_prefix`: candidates from `currentIp`
upwards in steps of the network size while `currentIp` is at most the broadcast
address. The candidate is built from `current_ip as u32` for IPv4, hence the
reduction. `none` is the overflow panic of `current_ip += network_size`; the
fuel is the number of candidates left. -/
def scanCandidates (allocatedNetworks : List (Block w)) (prefixLength : Nat)
    (hL : prefixLength ≤ w) (d : NetworkDetails) : Nat → Nat → Option (Option (Block w))
  | 0, _ => some none
  | fuel + 1, currentIp =>
    if currentIp ≤ d.broadcastIp then
      let candidateSubnet := Block.ofAddr (currentIp % 2 ^ w) prefixLength hL
        (Nat.mod_lt _ (Nat.two_pow_pos w))
      if isAllocated allocatedNetworks candidateSubnet then
        if currentIp + d.networkSize < 2 ^ 128 then
          scanCandidates allocatedNetworks prefixLength hL d fuel (currentIp + d.networkSize)
        else none
      else some (some candidateSubnet)
    else some none

/-- `none` is a panic: `w - prefix_length` underflows its `u8` when the length
exceeds the family's, or the loop's step overflows.
mirrors api-db/src/ip_allocator.rs:480-527 -/
def nextAvailablePrefix (networkSegment : Block w) (prefixLength : Nat)
    (allocatedNetworks : List (Block w)) : Option (Except AllocError (Option (Block w))) :=
  if prefixLength ≤ networkSegment.len then
    some (.error (.PrefixLengthTooShort prefixLength networkSegment.len))
  else if hL : prefixLength ≤ w then
    let d := getNetworkDetails networkSegment prefixLength
    (scanCandidates allocatedNetworks prefixLength hL d (2 ^ (prefixLength - networkSegment.len))
      d.baseIp).map .ok
  else none

/-- The length a strategy allocates in a prefix of width `w`; `StaticAddress`
has none. -/
def prefixLengthFor (w : Nat) : AddressSelectionStrategy → Option Nat
  | .NextAvailableIp | .Automatic => some w
  | .NextAvailablePrefix len => some len
  | .StaticAddress _ => none

/-- The item `next` yields for one prefix once it is taken off the list.
mirrors api-db/src/ip_allocator.rs:226-298 -/
def allocateIn (usedIps : List (Block w)) (addressStrategy : AddressSelectionStrategy)
    (segmentPrefix : Prefix w) : Option (Except AllocError (Block w)) :=
  let allocatedIps := getAllocated usedIps segmentPrefix
  match prefixLengthFor w addressStrategy with
  | none => some (.error .StaticAddress)
  | some prefixLength =>
    match nextAvailablePrefix segmentPrefix.network prefixLength allocatedIps with
    | none => none
    | some (.error e) =>
      some (.error (.NextAvailableFailed segmentPrefix.network.addr segmentPrefix.network.len e))
    | some (.ok none) => some (.error (.PrefixExhausted segmentPrefix.network.addr))
    | some (.ok (some network)) => some (.ok network)

structure IpAllocator (w : Nat) where
  prefixes : List (Prefix w)
  usedIps : List (Block w)
  addressStrategy : AddressSelectionStrategy

/-- `Iterator::next`: takes the first prefix off the list and allocates in it. -/
def IpAllocator.next (a : IpAllocator w) :
    Option (Prefix w × Option (Except AllocError (Block w))) × IpAllocator w :=
  match a.prefixes with
  | [] => (none, a)
  | p :: ps => (some (p, allocateIn a.usedIps a.addressStrategy p), { a with prefixes := ps })

/-- A prefix of a segment as stored in `network_prefixes`. -/
structure NetworkPrefix (w : Nat) where
  network : Block w
  gateway : Option Nat
  numReserved : Nat
  sviIp : Option (Fin (2 ^ w))

/-- `IpAllocator::new`, given the resolver's used prefixes.
mirrors api-db/src/ip_allocator.rs:143-170 -/
def IpAllocator.new (prefixes : List (NetworkPrefix w)) (usedIps : List (Block w))
    (addressStrategy : AddressSelectionStrategy) : IpAllocator w where
  prefixes := prefixes.map fun x => ⟨x.network, x.gateway, x.numReserved⟩
  usedIps := usedIps
  addressStrategy := addressStrategy

/-- The items of a whole iteration, one per prefix in order: each `next` call
yields the head of this list and leaves the rest (`next_items`). -/
def IpAllocator.items (a : IpAllocator w) : List (Option (Except AllocError (Block w))) :=
  a.prefixes.map (allocateIn a.usedIps a.addressStrategy)

theorem IpAllocator.next_items (a : IpAllocator w) :
    (a.next.1 = none ∧ a.items = []) ∨
    ∃ p item, a.next.1 = some (p, item) ∧ a.items = item :: a.next.2.items := by
  unfold IpAllocator.next IpAllocator.items
  cases a.prefixes with
  | nil => exact .inl ⟨rfl, rfl⟩
  | cons p ps => exact .inr ⟨p, _, rfl, rfl⟩

/-- `for (_, item) in allocator { let network = item?; ... }`: the first error
ends the loop. -/
def collectAllocations : List (Option (Except AllocError (Block w))) →
    Option (Except AllocError (List (Block w)))
  | [] => some (.ok [])
  | none :: _ => none
  | some (.error e) :: _ => some (.error e)
  | some (.ok network) :: rest => (collectAllocations rest).map (·.map (network :: ·))

/-! ## The resolvers and the callers -/

/-- `UsedOverlayNetworkIpResolver`: `used_prefixes` is the `prefix` column of the
segment's `instance_addresses` rows; `busy_ips` is read only by the deprecated
`used_ips`. mirrors api-db/src/instance_address.rs:493-569 -/
structure UsedOverlayNetworkIpResolver (w : Nat) where
  busyIps : List (Fin (2 ^ w))

def UsedOverlayNetworkIpResolver.usedPrefixes (_resolver : UsedOverlayNetworkIpResolver w)
    (instancePrefixes : List (Block w)) : List (Block w) :=
  instancePrefixes

/-- `UsedAdminNetworkIpResolver`: every used machine-interface address and every
busy address, each as a host network.
mirrors api-db/src/machine_interface.rs:3717-3783 -/
structure UsedAdminNetworkIpResolver (w : Nat) where
  busyIps : List (Fin (2 ^ w))

def UsedAdminNetworkIpResolver.usedPrefixes (resolver : UsedAdminNetworkIpResolver w)
    (interfaceAddresses : List (Fin (2 ^ w))) : List (Block w) :=
  (interfaceAddresses ++ resolver.busyIps).map fun a => Block.single a.1 a.2

/-- The segment's SVI addresses, the busy addresses both callers collect. -/
def sviIps (prefixes : List (NetworkPrefix w)) : List (Fin (2 ^ w)) :=
  prefixes.filterMap (·.sviIp)

/-- The overlay branch of `instance_address::allocate` for one interface.
mirrors api-db/src/instance_address.rs:440-468 and 681-700 -/
def allocateOverlay (prefixes : List (NetworkPrefix w)) (instancePrefixes : List (Block w)) :
    Option (Except AllocError (List (Block w))) :=
  let resolver : UsedOverlayNetworkIpResolver w := ⟨sviIps prefixes⟩
  collectAllocations
    (IpAllocator.new prefixes (resolver.usedPrefixes instancePrefixes) .NextAvailableIp).items

/-- Machine-interface allocation through the allocator.
mirrors api-db/src/machine_interface.rs:1896-1924 -/
def allocateAdmin (prefixes : List (NetworkPrefix w)) (interfaceAddresses : List (Fin (2 ^ w)))
    (addressStrategy : AddressSelectionStrategy) : Option (Except AllocError (List (Block w))) :=
  let resolver : UsedAdminNetworkIpResolver w := ⟨sviIps prefixes⟩
  collectAllocations
    (IpAllocator.new prefixes (resolver.usedPrefixes interfaceAddresses) addressStrategy).items

/-- The SVI address of one prefix that has none: the third address when the
first three are reserved, else the first address the allocator yields for the
prefix alone (through the overlay resolver for a tenant segment, with no busy
addresses). mirrors api-db/src/network_segment.rs:1017-1065 and
api-db/src/instance_address.rs:703-737 -/
def allocateSviIp (p : NetworkPrefix w) (instancePrefixes : List (Block w)) :
    Option (Except AllocError Nat) :=
  if 3 ≤ p.numReserved then
    if 2 < p.network.size then some (.ok (p.network.addr + 2)) else some (.error .TooFewAddresses)
  else
    let resolver : UsedOverlayNetworkIpResolver w := ⟨[]⟩
    match (IpAllocator.new [p] (resolver.usedPrefixes instancePrefixes) .NextAvailableIp).next with
    | (some (_, some (.ok network)), _) => some (.ok network.addr)
    | (some (_, some (.error e)), _) => some (.error e)
    | (some (_, none), _) => none
    | (none, _) => some (.error .TooFewAddresses)

/-! ## The collapse -/

section Collapse

variable {e n : Block w} {set acc S : List (Block w)}

theorem mem_collapseStep_of_mem (h : e ∈ set) : e ∈ collapseStep set n := by
  unfold collapseStep
  split
  · exact h
  · exact (List.mem_orderedInsert _).2 (.inr h)

theorem mem_collapseStep (h : e ∈ collapseStep set n) : e ∈ set ∨ e = n := by
  unfold collapseStep at h
  split at h
  · exact .inl h
  · exact ((List.mem_orderedInsert _).1 h).symm

theorem mem_foldl_collapseStep_of_mem (h : e ∈ acc) : e ∈ S.foldl collapseStep acc := by
  induction S generalizing acc with
  | nil => exact h
  | cons n rest ih => exact ih (mem_collapseStep_of_mem h)

theorem mem_foldl_collapseStep (h : e ∈ S.foldl collapseStep acc) : e ∈ acc ∨ e ∈ S := by
  induction S generalizing acc with
  | nil => exact .inl h
  | cons n rest ih =>
    rcases ih h with h' | h'
    · rcases mem_collapseStep h' with h'' | rfl
      · exact .inl h''
      · exact .inr List.mem_cons_self
    · exact .inr (List.mem_cons_of_mem _ h')

/-- After a step, the new network's base is in a kept network: one already in
that holds it, or the new network itself. -/
theorem collapseStep_base (hacc : ∀ e ∈ acc, n.len ≤ e.len) :
    ∃ e ∈ collapseStep acc n, n.addr ∈ e ∧ n.len ≤ e.len := by
  unfold collapseStep
  split
  · rename_i hany
    obtain ⟨e, he, hbase⟩ := List.any_eq_true.1 hany
    exact ⟨e, he, of_decide_eq_true hbase, hacc e he⟩
  · exact ⟨n, (List.mem_orderedInsert _).2 (.inl rfl), n.addr_mem, le_rfl⟩

/-- Over a list sorted longest prefix first, every network's base ends up in a
kept network at least as long: the one kept before it that holds the base, or
itself. -/
theorem foldl_collapseStep_base (hS : S.Pairwise fun a b => b.len ≤ a.len)
    (hacc : ∀ e ∈ acc, ∀ n ∈ S, n.len ≤ e.len) :
    ∀ n ∈ S, ∃ e ∈ S.foldl collapseStep acc, n.addr ∈ e ∧ n.len ≤ e.len := by
  induction S generalizing acc with
  | nil => intro n hn; cases hn
  | cons m rest ih =>
    obtain ⟨hm, hrest⟩ := List.pairwise_cons.1 hS
    -- every network kept after `m` is still at least as long as what follows
    have hacc' : ∀ e ∈ collapseStep acc m, ∀ n ∈ rest, n.len ≤ e.len := by
      intro e he n hn
      rcases mem_collapseStep he with he | rfl
      · exact hacc e he n (List.mem_cons_of_mem _ hn)
      · exact hm n hn
    intro n hn
    rw [List.foldl_cons]
    rcases List.mem_cons.1 hn with rfl | hn
    · obtain ⟨e, he, hbase, hlen⟩ := collapseStep_base fun e he => hacc e he n List.mem_cons_self
      exact ⟨e, mem_foldl_collapseStep_of_mem he, hbase, hlen⟩
    · exact ih hrest hacc' n hn

theorem sorted_insertionSort_len (A : List (Block w)) :
    (A.insertionSort fun a b => b.len ≤ a.len).Pairwise fun a b => b.len ≤ a.len := by
  have : Std.Total fun a b : Block w => b.len ≤ a.len := ⟨fun a b => Nat.le_total _ _⟩
  have : IsTrans (Block w) fun a b => b.len ≤ a.len := ⟨fun _ _ _ h1 h2 => Nat.le_trans h2 h1⟩
  exact List.pairwise_insertionSort _ A

theorem mem_of_mem_collapse {A : List (Block w)} (h : e ∈ collapseAllocatedNetworks A) : e ∈ A := by
  rcases mem_foldl_collapseStep h with h | h
  · cases h
  · exact (List.mem_insertionSort _).1 h

theorem collapse_base {A : List (Block w)} (hn : n ∈ A) :
    ∃ e ∈ collapseAllocatedNetworks A, n.addr ∈ e ∧ n.len ≤ e.len :=
  foldl_collapseStep_base (sorted_insertionSort_len A) (fun _ h => by cases h) n
    ((List.mem_insertionSort _).2 hn)

end Collapse

/-- No two networks of different lengths start at the same address. -/
def NoBaseClash (A : List (Block w)) : Prop :=
  ∀ m ∈ A, ∀ n ∈ A, m.addr = n.addr → m.len = n.len

/-- Collapsing keeps exactly the covered addresses when no two networks of
different lengths share a base: a dropped network is then a duplicate of a
kept one. -/
theorem collapse_covers {A : List (Block w)} (h : NoBaseClash A) {x : Nat} :
    (∃ e ∈ collapseAllocatedNetworks A, x ∈ e) ↔ ∃ n ∈ A, x ∈ n := by
  constructor
  · rintro ⟨e, he, hx⟩
    exact ⟨e, mem_of_mem_collapse he, hx⟩
  · rintro ⟨n, hn, hx⟩
    obtain ⟨e, he, hbase, hlen⟩ := collapse_base hn
    refine ⟨e, he, ?_⟩
    rcases Block.nested_of_mem hbase n.addr_mem with hen | hne
    · -- a kept network inside `n` holding its base starts there, so it is `n`
      have hstart : e.addr = n.addr := by
        have := Block.sub_def.1 hen
        have := Block.mem_def.1 hbase
        omega
      have hsame := Block.eq_of_sub_of_len hen (h e (mem_of_mem_collapse he) n hn hstart)
      exact hsame ▸ hx
    · exact Block.sub_iff.1 hne x hx

/-! ## The taken addresses -/

/-- `x` lies in a used network whose base is in `p`. -/
def UsedIn (p : Block w) (usedIps : List (Block w)) (x : Nat) : Prop :=
  ∃ u ∈ usedIps, u.addr ∈ p ∧ x ∈ u

/-- The addresses of a prefix that `build_allocated_networks` takes, given the
used ones: the gateway, the first `num_reserved`, and the network and
broadcast addresses of a prefix shorter than `/31` (`/127`). -/
def Reserved (p : Prefix w) (Used : Nat → Prop) (x : Nat) : Prop :=
  p.gateway = some x ∨ x < p.network.addr + p.numReserved ∨
    (p.network.len < w - 1 ∧ (x = p.network.addr ∨ x = p.network.addr + p.network.size - 1)) ∨
    Used x

section Taken

variable {p : Block w} {x : Nat}

theorem exists_mem_gatewayNetworks (hx : x ∈ p) (g : Option Nat) :
    (∃ b ∈ gatewayNetworks p g, x ∈ b) ↔ g = some x := by
  cases g with
  | none => simp [gatewayNetworks]
  | some g =>
    by_cases hg : g ∈ p
    · simp [gatewayNetworks, hg, Block.mem_single, eq_comm]
    · simp only [gatewayNetworks, hg, dite_false, List.not_mem_nil, false_and, exists_false,
        false_iff, Option.some.injEq]
      rintro rfl
      exact hg hx

theorem exists_mem_firstAddresses (hx : x ∈ p) (n : Nat) :
    (∃ b ∈ firstAddresses p n, x ∈ b) ↔ x < p.addr + n := by
  have hxp := Block.mem_def.1 hx
  simp only [firstAddresses, List.mem_map, List.mem_attach, true_and, Subtype.exists,
    List.mem_range]
  constructor
  · rintro ⟨b, ⟨i, hi, rfl⟩, hxb⟩
    rw [Block.mem_single] at hxb
    omega
  · intro h
    exact ⟨_, ⟨x - p.addr, by omega, rfl⟩, Block.mem_single.2 (by omega)⟩

theorem exists_mem_networkBroadcast :
    (∃ b ∈ networkBroadcast p, x ∈ b) ↔ p.len < w - 1 ∧ (x = p.addr ∨ x = p.addr + p.size - 1) := by
  unfold networkBroadcast
  by_cases hl : p.len < w - 1
  · simp [hl, Block.last, Block.mem_single]
  · simp [hl]

theorem exists_mem_filter_usedIps (usedIps : List (Block w)) :
    (∃ b ∈ usedIps.filter fun allocated => decide (allocated.addr ∈ p), x ∈ b) ↔
      UsedIn p usedIps x := by
  simp only [List.mem_filter, decide_eq_true_eq, UsedIn, and_assoc]

/-- Inside the prefix, the built list covers exactly the reserved and used
addresses. -/
theorem exists_mem_buildAllocatedNetworks {sp : Prefix w} {usedIps : List (Block w)}
    (hx : x ∈ sp.network) :
    (∃ b ∈ buildAllocatedNetworks sp usedIps, x ∈ b) ↔ Reserved sp (UsedIn sp.network usedIps) x := by
  simp only [buildAllocatedNetworks, List.mem_append, or_and_right, exists_or]
  rw [exists_mem_gatewayNetworks hx, exists_mem_firstAddresses hx, exists_mem_networkBroadcast,
    exists_mem_filter_usedIps, Reserved, or_assoc, or_assoc]

end Taken

/-- Every network the list is built from is a single address when every used
network is. -/
theorem len_of_mem_buildAllocatedNetworks {sp : Prefix w} {usedIps : List (Block w)}
    (hused : ∀ u ∈ usedIps, u.len = w) : ∀ b ∈ buildAllocatedNetworks sp usedIps, b.len = w := by
  intro b hb
  simp only [buildAllocatedNetworks, List.mem_append, List.mem_filter] at hb
  rcases hb with ((hg | hf) | hn) | ⟨hu, _⟩
  · unfold gatewayNetworks at hg
    split at hg
    · split at hg
      · rw [List.mem_singleton.1 hg]; rfl
      · cases hg
    · cases hg
  · obtain ⟨i, _, rfl⟩ := List.mem_map.1 hf
    rfl
  · unfold networkBroadcast at hn
    split at hn
    · rcases List.mem_pair.1 hn with rfl | rfl <;> rfl
    · cases hn
  · exact hused b hu

/-! ## The scan -/

theorem isAllocated_eq_false_iff {A : List (Block w)} {c : Block w} :
    isAllocated A c = false ↔ ∀ x ∈ c, ∀ a ∈ A, x ∉ a := by
  rw [isAllocated, List.any_eq_false]
  simp only [Bool.or_eq_true, decide_eq_true_eq]
  constructor
  · intro h x hx a ha hxa
    exact h a ha (Block.overlap_iff.2 ⟨x, hx, hxa⟩)
  · intro h a ha hov
    obtain ⟨x, hx, hxa⟩ := Block.overlap_iff.1 hov
    exact h x hx a ha hxa

section Scan

variable {P : Block w} {L : Nat} (A : List (Block w)) (hL : L ≤ w) (hPL : P.len < L)
  (htop : P.addr + P.size < 2 ^ 128)
include hPL htop

/-- From the `k`-th candidate on, the scan returns the first candidate that is
not allocated; it never runs out of fuel and never overflows below the top of
the address space. -/
theorem scanCandidates_eq :
    ∀ j k, k + j = 2 ^ (L - P.len) →
      scanCandidates A L hL (getNetworkDetails P L) j (P.addr + k * 2 ^ (w - L)) =
        some (((List.range' k j).find? fun m => !isAllocated A (candidate P hL m)).map
          (candidate P hL)) := by
  intro j
  induction j with
  | zero => intro k _; rfl
  | succ j ih =>
    intro k hk
    have hstep : k * 2 ^ (w - L) + 2 ^ (w - L) ≤ P.size := step_le_size hL hPL.le (by omega)
    have hs := Nat.two_pow_pos (w - L)
    rw [scanCandidates, if_pos (by simp only [getNetworkDetails]; omega), List.range'_succ]
    -- the block the loop builds at this step is the `k`-th candidate
    change (if isAllocated A (candidate P hL k) then _ else _) = _
    by_cases ha : isAllocated A (candidate P hL k) = true
    · rw [if_pos ha, if_pos (by simp only [getNetworkDetails]; omega),
        List.find?_cons_of_neg (by simp [ha])]
      have hnext : P.addr + k * 2 ^ (w - L) + (getNetworkDetails P L).networkSize =
          P.addr + (k + 1) * 2 ^ (w - L) := by
        simp only [getNetworkDetails, Nat.succ_mul]
        omega
      rw [hnext]
      exact ih (k + 1) (by omega)
    · rw [if_neg ha, List.find?_cons_of_pos (by simpa using ha)]
      rfl

/-- `next_available_prefix` scans the candidates of `P` from its base. -/
theorem nextAvailablePrefix_eq :
    nextAvailablePrefix P L A =
      some (.ok (((List.range' 0 (2 ^ (L - P.len))).find? fun m =>
        !isAllocated A (candidate P hL m)).map (candidate P hL))) := by
  have h := scanCandidates_eq A hL hPL htop (2 ^ (L - P.len)) 0 (Nat.zero_add _)
  rw [Nat.zero_mul, Nat.add_zero] at h
  unfold nextAvailablePrefix
  rw [if_neg (by omega), dif_pos hL]
  dsimp only
  rw [show (getNetworkDetails P L).baseIp = P.addr from rfl, h]
  rfl

include hL in
/-- The scan's answer is the lowest block of length `L` in `P` that shares no
address with a taken network. -/
theorem nextAvailablePrefix_lowest {c : Block w} :
    nextAvailablePrefix P L A = some (.ok (some c)) ↔
      LowestFree P L (fun x => ∀ a ∈ A, x ∉ a) c := by
  rw [nextAvailablePrefix_eq A hL hPL htop, Option.some.injEq, Except.ok.injEq]
  exact firstFit_eq_some (fun _ _ _ => isAllocated_eq_false_iff) hPL.le

include hL in
theorem nextAvailablePrefix_exhausted :
    nextAvailablePrefix P L A = some (.ok none) ↔
      NoneFree P L (fun x => ∀ a ∈ A, x ∉ a) := by
  rw [nextAvailablePrefix_eq A hL hPL htop, Option.some.injEq, Except.ok.injEq]
  exact firstFit_eq_none (fun _ _ _ => isAllocated_eq_false_iff) hPL.le

end Scan

/-! ## The allocation in one prefix -/

section Allocate

variable {usedIps : List (Block w)} {s : AddressSelectionStrategy} {sp : Prefix w} {L : Nat}

/-- What `next` yields once the scan has answered. -/
theorem allocateIn_of_scan (hs : prefixLengthFor w s = some L) {o : Option (Block w)}
    (h : nextAvailablePrefix sp.network L (getAllocated usedIps sp) = some (.ok o)) :
    allocateIn usedIps s sp = some (o.elim (.error (.PrefixExhausted sp.network.addr)) .ok) := by
  unfold allocateIn
  rw [hs]
  dsimp only
  rw [h]
  cases o <;> rfl

theorem elim_eq_ok {o : Option (Block w)} {e : AllocError} {c : Block w} :
    o.elim (.error e) .ok = (.ok c : Except AllocError (Block w)) ↔ o = some c := by
  cases o <;> simp

theorem elim_eq_error {o : Option (Block w)} {e : AllocError} :
    o.elim (.error e) .ok = (.error e : Except AllocError (Block w)) ↔ o = none := by
  cases o <;> simp

/-- Inside its bounds the scan always answers. -/
theorem scan_answers (usedIps : List (Block w)) (hL : L ≤ w) (hPL : sp.network.len < L)
    (htop : sp.network.addr + sp.network.size < 2 ^ 128) :
    ∃ o, nextAvailablePrefix sp.network L (getAllocated usedIps sp) = some (.ok o) :=
  ⟨_, nextAvailablePrefix_eq _ hL hPL htop⟩

variable (hs : prefixLengthFor w s = some L) (hL : L ≤ w) (hPL : sp.network.len < L)
  (htop : sp.network.addr + sp.network.size < 2 ^ 128)
include hs hL hPL htop

/-- The allocator yields the lowest block of the requested length that shares
no address with the collapsed taken networks. -/
theorem allocateIn_ok_iff {c : Block w} :
    allocateIn usedIps s sp = some (.ok c) ↔
      LowestFree sp.network L (fun x => ∀ a ∈ getAllocated usedIps sp, x ∉ a) c := by
  obtain ⟨o, ho⟩ := scan_answers usedIps hL hPL htop
  rw [allocateIn_of_scan hs ho, Option.some.injEq, elim_eq_ok,
    ← nextAvailablePrefix_lowest _ hL hPL htop, ho]
  simp

/-- It reports the prefix exhausted exactly when no such block is left. -/
theorem allocateIn_exhausted_iff :
    allocateIn usedIps s sp = some (.error (.PrefixExhausted sp.network.addr)) ↔
      NoneFree sp.network L (fun x => ∀ a ∈ getAllocated usedIps sp, x ∉ a) := by
  obtain ⟨o, ho⟩ := scan_answers usedIps hL hPL htop
  rw [allocateIn_of_scan hs ho, Option.some.injEq, elim_eq_error,
    ← nextAvailablePrefix_exhausted _ hL hPL htop, ho]
  simp

end Allocate

/-- With no base clash among the built networks, an address of the prefix is
outside every collapsed network exactly when it is neither reserved nor used. -/
theorem free_iff_not_reserved {sp : Prefix w} {usedIps : List (Block w)}
    (h : NoBaseClash (buildAllocatedNetworks sp usedIps)) {x : Nat} (hx : x ∈ sp.network) :
    (∀ a ∈ getAllocated usedIps sp, x ∉ a) ↔ ¬ Reserved sp (UsedIn sp.network usedIps) x := by
  rw [← exists_mem_buildAllocatedNetworks hx, ← collapse_covers h, getAllocated]
  simp only [not_exists, not_and]

/-! ## The admin resolver -/

section Admin

variable (r : UsedAdminNetworkIpResolver w) (interfaceAddresses : List (Fin (2 ^ w)))

theorem len_usedPrefixes_admin : ∀ u ∈ r.usedPrefixes interfaceAddresses, u.len = w := by
  intro u hu
  obtain ⟨a, _, rfl⟩ := List.mem_map.1 hu
  rfl

/-- The admin resolver hands in single addresses only, so no base clashes. -/
theorem noBaseClash_admin (sp : Prefix w) :
    NoBaseClash (buildAllocatedNetworks sp (r.usedPrefixes interfaceAddresses)) := by
  have h : ∀ b ∈ buildAllocatedNetworks sp (r.usedPrefixes interfaceAddresses), b.len = w :=
    len_of_mem_buildAllocatedNetworks (len_usedPrefixes_admin r interfaceAddresses)
  intro m hm n hn _
  rw [h m hm, h n hn]

theorem usedIn_admin_iff {p : Block w} {x : Nat} (hx : x ∈ p) :
    UsedIn p (r.usedPrefixes interfaceAddresses) x ↔
      ∃ a ∈ interfaceAddresses ++ r.busyIps, a.val = x := by
  simp only [UsedIn, UsedAdminNetworkIpResolver.usedPrefixes, List.mem_map]
  constructor
  · rintro ⟨u, ⟨a, ha, rfl⟩, _, hxu⟩
    exact ⟨a, ha, (Block.mem_single.1 hxu).symm⟩
  · rintro ⟨a, ha, rfl⟩
    exact ⟨_, ⟨a, ha, rfl⟩, hx, Block.mem_single.2 rfl⟩

/-- With the admin resolver the allocator is exactly first fit: it yields the
lowest block of the requested length whose addresses are neither reserved nor
used nor busy, and reports the prefix exhausted exactly when there is none. -/
theorem allocateIn_admin_iff {s : AddressSelectionStrategy} {sp : Prefix w} {L : Nat}
    (hs : prefixLengthFor w s = some L) (hL : L ≤ w) (hPL : sp.network.len < L)
    (htop : sp.network.addr + sp.network.size < 2 ^ 128) :
    (∀ c, allocateIn (r.usedPrefixes interfaceAddresses) s sp = some (.ok c) ↔
      LowestFree sp.network L
        (fun x => ¬ Reserved sp (fun x => ∃ a ∈ interfaceAddresses ++ r.busyIps, a.val = x) x) c) ∧
    (allocateIn (r.usedPrefixes interfaceAddresses) s sp =
        some (.error (.PrefixExhausted sp.network.addr)) ↔
      NoneFree sp.network L
        (fun x => ¬ Reserved sp (fun x => ∃ a ∈ interfaceAddresses ++ r.busyIps, a.val = x) x)) := by
  -- inside the prefix, outside the collapsed networks is outside the reserved,
  -- used and busy addresses
  have hfree : ∀ x ∈ sp.network,
      (∀ a ∈ getAllocated (r.usedPrefixes interfaceAddresses) sp, x ∉ a) ↔
        ¬ Reserved sp (fun x => ∃ a ∈ interfaceAddresses ++ r.busyIps, a.val = x) x := by
    intro x hx
    rw [free_iff_not_reserved (noBaseClash_admin r interfaceAddresses sp) hx]
    simp only [Reserved, usedIn_admin_iff r interfaceAddresses hx]
  exact ⟨fun c => (allocateIn_ok_iff hs hL hPL htop).trans (lowestFree_congr hfree),
    (allocateIn_exhausted_iff hs hL hPL htop).trans (noneFree_congr hfree)⟩

end Admin

/-- 10.0.0.0/28 with its gateway at 10.0.0.1 and four busy addresses, in a
segment of admin interfaces. -/
def adminPrefix : Prefix 32 :=
  ⟨⟨167772160, 28, by decide, by decide, by decide⟩, some 167772161, 0⟩

theorem allocateIn_admin_iff_adminPrefix :
    prefixLengthFor 32 .NextAvailableIp = some 32 ∧ 32 ≤ 32 ∧ adminPrefix.network.len < 32 ∧
      adminPrefix.network.addr + adminPrefix.network.size < 2 ^ 128 ∧
    ((∀ c, allocateIn ((⟨[⟨167772162, by decide⟩, ⟨167772163, by decide⟩]⟩ :
          UsedAdminNetworkIpResolver 32).usedPrefixes [⟨167772164, by decide⟩])
          .NextAvailableIp adminPrefix = some (.ok c) ↔
      LowestFree adminPrefix.network 32 (fun x => ¬ Reserved adminPrefix
        (fun x => ∃ a ∈ [⟨167772164, by decide⟩] ++ [⟨167772162, by decide⟩, ⟨167772163, by decide⟩],
          (a : Fin (2 ^ 32)).val = x) x) c) ∧
    (allocateIn ((⟨[⟨167772162, by decide⟩, ⟨167772163, by decide⟩]⟩ :
          UsedAdminNetworkIpResolver 32).usedPrefixes [⟨167772164, by decide⟩])
          .NextAvailableIp adminPrefix = some (.error (.PrefixExhausted adminPrefix.network.addr)) ↔
      NoneFree adminPrefix.network 32 (fun x => ¬ Reserved adminPrefix
        (fun x => ∃ a ∈ [⟨167772164, by decide⟩] ++ [⟨167772162, by decide⟩, ⟨167772163, by decide⟩],
          (a : Fin (2 ^ 32)).val = x) x))) :=
  ⟨rfl, le_rfl, by decide, by decide,
    allocateIn_admin_iff _ _ rfl le_rfl (by decide) (by decide)⟩

/-! ## Where the overlay allocation diverges -/

/-- 10.0.0.0/28 with its gateway at 10.0.0.1 and its first five addresses
reserved. -/
def reservedBasePrefix : NetworkPrefix 32 :=
  ⟨⟨167772160, 28, by decide, by decide, by decide⟩, some 167772161, 5, none⟩

/-- An instance's 10.0.0.4/30, whose base is the fifth reserved address. -/
def instanceSubnet : Block 32 := ⟨167772164, 30, by decide, by decide, by decide⟩

/-- 10.0.0.0/28 with its gateway at 10.0.0.1, no reserved addresses and no SVI
address yet. -/
def sviPrefix : NetworkPrefix 32 :=
  ⟨⟨167772160, 28, by decide, by decide, by decide⟩, some 167772161, 0, none⟩

/-- The last /126 of the IPv6 space, all four addresses reserved. -/
def topPrefix : Prefix 128 :=
  ⟨⟨2 ^ 128 - 4, 126, by decide, by decide, by decide⟩, none, 4⟩

/-- Three ways host allocation hands out an address that is taken, or fails
to report exhaustion. The collapse sorts longest prefix first, so an
instance's /30 whose base is already a reserved /32 is dropped, and its second
address is handed out. The overlay resolver drops the busy SVI addresses, so
the SVI address chosen for a prefix is handed to the next instance. And the
scan's `u128` step overflows past the last candidate of a full prefix at the
top of the IPv6 space, which panics. -/
theorem allocation_hands_out_taken_address :
    (allocateOverlay [reservedBasePrefix] [instanceSubnet] =
        some (.ok [Block.single 167772165 (by decide)]) ∧
      instanceSubnet.addr ∈ reservedBasePrefix.network ∧ 167772165 ∈ instanceSubnet) ∧
    (allocateSviIp sviPrefix [] = some (.ok 167772162) ∧
      allocateOverlay [{ sviPrefix with sviIp := some ⟨167772162, by decide⟩ }] [] =
        some (.ok [Block.single 167772162 (by decide)])) ∧
    allocateIn [] (.NextAvailablePrefix 127) topPrefix = none := by
  refine ⟨⟨?_, by decide, by decide⟩, ⟨?_, ?_⟩, ?_⟩ <;> decide

end Carbide.Db

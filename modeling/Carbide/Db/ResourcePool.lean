import Carbide.Lib.SubBlock

/-!
# IPv6 resource pools from a prefix or a range (`api-db/src/resource_pool.rs`)

`define_by_prefix` and `define_by_range` fill a pool with the values of one
prefix or of a range: the addresses of a prefix (`expand_ipv6_prefix`) or of a
half-open range (`expand_ipv6_range`), or the prefixes of one length, below a
parent (`expand_ipv6_prefix_delegation`) or between two aligned endpoints
(`expand_ipv6_prefix_range`). Each refuses more than `MAX_POOL_SIZE` values.

The arithmetic runs in `u128` under the release profile's overflow checks
(Cargo.toml:275-278): a shift by 128 bits or a product or sum out of range
panics, which is `none` here. The parsers of `ipnetwork` and `std::net` are
parameters, each returning its error's text: the results hold whatever network
or address a string parses to. A network's addresses are the `Block 128` of
its address and length.

Results:
* `expandIpv6Prefix_eq_ok`, `expandIpv6Range_eq_ok`: the addresses of the
  prefix, and those of `[start, end)`, when there are at most `MAX_POOL_SIZE`;
* `expandIpv6PrefixDelegation_of_v6`: the candidates of the parent block of the
  delegated length, in order, and the expansion never panics;
* `expandIpv6PrefixRange_eq_none_iff`: the prefix range panics exactly on two
  `::/0` endpoints, where `1u128 << 128` comes before the `end > start` check;
* `expandIpv6PrefixRange_of_aligned`: otherwise its values are the aligned networks
  from the start upwards, below the end.
-/
namespace Carbide.Db

open Carbide.Lib

/-- `MAX_POOL_SIZE`: a pool bigger than this is very likely a mistake. -/
def maxPoolSize : Nat := 250000

/-- `u128::MAX`. -/
def u128Max : Nat := 2 ^ 128 - 1

/-- `1u128.checked_shl(s).unwrap_or(u128::MAX)`: the shift is refused from 128
bits on. -/
def checkedShlOr (s : Nat) : Nat := if s < 128 then 2 ^ s else u128Max

/-- `1u128 << s`, which panics from 128 bits on. -/
def shlOne (s : Nat) : Option Nat := if s < 128 then some (2 ^ s) else none

/-- `a + i * b` in `u128`; the product cannot overflow unless the sum does. -/
def mulAddU128 (a i b : Nat) : Option (Fin (2 ^ 128)) :=
  if h : a + i * b < 2 ^ 128 then some ⟨a + i * b, h⟩ else none

/-- `usize::try_from(n).unwrap_or(usize::MAX)` on a 64-bit target. -/
def usizeOr (n : Nat) : Nat := if n < 2 ^ 64 then n else 2 ^ 64 - 1

/-- `ipnetwork::Ipv6Network`: the address as written, which may have host bits
set, and the prefix length. ipnetwork is a dependency, not code under `src/`;
this structure and its accessors are a stand-in for its documented behaviour. -/
@[ext]
structure Ipv6Network where
  ip : Nat
  prefixLen : Nat
  ip_lt : ip < 2 ^ 128
  prefixLen_le : prefixLen ≤ 128

/-- Two networks are equal when their address and length are. -/
instance : DecidableEq Ipv6Network := fun a b =>
  decidable_of_iff (a.ip = b.ip ∧ a.prefixLen = b.prefixLen)
    ⟨fun h => Ipv6Network.ext h.1 h.2, fun h => h ▸ ⟨rfl, rfl⟩⟩

/-- `ipnetwork::IpNetwork`; an IPv4 network is only refused here. -/
inductive IpNetwork
  | V4
  | V6 (n : Ipv6Network)

/-- The one `ipnetwork::IpNetworkError` these functions can meet. -/
inductive IpNetworkError
  | InvalidPrefix

instance : ToString IpNetworkError := ⟨fun | .InvalidPrefix => "invalid prefix"⟩

/-- The variants of `DefineResourcePoolError` the expansions return. -/
inductive DefineResourcePoolError
  /-- `"{0}"` -/
  | InvalidArgument (msg : String)
  /-- `"max pool size exceeded. {0} > {1}"` -/
  | TooBig (size max : Nat)
  deriving DecidableEq

namespace Ipv6Network

/-- The addresses of the network. -/
def block (n : Ipv6Network) : Block 128 := Block.ofAddr n.ip n.prefixLen n.prefixLen_le n.ip_lt

/-- `network()`: the address with its host bits cleared. -/
def network (n : Ipv6Network) : Nat := n.block.addr

/-- `broadcast()`: the last address of the network. -/
def broadcast (n : Ipv6Network) : Nat := n.block.addr + n.block.size - 1

/-- `Ipv6Network::new`. -/
def new : Fin (2 ^ 128) → Nat → Except IpNetworkError Ipv6Network
  | ⟨ip, hip⟩, prefixLen =>
    if h : prefixLen ≤ 128 then .ok ⟨ip, prefixLen, hip, h⟩ else .error .InvalidPrefix

end Ipv6Network

/-- The loop `for i in 0..count` of both prefix expansions, over the indexes
left: it pushes `Ipv6Network::new(base + i * step, len)` and returns the first
error; `none` where the address arithmetic panics.
mirrors resource_pool.rs:1269-1275 and 1335-1341 -/
def pushPrefixes (base step len : Nat) :
    List Nat → Option (Except DefineResourcePoolError (List Ipv6Network))
  | [] => some (.ok [])
  | i :: is =>
    match mulAddU128 base i step with
    | none => none
    | some addr =>
      match Ipv6Network.new addr len with
      | .error e => some (.error (.InvalidArgument (toString e)))
      | .ok net => (pushPrefixes base step len is).map (Except.map (net :: ·))

section Expand

variable (parseIpNetwork : String → Except String IpNetwork)
  (parseIpv6Network : String → Except String Ipv6Network)
  (parseIpv6Addr : String → Except String (Fin (2 ^ 128)))

/-- The text of the refusal of an IPv4 network. -/
def invalidIpv6Network (network : String) : DefineResourcePoolError :=
  .InvalidArgument ("Invalid IPv6 network: " ++ network)

/-- mirrors resource_pool.rs:1165-1203 -/
def expandIpv6Prefix (network : String) : Except DefineResourcePoolError (List Nat) :=
  match parseIpNetwork network with
  | .error e => .error (.InvalidArgument e)
  | .ok .V4 => .error (invalidIpv6Network network)
  | .ok (.V6 v6) =>
    let hostBits := 128 - v6.prefixLen
    let numAddresses := checkedShlOr hostBits
    if numAddresses > maxPoolSize then .error (.TooBig (usizeOr numAddresses) maxPoolSize)
    else
      -- `(start..=end)`: IPv6 has no broadcast address to leave out
      .ok (List.range' v6.network (v6.broadcast + 1 - v6.network))

/-- mirrors resource_pool.rs:1207-1227 -/
def expandIpv6Range (startS endS : String) : Except DefineResourcePoolError (List Nat) :=
  match parseIpv6Addr startS, parseIpv6Addr endS with
  | .error e, _ => .error (.InvalidArgument e)
  | .ok _, .error e => .error (.InvalidArgument e)
  | .ok startAddr, .ok endAddr =>
    -- `end.saturating_sub(start)`
    let count := endAddr.val - startAddr.val
    if count > maxPoolSize then .error (.TooBig (usizeOr count) maxPoolSize)
    else .ok (List.range' startAddr.val (endAddr.val - startAddr.val))

/-- mirrors resource_pool.rs:1232-1278 -/
def expandIpv6PrefixDelegation (parent : String) (delegateLen : UInt8) :
    Option (Except DefineResourcePoolError (List Ipv6Network)) :=
  match parseIpNetwork parent with
  | .error e => some (.error (.InvalidArgument e))
  | .ok .V4 => some (.error (invalidIpv6Network parent))
  | .ok (.V6 parentNet) =>
    let parentLen := parentNet.prefixLen
    if delegateLen.toNat ≤ parentLen then
      some (.error (.InvalidArgument ("Delegation prefix length /" ++ toString delegateLen ++
        " must be longer than parent prefix length /" ++ toString parentLen)))
    else if delegateLen.toNat > 128 then
      some (.error (.InvalidArgument ("Delegation prefix length /" ++ toString delegateLen ++
        " exceeds maximum /128")))
    else
      let subBits := delegateLen.toNat - parentLen
      let count := checkedShlOr subBits
      if count > maxPoolSize then some (.error (.TooBig (usizeOr count) maxPoolSize))
      else
        (shlOne (128 - delegateLen.toNat)).bind fun step =>
          pushPrefixes parentNet.network step delegateLen.toNat (List.range count)

/-- mirrors resource_pool.rs:1284-1344 -/
def expandIpv6PrefixRange (startS endS : String) :
    Option (Except DefineResourcePoolError (List Ipv6Network)) :=
  match parseIpv6Network startS, parseIpv6Network endS with
  | .error e, _ => some (.error (.InvalidArgument e))
  | .ok _, .error e => some (.error (.InvalidArgument e))
  | .ok startNet, .ok endNet =>
    let prefixLen := startNet.prefixLen
    if endNet.prefixLen ≠ prefixLen then
      some (.error (.InvalidArgument ("Range endpoints have different prefix lengths: /" ++
        toString prefixLen ++ " vs /" ++ toString endNet.prefixLen)))
    else if startNet.ip ≠ startNet.network then
      some (.error (.InvalidArgument ("Start prefix " ++ startS ++ " has host bits set")))
    else if endNet.ip ≠ endNet.network then
      some (.error (.InvalidArgument ("End prefix " ++ endS ++ " has host bits set")))
    else
      let startAddr := startNet.network
      let endAddr := endNet.network
      -- the step is computed before the endpoints are compared
      (shlOne (128 - prefixLen)).bind fun step =>
        if endAddr ≤ startAddr then
          some (.error (.InvalidArgument "End prefix must be greater than start prefix"))
        else
          let count := (endAddr - startAddr) / step
          if count > maxPoolSize then some (.error (.TooBig (usizeOr count) maxPoolSize))
          else pushPrefixes startAddr step prefixLen (List.range count)

end Expand

/-! ## The `u128` steps -/

theorem shlOne_of_lt {s : Nat} (h : s < 128) : shlOne s = some (2 ^ s) := if_pos h

theorem shlOne_of_le {s : Nat} (h : 128 ≤ s) : shlOne s = none := if_neg (Nat.not_lt.2 h)

/-- The count check passes exactly when the `2 ^ s` values fit in a pool: from
128 bits on, `u128::MAX` stands in for a count that does not fit either. -/
theorem checkedShlOr_le_iff {s : Nat} (hs : s ≤ 128) :
    checkedShlOr s ≤ maxPoolSize ↔ 2 ^ s ≤ maxPoolSize := by
  unfold checkedShlOr
  split
  · rfl
  · have e : s = 128 := by omega
    subst e
    decide

theorem checkedShlOr_of_le {s : Nat} (hs : s ≤ 128) (h : 2 ^ s ≤ maxPoolSize) : checkedShlOr s = 2 ^ s := by
  unfold checkedShlOr
  split
  · rfl
  · -- from 128 bits on the count cannot fit
    have e : s = 128 := by omega
    subst e
    exact absurd h (by decide)

/-! ## Networks as blocks -/

namespace Ipv6Network

/-- The network written at the base of a block. -/
def ofBlock (b : Block 128) : Ipv6Network := ⟨b.addr, b.len, b.addr_lt, b.len_le⟩

theorem size_block (n : Ipv6Network) : n.block.size = 2 ^ (128 - n.prefixLen) := rfl

@[simp] theorem block_ofBlock (b : Block 128) : (ofBlock b).block = b :=
  Block.ext' (Block.ofAddr_addr b.aligned) rfl

theorem network_ofBlock (b : Block 128) : (ofBlock b).network = b.addr := by
  rw [network, block_ofBlock]

/-- `(start..=end)` of a network has one address per address of its block. -/
theorem broadcast_add_one_sub (n : Ipv6Network) : n.broadcast + 1 - n.network = n.block.size := by
  have := n.block.size_pos
  unfold broadcast network
  omega

/-- A network of length `0` starts at `::`. -/
theorem network_of_prefixLen_zero {n : Ipv6Network} (h : n.prefixLen = 0) : n.network = 0 := by
  have hlt := n.ip_lt
  show n.ip / 2 ^ (128 - n.prefixLen) * 2 ^ (128 - n.prefixLen) = 0
  rw [h, Nat.div_eq_of_lt hlt, Nat.zero_mul]

theorem network_lt (n : Ipv6Network) : n.network < 2 ^ 128 := n.block.addr_lt

/-- Two networks of one length: the steps of that length from the lower one
end at the higher one. -/
theorem network_add_steps {m n : Ipv6Network} (hlen : n.prefixLen = m.prefixLen)
    (hle : m.network ≤ n.network) :
    m.network + (n.network - m.network) / 2 ^ (128 - m.prefixLen) * 2 ^ (128 - m.prefixLen) =
      n.network := by
  have hm : 2 ^ (128 - m.prefixLen) ∣ m.network := Nat.dvd_of_mod_eq_zero m.block.aligned
  have hn : 2 ^ (128 - m.prefixLen) ∣ n.network := by
    rw [← hlen]
    exact Nat.dvd_of_mod_eq_zero n.block.aligned
  rw [Nat.div_mul_cancel (Nat.dvd_sub hn hm)]
  omega

/-- The networks of a list of blocks are the blocks. -/
theorem exists_mem_map_ofBlock {L : List (Block 128)} {b : Block 128} :
    (∃ x ∈ L.map ofBlock, x.block = b) ↔ b ∈ L := by
  constructor
  · rintro ⟨x, hx, rfl⟩
    obtain ⟨c, hc, rfl⟩ := List.mem_map.1 hx
    rwa [block_ofBlock]
  · intro hb
    exact ⟨ofBlock b, List.mem_map_of_mem hb, block_ofBlock b⟩

theorem forall_mem_map_ofBlock {L : List (Block 128)} {len : Nat} (h : ∀ b ∈ L, b.len = len) :
    ∀ x ∈ L.map ofBlock, x.prefixLen = len ∧ x.ip = x.network := by
  intro x hx
  obtain ⟨b, hb, rfl⟩ := List.mem_map.1 hx
  exact ⟨h b hb, (network_ofBlock b).symm⟩

theorem pairwise_map_ofBlock {L : List (Block 128)} {R : Block 128 → Block 128 → Prop}
    (h : L.Pairwise R) : (L.map ofBlock).Pairwise fun x y => R x.block y.block := by
  rw [List.pairwise_map]
  simpa only [block_ofBlock] using h

end Ipv6Network

/-! ## The loop -/

/-- Where every step address is the base of the block `f i` of the pushed
length, the loop pushes the networks of those blocks. -/
theorem pushPrefixes_eq {base step len : Nat} (f : Nat → Block 128) :
    ∀ is : List Nat, (∀ i ∈ is, (f i).addr = base + i * step ∧ (f i).len = len) →
      pushPrefixes base step len is = some (.ok (is.map fun i => Ipv6Network.ofBlock (f i)))
  | [], _ => rfl
  | i :: is, h => by
    obtain ⟨haddr, hlen⟩ := h i List.mem_cons_self
    have hlt : base + i * step < 2 ^ 128 := haddr ▸ (f i).addr_lt
    have hnew : Ipv6Network.new ⟨base + i * step, hlt⟩ len = .ok (Ipv6Network.ofBlock (f i)) := by
      rw [Ipv6Network.new, dif_pos (hlen ▸ (f i).len_le)]
      exact congrArg Except.ok (Ipv6Network.ext haddr.symm hlen.symm)
    have ih := pushPrefixes_eq f is fun j hj => h j (List.mem_cons_of_mem i hj)
    simp only [pushPrefixes, mulAddU128, dif_pos hlt, hnew, ih, List.map_cons]
    rfl

/-- Pushed from the base of `B`, the loop yields the first candidates of `B`. -/
theorem pushPrefixes_candidate (B : Block 128) {L n : Nat} (hL : L ≤ 128) (hBL : B.len ≤ L)
    (hn : B.addr + n * 2 ^ (128 - L) ≤ 2 ^ 128) :
    pushPrefixes B.addr (2 ^ (128 - L)) L (List.range n) =
      some (.ok ((List.range n).map fun i => Ipv6Network.ofBlock (candidate B hL i))) := by
  refine pushPrefixes_eq _ _ fun i hi => ⟨candidate_addr_of_lt hBL ?_, rfl⟩
  have hi' := Nat.mul_le_mul_right (2 ^ (128 - L)) (List.mem_range.1 hi)
  rw [Nat.succ_mul] at hi'
  have := Nat.two_pow_pos (128 - L)
  omega

/-! ## The four expansions -/

section Spec

variable {parseIpNetwork : String → Except String IpNetwork}
  {parseIpv6Network : String → Except String Ipv6Network}
  {parseIpv6Addr : String → Except String (Fin (2 ^ 128))}

theorem expandIpv6Prefix_eq_ok {network : String} {l : List Nat} :
    expandIpv6Prefix parseIpNetwork network = .ok l ↔
      ∃ v6, parseIpNetwork network = .ok (.V6 v6) ∧ v6.block.size ≤ maxPoolSize ∧
        l = List.range' v6.network v6.block.size := by
  unfold expandIpv6Prefix
  split
  · rename_i he
    simp [he]
  · rename_i he
    simp [he]
  · rename_i v6 hparse
    have hcount := checkedShlOr_le_iff (Nat.sub_le 128 v6.prefixLen)
    rw [← Ipv6Network.size_block] at hcount
    simp only [hparse]
    split
    · simp only [reduceCtorEq, false_iff, not_exists, not_and, Except.ok.injEq, IpNetwork.V6.injEq]
      rintro _ rfl hsize
      omega
    · simp only [Except.ok.injEq, IpNetwork.V6.injEq, Ipv6Network.broadcast_add_one_sub]
      constructor
      · rintro rfl
        exact ⟨v6, rfl, by omega, rfl⟩
      · rintro ⟨_, rfl, -, rfl⟩
        rfl

theorem expandIpv6Range_eq_ok {startS endS : String} {l : List Nat} :
    expandIpv6Range parseIpv6Addr startS endS = .ok l ↔
      ∃ a b, parseIpv6Addr startS = .ok a ∧ parseIpv6Addr endS = .ok b ∧
        b.val - a.val ≤ maxPoolSize ∧ l = List.range' a.val (b.val - a.val) := by
  unfold expandIpv6Range
  split
  · rename_i he
    simp [he]
  · rename_i he he'
    simp [he, he']
  · rename_i a b hstart hend
    simp only [hstart, hend]
    split
    · simp only [reduceCtorEq, false_iff, not_exists, not_and, Except.ok.injEq]
      rintro _ _ rfl rfl hcount
      omega
    · simp only [Except.ok.injEq]
      constructor
      · rintro rfl
        exact ⟨a, b, rfl, rfl, by omega, rfl⟩
      · rintro ⟨_, _, rfl, rfl, -, rfl⟩
        rfl

/-- Past its checks the delegation pushes the candidates of the delegated
length in the parent's block. -/
theorem expandIpv6PrefixDelegation_of_v6 {parent : String} {d : UInt8} {P : Ipv6Network}
    (hparse : parseIpNetwork parent = .ok (.V6 P)) (hlt : P.prefixLen < d.toNat) (hd : d.toNat ≤ 128)
    (hcount : 2 ^ (d.toNat - P.prefixLen) ≤ maxPoolSize) :
    expandIpv6PrefixDelegation parseIpNetwork parent d =
      some (.ok ((candidates P.block hd).map Ipv6Network.ofBlock)) := by
  have hpush := pushPrefixes_candidate P.block hd hlt.le (addr_add_count_mul hd hlt.le)
  unfold expandIpv6PrefixDelegation
  simp only [hparse, if_neg (Nat.not_le.2 hlt), if_neg (Nat.not_lt.2 hd),
    checkedShlOr_of_le (Nat.le_trans (Nat.sub_le _ _) hd) hcount, if_neg (Nat.not_lt.2 hcount),
    shlOne_of_lt (show 128 - d.toNat < 128 by omega), Option.bind_some]
  rw [candidates, List.map_map]
  exact hpush

/-- What the delegation can do: refuse with an error, or pass its checks. -/
theorem expandIpv6PrefixDelegation_cases (parent : String) (d : UInt8) :
    (∃ e, expandIpv6PrefixDelegation parseIpNetwork parent d = some (.error e)) ∨
      ∃ P : Ipv6Network, ∃ hd : d.toNat ≤ 128, parseIpNetwork parent = .ok (.V6 P) ∧
        P.prefixLen < d.toNat ∧ 2 ^ (d.toNat - P.prefixLen) ≤ maxPoolSize ∧
        expandIpv6PrefixDelegation parseIpNetwork parent d =
          some (.ok ((candidates P.block hd).map Ipv6Network.ofBlock)) := by
  unfold expandIpv6PrefixDelegation
  split
  · exact .inl ⟨_, rfl⟩
  · exact .inl ⟨_, rfl⟩
  · rename_i P hparse
    by_cases hlt : P.prefixLen < d.toNat
    · by_cases hd : d.toNat ≤ 128
      · by_cases hcount : 2 ^ (d.toNat - P.prefixLen) ≤ maxPoolSize
        · refine .inr ⟨P, hd, hparse, hlt, hcount, ?_⟩
          have h := expandIpv6PrefixDelegation_of_v6 hparse hlt hd hcount
          unfold expandIpv6PrefixDelegation at h
          rwa [hparse] at h
        · -- too many candidates: `TooBig`
          have hbig := (checkedShlOr_le_iff (Nat.le_trans (Nat.sub_le _ _) hd)).not.2 hcount
          simp only [if_neg (Nat.not_le.2 hlt), if_neg (Nat.not_lt.2 hd), if_pos (Nat.lt_of_not_le hbig)]
          exact .inl ⟨_, rfl⟩
      · simp only [if_neg (Nat.not_le.2 hlt), if_pos (Nat.lt_of_not_le hd)]
        exact .inl ⟨_, rfl⟩
    · simp only [if_pos (Nat.le_of_not_lt hlt)]
      exact .inl ⟨_, rfl⟩

/-- Two `::/0` endpoints: the step `1u128 << 128` panics before the endpoints
are compared. -/
theorem expandIpv6PrefixRange_of_zero {startS endS : String} {m n : Ipv6Network}
    (hs : parseIpv6Network startS = .ok m) (he : parseIpv6Network endS = .ok n)
    (hm : m.prefixLen = 0) (hn : n.prefixLen = 0) (hmip : m.ip = 0) (hnip : n.ip = 0) :
    expandIpv6PrefixRange parseIpv6Network startS endS = none := by
  unfold expandIpv6PrefixRange
  simp only [hs, he, hm, hn, hmip, hnip, Ipv6Network.network_of_prefixLen_zero hm,
    Ipv6Network.network_of_prefixLen_zero hn, ne_eq, not_true_eq_false, if_false,
    shlOne_of_le (Nat.le_refl 128), Option.bind_none]

/-- Past its checks the prefix range pushes the networks of the start's length
from the start upwards, one per step below the end. -/
theorem expandIpv6PrefixRange_of_aligned {startS endS : String} {m n : Ipv6Network}
    (hs : parseIpv6Network startS = .ok m) (he : parseIpv6Network endS = .ok n)
    (hlen : n.prefixLen = m.prefixLen) (hm : m.ip = m.network) (hn : n.ip = n.network)
    (hpos : 0 < m.prefixLen) (hlt : m.network < n.network)
    (hcount : (n.network - m.network) / 2 ^ (128 - m.prefixLen) ≤ maxPoolSize) :
    expandIpv6PrefixRange parseIpv6Network startS endS =
      some (.ok ((List.range ((n.network - m.network) / 2 ^ (128 - m.prefixLen))).map fun i =>
        Ipv6Network.ofBlock (candidate m.block m.prefixLen_le i))) := by
  have hend : m.block.addr + (n.network - m.network) / 2 ^ (128 - m.prefixLen) *
      2 ^ (128 - m.prefixLen) ≤ 2 ^ 128 := by
    have := n.network_lt
    rw [← Ipv6Network.network, Ipv6Network.network_add_steps hlen hlt.le]
    omega
  have hpush := pushPrefixes_candidate m.block m.prefixLen_le (Nat.le_refl _) hend
  unfold expandIpv6PrefixRange
  simp only [hs, he, hlen, hm, hn, ne_eq, not_true_eq_false, if_false,
    shlOne_of_lt (show 128 - m.prefixLen < 128 by omega), Option.bind_some,
    if_neg (Nat.not_le.2 hlt), if_neg (Nat.not_lt.2 hcount)]
  exact hpush

/-- What the prefix range can do: refuse with an error, panic on two `::/0`
endpoints, or pass its checks. -/
theorem expandIpv6PrefixRange_cases (startS endS : String) :
    (∃ e, expandIpv6PrefixRange parseIpv6Network startS endS = some (.error e)) ∨
    (∃ m n : Ipv6Network, parseIpv6Network startS = .ok m ∧ parseIpv6Network endS = .ok n ∧
      m.prefixLen = 0 ∧ n.prefixLen = 0 ∧ m.ip = 0 ∧ n.ip = 0) ∨
    ∃ m n : Ipv6Network, parseIpv6Network startS = .ok m ∧ parseIpv6Network endS = .ok n ∧
      n.prefixLen = m.prefixLen ∧ m.ip = m.network ∧ n.ip = n.network ∧ 0 < m.prefixLen ∧
      m.network < n.network ∧ (n.network - m.network) / 2 ^ (128 - m.prefixLen) ≤ maxPoolSize ∧
      expandIpv6PrefixRange parseIpv6Network startS endS =
        some (.ok ((List.range ((n.network - m.network) / 2 ^ (128 - m.prefixLen))).map fun i =>
          Ipv6Network.ofBlock (candidate m.block m.prefixLen_le i))) := by
  unfold expandIpv6PrefixRange
  split
  · exact .inl ⟨_, rfl⟩
  · exact .inl ⟨_, rfl⟩
  · rename_i m n hs he
    by_cases hlen : n.prefixLen = m.prefixLen
    · by_cases hm : m.ip = m.network
      · by_cases hn : n.ip = n.network
        · simp only [if_neg (not_not.2 hlen), if_neg (not_not.2 hm), if_neg (not_not.2 hn)]
          by_cases hpos : 0 < m.prefixLen
          · by_cases hlt : m.network < n.network
            · by_cases hcount : (n.network - m.network) / 2 ^ (128 - m.prefixLen) ≤ maxPoolSize
              · refine .inr (.inr ⟨m, n, hs, he, hlen, hm, hn, hpos, hlt, hcount, ?_⟩)
                have h := expandIpv6PrefixRange_of_aligned hs he hlen hm hn hpos hlt hcount
                unfold expandIpv6PrefixRange at h
                simp only [hs, he, if_neg (not_not.2 hlen), if_neg (not_not.2 hm), if_neg (not_not.2 hn)] at h
                exact h
              · simp only [shlOne_of_lt (show 128 - m.prefixLen < 128 by omega), Option.bind_some,
                  if_neg (Nat.not_le.2 hlt), if_pos (Nat.lt_of_not_le hcount)]
                exact .inl ⟨_, rfl⟩
            · simp only [shlOne_of_lt (show 128 - m.prefixLen < 128 by omega), Option.bind_some,
                if_pos (Nat.le_of_not_lt hlt)]
              exact .inl ⟨_, rfl⟩
          · -- a length of `0` on both ends: both are `::/0`
            have hm0 : m.prefixLen = 0 := by omega
            have hmip : m.ip = 0 := hm.trans (Ipv6Network.network_of_prefixLen_zero hm0)
            have hnip : n.ip = 0 := hn.trans (Ipv6Network.network_of_prefixLen_zero (hlen.trans hm0))
            exact .inr (.inl ⟨m, n, hs, he, hm0, hlen.trans hm0, hmip, hnip⟩)
        · simp only [if_neg (not_not.2 hlen), if_neg (not_not.2 hm), if_pos hn]
          exact .inl ⟨_, rfl⟩
      · simp only [if_neg (not_not.2 hlen), if_pos hm]
        exact .inl ⟨_, rfl⟩
    · simp only [if_pos hlen]
      exact .inl ⟨_, rfl⟩

theorem expandIpv6PrefixDelegation_ne_none (parent : String) (d : UInt8) :
    expandIpv6PrefixDelegation parseIpNetwork parent d ≠ none := by
  rcases expandIpv6PrefixDelegation_cases parent d with ⟨e, h⟩ | ⟨P, hd, -, -, -, h⟩ <;> rw [h] <;> simp

theorem expandIpv6PrefixRange_eq_none_iff (startS endS : String) :
    expandIpv6PrefixRange parseIpv6Network startS endS = none ↔
      ∃ m n : Ipv6Network, parseIpv6Network startS = .ok m ∧ parseIpv6Network endS = .ok n ∧
        m.prefixLen = 0 ∧ n.prefixLen = 0 ∧ m.ip = 0 ∧ n.ip = 0 := by
  constructor
  · intro hnone
    rcases expandIpv6PrefixRange_cases startS endS with ⟨e, h⟩ | hzero | ⟨m, n, -, -, -, -, -, -, -, -, h⟩
    · rw [h] at hnone
      cases hnone
    · exact hzero
    · rw [h] at hnone
      cases hnone
  · rintro ⟨m, n, hs, he, hm, hn, hmip, hnip⟩
    exact expandIpv6PrefixRange_of_zero hs he hm hn hmip hnip

/-- A successful prefix expansion holds the addresses of the prefix. -/
theorem expandIpv6Prefix_ok (network : String) (l : List Nat)
    (h : expandIpv6Prefix parseIpNetwork network = .ok l) :
    ∃ v6, parseIpNetwork network = .ok (.V6 v6) ∧ (∀ a, a ∈ l ↔ a ∈ v6.block) ∧ l.Nodup ∧
      l.length ≤ maxPoolSize := by
  obtain ⟨v6, hparse, hsize, rfl⟩ := expandIpv6Prefix_eq_ok.1 h
  refine ⟨v6, hparse, fun a => ?_, List.nodup_range', by rwa [List.length_range']⟩
  rw [List.mem_range'_1, Block.mem_def]
  rfl

/-- A successful range expansion holds the addresses of `[start, end)`. -/
theorem expandIpv6Range_ok (startS endS : String) (l : List Nat)
    (h : expandIpv6Range parseIpv6Addr startS endS = .ok l) :
    ∃ a b : Fin (2 ^ 128), parseIpv6Addr startS = .ok a ∧ parseIpv6Addr endS = .ok b ∧
      (∀ x, x ∈ l ↔ a.val ≤ x ∧ x < b.val) ∧ l.Nodup ∧ l.length ≤ maxPoolSize := by
  obtain ⟨a, b, ha, hb, hcount, rfl⟩ := expandIpv6Range_eq_ok.1 h
  refine ⟨a, b, ha, hb, fun x => ?_, List.nodup_range', by rwa [List.length_range']⟩
  rw [List.mem_range'_1]
  omega

/-- A successful delegation holds the sub-prefixes of the delegated length that
lie in the parent, each once and in address order; they cover the parent and
share no address. -/
theorem expandIpv6PrefixDelegation_ok (parent : String) (d : UInt8) (l : List Ipv6Network)
    (h : expandIpv6PrefixDelegation parseIpNetwork parent d = some (.ok l)) :
    ∃ P : Ipv6Network, parseIpNetwork parent = .ok (.V6 P) ∧
      l.length = 2 ^ (d.toNat - P.prefixLen) ∧ l.length ≤ maxPoolSize ∧
      l.Pairwise (fun x y => x.network < y.network) ∧
      (∀ x ∈ l, x.prefixLen = d.toNat ∧ x.ip = x.network) ∧
      (∀ b : Block 128, (∃ x ∈ l, x.block = b) ↔ b.len = d.toNat ∧ b ⊆ P.block) ∧
      l.Pairwise (fun x y => ∀ a, a ∈ x.block → a ∉ y.block) ∧
      ∀ a, a ∈ P.block ↔ ∃ x ∈ l, a ∈ x.block := by
  rcases expandIpv6PrefixDelegation_cases parent d with ⟨e, he⟩ | ⟨P, hd, hparse, hlt, hcount, he⟩
  · rw [he] at h
    cases h
  rw [he] at h
  cases h
  have hPL : P.block.len ≤ d.toNat := hlt.le
  have hlen : ∀ b ∈ candidates P.block hd, b.len = d.toNat := fun b hb =>
    ((mem_candidates hPL).1 hb).1
  have hlength : ((candidates P.block hd).map Ipv6Network.ofBlock).length =
      2 ^ (d.toNat - P.prefixLen) := by
    rw [List.length_map, length_candidates]
    rfl
  refine ⟨P, hparse, hlength, hlength ▸ hcount, ?_, Ipv6Network.forall_mem_map_ofBlock hlen,
    fun b => ?_, ?_, fun a => ?_⟩
  · have hsorted : (candidates P.block hd).Pairwise fun b c => b.addr < c.addr :=
      candidates_sorted hPL
    simpa only [Ipv6Network.network] using Ipv6Network.pairwise_map_ofBlock hsorted
  · rw [Ipv6Network.exists_mem_map_ofBlock, mem_candidates hPL]
  · exact Ipv6Network.pairwise_map_ofBlock (pairwise_disjoint_of_sorted hlen (candidates_sorted hPL))
  · have hcover : a ∈ P.block ↔ ∃ b ∈ candidates P.block hd, a ∈ b :=
      mem_iff_exists_mem_candidates hPL
    rw [hcover]
    constructor
    · rintro ⟨b, hb, hab⟩
      exact ⟨Ipv6Network.ofBlock b, List.mem_map_of_mem hb, by rwa [Ipv6Network.block_ofBlock]⟩
    · rintro ⟨x, hx, hax⟩
      obtain ⟨b, hb, rfl⟩ := List.mem_map.1 hx
      exact ⟨b, hb, by rwa [Ipv6Network.block_ofBlock] at hax⟩

/-- A successful prefix range holds the networks of the start's length whose
base lies from the start up to below the end, each once and in address order. -/
theorem expandIpv6PrefixRange_ok (startS endS : String) (l : List Ipv6Network)
    (h : expandIpv6PrefixRange parseIpv6Network startS endS = some (.ok l)) :
    ∃ m n : Ipv6Network, parseIpv6Network startS = .ok m ∧ parseIpv6Network endS = .ok n ∧
      l.length ≤ maxPoolSize ∧ l.Pairwise (fun x y => x.network < y.network) ∧
      (∀ x ∈ l, x.prefixLen = m.prefixLen ∧ x.ip = x.network) ∧
      ∀ b : Block 128, (∃ x ∈ l, x.block = b) ↔
        b.len = m.prefixLen ∧ m.network ≤ b.addr ∧ b.addr < n.network := by
  rcases expandIpv6PrefixRange_cases startS endS with
    ⟨e, he⟩ | ⟨m, n, hs, he', hm0, hn0, hmip, hnip⟩ | ⟨m, n, hs, he', hlen, -, -, -, hlt, hcount, he⟩
  · rw [he] at h
    cases h
  · rw [expandIpv6PrefixRange_of_zero hs he' hm0 hn0 hmip hnip] at h
    cases h
  rw [he] at h
  obtain rfl : l = ((List.range ((n.network - m.network) / 2 ^ (128 - m.prefixLen))).map
      (candidate m.block m.prefixLen_le)).map Ipv6Network.ofBlock := by
    rw [List.map_map]
    exact (Except.ok.inj (Option.some.inj h)).symm
  -- the networks are the first candidates from the start's block
  have hsteps := Ipv6Network.network_add_steps hlen hlt.le
  have hend : m.block.addr + (n.network - m.network) / 2 ^ (128 - m.prefixLen) *
      2 ^ (128 - m.prefixLen) ≤ 2 ^ 128 := by
    have := n.network_lt
    rw [← Ipv6Network.network, hsteps]
    omega
  have hmem : ∀ b, b ∈ (List.range ((n.network - m.network) / 2 ^ (128 - m.prefixLen))).map
      (candidate m.block m.prefixLen_le) ↔
      b.len = m.prefixLen ∧ m.network ≤ b.addr ∧ b.addr < n.network := fun b => by
    rw [mem_map_candidate_range (L := m.prefixLen) (Nat.le_refl _) hend, ← Ipv6Network.network, hsteps]
  refine ⟨m, n, hs, he', by rwa [List.length_map, List.length_map, List.length_range], ?_,
    Ipv6Network.forall_mem_map_ofBlock fun b hb => ((hmem b).1 hb).1, fun b => ?_⟩
  · have hsorted : ((List.range ((n.network - m.network) / 2 ^ (128 - m.prefixLen))).map
        (candidate m.block m.prefixLen_le)).Pairwise fun b c => b.addr < c.addr :=
      pairwise_map_candidate_range (L := m.prefixLen) (Nat.le_refl _) hend
    simpa only [Ipv6Network.network] using Ipv6Network.pairwise_map_ofBlock hsorted
  · rw [Ipv6Network.exists_mem_map_ofBlock, hmem b]

end Spec

/-- The IPv6 expansions of a pool are exact: a prefix or a range expands to its
addresses; a delegation, which never panics, to the sub-prefixes of the
delegated length in the parent, in order, disjoint and covering it; a prefix
range to the aligned networks from its start to below its end. None holds more
than `MAX_POOL_SIZE` values. The prefix range panics, exactly when both
endpoints are `::/0`: its step `1u128 << 128` overflows before the endpoints
are compared. -/
theorem ipv6_pool_expansions_exact
    (parseIpNetwork : String → Except String IpNetwork)
    (parseIpv6Network : String → Except String Ipv6Network)
    (parseIpv6Addr : String → Except String (Fin (2 ^ 128))) :
    (∀ network l, expandIpv6Prefix parseIpNetwork network = .ok l →
      ∃ v6, parseIpNetwork network = .ok (.V6 v6) ∧ (∀ a, a ∈ l ↔ a ∈ v6.block) ∧ l.Nodup ∧
        l.length ≤ maxPoolSize) ∧
    (∀ startS endS l, expandIpv6Range parseIpv6Addr startS endS = .ok l →
      ∃ a b : Fin (2 ^ 128), parseIpv6Addr startS = .ok a ∧ parseIpv6Addr endS = .ok b ∧
        (∀ x, x ∈ l ↔ a.val ≤ x ∧ x < b.val) ∧ l.Nodup ∧ l.length ≤ maxPoolSize) ∧
    (∀ parent d, expandIpv6PrefixDelegation parseIpNetwork parent d ≠ none) ∧
    (∀ parent d l, expandIpv6PrefixDelegation parseIpNetwork parent d = some (.ok l) →
      ∃ P : Ipv6Network, parseIpNetwork parent = .ok (.V6 P) ∧
        l.length = 2 ^ (d.toNat - P.prefixLen) ∧ l.length ≤ maxPoolSize ∧
        l.Pairwise (fun x y => x.network < y.network) ∧
        (∀ x ∈ l, x.prefixLen = d.toNat ∧ x.ip = x.network) ∧
        (∀ b : Block 128, (∃ x ∈ l, x.block = b) ↔ b.len = d.toNat ∧ b ⊆ P.block) ∧
        l.Pairwise (fun x y => ∀ a, a ∈ x.block → a ∉ y.block) ∧
        ∀ a, a ∈ P.block ↔ ∃ x ∈ l, a ∈ x.block) ∧
    (∀ startS endS, expandIpv6PrefixRange parseIpv6Network startS endS = none ↔
      ∃ m n : Ipv6Network, parseIpv6Network startS = .ok m ∧ parseIpv6Network endS = .ok n ∧
        m.prefixLen = 0 ∧ n.prefixLen = 0 ∧ m.ip = 0 ∧ n.ip = 0) ∧
    ∀ startS endS l, expandIpv6PrefixRange parseIpv6Network startS endS = some (.ok l) →
      ∃ m n : Ipv6Network, parseIpv6Network startS = .ok m ∧ parseIpv6Network endS = .ok n ∧
        l.length ≤ maxPoolSize ∧ l.Pairwise (fun x y => x.network < y.network) ∧
        (∀ x ∈ l, x.prefixLen = m.prefixLen ∧ x.ip = x.network) ∧
        ∀ b : Block 128, (∃ x ∈ l, x.block = b) ↔
          b.len = m.prefixLen ∧ m.network ≤ b.addr ∧ b.addr < n.network :=
  ⟨expandIpv6Prefix_ok, expandIpv6Range_ok, expandIpv6PrefixDelegation_ne_none,
    expandIpv6PrefixDelegation_ok, expandIpv6PrefixRange_eq_none_iff, expandIpv6PrefixRange_ok⟩


/-- `"::/0"` read, as `ipnetwork` reads it, as the network `::` of length `0`:
the prefix range of two such endpoints panics. -/
theorem ipv6_pool_expansions_exact_zero_endpoints :
    expandIpv6PrefixRange
      (fun s => if s = "::/0" then .ok ⟨0, 0, by decide, by decide⟩ else .error "invalid cidr format")
      "::/0" "::/0" = none :=
  ((ipv6_pool_expansions_exact (fun _ => .error "") _ (fun _ => .error "")).2.2.2.2.1 "::/0" "::/0").2
    ⟨_, _, if_pos rfl, if_pos rfl, rfl, rfl, rfl, rfl⟩

end Carbide.Db

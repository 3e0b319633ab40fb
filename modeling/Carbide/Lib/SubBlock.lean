import Carbide.Lib.Block

/-!
# The aligned sub-blocks of a block, and first fit

A block `P` splits into `2 ^ (L - P.len)` blocks of length `L ≥ P.len`;
`candidate P hL k` is the `k`-th of them from the base of `P`, built the way an
address scan builds it (the block of length `L` holding the `k`-th step's
address). Every block of length `L` inside `P` is one of them
(`eq_candidate`), in address order (`candidate_addr_lt_iff`).

`LowestFree P L Free c` says that `c` is the lowest such block all of whose
addresses are free. A scan that tests the candidates in order with a test that
is `false` exactly on free blocks finds it (`firstFit_eq_some`), or finds none
exactly when none is free (`firstFit_eq_none`).
-/
namespace Carbide.Lib

open Block

variable {w : Nat}

/-- `c` is the lowest block of length `L` inside `P` whose addresses are all free. -/
structure LowestFree (P : Block w) (L : Nat) (Free : Nat → Prop) (c : Block w) : Prop where
  len_eq : c.len = L
  sub : c ⊆ P
  free : ∀ x ∈ c, Free x
  lowest : ∀ c' : Block w, c'.len = L → c' ⊆ P → c'.addr < c.addr → ∃ x ∈ c', ¬ Free x

/-- No block of length `L` inside `P` is free. -/
def NoneFree (P : Block w) (L : Nat) (Free : Nat → Prop) : Prop :=
  ∀ c' : Block w, c'.len = L → c' ⊆ P → ∃ x ∈ c', ¬ Free x

/-- Only the addresses inside `P` matter to `LowestFree`. -/
theorem lowestFree_congr {P c : Block w} {L : Nat} {F G : Nat → Prop} (h : ∀ x ∈ P, F x ↔ G x) :
    LowestFree P L F c ↔ LowestFree P L G c := by
  have hin : ∀ {b : Block w}, b ⊆ P → ∀ x ∈ b, x ∈ P := fun hb => Block.sub_iff.1 hb
  constructor
  · rintro ⟨hl, hs, hf, hlow⟩
    refine ⟨hl, hs, fun x hx => (h x (hin hs x hx)).1 (hf x hx), fun c' hc' hs' hlt => ?_⟩
    obtain ⟨x, hx, hnot⟩ := hlow c' hc' hs' hlt
    exact ⟨x, hx, fun hg => hnot ((h x (hin hs' x hx)).2 hg)⟩
  · rintro ⟨hl, hs, hf, hlow⟩
    refine ⟨hl, hs, fun x hx => (h x (hin hs x hx)).2 (hf x hx), fun c' hc' hs' hlt => ?_⟩
    obtain ⟨x, hx, hnot⟩ := hlow c' hc' hs' hlt
    exact ⟨x, hx, fun hg => hnot ((h x (hin hs' x hx)).1 hg)⟩

theorem noneFree_congr {P : Block w} {L : Nat} {F G : Nat → Prop} (h : ∀ x ∈ P, F x ↔ G x) :
    NoneFree P L F ↔ NoneFree P L G := by
  have hin : ∀ {b : Block w}, b ⊆ P → ∀ x ∈ b, x ∈ P := fun hb => Block.sub_iff.1 hb
  constructor
  · intro hn c' hc' hs'
    obtain ⟨x, hx, hnot⟩ := hn c' hc' hs'
    exact ⟨x, hx, fun hg => hnot ((h x (hin hs' x hx)).2 hg)⟩
  · intro hn c' hc' hs'
    obtain ⟨x, hx, hnot⟩ := hn c' hc' hs'
    exact ⟨x, hx, fun hg => hnot ((h x (hin hs' x hx)).1 hg)⟩

/-- The `k`-th block of length `L` from the base of `P`. The step address is
reduced below `2 ^ w`, which changes nothing for `k < 2 ^ (L - P.len)`. -/
def candidate (P : Block w) {L : Nat} (hL : L ≤ w) (k : Nat) : Block w :=
  ofAddr ((P.addr + k * 2 ^ (w - L)) % 2 ^ w) L hL (Nat.mod_lt _ (Nat.two_pow_pos w))

section Candidate

variable {P : Block w} {L : Nat} {hL : L ≤ w}

@[simp] theorem len_candidate (k : Nat) : (candidate P hL k).len = L := rfl

/-- `P` is `2 ^ (L - P.len)` blocks of length `L`. -/
theorem size_eq_count_mul (hLw : L ≤ w) (hPL : P.len ≤ L) :
    P.size = 2 ^ (L - P.len) * 2 ^ (w - L) := by
  rw [size, ← Nat.pow_add]
  congr 1
  omega

/-- Each step up to the count stays inside `P`. -/
theorem step_le_size {k : Nat} (hLw : L ≤ w) (hPL : P.len ≤ L) (hk : k < 2 ^ (L - P.len)) :
    k * 2 ^ (w - L) + 2 ^ (w - L) ≤ P.size := by
  have h := Nat.mul_le_mul_right (2 ^ (w - L)) hk
  rw [Nat.succ_mul] at h
  rw [size_eq_count_mul hLw hPL]
  exact h

/-- A step address below `2 ^ w` is the candidate's base. -/
theorem candidate_addr_of_lt {k : Nat} (hPL : P.len ≤ L) (hlt : P.addr + k * 2 ^ (w - L) < 2 ^ w) :
    (candidate P hL k).addr = P.addr + k * 2 ^ (w - L) := by
  have hdvd : 2 ^ (w - L) ∣ P.addr + k * 2 ^ (w - L) :=
    Nat.dvd_add (P.dvd_of_len_le hPL) (Nat.dvd_mul_left _ _)
  show (P.addr + k * 2 ^ (w - L)) % 2 ^ w / 2 ^ (w - L) * 2 ^ (w - L) = _
  rw [Nat.mod_eq_of_lt hlt, Nat.div_mul_cancel hdvd]

theorem candidate_addr {k : Nat} (hPL : P.len ≤ L) (hk : k < 2 ^ (L - P.len)) :
    (candidate P hL k).addr = P.addr + k * 2 ^ (w - L) := by
  have hstep := step_le_size hL hPL hk
  have hend := P.addr_add_size_le
  apply candidate_addr_of_lt hPL
  have := Nat.two_pow_pos (w - L)
  omega

theorem candidate_sub {k : Nat} (hPL : P.len ≤ L) (hk : k < 2 ^ (L - P.len)) :
    candidate P hL k ⊆ P := by
  have hstep := step_le_size hL hPL hk
  rw [sub_def, candidate_addr hPL hk]
  simp only [size, len_candidate] at hstep ⊢
  omega

/-- The candidates are in address order. -/
theorem candidate_addr_lt_iff {k m : Nat} (hPL : P.len ≤ L) (hk : k < 2 ^ (L - P.len))
    (hm : m < 2 ^ (L - P.len)) : (candidate P hL k).addr < (candidate P hL m).addr ↔ k < m := by
  rw [candidate_addr hPL hk, candidate_addr hPL hm, Nat.add_lt_add_iff_left,
    Nat.mul_lt_mul_right (Nat.two_pow_pos _)]

/-- Every block of length `L` inside `P` is a candidate. -/
theorem eq_candidate (hL : L ≤ w) (hPL : P.len ≤ L) {c : Block w} (hc : c.len = L) (hsub : c ⊆ P) :
    ∃ k < 2 ^ (L - P.len), c = candidate P hL k := by
  have hcs : c.size = 2 ^ (w - L) := by rw [size, hc]
  have hc_dvd : 2 ^ (w - L) ∣ c.addr := hcs ▸ Nat.dvd_of_mod_eq_zero c.aligned
  have hP_dvd : 2 ^ (w - L) ∣ P.addr := P.dvd_of_len_le hPL
  rw [sub_def, hcs] at hsub
  -- the offset of `c` in `P` is a whole number of steps
  obtain ⟨k, hk⟩ : 2 ^ (w - L) ∣ c.addr - P.addr := Nat.dvd_sub hc_dvd hP_dvd
  have hbound : (k + 1) * 2 ^ (w - L) ≤ 2 ^ (L - P.len) * 2 ^ (w - L) := by
    rw [Nat.succ_mul, ← size_eq_count_mul hL hPL, Nat.mul_comm]
    omega
  have hkn : k < 2 ^ (L - P.len) :=
    Nat.lt_of_succ_le (Nat.le_of_mul_le_mul_right hbound (Nat.two_pow_pos _))
  refine ⟨k, hkn, ext' ?_ (by rw [hc]; rfl)⟩
  rw [candidate_addr hPL hkn, Nat.mul_comm k]
  omega

/-- The `n` first candidates are the blocks of length `L` whose base lies within
`n` steps above the base of `P`, as long as those steps stay below `2 ^ w`. -/
theorem mem_map_candidate_range {n : Nat} (hPL : P.len ≤ L) (hn : P.addr + n * 2 ^ (w - L) ≤ 2 ^ w)
    {b : Block w} :
    b ∈ (List.range n).map (candidate P hL) ↔
      b.len = L ∧ P.addr ≤ b.addr ∧ b.addr < P.addr + n * 2 ^ (w - L) := by
  have hstep := Nat.two_pow_pos (w - L)
  -- the `k`-th step address, for `k < n`, stays below `2 ^ w`
  have hlt : ∀ k < n, P.addr + k * 2 ^ (w - L) < 2 ^ w := fun k hk => by
    have := Nat.mul_le_mul_right (2 ^ (w - L)) hk
    rw [Nat.succ_mul] at this
    omega
  constructor
  · intro hb
    obtain ⟨k, hk, rfl⟩ := List.mem_map.1 hb
    rw [List.mem_range] at hk
    have hkn := Nat.mul_lt_mul_of_pos_right hk hstep
    rw [candidate_addr_of_lt hPL (hlt k hk)]
    exact ⟨rfl, by omega, by omega⟩
  · rintro ⟨hlen, hlo, hhi⟩
    -- the offset of `b` from `P` is a whole number of steps
    have hb_dvd : 2 ^ (w - L) ∣ b.addr := hlen ▸ Nat.dvd_of_mod_eq_zero b.aligned
    obtain ⟨k, hk⟩ : 2 ^ (w - L) ∣ b.addr - P.addr := Nat.dvd_sub hb_dvd (P.dvd_of_len_le hPL)
    have hkn : k < n := by
      rw [Nat.mul_comm] at hk
      exact (Nat.mul_lt_mul_right hstep).1 (by omega)
    refine List.mem_map.2 ⟨k, List.mem_range.2 hkn, ext' ?_ hlen.symm⟩
    rw [candidate_addr_of_lt hPL (hlt k hkn), Nat.mul_comm k]
    omega

/-- The first candidates rise by whole steps. -/
theorem pairwise_map_candidate_range {n : Nat} (hPL : P.len ≤ L)
    (hn : P.addr + n * 2 ^ (w - L) ≤ 2 ^ w) :
    ((List.range n).map (candidate P hL)).Pairwise fun b c => b.addr < c.addr := by
  have hstep := Nat.two_pow_pos (w - L)
  have hlt : ∀ k < n, P.addr + k * 2 ^ (w - L) < 2 ^ w := fun k hk => by
    have := Nat.mul_le_mul_right (2 ^ (w - L)) hk
    rw [Nat.succ_mul] at this
    omega
  rw [List.pairwise_map]
  refine List.pairwise_lt_range.imp_of_mem fun hi hj hij => ?_
  rw [List.mem_range] at hi hj
  rw [candidate_addr_of_lt hPL (hlt _ hi), candidate_addr_of_lt hPL (hlt _ hj)]
  exact Nat.add_lt_add_left (Nat.mul_lt_mul_of_pos_right hij hstep) _

end Candidate

/-! ## All the blocks of one length inside a block -/

/-- The blocks of length `L` inside `P`, from its base upwards. -/
def candidates (P : Block w) {L : Nat} (hL : L ≤ w) : List (Block w) :=
  (List.range (2 ^ (L - P.len))).map (candidate P hL)

section Candidates

variable {P : Block w} {L : Nat} {hL : L ≤ w}

theorem length_candidates : (candidates P hL).length = 2 ^ (L - P.len) := by
  rw [candidates, List.length_map, List.length_range]

/-- The steps of all candidates end at the end of `P`. -/
theorem addr_add_count_mul (hLw : L ≤ w) (hPL : P.len ≤ L) :
    P.addr + 2 ^ (L - P.len) * 2 ^ (w - L) ≤ 2 ^ w := by
  rw [← size_eq_count_mul hLw hPL]
  exact P.addr_add_size_le

theorem mem_candidates (hPL : P.len ≤ L) {b : Block w} : b ∈ candidates P hL ↔ b.len = L ∧ b ⊆ P := by
  rw [candidates, mem_map_candidate_range hPL (addr_add_count_mul hL hPL), ← size_eq_count_mul hL hPL]
  constructor
  · rintro ⟨hlen, hlo, hhi⟩
    exact ⟨hlen, sub_of_mem_of_len_le b.addr_mem ⟨hlo, hhi⟩ (hlen ▸ hPL)⟩
  · rintro ⟨hlen, hsub⟩
    have := b.size_pos
    rw [sub_def] at hsub
    exact ⟨hlen, hsub.1, by omega⟩

theorem candidates_sorted (hPL : P.len ≤ L) : (candidates P hL).Pairwise fun b c => b.addr < c.addr :=
  pairwise_map_candidate_range hPL (addr_add_count_mul hL hPL)

/-- Blocks of one length in address order share no address. -/
theorem pairwise_disjoint_of_sorted {l : List (Block w)} (hlen : ∀ b ∈ l, b.len = L)
    (hs : l.Pairwise fun b c => b.addr < c.addr) : l.Pairwise fun b c => ∀ a, a ∈ b → a ∉ c :=
  hs.imp_of_mem fun hb hc hlt =>
    disjoint_of_len_eq ((hlen _ hb).trans (hlen _ hc).symm) fun e => Nat.lt_irrefl _ (e ▸ hlt)

/-- The candidates cover `P` and nothing else. -/
theorem mem_iff_exists_mem_candidates (hPL : P.len ≤ L) {a : Nat} :
    a ∈ P ↔ ∃ b ∈ candidates P hL, a ∈ b := by
  constructor
  · intro ha
    -- the block of length `L` around `a`
    let b := ofAddr a L hL (lt_of_mem ha)
    exact ⟨b, (mem_candidates hPL).2 ⟨rfl, sub_of_mem_of_len_le mem_ofAddr ha hPL⟩, mem_ofAddr⟩
  · rintro ⟨b, hb, hab⟩
    exact sub_iff.1 ((mem_candidates hPL).1 hb).2 a hab

end Candidates

/-! ## First fit -/

section FirstFit

variable {P : Block w} {L : Nat} {hL : L ≤ w} {t : Block w → Bool} {Free : Nat → Prop}

/-- A blocked candidate is not free. -/
theorem exists_not_free (ht : ∀ c : Block w, c.len = L → c ⊆ P → (t c = false ↔ ∀ x ∈ c, Free x))
    {c : Block w} (hc : c.len = L) (hsub : c ⊆ P) (hb : t c = true) : ∃ x ∈ c, ¬ Free x := by
  by_contra hfree
  push Not at hfree
  simp [(ht c hc hsub).2 hfree] at hb

variable (ht : ∀ c : Block w, c.len = L → c ⊆ P → (t c = false ↔ ∀ x ∈ c, Free x))
  (hPL : P.len ≤ L)
include ht hPL

/-- Testing the candidates in address order finds the lowest free block. -/
theorem firstFit_eq_some {c : Block w} :
    ((List.range' 0 (2 ^ (L - P.len))).find? fun k => !t (candidate P hL k)).map
      (candidate P hL) = some c ↔ LowestFree P L Free c := by
  constructor
  · intro h
    obtain ⟨m, hfind, rfl⟩ := Option.map_eq_some_iff.1 h
    obtain ⟨hm, hmem, hbefore⟩ := List.find?_range'_eq_some.1 hfind
    have hmn : m < 2 ^ (L - P.len) := by simpa using hmem
    refine ⟨rfl, candidate_sub hPL hmn, (ht _ rfl (candidate_sub hPL hmn)).1 (by simpa using hm),
      fun c' hc' hsub hlt => ?_⟩
    obtain ⟨k, hk, rfl⟩ := eq_candidate hL hPL hc' hsub
    -- a lower candidate comes earlier in the scan, and the scan passed it
    have hkm : k < m := (candidate_addr_lt_iff hPL hk hmn).1 hlt
    exact exists_not_free ht rfl hsub (by simpa using hbefore k (Nat.zero_le _) hkm)
  · intro hc
    obtain ⟨m, hmn, rfl⟩ := eq_candidate hL hPL hc.len_eq hc.sub
    refine Option.map_eq_some_iff.2 ⟨m, List.find?_range'_eq_some.2 ⟨?_, ?_, ?_⟩, rfl⟩
    · simpa using (ht _ rfl hc.sub).2 hc.free
    · simpa using hmn
    · intro k _ hkm
      have hkn : k < 2 ^ (L - P.len) := by omega
      have hsub : candidate P hL k ⊆ P := candidate_sub hPL hkn
      obtain ⟨x, hx, hnot⟩ := hc.lowest _ rfl hsub ((candidate_addr_lt_iff hPL hkn hmn).2 hkm)
      have hblocked : t (candidate P hL k) ≠ false := fun hf => hnot ((ht _ rfl hsub).1 hf x hx)
      simpa using hblocked

/-- The scan finds nothing exactly when no block is free. -/
theorem firstFit_eq_none :
    ((List.range' 0 (2 ^ (L - P.len))).find? fun k => !t (candidate P hL k)).map
      (candidate P hL) = none ↔ NoneFree P L Free := by
  rw [Option.map_eq_none_iff, List.find?_range'_eq_none]
  constructor
  · intro h c' hc' hsub
    obtain ⟨k, hk, rfl⟩ := eq_candidate hL hPL hc' hsub
    exact exists_not_free ht rfl hsub (by simpa using h k (Nat.zero_le _) (by omega))
  · intro h k _ hk
    have hsub : candidate P hL k ⊆ P := candidate_sub hPL (by omega)
    obtain ⟨x, hx, hnot⟩ := h _ rfl hsub
    have hblocked : t (candidate P hL k) ≠ false := fun hf => hnot ((ht _ rfl hsub).1 hf x hx)
    simpa using hblocked

end FirstFit

end Carbide.Lib

import Mathlib

/-!
# Aligned address blocks

A block of width `w` is a CIDR prefix in its textbook meaning: a length
`len ≤ w` and a base address whose `w - len` low bits are zero. It covers the
`2 ^ (w - len)` addresses `addr, …, addr + 2 ^ (w - len) - 1`; `b ⊆ c` is
inclusion of those ranges.

* `nested_or_disjoint`: two blocks are nested or share no address.
* `lo`, `hi`: the halves of a block shorter than `w`; a block strictly inside
  another lies in one of its halves (`sub_lo_or_hi`).
* `parent`, `sibling`: a block longer than `0` and its sibling are the two
  halves of their parent (`mem_parent`), and a block strictly
  containing one of them contains the parent (`parent_sub_of_ssub`).
* The order is lexicographic on `(addr, len)`: a block sorts before every
  block it contains (`le_of_sub`) and those all sort before its last address
  (`le_last_of_sub`); a block sorting between `b` and `b.last` starts inside `b`
  (`addr_mem_of_le_last`).
* A family is `Canonical` when no member contains another and no two members
  are siblings. It never covers the parent of a member
  (`not_covers_parent`), and its members are exactly the maximal blocks of its
  cover (`Canonical.mem_iff`).
-/
namespace Carbide.Lib

/-- A block: `len ≤ w` leading bits of `addr`, the remaining bits zero. -/
structure Block (w : Nat) where
  addr : Nat
  len : Nat
  len_le : len ≤ w
  addr_lt : addr < 2 ^ w
  aligned : addr % 2 ^ (w - len) = 0
  deriving DecidableEq

namespace Block

variable {w : Nat}

def size (b : Block w) : Nat := 2 ^ (w - b.len)

/-- The block's index among the blocks of its length. -/
def idx (b : Block w) : Nat := b.addr / b.size

instance : Membership Nat (Block w) := ⟨fun b a => b.addr ≤ a ∧ a < b.addr + b.size⟩

instance (a : Nat) (b : Block w) : Decidable (a ∈ b) := inferInstanceAs (Decidable (_ ∧ _))

instance : HasSubset (Block w) :=
  ⟨fun b c => c.addr ≤ b.addr ∧ b.addr + b.size ≤ c.addr + c.size⟩

instance (b c : Block w) : Decidable (b ⊆ c) := inferInstanceAs (Decidable (_ ∧ _))

theorem mem_def {a : Nat} {b : Block w} : a ∈ b ↔ b.addr ≤ a ∧ a < b.addr + b.size := Iff.rfl

theorem sub_def {b c : Block w} :
    b ⊆ c ↔ c.addr ≤ b.addr ∧ b.addr + b.size ≤ c.addr + c.size := Iff.rfl

theorem ext' {b c : Block w} (h1 : b.addr = c.addr) (h2 : b.len = c.len) : b = c := by
  cases b; cases c; simp only at h1 h2; subst h1 h2; rfl

theorem size_pos (b : Block w) : 0 < b.size := Nat.two_pow_pos _

theorem addr_eq (b : Block w) : b.addr = b.idx * b.size :=
  (Nat.div_mul_cancel (Nat.dvd_of_mod_eq_zero b.aligned)).symm

theorem pow_eq (b : Block w) : 2 ^ w = 2 ^ b.len * b.size := by
  rw [size, ← Nat.pow_add]; congr 1; have := b.len_le; omega

theorem idx_lt (b : Block w) : b.idx < 2 ^ b.len := by
  have h := b.addr_lt
  rw [b.addr_eq, b.pow_eq] at h
  exact Nat.lt_of_mul_lt_mul_right h

theorem addr_add_size_le (b : Block w) : b.addr + b.size ≤ 2 ^ w := by
  have h : (b.idx + 1) * b.size ≤ 2 ^ b.len * b.size := Nat.mul_le_mul_right _ b.idx_lt
  rw [b.pow_eq, b.addr_eq]; rw [Nat.succ_mul] at h; exact h

/-- Two blocks of one length are equal when their indices are. -/
theorem ext_idx {b c : Block w} (h1 : b.len = c.len) (h2 : b.idx = c.idx) : b = c := by
  have hs : b.size = c.size := by simp only [size, h1]
  exact ext' (by rw [b.addr_eq, c.addr_eq, h2, hs]) h1

theorem mem_iff {a : Nat} {b : Block w} : a ∈ b ↔ a / b.size = b.idx := by
  rw [mem_def, Nat.div_eq_iff b.size_pos]
  have := b.addr_eq
  have := b.size_pos
  omega

theorem addr_mem (b : Block w) : b.addr ∈ b := ⟨Nat.le_refl _, by have := b.size_pos; omega⟩

theorem lt_of_mem {a : Nat} {b : Block w} (h : a ∈ b) : a < 2 ^ w := by
  have := b.addr_add_size_le; rw [mem_def] at h; omega

theorem sub_iff {b c : Block w} : b ⊆ c ↔ ∀ a, a ∈ b → a ∈ c := by
  constructor
  · rintro ⟨h1, h2⟩ a ⟨h3, h4⟩
    exact ⟨by omega, by omega⟩
  · intro h
    have hs := b.size_pos
    have h1 := h b.addr b.addr_mem
    have h2 := h (b.addr + b.size - 1) ⟨by omega, by omega⟩
    rw [mem_def] at h1 h2
    exact ⟨h1.1, by omega⟩

theorem sub_trans {b c d : Block w} (h1 : b ⊆ c) (h2 : c ⊆ d) : b ⊆ d :=
  sub_iff.2 fun a ha => sub_iff.1 h2 a (sub_iff.1 h1 a ha)

theorem size_le_iff {b c : Block w} : b.size ≤ c.size ↔ c.len ≤ b.len := by
  have := b.len_le; have := c.len_le
  rw [size, size, Nat.pow_le_pow_iff_right (by decide)]
  omega

theorem len_le_of_sub {b c : Block w} (h : b ⊆ c) : c.len ≤ b.len :=
  size_le_iff.1 (by rw [sub_def] at h; omega)

/-- A longer block's size divides a shorter one's. -/
theorem size_mul {b c : Block w} (h : c.len ≤ b.len) : c.size = b.size * 2 ^ (b.len - c.len) := by
  rw [size, size, ← Nat.pow_add]; congr 1; have := b.len_le; omega

theorem div_size_of_le (a : Nat) {b c : Block w} (h : c.len ≤ b.len) :
    a / c.size = a / b.size / 2 ^ (b.len - c.len) := by
  rw [size_mul h, Nat.div_div_eq_div_mul]

theorem sub_iff_idx {b c : Block w} :
    b ⊆ c ↔ c.len ≤ b.len ∧ b.idx / 2 ^ (b.len - c.len) = c.idx := by
  constructor
  · intro h
    have hl := len_le_of_sub h
    refine ⟨hl, ?_⟩
    have hm := mem_iff.1 (sub_iff.1 h b.addr b.addr_mem)
    rwa [div_size_of_le _ hl] at hm
  · rintro ⟨hl, he⟩
    refine sub_iff.2 fun a ha => mem_iff.2 ?_
    rw [div_size_of_le _ hl, mem_iff.1 ha, he]

theorem eq_of_sub_of_len {b c : Block w} (h : b ⊆ c) (hl : b.len = c.len) : b = c := by
  have := (sub_iff_idx.1 h).2
  rw [hl, Nat.sub_self, Nat.pow_zero, Nat.div_one] at this
  exact ext_idx hl this

theorem nested_or_disjoint (b c : Block w) : b ⊆ c ∨ c ⊆ b ∨ ∀ a, a ∈ b → a ∉ c := by
  rcases Nat.le_total c.len b.len with h | h
  · by_cases e : b.idx / 2 ^ (b.len - c.len) = c.idx
    · exact .inl (sub_iff_idx.2 ⟨h, e⟩)
    · refine .inr (.inr fun a ha hc => e ?_)
      rw [mem_iff] at ha hc
      rw [← ha, ← hc, div_size_of_le a h]
  · by_cases e : c.idx / 2 ^ (c.len - b.len) = b.idx
    · exact .inr (.inl (sub_iff_idx.2 ⟨h, e⟩))
    · refine .inr (.inr fun a ha hc => e ?_)
      rw [mem_iff] at ha hc
      rw [← ha, ← hc, div_size_of_le a h]

/-- Blocks that share an address are nested. -/
theorem nested_of_mem {b c : Block w} {a : Nat} (hb : a ∈ b) (hc : a ∈ c) : b ⊆ c ∨ c ⊆ b := by
  rcases nested_or_disjoint b c with h | h | h
  · exact .inl h
  · exact .inr h
  · exact absurd hc (h a hb)

/-- Two different blocks of one length share no address. -/
theorem disjoint_of_len_eq {b c : Block w} (hl : b.len = c.len) (hne : b ≠ c) :
    ∀ a, a ∈ b → a ∉ c := by
  intro a hb hc
  rcases nested_of_mem hb hc with h | h
  · exact hne (eq_of_sub_of_len h hl)
  · exact hne (eq_of_sub_of_len h hl.symm).symm

/-- A block that shares an address with a block no longer than itself lies in it. -/
theorem sub_of_mem_of_len_le {a : Nat} {b P : Block w} (hb : a ∈ b) (hP : a ∈ P)
    (hl : P.len ≤ b.len) : b ⊆ P := by
  rcases nested_of_mem hb hP with h | h
  · exact h
  · -- `P ⊆ b` with `P` no longer: the two are the same block
    have e := eq_of_sub_of_len h (Nat.le_antisymm hl (len_le_of_sub h))
    subst e
    exact h

/-! ## Halves -/

theorem div_pow_succ (x k : Nat) : x / 2 ^ (k + 1) = x / 2 ^ k / 2 := by
  rw [Nat.pow_succ, Nat.div_div_eq_div_mul]

theorem dvd_of_len_le (b : Block w) {n : Nat} (h : b.len ≤ n) : 2 ^ (w - n) ∣ b.addr :=
  Nat.dvd_trans (Nat.pow_dvd_pow 2 (by omega)) (Nat.dvd_of_mod_eq_zero b.aligned)

/-- The lower half: the same base address, one bit longer. -/
def lo (b : Block w) (h : b.len < w) : Block w where
  addr := b.addr
  len := b.len + 1
  len_le := h
  addr_lt := b.addr_lt
  aligned := Nat.mod_eq_zero_of_dvd (b.dvd_of_len_le (Nat.le_succ _))

theorem half_size (b : Block w) (h : b.len < w) : 2 ^ (w - (b.len + 1)) * 2 = b.size := by
  rw [size, ← Nat.pow_succ]; congr 1; omega

/-- The upper half: the base address with the next bit set. -/
def hi (b : Block w) (h : b.len < w) : Block w where
  addr := b.addr + 2 ^ (w - (b.len + 1))
  len := b.len + 1
  len_le := h
  addr_lt := by
    have := b.addr_add_size_le; have := b.half_size h
    have := Nat.two_pow_pos (w - (b.len + 1)); omega
  aligned := by
    rw [Nat.add_mod_right]; exact Nat.mod_eq_zero_of_dvd (b.dvd_of_len_le (Nat.le_succ _))

@[simp] theorem len_lo (b : Block w) (h : b.len < w) : (b.lo h).len = b.len + 1 := rfl

@[simp] theorem len_hi (b : Block w) (h : b.len < w) : (b.hi h).len = b.len + 1 := rfl

theorem size_lo (b : Block w) (h : b.len < w) : (b.lo h).size * 2 = b.size := b.half_size h

theorem idx_lo (b : Block w) (h : b.len < w) : (b.lo h).idx = 2 * b.idx := by
  have e : b.addr = 2 * b.idx * (b.lo h).size := by
    rw [b.addr_eq, ← b.size_lo h]; ring
  show b.addr / (b.lo h).size = _
  rw [e, Nat.mul_div_cancel _ (b.lo h).size_pos]

theorem idx_hi (b : Block w) (h : b.len < w) : (b.hi h).idx = 2 * b.idx + 1 := by
  have e : (b.hi h).addr = (2 * b.idx + 1) * (b.hi h).size := by
    simp only [hi, size]; rw [b.addr_eq, ← b.half_size h]; ring
  rw [idx, e, Nat.mul_div_cancel _ (b.hi h).size_pos]

theorem lo_sub (b : Block w) (h : b.len < w) : b.lo h ⊆ b :=
  sub_iff_idx.2 ⟨by simp, by simp [idx_lo]⟩

theorem hi_sub (b : Block w) (h : b.len < w) : b.hi h ⊆ b :=
  sub_iff_idx.2 ⟨by simp, by simp only [idx_hi, len_hi, Nat.add_sub_cancel_left, Nat.pow_one]; omega⟩

theorem lo_disjoint_hi (b : Block w) (h : b.len < w) {a : Nat} (h1 : a ∈ b.lo h) : a ∉ b.hi h := by
  intro h2
  rw [mem_iff, idx_lo] at h1
  rw [mem_iff, idx_hi] at h2
  have e : (b.lo h).size = (b.hi h).size := rfl
  rw [e] at h1
  omega

/-- A block strictly inside `b` lies in one of its halves. -/
theorem sub_lo_or_hi {b c : Block w} (hc : c ⊆ b) (hne : c ≠ b) :
    ∃ h : b.len < w, c ⊆ b.lo h ∨ c ⊆ b.hi h := by
  obtain ⟨hl, he⟩ := sub_iff_idx.1 hc
  have hlt : b.len < c.len := by
    rcases Nat.lt_or_ge b.len c.len with h | h
    · exact h
    · exact absurd (eq_of_sub_of_len hc (by omega)) hne
  have hw : b.len < w := Nat.lt_of_lt_of_le hlt c.len_le
  have e : c.len - b.len = c.len - (b.len + 1) + 1 := by omega
  rw [e, div_pow_succ] at he
  refine ⟨hw, ?_⟩
  rcases Nat.mod_two_eq_zero_or_one (c.idx / 2 ^ (c.len - (b.len + 1))) with hp | hp
  · exact .inl (sub_iff_idx.2 ⟨by simpa using hlt, by simp only [idx_lo, len_lo]; omega⟩)
  · exact .inr (sub_iff_idx.2 ⟨by simpa using hlt, by simp only [idx_hi, len_hi]; omega⟩)

/-! ## Parent and sibling -/

theorem double_size (b : Block w) (h : 0 < b.len) : 2 * b.size = 2 ^ (w - (b.len - 1)) := by
  rw [size, ← Nat.pow_succ']; congr 1; have := b.len_le; omega

/-- The block one bit shorter that contains `b` (ipnet's `supernet`). -/
def parent (b : Block w) (h : 0 < b.len) : Block w where
  addr := b.addr / (2 * b.size) * (2 * b.size)
  len := b.len - 1
  len_le := by have := b.len_le; omega
  addr_lt := Nat.lt_of_le_of_lt (Nat.div_mul_le_self _ _) b.addr_lt
  aligned := by rw [← b.double_size h]; exact Nat.mul_mod_left _ _

/-- Flipping the last prefix bit of the base address flips the low bit of the index. -/
theorem addr_xor_size (b : Block w) : b.addr ^^^ b.size = (b.idx ^^^ 1) * b.size := by
  rw [b.addr_eq, size, ← Nat.shiftLeft_eq, ← Nat.shiftLeft_eq, Nat.shiftLeft_xor_distrib,
    Nat.shiftLeft_eq, Nat.shiftLeft_eq, Nat.one_mul]

/-- The other half of the parent: the last prefix bit flipped. -/
def sibling (b : Block w) (h : 0 < b.len) : Block w where
  addr := b.addr ^^^ b.size
  len := b.len
  len_le := b.len_le
  addr_lt := by
    have hx : b.idx ^^^ 1 < 2 ^ b.len :=
      Nat.xor_lt_two_pow b.idx_lt (Nat.one_lt_two_pow (by omega))
    rw [b.addr_xor_size, b.pow_eq]
    exact Nat.mul_lt_mul_of_pos_right hx b.size_pos
  aligned := by rw [b.addr_xor_size]; exact Nat.mul_mod_left _ _

@[simp] theorem len_parent (b : Block w) (h : 0 < b.len) : (b.parent h).len = b.len - 1 := rfl

@[simp] theorem len_sibling (b : Block w) (h : 0 < b.len) : (b.sibling h).len = b.len := rfl

theorem size_parent (b : Block w) (h : 0 < b.len) : (b.parent h).size = 2 * b.size := by
  rw [b.double_size h]; rfl

theorem size_sibling (b : Block w) (h : 0 < b.len) : (b.sibling h).size = b.size := rfl

theorem idx_parent (b : Block w) (h : 0 < b.len) : (b.parent h).idx = b.idx / 2 := by
  show b.addr / (2 * b.size) * (2 * b.size) / (b.parent h).size = _
  rw [size_parent, Nat.mul_div_cancel _ (by have := b.size_pos; omega), Nat.mul_comm 2,
    ← Nat.div_div_eq_div_mul]; rfl

theorem idx_sibling (b : Block w) (h : 0 < b.len) : (b.sibling h).idx = b.idx ^^^ 1 := by
  show (b.addr ^^^ b.size) / b.size = _
  rw [b.addr_xor_size, Nat.mul_div_cancel _ b.size_pos]

theorem xor_one_cases (x : Nat) : (x % 2 = 0 ∧ x ^^^ 1 = x + 1) ∨ (x % 2 = 1 ∧ x ^^^ 1 = x - 1) := by
  rcases Nat.even_or_odd x with h | h
  · exact .inl ⟨Nat.even_iff.1 h, Nat.xor_one_of_even h⟩
  · exact .inr ⟨Nat.odd_iff.1 h, Nat.xor_one_of_odd h⟩

theorem sibling_sibling (b : Block w) (h : 0 < b.len) :
    (b.sibling h).sibling (by simpa using h) = b :=
  ext_idx rfl (by rw [idx_sibling, idx_sibling, Nat.xor_assoc, Nat.xor_self, Nat.xor_zero])

theorem sibling_ne (b : Block w) (h : 0 < b.len) : b.sibling h ≠ b := fun e => by
  have := congrArg idx e
  rw [idx_sibling] at this
  rcases xor_one_cases b.idx with ⟨_, hx⟩ | ⟨_, hx⟩ <;> omega

theorem parent_sibling (b : Block w) (h : 0 < b.len) :
    (b.sibling h).parent (by simpa using h) = b.parent h :=
  ext_idx (by simp) (by
    rw [idx_parent, idx_parent, idx_sibling]
    rcases xor_one_cases b.idx with ⟨_, hx⟩ | ⟨_, hx⟩ <;> omega)

theorem mem_parent (b : Block w) (h : 0 < b.len) {a : Nat} :
    a ∈ b.parent h ↔ a ∈ b ∨ a ∈ b.sibling h := by
  rw [mem_iff, mem_iff, mem_iff, idx_parent, idx_sibling, size_parent, size_sibling,
    Nat.mul_comm 2, ← Nat.div_div_eq_div_mul]
  rcases xor_one_cases b.idx with ⟨_, hx⟩ | ⟨_, hx⟩ <;> omega

theorem sibling_disjoint (b : Block w) (h : 0 < b.len) {a : Nat} (h1 : a ∈ b) :
    a ∉ b.sibling h := by
  intro h2
  rw [mem_iff] at h1 h2
  rw [idx_sibling, size_sibling, h1] at h2
  rcases xor_one_cases b.idx with ⟨_, hx⟩ | ⟨_, hx⟩ <;> omega

theorem sub_parent (b : Block w) (h : 0 < b.len) : b ⊆ b.parent h :=
  sub_iff.2 fun _ ha => (b.mem_parent h).2 (.inl ha)

theorem sibling_sub_parent (b : Block w) (h : 0 < b.len) : b.sibling h ⊆ b.parent h :=
  sub_iff.2 fun _ ha => (b.mem_parent h).2 (.inr ha)

/-- A block strictly containing `b` contains its parent. -/
theorem parent_sub_of_ssub {b c : Block w} (hc : b ⊆ c) (hne : b ≠ c) :
    ∃ h : 0 < b.len, b.parent h ⊆ c := by
  obtain ⟨hl, he⟩ := sub_iff_idx.1 hc
  have hlt : c.len < b.len := by
    rcases Nat.lt_or_ge c.len b.len with h | h
    · exact h
    · exact absurd (eq_of_sub_of_len hc (by omega)) hne
  refine ⟨by omega, sub_iff_idx.2 ⟨by simp; omega, ?_⟩⟩
  have e : 2 * 2 ^ (b.len - 1 - c.len) = 2 ^ (b.len - c.len) := by
    rw [← Nat.pow_succ']; congr 1; omega
  rw [len_parent, idx_parent, Nat.div_div_eq_div_mul, e]
  exact he

/-! ## Order -/

/-- ipnet orders networks by address, then by prefix length. -/
def key (b : Block w) : Nat ×ₗ Nat := toLex (b.addr, b.len)

theorem key_injective : Function.Injective (key (w := w)) := fun b c h => by
  simp only [key, toLex_inj, Prod.mk.injEq] at h
  exact ext' h.1 h.2

instance : LinearOrder (Block w) := LinearOrder.lift' key key_injective

theorem le_iff {b c : Block w} : b ≤ c ↔ b.addr < c.addr ∨ b.addr = c.addr ∧ b.len ≤ c.len :=
  Prod.Lex.toLex_le_toLex

/-- A block sorts before every block it contains. -/
theorem le_of_sub {b c : Block w} (h : b ⊆ c) : c ≤ b := by
  have hl := len_le_of_sub h
  rw [sub_def] at h
  rw [le_iff]; omega

/-- The block holding the single address `a`. -/
def single (a : Nat) (h : a < 2 ^ w) : Block w where
  addr := a
  len := w
  len_le := Nat.le_refl w
  addr_lt := h
  aligned := by rw [Nat.sub_self, Nat.pow_zero, Nat.mod_one]

theorem mem_single {a x : Nat} {h : x < 2 ^ w} : a ∈ single x h ↔ a = x := by
  rw [mem_def]; simp only [single, size, Nat.sub_self, Nat.pow_zero]; omega

theorem single_sub {x : Nat} {h : x < 2 ^ w} {b : Block w} : single x h ⊆ b ↔ x ∈ b := by
  rw [sub_iff]; simp only [mem_single, forall_eq]

/-- The single-address block at the last address of `b`. -/
def last (b : Block w) : Block w :=
  single (b.addr + b.size - 1) (by have := b.addr_add_size_le; have := b.size_pos; omega)

theorem le_last_of_sub {b c : Block w} (h : c ⊆ b) : c ≤ b.last := by
  have := c.size_pos; have := c.len_le
  rw [sub_def] at h
  rw [le_iff]; simp only [last, single]; omega

/-- A block that sorts between `b` and `b.last` starts inside `b`. -/
theorem addr_mem_of_le_last {b c : Block w} (h1 : b ≤ c) (h2 : c ≤ b.last) : c.addr ∈ b := by
  have := b.size_pos
  rw [le_iff] at h1 h2
  simp only [last, single] at h2
  rw [mem_def]; omega

/-! ## The block of an address -/

/-- The block of length `len` holding `a`: its base clears the low `w - len` bits
of `a`. -/
def ofAddr (a len : Nat) (hlen : len ≤ w) (ha : a < 2 ^ w) : Block w where
  addr := a / 2 ^ (w - len) * 2 ^ (w - len)
  len := len
  len_le := hlen
  addr_lt := lt_of_le_of_lt (Nat.div_mul_le_self _ _) ha
  aligned := Nat.mul_mod_left _ _

theorem mem_ofAddr {a len : Nat} {hlen : len ≤ w} {ha : a < 2 ^ w} : a ∈ ofAddr a len hlen ha := by
  have hd := Nat.div_add_mod a (2 ^ (w - len))
  have hm := Nat.mod_lt a (Nat.two_pow_pos (w - len))
  rw [mem_def]
  simp only [ofAddr, size]
  rw [Nat.mul_comm]
  omega

/-- An aligned address is the base of its block. -/
theorem ofAddr_addr {a len : Nat} {hlen : len ≤ w} {ha : a < 2 ^ w} (h : a % 2 ^ (w - len) = 0) :
    (ofAddr a len hlen ha).addr = a :=
  Nat.div_mul_cancel (Nat.dvd_of_mod_eq_zero h)

/-- Two blocks share an address exactly when one holds the other's base. -/
theorem overlap_iff {b c : Block w} : (b.addr ∈ c ∨ c.addr ∈ b) ↔ ∃ a, a ∈ b ∧ a ∈ c := by
  constructor
  · rintro (h | h)
    · exact ⟨b.addr, b.addr_mem, h⟩
    · exact ⟨c.addr, h, c.addr_mem⟩
  · rintro ⟨a, hb, hc⟩
    rcases nested_of_mem hb hc with h | h
    · exact .inl (sub_iff.1 h _ b.addr_mem)
    · exact .inr (sub_iff.1 h _ c.addr_mem)

/-! ## Canonical families -/

/-- No member contains another, and no member's sibling is a member. -/
structure Canonical (F : Block w → Prop) : Prop where
  antichain : ∀ b c, F b → F c → b ⊆ c → b = c
  no_sibling : ∀ b (h : 0 < b.len), F b → ¬ F (b.sibling h)

/-- Every address of `B` lies in a member. -/
def Covers (F : Block w → Prop) (B : Block w) : Prop := ∀ a, a ∈ B → ∃ c, F c ∧ a ∈ c

theorem Covers.mono {F : Block w → Prop} {B C : Block w} (h : Covers F B) (hc : C ⊆ B) :
    Covers F C :=
  fun a ha => h a (sub_iff.1 hc a ha)

theorem parent_lo (b : Block w) (h : b.len < w) :
    (b.lo h).parent (show 0 < (b.lo h).len from Nat.succ_pos _) = b :=
  ext_idx (by simp) (by rw [idx_parent, idx_lo]; omega)

theorem sibling_lo (b : Block w) (h : b.len < w) :
    (b.lo h).sibling (show 0 < (b.lo h).len from Nat.succ_pos _) = b.hi h :=
  ext_idx rfl (by rw [idx_sibling, idx_lo, idx_hi, Nat.xor_one_of_even (even_two_mul _)])

/-- A block strictly inside `B` that meets one half of `B` lies in that half. -/
theorem sub_half {B c : Block w} (h : B.len < w) (hc : c ⊆ B) (hne : c ≠ B) {a : Nat}
    (ha : a ∈ c) : (a ∈ B.lo h → c ⊆ B.lo h) ∧ (a ∈ B.hi h → c ⊆ B.hi h) := by
  obtain ⟨_, hx | hx⟩ := sub_lo_or_hi hc hne
  · exact ⟨fun _ => hx, fun hh => absurd hh (B.lo_disjoint_hi h (sub_iff.1 hx a ha))⟩
  · exact ⟨fun hl => absurd (sub_iff.1 hx a ha) (B.lo_disjoint_hi h hl), fun _ => hx⟩

/-- A canonical family cannot cover a block with members that all lie strictly inside
it; the induction is on the number of free bits of the block. -/
theorem not_covers_inside {F : Block w → Prop} (hF : Canonical F) :
    ∀ n (B : Block w), w - B.len = n → Covers F B →
      (∀ c a, F c → a ∈ c → a ∈ B → c ⊆ B ∧ c ≠ B) → False := by
  intro n
  induction n with
  | zero =>
    intro B hn hcov hin
    obtain ⟨c, hc, ha⟩ := hcov B.addr B.addr_mem
    obtain ⟨hsub, hne⟩ := hin c B.addr hc ha B.addr_mem
    exact hne (eq_of_sub_of_len hsub (by have := len_le_of_sub hsub; have := c.len_le; omega))
  | succ n ih =>
    intro B hn hcov hin
    have h : B.len < w := by omega
    -- a half is a member: otherwise it is covered by members strictly inside it
    have half : ∀ X, X ⊆ B → X.len = B.len + 1 →
        (∀ c a, F c → a ∈ c → a ∈ X → c ⊆ X) → F X := by
      intro X hX hXl hXin
      by_contra hnX
      exact ih X (by omega) (hcov.mono hX) fun c a hc ha hx =>
        ⟨hXin c a hc ha hx, fun e => hnX (e ▸ hc)⟩
    have hlo := half (B.lo h) (B.lo_sub h) rfl fun c a hc ha hx =>
      let ⟨hs, hne⟩ := hin c a hc ha (sub_iff.1 (B.lo_sub h) a hx)
      (sub_half h hs hne ha).1 hx
    have hhi := half (B.hi h) (B.hi_sub h) rfl fun c a hc ha hx =>
      let ⟨hs, hne⟩ := hin c a hc ha (sub_iff.1 (B.hi_sub h) a hx)
      (sub_half h hs hne ha).2 hx
    exact hF.no_sibling (B.lo h) (by simp) hlo (by rw [sibling_lo]; exact hhi)

/-- A canonical family never covers the parent of a member. -/
theorem not_covers_parent {F : Block w → Prop} (hF : Canonical F) {b : Block w} (hb : F b)
    (h : 0 < b.len) : ¬ Covers F (b.parent h) := by
  intro hcov
  refine not_covers_inside hF _ (b.sibling h) rfl (hcov.mono (b.sibling_sub_parent h))
    fun c a hc ha hs => ?_
  rcases nested_of_mem ha hs with hsub | hsub
  · exact ⟨hsub, fun e => hF.no_sibling b h hb (e ▸ hc)⟩
  · -- `c` contains the sibling: it is the sibling, or it contains the parent and so `b`
    by_cases e : b.sibling h = c
    · exact absurd (e ▸ hc) (hF.no_sibling b h hb)
    · obtain ⟨h', hp⟩ := parent_sub_of_ssub hsub e
      rw [parent_sibling] at hp
      have hbc := hF.antichain b c hb hc (sub_trans (b.sub_parent h) hp)
      subst hbc
      exact absurd (sub_iff.1 hsub _ (b.sibling h).addr_mem)
        (fun hm => b.sibling_disjoint h hm (b.sibling h).addr_mem)

/-- A member of a canonical family is exactly a maximal covered block: covered, with
its parent not covered. -/
theorem Canonical.mem_iff {F : Block w → Prop} (hF : Canonical F) {b : Block w} :
    F b ↔ Covers F b ∧ ∀ h : 0 < b.len, ¬ Covers F (b.parent h) := by
  constructor
  · intro hb
    exact ⟨fun a ha => ⟨b, hb, ha⟩, not_covers_parent hF hb⟩
  · rintro ⟨hcov, hpar⟩
    by_contra hnb
    refine not_covers_inside hF _ b rfl hcov fun c a hc ha hab => ?_
    rcases nested_of_mem ha hab with hcb | hbc
    · exact ⟨hcb, fun e => hnb (e ▸ hc)⟩
    · -- a member strictly containing `b` would cover its parent
      by_cases e : b = c
      · exact absurd (e ▸ hc) hnb
      · obtain ⟨h, hp⟩ := parent_sub_of_ssub hbc e
        exact absurd (fun a ha => ⟨c, hc, sub_iff.1 hp a ha⟩) (hpar h)

end Block

end Carbide.Lib

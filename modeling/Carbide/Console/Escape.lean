import Mathlib

/-!
# Console escape filtering

`crates/ssh-console/src/bmc/vendor.rs:238-351`. A console user must not be able to
send the BMC's escape sequence: a single byte (Dell, `Ctrl+\`) or a lead byte followed
by one of several trail bytes (Lenovo and HPE `ESC (`, ipmitool `~.`, `~B`, …).
`filterEscapeSequences` filters one message and returns whether its last byte was a
lead; the connection loops hand that flag to the next message (`filterStream`).

The scan of a pair sequence is a loop over an index with a lazily allocated
buffer: `pairLoop`, a structural recursion on fuel, with `none` for a buffer not yet
allocated (the input is passed through borrowed).

* `pairLoop_clean`, `filterEscapeSequences_noPair`: the output of one call never
  holds a lead directly followed by a trail byte.
* `filterStream_clean`: a stream with no lead byte passes through unchanged.
* `filterStream_boundary_pair`: across messages the pair property fails: the lead
  the filter emits at the end of one message is forgotten, and the next message's
  trail byte rebuilds the escape.
-/
namespace Carbide.Console

/-- mirrors vendor.rs:240-245. -/
inductive EscapeSequence
  | Single (esc : UInt8)
  | Pair (lead : UInt8) (trail : List UInt8)

/-- mirrors vendor.rs:25-26: `~` followed by `.`, `B`, `?`, `^Z` or `^X`. -/
def ipmitoolEscapeSequence : EscapeSequence := .Pair 0x7e [0x2e, 0x42, 0x3f, 0x1a, 0x18]

/-- `std::borrow::Cow<[u8]>`: the input itself, or a new buffer. -/
inductive Cow
  | Borrowed (bytes : List UInt8)
  | Owned (bytes : List UInt8)
  deriving DecidableEq

/-- `Cow::into_owned`: the bytes. -/
def Cow.intoOwned : Cow → List UInt8
  | .Borrowed bytes => bytes
  | .Owned bytes => bytes

/-- mirrors vendor.rs:259-265 (`get_buf`): the buffer, made from the first `idx` input
bytes when it does not exist yet. -/
def getBuf (out : Option (List UInt8)) (input : List UInt8) (idx : Nat) : List UInt8 :=
  out.getD (input.take idx)

/-- mirrors vendor.rs:286-301: a lead left pending by the previous message is dropped
with a trail byte, and emitted otherwise. `none` is the early return on an empty
message; otherwise the buffer and the index the scan starts from. -/
def pairStart (lead : UInt8) (trail : List UInt8) (input : List UInt8) (prevPending : Bool) :
    Option (Option (List UInt8) × Nat) :=
  if prevPending then
    match input.head? with
    | some b0 => if trail.contains b0 then some (some [], 1) else some (some [lead], 0)
    | none => none
  else some (none, 0)

/-- mirrors vendor.rs:303-338: the scan from index `i`, one round per index. -/
def pairLoop (lead : UInt8) (trail : List UInt8) (input : List UInt8) :
    Nat → Nat → Option (List UInt8) → Bool → Option (List UInt8) × Bool
  | 0, _, out, pending => (out, pending)
  | fuel + 1, i, out, pending =>
    match input[i]? with
    | none => (out, pending)
    | some b =>
      -- a trail byte that would follow a lead already in the output is dropped
      if out.any fun buf => trail.contains b && buf.getLast? == some lead then
        pairLoop lead trail input fuel (i + 1) out true
      else if b = lead then
        match input[i + 1]? with
        | some next =>
          if trail.contains next then
            pairLoop lead trail input fuel (i + 2) (some (getBuf out input i)) pending
          else
            pairLoop lead trail input fuel (i + 1) (some (getBuf out input i ++ [b])) pending
        -- a lead at the end is deferred to the next message
        | none => (some (getBuf out input i), true)
      else pairLoop lead trail input fuel (i + 1) (out.map (· ++ [b])) pending

/-- mirrors vendor.rs:253-349. -/
def EscapeSequence.filterEscapeSequences :
    EscapeSequence → List UInt8 → Bool → Cow × Bool
  | .Single esc, input, _ =>
    if !input.contains esc then (.Borrowed input, false)
    else (.Owned (input.filter (· != esc)), false)
  | .Pair lead trail, input, prevPending =>
    match pairStart lead trail input prevPending with
    | none => (.Borrowed input, true)
    | some (out, i) =>
      match pairLoop lead trail input input.length i out false with
      | (some buf, pending) => (.Owned buf, pending)
      | (none, _) => (.Borrowed input, false)

/-- mirrors vendor.rs:55-67 (`SshBmcVendor`). -/
inductive SshBmcVendor
  | Dell
  | Lenovo
  | LenovoAmi
  | Hpe
  | Dpu
  deriving DecidableEq

/-- mirrors vendor.rs:213-221. -/
def SshBmcVendor.escapeSequence : SshBmcVendor → Option EscapeSequence
  | .Dell => some (.Single 0x1c)
  | .Lenovo => some (.Pair 0x1b [0x28])
  | .LenovoAmi => none
  | .Hpe => some (.Pair 0x1b [0x28])
  | .Dpu => none

/-- mirrors vendor.rs:203-211. -/
def SshBmcVendor.filterEscapeSequences (v : SshBmcVendor) (input : List UInt8)
    (prevPending : Bool) : Cow × Bool :=
  (v.escapeSequence.map fun seq => seq.filterEscapeSequences input prevPending).getD
    (.Borrowed input, false)

/-- mirrors ipmi.rs:585-593 and ssh.rs:126-131: every data message is filtered with the
flag the previous one left. -/
def filterStream (seq : EscapeSequence) : Bool → List (List UInt8) → List (List UInt8)
  | _, [] => []
  | pending, chunk :: chunks =>
    let (data, escapePending) := seq.filterEscapeSequences chunk pending
    data.intoOwned :: filterStream seq escapePending chunks

/-! ## One message -/

/-- No lead byte directly followed by a trail byte. -/
def NoPair (lead : UInt8) (trail : List UInt8) (l : List UInt8) : Prop :=
  l.IsChain fun x y => ¬ (x = lead ∧ y ∈ trail)

instance (lead : UInt8) (trail : List UInt8) (l : List UInt8) : Decidable (NoPair lead trail l) :=
  inferInstanceAs (Decidable (List.IsChain _ l))

section Pair

variable {lead : UInt8} {trail : List UInt8} {input : List UInt8}

theorem noPair_of_not_mem {l : List UInt8} (h : lead ∉ l) : NoPair lead trail l := by
  induction l with
  | nil => exact List.isChain_nil
  | cons x l ih =>
    cases l with
    | nil => exact List.isChain_singleton x
    | cons y l =>
      have hx : x ≠ lead := fun e => h (e ▸ List.mem_cons_self)
      exact List.isChain_cons_cons.2 ⟨fun hp => hx hp.1, ih fun hm => h (List.mem_cons_of_mem _ hm)⟩

theorem noPair_append_single {l : List UInt8} {b : UInt8} (hl : NoPair lead trail l)
    (hb : ∀ x ∈ l.getLast?, ¬ (x = lead ∧ b ∈ trail)) : NoPair lead trail (l ++ [b]) :=
  hl.append (List.isChain_singleton b) fun x hx y hy => by
    rw [List.head?_cons, Option.mem_some_iff] at hy
    subst hy
    exact hb x hx

/-- What the scan keeps: no lead among the bytes passed through while no buffer exists,
and no pair in the buffer once it does. -/
def Clean (lead : UInt8) (trail : List UInt8) (input : List UInt8) : Nat → Option (List UInt8) → Prop
  | i, none => lead ∉ input.take i
  | _, some buf => NoPair lead trail buf

theorem clean_getBuf {i : Nat} {out : Option (List UInt8)} (h : Clean lead trail input i out) :
    NoPair lead trail (getBuf out input i) := by
  cases out with
  | none => exact noPair_of_not_mem h
  | some buf => exact h

/-- One round of the scan keeps the output free of pairs, given that the lead is not
itself a trail byte; the induction is on the fuel, which covers the input. -/
theorem pairLoop_clean (hlt : lead ∉ trail) : ∀ (fuel i : Nat) (out : Option (List UInt8))
    (pending : Bool), input.length ≤ i + fuel → Clean lead trail input i out →
    Clean lead trail input input.length (pairLoop lead trail input fuel i out pending).1 := by
  intro fuel
  induction fuel with
  | zero =>
    intro i out pending hlen h
    cases out with
    | none =>
      show lead ∉ input.take input.length
      rw [List.take_length]
      exact fun hm => h (by rwa [List.take_of_length_le (by omega)])
    | some buf => exact h
  | succ fuel ih =>
    intro i out pending hlen h
    unfold pairLoop
    split
    · -- past the end: the scan is over
      rename_i hi
      have hle : input.length ≤ i := List.getElem?_eq_none_iff.1 hi
      cases out with
      | none =>
        show lead ∉ input.take input.length
        rw [List.take_length]
        exact fun hm => h (by rwa [List.take_of_length_le hle])
      | some buf => exact h
    · rename_i b hb
      split
      · -- an adjacent trail is dropped: the buffer is unchanged
        exact ih _ _ _ (by omega) (by cases out <;> simp_all [Clean])
      · rename_i hadj
        split
        · -- a lead
          rename_i hbl
          split
          · split
            · exact ih _ _ _ (by omega) (clean_getBuf h)
            · exact ih _ _ _ (by omega) (noPair_append_single (clean_getBuf h)
                fun x _ hp => hlt (hbl ▸ hp.2))
          · exact clean_getBuf h
        · -- a plain byte is copied, and cannot complete a pair
          rename_i hbl
          apply ih _ _ _ (by omega)
          cases out with
          | none =>
            intro hm
            rw [List.take_add_one, hb, Option.toList_some, List.mem_append, List.mem_singleton] at hm
            exact hm.elim h (fun e => hbl e.symm)
          | some buf =>
            refine noPair_append_single h fun x hx hp => hadj ?_
            simp only [Option.any_some, Bool.and_eq_true, beq_iff_eq]
            exact ⟨List.elem_iff.2 hp.2, by rw [← hp.1]; exact Option.mem_def.1 hx⟩

theorem pairStart_clean (h : pairStart lead trail input prevPending = some (out, i)) :
    Clean lead trail input i out := by
  unfold pairStart at h
  split at h
  · split at h
    · split at h <;> cases h
      · exact List.isChain_nil
      · exact List.isChain_singleton _
    · cases h
  · cases h
    exact List.not_mem_nil

/-- The output of one call holds no lead directly followed by a trail byte. -/
theorem filterEscapeSequences_noPair (hlt : lead ∉ trail) (input : List UInt8) (prevPending : Bool) :
    NoPair lead trail ((EscapeSequence.Pair lead trail).filterEscapeSequences input prevPending).1.intoOwned := by
  simp only [EscapeSequence.filterEscapeSequences]
  split
  · -- an empty message with a lead pending
    rename_i hs
    have hnil : input = [] := by
      unfold pairStart at hs
      split at hs
      · split at hs
        · split at hs <;> cases hs
        · rename_i hh; exact List.head?_eq_none_iff.1 hh
      · cases hs
    subst hnil
    exact List.isChain_nil
  · rename_i out i hs
    have h := pairLoop_clean hlt input.length i out false (by omega) (pairStart_clean hs)
    split
    · rename_i buf pending e
      rw [e] at h
      exact h
    · rename_i pending e
      rw [e] at h
      show NoPair lead trail input
      exact noPair_of_not_mem (by simpa [Clean] using h)

theorem filterEscapeSequences_noPair_ipmitool :
    (0x7e : UInt8) ∉ ([0x2e, 0x42, 0x3f, 0x1a, 0x18] : List UInt8) ∧
      NoPair 0x7e [0x2e, 0x42, 0x3f, 0x1a, 0x18]
        (ipmitoolEscapeSequence.filterEscapeSequences [0x7e, 0x7e, 0x2e, 0x2e] false).1.intoOwned :=
  have h : (0x7e : UInt8) ∉ ([0x2e, 0x42, 0x3f, 0x1a, 0x18] : List UInt8) := by decide
  ⟨h, filterEscapeSequences_noPair h _ _⟩

end Pair

/-! ## The stream of messages -/

/-- With no lead byte in the message, the scan never allocates and passes it through. -/
theorem pairLoop_no_lead {lead : UInt8} {trail input : List UInt8} (h : lead ∉ input) :
    ∀ (fuel i : Nat) (pending : Bool), pairLoop lead trail input fuel i none pending = (none, pending) := by
  intro fuel
  induction fuel with
  | zero => intro i pending; rfl
  | succ fuel ih =>
    intro i pending
    unfold pairLoop
    split
    · rfl
    · rename_i b hb
      have hbl : b ≠ lead := fun e => h (e ▸ List.mem_of_getElem? hb)
      simp only [Option.any_none, Bool.false_eq_true, if_false, hbl, Option.map_none]
      exact ih _ _

/-- A stream of messages with no lead byte passes through the pair filter unchanged. -/
theorem filterStream_clean {lead : UInt8} {trail : List UInt8} :
    ∀ chunks : List (List UInt8), (∀ c ∈ chunks, lead ∉ c) →
      filterStream (.Pair lead trail) false chunks = chunks := by
  intro chunks h
  induction chunks with
  | nil => rfl
  | cons chunk chunks ih =>
    have hc := @pairLoop_no_lead lead trail chunk (h chunk List.mem_cons_self) chunk.length 0 false
    simp only [filterStream, EscapeSequence.filterEscapeSequences, pairStart, Bool.false_eq_true,
      if_false, hc]
    exact congrArg _ (ih fun c hc => h c (List.mem_cons_of_mem _ hc))

theorem filterStream_clean_ipmitool :
    (∀ c ∈ ([[0x68, 0x69], [0x2e]] : List (List UInt8)), (0x7e : UInt8) ∉ c) ∧
      filterStream (.Pair 0x7e [0x2e, 0x42, 0x3f, 0x1a, 0x18]) false [[0x68, 0x69], [0x2e]] =
        [[0x68, 0x69], [0x2e]] :=
  have h : ∀ c ∈ ([[0x68, 0x69], [0x2e]] : List (List UInt8)), (0x7e : UInt8) ∉ c := by decide
  ⟨h, filterStream_clean _ h⟩

/-! ## The defect: the flag forgets what was emitted

The flag only says that the message ended in a lead that was held back. A lead the
filter emitted, and a trail it dropped after such a lead, are not remembered, so the
next message can complete an escape, or gets a lead that is not in the input at
that place. -/

/-- ipmitool: the messages `~~.` and `.` come out as `~` and `.`, which together are the
escape `~.`; the messages `~~..x` and `y` come out as `~x` and `~y`, which is not the
input with bytes deleted. -/
theorem filterStream_boundary_pair :
    filterStream ipmitoolEscapeSequence false [[0x7e, 0x7e, 0x2e], [0x2e]] = [[0x7e], [0x2e]] ∧
      ¬ NoPair 0x7e [0x2e, 0x42, 0x3f, 0x1a, 0x18] ([[0x7e], [0x2e]] : List (List UInt8)).flatten ∧
      filterStream ipmitoolEscapeSequence false [[0x7e, 0x7e, 0x2e, 0x2e, 0x78], [0x79]] =
        [[0x7e, 0x78], [0x7e, 0x79]] ∧
      ¬ ([[0x7e, 0x78], [0x7e, 0x79]] : List (List UInt8)).flatten.Sublist
        [0x7e, 0x7e, 0x2e, 0x2e, 0x78, 0x79] :=
  ⟨by decide, by decide, by decide, by decide⟩

end Carbide.Console

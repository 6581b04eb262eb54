import Blackwing.Lib.Loop
import Blackwing.Session.Fragments

/-!
# How much one receiving call reads and holds

The receiving functions go round as long as the peer announces another fragment, and a
fragment may be empty, so the limit on the size alone does not end them. What ends them is
the index: it has fifteen bits and the expected one grows with every fragment.

* `receive`: the functions as the source writes them, with a `while` loop that has no bound.
* `receive_eq_recvJoined`: the loop ends, and with the result of `recvJoined`, which counts
  the rounds that are left.
* `receive_bounded`: whatever valid frames come in, a call reads at most 32769 of them, holds
  at most `MAX_REASSEMBLED_SIZE` bytes, and returns no more.
-/

namespace Blackwing.Session

open Protocol

section Loop

variable {σ ε α : Type}

/-- The variables of a receiving function in its loop, and the channel it reads from. -/
structure Receiving (σ : Type) where
  channel : σ
  more : Bool
  expected : UInt32
  payload : List UInt8

/-- The next frame of the channel. -/
def Receiving.read (recvFrame : Call σ ε OwnedProtocolFrame) :
    Call (Receiving σ) ε OwnedProtocolFrame := fun r =>
  ((recvFrame r.channel).1, { r with channel := (recvFrame r.channel).2 })

/-- One pass of `while more`. -/
def receivePass (recvFrame : Call σ ε OwnedProtocolFrame) (outOfOrder : ε) (oversized : Nat → ε) :
    Call (Receiving σ) ε (Option (List UInt8)) := do
  let r ← Call.getState
  if r.more then do
    let fragment ← Receiving.read recvFrame
    Call.update fun r => { r with more := fragmentMore fragment }
    Call.rejectIf ((fragmentIndex fragment).toUInt32 ≠ r.expected) outOfOrder
    let newLen := r.payload.length + fragment.payload.length
    Call.rejectIf (newLen > maxReassembledSize) (oversized newLen)
    Call.update fun r => { r with payload := r.payload ++ fragment.payload }
    let expected ← Call.ofOutcome (Outcome.add32 r.expected 1)
    Call.update fun r => { r with expected }
    pure none
  else pure (some r.payload)

/-- The variables when the loop is entered, behind the first frame. -/
def Receiving.start (first : OwnedProtocolFrame) (channel : σ) : Receiving σ where
  channel
  more := fragmentMore first
  expected := (fragmentIndex first).toUInt32 + 1
  payload := first.payload

/-- `recv_fragments` and `recv_reassembled`, with the loop run for a number of passes. -/
def receive (recvFrame : Call σ ε OwnedProtocolFrame) (outOfOrder : ε) (oversized : Nat → ε)
    (passes : Nat) (s : σ) : Option (Outcome ε (List UInt8) × σ) :=
  match recvFrame s with
  | (.err e, s) => some (.err e, s)
  | (.panicked, s) => some (.panicked, s)
  | (.ok first, s) =>
    if fragmentIndex first = 0 ∧ fragmentMore first = false then some (.ok first.payload, s)
    else
      (Call.loop (receivePass recvFrame outOfOrder oversized) passes (Receiving.start first s)).map
        fun r => (r.1, r.2.channel)

/-- What the function holds each time it begins a pass. -/
def held (recvFrame : Call σ ε OwnedProtocolFrame) (outOfOrder : ε) (oversized : Nat → ε)
    (passes : Nat) (s : σ) : List (List UInt8) :=
  match recvFrame s with
  | (.ok first, s) =>
    (Call.heads (receivePass recvFrame outOfOrder oversized) passes (Receiving.start first s)).map
      Receiving.payload
  | _ => []

/-- The channel with a count of the frames that were asked for. -/
def counted (recvFrame : Call σ ε α) : Call (σ × Nat) ε α := fun s =>
  ((recvFrame s.1).1, ((recvFrame s.1).2, s.2 + 1))

/-- Whatever the state of the channel, the next frame is an error of the channel or has a payload
that its length field can state. -/
def ValidFrames (recvFrame : Call σ ε OwnedProtocolFrame) : Prop :=
  ∀ s, (∃ frame, (recvFrame s).1 = .ok frame ∧ frame.payload.length ≤ 65535) ∨
    ∃ e, (recvFrame s).1 = .err e

/-- An error, or at most `MAX_REASSEMBLED_SIZE` bytes. -/
def FitsLimit (r : Outcome ε (List UInt8)) : Prop :=
  (∃ e, r = .err e) ∨ ∃ payload, r = .ok payload ∧ payload.length ≤ maxReassembledSize

/-- The call ends with this result; it reads at most 32769 frames, never holds more than
`MAX_REASSEMBLED_SIZE` bytes, and returns no more. -/
structure ReceivesWithin (recvFrame : Call σ ε OwnedProtocolFrame) (outOfOrder : ε)
    (oversized : Nat → ε) (s : σ) (result : Outcome ε (List UInt8) × (σ × Nat)) : Prop where
  ends : ∀ passes, 2 ^ 15 < passes →
    receive (counted recvFrame) outOfOrder oversized passes (s, 0) = some result
  reads : result.2.2 ≤ 32769
  holds : ∀ passes, ∀ payload ∈ held (counted recvFrame) outOfOrder oversized passes (s, 0),
    payload.length ≤ maxReassembledSize
  returns : FitsLimit result.1

end Loop

namespace ReceiveLemmas

open FragmentsLemmas

variable {σ ε : Type} {recvFrame : Call σ ε OwnedProtocolFrame} (outOfOrder : ε)
  (oversized : Nat → ε)

theorem fragmentIndex_lt (frame : OwnedProtocolFrame) : (fragmentIndex frame).toNat < 2 ^ 15 := by
  have hflags := frame.header.flags.toNat_lt
  unfold fragmentIndex
  rw [UInt16.toNat_shiftRight]
  simp [Nat.shiftRight_eq_div_pow]
  omega

/-! ### One pass -/

variable {r : Receiving σ} {c : σ} {fragment : OwnedProtocolFrame} {expected : UInt32}

theorem receivePass_done (hmore : r.more = false) :
    receivePass recvFrame outOfOrder oversized r = (.ok (some r.payload), r) := by
  rw [receivePass, Call.getState_bind, hmore]
  rfl

/-- A pass that reads a frame. -/
theorem receivePass_read (hmore : r.more = true) (hread : recvFrame r.channel = (.ok fragment, c)) :
    receivePass recvFrame outOfOrder oversized r =
      if (fragmentIndex fragment).toUInt32 ≠ r.expected then
        (.err outOfOrder, { r with channel := c, more := fragmentMore fragment })
      else if r.payload.length + fragment.payload.length > maxReassembledSize then
        (.err (oversized (r.payload.length + fragment.payload.length)),
          { r with channel := c, more := fragmentMore fragment })
      else
        match (Outcome.add32 r.expected 1 : Outcome ε UInt32) with
        | .ok expected =>
          (.ok none, ⟨c, fragmentMore fragment, expected, r.payload ++ fragment.payload⟩)
        | .err e =>
          (.err e, ⟨c, fragmentMore fragment, r.expected, r.payload ++ fragment.payload⟩)
        | .panicked =>
          (.panicked, ⟨c, fragmentMore fragment, r.expected, r.payload ++ fragment.payload⟩) := by
  have hreadPart : Receiving.read recvFrame r = (.ok fragment, { r with channel := c }) := by
    rw [Receiving.read, hread]
  rw [receivePass, Call.getState_bind, if_pos hmore, Call.bind_of_ok hreadPart, Call.update_bind,
    Call.rejectIf_bind]
  split
  · rfl
  · rw [Call.rejectIf_bind]
    split
    · rfl
    · rw [Call.update_bind, Call.ofOutcome_bind]
      cases (Outcome.add32 r.expected 1 : Outcome ε UInt32) <;> rfl

theorem receivePass_err {e : ε} (hmore : r.more = true) (hread : recvFrame r.channel = (.err e, c)) :
    receivePass recvFrame outOfOrder oversized r = (.err e, { r with channel := c }) := by
  have hreadPart : Receiving.read recvFrame r = (.err e, { r with channel := c }) := by
    rw [Receiving.read, hread]
  rw [receivePass, Call.getState_bind, if_pos hmore, Call.bind_of_err hreadPart]

theorem receivePass_panicked (hmore : r.more = true) (hread : recvFrame r.channel = (.panicked, c)) :
    receivePass recvFrame outOfOrder oversized r = (.panicked, { r with channel := c }) := by
  have hreadPart : Receiving.read recvFrame r = (.panicked, { r with channel := c }) := by
    rw [Receiving.read, hread]
  rw [receivePass, Call.getState_bind, if_pos hmore, Call.bind_of_panicked hreadPart]

/-- A pass after which the loop goes round has checked what is held. -/
theorem payload_le_of_again (hagain : (receivePass recvFrame outOfOrder oversized r).1.ended = none) :
    (receivePass recvFrame outOfOrder oversized r).2.payload.length ≤ maxReassembledSize := by
  cases hmore : r.more with
  | false =>
    rw [receivePass_done _ _ hmore] at hagain
    exact nomatch hagain
  | true =>
    rcases hread : recvFrame r.channel with ⟨fragment | e | _, c⟩
    · rw [receivePass_read _ _ hmore hread] at hagain ⊢
      split at hagain
      · exact nomatch hagain
      · next hindex =>
        rw [if_neg hindex]
        split at hagain
        · exact nomatch hagain
        · next hsize =>
          rw [if_neg hsize]
          split at hagain
          · rw [List.length_append]
            exact Nat.not_lt.mp hsize
          · exact nomatch hagain
          · exact nomatch hagain
    · rw [receivePass_err _ _ hmore hread] at hagain
      exact nomatch hagain
    · rw [receivePass_panicked _ _ hmore hread] at hagain
      exact nomatch hagain

/-! ### The loop ends -/

theorem toUInt32_ne_iff :
    (fragmentIndex fragment).toUInt32 ≠ expected ↔
      (fragmentIndex fragment).toNat ≠ expected.toNat := by
  rw [ne_eq, ne_eq, ← UInt32.toNat_inj, UInt16.toNat_toUInt32]

theorem collect_err {s : σ} {e : ε} (hread : recvFrame s = (.err e, c)) (rounds expected : Nat)
    (payload : List UInt8) :
    collect recvFrame outOfOrder oversized rounds expected payload s = (.err e, c) := by
  cases rounds with
  | zero => rw [collect, Call.bind_of_err hread]
  | succ rounds => rw [collect, Call.bind_of_err hread]

theorem collect_panicked {s : σ} (hread : recvFrame s = (.panicked, c)) (rounds expected : Nat)
    (payload : List UInt8) :
    collect recvFrame outOfOrder oversized rounds expected payload s = (.panicked, c) := by
  cases rounds with
  | zero => rw [collect, Call.bind_of_panicked hread]
  | succ rounds => rw [collect, Call.bind_of_panicked hread]

/-- The loop as its callers see it. -/
def loopResult (recvFrame : Call σ ε OwnedProtocolFrame) (outOfOrder : ε) (oversized : Nat → ε)
    (passes : Nat) (r : Receiving σ) : Option (Outcome ε (List UInt8) × σ) :=
  (Call.loop (receivePass recvFrame outOfOrder oversized) passes r).map fun r => (r.1, r.2.channel)

variable {outOfOrder oversized}

theorem loopResult_of_ended {r' : Receiving σ} {x : Outcome ε (Option (List UInt8))}
    {y : Outcome ε (List UInt8)} (hpass : receivePass recvFrame outOfOrder oversized r = (x, r'))
    (hx : x.ended = some y) (passes : Nat) :
    loopResult recvFrame outOfOrder oversized (passes + 1) r = some (y, r'.channel) := by
  rw [loopResult, Call.loop_of_ended (by rw [hpass]; exact hx), hpass]
  rfl

theorem loopResult_of_again {r' : Receiving σ}
    (hpass : receivePass recvFrame outOfOrder oversized r = (.ok none, r')) (passes : Nat) :
    loopResult recvFrame outOfOrder oversized (passes + 1) r =
      loopResult recvFrame outOfOrder oversized passes r' := by
  rw [loopResult, Call.loop_of_again (by rw [hpass]; rfl), hpass]
  rfl

variable (outOfOrder oversized)

/-- A pass that reads a fragment. The expected index is far from the end of `u32`. -/
theorem loop_step {s : σ} (hread : recvFrame s = (.ok fragment, c))
    (hsmall : expected.toNat ≤ 2 ^ 15) (payload : List UInt8) (passes : Nat) :
    loopResult recvFrame outOfOrder oversized (passes + 1) ⟨s, true, expected, payload⟩ =
      if (fragmentIndex fragment).toNat ≠ expected.toNat then some (.err outOfOrder, c)
      else if payload.length + fragment.payload.length > maxReassembledSize then
        some (.err (oversized (payload.length + fragment.payload.length)), c)
      else
        loopResult recvFrame outOfOrder oversized passes
          ⟨c, fragmentMore fragment, expected + 1, payload ++ fragment.payload⟩ := by
  have hpass := receivePass_read outOfOrder oversized (r := ⟨s, true, expected, payload⟩) rfl hread
  have hadd : (Outcome.add32 expected 1 : Outcome ε UInt32) = .ok (expected + 1) :=
    if_pos (Nat.lt_of_le_of_lt (Nat.add_le_add_right hsmall _) (by decide))
  split
  · next hindex =>
    rw [if_pos (toUInt32_ne_iff.mpr hindex)] at hpass
    exact loopResult_of_ended hpass rfl _
  · next hindex =>
    rw [if_neg (fun h => hindex (toUInt32_ne_iff.mp h))] at hpass
    split
    · next hsize =>
      rw [if_pos hsize] at hpass
      exact loopResult_of_ended hpass rfl _
    · next hsize =>
      rw [if_neg hsize, hadd] at hpass
      exact loopResult_of_again hpass _

/-- A pass that reads no fragment. -/
theorem loop_failed {s : σ} (hfailed : ∀ fragment, (recvFrame s).1 ≠ .ok fragment)
    (expected : UInt32) (payload : List UInt8) (rounds passes : Nat) :
    loopResult recvFrame outOfOrder oversized (passes + 1) ⟨s, true, expected, payload⟩ =
      some (collect recvFrame outOfOrder oversized rounds expected.toNat payload s) := by
  rcases hread : recvFrame s with ⟨fragment | e | _, c⟩
  · exact absurd (by rw [hread]) (hfailed fragment)
  · rw [collect_err _ _ hread]
    exact loopResult_of_ended (receivePass_err _ _ rfl hread) rfl passes
  · rw [collect_panicked _ _ hread]
    exact loopResult_of_ended (receivePass_panicked _ _ rfl hread) rfl passes

/-- The loop of the source and the one that counts the rounds down: the expected index and the
rounds that are left add up to `2 ^ 15`. -/
theorem loop_eq_collect {rounds passes : Nat} (hrounds : expected.toNat + rounds = 2 ^ 15)
    (hpasses : rounds < passes) (payload : List UInt8) (s : σ) :
    loopResult recvFrame outOfOrder oversized passes ⟨s, true, expected, payload⟩ =
      some (collect recvFrame outOfOrder oversized rounds expected.toNat payload s) := by
  induction rounds generalizing passes expected payload s with
  | zero =>
    obtain ⟨passes, rfl⟩ := Nat.exists_eq_add_of_lt hpasses
    by_cases hread : ∃ fragment, (recvFrame s).1 = .ok fragment
    · obtain ⟨fragment, hread⟩ := hread
      -- an index has fifteen bits, so it is not the expected one
      have hindex : (fragmentIndex fragment).toNat ≠ expected.toNat :=
        Nat.ne_of_lt (Nat.lt_of_lt_of_eq (fragmentIndex_lt fragment) hrounds.symm)
      have hread : recvFrame s = (.ok fragment, (recvFrame s).2) := Prod.ext hread rfl
      rw [loop_step _ _ hread (Nat.le_of_eq hrounds), if_pos hindex, collect, Call.bind_of_ok hread]
      rfl
    · exact loop_failed _ _ (not_exists.mp hread) expected payload 0 _
  | succ rounds ih =>
    obtain ⟨passes, rfl⟩ := Nat.exists_eq_add_of_lt hpasses
    by_cases hread : ∃ fragment, (recvFrame s).1 = .ok fragment
    · obtain ⟨fragment, hread⟩ := hread
      have hread : recvFrame s = (.ok fragment, (recvFrame s).2) := Prod.ext hread rfl
      have hnext : (expected + 1).toNat = expected.toNat + 1 := by
        rw [UInt32.toNat_add, UInt32.toNat_one]
        omega
      rw [loop_step _ _ hread (by omega), collect_step hread]
      split
      · rfl
      · split
        · rfl
        · split
          · next hmore => rw [hmore, ih (by omega) (by omega), hnext]
          · next hmore =>
            rw [Nat.add_right_comm]
            exact loopResult_of_ended (receivePass_done _ _ (Bool.eq_false_iff.mpr hmore)) rfl _
    · exact loop_failed _ _ (not_exists.mp hread) expected payload (rounds + 1) _

/-- The functions as the source writes them end, with the result of the model that counts the
rounds. -/
theorem receive_eq_recvJoined {passes : Nat} (hpasses : 2 ^ 15 < passes) (s : σ) :
    receive recvFrame outOfOrder oversized passes s =
      some (recvJoined recvFrame outOfOrder oversized s) := by
  obtain ⟨passes, rfl⟩ := Nat.exists_eq_add_of_lt hpasses
  unfold receive
  rcases hread : recvFrame s with ⟨first | e | _, c⟩
  · rw [recvJoined_step hread]
    dsimp only
    cases hmore : fragmentMore first with
    | false =>
      split
      · rfl
      · exact loopResult_of_ended (receivePass_done _ _ (r := Receiving.start first c) hmore) rfl _
    | true =>
      have hlt := fragmentIndex_lt first
      have hexpected : ((fragmentIndex first).toUInt32 + 1).toNat =
          (fragmentIndex first).toNat + 1 := by
        rw [UInt32.toNat_add, UInt16.toNat_toUInt32, UInt32.toNat_one]
        omega
      have hloop := @loop_eq_collect σ ε recvFrame outOfOrder oversized
        ((fragmentIndex first).toUInt32 + 1) (2 ^ 15 - ((fragmentIndex first).toNat + 1))
        (2 ^ 15 + passes + 1) (by omega) (by omega) first.payload c
      rw [hexpected] at hloop
      rw [if_neg (fun h => Bool.noConfusion h.2), Receiving.start, hmore]
      exact hloop
  · rw [recvJoined, Call.bind_of_err hread]
  · rw [recvJoined, Call.bind_of_panicked hread]

/-! ### What a call reads and holds -/

section

variable (hv : ValidFrames recvFrame)
include hv

theorem length_le_of_valid {s : σ} {frame : OwnedProtocolFrame}
    (hread : recvFrame s = (.ok frame, c)) : frame.payload.length ≤ maxReassembledSize := by
  rcases hv s with ⟨frame', hok, hlen⟩ | ⟨e, herr⟩
  · rw [hread] at hok
    cases hok
    exact Nat.le_trans hlen (by decide)
  · rw [hread] at herr
    exact nomatch herr

theorem validFrames_counted : ValidFrames (counted recvFrame) :=
  fun s => hv s.1

/-- What the counting channel returns, when the frames are valid. -/
theorem counted_cases (s : σ × Nat) :
    (∃ frame c, counted recvFrame s = (.ok frame, (c, s.2 + 1))) ∨
    ∃ e c, counted recvFrame s = (.err e, (c, s.2 + 1)) := by
  unfold counted
  rcases hv s.1 with ⟨frame, hok, -⟩ | ⟨e, herr⟩
  · exact Or.inl ⟨frame, _, by rw [hok]⟩
  · exact Or.inr ⟨e, _, by rw [herr]⟩

theorem collect_bounded (rounds expected : Nat) (payload : List UInt8) (s : σ × Nat) :
    (collect (counted recvFrame) outOfOrder oversized rounds expected payload s).2.2 ≤
        s.2 + (rounds + 1) ∧
      FitsLimit (collect (counted recvFrame) outOfOrder oversized rounds expected payload s).1 := by
  induction rounds generalizing expected payload s with
  | zero =>
    rcases counted_cases hv s with ⟨fragment, c, hread⟩ | ⟨e, c, hread⟩
    · rw [collect, Call.bind_of_ok hread]
      exact ⟨Nat.le_refl _, Or.inl ⟨_, rfl⟩⟩
    · rw [collect_err _ _ hread]
      exact ⟨Nat.le_refl _, Or.inl ⟨_, rfl⟩⟩
  | succ rounds ih =>
    have hone : s.2 + 1 ≤ s.2 + (rounds + 1 + 1) := Nat.add_le_add_left (Nat.le_add_left _ _) _
    rcases counted_cases hv s with ⟨fragment, c, hread⟩ | ⟨e, c, hread⟩
    · rw [collect_step hread]
      split
      · exact ⟨hone, Or.inl ⟨_, rfl⟩⟩
      · split
        · exact ⟨hone, Or.inl ⟨_, rfl⟩⟩
        · next hsize =>
          split
          · obtain ⟨hreads, hfits⟩ := ih (expected + 1) (payload ++ fragment.payload) (c, s.2 + 1)
            refine ⟨Nat.le_trans hreads (Nat.le_of_eq ?_), hfits⟩
            rw [Nat.add_assoc, Nat.add_comm 1]
          · refine ⟨hone, Or.inr ⟨_, rfl, ?_⟩⟩
            rw [List.length_append]
            exact Nat.not_lt.mp hsize
    · rw [collect_err _ _ hread]
      exact ⟨hone, Or.inl ⟨_, rfl⟩⟩

theorem recvJoined_bounded (s : σ) :
    (recvJoined (counted recvFrame) outOfOrder oversized (s, 0)).2.2 ≤ 32769 ∧
      FitsLimit (recvJoined (counted recvFrame) outOfOrder oversized (s, 0)).1 := by
  have hone : 0 + 1 ≤ 32769 := by decide
  rcases counted_cases hv (s, 0) with ⟨first, c, hread⟩ | ⟨e, c, hread⟩
  · rw [recvJoined_step hread]
    split
    · have hcollect := collect_bounded outOfOrder oversized hv
        (2 ^ 15 - ((fragmentIndex first).toNat + 1)) ((fragmentIndex first).toNat + 1)
        first.payload (c, 0 + 1)
      refine ⟨Nat.le_trans hcollect.1 ?_, hcollect.2⟩
      show 0 + 1 + (2 ^ 15 - ((fragmentIndex first).toNat + 1) + 1) ≤ 32769
      omega
    · exact ⟨hone, Or.inr ⟨_, rfl, length_le_of_valid (validFrames_counted hv) hread⟩⟩
  · rw [recvJoined, Call.bind_of_err hread]
    exact ⟨hone, Or.inl ⟨_, rfl⟩⟩

theorem held_le (passes : Nat) (s : σ) :
    ∀ payload ∈ held recvFrame outOfOrder oversized passes s,
      payload.length ≤ maxReassembledSize := by
  intro payload hmem
  unfold held at hmem
  rcases hread : recvFrame s with ⟨first | e | _, c⟩
  · rw [hread] at hmem
    obtain ⟨r, hr, rfl⟩ := List.mem_map.mp hmem
    exact Call.forall_heads (I := fun r => r.payload.length ≤ maxReassembledSize)
      (fun r _ hagain => payload_le_of_again _ _ hagain) (length_le_of_valid hv hread) passes r hr
  · rw [hread] at hmem
    exact nomatch hmem
  · rw [hread] at hmem
    exact nomatch hmem

theorem validFrames_mapErr {ε' : Type} (h : ε → ε') :
    ValidFrames (recvFrame.mapErr h) := by
  intro s
  rcases hv s with ⟨frame, hok, hlen⟩ | ⟨e, herr⟩
  · refine Or.inl ⟨frame, ?_, hlen⟩
    rw [Call.mapErr, hok]
    rfl
  · refine Or.inr ⟨h e, ?_⟩
    rw [Call.mapErr, herr]
    rfl

theorem recvJoined_within (s : σ) :
    ReceivesWithin recvFrame outOfOrder oversized s
      (recvJoined (counted recvFrame) outOfOrder oversized (s, 0)) where
  ends := fun _ hpasses => receive_eq_recvJoined outOfOrder oversized hpasses (s, 0)
  reads := (recvJoined_bounded outOfOrder oversized hv s).1
  holds := fun passes => held_le outOfOrder oversized (validFrames_counted hv) passes (s, 0)
  returns := (recvJoined_bounded outOfOrder oversized hv s).2

end

end ReceiveLemmas

open ReceiveLemmas

/-- Whatever valid frames a peer sends, without end if it likes: every call of `recv_fragments` and
of `recv_reassembled`, of a whole connection and of its receiving half, returns; it reads at most
32769 frames and holds and returns at most `MAX_REASSEMBLED_SIZE` bytes. -/
theorem receive_bounded {σ : Type} {recvFrame : Call σ AdapterError OwnedProtocolFrame}
    {recvSecureFrame : Call σ SecureConnError OwnedProtocolFrame} (hv : ValidFrames recvFrame)
    (hsecure : ValidFrames recvSecureFrame) (s : σ) :
    ReceivesWithin (recvFrame.mapErr .adapter) .fragmentOutOfOrder .oversizedMessage s
        (SecureConnection.recvFragments (counted recvFrame) (s, 0)) ∧
    ReceivesWithin (recvFrame.mapErr .adapter) .fragmentOutOfOrder .oversizedMessage s
        (SecureReceiver.recvFragments (counted recvFrame) (s, 0)) ∧
    ReceivesWithin (recvSecureFrame.mapErr .session) .fragmentOutOfOrder .oversizedMessage s
        (MessageSession.recvReassembled (counted recvSecureFrame) (s, 0)) ∧
    ReceivesWithin (recvSecureFrame.mapErr .session) .fragmentOutOfOrder .oversizedMessage s
        (MessageReceiver.recvReassembled (counted recvSecureFrame) (s, 0)) := by
  have hframes := recvJoined_within SecureConnError.fragmentOutOfOrder .oversizedMessage
    (validFrames_mapErr hv .adapter) s
  have hmessages := recvJoined_within WireError.fragmentOutOfOrder .oversizedMessage
    (validFrames_mapErr hsecure .session) s
  exact ⟨hframes, hframes, hmessages, hmessages⟩

/-- A peer that sends empty fragments without end, with the indices in order. -/
def endless {ε : Type} : Call Nat ε OwnedProtocolFrame := fun n =>
  (.ok (fragmentFrame (UInt16.ofNat n) true []), n + 1)

theorem validFrames_endless {ε : Type} : ValidFrames (endless (ε := ε)) :=
  fun _ => Or.inl ⟨_, rfl, Nat.zero_le _⟩

theorem receive_bounded_endless :
    (SecureConnection.recvFragments (counted endless) (0, 0)).2.2 ≤ 32769 ∧
      (MessageSession.recvReassembled (counted endless) (0, 0)).2.2 ≤ 32769 :=
  ⟨(receive_bounded validFrames_endless validFrames_endless 0).1.reads,
    (receive_bounded validFrames_endless validFrames_endless 0).2.2.1.reads⟩

end Blackwing.Session

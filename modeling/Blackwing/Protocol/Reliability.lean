import Blackwing.Lib.HashMap
import Blackwing.Lib.SlidingWindow
import Blackwing.Protocol.Codec

/-!
# Reliable delivery

`bw-protocol/src/reliability.rs`: a sender that keeps a window of unacknowledged frames
and retransmits those that time out, and a receiver that drops duplicates and puts frames
back in order. Instants and durations are naturals in one unit.

* `assemble_released`: what `assemble` releases and what it leaves in the buffer.
* `receive_refused`, `receive_accepted`: what `receive` does with a frame.
-/

namespace Blackwing.Protocol

/-! ## Frames -/

/-- `SequenceNumber`. -/
abbrev SequenceNumber : Type := UInt64

/-- `SequenceNumber::next`, in wrapped sequence space. -/
def SequenceNumber.next (n : SequenceNumber) : SequenceNumber := n + 1

/-- `AckFrame`. -/
structure AckFrame where
  ackedSeq : SequenceNumber
  ackBits : UInt64
deriving DecidableEq

/-- `ReliableFrame`. -/
structure ReliableFrame where
  seq : SequenceNumber
  payload : List UInt8
deriving DecidableEq

/-! ## Receiver -/

/-- `DuplicateFilter`. -/
structure DuplicateFilter where
  maxReceived : UInt64
  receivedMask : UInt64
deriving DecidableEq

/-- `DuplicateFilter::new`. -/
def DuplicateFilter.new : DuplicateFilter := ⟨0, 0⟩

/-- `DuplicateFilter::check_and_track`: `true` when the number is a duplicate or too old. -/
def DuplicateFilter.checkAndTrack (seq : SequenceNumber) (self : DuplicateFilter) :
    Bool × DuplicateFilter :=
  match slide self.maxReceived self.receivedMask seq with
  | none => (true, self)
  | some (maxReceived, receivedMask) => (false, ⟨maxReceived, receivedMask⟩)

/-- `OrderedAssembler`. -/
structure OrderedAssembler where
  nextExpected : SequenceNumber
  buffer : HashMap SequenceNumber ReliableFrame
deriving DecidableEq

namespace OrderedAssembler

/-- `OrderedAssembler::new`. -/
def new : OrderedAssembler := ⟨0, ∅⟩

/-- `OrderedAssembler::insert`. -/
def insert (frame : ReliableFrame) (self : OrderedAssembler) : OrderedAssembler :=
  if frame.seq ≥ self.nextExpected then
    { self with buffer := self.buffer.insert frame.seq frame }
  else self

/-- The loop of `assemble`, for at most `n` passes. -/
def assembleLoop : Nat → OrderedAssembler → List (List UInt8) × OrderedAssembler
  | 0, self => ([], self)
  | n + 1, self =>
    match self.buffer.lookup self.nextExpected with
    | none => ([], self)
    | some frame =>
      let rest := assembleLoop n
        ⟨self.nextExpected.next, self.buffer.erase self.nextExpected⟩
      (frame.payload :: rest.1, rest.2)

/-- `OrderedAssembler::assemble`. Each pass of its loop takes a frame from the buffer, so there
are at most as many passes as buffered frames. -/
def assemble (self : OrderedAssembler) : List (List UInt8) × OrderedAssembler :=
  assembleLoop (HashMap.size self.buffer) self

end OrderedAssembler

/-- `ReliableReceiver`. -/
structure ReliableReceiver where
  assembler : OrderedAssembler
  filter : DuplicateFilter
deriving DecidableEq

namespace ReliableReceiver

/-- `ReliableReceiver::new`. -/
def new : ReliableReceiver := ⟨OrderedAssembler.new, DuplicateFilter.new⟩

/-- `ReliableReceiver::receive`. -/
def receive (frame : ReliableFrame) : Call ReliableReceiver ProtocolError (List (List UInt8)) :=
  fun self =>
    let checked := self.filter.checkAndTrack frame.seq
    if checked.1 then (.ok [], { self with filter := checked.2 })
    else
      let assembled := (self.assembler.insert frame).assemble
      (.ok assembled.1, ⟨assembled.2, checked.2⟩)

/-- `ReliableReceiver::next_expected`. -/
def nextExpected (self : ReliableReceiver) : SequenceNumber := self.assembler.nextExpected

/-- The filter takes the number: `check_and_track` returns `false`. -/
def Accepts (self : ReliableReceiver) (seq : SequenceNumber) : Prop :=
  (self.filter.checkAndTrack seq).1 = false

instance (self : ReliableReceiver) (seq : SequenceNumber) : Decidable (self.Accepts seq) :=
  inferInstanceAs (Decidable (_ = _))

end ReliableReceiver

/-! ## Sender -/

/-- `DeliveryState`. -/
inductive DeliveryState where
  | pending
  | acked
  | timedOut
deriving DecidableEq

/-- `TimeoutPolicy`. -/
structure TimeoutPolicy where
  rto : Nat
  maxRetransmissions : UInt32
deriving DecidableEq

/-- `RetransmissionEntry`. -/
structure RetransmissionEntry where
  frame : ReliableFrame
  sentAt : Nat
  retransmissions : UInt32
  state : DeliveryState
deriving DecidableEq

/-- `SlidingWindow`. -/
structure SlidingWindow where
  base : SequenceNumber
  nextSeq : SequenceNumber
  windowSize : UInt32
deriving DecidableEq

/-- `SlidingWindow::new`. -/
def SlidingWindow.new (windowSize : UInt32) : SlidingWindow := ⟨0, 0, windowSize⟩

/-- `SlidingWindow::window_available`. -/
def SlidingWindow.windowAvailable (self : SlidingWindow) : UInt32 :=
  (saturatingSub self.windowSize.toUInt64 (saturatingSub self.nextSeq self.base)).toUInt32

/-- `ReliableSender`. -/
structure ReliableSender where
  window : SlidingWindow
  queue : List RetransmissionEntry
  policy : TimeoutPolicy
deriving DecidableEq

namespace ReliableSender

/-- `ReliableSender::new`. -/
def new (windowSize : UInt32) (policy : TimeoutPolicy) : ReliableSender :=
  ⟨SlidingWindow.new windowSize, [], policy⟩

/-- `ReliableSender::send`, with the instant it reads from the clock. -/
def send (payload : List UInt8) (now : Nat) : Call ReliableSender ProtocolError ReliableFrame := do
  let self ← Call.getState
  Call.rejectIf (self.window.windowAvailable = 0) .windowFull
  let frame : ReliableFrame := ⟨self.window.nextSeq, payload⟩
  Call.update fun self =>
    { self with
      window := { self.window with nextSeq := frame.seq.next }
      queue := self.queue ++ [⟨frame, now, 0, .pending⟩] }
  pure frame

/-- The queue after `mark_delivered`: the first entry with the number is acknowledged. -/
def markFirst (seq : SequenceNumber) : List RetransmissionEntry → List RetransmissionEntry
  | [] => []
  | entry :: rest =>
    if entry.frame.seq = seq then { entry with state := .acked } :: rest
    else entry :: markFirst seq rest

/-- `ReliableSender::mark_delivered`. -/
def markDelivered (seq : SequenceNumber) (self : ReliableSender) : ReliableSender :=
  { self with queue := markFirst seq self.queue }

end ReliableSender

/-- The numbers that an acknowledgment names: `acked_seq`, and `acked_seq - (i + 1)` in wrapped
sequence space for each set bit `i`. -/
def AckFrame.named (ack : AckFrame) : List SequenceNumber :=
  ack.ackedSeq :: ((List.range 64).filter fun i => ack.ackBits &&& (1 <<< UInt64.ofNat i) ≠ 0).map
    fun i => ack.ackedSeq - (UInt64.ofNat i + 1)

namespace ReliableSender

/-- The loop of `ack` that slides the window base over acknowledged entries. -/
def slideBase : SequenceNumber → List RetransmissionEntry →
    SequenceNumber × List RetransmissionEntry
  | base, [] => (base, [])
  | base, entry :: rest =>
    if entry.state = .acked then slideBase entry.frame.seq.next rest else (base, entry :: rest)

/-- `ReliableSender::ack`. -/
def ack (frame : AckFrame) : Call ReliableSender ProtocolError Unit := do
  Call.update fun self => frame.named.foldl (fun self seq => self.markDelivered seq) self
  Call.update fun self =>
    let slid := slideBase self.window.base self.queue
    { self with window := { self.window with base := slid.1 }, queue := slid.2 }

/-- An entry is pending and its timeout has passed. -/
def Expired (policy : TimeoutPolicy) (now : Nat) (entry : RetransmissionEntry) : Prop :=
  entry.state = .pending ∧ policy.rto ≤ now - entry.sentAt

instance (policy : TimeoutPolicy) (now : Nat) (entry : RetransmissionEntry) :
    Decidable (Expired policy now entry) := inferInstanceAs (Decidable (_ ∧ _))

/-- `ReliableSender::mark_timeout`. -/
def markTimeout (now : Nat) (self : ReliableSender) : List SequenceNumber × ReliableSender :=
  ((self.queue.filter fun entry => Expired self.policy now entry).map fun entry => entry.frame.seq,
    { self with
      queue := self.queue.map fun entry =>
        if Expired self.policy now entry then { entry with state := .timedOut } else entry })

/-- An entry has timed out and may be sent again. -/
def Retryable (policy : TimeoutPolicy) (entry : RetransmissionEntry) : Prop :=
  entry.state = .timedOut ∧ entry.retransmissions < policy.maxRetransmissions

instance (policy : TimeoutPolicy) (entry : RetransmissionEntry) :
    Decidable (Retryable policy entry) := inferInstanceAs (Decidable (_ ∧ _))

/-- `ReliableSender::retransmit`. -/
def retransmit (now : Nat) (self : ReliableSender) : List ReliableFrame × ReliableSender :=
  ((self.queue.filter fun entry => Retryable self.policy entry).map fun entry => entry.frame,
    { self with
      queue := self.queue.map fun entry =>
        if Retryable self.policy entry then
          { entry with
            retransmissions := entry.retransmissions + 1
            sentAt := now
            state := .pending }
        else entry })

end ReliableSender

/-! ## What the receiver does with a frame -/

/-- `assemble` took from the buffer of `before` the run of numbers that starts at its
`next_expected`, as far as it goes. -/
structure Released (pay : Nat → List UInt8) (before : OrderedAssembler) (ready : List (List UInt8))
    (after : OrderedAssembler) : Prop where
  le : before.nextExpected.toNat ≤ after.nextExpected.toNat
  ready_eq : ready = (List.range' before.nextExpected.toNat
    (after.nextExpected.toNat - before.nextExpected.toNat)).map pay
  taken : ∀ seq : SequenceNumber, before.nextExpected.toNat ≤ seq.toNat →
    seq.toNat < after.nextExpected.toNat → (before.buffer.lookup seq).isSome
  lookup_eq : ∀ seq : SequenceNumber, after.buffer.lookup seq =
    if before.nextExpected.toNat ≤ seq.toNat ∧ seq.toNat < after.nextExpected.toNat then none
    else before.buffer.lookup seq
  stopped : after.buffer.lookup after.nextExpected = none

namespace ReliabilityLemmas

open OrderedAssembler

theorem next_toNat {n : SequenceNumber} (h : n.toNat < 2 ^ 64 - 1) : n.next.toNat = n.toNat + 1 := by
  have hone : (1 : UInt64).toNat = 1 := rfl
  rw [SequenceNumber.next, UInt64.toNat_add, hone]
  exact Nat.mod_eq_of_lt (by omega)

variable {pay : Nat → List UInt8} {self : OrderedAssembler} {frame : ReliableFrame}

theorem released_refl (h : self.buffer.lookup self.nextExpected = none) :
    Released pay self [] self where
  le := Nat.le_refl _
  ready_eq := by rw [Nat.sub_self]; rfl
  taken := fun seq hle hlt => absurd hlt (Nat.not_lt.mpr hle)
  lookup_eq := fun seq => (if_neg fun h => Nat.not_lt.mpr h.1 h.2).symm
  stopped := h

/-- One pass of the loop before the rest of it. -/
theorem released_cons {after : OrderedAssembler} {ready : List (List UInt8)}
    (hl : self.buffer.lookup self.nextExpected = some frame)
    (hpay : frame.payload = pay self.nextExpected.toNat)
    (hmax : self.nextExpected.toNat < 2 ^ 64 - 1)
    (h : Released pay ⟨self.nextExpected.next, self.buffer.erase self.nextExpected⟩ ready after) :
    Released pay self (frame.payload :: ready) after := by
  have hnext := next_toNat hmax
  have hle : self.nextExpected.toNat + 1 ≤ after.nextExpected.toNat := hnext ▸ h.le
  refine ⟨Nat.le_of_succ_le hle, ?_, fun seq hseq hlt => ?_, fun seq => ?_, h.stopped⟩
  · obtain ⟨m, hm⟩ := Nat.exists_eq_add_of_le hle
    rw [h.ready_eq, hpay, hm]
    show _ = List.map pay (List.range' _ (self.nextExpected.toNat + 1 + m - self.nextExpected.toNat))
    rw [show self.nextExpected.toNat + 1 + m - self.nextExpected.toNat = m + 1 by omega,
      List.range'_succ, List.map_cons, hnext, Nat.add_sub_cancel_left]
  · by_cases heq : seq = self.nextExpected
    · rw [heq, hl]
      rfl
    · have hne : seq.toNat ≠ self.nextExpected.toNat := fun he => heq (UInt64.toNat_inj.mp he)
      have htaken := h.taken seq (by rw [hnext]; omega) hlt
      rwa [HashMap.lookup_erase_eq, if_neg heq] at htaken
  · rw [h.lookup_eq, HashMap.lookup_erase_eq, hnext]
    by_cases heq : seq = self.nextExpected
    · subst heq
      rw [if_pos rfl, ite_self, if_pos ⟨Nat.le_refl _, hle⟩]
    · have hne : seq.toNat ≠ self.nextExpected.toNat := fun he => heq (UInt64.toNat_inj.mp he)
      rw [if_neg heq]
      exact if_congr (by omega) rfl rfl

theorem assembleLoop_released {n : Nat} (hn : HashMap.size self.buffer ≤ n)
    (hbuf : ∀ seq frame, self.buffer.lookup seq = some frame →
      frame.payload = pay seq.toNat ∧ seq.toNat < 2 ^ 64 - 1) :
    Released pay self (assembleLoop n self).1 (assembleLoop n self).2 := by
  induction n generalizing self with
  | zero => exact released_refl (HashMap.lookup_of_size_zero (Nat.le_zero.mp hn) _)
  | succ n ih =>
    cases hl : self.buffer.lookup self.nextExpected with
    | none =>
      rw [assembleLoop, hl]
      exact released_refl hl
    | some frame =>
      rw [assembleLoop, hl]
      obtain ⟨hpay, hmax⟩ := hbuf _ _ hl
      refine released_cons hl hpay hmax (ih ?_ ?_)
      · rw [← HashMap.size_erase_of_lookup hl] at hn
        exact Nat.le_of_succ_le_succ hn
      · intro seq f hf
        rw [HashMap.lookup_erase_eq] at hf
        split at hf
        · exact nomatch hf
        · exact hbuf seq f hf

/-- What `assemble` releases and leaves, when each buffered frame carries the payload of its
number. -/
theorem assemble_released
    (hbuf : ∀ seq frame, self.buffer.lookup seq = some frame →
      frame.payload = pay seq.toNat ∧ seq.toNat < 2 ^ 64 - 1) :
    Released pay self self.assemble.1 self.assemble.2 :=
  assembleLoop_released (Nat.le_refl _) hbuf

theorem checkAndTrack_cases (self : DuplicateFilter) (seq : SequenceNumber) :
    (slide self.maxReceived self.receivedMask seq = none ∧
      self.checkAndTrack seq = (true, self)) ∨
    (∃ w, slide self.maxReceived self.receivedMask seq = some w ∧
      self.checkAndTrack seq = (false, ⟨w.1, w.2⟩)) := by
  unfold DuplicateFilter.checkAndTrack
  cases slide self.maxReceived self.receivedMask seq with
  | none => exact Or.inl ⟨rfl, rfl⟩
  | some w => exact Or.inr ⟨w, rfl, rfl⟩

theorem receive_refused {self : ReliableReceiver} (h : ¬ self.Accepts frame.seq) :
    ReliableReceiver.receive frame self = (.ok [], self) := by
  rcases checkAndTrack_cases self.filter frame.seq with ⟨-, hcheck⟩ | ⟨w, -, hcheck⟩
  · simp only [ReliableReceiver.receive, hcheck]
    rfl
  · exact absurd (by rw [ReliableReceiver.Accepts, hcheck]) h

theorem receive_accepted {self : ReliableReceiver} (h : self.Accepts frame.seq) :
    ∃ w, slide self.filter.maxReceived self.filter.receivedMask frame.seq = some w ∧
      ReliableReceiver.receive frame self =
        (.ok (self.assembler.insert frame).assemble.1,
          ⟨(self.assembler.insert frame).assemble.2, ⟨w.1, w.2⟩⟩) := by
  rcases checkAndTrack_cases self.filter frame.seq with ⟨-, hcheck⟩ | ⟨w, hslide, hcheck⟩
  · rw [ReliableReceiver.Accepts, hcheck] at h
    exact nomatch h
  · exact ⟨w, hslide, by simp [ReliableReceiver.receive, hcheck]⟩

theorem accepts_iff {self : ReliableReceiver} {seen : Set Nat} {seq : SequenceNumber}
    (h : Tracks self.filter.maxReceived self.filter.receivedMask seen) :
    self.Accepts seq ↔ seq.toNat ∉ seen ∧ self.filter.maxReceived.toNat < seq.toNat + 64 := by
  have hnone : slide _ _ seq = none ↔ _ := slide_eq_none h
  rcases checkAndTrack_cases self.filter seq with ⟨hslide, hcheck⟩ | ⟨w, hslide, hcheck⟩
  · rw [ReliableReceiver.Accepts, hcheck]
    refine iff_of_false (fun he => nomatch he) fun ⟨hfresh, hclose⟩ => ?_
    rcases hnone.mp hslide with hseen | hold
    · exact hfresh hseen
    · exact absurd hclose (Nat.not_lt.mpr hold)
  · rw [ReliableReceiver.Accepts, hcheck]
    refine iff_of_true rfl ⟨fun hseen => ?_, Nat.not_le.mp fun hold => ?_⟩
    · rw [hnone.mpr (Or.inl hseen)] at hslide
      exact nomatch hslide
    · rw [hnone.mpr (Or.inr hold)] at hslide
      exact nomatch hslide

end ReliabilityLemmas

end Blackwing.Protocol

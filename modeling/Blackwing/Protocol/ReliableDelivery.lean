import Blackwing.Protocol.OrderedDelivery

/-!
# Reliable delivery over a lossy network

A `ReliableSender` and a `ReliableReceiver` with a network between them that may drop,
duplicate, delay and reorder frames and acknowledgments. The receiver drops whatever lies
64 or more behind the largest number it took, so nothing is lost only because the sender's
window base waits for acknowledgments of numbers that were accepted.

* `Queued`: the sender's queue holds consecutive numbers from the window base.
* `Linked`: what ties the two ends and the frames in flight together.
* `linked_accepts`: a frame in flight whose number was never accepted is accepted.
* `reliable_delivery`: so a run delivers every payload, once and in order, as soon as every
  sent number has arrived.
-/

namespace Blackwing.Protocol

open ReliabilityLemmas OrderedDeliveryLemmas

/-! ## The sender -/

/-- A queue of consecutive numbers from `base`, each with its payload; the acknowledged ones are
among `seen`. -/
inductive Queued (pay : Nat → List UInt8) (seen : Set Nat) : Nat → List RetransmissionEntry → Prop
  | nil (base : Nat) : Queued pay seen base []
  | cons {base : Nat} {entry : RetransmissionEntry} {rest : List RetransmissionEntry}
      (hseq : entry.frame.seq.toNat = base) (hpay : entry.frame.payload = pay base)
      (hacked : entry.state = .acked → base ∈ seen) (hrest : Queued pay seen (base + 1) rest) :
      Queued pay seen base (entry :: rest)

namespace ReliableDeliveryLemmas

variable {pay : Nat → List UInt8} {seen : Set Nat} {base : Nat}
  {queue : List RetransmissionEntry}

section

variable (h : Queued pay seen base queue)
include h

theorem queued_mono {seen' : Set Nat} (hsub : ∀ v ∈ seen, v ∈ seen') :
    Queued pay seen' base queue := by
  induction h with
  | nil base => exact .nil base
  | cons hseq hpay hacked _ ih => exact .cons hseq hpay (fun hs => hsub _ (hacked hs)) ih

theorem queued_mem :
    ∀ entry ∈ queue, entry.frame.seq.toNat < base + queue.length ∧
      entry.frame.payload = pay entry.frame.seq.toNat := by
  induction h with
  | nil base => exact fun entry he => absurd he List.not_mem_nil
  | cons hseq hpay _ _ ih =>
    intro entry he
    rw [List.length_cons]
    rcases List.mem_cons.mp he with rfl | he
    · exact ⟨by omega, by rw [hseq, hpay]⟩
    · obtain ⟨hlt, hp⟩ := ih entry he
      exact ⟨by omega, hp⟩

theorem queued_snoc {entry : RetransmissionEntry}
    (hseq : entry.frame.seq.toNat = base + queue.length)
    (hpay : entry.frame.payload = pay (base + queue.length)) (hstate : entry.state ≠ .acked) :
    Queued pay seen base (queue ++ [entry]) := by
  induction h with
  | nil base => exact .cons hseq hpay (fun hs => absurd hs hstate) (.nil _)
  | @cons base first rest hfirst hp hacked _ ih =>
    have hlength : base + (first :: rest).length = base + 1 + rest.length := by
      rw [List.length_cons]
      omega
    rw [hlength] at hseq hpay
    exact .cons hfirst hp hacked (ih hseq hpay)

end

/-- A pass over the queue that keeps the frames and acknowledges nothing. -/
theorem queued_map {f : RetransmissionEntry → RetransmissionEntry}
    (hframe : ∀ entry, (f entry).frame = entry.frame)
    (hstate : ∀ entry, (f entry).state = .acked → entry.state = .acked)
    (h : Queued pay seen base queue) : Queued pay seen base (queue.map f) := by
  induction h with
  | nil base => exact .nil base
  | cons hseq hpay hacked _ ih =>
    exact .cons (by rw [hframe, hseq]) (by rw [hframe, hpay]) (fun hs => hacked (hstate _ hs)) ih

theorem queued_markFirst {seq : SequenceNumber} (hseen : seq.toNat ∈ seen)
    (h : Queued pay seen base queue) :
    Queued pay seen base (ReliableSender.markFirst seq queue) ∧
      (ReliableSender.markFirst seq queue).length = queue.length := by
  induction h with
  | nil base => exact ⟨.nil base, rfl⟩
  | cons hseq hpay hacked hrest ih =>
    rw [ReliableSender.markFirst]
    split
    · next heq =>
      refine ⟨.cons hseq hpay (fun _ => ?_) hrest, rfl⟩
      rw [← hseq, heq]
      exact hseen
    · exact ⟨.cons hseq hpay hacked ih.1, congrArg Nat.succ ih.2⟩

theorem queued_slideBase {start : SequenceNumber} (h : Queued pay seen start.toNat queue)
    (hbound : start.toNat + queue.length < 2 ^ 64) (hsettled : ∀ i < start.toNat, i ∈ seen) :
    let slid := ReliableSender.slideBase start queue
    Queued pay seen slid.1.toNat slid.2 ∧ (∀ i < slid.1.toNat, i ∈ seen) ∧
      slid.1.toNat + slid.2.length = start.toNat + queue.length ∧
      slid.2.length ≤ queue.length := by
  induction queue generalizing start with
  | nil => exact ⟨h, hsettled, rfl, Nat.le_refl _⟩
  | cons entry rest ih =>
    cases h with
    | cons hseq hpay hacked hrest =>
      rw [List.length_cons] at hbound ⊢
      rw [ReliableSender.slideBase]
      split
      · next hstate =>
        have hnext : entry.frame.seq.next.toNat = start.toNat + 1 := by
          rw [next_toNat (by omega), hseq]
        have hseen : ∀ i < entry.frame.seq.next.toNat, i ∈ seen := by
          intro i hi
          rcases Nat.lt_succ_iff_lt_or_eq.mp (hnext ▸ hi) with hlt | rfl
          · exact hsettled i hlt
          · exact hacked hstate
        obtain ⟨hq, hs, hsum, hle⟩ := ih (hnext ▸ hrest) (by omega) hseen
        exact ⟨hq, hs, by omega, by omega⟩
      · exact ⟨.cons hseq hpay hacked hrest, hsettled, rfl, Nat.le_refl _⟩

/-- The room that is left beside `len` numbers. -/
theorem toNat_windowAvailable {window : SlidingWindow} {len : Nat}
    (hnext : window.nextSeq.toNat = window.base.toNat + len) :
    window.windowAvailable.toNat = window.windowSize.toNat - len := by
  have hsize := window.windowSize.toNat_lt
  rw [SlidingWindow.windowAvailable, UInt64.toNat_toUInt32, toNat_saturatingSub, toNat_saturatingSub,
    UInt32.toNat_toUInt64, hnext, Nat.add_sub_cancel_left]
  exact Nat.mod_eq_of_lt (Nat.lt_of_le_of_lt (Nat.sub_le _ _) hsize)

/-- A window with room holds fewer numbers than its size. -/
theorem windowAvailable_ne_zero {window : SlidingWindow} {len : Nat}
    (hnext : window.nextSeq.toNat = window.base.toNat + len)
    (h : window.windowAvailable ≠ 0) : len < window.windowSize.toNat := by
  refine Nat.not_le.mp fun hfull => h (UInt32.toNat_inj.mp ?_)
  rw [toNat_windowAvailable hnext, UInt32.toNat_zero]
  exact Nat.sub_eq_zero_of_le hfull

theorem send_cases (payload : List UInt8) (now : Nat) (self : ReliableSender) :
    ReliableSender.send payload now self = (.err .windowFull, self) ∨
    (self.window.windowAvailable ≠ 0 ∧ ReliableSender.send payload now self =
      (.ok ⟨self.window.nextSeq, payload⟩,
        { self with
          window := { self.window with nextSeq := self.window.nextSeq.next }
          queue := self.queue ++ [⟨⟨self.window.nextSeq, payload⟩, now, 0, .pending⟩] })) := by
  rw [ReliableSender.send, Call.getState_bind, Call.rejectIf_bind]
  split
  · exact Or.inl rfl
  · next havail => exact Or.inr ⟨havail, rfl⟩

end ReliableDeliveryLemmas

/-! ## The two ends and the network -/

/-- A sender, a receiver and the network between them. The network keeps every frame it was ever
given, since it may deliver a frame late, again or not at all. `accepted` are the numbers that the
receiver's filter has taken. -/
structure Transfer where
  sender : ReliableSender
  receiver : ReliableReceiver
  network : List ReliableFrame
  accepted : List SequenceNumber
deriving DecidableEq

/-- Two fresh ends. -/
def Transfer.new (windowSize : UInt32) (policy : TimeoutPolicy) : Transfer :=
  ⟨ReliableSender.new windowSize policy, ReliableReceiver.new, [], []⟩

/-- What can happen next. -/
inductive TransferOp where
  | send (payload : List UInt8) (now : Nat)
  | markTimeout (now : Nat)
  | retransmit (now : Nat)
  | ackArrives (ack : AckFrame)
  | frameArrives (frame : ReliableFrame)
deriving DecidableEq

/-- What the call returned. -/
inductive TransferOut where
  | sent (r : Outcome ProtocolError ReliableFrame)
  | timedOut (seqs : List SequenceNumber)
  | retransmitted (frames : List ReliableFrame)
  | acked (r : Outcome ProtocolError Unit)
  | received (r : Outcome ProtocolError (List (List UInt8)))
deriving DecidableEq

/-- The frame of a successful `send`. -/
def sentFrame : Outcome ProtocolError ReliableFrame → List ReliableFrame
  | .ok frame => [frame]
  | _ => []

/-- One call at either end. -/
def transferStep (s : Transfer) : TransferOp → TransferOut × Transfer
  | .send payload now =>
    let call := ReliableSender.send payload now s.sender
    (.sent call.1, { s with sender := call.2, network := s.network ++ sentFrame call.1 })
  | .markTimeout now =>
    let call := s.sender.markTimeout now
    (.timedOut call.1, { s with sender := call.2 })
  | .retransmit now =>
    let call := s.sender.retransmit now
    (.retransmitted call.1, { s with sender := call.2, network := s.network ++ call.1 })
  | .ackArrives ack =>
    let call := ReliableSender.ack ack s.sender
    (.acked call.1, { s with sender := call.2 })
  | .frameArrives frame =>
    let call := ReliableReceiver.receive frame s.receiver
    (.received call.1,
      { s with
        receiver := call.2
        accepted := if s.receiver.Accepts frame.seq then frame.seq :: s.accepted else s.accepted })

/-- A frame arrives only if it was given to the network, and an acknowledgment names only numbers
that were accepted. -/
def NetworkAllows (s : Transfer) : TransferOp → Prop
  | .frameArrives frame => frame ∈ s.network
  | .ackArrives ack => ∀ seq ∈ ack.named, seq ∈ s.accepted
  | _ => True

instance (s : Transfer) : (op : TransferOp) → Decidable (NetworkAllows s op)
  | .frameArrives frame => inferInstanceAs (Decidable (frame ∈ s.network))
  | .ackArrives ack => List.decidableBAll (fun seq => seq ∈ s.accepted) ack.named
  | .send _ _ | .markTimeout _ | .retransmit _ => inferInstanceAs (Decidable True)

/-- An entry of a run. -/
abbrev TransferEntry : Type := Entry Transfer TransferOp TransferOut

/-- The payload that a call sent. -/
def sentPayload (e : TransferEntry) : Option (List UInt8) :=
  match e.out with
  | .sent (.ok frame) => some frame.payload
  | _ => none

/-- The payloads that a call delivered. -/
def deliveredBy (e : TransferEntry) : List (List UInt8) :=
  match e.out with
  | .received (.ok ready) => ready
  | _ => []

/-- The frame that arrived in a call. -/
def arrived (e : TransferEntry) : Option ReliableFrame :=
  match e.input with
  | .frameArrives frame => some frame
  | _ => none

/-- The accepted numbers as a set. -/
def Transfer.seen (s : Transfer) : Set Nat := {v | ∃ seq ∈ s.accepted, seq.toNat = v}

/-- The state after `n` payloads were sent: the window, the frames in flight and the receiver speak
of the same numbers. -/
structure Linked (pay : Nat → List UInt8) (n : Nat) (s : Transfer) : Prop where
  small : s.sender.window.windowSize.toNat ≤ 64
  next : s.sender.window.nextSeq.toNat = n
  size : s.sender.window.base.toNat + s.sender.queue.length = n
  room : s.sender.queue.length ≤ 64
  queued : Queued pay s.seen s.sender.window.base.toNat s.sender.queue
  settled : ∀ i < s.sender.window.base.toNat, i ∈ s.seen
  inFlight : ∀ f ∈ s.network, f.seq.toNat < n ∧ f.payload = pay f.seq.toNat
  seen_lt : ∀ v ∈ s.seen, v < n
  ordered : Ordered pay s.seen s.receiver

namespace ReliableDeliveryLemmas

variable {pay : Nat → List UInt8} {n : Nat} {s : Transfer}

theorem mem_seen {seq : SequenceNumber} : seq.toNat ∈ s.seen ↔ seq ∈ s.accepted := by
  constructor
  · rintro ⟨seq', hmem, heq⟩
    rwa [← UInt64.toNat_inj.mp heq]
  · intro hmem
    exact ⟨seq, hmem, rfl⟩

theorem linked_new {windowSize : UInt32} {policy : TimeoutPolicy} (h : windowSize.toNat ≤ 64) :
    Linked pay 0 (Transfer.new windowSize policy) := by
  have hnone : (Transfer.new windowSize policy).seen = ∅ :=
    Set.eq_empty_of_forall_notMem fun v ⟨_, hmem, _⟩ => absurd hmem List.not_mem_nil
  refine ⟨h, rfl, rfl, Nat.zero_le _, .nil _, fun i hi => absurd hi (Nat.not_lt_zero i),
    fun f hf => absurd hf List.not_mem_nil, fun v hv => ?_, ?_⟩
  · rw [hnone] at hv
    exact absurd hv (Set.notMem_empty v)
  · rw [hnone]
    exact ordered_new

section

variable (h : Linked pay n s)
include h

/-- A frame in flight whose number was never accepted is accepted: it is not below the window base,
and nothing accepted is 64 or more above the base. -/
theorem linked_accepts {frame : ReliableFrame} (hnew : frame.seq ∉ s.accepted) :
    s.receiver.Accepts frame.seq := by
  refine (accepts_iff h.ordered.tracks).mpr ⟨fun hmem => hnew (mem_seen.mp hmem), ?_⟩
  have hbase : s.sender.window.base.toNat ≤ frame.seq.toNat :=
    Nat.not_lt.mp fun hlt => hnew (mem_seen.mp (h.settled _ hlt))
  rcases h.ordered.tracks.top_seen with hzero | hseen
  · omega
  · have hlt := h.seen_lt _ hseen
    have hsize := h.size
    have hroom := h.room
    omega

theorem linked_send {payload : List UInt8} {now : Nat}
    (havail : s.sender.window.windowAvailable ≠ 0) (hpay : payload = pay n) (hn : n + 1 < 2 ^ 64) :
    Linked pay (n + 1)
      { s with
        sender :=
          { s.sender with
            window := { s.sender.window with nextSeq := s.sender.window.nextSeq.next }
            queue := s.sender.queue ++ [⟨⟨s.sender.window.nextSeq, payload⟩, now, 0, .pending⟩] }
        network := s.network ++ [⟨s.sender.window.nextSeq, payload⟩] } := by
  have hsize := h.size
  have hlen : s.sender.queue.length < 64 :=
    Nat.lt_of_lt_of_le (windowAvailable_ne_zero (h.next.trans hsize.symm) havail) h.small
  refine ⟨h.small, ?_, ?_, ?_, ?_, h.settled, ?_, ?_, h.ordered⟩
  · show s.sender.window.nextSeq.next.toNat = n + 1
    rw [next_toNat (by rw [h.next]; omega), h.next]
  · rw [List.length_append, List.length_singleton, ← Nat.add_assoc, hsize]
  · rw [List.length_append, List.length_singleton]
    exact hlen
  · refine queued_snoc h.queued ?_ ?_ (fun hs => nomatch hs)
    · show s.sender.window.nextSeq.toNat = _
      rw [h.next, hsize]
    · show payload = _
      rw [hsize, hpay]
  · intro f hf
    rcases List.mem_append.mp hf with hf | hf
    · obtain ⟨hlt, hp⟩ := h.inFlight f hf
      exact ⟨Nat.lt_succ_of_lt hlt, hp⟩
    · rw [List.mem_singleton.mp hf]
      show s.sender.window.nextSeq.toNat < n + 1 ∧ payload = pay s.sender.window.nextSeq.toNat
      rw [h.next]
      exact ⟨Nat.lt_succ_self n, hpay⟩
  · exact fun v hv => Nat.lt_succ_of_lt (h.seen_lt v hv)

/-- A pass over the queue that keeps the frames and acknowledges nothing. -/
theorem linked_map {f : RetransmissionEntry → RetransmissionEntry}
    (hframe : ∀ entry, (f entry).frame = entry.frame)
    (hstate : ∀ entry, (f entry).state = .acked → entry.state = .acked)
    {again : List ReliableFrame}
    (hagain : ∀ frame ∈ again, ∃ entry ∈ s.sender.queue, entry.frame = frame) :
    Linked pay n
      { s with
        sender := { s.sender with queue := s.sender.queue.map f }
        network := s.network ++ again } := by
  refine ⟨h.small, h.next, ?_, ?_, queued_map hframe hstate h.queued, h.settled, ?_, h.seen_lt,
    h.ordered⟩
  · rw [List.length_map]
    exact h.size
  · rw [List.length_map]
    exact h.room
  · intro frame hmem
    rcases List.mem_append.mp hmem with hmem | hmem
    · exact h.inFlight frame hmem
    · obtain ⟨entry, hentry, rfl⟩ := hagain frame hmem
      rw [← h.size]
      exact queued_mem h.queued entry hentry

theorem linked_markDelivered {seq : SequenceNumber} (hseq : seq ∈ s.accepted) :
    Linked pay n { s with sender := s.sender.markDelivered seq } := by
  obtain ⟨hqueued, hlength⟩ := queued_markFirst (mem_seen.mpr hseq) h.queued
  refine ⟨h.small, h.next, ?_, ?_, hqueued, h.settled, h.inFlight, h.seen_lt, h.ordered⟩
  · show _ + (ReliableSender.markFirst seq s.sender.queue).length = n
    rw [hlength]
    exact h.size
  · show (ReliableSender.markFirst seq s.sender.queue).length ≤ 64
    rw [hlength]
    exact h.room

theorem linked_markAll {seqs : List SequenceNumber} (hseqs : ∀ seq ∈ seqs, seq ∈ s.accepted) :
    Linked pay n
      { s with sender := seqs.foldl (fun self seq => self.markDelivered seq) s.sender } := by
  induction seqs generalizing s with
  | nil => exact h
  | cons seq seqs ih =>
    have hfirst := linked_markDelivered h (hseqs seq List.mem_cons_self)
    exact ih hfirst fun seq' hmem => hseqs seq' (List.mem_cons_of_mem _ hmem)

theorem linked_slide (hn : n < 2 ^ 64) :
    Linked pay n
      { s with
        sender :=
          { s.sender with
            window :=
              { s.sender.window with
                base := (ReliableSender.slideBase s.sender.window.base s.sender.queue).1 }
            queue := (ReliableSender.slideBase s.sender.window.base s.sender.queue).2 } } := by
  obtain ⟨hqueued, hsettled, hsum, hle⟩ :=
    queued_slideBase h.queued (h.size ▸ hn) h.settled
  exact ⟨h.small, h.next, hsum.trans h.size, Nat.le_trans hle h.room, hqueued, hsettled, h.inFlight,
    h.seen_lt, h.ordered⟩

theorem linked_ack {ack : AckFrame} (hn : n < 2 ^ 64)
    (hnamed : ∀ seq ∈ ack.named, seq ∈ s.accepted) :
    Linked pay n { s with sender := (ReliableSender.ack ack s.sender).2 } :=
  linked_slide (linked_markAll h hnamed) hn

theorem linked_receive {frame : ReliableFrame} (hn : n < 2 ^ 64) (hmem : frame ∈ s.network) :
    ∃ ready next, ReliableReceiver.receive frame s.receiver = (.ok ready, next) ∧
      Advanced pay s.receiver ready next ∧
      Linked pay n
        { s with
          receiver := next
          accepted :=
            if s.receiver.Accepts frame.seq then frame.seq :: s.accepted else s.accepted } := by
  obtain ⟨hlt, hpay⟩ := h.inFlight frame hmem
  obtain ⟨ready, next, hcall, hadv, hord⟩ := ordered_receive h.ordered hpay (by omega)
  refine ⟨ready, next, hcall, hadv, ?_⟩
  by_cases hacc : s.receiver.Accepts frame.seq
  · have hseen : Transfer.seen { s with receiver := next, accepted := frame.seq :: s.accepted } =
        insert frame.seq.toNat s.seen := by
      ext v
      simp [Transfer.seen, eq_comm]
    rw [if_pos hacc] at hord ⊢
    have hsub : ∀ v ∈ s.seen, v ∈ insert frame.seq.toNat s.seen :=
      fun v hv => Set.mem_insert_of_mem _ hv
    refine ⟨h.small, h.next, h.size, h.room, ?_, ?_, h.inFlight, ?_, ?_⟩
    · rw [hseen]
      exact queued_mono h.queued hsub
    · rw [hseen]
      exact fun i hi => hsub i (h.settled i hi)
    · rw [hseen]
      rintro v (rfl | hv)
      · exact hlt
      · exact h.seen_lt v hv
    · rw [hseen]
      exact hord
  · rw [if_neg hacc] at hord ⊢
    exact ⟨h.small, h.next, h.size, h.room, h.queued, h.settled, h.inFlight, h.seen_lt, hord⟩

end

theorem map_range_snoc {l : List (List UInt8)} {payload : List UInt8}
    (h : l ++ [payload] = (List.range (l ++ [payload]).length).map pay) :
    l = (List.range l.length).map pay ∧ payload = pay l.length := by
  rw [List.length_append, List.length_singleton, List.range_succ, List.map_append] at h
  obtain ⟨hl, hp⟩ := List.append_inj' h rfl
  exact ⟨hl, List.singleton_inj.mp hp⟩

end ReliableDeliveryLemmas

/-- What holds after a history that sent fewer than 2^64 payloads, whatever function `pay` gives
them by number. -/
structure Delivering (pay : Nat → List UInt8) (h : List TransferEntry) (s : Transfer) : Prop where
  linked : Linked pay (h.filterMap sentPayload).length s
  outputs : h.flatMap deliveredBy = (List.range s.receiver.nextExpected.toNat).map pay
  accepts : ∀ e ∈ h, ∀ frame, arrived e = some frame → frame.seq ∉ e.pre.accepted →
    e.pre.receiver.Accepts frame.seq
  taken : ∀ e ∈ h, ∀ frame, arrived e = some frame → frame.seq ∈ s.accepted

namespace ReliableDeliveryLemmas

variable {pay : Nat → List UInt8} {s : Transfer} {h : List TransferEntry}

/-- A step at the sender leaves what the receiver did as it was. -/
theorem delivering_snoc_sender {e : TransferEntry} {next : Transfer} (hd : Delivering pay h s)
    (harrived : arrived e = none) (hdelivered : deliveredBy e = [])
    (hreceiver : next.receiver = s.receiver) (haccepted : next.accepted = s.accepted)
    (hlinked : Linked pay ((h ++ [e]).filterMap sentPayload).length next) :
    Delivering pay (h ++ [e]) next := by
  refine ⟨hlinked, ?_, ?_, ?_⟩
  · rw [List.flatMap_append, List.flatMap_singleton, hdelivered, List.append_nil, hreceiver]
    exact hd.outputs
  · intro e' he' frame hframe
    rcases List.mem_append.mp he' with he' | he'
    · exact hd.accepts e' he' frame hframe
    · rw [List.mem_singleton.mp he', harrived] at hframe
      exact nomatch hframe
  · intro e' he' frame hframe
    rw [haccepted]
    rcases List.mem_append.mp he' with he' | he'
    · exact hd.taken e' he' frame hframe
    · rw [List.mem_singleton.mp he', harrived] at hframe
      exact nomatch hframe

theorem filterMap_snoc_none {e : TransferEntry} (he : sentPayload e = none) :
    (h ++ [e]).filterMap sentPayload = h.filterMap sentPayload := by
  rw [filterMap_snoc, he]
  exact List.append_nil _

/-- The step of an arriving frame. -/
theorem delivering_receive {frame : ReliableFrame} (hd : Delivering pay h s)
    (hn : (h.filterMap sentPayload).length < 2 ^ 64) (hmem : frame ∈ s.network) :
    Delivering pay (h ++ [stepEntry transferStep s (.frameArrives frame)])
      (transferStep s (.frameArrives frame)).2 := by
  obtain ⟨ready, next, hcall, hadv, hlinked⟩ := linked_receive hd.linked hn hmem
  have hstep : transferStep s (.frameArrives frame) = (.received (.ok ready),
      { s with
        receiver := next
        accepted :=
          if s.receiver.Accepts frame.seq then frame.seq :: s.accepted else s.accepted }) := by
    simp only [transferStep, hcall]
  have hgrows : ∀ seq ∈ s.accepted, seq ∈
      if s.receiver.Accepts frame.seq then frame.seq :: s.accepted else s.accepted := by
    intro seq hseq
    split
    · exact List.mem_cons_of_mem _ hseq
    · exact hseq
  rw [stepEntry, hstep]
  refine ⟨?_, ?_, ?_, ?_⟩
  · rw [filterMap_snoc_none rfl]
    exact hlinked
  · rw [List.flatMap_append, List.flatMap_singleton]
    exact advanced_outputs hadv hd.outputs
  · intro e he frame' hframe hnew
    rcases List.mem_append.mp he with he | he
    · exact hd.accepts e he frame' hframe hnew
    · rw [List.mem_singleton.mp he] at hframe hnew ⊢
      cases hframe
      exact linked_accepts hd.linked hnew
  · intro e he frame' hframe
    rcases List.mem_append.mp he with he | he
    · exact hgrows _ (hd.taken e he frame' hframe)
    · rw [List.mem_singleton.mp he] at hframe
      cases hframe
      show frame.seq ∈ if s.receiver.Accepts frame.seq then frame.seq :: s.accepted else s.accepted
      split
      · exact List.mem_cons_self
      · next hrefused =>
        exact Decidable.byContradiction fun hnew => hrefused (linked_accepts hd.linked hnew)

/-- The step of a `send`. -/
theorem delivering_send {payload : List UInt8} {now : Nat}
    (hn : ((h ++ [stepEntry transferStep s (.send payload now)]).filterMap sentPayload).length < 2 ^ 64)
    (hsent : (h ++ [stepEntry transferStep s (.send payload now)]).filterMap sentPayload =
      (List.range
        ((h ++ [stepEntry transferStep s (.send payload now)]).filterMap sentPayload).length).map pay)
    (ih : (h.filterMap sentPayload).length < 2 ^ 64 →
      h.filterMap sentPayload = (List.range (h.filterMap sentPayload).length).map pay →
      Delivering pay h s) :
    Delivering pay (h ++ [stepEntry transferStep s (.send payload now)])
      (transferStep s (.send payload now)).2 := by
  rcases send_cases payload now s.sender with hcall | ⟨havail, hcall⟩
  · have hstep : transferStep s (.send payload now) = (.sent (.err .windowFull), s) := by
      simp only [transferStep, hcall, sentFrame, List.append_nil]
    rw [stepEntry, hstep] at hn hsent ⊢
    rw [filterMap_snoc_none rfl] at hn hsent
    refine delivering_snoc_sender (ih hn hsent) rfl rfl rfl rfl ?_
    rw [filterMap_snoc_none rfl]
    exact (ih hn hsent).linked
  · rw [stepEntry] at hn hsent ⊢
    simp only [transferStep, hcall, sentFrame] at hn hsent ⊢
    rw [filterMap_snoc] at hn hsent
    obtain ⟨hbefore, hpay⟩ := map_range_snoc hsent
    rw [sentPayload, Option.toList, List.length_append, List.length_singleton] at hn
    have hd := ih (Nat.lt_of_succ_lt hn) hbefore
    refine delivering_snoc_sender hd rfl rfl rfl rfl ?_
    rw [filterMap_snoc, sentPayload, Option.toList, List.length_append, List.length_singleton]
    exact linked_send hd.linked havail hpay hn

theorem delivering_step {op : TransferOp} (hallows : NetworkAllows s op)
    (hn : ((h ++ [stepEntry transferStep s op]).filterMap sentPayload).length < 2 ^ 64)
    (hsent : (h ++ [stepEntry transferStep s op]).filterMap sentPayload =
      (List.range ((h ++ [stepEntry transferStep s op]).filterMap sentPayload).length).map pay)
    (ih : (h.filterMap sentPayload).length < 2 ^ 64 →
      h.filterMap sentPayload = (List.range (h.filterMap sentPayload).length).map pay →
      Delivering pay h s) :
    Delivering pay (h ++ [stepEntry transferStep s op]) (transferStep s op).2 := by
  cases op with
  | send payload now => exact delivering_send hn hsent ih
  | markTimeout now =>
    rw [filterMap_snoc_none rfl] at hn hsent
    have hd := ih hn hsent
    refine delivering_snoc_sender hd rfl rfl rfl rfl ?_
    rw [filterMap_snoc_none rfl]
    rw [show (transferStep s (.markTimeout now)).2 =
      { s with
        sender := ((s.sender.markTimeout now).2)
        network := s.network ++ [] } by rw [List.append_nil]; rfl]
    refine linked_map hd.linked (fun entry => ?_) (fun entry hs => ?_) fun frame hf => ?_
    · split <;> rfl
    · split at hs
      · exact nomatch hs
      · exact hs
    · exact absurd hf List.not_mem_nil
  | retransmit now =>
    rw [filterMap_snoc_none rfl] at hn hsent
    have hd := ih hn hsent
    refine delivering_snoc_sender hd rfl rfl rfl rfl ?_
    rw [filterMap_snoc_none rfl]
    refine linked_map hd.linked (fun entry => ?_) (fun entry hs => ?_) fun frame hf => ?_
    · split <;> rfl
    · split at hs
      · exact nomatch hs
      · exact hs
    · obtain ⟨entry, hentry, heq⟩ := List.mem_map.mp hf
      exact ⟨entry, (List.mem_filter.mp hentry).1, heq⟩
  | ackArrives ack =>
    rw [filterMap_snoc_none rfl] at hn hsent
    have hd := ih hn hsent
    refine delivering_snoc_sender hd rfl rfl rfl rfl ?_
    rw [filterMap_snoc_none rfl]
    exact linked_ack hd.linked hn hallows
  | frameArrives frame =>
    have hnone : sentPayload (stepEntry transferStep s (.frameArrives frame)) = none := rfl
    rw [filterMap_snoc_none hnone] at hn hsent
    exact delivering_receive (ih hn hsent) hn hallows

theorem delivering_run {windowSize : UInt32} {policy : TimeoutPolicy} {ops : List TransferOp}
    (hwindow : windowSize.toNat ≤ 64)
    (hallows : ∀ e ∈ run transferStep (Transfer.new windowSize policy) ops,
      NetworkAllows e.pre e.input)
    (hn : ((run transferStep (Transfer.new windowSize policy) ops).filterMap sentPayload).length <
      2 ^ 64)
    (hsent : (run transferStep (Transfer.new windowSize policy) ops).filterMap sentPayload =
      (List.range ((run transferStep (Transfer.new windowSize policy) ops).filterMap
        sentPayload).length).map pay) :
    Delivering pay (run transferStep (Transfer.new windowSize policy) ops)
      (endState transferStep (Transfer.new windowSize policy) ops) := by
  refine run_guarded (G := NetworkAllows)
    (P := fun h s => (h.filterMap sentPayload).length < 2 ^ 64 →
      h.filterMap sentPayload = (List.range (h.filterMap sentPayload).length).map pay →
      Delivering pay h s) ?_ ?_ hallows hn hsent
  · intro _ _
    exact ⟨linked_new hwindow, rfl, fun e he => absurd he List.not_mem_nil,
      fun e he => absurd he List.not_mem_nil⟩
  · intro h s op ih hg hlength hbefore
    exact delivering_step hg hlength hbefore ih

end ReliableDeliveryLemmas

open ReliableDeliveryLemmas

/-- No loss over a network that drops, duplicates, delays and reorders: a frame whose number was
never accepted is accepted when it arrives, and once every sent number has arrived the payloads
delivered are the payloads sent. -/
theorem reliable_delivery {windowSize : UInt32} {policy : TimeoutPolicy} {ops : List TransferOp}
    (hwindow : windowSize.toNat ≤ 64)
    (hallows : ∀ e ∈ run transferStep (Transfer.new windowSize policy) ops,
      NetworkAllows e.pre e.input)
    (hsends : ((run transferStep (Transfer.new windowSize policy) ops).filterMap
      sentPayload).length < 2 ^ 64) :
    let entries := run transferStep (Transfer.new windowSize policy) ops
    (∀ e ∈ entries, ∀ frame, arrived e = some frame → frame.seq ∉ e.pre.accepted →
        e.pre.receiver.Accepts frame.seq) ∧
      ((∀ i < (entries.filterMap sentPayload).length,
          ∃ e ∈ entries, (arrived e).map (fun frame => frame.seq.toNat) = some i) →
        entries.flatMap deliveredBy = entries.filterMap sentPayload) := by
  intro entries
  have hd := delivering_run hwindow hallows hsends (range_map_getD _).symm
  refine ⟨hd.accepts, fun harrived => ?_⟩
  have hseen : ∀ v, v ∈ (endState transferStep (Transfer.new windowSize policy) ops).seen ↔
      v < (entries.filterMap sentPayload).length := by
    refine fun v => ⟨hd.linked.seen_lt v, fun hv => ?_⟩
    obtain ⟨e, he, hmap⟩ := harrived v hv
    obtain ⟨frame, hframe, rfl⟩ := Option.map_eq_some_iff.mp hmap
    exact mem_seen.mpr (hd.taken e he frame hframe)
  calc
    entries.flatMap deliveredBy
      = (List.range (entries.filterMap sentPayload).length).map
          fun i => (entries.filterMap sentPayload).getD i [] := by
        rw [hd.outputs, next_eq_of_seen hd.linked.ordered hseen]
    _ = entries.filterMap sentPayload := range_map_getD _

/-- Frame 1 overtakes frame 0 and is acknowledged; frame 0 is lost, times out and is sent again;
frame 1 arrives once more. -/
theorem reliable_delivery_retransmitted :
    let ops : List TransferOp := [.send [10] 0, .send [11] 0, .frameArrives ⟨1, [11]⟩,
      .ackArrives ⟨1, 0⟩, .markTimeout 9, .retransmit 9, .frameArrives ⟨0, [10]⟩,
      .frameArrives ⟨1, [11]⟩]
    let entries := run transferStep (Transfer.new 4 ⟨5, 3⟩) ops
    entries.flatMap deliveredBy = entries.filterMap sentPayload :=
  (reliable_delivery (by decide) (by decide +kernel) (by decide +kernel)).2 (by decide +kernel)

end Blackwing.Protocol

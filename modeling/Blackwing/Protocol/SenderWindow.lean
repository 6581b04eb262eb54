import Blackwing.Protocol.ReliableDelivery

/-!
# The window of the reliable sender

Runs of the five operations of `ReliableSender`, with acknowledgments that may name any
numbers. What holds of the queue follows from one fact: it is the list of the frames that
`send` returned so far, without those below the window base.

1. `Windowed`: the queue, the window and the frames that were sent. Every operation keeps
   it; `slideBase_spec` is what the loop of `ack` does to it.
2. `Budgeted`: how often each frame was handed out.
3. `Progress`: the base does not go back, and what is acknowledged stays so or is below it.
4. `sender_keeps_window`: all of it for every run.
-/

namespace Blackwing.Protocol

open ReliableSender

/-! ## Runs of a sender -/

/-- A call of the sender. -/
inductive SenderOp where
  | send (payload : List UInt8) (now : Nat)
  | ack (frame : AckFrame)
  | markDelivered (seq : SequenceNumber)
  | markTimeout (now : Nat)
  | retransmit (now : Nat)
deriving DecidableEq

/-- What the call returned. -/
inductive SenderOut where
  | sent (r : Outcome ProtocolError ReliableFrame)
  | acked (r : Outcome ProtocolError Unit)
  | delivered
  | timedOut (seqs : List SequenceNumber)
  | retransmitted (frames : List ReliableFrame)
deriving DecidableEq

/-- One call. -/
def senderStep (self : ReliableSender) : SenderOp → SenderOut × ReliableSender
  | .send payload now =>
    let call := send payload now self
    (.sent call.1, call.2)
  | .ack frame =>
    let call := ack frame self
    (.acked call.1, call.2)
  | .markDelivered seq => (.delivered, self.markDelivered seq)
  | .markTimeout now =>
    let call := self.markTimeout now
    (.timedOut call.1, call.2)
  | .retransmit now =>
    let call := self.retransmit now
    (.retransmitted call.1, call.2)

/-- An entry of a run. -/
abbrev SenderEntry : Type := Entry ReliableSender SenderOp SenderOut

/-- The calls on a new sender. -/
def senderRun (windowSize : UInt32) (policy : TimeoutPolicy) (ops : List SenderOp) :
    List SenderEntry :=
  run senderStep (ReliableSender.new windowSize policy) ops

/-- The sender after the calls. -/
def senderAfter (windowSize : UInt32) (policy : TimeoutPolicy) (ops : List SenderOp) :
    ReliableSender :=
  endState senderStep (ReliableSender.new windowSize policy) ops

/-- The frame of a `send` that did not find the window full. -/
def sentBy (out : SenderOut) : List ReliableFrame :=
  match out with
  | .sent r => sentFrame r
  | _ => []

/-- The frames that a call hands out to be transmitted. -/
def handedBy (out : SenderOut) : List ReliableFrame :=
  match out with
  | .sent r => sentFrame r
  | .retransmitted frames => frames
  | _ => []

/-- The frames that were sent in a run, oldest first. -/
def sentIn (h : List SenderEntry) : List ReliableFrame := h.flatMap fun e => sentBy e.out

/-- The frames that were handed out in a run, as often as they were. -/
def handedIn (h : List SenderEntry) : List ReliableFrame := h.flatMap fun e => handedBy e.out

/-- How often a number was handed out. -/
def timesHanded (seq : SequenceNumber) (handed : List ReliableFrame) : Nat :=
  handed.countP fun f => f.seq = seq

/-! ## The invariants -/

/-- Frames numbered from zero, in order. -/
def Numbered (sent : List ReliableFrame) : Prop :=
  (sent.map fun f => f.seq.toNat) = List.range sent.length

/-- The queue holds the frames that were sent, from the window base on. -/
structure Windowed (windowSize : UInt32) (sent : List ReliableFrame) (s : ReliableSender) :
    Prop where
  size : s.window.windowSize = windowSize
  numbered : Numbered sent
  next : s.window.nextSeq.toNat = sent.length
  base_le : s.window.base.toNat ≤ sent.length
  queue : s.queue.map RetransmissionEntry.frame = sent.drop s.window.base.toNat
  room : s.queue.length ≤ windowSize.toNat

/-- A frame in the queue was handed out once and at each of its retransmissions. -/
structure Budgeted (policy : TimeoutPolicy) (sent handed : List ReliableFrame)
    (s : ReliableSender) : Prop where
  policy_eq : s.policy = policy
  handed_sent : ∀ f ∈ handed, f ∈ sent
  spent : ∀ e ∈ s.queue, timesHanded e.frame.seq handed = 1 + e.retransmissions.toNat
  allowed : ∀ e ∈ s.queue, e.retransmissions ≤ policy.maxRetransmissions
  limit : ∀ seq, timesHanded seq handed ≤ 1 + policy.maxRetransmissions.toNat

/-- The number is below the window base, or acknowledged in the queue. -/
def Settled (n : Nat) (s : ReliableSender) : Prop :=
  n < s.window.base.toNat ∨ ∃ e ∈ s.queue, e.frame.seq.toNat = n ∧ e.state = .acked

/-- The base does not go back, and what is settled stays so. -/
structure Progress (s t : ReliableSender) : Prop where
  base_le : s.window.base ≤ t.window.base
  settled : ∀ n, Settled n s → Settled n t

/-- What holds after a call, with the frames sent and handed out so far. -/
structure Advances (windowSize : UInt32) (policy : TimeoutPolicy) (sent handed : List ReliableFrame)
    (s t : ReliableSender) : Prop where
  windowed : Windowed windowSize sent t
  budgeted : Budgeted policy sent handed t
  progress : Progress s t

/-- What the loop of `ack` makes of a queue that starts at `base`. -/
structure Slid (sent : List ReliableFrame) (base : SequenceNumber)
    (queue : List RetransmissionEntry) (base' : SequenceNumber)
    (queue' : List RetransmissionEntry) : Prop where
  base_le : base.toNat ≤ base'.toNat
  le_length : base'.toNat ≤ sent.length
  frames : queue'.map RetransmissionEntry.frame = sent.drop base'.toNat
  suffix : queue' <:+ queue
  removed : ∀ e ∈ queue, e ∈ queue' ∨ e.frame.seq.toNat < base'.toNat
  head : ∀ e, queue'.head? = some e → e.state ≠ .acked

namespace SenderLemmas

open ReliabilityLemmas ReliableDeliveryLemmas

variable {windowSize : UInt32} {policy : TimeoutPolicy} {sent handed : List ReliableFrame}
  {s : ReliableSender}

/-! ### What the window says of the queue -/

section

variable (h : Windowed windowSize sent s)
include h

theorem length_queue :
    s.window.base.toNat + s.queue.length = sent.length := by
  have hlen := congrArg List.length h.queue
  rw [List.length_map, List.length_drop] at hlen
  rw [hlen, Nat.add_sub_cancel' h.base_le]

theorem next_eq :
    s.window.nextSeq.toNat = s.window.base.toNat + s.queue.length := by
  rw [h.next, length_queue h]

/-- The queue holds exactly the numbers from the base to the next one, in order. -/
theorem seqs_queue :
    (s.queue.map fun e => e.frame.seq.toNat) =
      List.range' s.window.base.toNat
        (s.window.nextSeq.toNat - s.window.base.toNat) := by
  have hmap : (s.queue.map fun e => e.frame.seq.toNat) =
      (s.queue.map RetransmissionEntry.frame).map fun f => f.seq.toNat := by
    rw [List.map_map]
    rfl
  rw [hmap, h.queue, List.map_drop, h.numbered, h.next, List.range_eq_range', List.drop_range']
  simp

theorem seqs_nodup :
    (s.queue.map fun e => e.frame.seq.toNat).Nodup := by
  rw [seqs_queue h]
  exact List.nodup_range'

end

variable {e : RetransmissionEntry} {f : ReliableFrame}

theorem base_le_seq (h : Windowed windowSize sent s) (he : e ∈ s.queue) :
    s.window.base.toNat ≤ e.frame.seq.toNat := by
  have hmem : e.frame.seq.toNat ∈ s.queue.map fun e => e.frame.seq.toNat :=
    List.mem_map_of_mem he
  rw [seqs_queue h, List.mem_range'_1] at hmem
  exact hmem.1

theorem frame_mem_sent (h : Windowed windowSize sent s) (he : e ∈ s.queue) : e.frame ∈ sent := by
  have hmem : e.frame ∈ s.queue.map RetransmissionEntry.frame := List.mem_map_of_mem he
  rw [h.queue] at hmem
  exact List.mem_of_mem_drop hmem

/-- One number, one frame. -/
theorem eq_of_seq_eq (h : Numbered sent) {g : ReliableFrame} (hf : f ∈ sent) (hg : g ∈ sent)
    (hseq : f.seq = g.seq) : f = g := by
  have hnodup : (sent.map fun f => f.seq.toNat).Nodup := by
    rw [h]
    exact List.nodup_range
  exact List.inj_on_of_nodup_map hnodup hf hg (congrArg UInt64.toNat hseq)

theorem seq_lt_of_mem_sent (h : Numbered sent) (hf : f ∈ sent) : f.seq.toNat < sent.length := by
  have hmem : f.seq.toNat ∈ sent.map fun f => f.seq.toNat := List.mem_map_of_mem hf
  rw [h] at hmem
  exact List.mem_range.mp hmem

/-- Entries of one number are one entry. -/
theorem entry_eq (h : Windowed windowSize sent s) {e' : RetransmissionEntry} (he : e ∈ s.queue)
    (he' : e' ∈ s.queue) (hseq : e.frame.seq.toNat = e'.frame.seq.toNat) :
    e = e' :=
  List.inj_on_of_nodup_map (seqs_nodup h) he he' hseq

theorem acked_of_settled (h : Windowed windowSize sent s) (he : e ∈ s.queue)
    (hs : Settled e.frame.seq.toNat s) : e.state = .acked := by
  rcases hs with hlt | ⟨e', he', hseq, hacked⟩
  · exact absurd (base_le_seq h he) (Nat.not_le.mpr hlt)
  · rwa [entry_eq h he he' hseq.symm]

theorem progress_refl (s : ReliableSender) : Progress s s :=
  ⟨UInt64.le_refl _, fun _ h => h⟩

theorem progress_trans {a b c : ReliableSender} (hab : Progress a b) (hbc : Progress b c) :
    Progress a c :=
  ⟨UInt64.le_trans hab.base_le hbc.base_le, fun n h => hbc.settled n (hab.settled n h)⟩

/-! ### Passes over the queue -/

/-- What every pass keeps of an entry. -/
structure Passed (e e' : RetransmissionEntry) : Prop where
  frame : e'.frame = e.frame
  acked : e.state = .acked → e'.state = .acked

/-- What the passes of `mark_delivered` and `mark_timeout` keep of an entry. -/
structure Kept (e e' : RetransmissionEntry) : Prop extends Passed e e' where
  retransmissions : e'.retransmissions = e.retransmissions

theorem Kept.refl (e : RetransmissionEntry) : Kept e e := ⟨⟨rfl, fun h => h⟩, rfl⟩

theorem kept_markFirst (seq : SequenceNumber) (queue : List RetransmissionEntry) :
    List.Forall₂ Kept queue (markFirst seq queue) := by
  induction queue with
  | nil => exact .nil
  | cons e rest ih =>
    rw [markFirst]
    split
    · exact .cons ⟨⟨rfl, fun _ => rfl⟩, rfl⟩ (List.forall₂_same.mpr fun e _ => Kept.refl e)
    · exact .cons (Kept.refl e) ih

theorem kept_markTimeout (policy : TimeoutPolicy) (now : Nat) (queue : List RetransmissionEntry) :
    List.Forall₂ Kept queue (queue.map fun e =>
      if Expired policy now e then { e with state := .timedOut } else e) := by
  rw [List.forall₂_map_right_iff, List.forall₂_same]
  intro e _
  split
  · next hexpired => exact ⟨⟨rfl, fun h => nomatch h.symm.trans hexpired.1⟩, rfl⟩
  · exact Kept.refl e

variable {queue : List RetransmissionEntry}

theorem frames_of_passed {queue' : List RetransmissionEntry} (h : List.Forall₂ Passed queue queue') :
    queue'.map RetransmissionEntry.frame = queue.map RetransmissionEntry.frame := by
  induction h with
  | nil => rfl
  | cons hpassed _ ih => rw [List.map_cons, List.map_cons, hpassed.frame, ih]

theorem windowed_of_passed (h : Windowed windowSize sent s)
    (hpassed : List.Forall₂ Passed s.queue queue) : Windowed windowSize sent { s with queue } where
  size := h.size
  numbered := h.numbered
  next := h.next
  base_le := h.base_le
  queue := (frames_of_passed hpassed).trans h.queue
  room := hpassed.length_eq ▸ h.room

theorem progress_of_passed (hpassed : List.Forall₂ Passed s.queue queue) :
    Progress s { s with queue } where
  base_le := UInt64.le_refl _
  settled := by
    rintro n (hlt | ⟨e, he, hseq, hstate⟩)
    · exact Or.inl hlt
    · obtain ⟨e', he', hpass⟩ := exists_mem_of_forall₂ hpassed e he
      exact Or.inr ⟨e', he', by rw [hpass.frame, hseq], hpass.acked hstate⟩

theorem budgeted_of_kept (h : Budgeted policy sent handed s)
    (hkept : List.Forall₂ Kept s.queue queue) :
    Budgeted policy sent handed { s with queue } := by
  have hentry : ∀ e' ∈ queue, ∃ e ∈ s.queue, Kept e e' := exists_mem_of_forall₂ hkept.flip
  refine ⟨h.policy_eq, h.handed_sent, ?_, ?_, h.limit⟩
  · intro e' he'
    obtain ⟨e, he, hk⟩ := hentry e' he'
    rw [hk.frame, hk.retransmissions]
    exact h.spent e he
  · intro e' he'
    obtain ⟨e, he, hk⟩ := hentry e' he'
    rw [hk.retransmissions]
    exact h.allowed e he

theorem advances_of_kept (hw : Windowed windowSize sent s) (hb : Budgeted policy sent handed s)
    (hkept : List.Forall₂ Kept s.queue queue) :
    Advances windowSize policy sent handed s { s with queue } := by
  have hpassed : List.Forall₂ Passed s.queue queue := hkept.imp fun _ _ h => h.toPassed
  exact ⟨windowed_of_passed hw hpassed, budgeted_of_kept hb hkept, progress_of_passed hpassed⟩

/-! ### Sending -/

theorem timesHanded_append (seq : SequenceNumber) (handed more : List ReliableFrame) :
    timesHanded seq (handed ++ more) = timesHanded seq handed + timesHanded seq more :=
  List.countP_append

theorem timesHanded_eq_zero {seq : SequenceNumber} {handed : List ReliableFrame}
    (h : ∀ f ∈ handed, f.seq ≠ seq) : timesHanded seq handed = 0 :=
  List.countP_eq_zero.mpr fun f hf heq => h f hf (of_decide_eq_true heq)

/-- The sender after `send` with room in the window. -/
def afterSend (payload : List UInt8) (now : Nat) (s : ReliableSender) : ReliableSender :=
  { s with
    window := { s.window with nextSeq := s.window.nextSeq.next }
    queue := s.queue ++ [⟨⟨s.window.nextSeq, payload⟩, now, 0, .pending⟩] }

theorem windowed_send (h : Windowed windowSize sent s) (havail : s.window.windowAvailable ≠ 0)
    (hsent : sent.length + 1 < 2 ^ 64) (payload : List UInt8) (now : Nat) :
    Windowed windowSize (sent ++ [⟨s.window.nextSeq, payload⟩]) (afterSend payload now s) where
  size := h.size
  numbered := by
    rw [Numbered, List.map_append, h.numbered, List.length_append, List.length_singleton,
      List.range_succ]
    exact congrArg (List.range sent.length ++ [·]) h.next
  next := by
    show s.window.nextSeq.next.toNat = _
    rw [next_toNat (by rw [h.next]; omega), h.next, List.length_append, List.length_singleton]
  base_le := by
    rw [List.length_append]
    exact Nat.le_trans h.base_le (Nat.le_add_right _ _)
  queue := by
    show (s.queue ++ [_]).map RetransmissionEntry.frame = _
    rw [List.map_append, h.queue]
    exact (List.drop_append_of_le_length h.base_le).symm
  room := by
    have hroom := windowAvailable_ne_zero (next_eq h) havail
    rw [h.size] at hroom
    show (s.queue ++ [_]).length ≤ _
    rw [List.length_append, List.length_singleton]
    exact hroom

theorem budgeted_send (hw : Windowed windowSize sent s) (h : Budgeted policy sent handed s)
    (payload : List UInt8) (now : Nat) :
    Budgeted policy (sent ++ [⟨s.window.nextSeq, payload⟩])
      (handed ++ [⟨s.window.nextSeq, payload⟩]) (afterSend payload now s) := by
  -- the next number was not handed out before
  have hfresh : ∀ f ∈ sent, f.seq ≠ s.window.nextSeq := by
    intro f hf heq
    have hlt := seq_lt_of_mem_sent hw.numbered hf
    rw [heq, hw.next] at hlt
    exact Nat.lt_irrefl _ hlt
  have hzero : timesHanded s.window.nextSeq handed = 0 :=
    timesHanded_eq_zero fun f hf => hfresh f (h.handed_sent f hf)
  have hnew : timesHanded s.window.nextSeq [(⟨s.window.nextSeq, payload⟩ : ReliableFrame)] =
      1 := by
    simp [timesHanded]
  have hother : ∀ seq, seq ≠ s.window.nextSeq →
      timesHanded seq [(⟨s.window.nextSeq, payload⟩ : ReliableFrame)] = 0 := by
    intro seq hne
    refine timesHanded_eq_zero fun f hf => ?_
    rw [List.mem_singleton.mp hf]
    exact Ne.symm hne
  refine ⟨h.policy_eq, ?_, ?_, ?_, ?_⟩
  · intro f hf
    rcases List.mem_append.mp hf with hf | hf
    · exact List.mem_append_left _ (h.handed_sent f hf)
    · exact List.mem_append_right _ hf
  · intro e he
    rcases List.mem_append.mp he with he | he
    · rw [timesHanded_append, hother _ (hfresh _ (frame_mem_sent hw he)), h.spent e he,
        Nat.add_zero]
    · rw [List.mem_singleton.mp he, timesHanded_append, hzero, hnew]
      rfl
  · intro e he
    rcases List.mem_append.mp he with he | he
    · exact h.allowed e he
    · rw [List.mem_singleton.mp he]
      exact UInt32.zero_le
  · intro seq
    rw [timesHanded_append]
    by_cases hseq : seq = s.window.nextSeq
    · rw [hseq, hzero, hnew, Nat.zero_add]
      exact Nat.le_add_right _ _
    · rw [hother seq hseq]
      exact h.limit seq

theorem progress_send (payload : List UInt8) (now : Nat) (s : ReliableSender) :
    Progress s (afterSend payload now s) where
  base_le := UInt64.le_refl _
  settled := by
    rintro n (hlt | ⟨e, he, hseq, hstate⟩)
    · exact Or.inl hlt
    · exact Or.inr ⟨e, List.mem_append_left _ he, hseq, hstate⟩

/-! ### Retransmission -/

/-- An entry after a pass of `retransmit`. -/
def retried (policy : TimeoutPolicy) (now : Nat) (e : RetransmissionEntry) : RetransmissionEntry :=
  if Retryable policy e then
    { e with
      retransmissions := e.retransmissions + 1
      sentAt := now
      state := .pending }
  else e

theorem passed_retried (policy : TimeoutPolicy) (now : Nat) (e : RetransmissionEntry) :
    Passed e (retried policy now e) := by
  unfold retried
  split
  · next hretry => exact ⟨rfl, fun h => nomatch h.symm.trans hretry.1⟩
  · exact ⟨rfl, fun h => h⟩

/-- A pass of `retransmit` hands out a frame of the queue once if it may be sent again. -/
theorem timesHanded_retransmit (h : Windowed windowSize sent s) (now : Nat) (he : e ∈ s.queue) :
    timesHanded e.frame.seq (s.retransmit now).1 = if Retryable s.policy e then 1 else 0 := by
  have hnodup : ((s.queue.filter fun x => Retryable s.policy x).map
      fun x => x.frame.seq.toNat).Nodup :=
    (seqs_nodup h).sublist (List.filter_sublist.map _)
  have hcount : timesHanded e.frame.seq (s.retransmit now).1 =
      ((s.queue.filter fun x => Retryable s.policy x).map fun x => x.frame.seq.toNat).count
        e.frame.seq.toNat := by
    unfold retransmit timesHanded
    rw [List.count, List.countP_map, List.countP_map]
    refine List.countP_congr fun x _ => ?_
    simp [UInt64.toNat_inj]
  rw [hcount, hnodup.count]
  refine if_congr ?_ rfl rfl
  constructor
  · intro hmem
    obtain ⟨x, hx, hseq⟩ := List.mem_map.mp hmem
    rw [List.mem_filter] at hx
    rw [← entry_eq h hx.1 he hseq]
    exact of_decide_eq_true hx.2
  · intro hretry
    exact List.mem_map_of_mem (List.mem_filter.mpr ⟨he, decide_eq_true hretry⟩)

section

variable (hw : Windowed windowSize sent s)
include hw

/-- An entry pays for the frame that it hands out, and only within the policy. -/
theorem spent_retried (h : Budgeted policy sent handed s) (now : Nat) (he : e ∈ s.queue) :
    timesHanded e.frame.seq (handed ++ (s.retransmit now).1) =
        1 + (retried s.policy now e).retransmissions.toNat ∧
      (retried s.policy now e).retransmissions ≤ policy.maxRetransmissions := by
  rw [timesHanded_append, h.spent e he, timesHanded_retransmit hw now he]
  unfold retried
  split
  · next hretry =>
    have hlt : e.retransmissions < policy.maxRetransmissions := h.policy_eq ▸ hretry.2
    have hnext : (e.retransmissions + 1).toNat = e.retransmissions.toNat + 1 := by
      have hmax := policy.maxRetransmissions.toNat_lt
      rw [UInt32.lt_iff_toNat_lt] at hlt
      rw [UInt32.toNat_add, UInt32.toNat_one]
      omega
    refine ⟨by rw [hnext, Nat.add_assoc], ?_⟩
    rw [UInt32.le_iff_toNat_le, hnext]
    exact hlt
  · exact ⟨rfl, h.allowed e he⟩

theorem budgeted_retransmit (h : Budgeted policy sent handed s) (now : Nat) :
    Budgeted policy sent (handed ++ (s.retransmit now).1) (s.retransmit now).2 := by
  have hmem : ∀ e' ∈ (s.retransmit now).2.queue, ∃ e ∈ s.queue,
      retried s.policy now e = e' := fun e' he' => List.mem_map.mp he'
  refine ⟨h.policy_eq, ?_, ?_, ?_, ?_⟩
  · intro f hf
    rcases List.mem_append.mp hf with hf | hf
    · exact h.handed_sent f hf
    · obtain ⟨e, he, rfl⟩ := List.mem_map.mp hf
      exact frame_mem_sent hw (List.mem_of_mem_filter he)
  · intro e' he'
    obtain ⟨e, he, rfl⟩ := hmem e' he'
    rw [(passed_retried s.policy now e).frame]
    exact (spent_retried hw h now he).1
  · intro e' he'
    obtain ⟨e, he, rfl⟩ := hmem e' he'
    exact (spent_retried hw h now he).2
  · intro seq
    by_cases hqueue : ∃ e ∈ s.queue, e.frame.seq = seq
    · obtain ⟨e, he, rfl⟩ := hqueue
      rw [(spent_retried hw h now he).1]
      exact Nat.add_le_add_left (UInt32.le_iff_toNat_le.mp (spent_retried hw h now he).2) 1
    · have hzero : timesHanded seq (s.retransmit now).1 = 0 := by
        refine timesHanded_eq_zero fun f hf heq => ?_
        obtain ⟨e, he, rfl⟩ := List.mem_map.mp hf
        exact hqueue ⟨e, List.mem_of_mem_filter he, heq⟩
      rw [timesHanded_append, hzero]
      exact h.limit seq

theorem advances_retransmit (hb : Budgeted policy sent handed s) (now : Nat) :
    Advances windowSize policy sent (handed ++ (s.retransmit now).1) s (s.retransmit now).2 := by
  have hpassed : List.Forall₂ Passed s.queue (s.retransmit now).2.queue :=
    List.forall₂_map_right_iff.mpr (List.forall₂_same.mpr fun e _ => passed_retried s.policy now e)
  exact ⟨windowed_of_passed hw hpassed, budgeted_retransmit hw hb now, progress_of_passed hpassed⟩

/-! ### Acknowledgment -/

theorem advances_markAll (hb : Budgeted policy sent handed s) (seqs : List SequenceNumber) :
    Advances windowSize policy sent handed s
      (seqs.foldl (fun self seq => self.markDelivered seq) s) := by
  induction seqs generalizing s with
  | nil => exact ⟨hw, hb, progress_refl s⟩
  | cons seq seqs ih =>
    have hfirst := advances_of_kept hw hb (kept_markFirst seq s.queue)
    have hrest := ih hfirst.windowed hfirst.budgeted
    exact ⟨hrest.windowed, hrest.budgeted, progress_trans hfirst.progress hrest.progress⟩

end

theorem seq_of_getElem? (h : Numbered sent) {i : Nat} (hf : sent[i]? = some f) :
    f.seq.toNat = i := by
  have hlt : i < sent.length := (List.getElem?_eq_some_iff.mp hf).1
  have hi := congrArg (fun l => l[i]?) h
  simp only [List.getElem?_map, hf, List.getElem?_range hlt] at hi
  exact Option.some.inj hi

theorem slideBase_spec {base : SequenceNumber} (hnumbered : Numbered sent)
    (hlength : sent.length < 2 ^ 64) (hbase : base.toNat ≤ sent.length)
    (hframes : queue.map RetransmissionEntry.frame = sent.drop base.toNat) :
    Slid sent base queue (slideBase base queue).1 (slideBase base queue).2 := by
  induction queue generalizing base with
  | nil => exact ⟨Nat.le_refl _, hbase, hframes, List.suffix_refl _, nofun, nofun⟩
  | cons e rest ih =>
    rw [slideBase]
    split
    · -- the entry goes, and its number is the base
      have hhead : sent[base.toNat]? = some e.frame := by
        rw [← List.head?_drop, ← hframes]
        rfl
      have hlt : base.toNat < sent.length := (List.getElem?_eq_some_iff.mp hhead).1
      have hseq : e.frame.seq.toNat = base.toNat := seq_of_getElem? hnumbered hhead
      have hnext : e.frame.seq.next.toNat = base.toNat + 1 := by
        rw [next_toNat (by omega), hseq]
      have hrest : rest.map RetransmissionEntry.frame = sent.drop e.frame.seq.next.toNat := by
        rw [hnext, ← List.tail_drop, ← hframes]
        rfl
      have hslid := ih (hnext ▸ hlt) hrest
      have hle := hslid.base_le
      rw [hnext] at hle
      refine ⟨Nat.le_of_succ_le hle, hslid.le_length, hslid.frames,
        hslid.suffix.trans (List.suffix_cons e rest), ?_, hslid.head⟩
      intro x hx
      rcases List.mem_cons.mp hx with rfl | hx
      · exact Or.inr (hseq ▸ hle)
      · exact hslid.removed x hx
    · next hstate =>
      refine ⟨Nat.le_refl _, hbase, hframes, List.suffix_refl _, fun x hx => Or.inl hx, ?_⟩
      intro x hx
      rwa [← Option.some.inj hx]

theorem slid_queue (hw : Windowed windowSize sent s) (hlength : sent.length < 2 ^ 64) :
    Slid sent s.window.base s.queue (slideBase s.window.base s.queue).1
      (slideBase s.window.base s.queue).2 :=
  slideBase_spec hw.numbered hlength hw.base_le hw.queue

section

variable (hw : Windowed windowSize sent s) (hb : Budgeted policy sent handed s)
include hw hb

theorem advances_slide {base : SequenceNumber} (h : Slid sent s.window.base s.queue base queue) :
    Advances windowSize policy sent handed s
      { s with window := { s.window with base }, queue } where
  windowed :=
    ⟨hw.size, hw.numbered, hw.next, h.le_length, h.frames,
      Nat.le_trans h.suffix.length_le hw.room⟩
  budgeted :=
    ⟨hb.policy_eq, hb.handed_sent, fun e he => hb.spent e (h.suffix.mem he),
      fun e he => hb.allowed e (h.suffix.mem he), hb.limit⟩
  progress := by
    refine ⟨UInt64.le_iff_toNat_le.mpr h.base_le, ?_⟩
    rintro n (hlt | ⟨e, he, hseq, hstate⟩)
    · exact Or.inl (Nat.lt_of_lt_of_le hlt h.base_le)
    · rcases h.removed e he with hmem | hlt
      · exact Or.inr ⟨e, hmem, hseq, hstate⟩
      · exact Or.inl (hseq ▸ hlt)

/-- The sender after `ack`: the numbers are marked, then the base slides. -/
theorem ack_spec (hlength : sent.length < 2 ^ 64) (frame : AckFrame) :
    (ack frame s).1 = .ok () ∧ Advances windowSize policy sent handed s (ack frame s).2 ∧
      ∀ e, (ack frame s).2.queue.head? = some e → e.state ≠ .acked := by
  have hmarked := advances_markAll hw hb frame.named
  have hslid := slid_queue hmarked.windowed hlength
  have hnext := advances_slide hmarked.windowed hmarked.budgeted hslid
  exact ⟨rfl, ⟨hnext.windowed, hnext.budgeted, progress_trans hmarked.progress hnext.progress⟩,
    hslid.head⟩

/-! ### Runs -/

theorem advances_step (op : SenderOp)
    (hlength : (sent ++ sentBy (senderStep s op).1).length < 2 ^ 64) :
    Advances windowSize policy (sent ++ sentBy (senderStep s op).1)
      (handed ++ handedBy (senderStep s op).1) s (senderStep s op).2 := by
  cases op with
  | send payload now =>
    rcases send_cases payload now s with hfull | ⟨havail, hsend⟩
    · simp only [senderStep, hfull, sentBy, handedBy, sentFrame, List.append_nil]
      exact ⟨hw, hb, progress_refl s⟩
    · simp only [senderStep, hsend, sentBy, handedBy, sentFrame, List.length_append,
        List.length_singleton] at hlength ⊢
      exact ⟨windowed_send hw havail hlength payload now, budgeted_send hw hb payload now,
        progress_send payload now s⟩
  | ack frame =>
    simp only [senderStep, sentBy, handedBy, List.append_nil] at hlength ⊢
    exact (ack_spec hw hb hlength frame).2.1
  | markDelivered seq =>
    simp only [senderStep, sentBy, handedBy, List.append_nil]
    exact advances_of_kept hw hb (kept_markFirst seq s.queue)
  | markTimeout now =>
    simp only [senderStep, sentBy, handedBy, List.append_nil]
    exact advances_of_kept hw hb (kept_markTimeout s.policy now s.queue)
  | retransmit now =>
    simp only [senderStep, sentBy, handedBy, List.append_nil]
    exact advances_retransmit hw hb now

end

theorem windowed_new (windowSize : UInt32) (policy : TimeoutPolicy) :
    Windowed windowSize [] (ReliableSender.new windowSize policy) :=
  ⟨rfl, rfl, rfl, Nat.le_refl _, rfl, Nat.zero_le _⟩

theorem budgeted_new (windowSize : UInt32) (policy : TimeoutPolicy) :
    Budgeted policy [] [] (ReliableSender.new windowSize policy) :=
  ⟨rfl, nofun, nofun, nofun, fun _ => Nat.zero_le _⟩

/-- The calls `ops` after a run: each keeps the invariants, and the progress adds up. -/
theorem advances_run (hw : Windowed windowSize sent s) (hb : Budgeted policy sent handed s)
    (ops : List SenderOp) (hlength : (sent ++ sentIn (run senderStep s ops)).length < 2 ^ 64) :
    Advances windowSize policy (sent ++ sentIn (run senderStep s ops))
      (handed ++ handedIn (run senderStep s ops)) s (endState senderStep s ops) := by
  induction ops generalizing sent handed s with
  | nil =>
    simp only [run_nil, sentIn, handedIn, List.flatMap_nil, List.append_nil]
    exact ⟨hw, hb, progress_refl s⟩
  | cons op ops ih =>
    simp only [run_cons, sentIn, handedIn, List.flatMap_cons, ← List.append_assoc] at hlength ⊢
    have hfirst := advances_step hw hb op (Nat.lt_of_le_of_lt (by simp [stepEntry]) hlength)
    have hrest := ih hfirst.windowed hfirst.budgeted hlength
    exact ⟨hrest.windowed, hrest.budgeted, progress_trans hfirst.progress hrest.progress⟩

theorem advances_senderRun (windowSize : UInt32) (policy : TimeoutPolicy) (ops : List SenderOp)
    (hlength : (sentIn (senderRun windowSize policy ops)).length < 2 ^ 64) :
    Advances windowSize policy (sentIn (senderRun windowSize policy ops))
      (handedIn (senderRun windowSize policy ops)) (ReliableSender.new windowSize policy)
      (senderAfter windowSize policy ops) :=
  advances_run (windowed_new windowSize policy) (budgeted_new windowSize policy) ops hlength

theorem sentIn_senderRun (windowSize : UInt32) (policy : TimeoutPolicy)
    (before later : List SenderOp) :
    sentIn (senderRun windowSize policy (before ++ later)) =
      sentIn (senderRun windowSize policy before) ++
        sentIn (run senderStep (senderAfter windowSize policy before) later) := by
  rw [senderRun, run_append]
  exact List.flatMap_append

end SenderLemmas

/-! ## The result -/

/-- The sender after the calls `before`, and what the calls `later` leave of it. -/
structure KeepsWindow (windowSize : UInt32) (policy : TimeoutPolicy)
    (before later : List SenderOp) : Prop where
  base_le_next : (senderAfter windowSize policy before).window.base ≤
    (senderAfter windowSize policy before).window.nextSeq
  numbers : ((senderAfter windowSize policy before).queue.map fun e => e.frame.seq.toNat) =
    List.range' (senderAfter windowSize policy before).window.base.toNat
      ((senderAfter windowSize policy before).window.nextSeq.toNat -
        (senderAfter windowSize policy before).window.base.toNat)
  size : (senderAfter windowSize policy before).queue.length ≤ windowSize.toNat
  available : (senderAfter windowSize policy before).window.windowAvailable.toNat =
    windowSize.toNat - (senderAfter windowSize policy before).queue.length
  payloads : ∀ f ∈ handedIn (senderRun windowSize policy (before ++ later)) ++
      (senderAfter windowSize policy before).queue.map RetransmissionEntry.frame,
    ∀ g ∈ handedIn (senderRun windowSize policy (before ++ later)) ++
      (senderAfter windowSize policy (before ++ later)).queue.map RetransmissionEntry.frame,
    f.seq = g.seq → f.payload = g.payload
  acked : ∀ e ∈ (senderAfter windowSize policy before).queue, e.state = .acked →
    ∀ e' ∈ (senderAfter windowSize policy (before ++ later)).queue,
      e'.frame.seq = e.frame.seq → e'.state = .acked
  handed : ∀ seq, timesHanded seq (handedIn (senderRun windowSize policy before)) ≤
    1 + policy.maxRetransmissions.toNat
  first : ∀ frame, (ack frame (senderAfter windowSize policy before)).1 = .ok () ∧
    ∀ e, (ack frame (senderAfter windowSize policy before)).2.queue.head? = some e →
      e.state ≠ .acked
  base_le : (senderAfter windowSize policy before).window.base ≤
    (senderAfter windowSize policy (before ++ later)).window.base

open SenderLemmas ReliableDeliveryLemmas in
/-- Every run of a sender with fewer than `2 ^ 64` frames keeps the window, whatever the
acknowledgments name. -/
theorem sender_keeps_window (windowSize : UInt32) (policy : TimeoutPolicy)
    (before later : List SenderOp)
    (hsent : (sentIn (senderRun windowSize policy (before ++ later))).length < 2 ^ 64) :
    KeepsWindow windowSize policy before later := by
  have hsplit := sentIn_senderRun windowSize policy before later
  have hbefore : (sentIn (senderRun windowSize policy before)).length < 2 ^ 64 :=
    Nat.lt_of_le_of_lt (by simp [hsplit]) hsent
  have hmid := advances_senderRun windowSize policy before hbefore
  have hlast := advances_senderRun windowSize policy (before ++ later) hsent
  have hprogress : Progress (senderAfter windowSize policy before)
      (senderAfter windowSize policy (before ++ later)) := by
    have hlater := advances_run hmid.windowed hmid.budgeted later (hsplit ▸ hsent)
    have hend : senderAfter windowSize policy (before ++ later) =
        endState senderStep (senderAfter windowSize policy before) later := endState_append _ _ _
    rw [hend]
    exact hlater.progress
  refine ⟨?_, seqs_queue hmid.windowed, hmid.windowed.room, ?_, ?_, ?_, hmid.budgeted.limit, ?_,
    hprogress.base_le⟩
  · rw [UInt64.le_iff_toNat_le, next_eq hmid.windowed]
    exact Nat.le_add_right _ _
  · rw [toNat_windowAvailable (next_eq hmid.windowed), hmid.windowed.size]
  · -- whatever was handed out or is in the queue is one of the frames that were sent
    have hqueued : ∀ f ∈ (senderAfter windowSize policy before).queue.map RetransmissionEntry.frame,
        f ∈ sentIn (senderRun windowSize policy (before ++ later)) := by
      intro f hf
      obtain ⟨e, he, rfl⟩ := List.mem_map.mp hf
      rw [hsplit]
      exact List.mem_append_left _ (frame_mem_sent hmid.windowed he)
    have hlater : ∀ f ∈ (senderAfter windowSize policy (before ++ later)).queue.map
        RetransmissionEntry.frame, f ∈ sentIn (senderRun windowSize policy (before ++ later)) := by
      intro f hf
      obtain ⟨e, he, rfl⟩ := List.mem_map.mp hf
      exact frame_mem_sent hlast.windowed he
    intro f hf g hg hseq
    have hf := (List.mem_append.mp hf).elim (hlast.budgeted.handed_sent f) (hqueued f)
    have hg := (List.mem_append.mp hg).elim (hlast.budgeted.handed_sent g) (hlater g)
    rw [eq_of_seq_eq hlast.windowed.numbered hf hg hseq]
  · intro e he hacked e' he' hseq
    refine acked_of_settled hlast.windowed he' (hprogress.settled _ ?_)
    exact Or.inr ⟨e, he, by rw [hseq], hacked⟩
  · intro frame
    obtain ⟨hok, -, hhead⟩ := ack_spec hmid.windowed hmid.budgeted hbefore frame
    exact ⟨hok, hhead⟩

/-- Two frames, of which the second is acknowledged first and the first is sent again. -/
theorem sender_keeps_window_sample :
    (sentIn (senderRun 2 ⟨10, 3⟩ ([.send [1] 0, .send [2] 5, .ack ⟨1, 0⟩, .markTimeout 12] ++
      [.retransmit 12, .ack ⟨0, 0xFFFF⟩]))).length < 2 ^ 64 ∧
    KeepsWindow 2 ⟨10, 3⟩ [.send [1] 0, .send [2] 5, .ack ⟨1, 0⟩, .markTimeout 12]
      [.retransmit 12, .ack ⟨0, 0xFFFF⟩] :=
  ⟨by decide +kernel, sender_keeps_window _ _ _ _ (by decide +kernel)⟩

end Blackwing.Protocol

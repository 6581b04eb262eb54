import Blackwing.Lib.Run
import Blackwing.Protocol.Link

/-!
# A one-way stream

An `EncryptionContext` sends, and a `FrameDecryptor` that started with its send
key and epoch receives every frame in order. Rotations come from the policy or
from calls of `rotate_keys`; between two rotations at least one frame is sent,
which is to say that a rotation finds the encryptor in its first epoch or with a
send counter that is not zero.

* `stream_delivers`: every delivery returns the frame that was sent and leaves
  the receiver with the epoch and key of that frame.
-/

namespace Blackwing.Protocol

open EncryptionLemmas LinkLemmas

variable (P : Primitives)

/-- The sender, the receiver, and the frames between them. -/
structure StreamState where
  sender : EncryptionContext
  receiver : FrameDecryptor
  queue : List Sent

/-- The receiver starts with the send key and epoch of the sender. -/
def StreamState.start (keys : SessionKeys) (policy : KeyRotationPolicy) : StreamState :=
  ⟨EncryptionContext.new keys policy, FrameDecryptor.new keys.sendKey keys.epoch, []⟩

/-- What can happen next. -/
inductive StreamOp where
  | encryptFrame (frame : OwnedProtocolFrame)
  | rotateKeys
  | deliver
deriving DecidableEq

/-- What came of it; a delivery also names the frame in flight. -/
inductive StreamOut where
  | encrypted (r : Outcome ProtocolError EncryptedFrame)
  | rotated (r : Outcome ProtocolError Unit)
  | delivered (t : Sent) (r : Outcome ProtocolError OwnedProtocolFrame)
  | nothing
deriving DecidableEq

/-- A delivered frame and what the receiver made of it. -/
def StreamOut.result? :
    StreamOut → Option (OwnedProtocolFrame × Outcome ProtocolError OwnedProtocolFrame)
  | .delivered t r => some (t.frame, r)
  | _ => none

/-- One step of the stream. -/
def streamStep (s : StreamState) : StreamOp → StreamOut × StreamState
  | .encryptFrame f =>
    (.encrypted (EncryptionContext.encryptFrame P f s.sender).1,
      ⟨(EncryptionContext.encryptFrame P f s.sender).2, s.receiver,
        enqueue s.queue f s.sender.encryptor.sendKey (EncryptionContext.encryptFrame P f s.sender).1⟩)
  | .rotateKeys =>
    (.rotated (EncryptionContext.rotateKeys P s.sender).1,
      { s with sender := (EncryptionContext.rotateKeys P s.sender).2 })
  | .deliver =>
    match s.queue with
    | [] => (.nothing, s)
    | t :: queue =>
      (.delivered t (FrameDecryptor.decryptFrame P t.encrypted s.receiver).1,
        ⟨s.sender, (FrameDecryptor.decryptFrame P t.encrypted s.receiver).2, queue⟩)

/-- A frame was sent since the last rotation, if there was one. -/
def RotationAllowed (start : UInt32) (s : StreamState) : Prop :=
  s.sender.encryptor.epoch = start ∨ 0 < s.sender.encryptor.counter

instance (start : UInt32) (s : StreamState) : Decidable (RotationAllowed start s) :=
  inferInstanceAs (Decidable (_ ∨ _))

/-- How many times the step calls `rotate_keys`. -/
def StreamState.rotations (s : StreamState) : StreamOp → Nat
  | .encryptFrame f => s.sender.rotations P f
  | .rotateKeys => 1
  | .deliver => 0

/-- The receiver stands at the epoch of the last delivered frame. -/
def StreamInv (keys : SessionKeys) (s : StreamState) : Prop :=
  ∃ p l, LinkAt P (epochKey P keys.sendKey keys.epoch.toNat) keys.epoch.toNat s.sender.encryptor
    s.receiver s.queue p l ∧ s.receiver.epoch.toNat = p.1

namespace StreamLemmas

variable {P} {keys : SessionKeys} {s : StreamState} {n : Nat}

theorem streamInv_start (policy : KeyRotationPolicy) :
    StreamInv P keys (StreamState.start keys policy) ∧
      EpochsWithin keys.epoch.toNat (StreamState.start keys policy).sender :=
  ⟨⟨_, _, linkAt_new keys.sendKey keys.epoch, rfl⟩, Nat.le_refl _, Nat.le_refl _⟩

theorem streamInv_encryptFrame (hkdf : HkdfTotal P) {f : OwnedProtocolFrame} (h : StreamInv P keys s)
    (hn : EpochsWithin n s.sender) (hroom : n + s.sender.rotations P f < 2 ^ 32) :
    StreamInv P keys (streamStep P s (.encryptFrame f)).2 := by
  obtain ⟨p, l, hlink, hp⟩ := h
  have hchain := epochKey_followsChain hkdf keys.sendKey keys.epoch.toNat
  obtain ⟨m, hm⟩ := linkAt_context_out hkdf hchain hlink hn hroom
  exact ⟨p, m, hm, hp⟩

theorem streamInv_rotateKeys (hkdf : HkdfTotal P) (h : StreamInv P keys s)
    (hallow : RotationAllowed keys.epoch s) (hn : EpochsWithin n s.sender)
    (hroom : n + 1 < 2 ^ 32) :
    StreamInv P keys (streamStep P s .rotateKeys).2 ∧
      EpochsWithin (n + 1) (streamStep P s .rotateKeys).2.sender := by
  obtain ⟨p, l, hlink, hp⟩ := h
  have hchain := epochKey_followsChain hkdf keys.sendKey keys.epoch.toNat
  -- the encryptor has sent a frame in its epoch
  have hl : s.sender.encryptor.epoch.toNat = l.1 := by
    rcases hlink.sender with ⟨hl, -⟩ | ⟨hl, hzero⟩
    · exact hl
    · rcases hallow with hstart | hpos
      · have := hlink.start_le
        have := inOrder_le hlink.inOrder
        rw [hstart] at hl
        omega
      · exact absurd hpos (by rw [UInt64.lt_iff_toNat_lt, hzero]; exact Nat.lt_irrefl _)
  obtain ⟨e, d, he, -, hepoch, hepoch', hrot⟩ := context_rotateKeys_total (P := P) hkdf hn hroom
  simp only [streamStep, hrot]
  refine ⟨⟨p, l, linkAt_rotate_sender hlink hchain hl he, hp⟩, ?_, ?_⟩
  · exact hepoch ▸ Nat.succ_le_succ hn.send
  · exact hepoch' ▸ Nat.succ_le_succ hn.receive

/-- A delivery of the head of the queue. -/
theorem streamInv_deliver (hrt : AeadRoundTrip P) (hkdf : HkdfTotal P) {t : Sent}
    {queue : List Sent} (h : StreamInv P keys s) (hq : s.queue = t :: queue) :
    StreamInv P keys (streamStep P s .deliver).2 ∧
      (t.frame.WellFormed →
        (FrameDecryptor.decryptFrame P t.encrypted s.receiver).1 = .ok t.frame) ∧
      (FrameDecryptor.decryptFrame P t.encrypted s.receiver).2.epoch = t.encrypted.epoch ∧
      (FrameDecryptor.decryptFrame P t.encrypted s.receiver).2.recvKey = t.key := by
  obtain ⟨p, l, hlink, hp⟩ := h
  have hchain := epochKey_followsChain hkdf keys.sendKey keys.epoch.toNat
  rw [hq] at hlink
  have hle : s.receiver.epoch.toNat ≤ t.encrypted.epoch.toNat := by
    cases hlink.inOrder with
    | cons hc _ =>
      rw [hp]
      exact continues_le hc
  obtain ⟨w, hdec, hnext⟩ := linkAt_deliver hrt hchain hlink hle
  refine ⟨?_, ?_, ?_, ?_⟩
  · simp only [streamStep, hq, hdec]
    exact ⟨t.after, l, hnext, rfl⟩
  · intro hwf
    rw [hdec]
    exact decodeFrame_encodeFrame P.heapAddr_aligned hwf
  · rw [hdec]
  · rw [hdec]

theorem streamInv_step (hrt : AeadRoundTrip P) (hkdf : HkdfTotal P) {op : StreamOp}
    (h : StreamInv P keys s ∧ EpochsWithin n s.sender)
    (hallow : op = .rotateKeys → RotationAllowed keys.epoch s)
    (hroom : n + s.rotations P op < 2 ^ 32) :
    StreamInv P keys (streamStep P s op).2 ∧
      EpochsWithin (n + s.rotations P op) (streamStep P s op).2.sender := by
  obtain ⟨hinv, hn⟩ := h
  cases op with
  | encryptFrame f =>
    exact ⟨streamInv_encryptFrame hkdf hinv hn hroom, epochsWithin_encryptFrame hkdf hn hroom⟩
  | rotateKeys => exact streamInv_rotateKeys hkdf hinv (hallow rfl) hn hroom
  | deliver =>
    cases hq : s.queue with
    | nil =>
      simp only [streamStep, hq]
      exact ⟨hinv, hn⟩
    | cons t queue =>
      refine ⟨(streamInv_deliver hrt hkdf hinv hq).1, ?_⟩
      simp only [streamStep, hq]
      exact hn

end StreamLemmas

open StreamLemmas

/-- In every run of the stream with fewer than `2 ^ 32` rotations, each delivery of a well-formed
frame returns that frame, and each delivery leaves the receiver with the epoch and key under which
the frame was encrypted. -/
theorem stream_delivers (hrt : AeadRoundTrip P) (hkdf : HkdfTotal P) (keys : SessionKeys)
    (policy : KeyRotationPolicy) (ops : List StreamOp)
    (hallow : ∀ e ∈ run (streamStep P) (StreamState.start keys policy) ops,
      e.input = .rotateKeys → RotationAllowed keys.epoch e.pre)
    (hrot : keys.epoch.toNat + ((run (streamStep P) (StreamState.start keys policy) ops).map
      fun e => e.pre.rotations P e.input).sum < 2 ^ 32) :
    ∀ e ∈ run (streamStep P) (StreamState.start keys policy) ops, ∀ t r,
      e.out = .delivered t r →
        (t.frame.WellFormed → r = .ok t.frame) ∧
        e.post.receiver.epoch = t.encrypted.epoch ∧ e.post.receiver.recvKey = t.key := by
  refine run_charged (I := fun n s => StreamInv P keys s ∧ EpochsWithin n s.sender)
    (fun n s op hs hg hn => streamInv_step hrt hkdf hs hg hn) (fun n s op hs t r ho => ?_)
    (streamInv_start policy) hallow hrot
  cases op with
  | encryptFrame f => cases ho
  | rotateKeys => cases ho
  | deliver =>
    cases hq : s.queue with
    | nil =>
      simp only [stepEntry, streamStep, hq] at ho
      cases ho
    | cons u queue =>
      obtain ⟨-, hframe, hepoch, hkey⟩ := streamInv_deliver hrt hkdf hs.1 hq
      simp only [stepEntry, streamStep, hq] at ho ⊢
      cases ho
      exact ⟨hframe, hepoch, hkey⟩

/-- Two frames with a rotation between them, both delivered after it. -/
theorem stream_delivers_across_rotation :
    (run (streamStep .plain) (StreamState.start ⟨Bytes.fill 32 1, Bytes.fill 32 2, 0⟩ .manual)
        [.encryptFrame (sampleFrame 7), .rotateKeys, .encryptFrame (sampleFrame 8), .deliver,
          .deliver]).filterMap (fun e => e.out.result?) =
      [(sampleFrame 7, .ok (sampleFrame 7)), (sampleFrame 8, .ok (sampleFrame 8))] ∧
    ∀ e ∈ run (streamStep .plain) (StreamState.start ⟨Bytes.fill 32 1, Bytes.fill 32 2, 0⟩ .manual)
        [.encryptFrame (sampleFrame 7), .rotateKeys, .encryptFrame (sampleFrame 8), .deliver, .deliver],
      ∀ t r, e.out = .delivered t r →
        (t.frame.WellFormed → r = .ok t.frame) ∧
        e.post.receiver.epoch = t.encrypted.epoch ∧ e.post.receiver.recvKey = t.key :=
  ⟨by decide +kernel,
    stream_delivers .plain plain_roundTrip plain_hkdfTotal _ _ _ (by decide +kernel)
      (by decide +kernel)⟩

end Blackwing.Protocol

import Blackwing.Lib.Run
import Blackwing.Protocol.Link

/-!
# Two peers that both send

The client and the server of one handshake, each with its `EncryptionContext`
under `Counter(limit)`, and the two queues of frames between them. Either side
may send at any time; each direction is delivered in order and without loss.

A side that reaches its limit rotates its receive key together with its send
key. The peer has not rotated, so what it sent before is of an epoch that this
side has already left.

* `channel_delivers_iff`: a well-formed frame decrypts to what was sent exactly
  when the receiver's epoch is not past the frame's.
* `channel_crossing_frames_lost`: two frames that cross under `Counter(1)`; one of
  them is lost.
-/

namespace Blackwing.Protocol

open EncryptionLemmas LinkLemmas

variable (P : Primitives)

/-- Both contexts and both queues. -/
structure ChannelState where
  client : EncryptionContext
  server : EncryptionContext
  toServer : List Sent
  toClient : List Sent
deriving DecidableEq

/-- Both sides right after the handshake: the server swaps the directions. -/
def ChannelState.start (keys : SessionKeys) (limit : UInt64) : ChannelState :=
  ⟨EncryptionContext.new keys (.counter limit), EncryptionContext.new keys.swapped (.counter limit),
    [], []⟩

/-- The handshake: `derive_session_keys` on both sides, then a context each. -/
def ChannelState.handshake (masterSecret : SymmetricKey) (clientNonce serverNonce : Bytes 16)
    (limit : UInt64) : Outcome ProtocolError ChannelState := do
  let keys ← deriveSessionKeys P masterSecret clientNonce serverNonce
  pure (ChannelState.start keys limit)

/-- What can happen next. -/
inductive ChannelOp where
  | clientSend (frame : OwnedProtocolFrame)
  | serverSend (frame : OwnedProtocolFrame)
  | deliverToServer
  | deliverToClient
deriving DecidableEq

/-- What came of it; a delivery also names the frame in flight. -/
inductive ChannelOut where
  | sent (r : Outcome ProtocolError EncryptedFrame)
  | delivered (t : Sent) (r : Outcome ProtocolError OwnedProtocolFrame)
  | nothing
deriving DecidableEq

/-- A delivered frame and what the receiver made of it. -/
def ChannelOut.result? :
    ChannelOut → Option (OwnedProtocolFrame × Outcome ProtocolError OwnedProtocolFrame)
  | .delivered t r => some (t.frame, r)
  | _ => none

/-- One step of the channel. -/
def channelStep (s : ChannelState) : ChannelOp → ChannelOut × ChannelState
  | .clientSend f =>
    (.sent (EncryptionContext.encryptFrame P f s.client).1,
      { s with
        client := (EncryptionContext.encryptFrame P f s.client).2
        toServer := enqueue s.toServer f s.client.encryptor.sendKey
          (EncryptionContext.encryptFrame P f s.client).1 })
  | .serverSend f =>
    (.sent (EncryptionContext.encryptFrame P f s.server).1,
      { s with
        server := (EncryptionContext.encryptFrame P f s.server).2
        toClient := enqueue s.toClient f s.server.encryptor.sendKey
          (EncryptionContext.encryptFrame P f s.server).1 })
  | .deliverToServer =>
    match s.toServer with
    | [] => (.nothing, s)
    | t :: queue =>
      (.delivered t (EncryptionContext.decryptFrame P t.encrypted s.server).1,
        { s with
          server := (EncryptionContext.decryptFrame P t.encrypted s.server).2
          toServer := queue })
  | .deliverToClient =>
    match s.toClient with
    | [] => (.nothing, s)
    | t :: queue =>
      (.delivered t (EncryptionContext.decryptFrame P t.encrypted s.client).1,
        { s with
          client := (EncryptionContext.decryptFrame P t.encrypted s.client).2
          toClient := queue })

/-- The receive epoch of the side that a delivery goes to. -/
def ChannelState.receiveEpoch (s : ChannelState) : ChannelOp → UInt32
  | .deliverToServer => s.server.decryptor.epoch
  | _ => s.client.decryptor.epoch

/-- How many times the step calls `rotate_keys`. -/
def ChannelState.rotations (s : ChannelState) : ChannelOp → Nat
  | .clientSend f => s.client.rotations P f
  | .serverSend f => s.server.rotations P f
  | _ => 0

/-- Both directions are links along the chains of the two session keys, and no epoch is past `n`. -/
structure ChannelInv (keys : SessionKeys) (n : Nat) (s : ChannelState) : Prop where
  toServer : ∃ p l, LinkAt P (epochKey P keys.sendKey keys.epoch.toNat) keys.epoch.toNat
    s.client.encryptor s.server.decryptor s.toServer p l
  toClient : ∃ p l, LinkAt P (epochKey P keys.recvKey keys.epoch.toNat) keys.epoch.toNat
    s.server.encryptor s.client.decryptor s.toClient p l
  client : EpochsWithin n s.client
  server : EpochsWithin n s.server

namespace ChannelLemmas

variable {P} {keys : SessionKeys} {n : Nat} {s : ChannelState}

theorem decryptFrame_context (c : EncryptionContext) (e : EncryptedFrame) :
    EncryptionContext.decryptFrame P e c = ((FrameDecryptor.decryptFrame P e c.decryptor).1,
      { c with decryptor := (FrameDecryptor.decryptFrame P e c.decryptor).2 }) :=
  onDecryptor_apply Prod.mk.eta.symm

/-- The session starts in epoch 0. -/
theorem deriveSessionKeys_epoch {masterSecret : SymmetricKey} {clientNonce serverNonce : Bytes 16}
    (h : deriveSessionKeys P masterSecret clientNonce serverNonce = .ok keys) : keys.epoch = 0 := by
  obtain ⟨sendKey, -, h⟩ := Outcome.bind_eq_ok.mp h
  obtain ⟨recvKey, -, h⟩ := Outcome.bind_eq_ok.mp h
  cases h
  rfl

theorem channelInv_start (limit : UInt64) :
    ChannelInv P keys keys.epoch.toNat (ChannelState.start keys limit) where
  toServer := ⟨_, _, linkAt_new keys.sendKey keys.epoch⟩
  toClient := ⟨_, _, linkAt_new keys.recvKey keys.epoch⟩
  client := ⟨Nat.le_refl _, Nat.le_refl _⟩
  server := ⟨Nat.le_refl _, Nat.le_refl _⟩

/-- Each step keeps both links, and the epochs advance with the rotations. -/
theorem channelInv_step (hrt : AeadRoundTrip P) (hkdf : HkdfTotal P) {op : ChannelOp}
    (h : ChannelInv P keys n s) (hroom : n + s.rotations P op < 2 ^ 32) :
    ChannelInv P keys (n + s.rotations P op) (channelStep P s op).2 := by
  obtain ⟨⟨p, l, hup⟩, ⟨p', l', hdown⟩, hclient, hserver⟩ := h
  have hchain := epochKey_followsChain hkdf keys.sendKey keys.epoch.toNat
  have hchain' := epochKey_followsChain hkdf keys.recvKey keys.epoch.toNat
  cases op with
  | clientSend f =>
    exact ⟨⟨p, linkAt_context_out hkdf hchain hup hclient hroom⟩,
      ⟨p', l', linkAt_context_in hkdf hchain' hdown hclient hroom⟩,
      epochsWithin_encryptFrame hkdf hclient hroom, epochsWithin_add hserver _⟩
  | serverSend f =>
    exact ⟨⟨p, l, linkAt_context_in hkdf hchain hup hserver hroom⟩,
      ⟨p', linkAt_context_out hkdf hchain' hdown hserver hroom⟩,
      epochsWithin_add hclient _, epochsWithin_encryptFrame hkdf hserver hroom⟩
  | deliverToServer =>
    cases hq : s.toServer with
    | nil =>
      simp only [channelStep, hq]
      exact ⟨⟨p, l, hup⟩, ⟨p', l', hdown⟩, hclient, hserver⟩
    | cons t queue =>
      simp only [channelStep, hq, decryptFrame_context]
      rw [hq] at hup
      obtain ⟨-, hepoch, hlink⟩ := linkAt_receive hrt hchain hup
      exact ⟨⟨_, l, hlink⟩, ⟨p', l', hdown⟩, hclient,
        ⟨hserver.send, hepoch n hclient.send hserver.receive⟩⟩
  | deliverToClient =>
    cases hq : s.toClient with
    | nil =>
      simp only [channelStep, hq]
      exact ⟨⟨p, l, hup⟩, ⟨p', l', hdown⟩, hclient, hserver⟩
    | cons t queue =>
      simp only [channelStep, hq, decryptFrame_context]
      rw [hq] at hdown
      obtain ⟨-, hepoch, hlink⟩ := linkAt_receive hrt hchain' hdown
      exact ⟨⟨p, l, hup⟩, ⟨_, l', hlink⟩,
        ⟨hclient.send, hepoch n hserver.send hclient.receive⟩, hserver⟩

/-- What a delivery returns in a state of the invariant. -/
theorem channelStep_delivered (hrt : AeadRoundTrip P) (hkdf : HkdfTotal P) {op : ChannelOp} {t : Sent}
    {r : Outcome ProtocolError OwnedProtocolFrame} (h : ChannelInv P keys n s)
    (ho : (channelStep P s op).1 = .delivered t r) (hwf : t.frame.WellFormed) :
    r = .ok t.frame ↔ (s.receiveEpoch op).toNat ≤ t.encrypted.epoch.toNat := by
  obtain ⟨⟨p, l, hup⟩, ⟨p', l', hdown⟩, -, -⟩ := h
  cases op with
  | clientSend f => cases ho
  | serverSend f => cases ho
  | deliverToServer =>
    cases hq : s.toServer with
    | nil =>
      simp only [channelStep, hq] at ho
      cases ho
    | cons u queue =>
      simp only [channelStep, hq, decryptFrame_context] at ho
      cases ho
      rw [hq] at hup
      exact (linkAt_receive hrt (epochKey_followsChain hkdf _ _) hup).1 hwf
  | deliverToClient =>
    cases hq : s.toClient with
    | nil =>
      simp only [channelStep, hq] at ho
      cases ho
    | cons u queue =>
      simp only [channelStep, hq, decryptFrame_context] at ho
      cases ho
      rw [hq] at hdown
      exact (linkAt_receive hrt (epochKey_followsChain hkdf _ _) hdown).1 hwf

end ChannelLemmas

open ChannelLemmas

/-- In every run of the channel with fewer than `2 ^ 32` rotations, a delivery of a well-formed
frame returns the frame that was sent exactly when the receiver has not rotated past the frame's
epoch. -/
theorem channel_delivers_iff (hrt : AeadRoundTrip P) (hkdf : HkdfTotal P) {masterSecret : SymmetricKey}
    {clientNonce serverNonce : Bytes 16} {limit : UInt64} {start : ChannelState}
    (hstart : ChannelState.handshake P masterSecret clientNonce serverNonce limit = .ok start)
    (ops : List ChannelOp)
    (hrot : ((run (channelStep P) start ops).map fun e => e.pre.rotations P e.input).sum < 2 ^ 32) :
    ∀ e ∈ run (channelStep P) start ops, ∀ t r,
      e.out = .delivered t r → t.frame.WellFormed →
        (r = .ok t.frame ↔ (e.pre.receiveEpoch e.input).toNat ≤ t.encrypted.epoch.toNat) := by
  obtain ⟨keys, hkeys, hpure⟩ := Outcome.bind_eq_ok.mp hstart
  cases hpure
  have hzero : keys.epoch.toNat = 0 := congrArg UInt32.toNat (deriveSessionKeys_epoch hkeys)
  refine run_charged (G := fun _ _ => True) (fun n s op hs _ hn => channelInv_step hrt hkdf hs hn)
    (fun n s op hs t r ho hwf => channelStep_delivered hrt hkdf hs ho hwf) (channelInv_start limit)
    (fun _ _ => trivial) ?_
  rw [hzero, Nat.zero_add]
  exact hrot

/-- The session keys that the transparent primitives derive from one secret. -/
def plainSessionKeys : SessionKeys :=
  ⟨plainKey (utf8 "client-key"), plainKey (utf8 "server-key"), 0⟩
where
  plainKey (info : List UInt8) : SymmetricKey :=
    (Primitives.plain.hkdfExpand none (Bytes.fill 32 1).toList info).getD (Bytes.fill 32 0)

/-- With a limit of 2, two frames that cross leave both sides in epoch 0. -/
theorem channel_delivers_iff_below_limit :
    (run (channelStep .plain) (ChannelState.start plainSessionKeys 2)
        [.clientSend (sampleFrame 7), .serverSend (sampleFrame 8), .deliverToServer,
          .deliverToClient]).filterMap (fun e => e.out.result?) =
      [(sampleFrame 7, .ok (sampleFrame 7)), (sampleFrame 8, .ok (sampleFrame 8))] ∧
    ∀ e ∈ run (channelStep .plain) (ChannelState.start plainSessionKeys 2)
        [.clientSend (sampleFrame 7), .serverSend (sampleFrame 8), .deliverToServer, .deliverToClient],
      ∀ t r, e.out = .delivered t r → t.frame.WellFormed →
        (r = .ok t.frame ↔ (e.pre.receiveEpoch e.input).toNat ≤ t.encrypted.epoch.toNat) := by
  have hstart : ChannelState.handshake .plain (Bytes.fill 32 1) (Bytes.fill 16 2) (Bytes.fill 16 3) 2 =
      .ok (ChannelState.start plainSessionKeys 2) := by decide +kernel
  exact ⟨by decide +kernel,
    channel_delivers_iff .plain plain_roundTrip plain_hkdfTotal hstart _ (by decide +kernel)⟩

/-- Under `Counter(1)` the client rotates both of its keys after its first frame. The frame that
the server sent before it heard of the rotation is refused, although it is authentic. -/
theorem channel_crossing_frames_lost :
    AeadRoundTrip .plain ∧ HkdfTotal .plain ∧
    ChannelState.handshake .plain (Bytes.fill 32 1) (Bytes.fill 16 2) (Bytes.fill 16 3) 1 =
      .ok (ChannelState.start plainSessionKeys 1) ∧
    (sampleFrame 8).WellFormed ∧
    (run (channelStep .plain) (ChannelState.start plainSessionKeys 1)
        [.clientSend (sampleFrame 7), .serverSend (sampleFrame 8), .deliverToClient]).filterMap
      (fun e => e.out.result?) = [(sampleFrame 8, .err .encryptionError)] :=
  ⟨plain_roundTrip, plain_hkdfTotal, by decide +kernel, by decide +kernel, by decide +kernel⟩

end Blackwing.Protocol

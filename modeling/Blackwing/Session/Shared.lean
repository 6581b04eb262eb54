import Blackwing.Protocol.Sessions
import Blackwing.Session.Secure

/-!
# Connections over a shared session manager

`SecureConnection` of `bw-session/src/secure_conn.rs`, from its handshake to its end, with the
`SessionManager` that all connections of a node share: `client_handshake` and `server_handshake`
register a session, sending and receiving use its context, `close` removes it, and `into_split`
hands the connection to a `SecureSender` and a `SecureReceiver`.

A call works on the fields of one connection or of one half. The manager is one of the fields; who
makes the call puts it back for the others.

* `clientHandshake_wp`, `serverHandshake_wp`: a handshake registers the session and ends in
  `Active`, or it registers nothing.
* `encryptAndSend_active`, `receiveAndDecrypt_active`: traffic leaves the same sessions active.
* `sendSecureFrame_follows`, `recvSecureFrame_follows`: what a half does to its own session is what
  an end of `SecurePair` does.
-/

namespace Blackwing.Session.Shared

open Protocol

/-! ## Connections -/

/-- `QuicProtocolAdapter` and its two halves, by what their methods do to the streams `τ`. -/
structure Adapter (τ : Type) where
  sendFrame : OwnedProtocolFrame → Call τ AdapterError Unit
  recvFrame : Call τ AdapterError OwnedProtocolFrame
  close : τ → τ

/-- The streams as the frames on their way, for examples. -/
def queueAdapter : Adapter (List OwnedProtocolFrame) :=
  ⟨adapterQueue.send, adapterQueue.recv, fun frames => frames⟩

/-- `SecureConnError`, with the variants that only a handshake returns. -/
inductive HandshakeError where
  | secure (e : SecureConnError)
  | handshakeFailed
  | nonceFailed
  | crypto (e : CryptoError)
deriving DecidableEq, Repr

/-- The fields of a `SecureSender` and of a `SecureReceiver`. -/
structure SecureHalf (τ : Type) where
  adapter : τ
  sessionId : SessionId
  sessionManager : SessionManager

/-- `SecureConnection`. -/
structure SecureConnection (τ : Type) extends SecureHalf τ where
  lifecycle : ConnectionState

variable {τ α ε ε' : Type}

namespace SecureHalf

/-- A call on the adapter. -/
def onAdapter (h : ε' → ε) (x : Call τ ε' α) : Call (SecureHalf τ) ε α :=
  Call.onPart adapter (fun c a => { c with adapter := a }) h x

/-- A call on the session manager. -/
def onManager (h : ProtocolError → ε) (x : Call SessionManager ProtocolError α) :
    Call (SecureHalf τ) ε α :=
  Call.onPart sessionManager (fun c m => { c with sessionManager := m }) h x

end SecureHalf

/-- A call on what a connection has in common with its halves. -/
def SecureConnection.onHalf (x : Call (SecureHalf τ) ε α) : Call (SecureConnection τ) ε α :=
  Call.onPart toSecureHalf (fun c half => { c with toSecureHalf := half }) id x

/-- `SecureConnection::new`. -/
def SecureConnection.new (adapter : τ) (sessionManager : SessionManager) (sessionId : SessionId) :
    SecureConnection τ :=
  ⟨⟨adapter, sessionId, sessionManager⟩, .connected⟩

/-- `Lifecycle::transition`. -/
def SecureConnection.transition (expected new : ConnectionState) :
    Call (SecureConnection τ) HandshakeError Unit := do
  let self ← Call.getState
  Call.rejectIf (self.lifecycle ≠ expected) (.secure .lifecycleError)
  Call.update fun c => { c with lifecycle := new }

/-! ## Handshakes -/

/-- `PACKET_TYPE_HANDSHAKE`. -/
def packetTypeHandshake : UInt16 := 0x01

/-- The frame that carries a nonce. -/
def handshakeFrame (nonce : Bytes 16) : OwnedProtocolFrame where
  header :=
    { magic := protocolMagic
      schemaVersion := currentVersion.toU16
      flags := 0
      packetType := packetTypeHandshake
      payloadLength := 16
      sequenceNumber := 0
      sessionEpoch := 0
      monotonicTimestamp := 0 }
  payload := nonce.toList

/-- The nonce in the frame of the other side. -/
def handshakeNonce (frame : OwnedProtocolFrame) : Outcome HandshakeError (Bytes 16) :=
  if frame.header.packetType ≠ packetTypeHandshake then .err .handshakeFailed
  else if h : frame.payload.length = 16 then .ok ⟨frame.payload, h⟩
  else .err .handshakeFailed

section Calls

variable (P : Primitives) (C : Ciborium) (A : Adapter τ)

/-- The master secret of the channel. -/
def masterSecret (sessionKey : List UInt8) : Outcome HandshakeError SymmetricKey :=
  (hkdfDerive P none sessionKey (some (utf8 "opaque-session"))).mapErr .crypto

/-- Sending a frame on the adapter, as the handshakes do. -/
def sendHandshake (nonce : Bytes 16) : Call (SecureHalf τ) HandshakeError Unit :=
  SecureHalf.onAdapter (fun e => .secure (.adapter e)) (A.sendFrame (handshakeFrame nonce))

/-- Receiving the frame of the other side. -/
def recvHandshake : Call (SecureHalf τ) HandshakeError (Bytes 16) := do
  let frame ← SecureHalf.onAdapter (fun e => .secure (.adapter e)) A.recvFrame
  Call.ofOutcome (handshakeNonce frame)

/-- `client_handshake`; `nonce` is what `OsRandom` fills in, if it does. -/
def SecureConnection.clientHandshake (nonce : Option (Bytes 16)) (sessionKey : List UInt8) :
    Call (SecureConnection τ) HandshakeError Unit := do
  transition .connected .handshaking
  let clientNonce ← Call.ofOutcome (.okOr .nonceFailed nonce)
  onHalf (sendHandshake A clientNonce)
  let serverNonce ← onHalf (recvHandshake A)
  let secret ← Call.ofOutcome (masterSecret P sessionKey)
  let self ← Call.getState
  onHalf (SecureHalf.onManager (fun e => .secure (.protocol e))
    (SessionManager.createSessionFromHandshake P self.sessionId secret clientNonce serverNonce
      (.counter 10000)))
  transition .handshaking .active

/-- `server_handshake`. -/
def SecureConnection.serverHandshake (nonce : Option (Bytes 16)) (sessionKey : List UInt8) :
    Call (SecureConnection τ) HandshakeError Unit := do
  transition .connected .handshaking
  let clientNonce ← onHalf (recvHandshake A)
  let serverNonce ← Call.ofOutcome (.okOr .nonceFailed nonce)
  onHalf (sendHandshake A serverNonce)
  let secret ← Call.ofOutcome (masterSecret P sessionKey)
  let clientKeys ← Call.ofOutcome
    ((deriveSessionKeys P secret clientNonce serverNonce).mapErr fun e => .secure (.protocol e))
  let self ← Call.getState
  onHalf (SecureHalf.onManager (fun e => .secure (.protocol e))
    (SessionManager.createSessionWithContext self.sessionId
      (EncryptionContext.new clientKeys.swapped (.counter 10000))))
  transition .handshaking .active

/-! ## Traffic -/

/-- What the two `send_secure_frame` have in common. -/
def encryptAndSend (sendFragments : List UInt8 → Call τ SecureConnError Unit)
    (frame : OwnedProtocolFrame) : Call (SecureHalf τ) SecureConnError Unit := do
  let self ← Call.getState
  let encrypted ← SecureHalf.onManager .protocol
    (SessionManager.withSessionContext self.sessionId (EncryptionContext.encryptFrame P frame))
  let cborBytes ← Call.ofOutcome ((encrypted.serialize C).mapErr .protocol)
  SecureHalf.onAdapter id (sendFragments cborBytes)

/-- What the two `recv_secure_frame` have in common. -/
def receiveAndDecrypt (recvFragments : Call τ SecureConnError (List UInt8)) :
    Call (SecureHalf τ) SecureConnError OwnedProtocolFrame := do
  let cborBytes ← SecureHalf.onAdapter id recvFragments
  let encrypted ← Call.ofOutcome ((EncryptedFrame.deserialize C cborBytes).mapErr .protocol)
  let self ← Call.getState
  SecureHalf.onManager .protocol
    (SessionManager.withSessionContext self.sessionId (EncryptionContext.decryptFrame P encrypted))

/-- The check of the lifecycle, which the halves do not make. -/
def SecureConnection.whileActive (x : Call (SecureHalf τ) SecureConnError α) :
    Call (SecureConnection τ) SecureConnError α := do
  let self ← Call.getState
  Call.rejectIf (self.lifecycle ≠ .active) .lifecycleError
  onHalf x

/-- `SecureConnection::send_secure_frame`. -/
def SecureConnection.sendSecureFrame (frame : OwnedProtocolFrame) :
    Call (SecureConnection τ) SecureConnError Unit :=
  whileActive (encryptAndSend P C (SecureConnection.sendFragments A.sendFrame) frame)

/-- `SecureConnection::recv_secure_frame`. -/
def SecureConnection.recvSecureFrame : Call (SecureConnection τ) SecureConnError OwnedProtocolFrame :=
  whileActive (receiveAndDecrypt P C (SecureConnection.recvFragments A.recvFrame))

/-- `SecureSender::send_secure_frame`. -/
def SecureSender.sendSecureFrame (frame : OwnedProtocolFrame) :
    Call (SecureHalf τ) SecureConnError Unit :=
  encryptAndSend P C (SecureSender.sendFragments A.sendFrame) frame

/-- `SecureReceiver::recv_secure_frame`. -/
def SecureReceiver.recvSecureFrame : Call (SecureHalf τ) SecureConnError OwnedProtocolFrame :=
  receiveAndDecrypt P C (SecureReceiver.recvFragments A.recvFrame)

/-! ## The end of a connection -/

/-- `SecureConnection::close`. The result of `close_session` is ignored. -/
def SecureConnection.close (c : SecureConnection τ) : SecureConnection τ :=
  let c := { c with lifecycle := .closing }
  let c := { c with sessionManager := (SessionManager.closeSession c.sessionId c.sessionManager).2 }
  let c := { c with adapter := A.close c.adapter }
  { c with lifecycle := .closed }

/-- `SecureSender::close`. -/
def SecureSender.close (sender : SecureHalf τ) : SecureHalf τ :=
  { sender with adapter := A.close sender.adapter }

end Calls

/-- `SecureConnection::into_split`: the sender and the receiver. Each owns one direction of the
adapter, and neither has a lifecycle. -/
def SecureConnection.intoSplit (c : SecureConnection τ) : SecureHalf τ × SecureHalf τ :=
  (c.toSecureHalf, c.toSecureHalf)

/-! ## What each call does to the sessions -/

/-- The connection became active, and its session was registered under an id that was free. -/
structure Establishes (c c' : SecureConnection τ) : Prop where
  connected : c.lifecycle = .connected
  active : c'.lifecycle = .active
  registers : SessionManager.Registers c.sessionId c.sessionManager c'.sessionManager

/-- The sessions are as before, and the connection is active if it was. -/
structure EstablishesNothing (c c' : SecureConnection τ) : Prop where
  manager : c'.sessionManager = c.sessionManager
  active : c'.lifecycle = .active ↔ c.lifecycle = .active

namespace SharedLemmas

open SessionsLemmas Call

variable {P : Primitives} {C : Ciborium} {A : Adapter τ}

section Handshakes

variable {c : SecureConnection τ} (hc : c.lifecycle = .connected)

include hc

theorem establishesNothing_of_handshaking {c' : SecureConnection τ}
    (hm : c'.sessionManager = c.sessionManager) (hc' : c'.lifecycle = .handshaking) :
    EstablishesNothing c c' := by
  refine ⟨hm, ?_⟩
  rw [hc, hc']
  decide

/-- A handshake that fails after its first transition has changed only the adapter. -/
theorem establishesNothing_of_adapter (adapter : τ) :
    EstablishesNothing c ⟨⟨adapter, c.sessionId, c.sessionManager⟩, .handshaking⟩ :=
  establishesNothing_of_handshaking hc rfl rfl

/-- The end of both handshakes: the session is registered, and the lifecycle moves on. -/
theorem registration_wp {x : Call SessionManager ProtocolError Unit} (adapter : τ)
    (hx : x.wp (fun _ m' => SessionManager.Registers c.sessionId c.sessionManager m')
      (fun m' => m' = c.sessionManager) c.sessionManager) :
    x.wp
      (fun _ m' =>
        (ConnectionState.handshaking ≠ .handshaking →
          EstablishesNothing c ⟨⟨adapter, c.sessionId, m'⟩, .handshaking⟩) ∧
        (¬ ConnectionState.handshaking ≠ .handshaking →
          Establishes c ⟨⟨adapter, c.sessionId, m'⟩, .active⟩))
      (fun m' => EstablishesNothing c ⟨⟨adapter, c.sessionId, m'⟩, .handshaking⟩) c.sessionManager :=
  wp_mono (fun _ _ hm => ⟨fun h => absurd rfl h, fun _ => ⟨hc, rfl, hm⟩⟩)
    (fun _ hm => establishesNothing_of_handshaking hc hm rfl) hx

end Handshakes

theorem clientHandshake_wp (nonce : Option (Bytes 16)) (sessionKey : List UInt8)
    (c : SecureConnection τ) :
    (SecureConnection.clientHandshake P A nonce sessionKey).wp (fun _ c' => Establishes c c')
      (EstablishesNothing c) c := by
  simp only [SecureConnection.clientHandshake, SecureConnection.transition, SecureConnection.onHalf,
    SecureHalf.onManager, SecureHalf.onAdapter, sendHandshake, recvHandshake, wp_bind, wp_getState,
    wp_rejectIf, wp_update, wp_ofOutcome, wp_onPart]
  refine ⟨fun _ => ⟨rfl, Iff.rfl⟩, fun hne => ?_⟩
  have hc := not_not.mp hne
  have hfail := establishesNothing_of_adapter hc
  refine ⟨fun clientNonce _ => ?_, fun _ => hfail _⟩
  refine wp_of_forall (fun _ _ => wp_of_forall (fun _ t => ?_) hfail) hfail
  refine ⟨fun serverNonce _ => ⟨fun secret _ => ?_, fun _ => hfail t⟩, fun _ => hfail t⟩
  exact registration_wp hc t
    (createSessionFromHandshake_wp c.sessionId secret clientNonce serverNonce _ c.sessionManager)

theorem serverHandshake_wp (nonce : Option (Bytes 16)) (sessionKey : List UInt8)
    (c : SecureConnection τ) :
    (SecureConnection.serverHandshake P A nonce sessionKey).wp (fun _ c' => Establishes c c')
      (EstablishesNothing c) c := by
  simp only [SecureConnection.serverHandshake, SecureConnection.transition, SecureConnection.onHalf,
    SecureHalf.onManager, SecureHalf.onAdapter, sendHandshake, recvHandshake, wp_bind, wp_getState,
    wp_rejectIf, wp_update, wp_ofOutcome, wp_onPart]
  refine ⟨fun _ => ⟨rfl, Iff.rfl⟩, fun hne => ?_⟩
  have hc := not_not.mp hne
  have hfail := establishesNothing_of_adapter hc
  refine wp_of_forall (fun _ t => ?_) hfail
  refine ⟨fun clientNonce _ => ⟨fun serverNonce _ => ?_, fun _ => hfail t⟩, fun _ => hfail t⟩
  refine wp_of_forall (fun _ t => ?_) hfail
  refine ⟨fun secret _ => ⟨fun keys _ => ?_, fun _ => hfail t⟩, fun _ => hfail t⟩
  exact registration_wp hc t (createSessionWithContext_wp c.sessionId _ c.sessionManager)

theorem withSessionContext_wp {β : Type} (id : SessionId)
    (f : Call EncryptionContext ProtocolError β) (m : SessionManager) :
    (SessionManager.withSessionContext id f).wp (fun _ m' => m'.active = m.active)
      (fun m' => m'.active = m.active) m :=
  wp_const.mpr (withSessionContext_active id f m)

theorem encryptAndSend_active (sendFragments : List UInt8 → Call τ SecureConnError Unit)
    (frame : OwnedProtocolFrame) (half : SecureHalf τ) :
    (encryptAndSend P C sendFragments frame half).2.sessionManager.active =
      half.sessionManager.active := by
  refine (wp_const (E := fun s : SecureHalf τ =>
    s.sessionManager.active = half.sessionManager.active)).mp ?_
  simp only [encryptAndSend, SecureHalf.onManager, SecureHalf.onAdapter, wp_bind, wp_getState,
    wp_ofOutcome, wp_onPart]
  refine wp_mono (fun encrypted m hm => ?_) (fun _ hm => hm) (withSessionContext_wp _ _ _)
  exact ⟨fun _ _ => wp_of_forall (fun _ _ => hm) fun _ => hm, fun _ => hm⟩

theorem receiveAndDecrypt_active (recvFragments : Call τ SecureConnError (List UInt8))
    (half : SecureHalf τ) :
    (receiveAndDecrypt P C recvFragments half).2.sessionManager.active =
      half.sessionManager.active := by
  refine (wp_const (E := fun s : SecureHalf τ =>
    s.sessionManager.active = half.sessionManager.active)).mp ?_
  simp only [receiveAndDecrypt, SecureHalf.onManager, SecureHalf.onAdapter, wp_bind, wp_getState,
    wp_ofOutcome, wp_onPart]
  refine wp_of_forall (fun cborBytes t => ?_) fun _ => trivial
  exact ⟨fun _ _ => withSessionContext_wp _ _ _, fun _ => trivial⟩

theorem whileActive_kept {β : Type} {x : Call (SecureHalf τ) SecureConnError β}
    (hx : ∀ half, (x half).2.sessionManager.active = half.sessionManager.active)
    (c : SecureConnection τ) :
    (SecureConnection.whileActive x c).2.lifecycle = c.lifecycle ∧
      (SecureConnection.whileActive x c).2.sessionManager.active = c.sessionManager.active := by
  rw [SecureConnection.whileActive, getState_bind, rejectIf_bind]
  split
  · exact ⟨rfl, rfl⟩
  · exact ⟨rfl, hx c.toSecureHalf⟩

end SharedLemmas

/-! ## One connection alone -/

/-- A half, seen as an end of its session. -/
def SecureHalf.endpoint (half : SecureHalf τ) : Endpoint :=
  ⟨.active, half.sessionManager.activeSessions.lookup half.sessionId⟩

namespace SharedLemmas

open Call

variable {P : Primitives} {C : Ciborium} {A : Adapter τ} {half : SecureHalf τ}

theorem withSessionContext_endpoint {β : Type} (f : Call EncryptionContext ProtocolError β)
    (hm : half.sessionManager.poisoned = false) :
    let r := SessionManager.withSessionContext half.sessionId f half.sessionManager
    withSessionContext f half.endpoint =
      (r.1, ⟨.active, r.2.activeSessions.lookup half.sessionId⟩) := by
  have hr : SessionManager.withSessionContext half.sessionId f half.sessionManager =
      SessionManager.underLock half.sessionId f half.sessionManager := by
    rw [SessionManager.withSessionContext, SessionManager.lock, bind_bind, getState_bind,
      rejectIf_bind, if_neg (Bool.eq_false_iff.mp hm)]
  rw [hr]
  unfold withSessionContext SessionManager.underLock SecureHalf.endpoint
  cases hl : half.sessionManager.activeSessions.lookup half.sessionId with
  | none => simp [hl]
  | some entry =>
    cases entry with
    | none => simp [hl]
    | some ctx => simp

/-- While the lock is not poisoned, a sender works as the sending end of `SecurePair`. -/
theorem sendSecureFrame_follows (frame : OwnedProtocolFrame) (receiver : Endpoint)
    (hm : half.sessionManager.poisoned = false) :
    Follows (fun half : SecureHalf τ => SecurePair.mk half.endpoint half.adapter receiver)
      (Session.SecureSender.sendSecureFrame P C A.sendFrame frame)
      (Shared.SecureSender.sendSecureFrame P C A frame) half := by
  have hctx := withSessionContext_endpoint (EncryptionContext.encryptFrame P frame) hm
  refine follows_getState_bind (follows_bind (follows_onPart ?_ ?_) fun encrypted _ _ => ?_)
  · rw [hctx]
  · rw [hctx]
    rfl
  · exact follows_bind (follows_ofOutcome _) fun cborBytes _ _ => follows_onPart rfl rfl

/-- A receiver works as the receiving end. -/
theorem recvSecureFrame_follows (sender : Endpoint) (hm : half.sessionManager.poisoned = false) :
    Follows (fun half : SecureHalf τ => SecurePair.mk sender half.adapter half.endpoint)
      (Session.SecureReceiver.recvSecureFrame P C A.recvFrame)
      (Shared.SecureReceiver.recvSecureFrame P C A) half := by
  refine follows_bind (follows_onPart rfl rfl) fun cborBytes half' hread => ?_
  have hm' : half'.sessionManager.poisoned = false := by
    rw [← hm]
    exact congrArg (fun r => r.2.sessionManager.poisoned) hread.symm
  refine follows_bind (follows_ofOutcome _) fun encrypted half'' hok => ?_
  obtain rfl : half' = half'' := congrArg Prod.snd hok
  have hctx := withSessionContext_endpoint (EncryptionContext.decryptFrame P encrypted) hm'
  refine follows_getState_bind (follows_onPart ?_ ?_)
  · rw [hctx]
  · rw [hctx]
    rfl

end SharedLemmas

end Blackwing.Session.Shared

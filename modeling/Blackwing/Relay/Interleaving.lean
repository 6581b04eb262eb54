import Blackwing.Lib.Interleave
import Blackwing.Relay.Consent

/-!
# Concurrent calls of the relay

`RelayServer` is shared by concurrent calls of `handle_message_from`. A handler locks
the registry, the rendezvous registry and the forwarding table one after the other and
holds no lock in between, so the sections of two handlers can come in any order. A
`Thread` is a handler between two of its sections, with the local variables it still
needs; its next section reads its own clock.

* `Thread.next`: the sections of every handler.
* `handles_alone`: a call that nothing disturbs is `handle_message_from` of the
  sequential model.
* `Authorization.Verified`: at the call of `authorize_pair`, the payload whose signature
  was verified names the initiator that is authorized.
* `authorizes_verified_iff`: when this holds in an interleaving. The handler verifies
  the initiator it has peeked and authorizes the one it finds when it accepts.
-/

namespace Blackwing.Relay

open RelayServer

/-- The fields of a `ConnectIntent`. -/
structure ConnectCall where
  initiatorDeviceId : DeviceId
  target : DeviceId
  intentId : List UInt8
  candidates : List Candidate
  timestamp : UInt64
  signatureBytes : List UInt8

/-- The fields of an `AcceptConnect`. -/
structure AcceptCall where
  acceptorDeviceId : DeviceId
  intentId : List UInt8
  candidates : List Candidate
  timestamp : UInt64
  signatureBytes : List UInt8

/-- The payload of an acceptance of an intent of the initiator. -/
def AcceptCall.payload (call : AcceptCall) (initiator : DeviceId) : List UInt8 :=
  pairPayload call.intentId call.acceptorDeviceId initiator call.timestamp

/-- What a section reads from outside. -/
structure Readings where
  now : UInt64
  random : Option (Bytes 32)

/-- A call of `handle_message_from` between two sections. -/
inductive Thread (C : RelayCrypto) where
  | received (message : RelayMessage) (peerAddr : Option SocketAddr)
  /-- `handle_register`, before it locks the registry. -/
  | registering (now sessionId : UInt64) (deviceId : DeviceId) (verifyKeyBytes : Bytes 32)
      (peerAddr : Option SocketAddr)
  /-- `handle_connect_intent`, before `is_registered`. -/
  | connectKeyed (call : ConnectCall) (verifyKey : VerifyKey C)
  /-- `handle_connect_intent`, before `register_intent`. -/
  | connectVerified (call : ConnectCall) (idArr : IntentId)
  /-- `handle_accept_connect`, before `peek_initiator`. -/
  | acceptKeyed (call : AcceptCall) (verifyKey : VerifyKey C) (idArr : IntentId)
  /-- `handle_accept_connect`, before `accept_intent`. -/
  | acceptVerified (call : AcceptCall) (verifyKey : VerifyKey C) (idArr : IntentId)
      (initiatorDeviceId : DeviceId)
  /-- `handle_accept_connect`, before `authorize_pair`. -/
  | accepted (call : AcceptCall) (verifyKey : VerifyKey C) (idArr : IntentId)
      (initiatorDeviceId initiator : DeviceId) (initiatorCandidates : List Candidate)
      (relayToken : RelayToken)
  /-- `handle_get_candidates`, before `get_target_candidates`. -/
  | candidatesAllowed (requesterDeviceId : DeviceId) (intentId : List UInt8) (idArr : IntentId)
  /-- `handle_poll_pending_intents`, before `pending_for`. -/
  | pollAllowed (deviceId : DeviceId)
  /-- `handle_relay_establish`, before `update_binding`. -/
  | establishVerified (intentId : List UInt8) (idArr : IntentId) (deviceId : DeviceId)
      (addr : SocketAddr)
  | finished (result : Outcome RelayError RelayMessage)

namespace Thread

variable {C : RelayCrypto}

/-- The first section of each handler, up to its next lock. -/
def receive (r : Readings) (peerAddr : Option SocketAddr) :
    RelayMessage → Call RelayServer RelayError (Thread C)
  | .registerRequest deviceId verifyKeyBytes timestamp signatureBytes => do
    checkWindow r.now timestamp "Timestamp out of acceptable bounds"
    let verifyKey ← Call.ofOutcome
      (.okOr (.authFailed "Invalid Ed25519 public key") (VerifyKey.fromBytes C verifyKeyBytes))
    Call.rejectIf (verifyKey.deviceId ≠ deviceId)
      (.authFailed "Device ID does not match the provided public key")
    let signature ← Call.ofOutcome (signatureFrom signatureBytes)
    checkSignature C verifyKey (registerPayload deviceId verifyKeyBytes timestamp) signature
      "Signature verification failed"
    let s ← Call.getState
    Call.update fun s => { s with nextSessionId := s.nextSessionId + 1 }
    pure (.registering r.now s.nextSessionId deviceId verifyKeyBytes peerAddr)
  | .discoverRequest target => do
    let s ← Call.getState
    pure (.finished (.ok (.discoverResponse target (s.isRegistered target))))
  | .connectIntent initiatorDeviceId target intentId candidates timestamp signatureBytes => do
    checkWindow r.now timestamp "ConnectIntent timestamp out of bounds"
    let s ← Call.getState
    let verifyKey ← Call.ofOutcome (verifyKeyFor C s initiatorDeviceId)
    pure (.connectKeyed ⟨initiatorDeviceId, target, intentId, candidates, timestamp, signatureBytes⟩
      verifyKey)
  | .acceptConnect acceptorDeviceId intentId candidates timestamp signatureBytes => do
    checkWindow r.now timestamp "AcceptConnect timestamp out of bounds"
    let s ← Call.getState
    let verifyKey ← Call.ofOutcome (verifyKeyFor C s acceptorDeviceId)
    let idArr ← Call.ofOutcome (intentIdFrom intentId)
    pure (.acceptKeyed ⟨acceptorDeviceId, intentId, candidates, timestamp, signatureBytes⟩ verifyKey
      idArr)
  | .getCandidates requesterDeviceId intentId => do
    let idArr ← Call.ofOutcome (intentIdFrom intentId)
    let s ← Call.getState
    Call.rejectIf (s.isRegistered requesterDeviceId = false)
      (.authFailed "Requester is not registered")
    pure (.candidatesAllowed requesterDeviceId intentId idArr)
  | .relayEstablishRequest intentId deviceId timestamp signatureBytes => do
    checkWindow r.now timestamp "RelayEstablishRequest timestamp out of bounds"
    let idArr ← Call.ofOutcome (intentIdFrom intentId)
    let signature ← Call.ofOutcome (signatureFrom signatureBytes)
    let s ← Call.getState
    let verifyKey ← Call.ofOutcome (verifyKeyFor C s deviceId)
    checkSignature C verifyKey (establishPayload intentId deviceId timestamp) signature
      "RelayEstablishRequest signature verification failed"
    let addr ← Call.ofOutcome
      (.okOr (.authFailed "RelayEstablishRequest requires a known peer address") peerAddr)
    pure (.establishVerified intentId idArr deviceId addr)
  | .pollPendingIntents deviceId => do
    let s ← Call.getState
    Call.rejectIf (s.isRegistered deviceId = false) (.authFailed "Device not registered")
    pure (.pollAllowed deviceId)
  | _ => Call.fail (.internal "Message type not valid for server-side processing")

/-- The next section. What a handler computes without a lock belongs to the section before. -/
def next (r : Readings) : Thread C → Call RelayServer RelayError (Thread C)
  | .received message peerAddr => receive r peerAddr message
  | .registering now sessionId deviceId verifyKeyBytes peerAddr => do
    Call.update fun s => { s with registry := evicted now s.registry }
    let s ← Call.getState
    Call.rejectIf (HashMap.size s.registry ≥ maxRegistrations)
      (.internal "Relay registry is at capacity")
    Call.update fun s => { s with
      registry := s.registry.insert deviceId ⟨sessionId, now, verifyKeyBytes, peerAddr⟩ }
    pure (.finished (.ok (.registerAck sessionId peerAddr)))
  | .connectKeyed call verifyKey => do
    let s ← Call.getState
    if s.isRegistered call.target = false then
      pure (.finished (.ok (.connectRejected call.target "Target device is not registered")))
    else do
      let idArr ← Call.ofOutcome (intentIdFrom call.intentId)
      let signature ← Call.ofOutcome (signatureFrom call.signatureBytes)
      checkSignature C verifyKey
        (pairPayload call.intentId call.initiatorDeviceId call.target call.timestamp) signature
        "ConnectIntent signature verification failed"
      pure (.connectVerified call idArr)
  | .connectVerified call idArr => do
    onRendezvous (RendezvousRegistry.registerIntent r.now idArr call.initiatorDeviceId call.target
      call.candidates)
    pure (.finished (.ok (.connectInvite call.initiatorDeviceId call.intentId)))
  | .acceptKeyed call verifyKey idArr => do
    let s ← Call.getState
    let initiatorDeviceId ← Call.ofOutcome ((s.rendezvous.peekInitiator idArr).mapErr .internal)
    let signature ← Call.ofOutcome (signatureFrom call.signatureBytes)
    checkSignature C verifyKey (call.payload initiatorDeviceId) signature
      "AcceptConnect signature verification failed"
    pure (.acceptVerified call verifyKey idArr initiatorDeviceId)
  | .acceptVerified call verifyKey idArr initiatorDeviceId => do
    let (initiator, initiatorCandidates, relayToken) ← onRendezvous
      (RendezvousRegistry.acceptIntent r.now r.random idArr call.acceptorDeviceId call.candidates)
    pure (.accepted call verifyKey idArr initiatorDeviceId initiator initiatorCandidates relayToken)
  | .accepted call _ idArr _ initiator initiatorCandidates relayToken => do
    onForwarding (ForwardingTable.authorizePair r.now idArr relayToken initiator call.acceptorDeviceId)
    pure (.finished (.ok (.candidateExchange call.intentId initiatorCandidates relayToken)))
  | .candidatesAllowed requesterDeviceId intentId idArr => do
    let s ← Call.getState
    let (candidates, relayToken) ← Call.ofOutcome
      ((s.rendezvous.getTargetCandidates idArr requesterDeviceId).mapErr .internal)
    pure (.finished (.ok (.candidateExchange intentId candidates relayToken)))
  | .pollAllowed deviceId => do
    let s ← Call.getState
    pure (.finished (.ok (.pendingIntents ((s.rendezvous.pendingFor r.now deviceId).map fun p =>
      ⟨p.2, p.1.toList⟩))))
  | .establishVerified intentId idArr deviceId addr => do
    onForwarding (ForwardingTable.updateBinding r.now idArr deviceId addr)
    pure (.finished (.ok (.relayEstablishAck intentId)))
  | .finished result => pure (.finished result)

/-- The answer of a call that has finished. -/
def result : Thread C → Outcome RelayError RelayMessage
  | .finished result => result
  | _ => .panicked

/-- A bound on the sections that are left. -/
def left : Thread C → Nat
  | .received _ _ => 4
  | .acceptKeyed _ _ _ => 3
  | .connectKeyed _ _ => 2
  | .acceptVerified _ _ _ _ => 2
  | .finished _ => 0
  | _ => 1

end Thread

/-- The calls on one shared relay, and `sweep_expired` beside them. -/
def relayThreads (C : RelayCrypto) :
    Threads RelayServer (Thread C) (RelayMessage × Option SocketAddr) Readings UInt64 where
  start := fun call => .received call.1 call.2
  advance := fun thread r => (thread.next r).orFinish .finished
  outside := fun now s =>
    (onRendezvous (RendezvousRegistry.sweepExpired now) s).2

/-- A step of a schedule: a message arrives, a call runs its next section, or the intents are
swept. -/
abbrev RelayPoolOp : Type := PoolOp (RelayMessage × Option SocketAddr) Readings UInt64

/-- The interleaving of calls on an empty relay under a schedule. -/
def relayPoolRun (C : RelayCrypto) (rateLimitBytesPerSec sessionExpiryMs : UInt64)
    (ops : List RelayPoolOp) : List (Entry (Pool RelayServer (Thread C)) RelayPoolOp Unit) :=
  run (poolStep (relayThreads C))
    ⟨RelayServer.withLimits rateLimitBytesPerSec sessionExpiryMs, []⟩ ops

/-! ## A call that nothing disturbs -/

/-- The readings of an environment, in the order of the sections that read the clock. -/
def Env.readings {C : RelayCrypto} (env : Env) : Thread C → Readings
  | .connectVerified _ _ => ⟨env.clock 1, env.random⟩
  | .acceptVerified _ _ _ _ => ⟨env.clock 1, env.random⟩
  | .accepted _ _ _ _ _ _ _ => ⟨env.clock 2, env.random⟩
  | .establishVerified _ _ _ _ => ⟨env.clock 1, env.random⟩
  | _ => ⟨env.clock 0, env.random⟩

namespace InterleavingLemmas

variable {C : RelayCrypto}

/-- The sections of a call in sequence. -/
abbrev sections (C : RelayCrypto) (env : Env) :
    Nat → Thread C → Call RelayServer RelayError RelayMessage :=
  inSequence (fun thread => thread.next (env.readings thread)) Thread.result

variable {env : Env} {deviceId initiator target acceptor : DeviceId} {verifyKeyBytes : Bytes 32}
  {intentId : List UInt8} {candidates : List Candidate} {timestamp : UInt64}
  {signatureBytes : List UInt8} {peerAddr : Option SocketAddr} {s : RelayServer}

theorem sections_register :
    sections C env 4 (.received (.registerRequest deviceId verifyKeyBytes timestamp signatureBytes)
        peerAddr) s =
      handleRegister C env deviceId verifyKeyBytes timestamp signatureBytes peerAddr s := by
  rw [handleRegister]
  simp only [sections, inSequence, Thread.next, Thread.receive, Call.bind_bind, Call.bind_pure_left]
  refine Call.rejectIf_bind_congr (Call.ofOutcome_bind_congr fun verifyKey => ?_)
  refine Call.rejectIf_bind_congr (Call.ofOutcome_bind_congr fun signature => ?_)
  refine Call.rejectIf_bind_congr ?_
  rfl

theorem sections_connect :
    sections C env 4 (.received (.connectIntent initiator target intentId candidates timestamp
        signatureBytes) peerAddr) s =
      handleConnectIntent C env initiator target intentId candidates timestamp signatureBytes s := by
  rw [handleConnectIntent]
  simp only [sections, inSequence, Thread.next, Thread.receive, Call.bind_bind, Call.bind_pure_left]
  refine Call.rejectIf_bind_congr ?_
  rw [Call.getState_bind, Call.getState_bind]
  refine Call.ofOutcome_bind_congr fun verifyKey => ?_
  rw [Call.getState_bind]
  cases s.isRegistered target with
  | false => rfl
  | true =>
    simp only [Bool.true_eq_false, if_false, Call.bind_bind, Call.bind_pure_left]
    refine Call.ofOutcome_bind_congr fun idArr => Call.ofOutcome_bind_congr fun signature => ?_
    refine Call.rejectIf_bind_congr ?_
    rfl

theorem sections_accept :
    sections C env 4 (.received (.acceptConnect acceptor intentId candidates timestamp
        signatureBytes) peerAddr) s =
      handleAcceptConnect C env acceptor intentId candidates timestamp signatureBytes s := by
  rw [handleAcceptConnect]
  simp only [sections, inSequence, Thread.next, Thread.receive, Call.bind_bind, Call.bind_pure_left]
  refine Call.rejectIf_bind_congr ?_
  rw [Call.getState_bind, Call.getState_bind]
  refine Call.ofOutcome_bind_congr fun verifyKey => Call.ofOutcome_bind_congr fun idArr => ?_
  rw [Call.getState_bind]
  refine Call.ofOutcome_bind_congr fun initiatorDeviceId => ?_
  refine Call.ofOutcome_bind_congr fun signature => Call.rejectIf_bind_congr ?_
  rfl

theorem sections_establish :
    sections C env 4 (.received (.relayEstablishRequest intentId deviceId timestamp signatureBytes)
        peerAddr) s =
      handleRelayEstablish C env intentId deviceId timestamp signatureBytes peerAddr s := by
  rw [handleRelayEstablish]
  simp only [sections, inSequence, Thread.next, Thread.receive, Call.bind_bind, Call.bind_pure_left]
  refine Call.rejectIf_bind_congr ?_
  refine Call.ofOutcome_bind_congr fun idArr => Call.ofOutcome_bind_congr fun signature => ?_
  rw [Call.getState_bind, Call.getState_bind]
  refine Call.ofOutcome_bind_congr fun verifyKey => Call.rejectIf_bind_congr ?_
  refine Call.ofOutcome_bind_congr fun addr => ?_
  rfl

theorem sections_eq {message : RelayMessage} :
    sections C env 4 (.received message peerAddr) s = handleMessageFrom C env message peerAddr s := by
  cases message with
  | registerRequest => exact sections_register
  | connectIntent => exact sections_connect
  | acceptConnect => exact sections_accept
  | relayEstablishRequest => exact sections_establish
  | getCandidates requester intentId =>
    rw [handleMessageFrom, handleGetCandidates]
    simp only [sections, inSequence, Thread.next, Thread.receive, Call.bind_bind,
      Call.bind_pure_left]
    refine Call.ofOutcome_bind_congr fun idArr => ?_
    rw [Call.getState_bind, Call.getState_bind]
    refine Call.rejectIf_bind_congr ?_
    rfl
  | pollPendingIntents deviceId =>
    rw [handleMessageFrom, handlePollPendingIntents]
    simp only [sections, inSequence, Thread.next, Thread.receive, Call.bind_bind,
      Call.bind_pure_left]
    rw [Call.getState_bind, Call.getState_bind]
    refine Call.rejectIf_bind_congr ?_
    rfl
  | _ => rfl

/-- A section leaves fewer sections to run. -/
theorem left_next (r : Readings) (thread : Thread C) (s : RelayServer) :
    (thread.next r).wp (fun t _ => t.left ≤ thread.left - 1) (fun _ => True) s := by
  cases thread with
  | received message peerAddr =>
    cases message with
    | registerRequest | discoverRequest | connectIntent | acceptConnect | getCandidates
    | relayEstablishRequest | pollPendingIntents =>
      simp [Thread.next, Thread.receive, checkWindow, checkSignature, Thread.left]
    | _ => trivial
  | connectKeyed call verifyKey =>
    simp only [Thread.next, Call.wp_bind, Call.wp_getState]
    split
    · exact Nat.zero_le _
    · simp [checkSignature, Thread.left]
  | connectVerified call idArr =>
    exact Call.wp_bind.mpr (Call.wp_of_forall (fun _ _ => Nat.le_refl 0) fun _ => trivial)
  | acceptVerified call verifyKey idArr initiatorDeviceId =>
    exact Call.wp_bind.mpr (Call.wp_of_forall (fun _ _ => Nat.le_refl 1) fun _ => trivial)
  | accepted call verifyKey idArr initiatorDeviceId initiator initiatorCandidates relayToken =>
    exact Call.wp_bind.mpr (Call.wp_of_forall (fun _ _ => Nat.le_refl 0) fun _ => trivial)
  | establishVerified intentId idArr deviceId addr =>
    exact Call.wp_bind.mpr (Call.wp_of_forall (fun _ _ => Nat.le_refl 0) fun _ => trivial)
  | _ => simp [Thread.next, checkSignature, Thread.left]

end InterleavingLemmas

open InterleavingLemmas

/-- A call that nothing disturbs finishes after at most four sections, with the answer and the
state of `handle_message_from`. -/
theorem handles_alone (C : RelayCrypto) (env : Env) (message : RelayMessage)
    (peerAddr : Option SocketAddr) (s : RelayServer) :
    alone Thread.finished (fun thread : Thread C => thread.next (env.readings thread)) 4
        (.received message peerAddr) s =
      (.finished (handleMessageFrom C env message peerAddr s).1,
        (handleMessageFrom C env message peerAddr s).2) := by
  rw [← sections_eq]
  refine @alone_eq_inSequence _ _ _ _ Thread.finished
    (fun thread => thread.next (env.readings thread)) Thread.result (fun _ => rfl) (fun _ => rfl)
    Thread.left ?_ (fun _ => rfl)
    (fun thread s t s' h => Call.of_wp_ok (left_next (env.readings thread) thread s) h)
    4 (.received message peerAddr) s (Nat.le_refl 4)
  intro thread hzero
  cases thread with
  | finished r => rfl
  | _ => cases hzero

/-! ## What an acceptance has verified -/

/-- A call of `authorize_pair` by `handle_accept_connect`, with the signature that the handler has
verified. -/
structure Authorization where
  intentId : IntentId
  relayToken : RelayToken
  initiator : DeviceId
  acceptor : DeviceId
  timestamp : UInt64
  verifyKeyBytes : Bytes 32
  payload : List UInt8
  signatureBytes : List UInt8
deriving DecidableEq

/-- The call of `authorize_pair` that a thread makes next. -/
def Thread.authorization {C : RelayCrypto} : Thread C → Option Authorization
  | .accepted call verifyKey idArr initiatorDeviceId initiator _ relayToken =>
    some ⟨idArr, relayToken, initiator, call.acceptorDeviceId, call.timestamp, verifyKey.bytes,
      call.payload initiatorDeviceId, call.signatureBytes⟩
  | _ => none

/-- The signature is the acceptor's, and it is over the initiator that is authorized. -/
structure Authorization.Verified (C : RelayCrypto) (a : Authorization) : Prop where
  identity : C.sha256 a.verifyKeyBytes.toList = a.acceptor
  signature : signed C a.verifyKeyBytes a.payload a.signatureBytes = true
  initiator : a.payload = pairPayload a.intentId.toList a.acceptor a.initiator a.timestamp

/-- An `accept_intent` that will accept finds the initiator that its handler has peeked. -/
def AcceptsPeeked {C : RelayCrypto} (thread : Thread C) (r : Readings) (s : RelayServer) : Prop :=
  match thread with
  | .acceptVerified call _ idArr initiatorDeviceId =>
    ∀ intent createdAt, s.rendezvous.lookup idArr = some intent → intent.state = .pending createdAt →
      saturatingSub r.now createdAt ≤ intentTimeoutMs → intent.target = call.acceptorDeviceId →
      r.random ≠ none → intent.initiator = initiatorDeviceId
  | _ => True

namespace InterleavingLemmas

/-- What a handler has established before its next section. -/
def Sound : Thread C → Prop
  | .registering _ _ deviceId verifyKeyBytes _ => C.sha256 verifyKeyBytes.toList = deviceId
  | .acceptKeyed call verifyKey idArr =>
    call.intentId = idArr.toList ∧ verifyKey.deviceId = call.acceptorDeviceId
  | .acceptVerified call verifyKey idArr initiatorDeviceId =>
    (call.intentId = idArr.toList ∧ verifyKey.deviceId = call.acceptorDeviceId) ∧
      signed C verifyKey.bytes (call.payload initiatorDeviceId) call.signatureBytes = true
  | .accepted call verifyKey idArr initiatorDeviceId initiator _ _ =>
    (call.intentId = idArr.toList ∧ verifyKey.deviceId = call.acceptorDeviceId) ∧
      signed C verifyKey.bytes (call.payload initiatorDeviceId) call.signatureBytes = true ∧
      initiator = initiatorDeviceId
  | _ => True

theorem verified_of_sound {thread : Thread C} (h : Sound thread) {a : Authorization}
    (ha : thread.authorization = some a) : a.Verified C := by
  cases thread with
  | accepted call verifyKey idArr initiatorDeviceId initiator initiatorCandidates relayToken =>
    cases ha
    obtain ⟨⟨hid, hkey⟩, hsigned, hinitiator⟩ := h
    refine ⟨hkey, hsigned, ?_⟩
    rw [AcceptCall.payload, hid, hinitiator]
  | _ => cases ha

variable {s : RelayServer} {verifyKey : VerifyKey C} {r : Readings}

/-- The registered key of a device hashes to it. -/
theorem deviceId_of_verifyKeyFor (hkeys : Keys C s) {deviceId : DeviceId}
    (h : verifyKeyFor C s deviceId = .ok verifyKey) :
    verifyKey.deviceId = deviceId := by
  rcases ServerLemmas.verifyKeyFor_cases C s deviceId with ⟨ctx, hv, hl, hk⟩ | ⟨-, e, hk⟩
  · cases hk.symm.trans h
    exact hkeys deviceId ctx hl
  · cases hk.symm.trans h

theorem sound_received {message : RelayMessage} {peerAddr : Option SocketAddr} (hkeys : Keys C s) :
    ((Thread.received message peerAddr : Thread C).next r).wp (fun t s' => Keys C s' ∧ Sound t)
      (Keys C) s := by
  cases message with
  | acceptConnect acceptor intentId candidates timestamp signatureBytes =>
    simp only [Thread.next, Thread.receive, checkWindow, Call.wp_bind, Call.wp_rejectIf,
      Call.wp_getState, Call.wp_ofOutcome, Call.wp_pure]
    refine ⟨fun _ => hkeys, fun _ =>
      ⟨fun verifyKey hkey => ⟨fun idArr hid => ⟨hkeys, ?_, ?_⟩, ?_⟩, ?_⟩⟩
    · exact Bytes.ofList?_eq_some.mp (Outcome.okOr_eq_ok.mp hid)
    · exact deviceId_of_verifyKeyFor hkeys hkey
    · exact fun _ => hkeys
    · exact fun _ => hkeys
  | registerRequest deviceId verifyKeyBytes timestamp signatureBytes =>
    simp only [Thread.next, Thread.receive, checkWindow, checkSignature, Call.wp_bind,
      Call.wp_rejectIf, Call.wp_getState, Call.wp_ofOutcome, Call.wp_pure, Call.wp_update]
    refine ⟨fun _ => hkeys, fun _ =>
      ⟨fun verifyKey hkey => ⟨fun _ => hkeys, fun hid => ?_⟩, fun _ => hkeys⟩⟩
    refine ⟨fun signature _ => ⟨fun _ => hkeys, fun _ => ⟨hkeys, ?_⟩⟩, fun _ => hkeys⟩
    have hbytes : verifyKey.bytes = verifyKeyBytes := by
      obtain ⟨_, hk⟩ := Option.dite_none_right_eq_some.mp (Outcome.okOr_eq_ok.mp hkey)
      cases hk
      rfl
    rw [← hbytes]
    exact not_not.mp hid
  | connectIntent | getCandidates | relayEstablishRequest | pollPendingIntents | discoverRequest =>
    simp [Thread.next, Thread.receive, checkWindow, checkSignature, Sound, hkeys]
  | _ => exact hkeys

theorem sound_onPart {τ α : Type} {get : RelayServer → τ} {set : RelayServer → τ → RelayServer}
    {x : Call τ String α} {f : α → Thread C} (hset : ∀ t, Keys C (set s t)) (hf : ∀ a, Sound (f a)) :
    (Call.onPart get set RelayError.internal x >>= fun a => pure (f a)).wp
      (fun t s' => Keys C s' ∧ Sound t)
      (Keys C) s :=
  Call.wp_bind.mpr (Call.wp_onPart.mpr (Call.wp_of_forall (fun a t => ⟨hset t, hf a⟩) hset))

/-- The section of `accept_intent` returns the initiator of the intent that it finds. -/
theorem sound_acceptVerified {call : AcceptCall} {idArr : IntentId} {initiatorDeviceId : DeviceId}
    (hkeys : Keys C s) (hsound : Sound (.acceptVerified call verifyKey idArr initiatorDeviceId))
    (hmeets : AcceptsPeeked (.acceptVerified call verifyKey idArr initiatorDeviceId) r s) :
    ((Thread.acceptVerified call verifyKey idArr initiatorDeviceId).next r).wp
      (fun t s' => Keys C s' ∧ Sound t) (Keys C) s := by
  refine Call.wp_bind.mpr (Call.wp_onPart.mpr ?_)
  unfold Call.wp
  rcases RendezvousLemmas.acceptIntent_cases r.now r.random idArr call.acceptorDeviceId
    call.candidates s.rendezvous with
    ⟨-, e, h⟩ | ⟨intent, createdAt, -, -, -, h⟩ | ⟨intent, createdAt, -, -, -, -, -, h⟩ |
    ⟨intent, createdAt, relayToken, hl, hst, htime, ht, hrand, h⟩
  · rw [h]
    exact hkeys
  · rw [h]
    exact hkeys
  · rw [h]
    exact hkeys
  · rw [h]
    refine ⟨hkeys, hsound.1, hsound.2, hmeets intent createdAt hl hst htime ht ?_⟩
    exact fun hnone => nomatch hnone.symm.trans hrand

theorem sound_next {thread : Thread C} (hkeys : Keys C s) (hsound : Sound thread)
    (hmeets : AcceptsPeeked thread r s) :
    (thread.next r).wp (fun t s' => Keys C s' ∧ Sound t) (Keys C) s := by
  cases thread with
  | received message peerAddr => exact sound_received hkeys
  | registering now sessionId deviceId verifyKeyBytes peerAddr =>
    have hevicted : Keys C { s with registry := evicted now s.registry } :=
      ProvenanceLemmas.keys_evicted hkeys now rfl
    simp only [Thread.next, Call.wp_bind, Call.wp_update, Call.wp_getState, Call.wp_rejectIf,
      Call.wp_pure]
    refine ⟨fun _ => hevicted, fun _ => ⟨?_, trivial⟩⟩
    exact @ProvenanceLemmas.keys_insert C _ deviceId hevicted
      ⟨sessionId, now, verifyKeyBytes, peerAddr⟩ hsound _ rfl
  | connectKeyed call verifyKey =>
    simp only [Thread.next, Call.wp_bind, Call.wp_getState]
    split
    · exact ⟨hkeys, trivial⟩
    · simp [checkSignature, Sound, hkeys]
  | connectVerified call idArr => exact sound_onPart (fun _ => hkeys) fun _ => trivial
  | acceptKeyed call verifyKey idArr =>
    simp only [Thread.next, checkSignature, Call.wp_bind, Call.wp_getState, Call.wp_ofOutcome,
      Call.wp_rejectIf, Call.wp_pure]
    refine ⟨fun initiatorDeviceId _ =>
      ⟨fun signature hsig => ⟨fun _ => hkeys, fun hverify => ?_⟩, ?_⟩, ?_⟩
    · refine ⟨hkeys, hsound, ServerLemmas.signed_eq_true.mpr ⟨signature, ?_, ?_⟩⟩
      · exact Outcome.okOr_eq_ok.mp hsig
      · exact Bool.of_not_eq_false hverify
    · exact fun _ => hkeys
    · exact fun _ => hkeys
  | acceptVerified call verifyKey idArr initiatorDeviceId =>
    exact sound_acceptVerified hkeys hsound hmeets
  | accepted call verifyKey idArr initiatorDeviceId initiator initiatorCandidates relayToken =>
    exact sound_onPart (fun _ => hkeys) fun _ => trivial
  | establishVerified intentId idArr deviceId addr =>
    exact sound_onPart (fun _ => hkeys) fun _ => trivial
  | _ => simp [Thread.next, Sound, hkeys]

/-- The section of `accept_intent`, when it accepts. -/
theorem advance_acceptVerified {call : AcceptCall} {idArr : IntentId} {initiatorDeviceId : DeviceId}
    {intent : PendingIntent} {createdAt : UInt64} {relayToken : RelayToken}
    (hl : s.rendezvous.lookup idArr = some intent) (hst : intent.state = .pending createdAt)
    (htime : saturatingSub r.now createdAt ≤ intentTimeoutMs)
    (ht : intent.target = call.acceptorDeviceId) (hrand : r.random = some relayToken) :
    ((relayThreads C).advance (.acceptVerified call verifyKey idArr initiatorDeviceId) r s).1 =
      .accepted call verifyKey idArr initiatorDeviceId intent.initiator intent.initiatorCandidates
        relayToken := by
  have hcall : ∀ {a m}, RendezvousRegistry.acceptIntent r.now r.random idArr call.acceptorDeviceId
      call.candidates s.rendezvous = (.ok a, m) →
      ((relayThreads C).advance (.acceptVerified call verifyKey idArr initiatorDeviceId) r s).1 =
        .accepted call verifyKey idArr initiatorDeviceId a.1 a.2.1 a.2.2 := by
    intro a m h
    show (((Thread.acceptVerified call verifyKey idArr initiatorDeviceId).next r).orFinish
      Thread.finished s).1 = _
    rw [Call.orFinish, Thread.next, onRendezvous, Call.bind_of_ok (Call.onPart_of_ok h)]
    rfl
  rcases RendezvousLemmas.acceptIntent_cases r.now r.random idArr call.acceptorDeviceId
    call.candidates s.rendezvous with
    ⟨hno, -⟩ | ⟨i, c, hi, hc, hlate, -⟩ | ⟨_, _, -, -, -, -, hnone, -⟩ |
    ⟨i, c, token, hi, -, -, -, htoken, h⟩
  · exact absurd ht (hno intent createdAt hl hst).2
  · cases hl.symm.trans hi
    cases hst.symm.trans hc
    exact absurd hlate (UInt64.not_lt.mpr htime)
  · cases hnone.symm.trans hrand
  · cases hl.symm.trans hi
    cases hrand.symm.trans htoken
    exact hcall h

theorem initiator_of_payload {l l' : List UInt8} {own own' other other' : DeviceId} {t : UInt64}
    (h : pairPayload l own other t = pairPayload l' own' other' t) : other = other' := by
  unfold pairPayload at h
  have hother := (List.append_inj' h rfl).1
  exact Bytes.toList_injective (List.append_inj' hother (by simp)).2

end InterleavingLemmas

/-- In an interleaving of calls on one relay, every `authorize_pair` of an acceptance is for the
initiator over whom the handler has verified the acceptor's signature, exactly when every
`accept_intent` that accepts finds the initiator that its handler has peeked before. -/
theorem authorizes_verified_iff (C : RelayCrypto) (rateLimitBytesPerSec sessionExpiryMs : UInt64)
    (ops : List RelayPoolOp) :
    (∀ e ∈ relayPoolRun C rateLimitBytesPerSec sessionExpiryMs ops, ∀ thread ∈ e.post.threads,
      ∀ a, thread.authorization = some a → a.Verified C) ↔
    ∀ e ∈ relayPoolRun C rateLimitBytesPerSec sessionExpiryMs ops,
      SectionMeets AcceptsPeeked e.pre e.input := by
  constructor
  · intro hverified e he index r thread hop hthread
    cases thread with
    | acceptVerified call verifyKey idArr initiatorDeviceId =>
      intro intent createdAt hl hst htime ht hrand
      obtain ⟨relayToken, hrand⟩ := Option.ne_none_iff_exists'.mp hrand
      have hmem := advanced_mem (T := relayThreads C) hthread r
      rw [← hop, ← post_eq_of_mem_run he, advance_acceptVerified hl hst htime ht hrand] at hmem
      have hpayload := (hverified e he _ hmem _ rfl).initiator
      exact (initiator_of_payload hpayload).symm
    | _ => trivial
  · intro hmeets e he thread hthread a ha
    have hinit : Pool.Holds (Keys C) (Sound (C := C))
        ⟨RelayServer.withLimits rateLimitBytesPerSec sessionExpiryMs, []⟩ :=
      ⟨fun _ _ hl => (nomatch hl), fun _ hmem => absurd hmem List.not_mem_nil⟩
    have hholds := pool_guarded (T := relayThreads C) (fun _ => trivial)
      (fun thread r s hkeys hsound hpeeked =>
        holds_orFinish (fun _ => trivial) (sound_next hkeys hsound hpeeked))
      (fun _ _ hkeys => hkeys) hinit hmeets e he
    exact verified_of_sound (hholds.2.2 thread hthread) ha

/-- Devices 1, 2 and 3 register, and device 1 asks for device 2. Device 2 accepts: its handler peeks
device 1, verifies the signature, and waits. More than 30 seconds after the request of device 1,
device 3 asks for device 2 under the same id, which drops the old intent. -/
def peekedThenReplaced : List RelayPoolOp :=
  let a := plainClient 1
  let b := plainClient 2
  let c := plainClient 3
  let id := Bytes.fill 16 7
  let early : Readings := ⟨1000, none⟩
  let late : Readings := ⟨31001, none⟩
  [.spawn (a.request (.register 1000), none), .advance 0 early, .advance 0 early,
    .spawn (b.request (.register 1000), none), .advance 1 early, .advance 1 early,
    .spawn (c.request (.register 1000), none), .advance 2 early, .advance 2 early,
    .spawn (a.request (.connectIntent b.deviceId id [] 1000), none),
    .advance 3 early, .advance 3 early, .advance 3 early,
    .spawn (b.request (.acceptConnect id a.deviceId [] 1000), none),
    .advance 4 early, .advance 4 early,
    .spawn (c.request (.connectIntent b.deviceId id [] 31001), none),
    .advance 5 late, .advance 5 late, .advance 5 late]

/-- The waiting handler goes on. -/
def acceptReplaced : RelayPoolOp := .advance 4 ⟨31001, some (Bytes.fill 32 9)⟩

/-- The pool when the handler stands before `authorize_pair`. -/
def replacedPool : Pool RelayServer (Thread .plain) :=
  endState (poolStep (relayThreads .plain))
    ⟨RelayServer.withLimits rateLimitBytesPerSec sessionExpiryMs, []⟩
    (peekedThenReplaced ++ [acceptReplaced])

/-- What it has verified is the signature of device 2 over device 1. -/
def replacedAuthorization : Authorization where
  intentId := Bytes.fill 16 7
  relayToken := Bytes.fill 32 9
  initiator := (plainClient 3).deviceId
  acceptor := (plainClient 2).deviceId
  timestamp := 1000
  verifyKeyBytes := Bytes.fill 32 2
  payload :=
    pairPayload (Bytes.fill 16 7).toList (plainClient 2).deviceId (plainClient 1).deviceId 1000
  signatureBytes := (plainClient 2).signatureBytes
    (pairPayload (Bytes.fill 16 7).toList (plainClient 2).deviceId (plainClient 1).deviceId 1000)

/-- The relay authorizes device 3 with device 2, on a signature of device 2 over device 1 that is no
signature over device 3. -/
theorem replaced_initiator_authorized :
    (∃ e ∈ relayPoolRun .plain rateLimitBytesPerSec sessionExpiryMs
        (peekedThenReplaced ++ [acceptReplaced]),
      ∃ thread ∈ e.post.threads, thread.authorization = some replacedAuthorization) ∧
    ¬ replacedAuthorization.Verified .plain ∧
    signed .plain (Bytes.fill 32 2) (pairPayload (Bytes.fill 16 7).toList (plainClient 2).deviceId
      (plainClient 3).deviceId 1000) replacedAuthorization.signatureBytes = false ∧
    ((poolStep (relayThreads .plain) replacedPool
        (.advance 4 ⟨31001, none⟩)).2.shared.forwarding.contexts.lookup (Bytes.fill 16 7)).map
          (fun ctx => (ctx.token, ctx.initiator.deviceId, ctx.target.deviceId)) =
      some (Bytes.fill 32 9, (plainClient 3).deviceId, (plainClient 2).deviceId) := by
  have hthread : (replacedPool.threads[4]?.bind Thread.authorization) =
      some replacedAuthorization := by decide +kernel
  obtain ⟨thread, hget, hauth⟩ := Option.bind_eq_some_iff.mp hthread
  refine ⟨?_, fun h => ?_, by decide +kernel, by decide +kernel⟩
  · obtain ⟨e, he, -, hpost⟩ := @exists_last_entry _ _ _ (poolStep (relayThreads .plain))
      ⟨RelayServer.withLimits rateLimitBytesPerSec sessionExpiryMs, []⟩ peekedThenReplaced
      acceptReplaced
    refine ⟨e, he, thread, ?_, hauth⟩
    rw [hpost]
    exact List.mem_of_getElem? hget
  · exact absurd h.initiator (by decide +kernel)

end Blackwing.Relay

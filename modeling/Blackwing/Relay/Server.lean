import Blackwing.Relay.Forwarding
import Blackwing.Relay.Rendezvous

/-!
# The relay server

`bw-relay/src/server.rs`: the registry of devices and the handlers of the control
messages. A handler reads the clock once for its timestamp window; the rendezvous
registry and the forwarding table read it again for their own timers.

* `signedBy`: a signature is valid under the key that is registered for a device.
* `RegisterAuth`, `ConnectAuth`, `AcceptAuth`, `EstablishAuth`: what the checks of
  the four handlers of signed messages amount to.
* `handleRegister_cases`, `handleConnectIntent_cases`, `handleAcceptConnect_cases`,
  `handleRelayEstablish_cases`: everything these handlers can do. Without the
  authentication they change nothing.
-/

namespace Blackwing.Relay

/-- `TIMESTAMP_WINDOW_MS`. -/
def timestampWindowMs : UInt64 := 300000

/-- `MAX_REGISTRATIONS`. -/
def maxRegistrations : Nat := 1024

/-- `STALE_REGISTRATION_MS`. -/
def staleRegistrationMs : UInt64 := 300000

/-- `ClientContext`. -/
structure ClientContext where
  sessionId : UInt64
  lastSeen : UInt64
  verifyKeyBytes : Bytes 32
  serverReflexiveAddr : Option SocketAddr
deriving DecidableEq

/-- What the eviction step of `handle_register` keeps: an entry that is not stale. -/
def ClientContext.retained (now : UInt64) (ctx : ClientContext) : Bool :=
  ctx.lastSeen > saturatingSub now staleRegistrationMs

/-- `RelayServer`. -/
structure RelayServer where
  registry : HashMap DeviceId ClientContext
  rendezvous : RendezvousRegistry
  forwarding : ForwardingTable
  nextSessionId : UInt64

namespace RelayServer

/-- `RelayServer::with_clock_and_limits`. -/
def withLimits (rateLimitBytesPerSec sessionExpiryMs : UInt64) : RelayServer :=
  ⟨∅, ∅, ForwardingTable.withLimits rateLimitBytesPerSec sessionExpiryMs, 1⟩

/-- `RelayServer::new`. -/
def new : RelayServer := withLimits rateLimitBytesPerSec sessionExpiryMs

/-- `RelayServer::is_registered`. -/
def isRegistered (s : RelayServer) (target : DeviceId) : Bool := (s.registry.lookup target).isSome

/-- A call on the rendezvous registry, with its errors as `RelayError::Internal`. -/
def onRendezvous {α : Type} (x : Call RendezvousRegistry String α) : Call RelayServer RelayError α :=
  Call.onPart rendezvous (fun s r => { s with rendezvous := r }) .internal x

/-- A call on the forwarding table, with its errors as `RelayError::Internal`. -/
def onForwarding {α : Type} (x : Call ForwardingTable String α) : Call RelayServer RelayError α :=
  Call.onPart forwarding (fun s f => { s with forwarding := f }) .internal x

/-- The eviction step of `handle_register`. -/
def evicted (now : UInt64) (registry : HashMap DeviceId ClientContext) :
    HashMap DeviceId ClientContext :=
  if HashMap.size registry ≥ maxRegistrations then
    HashMap.retain (fun _ ctx => ctx.retained now) registry
  else registry

variable (C : RelayCrypto)

/-! ## Checks that the handlers share -/

/-- The timestamp window. -/
def checkWindow (now timestamp : UInt64) (reason : String) : Call RelayServer RelayError Unit :=
  Call.rejectIf (absDiff now timestamp > timestampWindowMs) (.authFailed reason)

/-- The length check of an intent id and its conversion. -/
def intentIdFrom (intentId : List UInt8) : Outcome RelayError IntentId :=
  .okOr (.authFailed "intent_id must be exactly 16 bytes") (Bytes.ofList? 16 intentId)

/-- The length check of a signature and its conversion, which the check makes succeed. -/
def signatureFrom (signatureBytes : List UInt8) : Outcome RelayError (Bytes 64) :=
  .okOr (.authFailed "Signature must be exactly 64 bytes") (Bytes.ofList? 64 signatureBytes)

/-- `VerifyKey::verify` of the SHA-256 of a payload. -/
def checkSignature (verifyKey : VerifyKey C) (payload : List UInt8) (signature : Bytes 64)
    (reason : String) : Call RelayServer RelayError Unit :=
  Call.rejectIf (verifyKey.verify (C.sha256 payload) signature = false) (.authFailed reason)

/-- `RelayServer::verify_key_for`. -/
def verifyKeyFor (s : RelayServer) (deviceId : DeviceId) : Outcome RelayError (VerifyKey C) := do
  let ctx ← .okOr .notFound (s.registry.lookup deviceId)
  .okOr (.internal "Stored public key is invalid") (VerifyKey.fromBytes C ctx.verifyKeyBytes)

/-! ## The handlers -/

/-- `RelayServer::handle_register`. -/
def handleRegister (env : Env) (deviceId : DeviceId) (verifyKeyBytes : Bytes 32)
    (timestamp : UInt64) (signatureBytes : List UInt8) (peerAddr : Option SocketAddr) :
    Call RelayServer RelayError RelayMessage := do
  let now := env.clock 0
  checkWindow now timestamp "Timestamp out of acceptable bounds"
  let verifyKey ← Call.ofOutcome
    (.okOr (.authFailed "Invalid Ed25519 public key") (VerifyKey.fromBytes C verifyKeyBytes))
  Call.rejectIf (verifyKey.deviceId ≠ deviceId)
    (.authFailed "Device ID does not match the provided public key")
  let signature ← Call.ofOutcome (signatureFrom signatureBytes)
  checkSignature C verifyKey (registerPayload deviceId verifyKeyBytes timestamp) signature
    "Signature verification failed"
  let s ← Call.getState
  let sessionId := s.nextSessionId
  -- `fetch_add` wraps
  Call.update fun s => { s with nextSessionId := s.nextSessionId + 1 }
  Call.update fun s => { s with registry := evicted now s.registry }
  Call.rejectIf (HashMap.size (evicted now s.registry) ≥ maxRegistrations)
    (.internal "Relay registry is at capacity")
  Call.update fun s => { s with
    registry := s.registry.insert deviceId ⟨sessionId, now, verifyKeyBytes, peerAddr⟩ }
  pure (.registerAck sessionId peerAddr)

/-- `RelayServer::handle_connect_intent`. -/
def handleConnectIntent (env : Env) (initiatorDeviceId target : DeviceId) (intentId : List UInt8)
    (candidates : List Candidate) (timestamp : UInt64) (signatureBytes : List UInt8) :
    Call RelayServer RelayError RelayMessage := do
  checkWindow (env.clock 0) timestamp "ConnectIntent timestamp out of bounds"
  let s ← Call.getState
  let verifyKey ← Call.ofOutcome (verifyKeyFor C s initiatorDeviceId)
  if s.isRegistered target = false then
    pure (.connectRejected target "Target device is not registered")
  else do
    let idArr ← Call.ofOutcome (intentIdFrom intentId)
    let signature ← Call.ofOutcome (signatureFrom signatureBytes)
    checkSignature C verifyKey (pairPayload intentId initiatorDeviceId target timestamp) signature
      "ConnectIntent signature verification failed"
    onRendezvous (RendezvousRegistry.registerIntent (env.clock 1) idArr initiatorDeviceId target
      candidates)
    pure (.connectInvite initiatorDeviceId intentId)

/-- `RelayServer::handle_accept_connect`. -/
def handleAcceptConnect (env : Env) (acceptorDeviceId : DeviceId) (intentId : List UInt8)
    (candidates : List Candidate) (timestamp : UInt64) (signatureBytes : List UInt8) :
    Call RelayServer RelayError RelayMessage := do
  checkWindow (env.clock 0) timestamp "AcceptConnect timestamp out of bounds"
  let s ← Call.getState
  let verifyKey ← Call.ofOutcome (verifyKeyFor C s acceptorDeviceId)
  let idArr ← Call.ofOutcome (intentIdFrom intentId)
  let initiatorDeviceId ← Call.ofOutcome ((s.rendezvous.peekInitiator idArr).mapErr .internal)
  let signature ← Call.ofOutcome (signatureFrom signatureBytes)
  checkSignature C verifyKey (pairPayload intentId acceptorDeviceId initiatorDeviceId timestamp)
    signature "AcceptConnect signature verification failed"
  let (initiator, initiatorCandidates, relayToken) ← onRendezvous
    (RendezvousRegistry.acceptIntent (env.clock 1) env.random idArr acceptorDeviceId candidates)
  onForwarding
    (ForwardingTable.authorizePair (env.clock 2) idArr relayToken initiator acceptorDeviceId)
  pure (.candidateExchange intentId initiatorCandidates relayToken)

/-- `RelayServer::handle_get_candidates`. -/
def handleGetCandidates (requesterDeviceId : DeviceId) (intentId : List UInt8) :
    Call RelayServer RelayError RelayMessage := do
  let idArr ← Call.ofOutcome (intentIdFrom intentId)
  let s ← Call.getState
  Call.rejectIf (s.isRegistered requesterDeviceId = false) (.authFailed "Requester is not registered")
  let (candidates, relayToken) ← Call.ofOutcome
    ((s.rendezvous.getTargetCandidates idArr requesterDeviceId).mapErr .internal)
  pure (.candidateExchange intentId candidates relayToken)

/-- `RelayServer::handle_poll_pending_intents`. -/
def handlePollPendingIntents (env : Env) (deviceId : DeviceId) :
    Call RelayServer RelayError RelayMessage := do
  let s ← Call.getState
  Call.rejectIf (s.isRegistered deviceId = false) (.authFailed "Device not registered")
  pure (.pendingIntents ((s.rendezvous.pendingFor (env.clock 0) deviceId).map fun p =>
    ⟨p.2, p.1.toList⟩))

/-- `RelayServer::handle_relay_establish`. -/
def handleRelayEstablish (env : Env) (intentId : List UInt8) (deviceId : DeviceId)
    (timestamp : UInt64) (signatureBytes : List UInt8) (peerAddr : Option SocketAddr) :
    Call RelayServer RelayError RelayMessage := do
  checkWindow (env.clock 0) timestamp "RelayEstablishRequest timestamp out of bounds"
  let idArr ← Call.ofOutcome (intentIdFrom intentId)
  let signature ← Call.ofOutcome (signatureFrom signatureBytes)
  let s ← Call.getState
  let verifyKey ← Call.ofOutcome (verifyKeyFor C s deviceId)
  checkSignature C verifyKey (establishPayload intentId deviceId timestamp) signature
    "RelayEstablishRequest signature verification failed"
  let addr ← Call.ofOutcome
    (.okOr (.authFailed "RelayEstablishRequest requires a known peer address") peerAddr)
  onForwarding (ForwardingTable.updateBinding (env.clock 1) idArr deviceId addr)
  pure (.relayEstablishAck intentId)

/-- `RelayServer::handle_message_from`. -/
def handleMessageFrom (env : Env) (message : RelayMessage) (peerAddr : Option SocketAddr) :
    Call RelayServer RelayError RelayMessage :=
  match message with
  | .registerRequest deviceId verifyKeyBytes timestamp signatureBytes =>
    handleRegister C env deviceId verifyKeyBytes timestamp signatureBytes peerAddr
  | .discoverRequest target => do
    let s ← Call.getState
    pure (.discoverResponse target (s.isRegistered target))
  | .connectIntent initiatorDeviceId target intentId candidates timestamp signatureBytes =>
    handleConnectIntent C env initiatorDeviceId target intentId candidates timestamp signatureBytes
  | .acceptConnect acceptorDeviceId intentId candidates timestamp signatureBytes =>
    handleAcceptConnect C env acceptorDeviceId intentId candidates timestamp signatureBytes
  | .getCandidates requesterDeviceId intentId => handleGetCandidates requesterDeviceId intentId
  | .relayEstablishRequest intentId deviceId timestamp signatureBytes =>
    handleRelayEstablish C env intentId deviceId timestamp signatureBytes peerAddr
  | .pollPendingIntents deviceId => handlePollPendingIntents env deviceId
  | _ => Call.fail (.internal "Message type not valid for server-side processing")

end RelayServer

/-! ## Authentication -/

open RelayServer

/-- The signature bytes are a signature of the payload under the key bytes. -/
def signed (C : RelayCrypto) (verifyKeyBytes : Bytes 32) (payload signatureBytes : List UInt8) : Bool :=
  match Bytes.ofList? 64 signatureBytes with
  | some signature => C.verify verifyKeyBytes (C.sha256 payload) signature
  | none => false

/-- The signature bytes are a signature of the payload under the key registered for the device. -/
def signedBy (C : RelayCrypto) (s : RelayServer) (deviceId : DeviceId)
    (payload signatureBytes : List UInt8) : Bool :=
  (s.registry.lookup deviceId).any fun ctx =>
    C.validKey ctx.verifyKeyBytes && signed C ctx.verifyKeyBytes payload signatureBytes

/-- The payload and the signature that the handler of a signed message checks. -/
def checkedSignature (s : RelayServer) : RelayMessage → Option (List UInt8 × List UInt8)
  | .registerRequest deviceId verifyKeyBytes timestamp signatureBytes =>
    some (registerPayload deviceId verifyKeyBytes timestamp, signatureBytes)
  | .connectIntent initiatorDeviceId target intentId _ timestamp signatureBytes =>
    some (pairPayload intentId initiatorDeviceId target timestamp, signatureBytes)
  | .acceptConnect acceptorDeviceId intentId _ timestamp signatureBytes => do
    let id ← Bytes.ofList? 16 intentId
    let intent ← s.rendezvous.lookup id
    some (pairPayload intentId acceptorDeviceId intent.initiator timestamp, signatureBytes)
  | .relayEstablishRequest intentId deviceId timestamp signatureBytes =>
    some (establishPayload intentId deviceId timestamp, signatureBytes)
  | _ => none

/-- The checks of `handle_register`. -/
structure RegisterAuth (C : RelayCrypto) (now : UInt64) (deviceId : DeviceId)
    (verifyKeyBytes : Bytes 32) (timestamp : UInt64) (signatureBytes : List UInt8) : Prop where
  window : absDiff now timestamp ≤ timestampWindowMs
  validKey : C.validKey verifyKeyBytes = true
  identity : C.sha256 verifyKeyBytes.toList = deviceId
  signature :
    signed C verifyKeyBytes (registerPayload deviceId verifyKeyBytes timestamp) signatureBytes = true

/-- The checks of `handle_connect_intent`. -/
structure ConnectAuth (C : RelayCrypto) (s : RelayServer) (now : UInt64)
    (initiator target : DeviceId) (intentId : IntentId) (timestamp : UInt64)
    (signatureBytes : List UInt8) : Prop where
  window : absDiff now timestamp ≤ timestampWindowMs
  online : s.isRegistered target = true
  signature :
    signedBy C s initiator (pairPayload intentId.toList initiator target timestamp)
      signatureBytes = true

/-- The checks of `handle_accept_connect`, for the intent it finds. -/
structure AcceptAuth (C : RelayCrypto) (s : RelayServer) (now : UInt64) (acceptor : DeviceId)
    (intentId : IntentId) (timestamp : UInt64) (signatureBytes : List UInt8)
    (intent : PendingIntent) : Prop where
  window : absDiff now timestamp ≤ timestampWindowMs
  found : s.rendezvous.lookup intentId = some intent
  signature :
    signedBy C s acceptor (pairPayload intentId.toList acceptor intent.initiator timestamp)
      signatureBytes = true

/-- The checks of `handle_relay_establish` before it needs an address. -/
structure EstablishAuth (C : RelayCrypto) (s : RelayServer) (now : UInt64) (intentId : IntentId)
    (deviceId : DeviceId) (timestamp : UInt64) (signatureBytes : List UInt8) : Prop where
  window : absDiff now timestamp ≤ timestampWindowMs
  signature :
    signedBy C s deviceId (establishPayload intentId.toList deviceId timestamp) signatureBytes = true

/-- The checks of `handle_get_candidates`, for the intent it finds. -/
structure CandidatesAuth (s : RelayServer) (requester : DeviceId) (intentId : IntentId)
    (intent : PendingIntent) (relayToken : RelayToken) : Prop where
  online : s.isRegistered requester = true
  found : s.rendezvous.lookup intentId = some intent
  initiator : intent.initiator = requester
  accepted : intent.state = .accepted relayToken

/-! ## What each handler can do -/

namespace ServerLemmas

variable {C : RelayCrypto} {s : RelayServer}

theorem lookup_evicted (now : UInt64) (registry : HashMap DeviceId ClientContext) (d : DeviceId) :
    (evicted now registry).lookup d =
      if maxRegistrations ≤ HashMap.size registry then
        (registry.lookup d).filter fun ctx => ctx.retained now
      else registry.lookup d := by
  unfold evicted
  split
  · exact HashMap.lookup_retain _ _ _
  · rfl

theorem lookup_of_evicted {now : UInt64} {registry : HashMap DeviceId ClientContext}
    {deviceId : DeviceId} {ctx : ClientContext}
    (hl : (evicted now registry).lookup deviceId = some ctx) :
    registry.lookup deviceId = some ctx := by
  rw [lookup_evicted] at hl
  split at hl
  · exact (Option.filter_eq_some_iff.mp hl).1
  · exact hl

theorem signed_eq_true {verifyKeyBytes : Bytes 32} {payload signatureBytes : List UInt8} :
    signed C verifyKeyBytes payload signatureBytes = true ↔
      ∃ signature, Bytes.ofList? 64 signatureBytes = some signature ∧
        C.verify verifyKeyBytes (C.sha256 payload) signature = true := by
  unfold signed
  cases Bytes.ofList? 64 signatureBytes with
  | none => simp
  | some signature => simp

theorem signedBy_eq_true {deviceId : DeviceId} {payload signatureBytes : List UInt8} :
    signedBy C s deviceId payload signatureBytes = true ↔
      ∃ ctx, s.registry.lookup deviceId = some ctx ∧ C.validKey ctx.verifyKeyBytes = true ∧
        signed C ctx.verifyKeyBytes payload signatureBytes = true := by
  unfold signedBy
  rw [Option.any_eq_true]
  simp only [Bool.and_eq_true]

theorem signedBy_of_lookup {deviceId : DeviceId} {ctx : ClientContext}
    {payload signatureBytes : List UInt8} (hl : s.registry.lookup deviceId = some ctx)
    (hv : C.validKey ctx.verifyKeyBytes = true) :
    signedBy C s deviceId payload signatureBytes =
      signed C ctx.verifyKeyBytes payload signatureBytes := by
  rw [signedBy, hl, Option.any_some, hv, Bool.true_and]

theorem checkedSignature_accept {intentId : IntentId} {intent : PendingIntent} (acceptor : DeviceId)
    (candidates : List Candidate) (timestamp : UInt64) (signatureBytes : List UInt8)
    (hfound : s.rendezvous.lookup intentId = some intent) :
    checkedSignature s
        (.acceptConnect acceptor intentId.toList candidates timestamp signatureBytes) =
      some (pairPayload intentId.toList acceptor intent.initiator timestamp, signatureBytes) := by
  unfold checkedSignature
  dsimp only
  rw [Bytes.ofList?_toList, Option.bind_eq_bind, Option.bind_some, hfound]
  rfl

/-- The key for a device, when it is registered under a valid one. -/
theorem verifyKeyFor_cases (C : RelayCrypto) (s : RelayServer) (deviceId : DeviceId) :
    (∃ ctx, ∃ h : C.validKey ctx.verifyKeyBytes = true, s.registry.lookup deviceId = some ctx ∧
      verifyKeyFor C s deviceId = .ok ⟨ctx.verifyKeyBytes, h⟩) ∨
    ((∀ payload signatureBytes, signedBy C s deviceId payload signatureBytes ≠ true) ∧
      ∃ e, verifyKeyFor C s deviceId = .err e) := by
  unfold verifyKeyFor
  cases hl : s.registry.lookup deviceId with
  | none =>
    refine Or.inr ⟨fun p g h => ?_, _, rfl⟩
    rw [signedBy, hl] at h
    cases h
  | some ctx =>
    rw [Outcome.okOr, Outcome.ok_bind, VerifyKey.fromBytes]
    by_cases hv : C.validKey ctx.verifyKeyBytes = true
    · rw [dif_pos hv]
      exact Or.inl ⟨ctx, hv, rfl, rfl⟩
    · rw [dif_neg hv]
      refine Or.inr ⟨fun p g h => ?_, _, rfl⟩
      rw [signedBy, hl, Option.any_some, Bool.and_eq_true] at h
      exact hv h.1

/-- A byte string is read as the intent id it is, or refused when it is none. -/
theorem intentIdFrom_cases (intentId : List UInt8) :
    (∃ id : IntentId, intentId = id.toList ∧ intentIdFrom intentId = .ok id) ∨
    ((∀ id : IntentId, intentId ≠ id.toList) ∧ ∃ e, intentIdFrom intentId = .err e) := by
  unfold intentIdFrom
  cases hid : Bytes.ofList? 16 intentId with
  | none =>
    refine Or.inr ⟨fun id heq => ?_, _, rfl⟩
    cases hid.symm.trans (Bytes.ofList?_eq_some.mpr heq)
  | some id => exact Or.inl ⟨id, Bytes.ofList?_eq_some.mp hid, rfl⟩

/-- A signature is parsed and checked, or the call ends without a write. -/
theorem checkSignature_cases (k : VerifyKey C) (payload signatureBytes : List UInt8) (reason : String)
    (f : Unit → Call RelayServer RelayError RelayMessage) (s : RelayServer) :
    (signed C k.bytes payload signatureBytes = true ∧
      (Call.ofOutcome (signatureFrom signatureBytes) >>= fun signature =>
        checkSignature C k payload signature reason >>= f) s = f () s) ∨
    (signed C k.bytes payload signatureBytes ≠ true ∧
      ∃ e, (Call.ofOutcome (signatureFrom signatureBytes) >>= fun signature =>
        checkSignature C k payload signature reason >>= f) s = (.err e, s)) := by
  unfold signed signatureFrom
  cases hsig : Bytes.ofList? 64 signatureBytes with
  | none => exact Or.inr ⟨(fun h => by cases h), _, rfl⟩
  | some signature =>
    rw [Outcome.okOr, Call.ofOutcome_ok_bind, checkSignature, Call.rejectIf_bind]
    cases hv : k.verify (C.sha256 payload) signature with
    | true => exact Or.inl ⟨hv, if_neg fun h => by cases h⟩
    | false => exact Or.inr ⟨(fun h => by cases hv.symm.trans h), _, if_pos rfl⟩

variable (env : Env) (initiator target acceptor requester : DeviceId) (intentId : List UInt8)
  (candidates : List Candidate) (deviceId : DeviceId) (verifyKeyBytes : Bytes 32)
  (timestamp : UInt64) (signatureBytes : List UInt8) (peerAddr : Option SocketAddr)

/-- Registration refuses without a write, finds the registry full, or stores the entry. -/
theorem handleRegister_cases :
    (¬ RegisterAuth C (env.clock 0) deviceId verifyKeyBytes timestamp signatureBytes ∧
      ∃ e, handleRegister C env deviceId verifyKeyBytes timestamp signatureBytes peerAddr s =
        (.err e, s)) ∨
    RegisterAuth C (env.clock 0) deviceId verifyKeyBytes timestamp signatureBytes ∧
      (maxRegistrations ≤ HashMap.size (evicted (env.clock 0) s.registry) ∧
        handleRegister C env deviceId verifyKeyBytes timestamp signatureBytes peerAddr s =
          (.err (.internal "Relay registry is at capacity"),
            { s with
              registry := evicted (env.clock 0) s.registry
              nextSessionId := s.nextSessionId + 1 }) ∨
      HashMap.size (evicted (env.clock 0) s.registry) < maxRegistrations ∧
        handleRegister C env deviceId verifyKeyBytes timestamp signatureBytes peerAddr s =
          (.ok (.registerAck s.nextSessionId peerAddr),
            { s with
              registry := (evicted (env.clock 0) s.registry).insert deviceId
                ⟨s.nextSessionId, env.clock 0, verifyKeyBytes, peerAddr⟩
              nextSessionId := s.nextSessionId + 1 })) := by
  rw [handleRegister]
  dsimp only
  rw [checkWindow, Call.rejectIf_bind]
  by_cases hw : absDiff (env.clock 0) timestamp > timestampWindowMs
  · rw [if_pos hw]
    exact Or.inl ⟨fun h => UInt64.not_lt.mpr h.window hw, _, rfl⟩
  rw [if_neg hw, VerifyKey.fromBytes]
  by_cases hv : C.validKey verifyKeyBytes = true
  case neg =>
    rw [dif_neg hv]
    exact Or.inl ⟨fun h => hv h.validKey, _, rfl⟩
  rw [dif_pos hv, Outcome.okOr, Call.ofOutcome_ok_bind, Call.rejectIf_bind]
  by_cases hd : VerifyKey.deviceId (C := C) ⟨verifyKeyBytes, hv⟩ = deviceId
  case neg =>
    rw [if_pos hd]
    exact Or.inl ⟨fun h => hd h.identity, _, rfl⟩
  rw [if_neg (not_not_intro hd)]
  rcases checkSignature_cases ⟨verifyKeyBytes, hv⟩ (registerPayload deviceId verifyKeyBytes timestamp)
    signatureBytes "Signature verification failed" _ s with ⟨hs, he⟩ | ⟨hs, e, he⟩
  case inr => exact Or.inl ⟨fun h => hs h.signature, e, he⟩
  refine Or.inr ⟨⟨UInt64.not_lt.mp hw, hv, hd, hs⟩, ?_⟩
  rw [he, Call.getState_bind, Call.update_bind, Call.update_bind, Call.rejectIf_bind]
  rcases Nat.lt_or_ge (HashMap.size (evicted (env.clock 0) s.registry)) maxRegistrations with
    hlt | hge
  · rw [if_neg (Nat.not_le.mpr hlt)]
    exact Or.inr ⟨hlt, rfl⟩
  · rw [if_pos hge]
    exact Or.inl ⟨hge, rfl⟩

theorem onPart_bind_pure {σ τ ε ε' α β : Type} (get : σ → τ) (set : σ → τ → σ) (h : ε' → ε)
    (x : Call τ ε' α) (b : β) (s : σ) :
    (Call.onPart get set h x >>= fun _ => pure b) s =
      ((x (get s)).1.mapErr h >>= fun _ => .ok b, set s (x (get s)).2) :=
  Call.bind_pure_apply _ _ _

/-- A connect intent is refused without a write, or reaches the rendezvous registry. -/
theorem handleConnectIntent_cases :
    ((∀ id : IntentId, intentId = id.toList →
        ¬ ConnectAuth C s (env.clock 0) initiator target id timestamp signatureBytes) ∧
      ∃ r, handleConnectIntent C env initiator target intentId candidates timestamp signatureBytes s =
        (r, s) ∧ ∀ a, r = .ok a → a = .connectRejected target "Target device is not registered") ∨
    ∃ id : IntentId, intentId = id.toList ∧
      ConnectAuth C s (env.clock 0) initiator target id timestamp signatureBytes ∧
      handleConnectIntent C env initiator target intentId candidates timestamp signatureBytes s =
        ((RendezvousRegistry.registerIntent (env.clock 1) id initiator target candidates
            s.rendezvous).1.mapErr RelayError.internal >>=
            fun _ => .ok (.connectInvite initiator intentId),
          { s with rendezvous := (RendezvousRegistry.registerIntent (env.clock 1) id initiator target
            candidates s.rendezvous).2 }) := by
  rw [handleConnectIntent, checkWindow, Call.rejectIf_bind]
  by_cases hw : absDiff (env.clock 0) timestamp > timestampWindowMs
  · rw [if_pos hw]
    exact Or.inl ⟨fun _ _ h => UInt64.not_lt.mpr h.window hw, _, rfl, fun _ h => nomatch h⟩
  rw [if_neg hw, Call.getState_bind]
  rcases verifyKeyFor_cases C s initiator with ⟨ctx, hv, hl, hk⟩ | ⟨hno, e, hk⟩
  case inr =>
    rw [hk, Call.ofOutcome_err_bind]
    exact Or.inl ⟨fun _ _ h => hno _ _ h.signature, _, rfl, fun _ h => nomatch h⟩
  rw [hk, Call.ofOutcome_ok_bind]
  cases ht : s.isRegistered target with
  | false =>
    rw [if_pos rfl]
    refine Or.inl ⟨fun _ _ h => absurd h.online (ht ▸ Bool.false_ne_true), _, rfl, ?_⟩
    exact fun _ h => (Outcome.ok.inj h).symm
  | true =>
    rw [if_neg fun h => nomatch h]
    rcases intentIdFrom_cases intentId with ⟨id, rfl, hid⟩ | ⟨hne, e, hid⟩
    case inr =>
      rw [hid, Call.ofOutcome_err_bind]
      exact Or.inl ⟨fun id he _ => hne id he, _, rfl, fun _ h => nomatch h⟩
    rw [hid, Call.ofOutcome_ok_bind]
    rcases checkSignature_cases ⟨ctx.verifyKeyBytes, hv⟩
      (pairPayload id.toList initiator target timestamp) signatureBytes
      "ConnectIntent signature verification failed" _ s with ⟨hs, he⟩ | ⟨hs, e, he⟩
    · refine Or.inr ⟨id, rfl, ⟨UInt64.not_lt.mp hw, ht, (signedBy_of_lookup hl hv).trans hs⟩, ?_⟩
      rw [he]
      exact onPart_bind_pure _ _ _ _ _ _
    · refine Or.inl ⟨fun id' hid' h => ?_, _, he, fun _ h => nomatch h⟩
      cases Bytes.toList_injective hid'
      exact hs ((signedBy_of_lookup hl hv).symm.trans h.signature)

/-- An acceptance is refused without a write, or reaches the rendezvous registry and then the
forwarding table. -/
theorem handleAcceptConnect_reaches :
    ((∀ (id : IntentId) (intent : PendingIntent), intentId = id.toList →
        ¬ AcceptAuth C s (env.clock 0) acceptor id timestamp signatureBytes intent) ∧
      ∃ e, handleAcceptConnect C env acceptor intentId candidates timestamp signatureBytes s =
        (.err e, s)) ∨
    ∃ (id : IntentId) (intent : PendingIntent), intentId = id.toList ∧
      AcceptAuth C s (env.clock 0) acceptor id timestamp signatureBytes intent ∧
      handleAcceptConnect C env acceptor intentId candidates timestamp signatureBytes s =
        (onRendezvous (RendezvousRegistry.acceptIntent (env.clock 1) env.random id acceptor
            candidates) >>= fun r =>
          onForwarding (ForwardingTable.authorizePair (env.clock 2) id r.2.2 r.1 acceptor) >>=
            fun _ => pure (.candidateExchange intentId r.2.1 r.2.2)) s := by
  rw [handleAcceptConnect, checkWindow, Call.rejectIf_bind]
  by_cases hw : absDiff (env.clock 0) timestamp > timestampWindowMs
  · rw [if_pos hw]
    exact Or.inl ⟨fun _ _ _ h => UInt64.not_lt.mpr h.window hw, _, rfl⟩
  rw [if_neg hw, Call.getState_bind]
  rcases verifyKeyFor_cases C s acceptor with ⟨ctx, hv, hl, hk⟩ | ⟨hno, e, hk⟩
  case inr =>
    rw [hk, Call.ofOutcome_err_bind]
    exact Or.inl ⟨fun _ _ _ h => hno _ _ h.signature, _, rfl⟩
  rw [hk, Call.ofOutcome_ok_bind]
  rcases intentIdFrom_cases intentId with ⟨id, rfl, hid⟩ | ⟨hne, e, hid⟩
  case inr =>
    rw [hid, Call.ofOutcome_err_bind]
    exact Or.inl ⟨fun id _ he _ => hne id he, _, rfl⟩
  rw [hid, Call.ofOutcome_ok_bind, RendezvousRegistry.peekInitiator]
  cases hi : s.rendezvous.lookup id with
  | none =>
    refine Or.inl ⟨fun id' intent he h => ?_, _, rfl⟩
    cases Bytes.toList_injective he
    cases hi.symm.trans h.found
  | some intent =>
    dsimp only
    rw [Outcome.mapErr, Call.ofOutcome_ok_bind]
    rcases checkSignature_cases ⟨ctx.verifyKeyBytes, hv⟩
      (pairPayload id.toList acceptor intent.initiator timestamp) signatureBytes
      "AcceptConnect signature verification failed" _ s with ⟨hs, he⟩ | ⟨hs, e, he⟩
    · refine Or.inr ⟨id, intent, rfl,
        ⟨UInt64.not_lt.mp hw, hi, (signedBy_of_lookup hl hv).trans hs⟩, ?_⟩
      rw [he]
    · refine Or.inl ⟨fun id' intent' hid' h => ?_, _, he⟩
      cases Bytes.toList_injective hid'
      cases hi.symm.trans h.found
      exact hs ((signedBy_of_lookup hl hv).symm.trans h.signature)

/-- An acceptance that passes the checks finds no live intent of this acceptor, expires the intent,
stores only the candidates because the random source failed, or accepts. -/
theorem handleAcceptConnect_cases :
    ((∀ (id : IntentId) (intent : PendingIntent), intentId = id.toList →
        ¬ AcceptAuth C s (env.clock 0) acceptor id timestamp signatureBytes intent) ∧
      ∃ e, handleAcceptConnect C env acceptor intentId candidates timestamp signatureBytes s =
        (.err e, s)) ∨
    ∃ (id : IntentId) (intent : PendingIntent), intentId = id.toList ∧
      AcceptAuth C s (env.clock 0) acceptor id timestamp signatureBytes intent ∧
      ((∀ createdAt, intent.state = .pending createdAt →
          saturatingSub (env.clock 1) createdAt ≤ intentTimeoutMs ∧ intent.target ≠ acceptor) ∧
        (∃ e, handleAcceptConnect C env acceptor intentId candidates timestamp signatureBytes s =
          (.err e, s)) ∨
      ∃ createdAt, intent.state = .pending createdAt ∧
        (intentTimeoutMs < saturatingSub (env.clock 1) createdAt ∧
          (∃ e, handleAcceptConnect C env acceptor intentId candidates timestamp signatureBytes s =
            (.err e, { s with
              rendezvous := s.rendezvous.insert id { intent with state := .expired } })) ∨
        saturatingSub (env.clock 1) createdAt ≤ intentTimeoutMs ∧ intent.target = acceptor ∧
          (env.random = none ∧
            (∃ e, handleAcceptConnect C env acceptor intentId candidates timestamp signatureBytes s =
              (.err e, { s with
                rendezvous :=
                  s.rendezvous.insert id { intent with targetCandidates := candidates } })) ∨
          ∃ relayToken, env.random = some relayToken ∧ ∃ r forwarding,
            handleAcceptConnect C env acceptor intentId candidates timestamp signatureBytes s =
              (r, { s with
                rendezvous := s.rendezvous.insert id
                  { intent with targetCandidates := candidates, state := .accepted relayToken }
                forwarding := forwarding }) ∧
            (2 ^ 64 ≤ (env.clock 2).toNat + s.forwarding.sessionExpiryMs.toNat ∧ r = .panicked ∧
                forwarding = s.forwarding ∨
              r = .ok (.candidateExchange intentId intent.initiatorCandidates relayToken) ∧
              ∃ expiresAtMs : UInt64,
                expiresAtMs.toNat = (env.clock 2).toNat + s.forwarding.sessionExpiryMs.toNat ∧
                forwarding = { s.forwarding with
                contexts := s.forwarding.contexts.insert id
                  (s.forwarding.freshContext (env.clock 2) id relayToken intent.initiator acceptor
                    expiresAtMs)
                tokenIndex := s.forwarding.tokenIndex.insert relayToken id })))) := by
  rcases handleAcceptConnect_reaches (C := C) (s := s) env acceptor intentId candidates timestamp
    signatureBytes with h | ⟨id, intent, rfl, hauth, h⟩
  · exact Or.inl h
  refine Or.inr ⟨id, intent, rfl, hauth, ?_⟩
  -- what the rendezvous registry answers decides the rest
  have hcall : ∀ r m, RendezvousRegistry.acceptIntent (env.clock 1) env.random id acceptor candidates
      s.rendezvous = (r, m) →
      onRendezvous (RendezvousRegistry.acceptIntent (env.clock 1) env.random id acceptor candidates) s =
        (r.mapErr .internal, { s with rendezvous := m }) := by
    intro r m hr
    rw [onRendezvous, Call.onPart, hr]
  rcases RendezvousLemmas.acceptIntent_cases (env.clock 1) env.random id acceptor candidates
    s.rendezvous with
    ⟨hno, e, hr⟩ | ⟨i, createdAt, hl, hst, hlate, hr⟩ | ⟨i, createdAt, hl, hst, htime, ht, hrand, hr⟩ |
    ⟨i, createdAt, relayToken, hl, hst, htime, ht, hrand, hr⟩
  · rw [Call.bind_of_err (hcall _ _ hr)] at h
    exact Or.inl ⟨fun createdAt => hno intent createdAt hauth.found, _, h⟩
  · cases hauth.found.symm.trans hl
    rw [Call.bind_of_err (hcall _ _ hr)] at h
    exact Or.inr ⟨createdAt, hst, Or.inl ⟨hlate, _, h⟩⟩
  · cases hauth.found.symm.trans hl
    rw [Call.bind_of_err (hcall _ _ hr)] at h
    exact Or.inr ⟨createdAt, hst, Or.inr ⟨htime, ht, Or.inl ⟨hrand, _, h⟩⟩⟩
  · cases hauth.found.symm.trans hl
    rw [Call.bind_of_ok (hcall _ _ hr), onForwarding, onPart_bind_pure] at h
    refine Or.inr ⟨createdAt, hst, Or.inr ⟨htime, ht, Or.inr ⟨relayToken, hrand, ?_⟩⟩⟩
    rcases ForwardingLemmas.authorizePair_cases (env.clock 2) id relayToken intent.initiator acceptor
      s.forwarding with ⟨hover, ha⟩ | ⟨expiresAtMs, hexp, ha⟩
    · rw [ha] at h
      exact ⟨_, _, h, Or.inl ⟨hover, rfl, rfl⟩⟩
    · rw [ha] at h
      exact ⟨_, _, h, Or.inr ⟨rfl, expiresAtMs, hexp, rfl⟩⟩

/-- An acceptance is answered with the token for a live intent of the acceptor, which is then stored
as accepted. -/
theorem handleAcceptConnect_ok {env : Env} {acceptor : DeviceId} {intentId : List UInt8}
    {candidates : List Candidate} {timestamp : UInt64} {signatureBytes : List UInt8}
    {response : RelayMessage}
    (hok : (handleAcceptConnect C env acceptor intentId candidates timestamp signatureBytes s).1 =
      .ok response) :
    ∃ (id : IntentId) (intent : PendingIntent) (createdAt : UInt64) (relayToken : RelayToken),
      intentId = id.toList ∧
      AcceptAuth C s (env.clock 0) acceptor id timestamp signatureBytes intent ∧
      intent.state = .pending createdAt ∧
      saturatingSub (env.clock 1) createdAt ≤ intentTimeoutMs ∧
      intent.target = acceptor ∧ env.random = some relayToken ∧
      (env.clock 2).toNat + s.forwarding.sessionExpiryMs.toNat < 2 ^ 64 ∧
      response = .candidateExchange intentId intent.initiatorCandidates relayToken ∧
      (handleAcceptConnect C env acceptor intentId candidates timestamp signatureBytes
        s).2.rendezvous.lookup id =
        some { intent with targetCandidates := candidates, state := .accepted relayToken } := by
  rcases handleAcceptConnect_cases env acceptor intentId candidates timestamp signatureBytes with
    ⟨-, e, h⟩ | ⟨id, intent, rfl, hauth, ⟨-, e, h⟩ | ⟨createdAt, hst, ⟨-, e, h⟩ |
      ⟨htime, ht, ⟨-, e, h⟩ | ⟨relayToken, hrand, r, forwarding, h, hf⟩⟩⟩⟩
  · rw [h] at hok
    cases hok
  · rw [h] at hok
    cases hok
  · rw [h] at hok
    cases hok
  · rw [h] at hok
    cases hok
  rw [h] at hok ⊢
  rcases hf with ⟨-, rfl, -⟩ | ⟨rfl, expiresAtMs, hexp, -⟩
  · cases hok
  · refine ⟨id, intent, createdAt, relayToken, rfl, hauth, hst, htime, ht, hrand, ?_,
      (Outcome.ok.inj hok).symm, AList.lookup_insert _⟩
    exact hexp ▸ expiresAtMs.toNat_lt

/-- A request to bind an address is refused without a write, or reaches the forwarding table. -/
theorem handleRelayEstablish_cases :
    ((∀ (id : IntentId) (addr : SocketAddr), intentId = id.toList → peerAddr = some addr →
        ¬ EstablishAuth C s (env.clock 0) id deviceId timestamp signatureBytes) ∧
      ∃ e, handleRelayEstablish C env intentId deviceId timestamp signatureBytes peerAddr s =
        (.err e, s)) ∨
    ∃ (id : IntentId) (addr : SocketAddr), intentId = id.toList ∧ peerAddr = some addr ∧
      EstablishAuth C s (env.clock 0) id deviceId timestamp signatureBytes ∧
      handleRelayEstablish C env intentId deviceId timestamp signatureBytes peerAddr s =
        ((ForwardingTable.updateBinding (env.clock 1) id deviceId addr s.forwarding).1.mapErr
            RelayError.internal >>= fun _ => .ok (.relayEstablishAck intentId),
          { s with forwarding :=
            (ForwardingTable.updateBinding (env.clock 1) id deviceId addr s.forwarding).2 }) := by
  rw [handleRelayEstablish, checkWindow, Call.rejectIf_bind]
  by_cases hw : absDiff (env.clock 0) timestamp > timestampWindowMs
  · rw [if_pos hw]
    exact Or.inl ⟨fun _ _ _ _ h => UInt64.not_lt.mpr h.window hw, _, rfl⟩
  rw [if_neg hw]
  rcases intentIdFrom_cases intentId with ⟨id, rfl, hid⟩ | ⟨hne, e, hid⟩
  case inr =>
    rw [hid, Call.ofOutcome_err_bind]
    exact Or.inl ⟨fun id _ he _ _ => hne id he, _, rfl⟩
  have hrefused : ∀ e,
      (∀ addr, peerAddr = some addr → signedBy C s deviceId
        (establishPayload id.toList deviceId timestamp) signatureBytes ≠ true) →
      (∀ (id' : IntentId) (addr : SocketAddr), id.toList = id'.toList → peerAddr = some addr →
        ¬ EstablishAuth C s (env.clock 0) id' deviceId timestamp signatureBytes) ∧
      ∃ e', ((.err e, s) : Outcome RelayError RelayMessage × RelayServer) = (.err e', s) := by
    intro e hno
    refine ⟨fun id' addr hid' ha h => hno addr ha ?_, e, rfl⟩
    cases Bytes.toList_injective hid'
    exact h.signature
  rw [hid, Call.ofOutcome_ok_bind]
  unfold signatureFrom
  cases hsig : Bytes.ofList? 64 signatureBytes with
  | none =>
    refine Or.inl (hrefused _ fun addr _ h => ?_)
    obtain ⟨ctx, -, -, hs⟩ := signedBy_eq_true.mp h
    rw [signed, hsig] at hs
    cases hs
  | some signature =>
    rw [Outcome.okOr, Call.ofOutcome_ok_bind, Call.getState_bind]
    rcases verifyKeyFor_cases C s deviceId with ⟨ctx, hv, hl, hk⟩ | ⟨hno, e, hk⟩
    case inr =>
      rw [hk, Call.ofOutcome_err_bind]
      exact Or.inl (hrefused _ fun _ _ => hno _ _)
    rw [hk, Call.ofOutcome_ok_bind, checkSignature, Call.rejectIf_bind]
    cases hver : VerifyKey.verify (C := C) ⟨ctx.verifyKeyBytes, hv⟩
      (C.sha256 (establishPayload id.toList deviceId timestamp)) signature with
    | false =>
      rw [if_pos rfl]
      refine Or.inl (hrefused _ fun addr _ h => ?_)
      rw [signedBy_of_lookup hl hv, signed, hsig] at h
      cases hver.symm.trans h
    | true =>
      rw [if_neg Bool.noConfusion]
      cases peerAddr with
      | none => exact Or.inl (hrefused _ fun _ h => by cases h)
      | some addr =>
        refine Or.inr ⟨id, addr, rfl, rfl, ⟨UInt64.not_lt.mp hw, ?_⟩, onPart_bind_pure _ _ _ _ _ _⟩
        rw [signedBy_of_lookup hl hv, signed, hsig]
        exact hver

/-- Candidates are served, without a write, to a registered initiator of an accepted intent. -/
theorem handleGetCandidates_cases :
    ((∀ (id : IntentId) (intent : PendingIntent) (relayToken : RelayToken), intentId = id.toList →
        ¬ CandidatesAuth s requester id intent relayToken) ∧
      ∃ e, handleGetCandidates requester intentId s = (.err e, s)) ∨
    ∃ (id : IntentId) (intent : PendingIntent) (relayToken : RelayToken), intentId = id.toList ∧
      CandidatesAuth s requester id intent relayToken ∧
      handleGetCandidates requester intentId s =
        (.ok (.candidateExchange intentId intent.targetCandidates relayToken), s) := by
  rw [handleGetCandidates]
  rcases intentIdFrom_cases intentId with ⟨id, rfl, hid⟩ | ⟨hne, e, hid⟩
  case inr =>
    rw [hid, Call.ofOutcome_err_bind]
    exact Or.inl ⟨fun id _ _ he _ => hne id he, _, rfl⟩
  rw [hid, Call.ofOutcome_ok_bind, Call.getState_bind, Call.rejectIf_bind]
  cases hr : s.isRegistered requester with
  | false => exact Or.inl ⟨fun _ _ _ _ h => absurd h.online (hr ▸ Bool.false_ne_true), _, if_pos rfl⟩
  | true =>
    rw [if_neg fun h => nomatch h]
    cases hg : s.rendezvous.getTargetCandidates id requester with
    | ok r =>
      obtain ⟨intent, hl, hi, hst, hc⟩ := RendezvousLemmas.getTargetCandidates_ok.mp hg
      refine Or.inr ⟨id, intent, r.2, rfl, ⟨hr, hl, hi, hst⟩, ?_⟩
      rw [← hc]
      rfl
    | err e =>
      refine Or.inl ⟨fun id' intent relayToken he h => ?_, _, rfl⟩
      cases Bytes.toList_injective he
      have hok := RendezvousLemmas.getTargetCandidates_ok.mpr
        ⟨intent, h.found, h.initiator, h.accepted, (rfl : (intent.targetCandidates, relayToken).1 = _)⟩
      cases hg.symm.trans hok
    | panicked => exact absurd hg RendezvousLemmas.getTargetCandidates_ne_panicked

theorem handleGetCandidates_state (requester : DeviceId) (intentId : List UInt8) (s : RelayServer) :
    (handleGetCandidates requester intentId s).2 = s := by
  rcases handleGetCandidates_cases requester intentId with ⟨-, e, h⟩ | ⟨_, _, _, -, -, h⟩
  · rw [h]
  · rw [h]

theorem handlePollPendingIntents_state (env : Env) (deviceId : DeviceId) (s : RelayServer) :
    (handlePollPendingIntents env deviceId s).2 = s := by
  rw [handlePollPendingIntents, Call.getState_bind, Call.rejectIf_bind]
  split <;> rfl

end ServerLemmas

end Blackwing.Relay

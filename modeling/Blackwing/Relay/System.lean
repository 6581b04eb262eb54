import Blackwing.Lib.Run
import Blackwing.Relay.Client
import Blackwing.Relay.Server

/-!
# Runs of the relay

The relay as a state machine: control messages, lookups on the data plane, and the
calls of `close` and `sweep`, each with its own clock readings. A run starts from an
empty server.

* `Op`, `Reply`, `step`: the machine.
* `Effect`: everything a step can do to the registry, the intents, the contexts and
  the token index, with the checks that passed before it.
* `step_effect`: every step is one of these. The invariants of the relay are case
  analyses over `Effect` and look at no handler.
-/

namespace Blackwing.Relay

open RelayServer

/-- What can happen at the relay. -/
inductive Op where
  | message (message : RelayMessage) (peerAddr : Option SocketAddr) (env : Env)
  | getDestination (token : RelayToken) (sourceAddr : SocketAddr) (packetLen : UInt64) (env : Env)
  | close (intentId : IntentId)
  | sweep (now : UInt64)

/-- What the relay answers. -/
inductive Reply where
  | response (r : Outcome RelayError RelayMessage)
  | destination (r : Outcome Unit SocketAddr)
  | closed
  | swept (count : Nat)
deriving DecidableEq

/-- One step of the relay. -/
def step (C : RelayCrypto) (s : RelayServer) : Op → Reply × RelayServer
  | .message message peerAddr env =>
    (.response (handleMessageFrom C env message peerAddr s).1,
      (handleMessageFrom C env message peerAddr s).2)
  | .getDestination token sourceAddr packetLen env =>
    (.destination (ForwardingTable.getDestination env token sourceAddr packetLen s.forwarding).1,
      { s with forwarding :=
        (ForwardingTable.getDestination env token sourceAddr packetLen s.forwarding).2 })
  | .close intentId =>
    (.closed, { s with forwarding := (ForwardingTable.close intentId s.forwarding).2 })
  | .sweep now =>
    (.swept (s.forwarding.sweep now).1, { s with forwarding := (s.forwarding.sweep now).2 })

/-- A step of a run of the relay. -/
abbrev RelayEntry : Type := Entry RelayServer Op Reply

section Runs

variable (C : RelayCrypto) (rateLimitBytesPerSec sessionExpiryMs : UInt64)

/-- The steps of the run of an empty relay on a list of operations. -/
def relayRun (ops : List Op) : List RelayEntry :=
  run (step C) (RelayServer.withLimits rateLimitBytesPerSec sessionExpiryMs) ops

/-- The state of an empty relay after a list of operations. -/
def relayAfter (ops : List Op) : RelayServer :=
  endState (step C) (RelayServer.withLimits rateLimitBytesPerSec sessionExpiryMs) ops

theorem relayRun_snoc (ops : List Op) (op : Op) :
    relayRun C rateLimitBytesPerSec sessionExpiryMs (ops ++ [op]) =
      relayRun C rateLimitBytesPerSec sessionExpiryMs ops ++
        [stepEntry (step C) (relayAfter C rateLimitBytesPerSec sessionExpiryMs ops) op] :=
  run_snoc _ _ _

theorem relayAfter_snoc (ops : List Op) (op : Op) :
    relayAfter C rateLimitBytesPerSec sessionExpiryMs (ops ++ [op]) =
      (step C (relayAfter C rateLimitBytesPerSec sessionExpiryMs ops) op).2 :=
  endState_snoc _ _ _

end Runs

/-- A rendezvous at time `now`: two devices register, the first one asks for the second under an
intent id, and the second one accepts. -/
def plainPairing (initiator target : UInt8) (intentId : IntentId) (relayToken : RelayToken)
    (now : UInt64) : List Op :=
  let a := plainClient initiator
  let b := plainClient target
  [a.request (.register now), b.request (.register now),
    a.request (.connectIntent b.deviceId intentId [] now),
    b.request (.acceptConnect intentId a.deviceId [] now)].map
      fun m => .message m none (.at now (some relayToken))

/-! ## What a step can do -/

/-- The relay answers an acceptance of the intent with the token. -/
def Issues (op : Op) (reply : Reply) (intentId : IntentId) (relayToken : RelayToken) : Prop :=
  ∃ acceptor targetCandidates timestamp signatureBytes peerAddr env initiatorCandidates,
    op = .message (.acceptConnect acceptor intentId.toList targetCandidates timestamp signatureBytes)
      peerAddr env ∧
    reply = .response (.ok (.candidateExchange intentId.toList initiatorCandidates relayToken))

/-- What a step does to the stores of the relay: the operation, the reply, and the state after. -/
inductive Effect (C : RelayCrypto) (s : RelayServer) : Op → Reply → RelayServer → Prop
  /-- Nothing but the count of failed lookups changes. -/
  | quiet {op : Op} {reply : Reply} (failedLookups : HashMap IpAddr (UInt64 × UInt64)) :
      (∀ intentId relayToken, ¬ Issues op reply intentId relayToken) →
      Effect C s op reply { s with forwarding := { s.forwarding with failedLookups := failedLookups } }
  /-- A registration evicts stale entries and still finds the registry full. -/
  | evicted {deviceId : DeviceId} {verifyKeyBytes : Bytes 32} {timestamp : UInt64}
      {signatureBytes : List UInt8} (peerAddr : Option SocketAddr) {env : Env} (e : RelayError) :
      RegisterAuth C (env.clock 0) deviceId verifyKeyBytes timestamp signatureBytes →
      Effect C s
        (.message (.registerRequest deviceId verifyKeyBytes timestamp signatureBytes) peerAddr env)
        (.response (.err e))
        { s with
          registry := RelayServer.evicted (env.clock 0) s.registry
          nextSessionId := s.nextSessionId + 1 }
  /-- A registration stores its entry. -/
  | registered {deviceId : DeviceId} {verifyKeyBytes : Bytes 32} {timestamp : UInt64}
      {signatureBytes : List UInt8} (peerAddr : Option SocketAddr) {env : Env} :
      RegisterAuth C (env.clock 0) deviceId verifyKeyBytes timestamp signatureBytes →
      HashMap.size (RelayServer.evicted (env.clock 0) s.registry) < maxRegistrations →
      Effect C s
        (.message (.registerRequest deviceId verifyKeyBytes timestamp signatureBytes) peerAddr env)
        (.response (.ok (.registerAck s.nextSessionId peerAddr)))
        { s with
          registry := (RelayServer.evicted (env.clock 0) s.registry).insert deviceId
            ⟨s.nextSessionId, env.clock 0, verifyKeyBytes, peerAddr⟩
          nextSessionId := s.nextSessionId + 1 }
  /-- A connect intent prunes the stale intents and is then refused. -/
  | pruned {initiator target : DeviceId} {intentId : List UInt8} {candidates : List Candidate}
      {timestamp : UInt64} {signatureBytes : List UInt8} (peerAddr : Option SocketAddr) (env : Env)
      (e : RelayError) :
      Effect C s
        (.message (.connectIntent initiator target intentId candidates timestamp signatureBytes)
          peerAddr env)
        (.response (.err e))
        { s with rendezvous := RendezvousRegistry.pruned (env.clock 1) s.rendezvous }
  /-- A connect intent is stored. -/
  | stored {initiator target : DeviceId} {intentId : IntentId} (candidates : List Candidate)
      {timestamp : UInt64} {signatureBytes : List UInt8} (peerAddr : Option SocketAddr) {env : Env} :
      ConnectAuth C s (env.clock 0) initiator target intentId timestamp signatureBytes →
      HashMap.size (RendezvousRegistry.pruned (env.clock 1) s.rendezvous) < maxIntents →
      Effect C s
        (.message (.connectIntent initiator target intentId.toList candidates timestamp
          signatureBytes) peerAddr env)
        (.response (.ok (.connectInvite initiator intentId.toList)))
        { s with
          rendezvous := (RendezvousRegistry.pruned (env.clock 1) s.rendezvous).insert intentId
            ⟨initiator, target, candidates, [], .pending (env.clock 1)⟩ }
  /-- A pending intent is found too old, or loses the race for randomness after its candidates
  were stored. -/
  | touched {acceptor : DeviceId} {intentId : IntentId} {intent intent' : PendingIntent}
      {candidates : List Candidate} {createdAt timestamp : UInt64} {signatureBytes : List UInt8}
      {peerAddr : Option SocketAddr} {env : Env} (e : RelayError) :
      s.rendezvous.lookup intentId = some intent → intent.state = .pending createdAt →
      intent'.initiator = intent.initiator → intent'.target = intent.target →
      intent'.initiatorCandidates = intent.initiatorCandidates →
      (intent'.state = .expired ∨ intent'.state = .pending createdAt) →
      Effect C s
        (.message (.acceptConnect acceptor intentId.toList candidates timestamp signatureBytes)
          peerAddr env)
        (.response (.err e)) { s with rendezvous := s.rendezvous.insert intentId intent' }
  /-- An intent is accepted; the pair is authorized unless its expiry overflows. -/
  | accepted {intentId : IntentId} {intent : PendingIntent} (candidates : List Candidate)
      {createdAt timestamp : UInt64} {signatureBytes : List UInt8} {relayToken : RelayToken}
      (peerAddr : Option SocketAddr) {env : Env} {reply : Outcome RelayError RelayMessage}
      {forwarding : ForwardingTable} :
      AcceptAuth C s (env.clock 0) intent.target intentId timestamp signatureBytes intent →
      intent.state = .pending createdAt → env.random = some relayToken →
      (reply = .panicked ∧ forwarding = s.forwarding ∨
        reply = .ok (.candidateExchange intentId.toList intent.initiatorCandidates relayToken) ∧
        ∃ expiresAtMs, forwarding = { s.forwarding with
          contexts := s.forwarding.contexts.insert intentId (s.forwarding.freshContext (env.clock 2)
            intentId relayToken intent.initiator intent.target expiresAtMs)
          tokenIndex := s.forwarding.tokenIndex.insert relayToken intentId }) →
      Effect C s
        (.message (.acceptConnect intent.target intentId.toList candidates timestamp signatureBytes)
          peerAddr env)
        (.response reply)
        { s with
          rendezvous := s.rendezvous.insert intentId
            { intent with targetCandidates := candidates, state := .accepted relayToken }
          forwarding := forwarding }
  /-- A request to bind an address reaches the forwarding table. -/
  | bound {intentId : IntentId} {deviceId : DeviceId} {timestamp : UInt64}
      {signatureBytes : List UInt8} {addr : SocketAddr} {env : Env} :
      EstablishAuth C s (env.clock 0) intentId deviceId timestamp signatureBytes →
      Effect C s
        (.message (.relayEstablishRequest intentId.toList deviceId timestamp signatureBytes)
          (some addr) env)
        (.response ((ForwardingTable.updateBinding (env.clock 1) intentId deviceId addr
          s.forwarding).1.mapErr .internal >>= fun _ => .ok (.relayEstablishAck intentId.toList)))
        { s with forwarding :=
          (ForwardingTable.updateBinding (env.clock 1) intentId deviceId addr s.forwarding).2 }
  /-- A packet reaches the context of its token. -/
  | forwarded {token : RelayToken} {intentId : IntentId} (sourceAddr : SocketAddr)
      (packetLen : UInt64) (env : Env) :
      s.forwarding.tokenIndex.lookup token = some intentId →
      Effect C s (.getDestination token sourceAddr packetLen env)
        (.destination (ForwardingTable.onContext intentId () (ForwardingContext.forward
          s.forwarding.rateLimitBytesPerSec (env.clock 0) sourceAddr packetLen) s.forwarding).1)
        { s with forwarding := (ForwardingTable.onContext intentId () (ForwardingContext.forward
          s.forwarding.rateLimitBytesPerSec (env.clock 0) sourceAddr packetLen) s.forwarding).2 }
  | closed (intentId : IntentId) :
      Effect C s (.close intentId) .closed
        { s with forwarding := (ForwardingTable.close intentId s.forwarding).2 }
  | swept (now : UInt64) :
      Effect C s (.sweep now) (.swept (s.forwarding.sweep now).1)
        { s with forwarding := (s.forwarding.sweep now).2 }

namespace SystemLemmas

open ServerLemmas RendezvousLemmas ForwardingLemmas

variable {C : RelayCrypto} {s : RelayServer}

theorem not_issues_err {op : Op} {e : RelayError} {intentId : IntentId} {relayToken : RelayToken} :
    ¬ Issues op (.response (.err e)) intentId relayToken := by
  rintro ⟨_, _, _, _, _, _, _, -, hreply⟩
  cases hreply

/-- Only an acceptance is answered with a token. -/
theorem not_issues_of_ne {op : Op} {reply : Reply} {intentId : IntentId} {relayToken : RelayToken}
    (hne : ∀ acceptor id candidates timestamp signatureBytes peerAddr env,
      op ≠ .message (.acceptConnect acceptor id candidates timestamp signatureBytes) peerAddr env) :
    ¬ Issues op reply intentId relayToken := by
  rintro ⟨_, _, _, _, _, _, _, hop, -⟩
  exact hne _ _ _ _ _ _ _ hop

theorem refused (op : Op) (e : RelayError) : Effect C s op (.response (.err e)) s :=
  Effect.quiet s.forwarding.failedLookups fun _ _ => not_issues_err

/-- A message that is not an acceptance and changes nothing. -/
theorem answered {message : RelayMessage} {peerAddr : Option SocketAddr} {env : Env} {reply : Reply}
    (hm : ∀ acceptor intentId candidates timestamp signatureBytes,
      message ≠ .acceptConnect acceptor intentId candidates timestamp signatureBytes) :
    Effect C s (.message message peerAddr env) reply s := by
  refine Effect.quiet s.forwarding.failedLookups fun _ _ => not_issues_of_ne ?_
  intro acceptor id candidates timestamp signatureBytes _ _ hop
  cases hop
  exact hm acceptor id candidates timestamp signatureBytes rfl

variable {deviceId initiator target acceptor : DeviceId} {verifyKeyBytes : Bytes 32}
  {intentId : List UInt8} {candidates : List Candidate} {timestamp : UInt64}
  {signatureBytes : List UInt8} {peerAddr : Option SocketAddr} {env : Env}

theorem register_effect :
    Effect C s
      (.message (.registerRequest deviceId verifyKeyBytes timestamp signatureBytes) peerAddr env)
      (.response (handleRegister C env deviceId verifyKeyBytes timestamp signatureBytes peerAddr s).1)
      (handleRegister C env deviceId verifyKeyBytes timestamp signatureBytes peerAddr s).2 := by
  rcases handleRegister_cases env deviceId verifyKeyBytes timestamp signatureBytes peerAddr with
    ⟨-, e, h⟩ | ⟨hauth, ⟨-, h⟩ | ⟨hroom, h⟩⟩
  · rw [h]
    exact refused _ e
  · rw [h]
    exact Effect.evicted peerAddr _ hauth
  · rw [h]
    exact Effect.registered peerAddr hauth hroom

theorem connect_effect :
    Effect C s
      (.message (.connectIntent initiator target intentId candidates timestamp signatureBytes)
        peerAddr env)
      (.response (handleConnectIntent C env initiator target intentId candidates timestamp
        signatureBytes s).1)
      (handleConnectIntent C env initiator target intentId candidates timestamp
        signatureBytes s).2 := by
  rcases handleConnectIntent_cases (C := C) (s := s) env initiator target intentId candidates timestamp
    signatureBytes with ⟨-, r, h, -⟩ | ⟨id, rfl, hauth, h⟩
  · rw [h]
    exact answered fun _ _ _ _ _ hm => nomatch hm
  · rw [h]
    rcases registerIntent_cases (env.clock 1) id initiator target candidates s.rendezvous with
      ⟨-, hr⟩ | ⟨-, -, hr⟩ | ⟨hroom, -, hr⟩
    · rw [hr]
      exact Effect.pruned peerAddr env _
    · rw [hr]
      exact Effect.pruned peerAddr env _
    · rw [hr]
      exact Effect.stored candidates peerAddr hauth hroom

theorem accept_effect :
    Effect C s
      (.message (.acceptConnect acceptor intentId candidates timestamp signatureBytes) peerAddr env)
      (.response (handleAcceptConnect C env acceptor intentId candidates timestamp signatureBytes s).1)
      (handleAcceptConnect C env acceptor intentId candidates timestamp signatureBytes s).2 := by
  rcases handleAcceptConnect_cases (C := C) (s := s) env acceptor intentId candidates timestamp
    signatureBytes with
    ⟨-, e, h⟩ | ⟨id, intent, rfl, hauth, ⟨-, e, h⟩ | ⟨createdAt, hst, ⟨-, e, h⟩ |
      ⟨-, rfl, ⟨-, e, h⟩ | ⟨relayToken, hrand, r, forwarding, h, hf⟩⟩⟩⟩
  · rw [h]
    exact refused _ e
  · rw [h]
    exact refused _ e
  · rw [h]
    exact Effect.touched _ hauth.found hst rfl rfl rfl (Or.inl rfl)
  · rw [h]
    exact Effect.touched _ hauth.found hst rfl rfl rfl (Or.inr hst)
  · rw [h]
    refine Effect.accepted candidates peerAddr hauth hst hrand ?_
    rcases hf with ⟨-, hr, hsame⟩ | ⟨hr, expiresAtMs, -, hnew⟩
    · exact Or.inl ⟨hr, hsame⟩
    · exact Or.inr ⟨hr, expiresAtMs, hnew⟩

theorem establish_effect :
    Effect C s
      (.message (.relayEstablishRequest intentId deviceId timestamp signatureBytes) peerAddr env)
      (.response
        (handleRelayEstablish C env intentId deviceId timestamp signatureBytes peerAddr s).1)
      (handleRelayEstablish C env intentId deviceId timestamp signatureBytes peerAddr s).2 := by
  rcases handleRelayEstablish_cases (C := C) (s := s) env intentId deviceId timestamp signatureBytes
    peerAddr with ⟨-, e, h⟩ | ⟨id, addr, rfl, rfl, hauth, h⟩
  · rw [h]
    exact refused _ e
  · rw [h]
    exact Effect.bound hauth

theorem getDestination_effect {token : RelayToken} {sourceAddr : SocketAddr} {packetLen : UInt64} :
    Effect C s (.getDestination token sourceAddr packetLen env)
      (.destination (ForwardingTable.getDestination env token sourceAddr packetLen s.forwarding).1)
      { s with forwarding :=
        (ForwardingTable.getDestination env token sourceAddr packetLen s.forwarding).2 } := by
  rcases getDestination_cases env token sourceAddr packetLen s.forwarding with
    ⟨r, f, h, -⟩ | ⟨id, hl, h⟩
  · rw [h]
    exact Effect.quiet f fun _ _ => not_issues_of_ne fun _ _ _ _ _ _ _ hop => nomatch hop
  · rw [h]
    exact Effect.forwarded sourceAddr packetLen env hl

end SystemLemmas

open SystemLemmas ServerLemmas in
/-- Every step of the relay has one of the listed effects. -/
theorem step_effect (C : RelayCrypto) (s : RelayServer) (op : Op) :
    Effect C s op (step C s op).1 (step C s op).2 := by
  cases op with
  | message message peerAddr env =>
    cases message with
    | registerRequest => exact register_effect
    | connectIntent => exact connect_effect
    | acceptConnect => exact accept_effect
    | relayEstablishRequest => exact establish_effect
    | getCandidates requester intentId =>
      show Effect C s _ _ (handleGetCandidates requester intentId s).2
      rw [handleGetCandidates_state]
      exact answered fun _ _ _ _ _ hm => nomatch hm
    | pollPendingIntents deviceId =>
      show Effect C s _ _ (handlePollPendingIntents env deviceId s).2
      rw [handlePollPendingIntents_state]
      exact answered fun _ _ _ _ _ hm => nomatch hm
    -- a discovery request is answered without a write; no other message is for the server
    | _ => exact answered fun _ _ _ _ _ hm => nomatch hm
  | getDestination => exact getDestination_effect
  | close intentId => exact Effect.closed intentId
  | sweep now => exact Effect.swept now

end Blackwing.Relay

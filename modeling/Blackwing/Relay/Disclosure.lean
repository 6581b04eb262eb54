import Blackwing.Relay.System

/-!
# Who gets a relay token

Candidates and tokens leave the relay in a `CandidateExchange`. `AcceptConnect` gets one
for a signature of the target. `GetCandidates` carries no signature: the relay compares
the requester's self-declared id with the initiator of the intent.

* `disclosed_to_signer_iff`: a response of a run goes to a signer of the intent exactly
  when it does not answer such a request.
* `unsigned_request_gets_token`: a token handed out for an unsigned request.
-/

namespace Blackwing.Relay

/-- The message carries a signature that is valid under the key registered for the initiator or
the target of the intent. -/
def Authenticated (C : RelayCrypto) (s : RelayServer) (message : RelayMessage)
    (intent : PendingIntent) : Prop :=
  ∃ payload signatureBytes, checkedSignature s message = some (payload, signatureBytes) ∧
    (signedBy C s intent.initiator payload signatureBytes = true ∨
      signedBy C s intent.target payload signatureBytes = true)

/-- If the step hands out the candidates or the token of an intent, the request was authenticated
for that intent. -/
def DisclosedToSigner (C : RelayCrypto) (e : RelayEntry) : Prop :=
  ∀ message peerAddr env intentId candidates relayToken,
    e.input = .message message peerAddr env →
    e.out = .response (.ok (.candidateExchange intentId candidates relayToken)) →
    ∃ (id : IntentId) (intent : PendingIntent), intentId = id.toList ∧
      e.post.rendezvous.lookup id = some intent ∧ intent.state = .accepted relayToken ∧
      Authenticated C e.pre message intent

/-- The operation is a `GetCandidates` that names a registered device, the initiator of an
accepted intent. -/
def NamesInitiator (s : RelayServer) (op : Op) : Prop :=
  ∃ requester peerAddr env, ∃ (id : IntentId) (intent : PendingIntent) (relayToken : RelayToken),
    op = .message (.getCandidates requester id.toList) peerAddr env ∧
    CandidatesAuth s requester id intent relayToken

namespace DisclosureLemmas

open ServerLemmas

variable {C : RelayCrypto} {s : RelayServer}

/-- Only two handlers answer with a `CandidateExchange`. -/
theorem exchange_cases {message : RelayMessage} {peerAddr : Option SocketAddr} {env : Env}
    {intentId : List UInt8} {candidates : List Candidate} {relayToken : RelayToken}
    (hout : (RelayServer.handleMessageFrom C env message peerAddr s).1 =
      .ok (.candidateExchange intentId candidates relayToken)) :
    (∃ (id : IntentId) (intent intent' : PendingIntent),
      ∃ targetCandidates timestamp signatureBytes, intentId = id.toList ∧
      message = .acceptConnect intent.target intentId targetCandidates timestamp signatureBytes ∧
      AcceptAuth C s (env.clock 0) intent.target id timestamp signatureBytes intent ∧
      (RelayServer.handleMessageFrom C env message peerAddr s).2.rendezvous.lookup id = some intent' ∧
      intent'.state = .accepted relayToken ∧ intent'.target = intent.target) ∨
    ∃ (requester : DeviceId) (id : IntentId) (intent : PendingIntent), intentId = id.toList ∧
      message = .getCandidates requester intentId ∧
      CandidatesAuth s requester id intent relayToken := by
  cases message with
  | registerRequest deviceId verifyKeyBytes timestamp signatureBytes =>
    rw [RelayServer.handleMessageFrom] at hout
    rcases handleRegister_cases env deviceId verifyKeyBytes timestamp signatureBytes peerAddr with
      ⟨-, e, h⟩ | ⟨-, ⟨-, h⟩ | ⟨-, h⟩⟩
    · rw [h] at hout
      cases hout
    · rw [h] at hout
      cases hout
    · rw [h] at hout
      cases hout
  | connectIntent initiator target id cands timestamp signatureBytes =>
    rw [RelayServer.handleMessageFrom] at hout
    rcases handleConnectIntent_cases env initiator target id cands timestamp signatureBytes with
      ⟨-, r, h, hr⟩ | ⟨_, -, -, h⟩
    · rw [h] at hout
      cases hr _ hout
    · rw [h] at hout
      obtain ⟨_, -, hinvite⟩ := Outcome.bind_eq_ok.mp hout
      cases hinvite
  | acceptConnect acceptor id cands timestamp signatureBytes =>
    rw [RelayServer.handleMessageFrom] at hout ⊢
    obtain ⟨id, intent, createdAt, token, rfl, hauth, -, -, rfl, -, -, hresponse, hstored⟩ :=
      handleAcceptConnect_ok hout
    cases hresponse
    exact Or.inl ⟨id, intent, _, cands, timestamp, signatureBytes, rfl, rfl, hauth, hstored, rfl, rfl⟩
  | relayEstablishRequest id deviceId timestamp signatureBytes =>
    rw [RelayServer.handleMessageFrom] at hout
    rcases handleRelayEstablish_cases env id deviceId timestamp signatureBytes peerAddr with
      ⟨-, e, h⟩ | ⟨_, _, -, -, -, h⟩
    · rw [h] at hout
      cases hout
    · rw [h] at hout
      obtain ⟨_, -, hack⟩ := Outcome.bind_eq_ok.mp hout
      cases hack
  | getCandidates requester id =>
    rw [RelayServer.handleMessageFrom] at hout
    rcases handleGetCandidates_cases requester id with ⟨-, e, h⟩ | ⟨id, intent, token, rfl, hauth, h⟩
    · rw [h] at hout
      cases hout
    · rw [h] at hout
      cases hout
      exact Or.inr ⟨requester, id, intent, rfl, rfl, hauth⟩
  | pollPendingIntents deviceId =>
    rw [RelayServer.handleMessageFrom, RelayServer.handlePollPendingIntents, Call.getState_bind,
      Call.rejectIf_bind] at hout
    split at hout <;> cases hout
  | _ => cases hout

/-- A step hands a token or candidates to a signer, unless it serves a request that only names the
initiator. -/
theorem step_disclosed_iff (s : RelayServer) (op : Op) :
    DisclosedToSigner C (stepEntry (step C) s op) ↔ ¬ NamesInitiator s op := by
  constructor
  · rintro hsigner ⟨requester, peerAddr, env, id, intent, relayToken, rfl, hauth⟩
    rcases handleGetCandidates_cases requester id.toList with
      ⟨hno, -⟩ | ⟨id', intent', relayToken', hid, -, h⟩
    · exact hno id intent relayToken rfl hauth
    · have hout : (stepEntry (step C) s
          (.message (.getCandidates requester id.toList) peerAddr env)).out =
          .response (.ok (.candidateExchange id.toList intent'.targetCandidates relayToken')) := by
        show Reply.response (RelayServer.handleGetCandidates requester id.toList s).1 = _
        rw [h]
      obtain ⟨_, _, -, -, -, payload, signatureBytes, hsig, -⟩ :=
        hsigner _ peerAddr env id.toList _ relayToken' rfl hout
      cases hsig
  · rintro hno message peerAddr env intentId candidates relayToken hin hout
    cases (hin : op = _)
    rcases exchange_cases (Reply.response.inj hout) with
      ⟨id, intent, intent', cands, timestamp, signatureBytes, rfl, rfl, hauth, hl, hst, ht⟩ |
      ⟨requester, id, intent, rfl, rfl, hauth⟩
    · refine ⟨id, intent', rfl, hl, hst, _, signatureBytes,
        checkedSignature_accept _ _ _ _ hauth.found, Or.inr ?_⟩
      rw [ht]
      exact hauth.signature
    · exact absurd ⟨requester, peerAddr, env, id, intent, relayToken, rfl, hauth⟩ hno

end DisclosureLemmas

open DisclosureLemmas in
/-- In every run, a step hands out the candidates or the token of an intent only for a request
signed by its initiator or target, except when it serves a `GetCandidates` that names the
initiator. -/
theorem disclosed_to_signer_iff (C : RelayCrypto) (rateLimitBytesPerSec sessionExpiryMs : UInt64)
    (ops : List Op) :
    ∀ e ∈ relayRun C rateLimitBytesPerSec sessionExpiryMs ops,
      DisclosedToSigner C e ↔ ¬ NamesInitiator e.pre e.input := by
  intro e he
  obtain ⟨before, -, -, hstep⟩ := mem_run he
  rw [hstep]
  exact step_disclosed_iff _ _

/-- The run of a rendezvous hands out the token once, to the target that signed for it. -/
theorem pairing_disclosed_to_target :
    ((relayRun .plain rateLimitBytesPerSec sessionExpiryMs
      (plainPairing 1 2 (Bytes.fill 16 7) (Bytes.fill 32 9) 5000)).map Entry.out).getLast? =
        some (.response (.ok (.candidateExchange (Bytes.fill 16 7).toList [] (Bytes.fill 32 9)))) ∧
    ∀ e ∈ relayRun .plain rateLimitBytesPerSec sessionExpiryMs
      (plainPairing 1 2 (Bytes.fill 16 7) (Bytes.fill 32 9) 5000), DisclosedToSigner .plain e := by
  refine ⟨by decide +kernel, fun e he => ?_⟩
  refine (disclosed_to_signer_iff .plain rateLimitBytesPerSec sessionExpiryMs _ e he).mpr ?_
  rintro ⟨requester, peerAddr, env, id, intent, relayToken, hop, -⟩
  obtain ⟨before, after, hops, -⟩ := mem_run he
  rw [hop] at hops
  have hmem : Op.message (.getCandidates requester id.toList) peerAddr env ∈
      plainPairing 1 2 (Bytes.fill 16 7) (Bytes.fill 32 9) 5000 := by
    rw [hops]
    exact List.mem_append_right _ List.mem_cons_self
  obtain ⟨m, hm, heq⟩ := List.mem_map.mp hmem
  cases heq
  rcases List.mem_cons.mp hm with h | hm
  · cases h
  rcases List.mem_cons.mp hm with h | hm
  · cases h
  rcases List.mem_cons.mp hm with h | hm
  · cases h
  cases List.mem_singleton.mp hm

/-- A stranger, who signs nothing and sends from an address of their own, gets the token by naming
the initiator. -/
theorem unsigned_request_gets_token :
    ∃ e ∈ relayRun .plain rateLimitBytesPerSec sessionExpiryMs
      (plainPairing 1 2 (Bytes.fill 16 7) (Bytes.fill 32 9) 5000 ++
        [.message (.getCandidates (plainClient 1).deviceId (Bytes.fill 16 7).toList)
          (some (.v4 (Bytes.fill 4 66) 6666)) (.at 6000 none)]),
      e.out = .response (.ok (.candidateExchange (Bytes.fill 16 7).toList [] (Bytes.fill 32 9))) ∧
      ¬ DisclosedToSigner .plain e := by
  rw [relayRun_snoc]
  refine ⟨_, List.mem_append_right _ (List.mem_singleton.mpr rfl), by decide +kernel, fun h => ?_⟩
  obtain ⟨_, _, -, -, -, payload, signatureBytes, hsig, -⟩ :=
    h _ _ _ (Bytes.fill 16 7).toList [] (Bytes.fill 32 9) rfl (by decide +kernel)
  cases hsig

end Blackwing.Relay

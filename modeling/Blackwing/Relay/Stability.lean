import Blackwing.Relay.System

/-!
# Stability of an accepted rendezvous

An intent id is chosen by its initiator and shared by all devices. `register_intent` refuses an id
only while its intent is pending, so that a third device can register the id of an accepted
rendezvous and replace its record.

* `Disturbs`: which operations change what is stored under an intent id, said of the state before.
* `lookup_ne_iff_disturbs`: no other operation does.
* `accepted_stable_iff`: an accepted rendezvous is stable exactly when every operation that disturbs
  it is signed by one of its two devices.
* `third_device_replaces_intent`: a run in which one is not.
-/

namespace Blackwing.Relay

open RelayServer

/-- The device whose registered key a signed message is checked against. -/
def RelayMessage.signer : RelayMessage → Option DeviceId
  | .connectIntent initiatorDeviceId _ _ _ _ _ => some initiatorDeviceId
  | .acceptConnect acceptorDeviceId _ _ _ _ => some acceptorDeviceId
  | .relayEstablishRequest _ deviceId _ _ => some deviceId
  | _ => none

/-- The operation is a message with a valid signature of the device. -/
def SentBy (C : RelayCrypto) (s : RelayServer) (deviceId : DeviceId) (op : Op) : Prop :=
  ∃ message peerAddr env payload signatureBytes, op = .message message peerAddr env ∧
    message.signer = some deviceId ∧
    checkedSignature s message = some (payload, signatureBytes) ∧
    signedBy C s deviceId payload signatureBytes = true

/-- The operation changes what is stored under the intent id. -/
inductive Disturbs (C : RelayCrypto) (s : RelayServer) (intentId : IntentId) : Op → Prop
  /-- A connect intent, under this id or another, removes a pending record past its timeout. -/
  | prunes {initiator target : DeviceId} {id : IntentId} {candidates : List Candidate}
      {timestamp : UInt64} {signatureBytes : List UInt8} {peerAddr : Option SocketAddr} {env : Env}
      {intent : PendingIntent} :
      ConnectAuth C s (env.clock 0) initiator target id timestamp signatureBytes →
      s.rendezvous.lookup intentId = some intent → intent.retained (env.clock 1) = false →
      (id = intentId →
        HashMap.size (RendezvousRegistry.pruned (env.clock 1) s.rendezvous) < maxIntents →
        intent ≠ ⟨initiator, target, candidates, [], .pending (env.clock 1)⟩) →
      Disturbs C s intentId (.message
        (.connectIntent initiator target id.toList candidates timestamp signatureBytes) peerAddr env)
  /-- A connect intent under this id finds room and no pending record. -/
  | replaces {initiator target : DeviceId} {candidates : List Candidate} {timestamp : UInt64}
      {signatureBytes : List UInt8} {peerAddr : Option SocketAddr} {env : Env} :
      ConnectAuth C s (env.clock 0) initiator target intentId timestamp signatureBytes →
      HashMap.size (RendezvousRegistry.pruned (env.clock 1) s.rendezvous) < maxIntents →
      (∀ intent, s.rendezvous.lookup intentId = some intent → intent.isPending = false) →
      Disturbs C s intentId (.message
        (.connectIntent initiator target intentId.toList candidates timestamp signatureBytes)
        peerAddr env)
  /-- An acceptance, by whomever, finds the pending record past its timeout. -/
  | expires {acceptor : DeviceId} {candidates : List Candidate} {createdAt timestamp : UInt64}
      {signatureBytes : List UInt8} {peerAddr : Option SocketAddr} {env : Env}
      {intent : PendingIntent} :
      AcceptAuth C s (env.clock 0) acceptor intentId timestamp signatureBytes intent →
      intent.state = .pending createdAt →
      intentTimeoutMs < saturatingSub (env.clock 1) createdAt →
      Disturbs C s intentId (.message
        (.acceptConnect acceptor intentId.toList candidates timestamp signatureBytes) peerAddr env)
  /-- An acceptance of the target is in time. Without randomness only its candidates are stored. -/
  | answers {candidates : List Candidate} {createdAt timestamp : UInt64}
      {signatureBytes : List UInt8} {peerAddr : Option SocketAddr} {env : Env}
      {intent : PendingIntent} :
      AcceptAuth C s (env.clock 0) intent.target intentId timestamp signatureBytes intent →
      intent.state = .pending createdAt →
      saturatingSub (env.clock 1) createdAt ≤ intentTimeoutMs →
      (env.random = none → intent.targetCandidates ≠ candidates) →
      Disturbs C s intentId (.message
        (.acceptConnect intent.target intentId.toList candidates timestamp signatureBytes)
        peerAddr env)

/-- What an accepted rendezvous keeps in the steps from a state on. -/
structure Stable (C : RelayCrypto) (s : RelayServer) (later : List Op) (intentId : IntentId)
    (intent : PendingIntent) (relayToken : RelayToken) : Prop where
  /-- Only a message that the initiator or the target signed changes the record. -/
  unchanged : ∀ e ∈ run (step C) s later,
    ¬ SentBy C e.pre intent.initiator e.input → ¬ SentBy C e.pre intent.target e.input →
    e.post.rendezvous.lookup intentId = e.pre.rendezvous.lookup intentId
  /-- As long as they do not change it, the initiator gets the candidates and the token. -/
  served : ∀ ops rest, later = ops ++ rest →
    (∀ e ∈ run (step C) s ops,
      SentBy C e.pre intent.initiator e.input ∨ SentBy C e.pre intent.target e.input →
      e.post.rendezvous.lookup intentId = e.pre.rendezvous.lookup intentId) →
    (endState (step C) s ops).isRegistered intent.initiator = true →
    (handleGetCandidates intent.initiator intentId.toList (endState (step C) s ops)).1 =
      .ok (.candidateExchange intentId.toList intent.targetCandidates relayToken)

namespace StabilityLemmas

open ServerLemmas RendezvousLemmas

variable {C : RelayCrypto} {s : RelayServer} {intentId : IntentId}

theorem pruned_lookup_ne_iff (now : UInt64) (intents : RendezvousRegistry) :
    (RendezvousRegistry.pruned now intents).lookup intentId ≠ intents.lookup intentId ↔
      ∃ intent, intents.lookup intentId = some intent ∧ intent.retained now = false := by
  rw [Ne, RendezvousRegistry.pruned, HashMap.lookup_retain_eq_self_iff]
  simp only [not_forall, exists_prop, Bool.not_eq_true]

/-- A record that is stored where no pending one was left differs from what was there: that was
another one, past its timeout, or it was not pending. -/
theorem stored_ne_iff {now : UInt64} {intents : RendezvousRegistry} {fresh : PendingIntent}
    (hfresh : fresh.isPending = true)
    (hnew : ((RendezvousRegistry.pruned now intents).lookup intentId).any PendingIntent.isPending =
      false) :
    some fresh ≠ intents.lookup intentId ↔
      (∃ intent, intents.lookup intentId = some intent ∧ intent.retained now = false ∧
        intent ≠ fresh) ∨
      ∀ intent, intents.lookup intentId = some intent → intent.isPending = false := by
  rw [lookup_pruned] at hnew
  cases hl : intents.lookup intentId with
  | none => exact iff_of_true (fun h => nomatch h) (Or.inr fun _ h => nomatch h)
  | some intent =>
    rw [hl] at hnew
    constructor
    · intro hne
      cases hp : intent.isPending with
      | false =>
        refine Or.inr fun i hi => ?_
        cases hi
        exact hp
      | true =>
        -- a pending record that was not pruned would have been a duplicate
        refine Or.inl ⟨intent, rfl, Bool.eq_false_iff.mpr fun hret => ?_, fun heq => ?_⟩
        · rw [Option.filter_some, if_pos hret, Option.any_some, hp] at hnew
          cases hnew
        · exact hne (congrArg some heq.symm)
    · rintro (⟨i, hi, -, hne⟩ | hnone) heq
      · cases hi
        exact hne (Option.some.inj heq).symm
      · rw [← Option.some.inj heq] at hnone
        exact nomatch (hnone fresh rfl).symm.trans hfresh

/-- Registration changes the record of an id by pruning it or by storing its own. -/
theorem registerIntent_lookup_ne_iff (now : UInt64) (id : IntentId) (initiator target : DeviceId)
    (candidates : List Candidate) (intents : RendezvousRegistry) :
    (RendezvousRegistry.registerIntent now id initiator target candidates intents).2.lookup intentId ≠
        intents.lookup intentId ↔
      (∃ intent, intents.lookup intentId = some intent ∧ intent.retained now = false ∧
        (id = intentId → HashMap.size (RendezvousRegistry.pruned now intents) < maxIntents →
          intent ≠ ⟨initiator, target, candidates, [], .pending now⟩)) ∨
      (id = intentId ∧ HashMap.size (RendezvousRegistry.pruned now intents) < maxIntents ∧
        ∀ intent, intents.lookup intentId = some intent → intent.isPending = false) := by
  rcases registerIntent_cases now id initiator target candidates intents with
    ⟨hfull, hr⟩ | ⟨hroom, hdup, hr⟩ | ⟨hroom, hnew, hr⟩
  · rw [hr, pruned_lookup_ne_iff]
    constructor
    · rintro ⟨intent, hl, hstale⟩
      exact Or.inl ⟨intent, hl, hstale, fun _ hroom => absurd hfull (Nat.not_le.mpr hroom)⟩
    · rintro (⟨intent, hl, hstale, -⟩ | ⟨-, hroom, -⟩)
      · exact ⟨intent, hl, hstale⟩
      · exact absurd hfull (Nat.not_le.mpr hroom)
  · -- the pending record of the duplicate is not stale
    obtain ⟨i, hi, hpending⟩ := (Option.any_eq_true _ _).mp hdup
    rw [lookup_pruned, Option.filter_eq_some_iff] at hi
    rw [hr, pruned_lookup_ne_iff]
    constructor
    · rintro ⟨intent, hl, hstale⟩
      refine Or.inl ⟨intent, hl, hstale, ?_⟩
      rintro rfl -
      cases hi.1.symm.trans hl
      exact nomatch hstale.symm.trans hi.2
    · rintro (⟨intent, hl, hstale, -⟩ | ⟨rfl, -, hnone⟩)
      · exact ⟨intent, hl, hstale⟩
      · exact nomatch (hnone i hi.1).symm.trans hpending
  · rw [hr, HashMap.lookup_insert_eq]
    split
    · next hid =>
      subst hid
      rw [stored_ne_iff rfl hnew]
      simp only [true_implies, true_and, hroom]
    · next hid =>
      rw [pruned_lookup_ne_iff]
      constructor
      · rintro ⟨intent, hl, hstale⟩
        exact Or.inl ⟨intent, hl, hstale, fun heq => absurd heq.symm hid⟩
      · rintro (⟨intent, hl, hstale, -⟩ | ⟨rfl, -⟩)
        · exact ⟨intent, hl, hstale⟩
        · exact absurd rfl hid

variable {initiator target acceptor : DeviceId} {id : List UInt8} {candidates : List Candidate}
  {timestamp : UInt64} {signatureBytes : List UInt8} {peerAddr : Option SocketAddr} {env : Env}

theorem connect_disturbs_iff :
    (handleConnectIntent C env initiator target id candidates timestamp signatureBytes
        s).2.rendezvous.lookup intentId ≠ s.rendezvous.lookup intentId ↔
      Disturbs C s intentId
        (.message (.connectIntent initiator target id candidates timestamp signatureBytes)
          peerAddr env) := by
  rcases handleConnectIntent_cases (C := C) (s := s) env initiator target id candidates timestamp
    signatureBytes with ⟨hno, r, h, -⟩ | ⟨id, rfl, hauth, h⟩
  · rw [h]
    refine iff_of_false (fun hne => hne rfl) fun hd => ?_
    generalize hop : Op.message _ _ _ = op at hd
    cases hd with
    | prunes hauth =>
      cases hop
      exact hno _ rfl hauth
    | replaces hauth =>
      cases hop
      exact hno _ rfl hauth
    | expires => cases hop
    | answers => cases hop
  · rw [h, registerIntent_lookup_ne_iff]
    constructor
    · rintro (⟨intent, hl, hstale, hne⟩ | ⟨rfl, hroom, hnone⟩)
      · exact .prunes hauth hl hstale hne
      · exact .replaces hauth hroom hnone
    · intro hd
      generalize hop : Op.message _ _ _ = op at hd
      cases hd with
      | prunes _ hl hstale hne =>
        obtain ⟨⟨rfl, rfl, hid, rfl, rfl, rfl⟩, rfl, rfl⟩ := by simpa using hop
        cases Bytes.toList_injective hid
        exact Or.inl ⟨_, hl, hstale, hne⟩
      | replaces _ hroom hnone =>
        obtain ⟨⟨rfl, rfl, hid, rfl, rfl, rfl⟩, rfl, rfl⟩ := by simpa using hop
        exact Or.inr ⟨Bytes.toList_injective hid, hroom, hnone⟩
      | expires => cases hop
      | answers => cases hop

/-- An acceptance that disturbs an intent has found it pending, and late or its own. -/
theorem accept_disturbs_inv :
    Disturbs C s intentId
        (.message (.acceptConnect acceptor id candidates timestamp signatureBytes) peerAddr env) ↔
      id = intentId.toList ∧ ∃ intent createdAt,
        AcceptAuth C s (env.clock 0) acceptor intentId timestamp signatureBytes intent ∧
        intent.state = .pending createdAt ∧
        (intentTimeoutMs < saturatingSub (env.clock 1) createdAt ∨
          saturatingSub (env.clock 1) createdAt ≤ intentTimeoutMs ∧ intent.target = acceptor ∧
          (env.random = none → intent.targetCandidates ≠ candidates)) := by
  constructor
  · intro hd
    generalize hop : Op.message _ _ _ = op at hd
    cases hd with
    | prunes => cases hop
    | replaces => cases hop
    | expires hauth hst hlate =>
      cases hop
      exact ⟨rfl, _, _, hauth, hst, Or.inl hlate⟩
    | answers hauth hst htime hne =>
      cases hop
      exact ⟨rfl, _, _, hauth, hst, Or.inr ⟨htime, rfl, hne⟩⟩
  · rintro ⟨rfl, intent, createdAt, hauth, hst, hlate | ⟨htime, rfl, hne⟩⟩
    · exact .expires hauth hst hlate
    · exact .answers hauth hst htime hne

/-- The handler has found the one intent that the condition speaks of. -/
theorem accept_disturbs_of_auth {id : IntentId} {intent : PendingIntent}
    (hauth : AcceptAuth C s (env.clock 0) acceptor id timestamp signatureBytes intent) :
    Disturbs C s intentId
      (.message (.acceptConnect acceptor id.toList candidates timestamp signatureBytes)
        peerAddr env) ↔
      intentId = id ∧ ∃ createdAt, intent.state = .pending createdAt ∧
        (intentTimeoutMs < saturatingSub (env.clock 1) createdAt ∨
          saturatingSub (env.clock 1) createdAt ≤ intentTimeoutMs ∧ intent.target = acceptor ∧
          (env.random = none → intent.targetCandidates ≠ candidates)) := by
  rw [accept_disturbs_inv]
  constructor
  · rintro ⟨hid, intent', createdAt, hauth', hrest⟩
    cases Bytes.toList_injective hid
    cases hauth.found.symm.trans hauth'.found
    exact ⟨rfl, createdAt, hrest⟩
  · rintro ⟨rfl, createdAt, hrest⟩
    exact ⟨rfl, intent, createdAt, hauth, hrest⟩

theorem accept_disturbs_iff :
    (handleAcceptConnect C env acceptor id candidates timestamp signatureBytes
        s).2.rendezvous.lookup intentId ≠ s.rendezvous.lookup intentId ↔
      Disturbs C s intentId
        (.message (.acceptConnect acceptor id candidates timestamp signatureBytes) peerAddr env) := by
  rcases handleAcceptConnect_cases (C := C) (s := s) env acceptor id candidates timestamp
    signatureBytes with ⟨hno, e, h⟩ | ⟨id, intent, rfl, hauth, hcases⟩
  · rw [h, accept_disturbs_inv]
    refine iff_of_false (fun hne => hne rfl) ?_
    rintro ⟨rfl, intent, -, hauth, -⟩
    exact hno intentId intent rfl hauth
  rw [accept_disturbs_of_auth hauth]
  rcases hcases with ⟨hdead, e, h⟩ | ⟨createdAt, hst, hcases⟩
  · rw [h]
    refine iff_of_false (fun hne => hne rfl) ?_
    rintro ⟨-, createdAt, hst, hlate | ⟨-, ht, -⟩⟩
    · exact UInt64.not_lt.mpr (hdead createdAt hst).1 hlate
    · exact (hdead createdAt hst).2 ht
  have hpending : ∀ P : UInt64 → Prop,
      (∃ createdAt, intent.state = .pending createdAt ∧ P createdAt) ↔ P createdAt := by
    intro P
    rw [hst]
    simp only [IntentState.pending.injEq, exists_eq_left']
  rw [hpending]
  rcases hcases with
    ⟨hlate, e, h⟩ | ⟨htime, ht, ⟨hrand, e, h⟩ | ⟨relayToken, hrand, r, forwarding, h, -⟩⟩
  · rw [h, HashMap.lookup_insert_ne_iff, hauth.found]
    refine and_congr_right fun _ => iff_of_true (fun heq => ?_) (Or.inl hlate)
    exact nomatch hst.symm.trans (congrArg PendingIntent.state (Option.some.inj heq))
  · rw [h, HashMap.lookup_insert_ne_iff, hauth.found]
    refine and_congr_right fun _ => ?_
    constructor
    · intro hne
      refine Or.inr ⟨htime, ht, fun _ hc => hne ?_⟩
      rw [← hc]
    · rintro (hlate | ⟨-, -, hne⟩) heq
      · exact UInt64.not_lt.mpr htime hlate
      · exact hne hrand (congrArg PendingIntent.targetCandidates (Option.some.inj heq))
  · rw [h, HashMap.lookup_insert_ne_iff, hauth.found]
    refine and_congr_right fun _ => iff_of_true (fun heq => ?_) (Or.inr ⟨htime, ht, fun hn => ?_⟩)
    · exact nomatch hst.symm.trans (congrArg PendingIntent.state (Option.some.inj heq))
    · exact nomatch hn.symm.trans hrand

/-- An operation changes what is stored under an intent id exactly when it disturbs it. -/
theorem lookup_ne_iff_disturbs (op : Op) :
    (step C s op).2.rendezvous.lookup intentId ≠ s.rendezvous.lookup intentId ↔
      Disturbs C s intentId op := by
  -- the other operations do not write to the registry of intents
  have hquiet : (step C s op).2.rendezvous = s.rendezvous → ¬ Disturbs C s intentId op →
      ((step C s op).2.rendezvous.lookup intentId ≠ s.rendezvous.lookup intentId ↔
        Disturbs C s intentId op) := by
    intro hsame hno
    rw [hsame]
    exact iff_of_false (fun hne => hne rfl) hno
  cases op with
  | message message peerAddr env =>
    cases message with
    | connectIntent => exact connect_disturbs_iff
    | acceptConnect => exact accept_disturbs_iff
    | registerRequest deviceId verifyKeyBytes timestamp signatureBytes =>
      refine hquiet ?_ fun hd => nomatch hd
      show (handleRegister C env deviceId verifyKeyBytes timestamp signatureBytes peerAddr
        s).2.rendezvous = s.rendezvous
      rcases handleRegister_cases env deviceId verifyKeyBytes timestamp signatureBytes peerAddr with
        ⟨-, e, h⟩ | ⟨-, ⟨-, h⟩ | ⟨-, h⟩⟩ <;> rw [h]
    | relayEstablishRequest id deviceId timestamp signatureBytes =>
      refine hquiet ?_ fun hd => nomatch hd
      show (handleRelayEstablish C env id deviceId timestamp signatureBytes peerAddr
        s).2.rendezvous = s.rendezvous
      rcases handleRelayEstablish_cases env id deviceId timestamp signatureBytes peerAddr with
        ⟨-, e, h⟩ | ⟨_, _, -, -, -, h⟩ <;> rw [h]
    | getCandidates requester id =>
      refine hquiet ?_ fun hd => nomatch hd
      exact congrArg RelayServer.rendezvous (handleGetCandidates_state requester id s)
    | pollPendingIntents deviceId =>
      refine hquiet ?_ fun hd => nomatch hd
      exact congrArg RelayServer.rendezvous (handlePollPendingIntents_state env deviceId s)
    | _ => exact hquiet rfl fun hd => nomatch hd
  | _ => exact hquiet rfl fun hd => nomatch hd

/-- What is stored under the id does not change along steps that do not change it. -/
theorem lookup_of_unchanged {t : RelayServer} {ops : List Op}
    (h : ∀ e ∈ run (step C) t ops,
      e.post.rendezvous.lookup intentId = e.pre.rendezvous.lookup intentId) :
    (endState (step C) t ops).rendezvous.lookup intentId = t.rendezvous.lookup intentId := by
  induction ops generalizing t with
  | nil => rfl
  | cons op ops ih =>
    rw [run_cons] at h
    have hfirst : (step C t op).2.rendezvous.lookup intentId = t.rendezvous.lookup intentId :=
      h _ List.mem_cons_self
    rw [endState_cons, ih fun e he => h e (List.mem_cons_of_mem _ he), hfirst]

theorem unchanged_of_step {op : Op}
    (h : (step C s op).2.rendezvous.lookup intentId = s.rendezvous.lookup intentId) :
    ∀ e ∈ run (step C) s [op],
      e.post.rendezvous.lookup intentId = e.pre.rendezvous.lookup intentId := by
  intro e he
  rw [run_cons, run_nil, List.mem_singleton] at he
  rw [he]
  exact h

/-- A registered initiator of an accepted intent gets its candidates and token. -/
theorem candidates_of_accepted {intent : PendingIntent} {relayToken : RelayToken}
    (hfound : s.rendezvous.lookup intentId = some intent)
    (haccepted : intent.state = .accepted relayToken)
    (honline : s.isRegistered intent.initiator = true) :
    (handleGetCandidates intent.initiator intentId.toList s).1 =
      .ok (.candidateExchange intentId.toList intent.targetCandidates relayToken) := by
  rcases handleGetCandidates_cases intent.initiator intentId.toList (s := s) with
    ⟨hno, -⟩ | ⟨id, i, token, hid, hauth, h⟩
  · exact absurd ⟨honline, hfound, rfl, haccepted⟩ (hno intentId intent relayToken rfl)
  · cases Bytes.toList_injective hid
    cases hfound.symm.trans hauth.found
    cases haccepted.symm.trans hauth.accepted
    rw [h]

end StabilityLemmas

open StabilityLemmas

/-- After an intent is accepted, its record is changed only by messages of its two devices, and its
initiator keeps getting the same candidates and token, exactly when every operation that disturbs
it is signed by one of the two. -/
theorem accepted_stable_iff (C : RelayCrypto) (rateLimitBytesPerSec sessionExpiryMs : UInt64)
    (ops later : List Op) {intentId : IntentId} {intent : PendingIntent} {relayToken : RelayToken}
    (hfound : (relayAfter C rateLimitBytesPerSec sessionExpiryMs ops).rendezvous.lookup intentId =
      some intent)
    (haccepted : intent.state = .accepted relayToken) :
    Stable C (relayAfter C rateLimitBytesPerSec sessionExpiryMs ops) later intentId intent relayToken ↔
      ∀ e ∈ run (step C) (relayAfter C rateLimitBytesPerSec sessionExpiryMs ops) later,
        Disturbs C e.pre intentId e.input →
          SentBy C e.pre intent.initiator e.input ∨ SentBy C e.pre intent.target e.input := by
  have hchange : ∀ e ∈ run (step C) (relayAfter C rateLimitBytesPerSec sessionExpiryMs ops) later,
      (e.post.rendezvous.lookup intentId ≠ e.pre.rendezvous.lookup intentId ↔
        Disturbs C e.pre intentId e.input) := by
    intro e he
    rw [post_eq_of_mem_run he]
    exact lookup_ne_iff_disturbs e.input
  constructor
  · intro hstable e he hd
    by_contra hno
    rw [not_or] at hno
    exact (hchange e he).mpr hd (hstable.unchanged e he hno.1 hno.2)
  · intro hdisturbs
    have hunchanged : ∀ e ∈ run (step C) (relayAfter C rateLimitBytesPerSec sessionExpiryMs ops) later,
        ¬ SentBy C e.pre intent.initiator e.input → ¬ SentBy C e.pre intent.target e.input →
        e.post.rendezvous.lookup intentId = e.pre.rendezvous.lookup intentId := by
      intro e he hi ht
      by_contra hne
      exact (hdisturbs e he ((hchange e he).mp hne)).elim hi ht
    refine ⟨hunchanged, fun before rest hsplit hown honline => ?_⟩
    refine candidates_of_accepted ?_ haccepted honline
    rw [lookup_of_unchanged, hfound]
    intro e he
    by_cases hsent : SentBy C e.pre intent.initiator e.input ∨ SentBy C e.pre intent.target e.input
    · exact hown e he hsent
    · rw [not_or] at hsent
      refine hunchanged e ?_ hsent.1 hsent.2
      rw [hsplit, run_append]
      exact List.mem_append_left _ he

/-- Devices 1 and 2 have met under an intent id, and a third device registers. -/
def metUnderId : List Op :=
  plainPairing 1 2 (Bytes.fill 16 7) (Bytes.fill 32 9) 1000 ++
    [.message ((plainClient 3).request (.register 1000)) none (.at 1000 none)]

/-- The third device asks for the second under an intent id. -/
def thirdRequest (intentId : IntentId) : Op :=
  .message ((plainClient 3).request (.connectIntent (plainClient 2).deviceId intentId [] 2000)) none
    (.at 2000 none)

/-- Under another id, the request leaves the rendezvous of the others alone. -/
theorem accepted_stable_other_intent :
    let s := relayAfter .plain rateLimitBytesPerSec sessionExpiryMs metUnderId
    (handleGetCandidates (plainClient 1).deviceId (Bytes.fill 16 7).toList
      (endState (step .plain) s [thirdRequest (Bytes.fill 16 8)])).1 =
        .ok (.candidateExchange (Bytes.fill 16 7).toList [] (Bytes.fill 32 9)) := by
  intro s
  have hsame := @unchanged_of_step .plain s (Bytes.fill 16 7) (thirdRequest (Bytes.fill 16 8))
    (by decide +kernel)
  refine ((@accepted_stable_iff .plain rateLimitBytesPerSec sessionExpiryMs metUnderId
    [thirdRequest (Bytes.fill 16 8)] (Bytes.fill 16 7)
    ⟨(plainClient 1).deviceId, (plainClient 2).deviceId, [], [], .accepted (Bytes.fill 32 9)⟩
    (Bytes.fill 32 9) (by decide +kernel) rfl).mpr fun e he hd => ?_).served _ [] rfl
    (fun e he _ => hsame e he) (by decide +kernel)
  refine absurd (hsame e he) ?_
  rw [post_eq_of_mem_run he]
  exact (lookup_ne_iff_disturbs _).mpr hd

/-- The third device asks for the second under the same id: the record is now its own, and the first
device gets an error. -/
theorem third_device_replaces_intent :
    let s := relayAfter .plain rateLimitBytesPerSec sessionExpiryMs metUnderId
    let s' := (step .plain s (thirdRequest (Bytes.fill 16 7))).2
    s.rendezvous.lookup (Bytes.fill 16 7) =
      some ⟨(plainClient 1).deviceId, (plainClient 2).deviceId, [], [], .accepted (Bytes.fill 32 9)⟩ ∧
    s'.rendezvous.lookup (Bytes.fill 16 7) =
      some ⟨(plainClient 3).deviceId, (plainClient 2).deviceId, [], [], .pending 2000⟩ ∧
    (handleGetCandidates (plainClient 1).deviceId (Bytes.fill 16 7).toList s').1 =
      .err (.internal "Intent not yet accepted by the target") := by
  decide +kernel

end Blackwing.Relay

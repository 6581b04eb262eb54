import Blackwing.Relay.Invariants

/-!
# Replayed control messages

The relay keeps no record of the messages it has processed. A copy of a signed message is
only stopped by its timestamp window and by the state it finds, which differs per kind.

* `Unchanged`: the registry entries, the intents and the contexts of two states are the same.
* `ReplayInert`: the condition, kind by kind, under which a copy changes nothing.
* `replay_unchanged_iff`: for every run, and every message processed in it.
* `replayed_establish_moves_binding`: a copy of a `RelayEstablishRequest`, sent from another
  address, takes over the data-plane binding of the device.
-/

namespace Blackwing.Relay

open RelayServer

/-- The registry entries, the intents and the contexts are the same. -/
structure Unchanged (s s' : RelayServer) : Prop where
  registry : ∀ deviceId, s'.registry.lookup deviceId = s.registry.lookup deviceId
  intents : ∀ intentId, s'.rendezvous.lookup intentId = s.rendezvous.lookup intentId
  contexts : ∀ intentId,
    s'.forwarding.contexts.lookup intentId = s.forwarding.contexts.lookup intentId

/-- The message was processed successfully in the history. A `ConnectRejected` is no success. -/
def Processed (h : List RelayEntry) (message : RelayMessage) : Prop :=
  ∃ e ∈ h, ∃ peerAddr env response, e.input = .message message peerAddr env ∧
    e.out = .response (.ok response) ∧ ∀ target reason, response ≠ .connectRejected target reason

/-- A copy of a `RegisterRequest` changes nothing: it is out of its window, or the registry is full
of entries that are not stale, or it finds the entry it would write and evicts no other device. -/
def RegisterInert (s : RelayServer) (now : UInt64) (deviceId : DeviceId) (verifyKeyBytes : Bytes 32)
    (timestamp : UInt64) (peerAddr : Option SocketAddr) : Prop :=
  timestampWindowMs < absDiff now timestamp ∨
  (maxRegistrations ≤ HashMap.size s.registry ∧
    ∀ d ctx, s.registry.lookup d = some ctx → ctx.retained now = true) ∨
  s.registry.lookup deviceId = some ⟨s.nextSessionId, now, verifyKeyBytes, peerAddr⟩ ∧
    ∀ d ctx, d ≠ deviceId → maxRegistrations ≤ HashMap.size s.registry →
      s.registry.lookup d = some ctx → ctx.retained now = true

/-- A copy of a `ConnectIntent` changes nothing: it is not authenticated, or no intent is past its
timeout and it is refused at capacity or as a duplicate, or it finds the intent it would write and
no other one past its timeout. -/
def ConnectInert (C : RelayCrypto) (s : RelayServer) (env : Env) (initiator target : DeviceId)
    (intentId : List UInt8) (candidates : List Candidate) (timestamp : UInt64)
    (signatureBytes : List UInt8) : Prop :=
  ∀ id : IntentId, intentId = id.toList →
    ConnectAuth C s (env.clock 0) initiator target id timestamp signatureBytes →
    ((∀ j i, s.rendezvous.lookup j = some i → i.retained (env.clock 1) = true) ∧
      (maxIntents ≤ HashMap.size s.rendezvous ∨
        (s.rendezvous.lookup id).any PendingIntent.isPending = true)) ∨
    s.rendezvous.lookup id = some ⟨initiator, target, candidates, [], .pending (env.clock 1)⟩ ∧
      ∀ j i, j ≠ id → s.rendezvous.lookup j = some i → i.retained (env.clock 1) = true

/-- A copy of an `AcceptConnect` changes nothing: it is not authenticated, or it finds no pending
intent, or one that is in time and for another target, or for which the candidates are stored
already and the random source fails. -/
def AcceptInert (C : RelayCrypto) (s : RelayServer) (env : Env) (acceptor : DeviceId)
    (intentId : List UInt8) (candidates : List Candidate) (timestamp : UInt64)
    (signatureBytes : List UInt8) : Prop :=
  ∀ (id : IntentId) (intent : PendingIntent) createdAt, intentId = id.toList →
    AcceptAuth C s (env.clock 0) acceptor id timestamp signatureBytes intent →
    intent.state = .pending createdAt →
    saturatingSub (env.clock 1) createdAt ≤ intentTimeoutMs ∧
      (intent.target = acceptor → env.random = none ∧ intent.targetCandidates = candidates)

/-- A copy of a `RelayEstablishRequest` changes nothing: it is not authenticated, or its session is
dead, or the session is live and in time and has the address bound for the device at this moment. -/
def EstablishInert (C : RelayCrypto) (s : RelayServer) (env : Env) (intentId : List UInt8)
    (deviceId : DeviceId) (timestamp : UInt64) (signatureBytes : List UInt8)
    (peerAddr : Option SocketAddr) : Prop :=
  ∀ (id : IntentId) (addr : SocketAddr) (ctx : ForwardingContext), intentId = id.toList →
    peerAddr = some addr → EstablishAuth C s (env.clock 0) id deviceId timestamp signatureBytes →
    s.forwarding.contexts.lookup id = some ctx → ctx.state.isTerminal = false →
    ¬ ctx.Overdue (env.clock 1) ∧
      (ctx.initiator.deviceId = deviceId →
        ctx.initiator.addr = some addr ∧ ctx.lastActiveMs = env.clock 1) ∧
      (ctx.initiator.deviceId ≠ deviceId → ctx.target.deviceId = deviceId →
        ctx.target.addr = some addr ∧ ctx.lastActiveMs = env.clock 1)

/-- The condition under which processing a copy of a message changes nothing. -/
def ReplayInert (C : RelayCrypto) (s : RelayServer) (message : RelayMessage)
    (peerAddr : Option SocketAddr) (env : Env) : Prop :=
  match message with
  | .registerRequest deviceId verifyKeyBytes timestamp _ =>
    RegisterInert s (env.clock 0) deviceId verifyKeyBytes timestamp peerAddr
  | .connectIntent initiator target intentId candidates timestamp signatureBytes =>
    ConnectInert C s env initiator target intentId candidates timestamp signatureBytes
  | .acceptConnect acceptor intentId candidates timestamp signatureBytes =>
    AcceptInert C s env acceptor intentId candidates timestamp signatureBytes
  | .relayEstablishRequest intentId deviceId timestamp signatureBytes =>
    EstablishInert C s env intentId deviceId timestamp signatureBytes peerAddr
  | _ => True

namespace ReplayLemmas

open ServerLemmas RendezvousLemmas ForwardingLemmas InvariantLemmas

variable {C : RelayCrypto} {s : RelayServer}

theorem unchanged_refl (s : RelayServer) : Unchanged s s := ⟨fun _ => rfl, fun _ => rfl, fun _ => rfl⟩

theorem forall_iff_at {K : Type} (a : K) {P : K → Prop} :
    (∀ k, P k) ↔ (∀ k, k ≠ a → P k) ∧ P a := by
  constructor
  · exact fun h => ⟨fun k _ => h k, h a⟩
  · rintro ⟨hother, ha⟩ k
    rcases em (k = a) with rfl | hk
    · exact ha
    · exact hother k hk

theorem unchanged_registry_iff (registry : HashMap DeviceId ClientContext) (n : UInt64) :
    Unchanged s { s with registry := registry, nextSessionId := n } ↔
      ∀ d, registry.lookup d = s.registry.lookup d :=
  ⟨fun h => h.registry, fun h => ⟨h, fun _ => rfl, fun _ => rfl⟩⟩

theorem unchanged_intents_iff (intents : RendezvousRegistry) :
    Unchanged s { s with rendezvous := intents } ↔
      ∀ i, intents.lookup i = s.rendezvous.lookup i :=
  ⟨fun h => h.intents, fun h => ⟨fun _ => rfl, h, fun _ => rfl⟩⟩

theorem unchanged_contexts_iff (t : ForwardingTable) :
    Unchanged s { s with forwarding := t } ↔
      ∀ i, t.contexts.lookup i = s.forwarding.contexts.lookup i :=
  ⟨fun h => h.contexts, fun h => ⟨fun _ => rfl, fun _ => rfl, h⟩⟩

theorem lookup_evicted_eq_self_iff (now : UInt64) (registry : HashMap DeviceId ClientContext)
    (d : DeviceId) :
    (evicted now registry).lookup d = registry.lookup d ↔
      (maxRegistrations ≤ HashMap.size registry →
        ∀ ctx, registry.lookup d = some ctx → ctx.retained now = true) := by
  unfold evicted
  split
  · next hfull =>
    rw [HashMap.lookup_retain_eq_self_iff]
    exact ⟨fun h _ => h, fun h => h hfull⟩
  · next hroom => exact iff_of_true rfl fun hfull => absurd hfull hroom

variable {deviceId initiator target acceptor : DeviceId} {verifyKeyBytes : Bytes 32}
  {intentId : List UInt8} {candidates : List Candidate} {timestamp : UInt64}
  {signatureBytes : List UInt8} {peerAddr : Option SocketAddr} {env : Env}

/-- For a registration whose key and signature are valid. -/
theorem register_unchanged_iff (hcap : HashMap.size s.registry ≤ maxRegistrations)
    (hvalid : C.validKey verifyKeyBytes = true) (hid : C.sha256 verifyKeyBytes.toList = deviceId)
    (hsig : signed C verifyKeyBytes (registerPayload deviceId verifyKeyBytes timestamp)
      signatureBytes = true) :
    Unchanged s (handleRegister C env deviceId verifyKeyBytes timestamp signatureBytes peerAddr s).2 ↔
      RegisterInert s (env.clock 0) deviceId verifyKeyBytes timestamp peerAddr := by
  rcases handleRegister_cases env deviceId verifyKeyBytes timestamp signatureBytes peerAddr with
    ⟨hno, e, h⟩ | ⟨hauth, ⟨hfull, h⟩ | ⟨hroom, h⟩⟩
  · rw [h]
    refine iff_of_true (unchanged_refl s) (Or.inl (UInt64.not_le.mp fun hw => ?_))
    exact hno ⟨hw, hvalid, hid, hsig⟩
  · have hsize := hfull.trans (size_evicted_le _ _)
    rw [h, unchanged_registry_iff]
    simp only [lookup_evicted_eq_self_iff]
    constructor
    · exact fun hkept => Or.inr (Or.inl ⟨hsize, fun d => hkept d hsize⟩)
    · rintro (hlate | ⟨-, hkept⟩ | ⟨-, hother⟩) d - ctx hl
      · exact absurd hauth.window (UInt64.not_le.mpr hlate)
      · exact hkept d ctx hl
      · rcases em (d = deviceId) with rfl | hd
        · -- an eviction would have made room
          unfold evicted at hfull
          rw [if_pos hsize] at hfull
          exact HashMap.retained_of_size_le (hcap.trans hfull) hl
        · exact hother d ctx hd hsize hl
  · rw [h, unchanged_registry_iff, HashMap.lookup_insert_eq_self_iff]
    simp only [lookup_evicted_eq_self_iff]
    constructor
    · exact fun ⟨hother, hown⟩ => Or.inr (Or.inr ⟨hown, fun d ctx hd hsize => hother d hd hsize ctx⟩)
    · rintro (hlate | ⟨hsize, hkept⟩ | ⟨hown, hother⟩)
      · exact absurd hauth.window (UInt64.not_le.mpr hlate)
      · unfold evicted at hroom
        rw [if_pos hsize, HashMap.retain_eq_self hkept] at hroom
        exact absurd hsize (Nat.not_le.mpr hroom)
      · exact ⟨fun d hd hsize ctx => hother d ctx hd hsize, hown⟩

theorem lookup_pruned_eq_self_iff (now : UInt64) (intents : RendezvousRegistry) (j : IntentId) :
    (RendezvousRegistry.pruned now intents).lookup j = intents.lookup j ↔
      ∀ i, intents.lookup j = some i → i.retained now = true :=
  HashMap.lookup_retain_eq_self_iff _ _ _

theorem connect_unchanged_iff (hcap : HashMap.size s.rendezvous ≤ maxIntents) :
    Unchanged s (handleConnectIntent C env initiator target intentId candidates timestamp
        signatureBytes s).2 ↔
      ConnectInert C s env initiator target intentId candidates timestamp signatureBytes := by
  rcases handleConnectIntent_cases (C := C) (s := s) env initiator target intentId candidates timestamp
    signatureBytes with ⟨hno, r, h, -⟩ | ⟨id, rfl, hauth, h⟩
  · rw [h]
    exact iff_of_true (unchanged_refl s) fun id hid hauth => absurd hauth (hno id hid)
  rw [h, unchanged_intents_iff]
  rcases registerIntent_cases (env.clock 1) id initiator target candidates s.rendezvous with
    ⟨hfull, hr⟩ | ⟨-, hdup, hr⟩ | ⟨hroom, hnew, hr⟩
  · rw [hr]
    simp only [lookup_pruned_eq_self_iff]
    constructor
    · intro hkept id' hid' _
      exact Or.inl ⟨hkept, Or.inl (hfull.trans (HashMap.size_retain_le _ _))⟩
    · intro hinert j i hl
      rcases hinert id rfl hauth with ⟨hkept, -⟩ | ⟨-, hother⟩
      · exact hkept j i hl
      · rcases em (j = id) with rfl | hj
        · -- a pruned intent would have made room
          exact HashMap.retained_of_size_le (hcap.trans hfull) hl
        · exact hother j i hj hl
  · rw [hr]
    obtain ⟨i, hi, hpending⟩ := (Option.any_eq_true _ _).mp hdup
    rw [lookup_pruned, Option.filter_eq_some_iff] at hi
    simp only [lookup_pruned_eq_self_iff]
    constructor
    · intro hkept id' hid' _
      cases Bytes.toList_injective hid'
      exact Or.inl ⟨hkept, Or.inr ((Option.any_eq_true _ _).mpr ⟨i, hi.1, hpending⟩)⟩
    · intro hinert j i' hl
      rcases hinert id rfl hauth with ⟨hkept, -⟩ | ⟨-, hother⟩
      · exact hkept j i' hl
      · rcases em (j = id) with rfl | hj
        · cases hi.1.symm.trans hl
          exact hi.2
        · exact hother j i' hj hl
  · rw [hr, HashMap.lookup_insert_eq_self_iff]
    simp only [lookup_pruned_eq_self_iff]
    constructor
    · rintro ⟨hother, hown⟩ id' hid' _
      cases Bytes.toList_injective hid'
      exact Or.inr ⟨hown, fun j i hj => hother j hj i⟩
    · intro hinert
      rcases hinert id rfl hauth with ⟨hkept, hrefused⟩ | ⟨hown, hother⟩
      · unfold RendezvousRegistry.pruned at hroom hnew
        rw [HashMap.retain_eq_self hkept] at hroom hnew
        rcases hrefused with hsize | hdup
        · exact absurd hsize (Nat.not_le.mpr hroom)
        · cases hnew.symm.trans hdup
      · exact ⟨fun j hj i => hother j i hj, hown⟩

theorem state_of_unchanged {s' : RelayServer} {id : IntentId} {intent intent' : PendingIntent}
    (hsame : Unchanged s s') (hfound : s.rendezvous.lookup id = some intent)
    (hfound' : s'.rendezvous.lookup id = some intent') : intent.state = intent'.state := by
  have hlookup : s.rendezvous.lookup id = some intent' := (hsame.intents id).symm.trans hfound'
  cases hfound.symm.trans hlookup
  rfl

theorem accept_unchanged_iff :
    Unchanged s (handleAcceptConnect C env acceptor intentId candidates timestamp signatureBytes s).2 ↔
      AcceptInert C s env acceptor intentId candidates timestamp signatureBytes := by
  rcases handleAcceptConnect_cases (C := C) (s := s) env acceptor intentId candidates timestamp
    signatureBytes with ⟨hno, e, h⟩ | ⟨id, intent, rfl, hauth, hcases⟩
  · rw [h]
    exact iff_of_true (unchanged_refl s) fun id intent _ hid hauth => absurd hauth (hno id intent hid)
  have hinert : AcceptInert C s env acceptor id.toList candidates timestamp signatureBytes ↔
      ∀ createdAt, intent.state = .pending createdAt →
        saturatingSub (env.clock 1) createdAt ≤ intentTimeoutMs ∧
          (intent.target = acceptor → env.random = none ∧ intent.targetCandidates = candidates) := by
    constructor
    · exact fun hi createdAt hst => hi id intent createdAt rfl hauth hst
    · intro hi id' intent' createdAt hid' hauth' hst
      cases Bytes.toList_injective hid'
      cases hauth.found.symm.trans hauth'.found
      exact hi createdAt hst
  rw [hinert]
  rcases hcases with ⟨hdead, e, h⟩ | ⟨createdAt, hst, hcases⟩
  · rw [h]
    refine iff_of_true (unchanged_refl s) fun createdAt hst => ?_
    exact ⟨(hdead createdAt hst).1, fun ht => absurd ht (hdead createdAt hst).2⟩
  rcases hcases with
    ⟨hlate, e, h⟩ | ⟨htime, ht, ⟨hrand, e, h⟩ | ⟨relayToken, hrand, r, forwarding, h, -⟩⟩
  · -- a late acceptance expires the intent
    rw [h]
    refine iff_of_false (fun hsame => ?_) fun hi => ?_
    · cases hst.symm.trans (state_of_unchanged hsame hauth.found (AList.lookup_insert _))
    · exact absurd (hi createdAt hst).1 (UInt64.not_le.mpr hlate)
  · -- without randomness only the candidates are written
    rw [h, unchanged_intents_iff, HashMap.lookup_insert_eq_self_iff]
    constructor
    · rintro ⟨-, hl⟩ createdAt' hst'
      cases hst.symm.trans hst'
      refine ⟨htime, fun _ => ⟨hrand, ?_⟩⟩
      exact congrArg PendingIntent.targetCandidates (Option.some.inj (hauth.found.symm.trans hl))
    · intro hi
      obtain ⟨-, hcands⟩ := (hi createdAt hst).2 ht
      refine ⟨fun _ _ => rfl, ?_⟩
      rw [hauth.found, ← hcands]
  · -- an acceptance leaves no pending intent
    rw [h]
    refine iff_of_false (fun hsame => ?_) fun hi => ?_
    · cases hst.symm.trans (state_of_unchanged hsame hauth.found (AList.lookup_insert _))
    · cases hrand.symm.trans ((hi createdAt hst).2 ht).1

variable {ctx : ForwardingContext}

/-- Binding addresses to a live context leaves it as it is exactly when they are bound already and
the context was active at this moment. -/
theorem bound_eq_iff {now : UInt64} {ctx' : ForwardingContext} (hstaged : ctx.Staged)
    (hlive : ctx.state.isTerminal = false) (hstate : ctx'.state = ctx.state)
    (hactive : ctx'.lastActiveMs = ctx.lastActiveMs)
    (hsome : ctx'.initiator.addr.isSome = true ∨ ctx'.target.addr.isSome = true) :
    ctx'.bound now = ctx ↔ ctx' = ctx ∧ ctx.lastActiveMs = now := by
  constructor
  · intro h
    have hnow : ctx.lastActiveMs = now := by
      rw [← h]
      rfl
    refine ⟨?_, hnow⟩
    calc ctx' = { ctx'.bound now with lastActiveMs := ctx'.lastActiveMs, state := ctx'.state } := rfl
      _ = ctx := by rw [h, hstate, hactive]
  · rintro ⟨rfl, hnow⟩
    have hbound : (ctx'.bound now).state = ctx'.stage := by
      refine bound_staged now hsome ?_
      unfold ForwardingContext.bound
      dsimp only
      split <;> rfl
    calc ctx'.bound now = { ctx' with lastActiveMs := now, state := (ctx'.bound now).state } := rfl
      _ = ctx' := by rw [hbound, ← hstaged hlive, ← hnow]

theorem set_initiator_eq_iff {addr : SocketAddr} :
    { ctx with initiator := { ctx.initiator with addr := some addr } } = ctx ↔
      ctx.initiator.addr = some addr := by
  constructor
  · intro h
    rw [← h]
  · intro h
    rw [← h]

theorem set_target_eq_iff {addr : SocketAddr} :
    { ctx with target := { ctx.target with addr := some addr } } = ctx ↔
      ctx.target.addr = some addr := by
  constructor
  · intro h
    rw [← h]
  · intro h
    rw [← h]

/-- Binding an address leaves a context as it is exactly when it is dead, or in time and already
bound so. -/
theorem bind_eq_self_iff (now : UInt64) (deviceId : DeviceId) (addr : SocketAddr)
    (hstaged : ctx.Staged) :
    (ForwardingContext.bind now deviceId addr ctx).2 = ctx ↔
      (ctx.state.isTerminal = false → ¬ ctx.Overdue now ∧
        (ctx.initiator.deviceId = deviceId →
          ctx.initiator.addr = some addr ∧ ctx.lastActiveMs = now) ∧
        (ctx.initiator.deviceId ≠ deviceId → ctx.target.deviceId = deviceId →
          ctx.target.addr = some addr ∧ ctx.lastActiveMs = now)) := by
  rcases bind_cases now deviceId addr ctx with
    ⟨hdead, e, h⟩ | ⟨hlive, hlate, e, h⟩ | ⟨hlive, htime, hd, h⟩ | ⟨hlive, htime, hd, ht, h⟩
  · rw [h]
    refine iff_of_true rfl fun hlive => ?_
    rcases hdead with hterm | ⟨htime, hi, ht⟩
    · cases hterm.symm.trans hlive
    · exact ⟨htime, fun hd => absurd hd hi, fun _ hd => absurd hd ht⟩
  · rw [h]
    refine iff_of_false (fun heq => ?_) fun hi => (hi hlive).1 hlate
    have hstate : ctx.state = .relayExpired := by rw [← heq]
    rw [hstate] at hlive
    cases hlive
  · rw [h]
    refine Iff.trans (bound_eq_iff hstaged hlive rfl rfl (Or.inl rfl)) ?_
    rw [set_initiator_eq_iff]
    constructor
    · exact fun hown _ => ⟨htime, fun _ => hown, fun hne => absurd hd hne⟩
    · exact fun hi => (hi hlive).2.1 hd
  · rw [h]
    refine Iff.trans (bound_eq_iff hstaged hlive rfl rfl (Or.inr rfl)) ?_
    rw [set_target_eq_iff]
    constructor
    · exact fun hown _ => ⟨htime, fun heq => absurd heq hd, fun _ _ => hown⟩
    · exact fun hi => (hi hlive).2.2 hd ht

theorem establish_unchanged_iff (hstaged : Staged s.forwarding) :
    Unchanged s (handleRelayEstablish C env intentId deviceId timestamp signatureBytes peerAddr s).2 ↔
      EstablishInert C s env intentId deviceId timestamp signatureBytes peerAddr := by
  rcases handleRelayEstablish_cases (C := C) (s := s) env intentId deviceId timestamp signatureBytes
    peerAddr with ⟨hno, e, h⟩ | ⟨id, addr, rfl, rfl, hauth, h⟩
  · rw [h]
    exact iff_of_true (unchanged_refl s)
      fun id addr _ hid haddr hauth => absurd hauth (hno id addr hid haddr)
  rw [h, unchanged_contexts_iff, ForwardingTable.updateBinding, forall_iff_at id]
  have hother : ∀ j, j ≠ id → (ForwardingTable.onContext id "Forwarding session not found"
      (ForwardingContext.bind (env.clock 1) deviceId addr) s.forwarding).2.contexts.lookup j =
      s.forwarding.contexts.lookup j := by
    intro j hj
    rw [onContext_lookup, if_neg hj]
  rw [and_iff_right hother, onContext_lookup, if_pos rfl]
  cases hl : s.forwarding.contexts.lookup id with
  | none =>
    refine iff_of_true rfl fun id' _ ctx hid' _ _ hctx => ?_
    cases Bytes.toList_injective hid'
    cases hl.symm.trans hctx
  | some ctx =>
    rw [Option.map_some, Option.some_inj, bind_eq_self_iff _ _ _ (hstaged id ctx hl)]
    constructor
    · intro hi id' addr' ctx' hid' haddr' _ hctx'
      cases Bytes.toList_injective hid'
      cases haddr'
      cases hl.symm.trans hctx'
      exact hi
    · exact fun hi => hi id addr ctx rfl rfl hauth hl

/-- A processed registration had a valid key, hashing to its device, and a valid signature. -/
theorem registered_of_processed {ops : List Op} {rateLimitBytesPerSec sessionExpiryMs : UInt64}
    (hp : Processed (relayRun C rateLimitBytesPerSec sessionExpiryMs ops)
      (.registerRequest deviceId verifyKeyBytes timestamp signatureBytes)) :
    C.validKey verifyKeyBytes = true ∧ C.sha256 verifyKeyBytes.toList = deviceId ∧
      signed C verifyKeyBytes (registerPayload deviceId verifyKeyBytes timestamp)
        signatureBytes = true := by
  obtain ⟨e, he, peerAddr, env, response, hin, hout, -⟩ := hp
  rw [out_eq_of_mem_run he, hin] at hout
  have hok : (handleRegister C env deviceId verifyKeyBytes timestamp signatureBytes peerAddr
      e.pre).1 = .ok response := Reply.response.inj hout
  rcases handleRegister_cases env deviceId verifyKeyBytes timestamp signatureBytes peerAddr with
    ⟨-, err, h⟩ | ⟨hauth, -⟩
  · rw [h] at hok
    cases hok
  · exact ⟨hauth.validKey, hauth.identity, hauth.signature⟩

end ReplayLemmas

open ReplayLemmas ServerLemmas in
/-- In every reachable state, processing a copy of a message that was processed before changes no
registry entry, no intent and no context exactly when the copy is inert in that state. -/
theorem replay_unchanged_iff (C : RelayCrypto) (rateLimitBytesPerSec sessionExpiryMs : UInt64)
    (ops : List Op) (message : RelayMessage)
    (hp : Processed (relayRun C rateLimitBytesPerSec sessionExpiryMs ops) message)
    (peerAddr : Option SocketAddr) (env : Env) :
    Unchanged (relayAfter C rateLimitBytesPerSec sessionExpiryMs ops)
        (step C (relayAfter C rateLimitBytesPerSec sessionExpiryMs ops)
          (.message message peerAddr env)).2 ↔
      ReplayInert C (relayAfter C rateLimitBytesPerSec sessionExpiryMs ops) message peerAddr env := by
  have hcap := reachable_withinCapacity C rateLimitBytesPerSec sessionExpiryMs ops
  have hstaged := reachable_staged C rateLimitBytesPerSec sessionExpiryMs ops
  cases message with
  | registerRequest =>
    obtain ⟨hvalid, hid, hsig⟩ := registered_of_processed hp
    exact register_unchanged_iff hcap.registry hvalid hid hsig
  | connectIntent => exact connect_unchanged_iff hcap.intents
  | acceptConnect => exact accept_unchanged_iff
  | relayEstablishRequest => exact establish_unchanged_iff hstaged
  | getCandidates requester intentId =>
    refine iff_of_true ?_ trivial
    show Unchanged _ (handleGetCandidates requester intentId _).2
    rw [handleGetCandidates_state]
    exact unchanged_refl _
  | pollPendingIntents deviceId =>
    refine iff_of_true ?_ trivial
    show Unchanged _ (handlePollPendingIntents env deviceId _).2
    rw [handlePollPendingIntents_state]
    exact unchanged_refl _
  | _ => exact iff_of_true (unchanged_refl _) trivial

/-- After a rendezvous, a copy of the acceptance changes nothing. -/
theorem replayed_accept_unchanged :
    Processed (relayRun .plain rateLimitBytesPerSec sessionExpiryMs
        (plainPairing 1 2 (Bytes.fill 16 7) (Bytes.fill 32 9) 5000))
      ((plainClient 2).request (.acceptConnect (Bytes.fill 16 7) (plainClient 1).deviceId [] 5000)) ∧
    Unchanged (relayAfter .plain rateLimitBytesPerSec sessionExpiryMs
        (plainPairing 1 2 (Bytes.fill 16 7) (Bytes.fill 32 9) 5000))
      (step .plain (relayAfter .plain rateLimitBytesPerSec sessionExpiryMs
          (plainPairing 1 2 (Bytes.fill 16 7) (Bytes.fill 32 9) 5000))
        (.message ((plainClient 2).request
            (.acceptConnect (Bytes.fill 16 7) (plainClient 1).deviceId [] 5000))
          (some (.v4 (Bytes.fill 4 66) 6666)) (.at 6000 (some (Bytes.fill 32 11))))).2 := by
  have hp : Processed (relayRun .plain rateLimitBytesPerSec sessionExpiryMs
        (plainPairing 1 2 (Bytes.fill 16 7) (Bytes.fill 32 9) 5000))
      ((plainClient 2).request (.acceptConnect (Bytes.fill 16 7) (plainClient 1).deviceId
        [] 5000)) := by
    refine ⟨_, List.getLast_mem (by decide +kernel), none, .at 5000 (some (Bytes.fill 32 9)),
      .candidateExchange (Bytes.fill 16 7).toList [] (Bytes.fill 32 9), rfl, by decide +kernel, ?_⟩
    exact fun _ _ h => nomatch h
  refine ⟨hp, (replay_unchanged_iff .plain rateLimitBytesPerSec sessionExpiryMs _ _ hp _ _).mpr ?_⟩
  intro id intent createdAt hid hauth hst
  cases Bytes.toList_injective hid
  have haccepted : ((relayAfter .plain rateLimitBytesPerSec sessionExpiryMs
      (plainPairing 1 2 (Bytes.fill 16 7) (Bytes.fill 32 9) 5000)).rendezvous.lookup
        (Bytes.fill 16 7)).map PendingIntent.state = some (.accepted (Bytes.fill 32 9)) := by
    decide +kernel
  rw [hauth.found, Option.map_some, hst] at haccepted
  cases haccepted

/-- A rendezvous after which the initiator binds its address. -/
def establishRun : List Op :=
  plainPairing 1 2 (Bytes.fill 16 7) (Bytes.fill 32 9) 5000 ++
    [.message ((plainClient 1).request (.establishRelay (Bytes.fill 16 7) 5000))
      (some (.v4 (Bytes.fill 4 1) 1111)) (.at 5000 none)]

/-- The state after a copy of the initiator's request was sent from another address. -/
def afterEstablishReplay : RelayServer :=
  (step .plain (relayAfter .plain rateLimitBytesPerSec sessionExpiryMs establishRun)
    (.message ((plainClient 1).request (.establishRelay (Bytes.fill 16 7) 5000))
      (some (.v4 (Bytes.fill 4 66) 6666)) (.at 6000 none))).2

/-- A copy of the request to bind an address, sent from another address within the window, moves
the binding there. -/
theorem replayed_establish_moves_binding :
    Processed (relayRun .plain rateLimitBytesPerSec sessionExpiryMs establishRun)
      ((plainClient 1).request (.establishRelay (Bytes.fill 16 7) 5000)) ∧
    ((relayAfter .plain rateLimitBytesPerSec sessionExpiryMs
        establishRun).forwarding.contexts.lookup (Bytes.fill 16 7)).map
        (fun ctx => ctx.initiator.addr) =
      some (some (.v4 (Bytes.fill 4 1) 1111)) ∧
    (afterEstablishReplay.forwarding.contexts.lookup (Bytes.fill 16 7)).map
        (fun ctx => ctx.initiator.addr) =
      some (some (.v4 (Bytes.fill 4 66) 6666)) ∧
    ¬ Unchanged (relayAfter .plain rateLimitBytesPerSec sessionExpiryMs establishRun)
      afterEstablishReplay := by
  have hbefore : ((relayAfter .plain rateLimitBytesPerSec sessionExpiryMs
      establishRun).forwarding.contexts.lookup (Bytes.fill 16 7)).map
        (fun ctx => ctx.initiator.addr) = some (some (.v4 (Bytes.fill 4 1) 1111)) := by
    decide +kernel
  have hafter : (afterEstablishReplay.forwarding.contexts.lookup (Bytes.fill 16 7)).map
      (fun ctx => ctx.initiator.addr) = some (some (.v4 (Bytes.fill 4 66) 6666)) := by
    decide +kernel
  refine ⟨?_, hbefore, hafter, fun hsame => ?_⟩
  · rw [establishRun, relayRun_snoc]
    refine ⟨_, List.mem_append_right _ (List.mem_singleton.mpr rfl), _, _,
      .relayEstablishAck (Bytes.fill 16 7).toList, rfl, by decide +kernel, ?_⟩
    exact fun _ _ h => nomatch h
  · rw [hsame.contexts, hbefore] at hafter
    exact absurd hafter (by decide +kernel)

end Blackwing.Relay

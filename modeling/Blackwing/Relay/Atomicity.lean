import Blackwing.Relay.Invariants

/-!
# Rejected messages

What `handle_message_from` leaves behind when it returns an error. Two of its error exits come
after a write to an entry that is not past its timeout: `accept_intent` stores the candidates
of the target before it asks the operating system for a token, and `register_intent` prunes
with a cut-off that saturates at zero before it refuses a duplicate id.

* `ExceptTimeouts`: a store as it was, but for entries past their own timeout.
* `AsBefore`: the four stores of the relay as they were.
* `rejection_atomic_iff`: in every reachable state, a rejection is atomic exactly if it is
  neither of the two.
-/

namespace Blackwing.Relay

open RelayServer

/-- Every entry is as it was, or it was past its timeout and has been removed or marked. -/
def ExceptTimeouts {K V : Type} [DecidableEq K] (past : V → Prop) (mark : V → V)
    (before after : HashMap K V) : Prop :=
  ∀ k, after.lookup k = before.lookup k ∨
    ∃ v, before.lookup k = some v ∧ past v ∧ (after.lookup k = none ∨ after.lookup k = some (mark v))

/-- A registration is past `STALE_REGISTRATION_MS`. -/
def ClientContext.PastTimeout (now : UInt64) (ctx : ClientContext) : Prop :=
  ctx.lastSeen.toNat + staleRegistrationMs.toNat ≤ now.toNat

/-- A `Pending` intent is past `INTENT_TIMEOUT_MS`. -/
def PendingIntent.PastTimeout (now : UInt64) (i : PendingIntent) : Prop :=
  ∃ createdAt, i.state = .pending createdAt ∧ createdAt.toNat + intentTimeoutMs.toNat ≤ now.toNat

/-- The stores after a call that read the clock of `env` are as they were before. -/
structure AsBefore (env : Env) (s s' : RelayServer) : Prop where
  registry : ExceptTimeouts (ClientContext.PastTimeout (env.clock 0)) id s.registry s'.registry
  intents : ExceptTimeouts (PendingIntent.PastTimeout (env.clock 1))
    (fun i => { i with state := .expired }) s.rendezvous s'.rendezvous
  contexts : ExceptTimeouts (ForwardingContext.Overdue (env.clock 1))
    (fun ctx => { ctx with state := .relayExpired }) s.forwarding.contexts s'.forwarding.contexts
  tokenIndex : ExceptTimeouts
    (fun id => ∃ ctx, s.forwarding.contexts.lookup id = some ctx ∧ ctx.Overdue (env.clock 1)) id
    s.forwarding.tokenIndex s'.forwarding.tokenIndex

/-- The rejections that are not atomic. -/
def Tears (C : RelayCrypto) (s : RelayServer) (env : Env) : RelayMessage → Prop
  -- the acceptance of a live intent with new candidates, when the random source fails
  | .acceptConnect acceptor intentId candidates timestamp signatureBytes =>
    env.random = none ∧ ∃ (id : IntentId) (intent : PendingIntent) (createdAt : UInt64),
      intentId = id.toList ∧
      AcceptAuth C s (env.clock 0) acceptor id timestamp signatureBytes intent ∧
      intent.state = .pending createdAt ∧
      saturatingSub (env.clock 1) createdAt ≤ intentTimeoutMs ∧ intent.target = acceptor ∧
      intent.targetCandidates ≠ candidates
  -- a duplicate id in the first thirty seconds of the clock, with an intent created at zero
  | .connectIntent initiator target intentId _ timestamp signatureBytes =>
    env.clock 1 < intentTimeoutMs ∧ ∃ id : IntentId, intentId = id.toList ∧
      ConnectAuth C s (env.clock 0) initiator target id timestamp signatureBytes ∧
      (∃ intent createdAt, s.rendezvous.lookup id = some intent ∧ intent.state = .pending createdAt ∧
        0 < createdAt) ∧
      ∃ id' intent, s.rendezvous.lookup id' = some intent ∧ intent.state = .pending 0
  | _ => False

namespace AtomicityLemmas

open ServerLemmas RendezvousLemmas ForwardingLemmas

section ExceptTimeouts

variable {K V : Type} [DecidableEq K] {past : V → Prop} {mark : V → V} {m : HashMap K V}

theorem exceptTimeouts_refl : ExceptTimeouts past mark m m := fun _ => Or.inl rfl

/-- Marking an entry that is past its timeout. -/
theorem exceptTimeouts_mark {a : K} {v : V} (hl : m.lookup a = some v) (hpast : past v) :
    ExceptTimeouts past mark m (m.insert a (mark v)) := by
  intro k
  rw [HashMap.lookup_insert_eq]
  split
  · next hk => exact Or.inr ⟨v, hk ▸ hl, hpast, Or.inr rfl⟩
  · exact Or.inl rfl

/-- Writing an entry back. -/
theorem exceptTimeouts_same {a : K} {v : V} (hl : m.lookup a = some v) :
    ExceptTimeouts past mark m (m.insert a v) := by
  intro k
  rw [HashMap.lookup_insert_eq]
  split
  · next hk => exact Or.inl (hk ▸ hl.symm)
  · exact Or.inl rfl

/-- A write to one entry leaves it as it was or marks it. -/
theorem exceptTimeouts_write {a : K} {v w : V} (hl : m.lookup a = some v)
    (h : ExceptTimeouts past mark m (m.insert a w)) : w = v ∨ w = mark v := by
  rcases h a with hsame | ⟨v', hv, -, hnone | hmark⟩
  · rw [AList.lookup_insert, hl] at hsame
    exact Or.inl (Option.some.inj hsame)
  · rw [AList.lookup_insert] at hnone
    cases hnone
  · rw [AList.lookup_insert] at hmark
    cases hl.symm.trans hv
    exact Or.inr (Option.some.inj hmark)

/-- A `retain` removes entries that are past their timeout only if all it removes are. -/
theorem exceptTimeouts_retain_iff {p : K → V → Bool} :
    ExceptTimeouts past mark m (HashMap.retain p m) ↔
      ∀ k v, m.lookup k = some v → p k v = false → past v := by
  constructor
  · intro h k v hl hp
    have hnone : (HashMap.retain p m).lookup k = none := by
      rw [HashMap.lookup_retain, hl, Option.filter_some, hp]
      rfl
    rcases h k with hsame | ⟨w, hw, hpast, -⟩
    · rw [hnone, hl] at hsame
      cases hsame
    · cases hl.symm.trans hw
      exact hpast
  · intro h k
    rw [HashMap.lookup_retain]
    cases hl : m.lookup k with
    | none => exact Or.inl rfl
    | some v =>
      rw [Option.filter_some]
      cases hp : p k v with
      | true => exact Or.inl rfl
      | false => exact Or.inr ⟨v, rfl, h k v hl hp, Or.inl rfl⟩

end ExceptTimeouts

variable {C : RelayCrypto} {s s' : RelayServer} {env : Env}

theorem asBefore_refl : AsBefore env s s :=
  ⟨exceptTimeouts_refl, exceptTimeouts_refl, exceptTimeouts_refl, exceptTimeouts_refl⟩

variable {intents : RendezvousRegistry} {now : UInt64} {i : PendingIntent}

theorem asBefore_rendezvous :
    AsBefore env s { s with rendezvous := intents } ↔
      ExceptTimeouts (PendingIntent.PastTimeout (env.clock 1))
        (fun i => { i with state := .expired }) s.rendezvous intents :=
  ⟨fun h => h.intents,
    fun h => ⟨exceptTimeouts_refl, h, exceptTimeouts_refl, exceptTimeouts_refl⟩⟩

/-! ## The handlers -/

variable {deviceId initiator target acceptor : DeviceId} {verifyKeyBytes : Bytes 32}
  {intentId : List UInt8} {candidates : List Candidate} {timestamp : UInt64}
  {signatureBytes : List UInt8} {peerAddr : Option SocketAddr} {e : RelayError}

/-- A registration that fails at capacity has evicted nothing. -/
theorem register_asBefore (hs : WithinCapacity s)
    (herr : (handleRegister C env deviceId verifyKeyBytes timestamp signatureBytes peerAddr s).1 =
      .err e) :
    AsBefore env s
      (handleRegister C env deviceId verifyKeyBytes timestamp signatureBytes peerAddr s).2 := by
  rcases handleRegister_cases env deviceId verifyKeyBytes timestamp signatureBytes peerAddr with
    ⟨-, _, h⟩ | ⟨-, ⟨hfull, h⟩ | ⟨-, h⟩⟩
  · rw [h]
    exact asBefore_refl
  · have hsame : evicted (env.clock 0) s.registry = s.registry := by
      have hsize := Nat.le_trans hs.registry hfull
      unfold evicted at hsize ⊢
      split
      · next hge =>
        rw [if_pos hge] at hsize
        exact HashMap.retain_eq_self fun _ _ hl => HashMap.retained_of_size_le hsize hl
      · rfl
    rw [h, hsame]
    exact ⟨exceptTimeouts_refl, exceptTimeouts_refl, exceptTimeouts_refl, exceptTimeouts_refl⟩
  · rw [h] at herr
    cases herr

theorem establish_asBefore
    (herr : (handleRelayEstablish C env intentId deviceId timestamp signatureBytes peerAddr s).1 =
      .err e) :
    AsBefore env s
      (handleRelayEstablish C env intentId deviceId timestamp signatureBytes peerAddr s).2 := by
  rcases handleRelayEstablish_cases env intentId deviceId timestamp signatureBytes peerAddr with
    ⟨-, _, h⟩ | ⟨id, addr, -, -, -, h⟩
  · rw [h]
    exact asBefore_refl
  · rw [h] at herr ⊢
    revert herr
    unfold ForwardingTable.updateBinding ForwardingTable.onContext
    cases hl : s.forwarding.contexts.lookup id with
    | none => exact fun _ => asBefore_refl
    | some ctx =>
      dsimp only
      rcases bind_cases (env.clock 1) deviceId addr ctx with
        ⟨-, _, hbind⟩ | ⟨-, hlate, _, hbind⟩ | ⟨-, -, -, hbind⟩ | ⟨-, -, -, -, hbind⟩
      · rw [hbind]
        exact fun _ => ⟨exceptTimeouts_refl, exceptTimeouts_refl, exceptTimeouts_same hl,
          exceptTimeouts_refl⟩
      · rw [hbind]
        exact fun _ => ⟨exceptTimeouts_refl, exceptTimeouts_refl, exceptTimeouts_mark hl hlate,
          exceptTimeouts_refl⟩
      · rw [hbind]
        exact fun herr => nomatch herr
      · rw [hbind]
        exact fun herr => nomatch herr

/-- An acceptance that fails is atomic unless it stored new candidates. -/
theorem accept_asBefore_iff :
    (∀ e, (handleAcceptConnect C env acceptor intentId candidates timestamp signatureBytes s).1 =
        .err e →
      AsBefore env s
        (handleAcceptConnect C env acceptor intentId candidates timestamp signatureBytes s).2) ↔
      ¬ Tears C s env (.acceptConnect acceptor intentId candidates timestamp signatureBytes) := by
  rcases handleAcceptConnect_cases (C := C) (s := s) env acceptor intentId candidates timestamp
    signatureBytes with
    ⟨hno, e, h⟩ | ⟨id, intent, rfl, hauth, ⟨hno, e, h⟩ | ⟨createdAt, hst, ⟨hlate, e, h⟩ |
      ⟨htime, ht, ⟨hrand, e, h⟩ | ⟨relayToken, hrand, r, forwarding, h, hf⟩⟩⟩⟩
  · rw [h]
    refine iff_of_true (fun _ _ => asBefore_refl) ?_
    rintro ⟨-, id, intent, _, hid, hauth, -⟩
    exact hno id intent hid hauth
  · rw [h]
    refine iff_of_true (fun _ _ => asBefore_refl) ?_
    rintro ⟨-, id', intent', createdAt, hid, hauth', hst, -, ht, -⟩
    cases Bytes.toList_injective hid
    cases hauth.found.symm.trans hauth'.found
    exact (hno createdAt hst).2 ht
  · rw [h]
    refine iff_of_true (fun _ _ => ?_) ?_
    · refine asBefore_rendezvous.mpr (exceptTimeouts_mark hauth.found ⟨createdAt, hst, ?_⟩)
      rw [UInt64.lt_iff_toNat_lt, toNat_saturatingSub] at hlate
      omega
    · rintro ⟨-, id', intent', createdAt', hid, hauth', hst', htime, -⟩
      cases Bytes.toList_injective hid
      cases hauth.found.symm.trans hauth'.found
      cases hst.symm.trans hst'
      exact UInt64.not_le.mpr hlate htime
  · rw [h]
    by_cases hsame : intent.targetCandidates = candidates
    · refine iff_of_true (fun _ _ => ?_) ?_
      · subst hsame
        exact asBefore_rendezvous.mpr (exceptTimeouts_same hauth.found)
      · rintro ⟨-, id', intent', _, hid, hauth', -, -, -, hne⟩
        cases Bytes.toList_injective hid
        cases hauth.found.symm.trans hauth'.found
        exact hne hsame
    · refine iff_of_false (fun hatomic => ?_) (not_not_intro
        ⟨hrand, id, intent, createdAt, rfl, hauth, hst, htime, ht, hsame⟩)
      rcases exceptTimeouts_write hauth.found (asBefore_rendezvous.mp (hatomic e rfl)) with heq | heq
      · exact hsame (congrArg PendingIntent.targetCandidates heq).symm
      · have hexpired : intent.state = .expired := congrArg PendingIntent.state heq
        cases hst.symm.trans hexpired
  · rw [h]
    refine iff_of_true (fun e herr => ?_) ?_
    · rcases hf with ⟨-, rfl, -⟩ | ⟨rfl, -⟩
      · cases herr
      · cases herr
    · rintro ⟨hnone, -⟩
      cases hrand.symm.trans hnone

theorem not_retained_iff_pending :
    i.retained now = false ↔
      ∃ createdAt, i.state = .pending createdAt ∧ createdAt ≤ saturatingSub now intentTimeoutMs := by
  unfold PendingIntent.retained
  cases i.state with
  | pending createdAt => simp
  | accepted token => simp
  | expired => simp

theorem pending_of_retained (hp : i.isPending = true) (hr : i.retained now = true) :
    ∃ createdAt, i.state = .pending createdAt ∧ 0 < createdAt := by
  unfold PendingIntent.isPending at hp
  unfold PendingIntent.retained at hr
  cases hst : i.state with
  | pending createdAt =>
    refine ⟨createdAt, rfl, ?_⟩
    simp only [hst, decide_eq_true_eq, gt_iff_lt] at hr
    exact UInt64.lt_of_le_of_lt UInt64.zero_le hr
  | accepted token => simp [hst] at hp
  | expired => simp [hst] at hp

/-- Pruning removes an intent before its timeout exactly if the cut-off saturates. -/
theorem pruned_past_iff :
    (∀ id i, intents.lookup id = some i → i.retained now = false → i.PastTimeout now) ↔
      ¬ (now < intentTimeoutMs ∧ ∃ id i, intents.lookup id = some i ∧ i.state = .pending 0) := by
  constructor
  · rintro h ⟨hearly, id, i, hl, hst⟩
    obtain ⟨createdAt, hst', hpast⟩ := h id i hl
      (not_retained_iff_pending.mpr ⟨0, hst, UInt64.zero_le⟩)
    rw [UInt64.lt_iff_toNat_lt] at hearly
    omega
  · intro h id i hl hr
    obtain ⟨createdAt, hst, hle⟩ := not_retained_iff_pending.mp hr
    refine ⟨createdAt, hst, ?_⟩
    rcases UInt64.lt_or_le now intentTimeoutMs with hearly | hlate
    · -- the cut-off is zero, and so is the creation time
      rw [UInt64.lt_iff_toNat_lt] at hearly
      rw [UInt64.le_iff_toNat_le, toNat_saturatingSub] at hle
      have hzero : createdAt = 0 := UInt64.toNat_inj.mp (by rw [UInt64.toNat_zero]; omega)
      exact absurd ⟨UInt64.lt_iff_toNat_lt.mpr hearly, id, i, hl, hzero ▸ hst⟩ h
    · rw [UInt64.le_iff_toNat_le] at hlate
      rw [UInt64.le_iff_toNat_le, toNat_saturatingSub] at hle
      omega

/-- While the cut-off is zero, pruning keeps the intents that were created later. -/
theorem pruned_lookup_early {createdAt : UInt64} {id : IntentId} (hearly : now < intentTimeoutMs)
    (hl : intents.lookup id = some i) (hst : i.state = .pending createdAt) (hpos : 0 < createdAt) :
    ((RendezvousRegistry.pruned now intents).lookup id).any PendingIntent.isPending = true := by
  have hretained : i.retained now = true := by
    refine Bool.of_not_eq_false fun hr => ?_
    obtain ⟨createdAt', hst', hle⟩ := not_retained_iff_pending.mp hr
    cases hst.symm.trans hst'
    rw [UInt64.lt_iff_toNat_lt] at hearly hpos
    rw [UInt64.le_iff_toNat_le, toNat_saturatingSub] at hle
    rw [UInt64.toNat_zero] at hpos
    omega
  rw [lookup_pruned, hl, Option.filter_some, hretained]
  simp [PendingIntent.isPending, hst]

/-- A connect intent that fails is atomic unless its pruning came too early. -/
theorem connect_asBefore_iff (hs : WithinCapacity s) :
    (∀ e, (handleConnectIntent C env initiator target intentId candidates timestamp signatureBytes
        s).1 = .err e →
      AsBefore env s (handleConnectIntent C env initiator target intentId candidates timestamp
        signatureBytes s).2) ↔
      ¬ Tears C s env (.connectIntent initiator target intentId candidates timestamp
        signatureBytes) := by
  rcases handleConnectIntent_cases (C := C) (s := s) env initiator target intentId candidates timestamp
    signatureBytes with ⟨hno, r, h, -⟩ | ⟨id, rfl, hauth, h⟩
  · rw [h]
    refine iff_of_true (fun _ _ => asBefore_refl) ?_
    rintro ⟨-, id, hid, hauth, -⟩
    exact hno id hid hauth
  · rw [h]
    rcases registerIntent_cases (env.clock 1) id initiator target candidates s.rendezvous with
      ⟨hfull, hr⟩ | ⟨hroom, hdup, hr⟩ | ⟨hroom, hdup, hr⟩
    · -- nothing was pruned
      rw [hr]
      have hretained : ∀ j i, s.rendezvous.lookup j = some i → i.retained (env.clock 1) = true :=
        fun j i hl => HashMap.retained_of_size_le (Nat.le_trans hs.intents hfull) hl
      have hkept : ∀ j i, s.rendezvous.lookup j = some i → i.retained (env.clock 1) = false →
          i.PastTimeout (env.clock 1) := fun j i hl hr =>
        nomatch (hretained j i hl).symm.trans hr
      refine iff_of_true (fun _ _ => asBefore_rendezvous.mpr (exceptTimeouts_retain_iff.mpr hkept)) ?_
      rintro ⟨hearly, -, -, -, -, hzero⟩
      exact pruned_past_iff.mp hkept ⟨hearly, hzero⟩
    · rw [hr]
      have hatomic : (∀ e, (Outcome.err (RelayError.internal
          "Duplicate intent_id: an active intent with this ID already exists") :
            Outcome RelayError RelayMessage) = .err e →
          AsBefore env s { s with
            rendezvous := RendezvousRegistry.pruned (env.clock 1) s.rendezvous }) ↔
          AsBefore env s { s with
            rendezvous := RendezvousRegistry.pruned (env.clock 1) s.rendezvous } :=
        ⟨fun h => h _ rfl, fun h _ _ => h⟩
      refine hatomic.trans (asBefore_rendezvous.trans (exceptTimeouts_retain_iff.trans
        (pruned_past_iff.trans (not_congr ?_))))
      constructor
      · rintro ⟨hearly, hzero⟩
        refine ⟨hearly, id, rfl, hauth, ?_, hzero⟩
        rw [lookup_pruned, Option.any_eq_true] at hdup
        obtain ⟨i, hi, hp⟩ := hdup
        obtain ⟨hl, hretained⟩ := Option.filter_eq_some_iff.mp hi
        obtain ⟨createdAt, hst, hpos⟩ := pending_of_retained hp hretained
        exact ⟨i, createdAt, hl, hst, hpos⟩
      · rintro ⟨hearly, -, -, -, -, hzero⟩
        exact ⟨hearly, hzero⟩
    · rw [hr]
      refine iff_of_true (fun e herr => nomatch herr) ?_
      rintro ⟨hearly, id', hid, -, ⟨i, createdAt, hl, hst, hpos⟩, -⟩
      cases Bytes.toList_injective hid
      rw [pruned_lookup_early hearly hl hst hpos] at hdup
      cases hdup

end AtomicityLemmas

open AtomicityLemmas

/-- In every reachable state, a message that is rejected leaves the registry, the intents, the
contexts and the token index as they were, except for entries past their timeout, exactly if it
does not tear. -/
theorem rejection_atomic_iff (C : RelayCrypto) (rateLimit expiry : UInt64) (ops : List Op)
    (message : RelayMessage) (peerAddr : Option SocketAddr) (env : Env) :
    (∀ e, (handleMessageFrom C env message peerAddr (relayAfter C rateLimit expiry ops)).1 = .err e →
        AsBefore env (relayAfter C rateLimit expiry ops)
          (handleMessageFrom C env message peerAddr (relayAfter C rateLimit expiry ops)).2) ↔
      ¬ Tears C (relayAfter C rateLimit expiry ops) env message := by
  have hs := reachable_withinCapacity C rateLimit expiry ops
  generalize relayAfter C rateLimit expiry ops = s at hs
  cases message with
  | registerRequest => exact iff_of_true (fun _ herr => register_asBefore hs herr) not_false
  | connectIntent => exact connect_asBefore_iff hs
  | acceptConnect => exact accept_asBefore_iff
  | relayEstablishRequest => exact iff_of_true (fun _ herr => establish_asBefore herr) not_false
  | getCandidates requester intentId =>
    refine iff_of_true (fun _ _ => ?_) not_false
    show AsBefore env s (handleGetCandidates requester intentId s).2
    rw [ServerLemmas.handleGetCandidates_state]
    exact asBefore_refl
  | pollPendingIntents deviceId =>
    refine iff_of_true (fun _ _ => ?_) not_false
    show AsBefore env s (handlePollPendingIntents env deviceId s).2
    rw [ServerLemmas.handlePollPendingIntents_state]
    exact asBefore_refl
  -- a discovery request cannot fail, and no other message reaches a store
  | _ => exact iff_of_true (fun _ _ => asBefore_refl) not_false

/-- A target that accepts while the random source fails. -/
def failedAcceptance : Op :=
  .message ((plainClient 2).request (.acceptConnect (Bytes.fill 16 7) (plainClient 1).deviceId
    [⟨.host, .v4 (Bytes.fill 4 9) 443, 1⟩] 5)) none (.at 5 none)

/-- The acceptance is rejected, and the candidates of the target have replaced the empty list. -/
theorem failed_acceptance_keeps_candidates :
    (step .plain (relayAfter .plain rateLimitBytesPerSec sessionExpiryMs
        ((plainPairing 1 2 (Bytes.fill 16 7) (Bytes.fill 32 8) 5).take 3)) failedAcceptance).1 =
      .response (.err (.internal "Failed to generate random token")) ∧
    ((relayAfter .plain rateLimitBytesPerSec sessionExpiryMs
        ((plainPairing 1 2 (Bytes.fill 16 7) (Bytes.fill 32 8) 5).take 3)).rendezvous.lookup
          (Bytes.fill 16 7)).map PendingIntent.targetCandidates = some [] ∧
    ((step .plain (relayAfter .plain rateLimitBytesPerSec sessionExpiryMs
        ((plainPairing 1 2 (Bytes.fill 16 7) (Bytes.fill 32 8) 5).take 3))
          failedAcceptance).2.rendezvous.lookup (Bytes.fill 16 7)).map
            PendingIntent.targetCandidates = some [⟨.host, .v4 (Bytes.fill 4 9) 443, 1⟩] := by
  decide +kernel

end Blackwing.Relay

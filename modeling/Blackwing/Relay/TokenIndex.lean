import Blackwing.Lib.Index
import Blackwing.Relay.Provenance

/-!
# Token isolation

The data plane finds a context by its token: `token_index` maps tokens to intent ids, and
each context keeps its own token. `authorize_pair` overwrites both maps, and an intent id
can be registered and accepted again. When the id still has a context, the old token stays
in the index and leads to the new pair.

* `Accepts`: when the relay accepts an intent with a token, said of the state before.
* `Unclaimed`: the intent id has no other context and the token no other intent.
* `inverse_step_iff`: a step keeps the two maps inverse exactly when the acceptance it
  answers, if any, is unclaimed.
* `token_isolation_iff`: the same for whole runs, with what follows for the data plane
  and for `sweep`.
* `reused_intent_leaks_token`: a run in which the token of one pair forwards packets of
  another pair.
-/

namespace Blackwing.Relay

open ForwardingTable

/-- `token_index` and `contexts` are inverse to each other. -/
def Inverse (t : ForwardingTable) : Prop := Indexed ForwardingContext.token t.contexts t.tokenIndex

/-- The intent id has no context with another token, and the token leads to no other intent. -/
def Unclaimed (t : ForwardingTable) (intentId : IntentId) (relayToken : RelayToken) : Prop :=
  (∀ ctx, t.contexts.lookup intentId = some ctx → ctx.token = relayToken) ∧
    ∀ j, t.tokenIndex.lookup relayToken = some j → j = intentId

/-- The operation accepts the intent with the token: the checks of `handle_accept_connect` pass, the
intent is pending, in time and for the acceptor, the random source gives the token, and the expiry
of the new session is in range. -/
def Accepts (C : RelayCrypto) (s : RelayServer) (op : Op) (intentId : IntentId)
    (relayToken : RelayToken) : Prop :=
  ∃ acceptor targetCandidates timestamp signatureBytes peerAddr env intent createdAt,
    op = .message (.acceptConnect acceptor intentId.toList targetCandidates timestamp signatureBytes)
      peerAddr env ∧
    AcceptAuth C s (env.clock 0) acceptor intentId timestamp signatureBytes intent ∧
    intent.state = .pending createdAt ∧
    saturatingSub (env.clock 1) createdAt ≤ intentTimeoutMs ∧
    intent.target = acceptor ∧ env.random = some relayToken ∧
    (env.clock 2).toNat + s.forwarding.sessionExpiryMs.toNat < 2 ^ 64

/-- An acceptance finds its intent id and its token unclaimed. -/
def AcceptsUnclaimed (C : RelayCrypto) (s : RelayServer) (op : Op) : Prop :=
  ∀ intentId relayToken, Accepts C s op intentId relayToken →
    Unclaimed s.forwarding intentId relayToken

/-- What the two maps guarantee in a state with a history. -/
structure Isolated (C : RelayCrypto) (h : List RelayEntry) (s : RelayServer) : Prop where
  /-- The maps are inverse. -/
  inverse : ∀ token intentId, s.forwarding.tokenIndex.lookup token = some intentId ↔
    ∃ ctx, s.forwarding.contexts.lookup intentId = some ctx ∧ ctx.token = token
  /-- A packet is only forwarded between the two bound addresses of devices for which its token
  was issued. -/
  forwards : ∀ env token source packetLen destination,
    (getDestination env token source packetLen s.forwarding).1 = .ok destination →
    ∃ intentId ctx, s.forwarding.contexts.lookup intentId = some ctx ∧ ctx.token = token ∧
      (ctx.initiator.addr = some source ∧ ctx.target.addr = some destination ∨
        ctx.target.addr = some source ∧ ctx.initiator.addr = some destination) ∧
      IssuedFor C h intentId token ctx.initiator.deviceId ctx.target.deviceId
  /-- After a sweep no index entry refers to a removed context. -/
  swept : ∀ now token intentId,
    (s.forwarding.sweep now).2.tokenIndex.lookup token = some intentId →
    ∃ ctx, (s.forwarding.sweep now).2.contexts.lookup intentId = some ctx

namespace TokenIndexLemmas

open ServerLemmas ForwardingLemmas ProvenanceLemmas SystemLemmas

variable {C : RelayCrypto} {h : List RelayEntry} {s s' : RelayServer} {op : Op} {reply : Reply}

variable {intentId : IntentId} {relayToken : RelayToken}

theorem issues_of_accepts (hacc : Accepts C s op intentId relayToken) :
    Issues op (step C s op).1 intentId relayToken := by
  obtain ⟨acceptor, candidates, timestamp, signatureBytes, peerAddr, env, intent, createdAt, rfl, hauth,
    hst, htime, ht, hrand, hrange⟩ := hacc
  refine ⟨_, _, _, _, _, _, intent.initiatorCandidates, rfl, congrArg Reply.response ?_⟩
  show (RelayServer.handleAcceptConnect C env acceptor intentId.toList candidates timestamp
    signatureBytes s).1 = _
  rcases handleAcceptConnect_cases env acceptor intentId.toList candidates timestamp signatureBytes with
    ⟨hno, -⟩ | ⟨id, intent', hid, hauth', hcases⟩
  · exact absurd hauth (hno intentId intent rfl)
  cases Bytes.toList_injective hid
  cases hauth.found.symm.trans hauth'.found
  rcases hcases with ⟨hdead, -⟩ | ⟨createdAt', hst', hcases⟩
  · exact absurd ht (hdead createdAt hst).2
  cases hst.symm.trans hst'
  rcases hcases with ⟨hlate, -⟩ | ⟨-, -, ⟨hnone, -⟩ | ⟨token, hsome, r, forwarding, h, hf⟩⟩
  · exact absurd hlate (UInt64.not_lt.mpr htime)
  · cases hnone.symm.trans hrand
  cases hsome.symm.trans hrand
  rcases hf with ⟨hover, -⟩ | ⟨hr, -⟩
  · exact absurd hrange (Nat.not_lt.mpr hover)
  · rw [h, hr]

theorem accepts_of_issues (hiss : Issues op (step C s op).1 intentId relayToken) :
    Accepts C s op intentId relayToken := by
  obtain ⟨acceptor, candidates, timestamp, signatureBytes, peerAddr, env, cands, rfl, hreply⟩ := hiss
  have hok : (RelayServer.handleAcceptConnect C env acceptor intentId.toList candidates timestamp
      signatureBytes s).1 = .ok (.candidateExchange intentId.toList cands relayToken) :=
    Reply.response.inj hreply
  obtain ⟨id, intent, createdAt, token, hid, hauth, hst, htime, ht, hrand, hrange, hresponse, -⟩ :=
    handleAcceptConnect_ok hok
  cases Bytes.toList_injective hid
  obtain ⟨-, -, rfl⟩ := RelayMessage.candidateExchange.inj hresponse
  exact ⟨_, _, _, _, _, _, intent, createdAt, rfl, hauth, hst, htime, ht, hrand, hrange⟩

/-- What is said of the state before decides which token the relay answers with. -/
theorem issues_iff_accepts :
    Issues op (step C s op).1 intentId relayToken ↔ Accepts C s op intentId relayToken :=
  ⟨accepts_of_issues, issues_of_accepts⟩

theorem inverse_onContext {ε α : Type} {t : ForwardingTable} (hinv : Inverse t) (intentId : IntentId)
    (missing : ε) {x : Call ForwardingContext ε α} (hx : ∀ ctx, (x ctx).2.token = ctx.token) :
    Inverse (onContext intentId missing x t).2 := by
  unfold Inverse
  rw [onContext_tokenIndex]
  refine Indexed.update hinv (f := fun j ctx => if j = intentId then (x ctx).2 else ctx) ?_ ?_
  · intro j ctx
    split
    · exact hx ctx
    · rfl
  · intro j
    rw [onContext_lookup]
    split
    · next hj => rw [hj]
    · exact Option.map_id'.symm

theorem inverse_sweep {t : ForwardingTable} (hinv : Inverse t) (now : UInt64) :
    Inverse (t.sweep now).2 := by
  refine Indexed.remove hinv (f := ForwardingContext.swept now)
    (fun ctx => (swept_sameEnds now ctx).token) (fun j c => ?_) (fun token j => tokenIndex_sweep)
  rw [lookup_sweep]
  constructor
  · rintro ⟨ctx, hl, rfl, hlive⟩
    exact ⟨ctx, hl, rfl, Bool.eq_false_iff.mp hlive⟩
  · rintro ⟨ctx, hl, rfl, hlive⟩
    exact ⟨ctx, hl, rfl, Bool.eq_false_iff.mpr hlive⟩

theorem inverse_effect_iff (heff : Effect C s op reply s') (hinv : Inverse s.forwarding) :
    Inverse s'.forwarding ↔
      ∀ intentId relayToken, Issues op reply intentId relayToken →
        Unclaimed s.forwarding intentId relayToken := by
  have hquiet : Inverse s'.forwarding → (∀ i t, ¬ Issues op reply i t) →
      (Inverse s'.forwarding ↔ ∀ intentId relayToken, Issues op reply intentId relayToken →
        Unclaimed s.forwarding intentId relayToken) :=
    fun hs' hno => iff_of_true hs' fun i t hi => absurd hi (hno i t)
  cases heff with
  | quiet failedLookups hno => exact hquiet hinv hno
  | evicted peerAddr e hauth => exact hquiet hinv fun _ _ => not_issues_err
  | registered peerAddr hauth hroom =>
    refine hquiet hinv ?_
    exact fun _ _ => not_issues_of_ne fun _ _ _ _ _ _ _ hop => nomatch hop
  | pruned peerAddr env e => exact hquiet hinv fun _ _ => not_issues_err
  | stored candidates peerAddr hauth hroom =>
    refine hquiet hinv ?_
    exact fun _ _ => not_issues_of_ne fun _ _ _ _ _ _ _ hop => nomatch hop
  | touched e hold hst hi ht hc hnew => exact hquiet hinv fun _ _ => not_issues_err
  | @accepted intentId intent candidates createdAt timestamp signatureBytes relayToken peerAddr env
      reply forwarding hauth hst hr hf =>
    rcases hf with ⟨rfl, rfl⟩ | ⟨rfl, expiresAtMs, rfl⟩
    · refine hquiet hinv ?_
      rintro _ _ ⟨_, _, _, _, _, _, _, -, hreply⟩
      cases hreply
    · refine (indexed_insert_iff hinv intentId _).trans ⟨fun hfree id token hiss => ?_, fun hfree => ?_⟩
      · obtain ⟨_, _, _, _, _, _, _, -, hreply⟩ := hiss
        obtain ⟨hid, -, rfl⟩ := RelayMessage.candidateExchange.inj
          (Outcome.ok.inj (Reply.response.inj hreply))
        cases Bytes.toList_injective hid
        exact hfree
      · exact hfree intentId relayToken ⟨_, _, _, _, _, _, _, rfl, rfl⟩
  | bound hauth =>
    refine hquiet (inverse_onContext hinv _ _ (bind_token _ _ _)) ?_
    exact fun _ _ => not_issues_of_ne fun _ _ _ _ _ _ _ hop => nomatch hop
  | forwarded sourceAddr packetLen env hl =>
    refine hquiet (inverse_onContext hinv _ _ fun ctx => (forward_sameEnds _ _ _ _ ctx).token) ?_
    exact fun _ _ => not_issues_of_ne fun _ _ _ _ _ _ _ hop => nomatch hop
  | closed intentId =>
    refine hquiet (inverse_onContext hinv _ _ fun ctx => rfl) ?_
    exact fun _ _ => not_issues_of_ne fun _ _ _ _ _ _ _ hop => nomatch hop
  | swept now =>
    refine hquiet (inverse_sweep hinv now) ?_
    exact fun _ _ => not_issues_of_ne fun _ _ _ _ _ _ _ hop => nomatch hop

/-- A step keeps the maps inverse exactly when what it accepts, if anything, is unclaimed. -/
theorem inverse_step_iff (hinv : Inverse s.forwarding) :
    Inverse (step C s op).2.forwarding ↔ AcceptsUnclaimed C s op := by
  rw [inverse_effect_iff (step_effect C s op) hinv]
  simp only [AcceptsUnclaimed, issues_iff_accepts]

theorem isolated_of_inverse (hp : Provenance C h s) (hinv : Inverse s.forwarding) :
    Isolated C h s := by
  refine ⟨hinv, fun env token source packetLen destination hok => ?_, fun now token id hl => ?_⟩
  · rcases getDestination_cases env token source packetLen s.forwarding with
      ⟨r, f, hd, hno⟩ | ⟨id, hl, hd⟩
    · rw [hd] at hok
      exact absurd hok (hno destination)
    · rw [hd] at hok
      obtain ⟨ctx, hctx, hf⟩ := onContext_eq_ok hok
      obtain ⟨ctx', hctx', htok⟩ := (hinv token id).mp hl
      cases hctx.symm.trans hctx'
      subst htok
      have haddresses := (opposite_eq_some (forward_eq_ok hf)).imp_right And.symm
      exact ⟨id, ctx, hctx, rfl, haddresses, (hp.contexts id ctx hctx).1⟩
  · obtain ⟨ctx, hctx, -⟩ := (inverse_sweep hinv now token id).mp hl
    exact ⟨ctx, hctx⟩

end TokenIndexLemmas

open TokenIndexLemmas ProvenanceLemmas in
/-- Along a run of the relay the tokens stay isolated exactly when every acceptance finds its intent
id and its token unclaimed. -/
theorem token_isolation_iff (C : RelayCrypto) (rateLimitBytesPerSec sessionExpiryMs : UInt64)
    (ops : List Op) :
    (∀ before, before <+: ops →
      Isolated C (relayRun C rateLimitBytesPerSec sessionExpiryMs before)
        (relayAfter C rateLimitBytesPerSec sessionExpiryMs before)) ↔
    ∀ e ∈ relayRun C rateLimitBytesPerSec sessionExpiryMs ops, AcceptsUnclaimed C e.pre e.input := by
  constructor
  · intro hiso e he
    obtain ⟨before, after, hops, hstep⟩ := mem_run he
    have hpre : Inverse (relayAfter C rateLimitBytesPerSec sessionExpiryMs before).forwarding :=
      (hiso before ⟨e.input :: after, hops.symm⟩).inverse
    have hpost : Inverse
        (relayAfter C rateLimitBytesPerSec sessionExpiryMs (before ++ [e.input])).forwarding :=
      (hiso (before ++ [e.input]) ⟨after, by rw [hops, List.append_assoc]; rfl⟩).inverse
    rw [relayAfter, endState_snoc] at hpost
    rw [hstep]
    exact (inverse_step_iff hpre).mp hpost
  · rintro hfree before ⟨after, rfl⟩
    have hbefore : ∀ e ∈ relayRun C rateLimitBytesPerSec sessionExpiryMs before,
        AcceptsUnclaimed C e.pre e.input := by
      intro e he
      refine hfree e ?_
      rw [relayRun, run_append]
      exact List.mem_append_left _ he
    have hboth := @run_guarded _ _ _ (step C) (AcceptsUnclaimed C)
      (fun h s => Provenance C h s ∧ Inverse s.forwarding) _
      ⟨provenance_init rateLimitBytesPerSec sessionExpiryMs, indexed_empty⟩
      (fun h s op hs hG => ⟨provenance_step (step_effect C s op) hs.1,
        (inverse_step_iff hs.2).mpr hG⟩) before hbefore
    exact isolated_of_inverse hboth.1 hboth.2

/-- Two devices connect under an intent id, two others connect under the same id, and the latter
bind their addresses. -/
def reusedIntent : List Op :=
  plainPairing 1 2 (Bytes.fill 16 7) (Bytes.fill 32 9) 5000 ++
  plainPairing 3 4 (Bytes.fill 16 7) (Bytes.fill 32 10) 6000 ++
  [.message ((plainClient 3).request (.establishRelay (Bytes.fill 16 7) 6000))
      (some (.v4 (Bytes.fill 4 3) 3333)) (.at 6000 none),
    .message ((plainClient 4).request (.establishRelay (Bytes.fill 16 7) 6000))
      (some (.v4 (Bytes.fill 4 4) 4444)) (.at 6000 none)]

/-- The token of the first two devices is still in the index, and forwards packets between the
other two. -/
theorem reused_intent_leaks_token :
    (relayAfter .plain rateLimitBytesPerSec sessionExpiryMs reusedIntent).forwarding.tokenIndex.lookup
        (Bytes.fill 32 9) = some (Bytes.fill 16 7) ∧
    ((relayAfter .plain rateLimitBytesPerSec sessionExpiryMs reusedIntent).forwarding.contexts.lookup
        (Bytes.fill 16 7)).map (fun ctx => (ctx.token, ctx.initiator.deviceId, ctx.target.deviceId)) =
      some (Bytes.fill 32 10, (plainClient 3).deviceId, (plainClient 4).deviceId) ∧
    (getDestination (.at 7000 none) (Bytes.fill 32 9) (.v4 (Bytes.fill 4 3) 3333) 100
      (relayAfter .plain rateLimitBytesPerSec sessionExpiryMs reusedIntent).forwarding).1 =
      .ok (.v4 (Bytes.fill 4 4) 4444) ∧
    ¬ Isolated .plain (relayRun .plain rateLimitBytesPerSec sessionExpiryMs reusedIntent)
      (relayAfter .plain rateLimitBytesPerSec sessionExpiryMs reusedIntent) := by
  have hindex : (relayAfter .plain rateLimitBytesPerSec sessionExpiryMs
      reusedIntent).forwarding.tokenIndex.lookup (Bytes.fill 32 9) = some (Bytes.fill 16 7) := by
    decide +kernel
  have htoken : ((relayAfter .plain rateLimitBytesPerSec sessionExpiryMs
      reusedIntent).forwarding.contexts.lookup (Bytes.fill 16 7)).map
        (fun ctx => (ctx.token, ctx.initiator.deviceId, ctx.target.deviceId)) =
      some (Bytes.fill 32 10, (plainClient 3).deviceId, (plainClient 4).deviceId) := by
    decide +kernel
  refine ⟨hindex, htoken, by decide +kernel, fun hiso => ?_⟩
  obtain ⟨ctx, hctx, htok⟩ := (hiso.inverse _ _).mp hindex
  rw [hctx, Option.map_some, htok] at htoken
  have hne : Bytes.fill 32 9 ≠ Bytes.fill 32 10 := by decide +kernel
  exact hne (Prod.mk.inj (Option.some.inj htoken)).1

end Blackwing.Relay

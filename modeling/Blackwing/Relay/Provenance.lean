import Blackwing.Relay.System

/-!
# Where the state of the relay comes from

Every registry entry, intent, context and bound address of a reachable relay goes back
to a signed message in its history that verified under a key hashing to the device it
speaks for. SHA-256 and Ed25519 are uninterpreted.

* `Verified`, `CreatedAt`, `AcceptedAt`, `BoundAt`: the entries of a history that can
  justify a part of the state.
* `Provenance`: the history invariant, and `provenance` its proof for every run.
* `keys_step`, `intents_step`, `contexts_step`: what one step preserves, store by store.
-/

namespace Blackwing.Relay

/-- The signature verified for the payload under a key that hashes to the device. -/
def Verified (C : RelayCrypto) (deviceId : DeviceId) (payload signatureBytes : List UInt8) : Prop :=
  ∃ verifyKeyBytes : Bytes 32, C.sha256 verifyKeyBytes.toList = deviceId ∧
    C.validKey verifyKeyBytes = true ∧ signed C verifyKeyBytes payload signatureBytes = true

/-- The entry stored the intent under the id, for a `ConnectIntent` signed by its initiator. -/
def CreatedAt (C : RelayCrypto) (e : RelayEntry) (intentId : IntentId) (intent : PendingIntent) :
    Prop :=
  ∃ timestamp signatureBytes peerAddr env createdAt,
    e.input = .message (.connectIntent intent.initiator intent.target intentId.toList
      intent.initiatorCandidates timestamp signatureBytes) peerAddr env ∧
    absDiff (env.clock 0) timestamp ≤ timestampWindowMs ∧
    Verified C intent.initiator
      (pairPayload intentId.toList intent.initiator intent.target timestamp) signatureBytes ∧
    e.post.rendezvous.lookup intentId = some
      ⟨intent.initiator, intent.target, intent.initiatorCandidates, [], .pending createdAt⟩

/-- The entry accepted the intent under the id, for an `AcceptConnect` signed by its target. -/
def AcceptedAt (C : RelayCrypto) (e : RelayEntry) (intentId : IntentId) (intent : PendingIntent) :
    Prop :=
  ∃ timestamp signatureBytes peerAddr env,
    e.input = .message (.acceptConnect intent.target intentId.toList intent.targetCandidates
      timestamp signatureBytes) peerAddr env ∧
    absDiff (env.clock 0) timestamp ≤ timestampWindowMs ∧
    Verified C intent.target
      (pairPayload intentId.toList intent.target intent.initiator timestamp) signatureBytes ∧
    e.post.rendezvous.lookup intentId = some intent

/-- The entry bound the address, for a `RelayEstablishRequest` signed by the device. -/
def BoundAt (C : RelayCrypto) (e : RelayEntry) (intentId : IntentId) (deviceId : DeviceId)
    (addr : SocketAddr) : Prop :=
  ∃ timestamp signatureBytes env,
    e.input = .message (.relayEstablishRequest intentId.toList deviceId timestamp signatureBytes)
      (some addr) env ∧
    e.out = .response (.ok (.relayEstablishAck intentId.toList)) ∧
    absDiff (env.clock 0) timestamp ≤ timestampWindowMs ∧
    Verified C deviceId (establishPayload intentId.toList deviceId timestamp) signatureBytes

/-- Every registered key hashes to its device. -/
def Keys (C : RelayCrypto) (s : RelayServer) : Prop :=
  ∀ deviceId ctx, s.registry.lookup deviceId = some ctx →
    C.sha256 ctx.verifyKeyBytes.toList = deviceId

/-- Every stored intent was created, and every accepted one accepted, by an entry of the history. -/
def Intents (C : RelayCrypto) (h : List RelayEntry) (s : RelayServer) : Prop :=
  ∀ intentId intent, s.rendezvous.lookup intentId = some intent →
    (∃ e ∈ h, CreatedAt C e intentId intent) ∧
    ∀ relayToken, intent.state = .accepted relayToken → ∃ e ∈ h, AcceptedAt C e intentId intent

/-- The binding's address, if it has one, was bound by an entry of the history. -/
def Traced (C : RelayCrypto) (h : List RelayEntry) (intentId : IntentId) (b : EndpointBinding) :
    Prop :=
  ∀ addr, b.addr = some addr → ∃ e ∈ h, BoundAt C e intentId b.deviceId addr

/-- An entry of the history accepted an intent of the two devices under the id, and issued the
token for it. -/
def IssuedFor (C : RelayCrypto) (h : List RelayEntry) (intentId : IntentId) (relayToken : RelayToken)
    (initiator target : DeviceId) : Prop :=
  ∃ e ∈ h, ∃ intent, AcceptedAt C e intentId intent ∧ intent.state = .accepted relayToken ∧
    intent.initiator = initiator ∧ intent.target = target

/-- Every context joins the devices of an intent accepted under its id, and both of its addresses
are traced. -/
def Contexts (C : RelayCrypto) (h : List RelayEntry) (s : RelayServer) : Prop :=
  ∀ intentId ctx, s.forwarding.contexts.lookup intentId = some ctx →
    IssuedFor C h intentId ctx.token ctx.initiator.deviceId ctx.target.deviceId ∧
    Traced C h intentId ctx.initiator ∧ Traced C h intentId ctx.target

/-- The provenance of the state of the relay in its history. -/
structure Provenance (C : RelayCrypto) (h : List RelayEntry) (s : RelayServer) : Prop where
  keys : Keys C s
  intents : Intents C h s
  contexts : Contexts C h s

/-! ## What one step preserves -/

namespace ProvenanceLemmas

open ServerLemmas RendezvousLemmas ForwardingLemmas SystemLemmas

variable {C : RelayCrypto} {h : List RelayEntry} {s s' : RelayServer} {op : Op} {reply : Reply}

theorem exists_mem_snoc {α : Type} {l : List α} {P : α → Prop} (x : α) (hl : ∃ e ∈ l, P e) :
    ∃ e ∈ l ++ [x], P e := by
  obtain ⟨e, he, hP⟩ := hl
  exact ⟨e, List.mem_append_left _ he, hP⟩

theorem exists_mem_last {α : Type} {l : List α} {P : α → Prop} {x : α} (hx : P x) :
    ∃ e ∈ l ++ [x], P e :=
  ⟨x, List.mem_append_right _ (List.mem_singleton.mpr rfl), hx⟩

variable {deviceId : DeviceId} {intentId : IntentId}

theorem verified_of_signedBy (hkeys : Keys C s) {payload signatureBytes : List UInt8}
    (hs : signedBy C s deviceId payload signatureBytes = true) :
    Verified C deviceId payload signatureBytes := by
  obtain ⟨ctx, hl, hv, hsig⟩ := signedBy_eq_true.mp hs
  exact ⟨ctx.verifyKeyBytes, hkeys deviceId ctx hl, hv, hsig⟩

theorem keys_evicted (hkeys : Keys C s) (now : UInt64) {s' : RelayServer}
    (hs : s'.registry = RelayServer.evicted now s.registry) : Keys C s' := by
  intro d ctx hl
  rw [hs] at hl
  exact hkeys d ctx (lookup_of_evicted hl)

theorem keys_insert (hkeys : Keys C s) {ctx : ClientContext}
    (hidentity : C.sha256 ctx.verifyKeyBytes.toList = deviceId) {s' : RelayServer}
    (hs : s'.registry = s.registry.insert deviceId ctx) : Keys C s' := by
  intro d c hl
  rw [hs, HashMap.lookup_insert_eq] at hl
  split at hl
  · next hd =>
    cases hl
    exact hidentity.trans hd.symm
  · exact hkeys d c hl

theorem keys_step (heff : Effect C s op reply s') (hkeys : Keys C s) : Keys C s' := by
  cases heff with
  | @evicted _ _ _ _ _ env _ _ => exact keys_evicted hkeys (env.clock 0) rfl
  | @registered _ _ _ _ _ env hauth _ =>
    have hevicted : Keys C { s with registry := RelayServer.evicted (env.clock 0) s.registry } :=
      keys_evicted hkeys (env.clock 0) rfl
    exact keys_insert hevicted hauth.identity rfl
  | _ => exact hkeys

theorem intents_mono (x : RelayEntry) (hsame : s'.rendezvous = s.rendezvous)
    (hint : Intents C h s) : Intents C (h ++ [x]) s' := by
  intro id intent hl
  rw [hsame] at hl
  obtain ⟨hc, ha⟩ := hint id intent hl
  exact ⟨exists_mem_snoc x hc, fun t ht => exists_mem_snoc x (ha t ht)⟩

/-- How an intent was created does not depend on what later calls write to it. -/
theorem createdAt_congr {e : RelayEntry} {id : IntentId} {intent intent' : PendingIntent}
    (hi : intent'.initiator = intent.initiator) (ht : intent'.target = intent.target)
    (hc : intent'.initiatorCandidates = intent.initiatorCandidates)
    (hcreated : CreatedAt C e id intent) : CreatedAt C e id intent' := by
  unfold CreatedAt
  rw [hi, ht, hc]
  exact hcreated

theorem intents_step (heff : Effect C s op reply s') (hkeys : Keys C s) (hint : Intents C h s) :
    Intents C (h ++ [⟨s, op, reply, s'⟩]) s' := by
  cases heff with
  | pruned peerAddr env e =>
    intro id intent hl
    rw [lookup_pruned] at hl
    exact intents_mono _ rfl hint id intent (Option.filter_eq_some_iff.mp hl).1
  | @stored initiator target intentId candidates timestamp signatureBytes peerAddr env hauth hroom =>
    intro id intent hl
    rw [HashMap.lookup_insert_eq] at hl
    split at hl
    · next hid =>
      cases hid
      cases hl
      refine ⟨exists_mem_last ?_, fun t ht => nomatch ht⟩
      refine ⟨timestamp, signatureBytes, peerAddr, env, env.clock 1, rfl, hauth.window, ?_, ?_⟩
      · exact verified_of_signedBy hkeys hauth.signature
      · exact AList.lookup_insert _
    · rw [lookup_pruned] at hl
      exact intents_mono _ rfl hint id intent (Option.filter_eq_some_iff.mp hl).1
  | touched e hold hst hi ht hc hnew =>
    intro id intent hl
    rw [HashMap.lookup_insert_eq] at hl
    split at hl
    · next hid =>
      cases hid
      cases hl
      obtain ⟨e, he, hcreated⟩ := (hint _ _ hold).1
      refine ⟨exists_mem_snoc _ ⟨e, he, createdAt_congr hi ht hc hcreated⟩, fun t hacc => ?_⟩
      rcases hnew with hnew | hnew
      · cases hnew.symm.trans hacc
      · cases hnew.symm.trans hacc
    · exact intents_mono _ rfl hint id intent hl
  | @accepted intentId old candidates createdAt timestamp signatureBytes relayToken peerAddr env
      reply forwarding hauth hst hr hf =>
    intro id intent hl
    rw [HashMap.lookup_insert_eq] at hl
    split at hl
    · next hid =>
      cases hid
      cases hl
      obtain ⟨e, he, hcreated⟩ := (hint intentId old hauth.found).1
      refine ⟨exists_mem_snoc _ ⟨e, he, createdAt_congr rfl rfl rfl hcreated⟩, fun t hacc => ?_⟩
      refine exists_mem_last ⟨timestamp, signatureBytes, peerAddr, env, rfl, hauth.window, ?_, ?_⟩
      · exact verified_of_signedBy hkeys hauth.signature
      · exact AList.lookup_insert _
    · exact intents_mono _ rfl hint id intent hl
  | _ => exact intents_mono _ rfl hint

theorem traced_mono (x : RelayEntry) {b : EndpointBinding} (ht : Traced C h intentId b) :
    Traced C (h ++ [x]) intentId b :=
  fun addr ha => exists_mem_snoc x (ht addr ha)

/-- A step that keeps the ends of every context that is left keeps where they come from. -/
theorem contexts_mono (x : RelayEntry)
    (hends : ∀ i ctx', s'.forwarding.contexts.lookup i = some ctx' →
      ∃ ctx, s.forwarding.contexts.lookup i = some ctx ∧ SameEnds ctx ctx')
    (hctx : Contexts C h s) : Contexts C (h ++ [x]) s' := by
  intro id ctx' hl
  obtain ⟨ctx, hl, hsame⟩ := hends id ctx' hl
  obtain ⟨hacc, hi, ht⟩ := hctx id ctx hl
  rw [hsame.token, hsame.initiator, hsame.target]
  exact ⟨exists_mem_snoc x hacc, traced_mono x hi, traced_mono x ht⟩

theorem contexts_same (x : RelayEntry) (hsame : s'.forwarding.contexts = s.forwarding.contexts)
    (hctx : Contexts C h s) : Contexts C (h ++ [x]) s' :=
  contexts_mono x (fun _ ctx hl => ⟨ctx, hsame ▸ hl, rfl, rfl, rfl⟩) hctx

theorem traced_last {x : RelayEntry} {addr : SocketAddr} (hb : BoundAt C x intentId deviceId addr) :
    Traced C (h ++ [x]) intentId ⟨deviceId, some addr⟩ := by
  intro a ha
  cases ha
  exact exists_mem_last hb

/-- The entry of a request that the context it found granted. -/
theorem boundAt_of_bind (hkeys : Keys C s) {timestamp : UInt64} {signatureBytes : List UInt8}
    {addr : SocketAddr} {env : Env} {ctx : ForwardingContext} (post : RelayServer)
    (hauth : EstablishAuth C s (env.clock 0) intentId deviceId timestamp signatureBytes)
    (hl : s.forwarding.contexts.lookup intentId = some ctx)
    (hok : (ForwardingContext.bind (env.clock 1) deviceId addr ctx).1 = .ok ()) :
    BoundAt C
      ⟨s, .message (.relayEstablishRequest intentId.toList deviceId timestamp signatureBytes)
        (some addr) env,
        .response ((ForwardingTable.updateBinding (env.clock 1) intentId deviceId addr
          s.forwarding).1.mapErr .internal >>= fun _ => .ok (.relayEstablishAck intentId.toList)),
        post⟩ intentId deviceId addr := by
  refine ⟨timestamp, signatureBytes, env, rfl, ?_, hauth.window, ?_⟩
  · rw [ForwardingTable.updateBinding, ForwardingTable.onContext, hl]
    dsimp only
    rw [hok]
    rfl
  · exact verified_of_signedBy hkeys hauth.signature

theorem contexts_step (heff : Effect C s op reply s') (hkeys : Keys C s) (hctx : Contexts C h s) :
    Contexts C (h ++ [⟨s, op, reply, s'⟩]) s' := by
  cases heff with
  | @accepted intentId intent candidates createdAt timestamp signatureBytes relayToken peerAddr env
      reply forwarding hauth hst hr hf =>
    rcases hf with ⟨-, rfl⟩ | ⟨-, expiresAtMs, rfl⟩
    · exact contexts_same _ rfl hctx
    intro id ctx hl
    rw [HashMap.lookup_insert_eq] at hl
    split at hl
    · next hid =>
      cases hid
      cases hl
      refine ⟨exists_mem_last ?_, (fun _ ha => nomatch ha), fun _ ha => nomatch ha⟩
      refine ⟨{ intent with targetCandidates := candidates, state := .accepted relayToken },
        ⟨timestamp, signatureBytes, peerAddr, env, rfl, hauth.window, ?_, ?_⟩, rfl, rfl, rfl⟩
      · exact verified_of_signedBy hkeys hauth.signature
      · exact AList.lookup_insert _
    · exact contexts_same _ rfl hctx id ctx hl
  | @bound intentId deviceId timestamp signatureBytes addr env hauth =>
    intro id ctx' hl
    rw [ForwardingTable.updateBinding, onContext_lookup] at hl
    split at hl
    · next hid =>
      cases hid
      obtain ⟨ctx, hctxl, rfl⟩ := Option.map_eq_some_iff.mp hl
      obtain ⟨hacc, hi, ht⟩ := hctx intentId ctx hctxl
      rcases bind_ends (env.clock 1) deviceId addr ctx with hsame | ⟨hok, htok, hside⟩
      · rw [hsame.token, hsame.initiator, hsame.target]
        exact ⟨exists_mem_snoc _ hacc, traced_mono _ hi, traced_mono _ ht⟩
      · have hnew := fun post => boundAt_of_bind hkeys post hauth hctxl hok
        rw [htok]
        rcases hside with ⟨rfl, hi', ht'⟩ | ⟨rfl, hi', ht'⟩
        · rw [hi', ht']
          exact ⟨exists_mem_snoc _ hacc, traced_last (hnew _), traced_mono _ ht⟩
        · rw [hi', ht']
          exact ⟨exists_mem_snoc _ hacc, traced_mono _ hi, traced_last (hnew _)⟩
    · exact contexts_same _ rfl hctx id ctx' hl
  | forwarded sourceAddr packetLen env hl =>
    exact contexts_mono _ (fun i c => onContext_sameEnds (forward_sameEnds _ _ _ _)) hctx
  | closed intentId =>
    exact contexts_mono _ (fun i c => onContext_sameEnds fun _ => ⟨rfl, rfl, rfl⟩) hctx
  | swept now =>
    refine contexts_mono _ (fun i c hl => ?_) hctx
    obtain ⟨ctx, hold, rfl, -⟩ := lookup_sweep.mp hl
    exact ⟨ctx, hold, swept_sameEnds now ctx⟩
  | _ => exact contexts_same _ rfl hctx

theorem provenance_init (rateLimitBytesPerSec sessionExpiryMs : UInt64) :
    Provenance C [] (RelayServer.withLimits rateLimitBytesPerSec sessionExpiryMs) :=
  ⟨(fun _ _ hl => nomatch hl), (fun _ _ hl => nomatch hl), fun _ _ hl => nomatch hl⟩

theorem provenance_step (heff : Effect C s op reply s') (hp : Provenance C h s) :
    Provenance C (h ++ [⟨s, op, reply, s'⟩]) s' :=
  ⟨keys_step heff hp.keys, intents_step heff hp.keys hp.intents,
    contexts_step heff hp.keys hp.contexts⟩

end ProvenanceLemmas

open ProvenanceLemmas in
/-- In every reachable state of the relay, every registered key hashes to its device, every intent
was created and accepted by messages that verified under keys hashing to its two devices, and every
context and every bound address goes back to such messages. -/
theorem provenance (C : RelayCrypto) (rateLimitBytesPerSec sessionExpiryMs : UInt64)
    (ops : List Op) :
    Provenance C (relayRun C rateLimitBytesPerSec sessionExpiryMs ops)
      (relayAfter C rateLimitBytesPerSec sessionExpiryMs ops) :=
  run_induction (provenance_init rateLimitBytesPerSec sessionExpiryMs)
    (fun _ s op hp => provenance_step (step_effect C s op) hp) ops

end Blackwing.Relay

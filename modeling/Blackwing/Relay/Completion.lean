import Blackwing.Relay.Expiry
import Blackwing.Relay.System

/-!
# A whole rendezvous

Two devices that both follow the protocol get through: whatever other devices do in between, each of
their requests is answered as they expect, both get the token that the relay drew, and packets are
then forwarded in both directions. What has to be excluded is that the two tables are full, that
someone else uses the intent id or draws the same token, and that the rendezvous takes more than ten
seconds, after which the relay gives up waiting for the addresses.

* `Pairing`, `Part`, `Pairing.op`: the two devices and what they send.
* `Stage`, `Standing`: how far they are, and what the relay then has stored for them.
* `standing_outside`: what the steps of others leave alone.
* `part_answered`: each of their own steps is answered, and takes them to the next stage.
* `rendezvous_completes`: every run in which their steps come in an order that they can come in.
-/

namespace Blackwing.Relay

open RelayServer ForwardingTable ServerLemmas RendezvousLemmas ForwardingLemmas

/-! ## The two devices -/

inductive Role where
  | initiator
  | target
deriving DecidableEq, Repr

/-- Two devices, the intent of the initiator for the target, and what they offer. -/
structure Pairing (C : RelayCrypto) where
  client : Role → RelayControlClient C
  intentId : IntentId
  candidates : Role → List Candidate
  addr : Role → SocketAddr
  /-- What the relay draws as the token. -/
  token : RelayToken
  /-- When the two devices begin. -/
  start : UInt64
  /-- The limits that the relay is started with. -/
  rateLimit : UInt64
  expiry : UInt64

/-- What the two devices send to the relay. -/
inductive Part where
  | register (role : Role)
  | connectIntent
  | poll
  | accept
  | getCandidates
  | bind (role : Role)
deriving DecidableEq, Repr

variable {C : RelayCrypto}

namespace Pairing

variable (p : Pairing C)

abbrev id (role : Role) : DeviceId := (p.client role).deviceId

/-- The operation at the relay, with the time that the sender puts into the request. -/
def op (timestamp : UInt64) (env : Env) : Part → Op
  | .register role =>
    .message ((p.client role).request (.register timestamp)) (some (p.addr role)) env
  | .connectIntent =>
    .message ((p.client .initiator).request (.connectIntent (p.id .target) p.intentId
      (p.candidates .initiator) timestamp)) (some (p.addr .initiator)) env
  | .poll => .message ((p.client .target).request .pollPendingIntents) (some (p.addr .target)) env
  | .accept =>
    .message ((p.client .target).request (.acceptConnect p.intentId (p.id .initiator)
      (p.candidates .target) timestamp)) (some (p.addr .target)) env
  | .getCandidates =>
    .message ((p.client .initiator).request (.getCandidates p.intentId))
      (some (p.addr .initiator)) env
  | .bind role =>
    .message ((p.client role).request (.establishRelay p.intentId timestamp))
      (some (p.addr role)) env

/-- The answer that the sender of a request waits for. -/
def Answered (reply : Reply) : Part → Prop
  | .register role => ∃ id, reply = .response (.ok (.registerAck id (some (p.addr role))))
  | .connectIntent => reply = .response (.ok (.connectInvite (p.id .initiator) p.intentId.toList))
  | .poll => ∃ intents, reply = .response (.ok (.pendingIntents intents)) ∧
    ⟨p.id .initiator, p.intentId.toList⟩ ∈ intents
  | .accept =>
    reply = .response (.ok (.candidateExchange p.intentId.toList (p.candidates .initiator) p.token))
  | .getCandidates =>
    reply = .response (.ok (.candidateExchange p.intentId.toList (p.candidates .target) p.token))
  | .bind _ => reply = .response (.ok (.relayEstablishAck p.intentId.toList))

/-- A reading of a clock within `EXCHANGE_TIMEOUT_MS` from the start. -/
structure InTime (now : UInt64) : Prop where
  ge : p.start.toNat ≤ now.toNat
  le : now.toNat ≤ p.start.toNat + exchangeTimeoutMs.toNat

/-- The relay accepts what the two devices sign, their ids are their own, and sessions do not expire
before the addresses have to be bound. -/
structure Sound : Prop where
  genuine : ∀ role digest, C.verify (p.client role).verifyKeyBytes digest
    ((p.client role).signingKey.sign digest) = true
  distinct : p.id .initiator ≠ p.id .target
  /-- No other key has the id of one of the two devices. -/
  unmistakable : ∀ role (key : Bytes 32), C.sha256 key.toList = p.id role →
    key = (p.client role).verifyKeyBytes
  started : 0 < p.start.toNat
  expiry : exchangeTimeoutMs < p.expiry

end Pairing

/-! ## How far they are -/

inductive IntentStage where
  | absent
  | pending
  | accepted
deriving DecidableEq, Repr

structure Stage where
  registered : Role → Bool
  intent : IntentStage
  bound : Role → Bool

namespace Stage

def start : Stage := ⟨fun _ => false, .absent, fun _ => false⟩

/-- Both addresses are bound. -/
def complete (stage : Stage) : Bool := stage.bound .initiator && stage.bound .target

/-- The stage after a step of the two devices, if the step can come now. A device registers first;
the intent needs both of them, and what comes after the acceptance needs it. -/
def next (stage : Stage) : Part → Option Stage
  | .register role => some { stage with registered := Function.update stage.registered role true }
  | .connectIntent =>
    if (stage.registered .initiator && stage.registered .target) = true ∧
      stage.intent = .absent then
      some { stage with intent := .pending }
    else none
  | .poll => if stage.intent = .pending then some stage else none
  | .accept => if stage.intent = .pending then some { stage with intent := .accepted } else none
  | .getCandidates => if stage.intent = .accepted then some stage else none
  | .bind role =>
    if stage.intent = .accepted ∧ stage.complete = false then
      some { stage with bound := Function.update stage.bound role true }
    else none

end Stage

/-- The registry has the device with its key. -/
def Registered (s : RelayServer) (c : RelayControlClient C) : Prop :=
  ∃ ctx, s.registry.lookup c.deviceId = some ctx ∧ ctx.verifyKeyBytes = c.verifyKeyBytes

/-- What the relay has stored under the intent id. -/
def IntentStands (p : Pairing C) (s : RelayServer) : IntentStage → Prop
  | .absent => s.rendezvous.lookup p.intentId = none
  | .pending => ∃ createdAt, p.InTime createdAt ∧ s.rendezvous.lookup p.intentId =
    some ⟨p.id .initiator, p.id .target, p.candidates .initiator, [], .pending createdAt⟩
  | .accepted => s.rendezvous.lookup p.intentId = some ⟨p.id .initiator, p.id .target,
    p.candidates .initiator, p.candidates .target, .accepted p.token⟩

/-- The state of a context by the addresses that are bound. -/
def boundState (bound : Role → Bool) : ForwardingState :=
  match bound .initiator, bound .target with
  | false, false => .authorized
  | true, true => .relayActive
  | _, _ => .relayRequested

/-- One side of the context. -/
def Pairing.binding (p : Pairing C) (bound : Role → Bool) (role : Role) : EndpointBinding :=
  ⟨p.id role, if bound role then some (p.addr role) else none⟩

/-- The context of the pair, before its first packet. -/
structure ContextStands (p : Pairing C) (bound : Role → Bool) (ctx : ForwardingContext) : Prop where
  token : ctx.token = p.token
  initiator : ctx.initiator = p.binding bound .initiator
  target : ctx.target = p.binding bound .target
  state : ctx.state = boundState bound
  lastActive : p.InTime ctx.lastActiveMs
  authorizedAt : p.InTime ctx.authorizedAtMs
  expires : p.start.toNat + exchangeTimeoutMs.toNat < ctx.expiresAtMs.toNat
  bytes : ctx.bytesForwarded = 0
  bucket : ctx.rateBucket.tokens = p.rateLimit.toNat

/-- The token belongs to the context of the pair once the intent is accepted, and to none before. -/
structure TokenStands (p : Pairing C) (stage : Stage) (t : ForwardingTable) : Prop where
  context : stage.intent = .accepted →
    ∃ ctx, t.contexts.lookup p.intentId = some ctx ∧ ContextStands p stage.bound ctx
  index : stage.intent = .accepted → t.tokenIndex.lookup p.token = some p.intentId
  only : ∀ id ctx, t.contexts.lookup id = some ctx → ctx.token = p.token →
    id = p.intentId ∧ stage.intent = .accepted
  unbound : stage.intent ≠ .accepted → stage.bound = fun _ => false

/-- What the relay has stored for the two devices. -/
structure Standing (p : Pairing C) (stage : Stage) (s : RelayServer) : Prop where
  registered : ∀ role, stage.registered role = true → Registered s (p.client role)
  intent : IntentStands p s stage.intent
  both : stage.intent ≠ .absent → ∀ role, stage.registered role = true
  token : TokenStands p stage s.forwarding
  rateLimit : s.forwarding.rateLimitBytesPerSec = p.rateLimit
  expiry : s.forwarding.sessionExpiryMs = p.expiry

/-! ## What others leave alone -/

/-- The step of another device does not fill the registry, does not use the intent id, does not draw
the token, and comes in time. -/
def Outside (p : Pairing C) (s : RelayServer) : Op → Prop
  | .message (.registerRequest _ _ _ _) _ _ => HashMap.size s.registry < maxRegistrations
  | .message (.connectIntent _ _ intentId _ _ _) _ env =>
    intentId ≠ p.intentId.toList ∧ p.InTime (env.clock 1)
  | .message (.acceptConnect _ intentId _ _ _) _ env =>
    intentId ≠ p.intentId.toList ∧ env.random ≠ some p.token
  | .message (.relayEstablishRequest intentId _ _ _) _ _ => intentId ≠ p.intentId.toList
  | .message _ _ _ => True
  | .getDestination _ _ _ _ => True
  | .close intentId => intentId ≠ p.intentId
  | .sweep now => p.InTime now

/-- A step of the two devices comes in time and finds room; the relay draws the token, and the
expiry of the session does not overflow. -/
structure Fair (p : Pairing C) (s : RelayServer) (timestamp : UInt64) (env : Env) (part : Part) :
    Prop where
  clock : ∀ i, p.InTime (env.clock i)
  timestamp : p.InTime timestamp
  registrations : ∀ role, part = .register role → HashMap.size s.registry < maxRegistrations
  intents : part = .connectIntent →
    HashMap.size (RendezvousRegistry.pruned (env.clock 1) s.rendezvous) < maxIntents
  random : part = .accept → env.random = some p.token
  expiry : part = .accept → (env.clock 2).toNat + s.forwarding.sessionExpiryMs.toNat < 2 ^ 64

namespace CompletionLemmas

variable {p : Pairing C} {stage : Stage} {s : RelayServer} {t t' : ForwardingTable}
  {timestamp : UInt64} {env : Env}

theorem exchangeTimeoutMs_toNat : exchangeTimeoutMs.toNat = 10000 := by decide

theorem saturatingSub_le_of_inTime {a b limit : UInt64} (ha : p.InTime a)
    (hb : p.InTime b) (hlimit : 10000 ≤ limit.toNat) : saturatingSub a b ≤ limit := by
  have hle := ha.le
  have hge := hb.ge
  rw [exchangeTimeoutMs_toNat] at hle
  rw [UInt64.le_iff_toNat_le, toNat_saturatingSub]
  omega

variable {now packetLen : UInt64} {s' : RelayServer} {c : RelayControlClient C}
  {ctx : ForwardingContext} {bound : Role → Bool}

theorem fresh_of_inTime {createdAt : UInt64} (hpos : 0 < p.start.toNat) (hnow : p.InTime now)
    (hcreated : p.InTime createdAt) : saturatingSub now intentTimeoutMs < createdAt := by
  have hle := hnow.le
  have hge := hcreated.ge
  have hlimit : intentTimeoutMs.toNat = 30000 := by decide
  rw [exchangeTimeoutMs_toNat] at hle
  rw [UInt64.lt_iff_toNat_lt, toNat_saturatingSub, hlimit]
  omega

/-! ### The registry and the intents -/

theorem registered_insert {d : DeviceId} {ctx : ClientContext} (h : Registered s c)
    (hs : s'.registry = s.registry.insert d ctx)
    (hkey : d = c.deviceId → ctx.verifyKeyBytes = c.verifyKeyBytes) : Registered s' c := by
  obtain ⟨old, hold, hbytes⟩ := h
  by_cases hd : c.deviceId = d
  · exact ⟨ctx, by rw [hs, hd]; exact AList.lookup_insert _, hkey hd.symm⟩
  · exact ⟨old, by rw [hs, HashMap.lookup_insert_eq, if_neg hd]; exact hold, hbytes⟩

theorem intentStands_of_lookup {i : IntentStage} (h : IntentStands p s i)
    (hs : s'.rendezvous.lookup p.intentId = s.rendezvous.lookup p.intentId) :
    IntentStands p s' i := by
  cases i with
  | absent => exact hs.trans h
  | pending =>
    obtain ⟨createdAt, htime, hl⟩ := h
    exact ⟨createdAt, htime, hs.trans hl⟩
  | accepted => exact hs.trans h

/-- The intent is not old enough to be pruned. -/
theorem lookup_pruned_of_stands {i : IntentStage} (h : IntentStands p s i)
    (hpos : 0 < p.start.toNat) (hnow : p.InTime now) :
    (RendezvousRegistry.pruned now s.rendezvous).lookup p.intentId =
      s.rendezvous.lookup p.intentId := by
  rw [lookup_pruned]
  cases i with
  | absent =>
    rw [show s.rendezvous.lookup p.intentId = none from h]
    rfl
  | pending =>
    obtain ⟨createdAt, htime, hl⟩ := h
    have hfresh := fresh_of_inTime hpos hnow htime
    rw [hl, Option.filter_some, PendingIntent.retained]
    simp [hfresh]
  | accepted =>
    rw [show s.rendezvous.lookup p.intentId = some _ from h]
    rfl

/-! ### The forwarding table -/

theorem tokenStands_of_kept (h : TokenStands p stage t)
    (hown : stage.intent = .accepted →
      t'.contexts.lookup p.intentId = t.contexts.lookup p.intentId)
    (hindex : stage.intent = .accepted → t'.tokenIndex.lookup p.token = t.tokenIndex.lookup p.token)
    (htokens : ∀ id ctx', t'.contexts.lookup id = some ctx' → ctx'.token = p.token →
      ∃ ctx, t.contexts.lookup id = some ctx ∧ ctx.token = p.token) :
    TokenStands p stage t' where
  context haccepted := by
    obtain ⟨ctx, hl, hctx⟩ := h.context haccepted
    exact ⟨ctx, (hown haccepted).trans hl, hctx⟩
  index haccepted := (hindex haccepted).trans (h.index haccepted)
  only id ctx' hl heq := by
    obtain ⟨ctx, hold, htoken⟩ := htokens id ctx' hl heq
    exact h.only id ctx hold htoken
  unbound := h.unbound

theorem boundState_ne_active (h : stage.complete = false) :
    boundState stage.bound ≠ .relayActive := by
  unfold boundState
  unfold Stage.complete at h
  cases hi : stage.bound .initiator <;> cases ht : stage.bound .target
  · exact nofun
  · exact nofun
  · exact nofun
  · rw [hi, ht] at h
    cases h

theorem boundState_isTerminal (bound : Role → Bool) : (boundState bound).isTerminal = false := by
  unfold boundState
  cases bound .initiator <;> cases bound .target <;> rfl

/-- A call on one context. -/
theorem tokenStands_onContext {ε α : Type} (h : TokenStands p stage t) (id : IntentId)
    (missing : ε) {x : Call ForwardingContext ε α} (hx : ∀ ctx, (x ctx).2.token = ctx.token)
    (hown : id = p.intentId → ∀ ctx,
      ContextStands p stage.bound ctx → (x ctx).2 = ctx) :
    TokenStands p stage (onContext id missing x t).2 := by
  refine tokenStands_of_kept h (fun haccepted => ?_) (fun _ => ?_) fun j ctx' hl heq => ?_
  · rw [onContext_lookup]
    split
    · next hid =>
      obtain ⟨ctx, hl, hctx⟩ := h.context haccepted
      rw [← hid, hl, Option.map_some, hown hid.symm ctx hctx]
    · rfl
  · rw [onContext_tokenIndex]
  · obtain ⟨ctx, hl', ⟨-, rfl⟩ | ⟨-, rfl⟩⟩ := onContext_context hl
    · exact ⟨ctx, hl', (hx ctx).symm.trans heq⟩
    · exact ⟨ctx', hl', heq⟩

theorem forward_inactive {rateLimit : UInt64} {source : SocketAddr} (h : ctx.state ≠ .relayActive) :
    ForwardingContext.forward rateLimit now source packetLen ctx = (.err (), ctx) := by
  rw [ForwardingContext.forward, Call.getState_bind, Call.rejectIf_bind, if_pos h]

theorem swept_of_stands (h : ContextStands p stage.bound ctx) (hopen : stage.complete = false)
    (hnow : p.InTime now) : ctx.swept now = ctx := by
  have hactive : ctx.state ≠ .relayActive := h.state ▸ boundState_ne_active hopen
  have hexchange : ¬ saturatingSub now ctx.authorizedAtMs > exchangeTimeoutMs :=
    UInt64.not_lt.mpr (saturatingSub_le_of_inTime hnow h.authorizedAt (by decide))
  have hexpires : ¬ now ≥ ctx.expiresAtMs := by
    rw [ge_iff_le, UInt64.le_iff_toNat_le]
    have hle := hnow.le
    have hexp := h.expires
    omega
  refine if_neg ?_
  rintro (⟨hstate, -⟩ | ⟨-, hlate⟩ | hlate)
  · exact hactive hstate
  · exact hexchange hlate
  · exact hexpires hlate

theorem tokenStands_sweep (h : TokenStands p stage t) (hopen : stage.complete = false)
    (hnow : p.InTime now) :
    TokenStands p stage (t.sweep now).2 := by
  refine tokenStands_of_kept h (fun haccepted => ?_) (fun haccepted => ?_) fun id ctx' hl heq => ?_
  · obtain ⟨ctx, hl, hctx⟩ := h.context haccepted
    have hlive : ctx.state.isTerminal = false := hctx.state ▸ boundState_isTerminal _
    rw [hl]
    exact lookup_sweep.mpr ⟨ctx, hl, swept_of_stands hctx hopen hnow, hlive⟩
  · rw [h.index haccepted]
    refine tokenIndex_sweep.mpr ⟨h.index haccepted, fun id ctx hl hterminal htoken => ?_⟩
    -- the one context with the token is not terminal after the sweep
    obtain ⟨own, hown, hctx⟩ := h.context haccepted
    obtain ⟨rfl, -⟩ := h.only id ctx hl htoken
    rw [hown] at hl
    cases hl
    rw [swept_of_stands hctx hopen hnow, hctx.state, boundState_isTerminal] at hterminal
    cases hterminal
  · obtain ⟨ctx, hl', rfl, -⟩ := lookup_sweep.mp hl
    exact ⟨ctx, hl', (swept_sameEnds now ctx).token.symm.trans heq⟩

/-! ### Every step of another device -/

theorem lookup_insert_of_toList_ne {V : Type} {m : HashMap IntentId V} {id id' : IntentId} {v : V}
    (h : id.toList ≠ id'.toList) : (m.insert id v).lookup id' = m.lookup id' := by
  rw [HashMap.lookup_insert_eq, if_neg fun heq => h (congrArg Bytes.toList heq.symm)]

theorem standing_of_forwarding (h : Standing p stage s) {t : ForwardingTable}
    (htoken : TokenStands p stage t)
    (hrate : t.rateLimitBytesPerSec = s.forwarding.rateLimitBytesPerSec)
    (hexpiry : t.sessionExpiryMs = s.forwarding.sessionExpiryMs) :
    Standing p stage { s with forwarding := t } :=
  ⟨h.registered, h.intent, h.both, htoken, hrate.trans h.rateLimit, hexpiry.trans h.expiry⟩

theorem standing_of_rendezvous (h : Standing p stage s) {r : RendezvousRegistry}
    (hr : r.lookup p.intentId = s.rendezvous.lookup p.intentId) :
    Standing p stage { s with rendezvous := r } :=
  ⟨h.registered, intentStands_of_lookup h.intent hr, h.both, h.token, h.rateLimit, h.expiry⟩

theorem evicted_of_room {registry : HashMap DeviceId ClientContext}
    (h : HashMap.size registry < maxRegistrations) : evicted now registry = registry :=
  if_neg (Nat.not_le.mpr h)

theorem onContext_sessionExpiryMs {ε α : Type} (intentId : IntentId) (missing : ε)
    (x : Call ForwardingContext ε α) (t : ForwardingTable) :
    (onContext intentId missing x t).2.sessionExpiryMs = t.sessionExpiryMs := by
  unfold onContext
  cases t.contexts.lookup intentId <;> rfl

/-- A call on the context of another intent. -/
theorem standing_onContext {ε α : Type} (h : Standing p stage s) {id : IntentId}
    (hid : id ≠ p.intentId) (missing : ε) {x : Call ForwardingContext ε α}
    (hx : ∀ ctx, (x ctx).2.token = ctx.token) :
    Standing p stage
      { s with forwarding := (onContext id missing x s.forwarding).2 } :=
  standing_of_forwarding h (tokenStands_onContext h.token id missing hx fun heq => absurd heq hid)
    (onContext_rateLimit ..) (onContext_sessionExpiryMs ..)

/-- Whatever another device does, what is stored for the two stays as it is. -/
theorem standing_outside (h : Standing p stage s) (hp : p.Sound) (hopen : stage.complete = false)
    {op : Op} (hop : Outside p s op) : Standing p stage (step C s op).2 := by
  have heffect := step_effect C s op
  generalize (step C s op).1 = reply at heffect
  generalize (step C s op).2 = s' at heffect ⊢
  cases heffect with
  | quiet failedLookups =>
    refine standing_of_forwarding h (tokenStands_of_kept h.token ?_ ?_ ?_) rfl rfl
    · exact fun _ => rfl
    · exact fun _ => rfl
    · exact fun _ ctx hl htoken => ⟨ctx, hl, htoken⟩
  | evicted =>
    rw [evicted_of_room hop]
    exact ⟨h.registered, h.intent, h.both, h.token, h.rateLimit, h.expiry⟩
  | registered peerAddr hauth =>
    -- of another device, or again of one of the two
    rw [evicted_of_room hop]
    refine ⟨fun role hrole => registered_insert (h.registered role hrole) rfl ?_, h.intent, h.both,
      h.token, h.rateLimit, h.expiry⟩
    rintro rfl
    exact hp.unmistakable role _ hauth.identity
  | pruned =>
    exact standing_of_rendezvous h (lookup_pruned_of_stands h.intent hp.started hop.2)
  | stored =>
    refine standing_of_rendezvous h ?_
    rw [lookup_insert_of_toList_ne hop.1]
    exact lookup_pruned_of_stands h.intent hp.started hop.2
  | touched => exact standing_of_rendezvous h (lookup_insert_of_toList_ne hop.1)
  | @accepted intentId intent candidates _ _ _ relayToken _ _ _ _ _ _ hrandom hforwarding =>
    have hrendezvous := standing_of_rendezvous h (lookup_insert_of_toList_ne
      (v := { intent with targetCandidates := candidates, state := .accepted relayToken }) hop.1)
    rcases hforwarding with ⟨-, rfl⟩ | ⟨-, expiresAtMs, rfl⟩
    · exact hrendezvous
    · have hfresh : p.token ≠ relayToken := fun heq => hop.2 (heq ▸ hrandom)
      refine standing_of_forwarding hrendezvous (tokenStands_of_kept h.token (fun _ => ?_)
        (fun _ => ?_) fun j ctx' hl htoken => ?_) rfl rfl
      · exact lookup_insert_of_toList_ne hop.1
      · rw [HashMap.lookup_insert_eq, if_neg hfresh]
      · rw [HashMap.lookup_insert_eq] at hl
        split at hl
        · cases hl
          exact absurd htoken.symm hfresh
        · exact ⟨ctx', hl, htoken⟩
  | bound => exact standing_onContext h (fun hne => hop (hne ▸ rfl)) _ (bind_token _ _ _)
  | forwarded source packetLen env hindex =>
    refine standing_of_forwarding h (tokenStands_onContext h.token _ ()
      (fun ctx => (forward_sameEnds _ _ _ _ ctx).token) fun _ ctx hctx => ?_)
      (onContext_rateLimit ..) (onContext_sessionExpiryMs ..)
    rw [forward_inactive (hctx.state ▸ boundState_ne_active hopen)]
  | closed => exact standing_onContext h hop () fun _ => rfl
  | swept now =>
    obtain ⟨hrate, hexpiry⟩ := removeAll_limits (s.forwarding.toRemove now)
      { s.forwarding with contexts := s.forwarding.marked now }
    exact standing_of_forwarding h (tokenStands_sweep h.token hopen hop) hrate hexpiry

/-! ### The steps of the two devices -/

theorem window_of_inTime {timestamp : UInt64} (hnow : p.InTime now)
    (htimestamp : p.InTime timestamp) : absDiff now timestamp ≤ timestampWindowMs := by
  obtain ⟨hge, hle⟩ := hnow
  obtain ⟨hge', hle'⟩ := htimestamp
  have hwindow : timestampWindowMs.toNat = 300000 := by decide
  rw [exchangeTimeoutMs_toNat] at hle hle'
  rw [UInt64.le_iff_toNat_le, hwindow, absDiff]
  split
  · next hlt =>
    rw [UInt64.toNat_sub_of_le _ _ (UInt64.le_of_lt hlt)]
    omega
  · next hlt =>
    rw [UInt64.toNat_sub_of_le _ _ (UInt64.not_lt.mp hlt)]
    omega

theorem signed_of_genuine
    (hc : ∀ digest, C.verify c.verifyKeyBytes digest (c.signingKey.sign digest) = true)
    (payload : List UInt8) : signed C c.verifyKeyBytes payload (c.signatureBytes payload) = true :=
  signed_eq_true.mpr ⟨_, Bytes.ofList?_toList _, hc _⟩

theorem signedBy_of_registered (h : Registered s c)
    (hc : ∀ digest, C.verify c.verifyKeyBytes digest (c.signingKey.sign digest) = true)
    (payload : List UInt8) : signedBy C s c.deviceId payload (c.signatureBytes payload) = true := by
  obtain ⟨ctx, hl, hbytes⟩ := h
  refine signedBy_eq_true.mpr ⟨ctx, hl, ?_⟩
  rw [hbytes]
  exact ⟨c.signingKey.verifyKey.valid, signed_of_genuine hc payload⟩

theorem isRegistered_of_registered (h : Registered s c) : s.isRegistered c.deviceId = true := by
  obtain ⟨ctx, hl, -⟩ := h
  rw [isRegistered, hl]
  rfl

theorem step_message {message : RelayMessage} {peerAddr : Option SocketAddr} {env : Env}
    {r : Outcome RelayError RelayMessage}
    (h : handleMessageFrom C env message peerAddr s = (r, s')) :
    step C s (.message message peerAddr env) = (.response r, s') := by
  rw [step, h]

/-- A device registers itself. -/
theorem register_answered
    (hc : ∀ digest, C.verify c.verifyKeyBytes digest (c.signingKey.sign digest) = true)
    (hclock : p.InTime (env.clock 0)) (htimestamp : p.InTime timestamp)
    (hroom : HashMap.size s.registry < maxRegistrations) (addr : SocketAddr) :
    ∃ id, step C s (.message (c.request (.register timestamp)) (some addr) env) =
      (.response (.ok (.registerAck id (some addr))),
        { s with
          registry := s.registry.insert c.deviceId ⟨id, env.clock 0, c.verifyKeyBytes, some addr⟩
          nextSessionId := id + 1 }) := by
  have hauth : RegisterAuth C (env.clock 0) c.deviceId c.verifyKeyBytes timestamp
      (c.signatureBytes (registerPayload c.deviceId c.verifyKeyBytes timestamp)) :=
    ⟨window_of_inTime hclock htimestamp, c.signingKey.verifyKey.valid, rfl, signed_of_genuine hc _⟩
  refine ⟨s.nextSessionId, ?_⟩
  rcases handleRegister_cases (s := s) env c.deviceId c.verifyKeyBytes timestamp
    (c.signatureBytes (registerPayload c.deviceId c.verifyKeyBytes timestamp)) (some addr) with
    ⟨hno, -⟩ | ⟨-, ⟨hfull, -⟩ | ⟨-, heq⟩⟩
  · exact absurd hauth hno
  · rw [evicted_of_room hroom] at hfull
    exact absurd hfull (Nat.not_le.mpr hroom)
  · rw [evicted_of_room hroom] at heq
    exact step_message heq

theorem registered_self {id : UInt64} {addr : Option SocketAddr}
    (hs : s'.registry = s.registry.insert c.deviceId ⟨id, now, c.verifyKeyBytes, addr⟩) :
    Registered s' c :=
  ⟨_, by rw [hs]; exact AList.lookup_insert _, rfl⟩

section

variable (h : Standing p stage s)
include h

theorem register_part (hp : p.Sound) {role : Role}
    (hfair : Fair p s timestamp env (.register role)) :
    p.Answered (step C s (p.op timestamp env (.register role))).1 (.register role) ∧
      Standing p { stage with registered := Function.update stage.registered role true }
        (step C s (p.op timestamp env (.register role))).2 := by
  obtain ⟨id, heq⟩ := register_answered (hp.genuine role) (hfair.clock 0) hfair.timestamp
    (hfair.registrations role rfl) (p.addr role)
  rw [Pairing.op, heq]
  refine ⟨⟨id, rfl⟩, fun other hother => ?_, h.intent, fun hi other => ?_,
    ⟨h.token.context, h.token.index, h.token.only, h.token.unbound⟩, h.rateLimit, h.expiry⟩
  · by_cases hrole : other = role
    · exact hrole ▸ registered_self rfl
    · have hold : stage.registered other = true :=
        (Function.update_of_ne hrole _ _).symm.trans hother
      exact registered_insert (h.registered other hold) rfl fun hid => hp.unmistakable other _ hid
  · by_cases hrole : other = role
    · exact hrole ▸ Function.update_self ..
    · exact (Function.update_of_ne hrole _ _).trans (h.both hi other)

theorem connectIntent_answered (hp : p.Sound) (hfair : Fair p s timestamp env .connectIntent)
    (hboth : (stage.registered .initiator && stage.registered .target) = true)
    (habsent : stage.intent = .absent) :
    p.Answered (step C s (p.op timestamp env .connectIntent)).1 .connectIntent ∧
      Standing p { stage with intent := .pending }
        (step C s (p.op timestamp env .connectIntent)).2 := by
  obtain ⟨hi, ht⟩ := Bool.and_eq_true_iff.mp hboth
  have hauth : ConnectAuth C s (env.clock 0) (p.id .initiator) (p.id .target) p.intentId timestamp
      ((p.client .initiator).signatureBytes
        (pairPayload p.intentId.toList (p.id .initiator) (p.id .target) timestamp)) :=
    ⟨window_of_inTime (hfair.clock 0) hfair.timestamp,
      isRegistered_of_registered (h.registered _ ht),
      signedBy_of_registered (h.registered _ hi) (hp.genuine _) _⟩
  have hnone : s.rendezvous.lookup p.intentId = none := by
    have hintent := h.intent
    rw [habsent] at hintent
    exact hintent
  rcases handleConnectIntent_cases (s := s) env (p.id .initiator) (p.id .target) p.intentId.toList
    (p.candidates .initiator) timestamp ((p.client .initiator).signatureBytes
      (pairPayload p.intentId.toList (p.id .initiator) (p.id .target) timestamp)) with
    ⟨hno, -⟩ | ⟨id, hid, -, heq⟩
  · exact absurd hauth (hno p.intentId rfl)
  cases Bytes.toList_injective hid
  have hroom := hfair.intents rfl
  have hfresh := lookup_pruned_of_stands h.intent hp.started (hfair.clock 1)
  rcases registerIntent_cases (env.clock 1) p.intentId (p.id .initiator) (p.id .target)
    (p.candidates .initiator) s.rendezvous with ⟨hfull, -⟩ | ⟨-, hany, -⟩ | ⟨-, -, hr⟩
  · exact absurd hfull (Nat.not_le.mpr hroom)
  · rw [hfresh, hnone] at hany
    cases hany
  rw [hr] at heq
  have hnot : stage.intent ≠ .accepted := by
    rw [habsent]
    exact nofun
  have hstep : step C s (p.op timestamp env .connectIntent) = _ := step_message heq
  rw [hstep]
  refine ⟨rfl, h.registered, ⟨env.clock 1, hfair.clock 1, AList.lookup_insert _⟩, fun _ role => ?_,
    ⟨nofun, nofun, fun id ctx hl heq => ?_, fun _ => h.token.unbound hnot⟩, h.rateLimit, h.expiry⟩
  · cases role with
    | initiator => exact hi
    | target => exact ht
  · exact absurd (h.token.only id ctx hl heq).2 hnot

theorem pending_of_stands (hpending : stage.intent = .pending) :
    ∃ createdAt, p.InTime createdAt ∧ s.rendezvous.lookup p.intentId =
      some ⟨p.id .initiator, p.id .target, p.candidates .initiator, [], .pending createdAt⟩ := by
  have hintent := h.intent
  rw [hpending] at hintent
  exact hintent

theorem poll_answered (hp : p.Sound) (hfair : Fair p s timestamp env .poll)
    (hpending : stage.intent = .pending) :
    p.Answered (step C s (p.op timestamp env .poll)).1 .poll ∧
      Standing p stage (step C s (p.op timestamp env .poll)).2 := by
  have honline : s.isRegistered (p.id .target) = true :=
    isRegistered_of_registered (h.registered _ (h.both (hpending ▸ nofun) _))
  obtain ⟨createdAt, htime, hl⟩ := pending_of_stands h hpending
  have heq : handlePollPendingIntents env (p.id .target) s = (.ok (.pendingIntents
      ((s.rendezvous.pendingFor (env.clock 0) (p.id .target)).map fun p => ⟨p.2, p.1.toList⟩)),
        s) := by
    rw [handlePollPendingIntents, Call.getState_bind, Call.rejectIf_bind, honline,
      if_neg Bool.noConfusion]
    rfl
  have hstep : step C s (p.op timestamp env .poll) = _ := step_message heq
  rw [hstep]
  refine ⟨⟨_, rfl, List.mem_map.mpr ⟨(p.intentId, p.id .initiator), ?_, rfl⟩⟩, h⟩
  refine List.mem_filterMap.mpr ⟨_, HashMap.mem_entries.mpr hl, ?_⟩
  dsimp only
  rw [if_pos rfl, if_pos (fresh_of_inTime hp.started (hfair.clock 0) htime)]

theorem accept_answered (hp : p.Sound) (hfair : Fair p s timestamp env .accept)
    (hpending : stage.intent = .pending) :
    p.Answered (step C s (p.op timestamp env .accept)).1 .accept ∧
      Standing p { stage with intent := .accepted } (step C s (p.op timestamp env .accept)).2 := by
  have hboth := h.both (hpending ▸ nofun)
  obtain ⟨createdAt, htime, hl⟩ := pending_of_stands h hpending
  have hauth : AcceptAuth C s (env.clock 0) (p.id .target) p.intentId timestamp
      ((p.client .target).signatureBytes
        (pairPayload p.intentId.toList (p.id .target) (p.id .initiator) timestamp))
      ⟨p.id .initiator, p.id .target, p.candidates .initiator, [], .pending createdAt⟩ :=
    ⟨window_of_inTime (hfair.clock 0) hfair.timestamp, hl,
      signedBy_of_registered (h.registered _ (hboth _)) (hp.genuine _) _⟩
  have hage : saturatingSub (env.clock 1) createdAt ≤ intentTimeoutMs :=
    saturatingSub_le_of_inTime (hfair.clock 1) htime (by decide)
  have hnot : stage.intent ≠ .accepted := hpending ▸ nofun
  rcases handleAcceptConnect_cases (s := s) env (p.id .target) p.intentId.toList
    (p.candidates .target) timestamp ((p.client .target).signatureBytes
      (pairPayload p.intentId.toList (p.id .target) (p.id .initiator) timestamp)) with
    ⟨hno, -⟩ | ⟨id, intent, hid, hauth', hcases⟩
  · exact absurd hauth (hno p.intentId _ rfl)
  cases Bytes.toList_injective hid
  cases hauth'.found.symm.trans hl
  rcases hcases with ⟨hno, -⟩ | ⟨created, hstate, ⟨hlate, -⟩ | ⟨-, -, ⟨hnone, -⟩ |
    ⟨relayToken, hrandom, r, forwarding, heq, hforwarding⟩⟩⟩
  · exact absurd rfl (hno createdAt rfl).2
  · cases hstate
    exact absurd hage (UInt64.not_le.mpr hlate)
  · rw [hfair.random rfl] at hnone
    cases hnone
  rw [hfair.random rfl] at hrandom
  cases hrandom
  rcases hforwarding with ⟨hover, -⟩ | ⟨rfl, expiresAtMs, hexpires, rfl⟩
  · exact absurd (hfair.expiry rfl) (Nat.not_lt.mpr hover)
  have hstep : step C s (p.op timestamp env .accept) = _ := step_message heq
  rw [hstep]
  have hafter : p.start.toNat + exchangeTimeoutMs.toNat < expiresAtMs.toNat := by
    have hge := (hfair.clock 2).ge
    have hexpiry := UInt64.lt_iff_toNat_lt.mp hp.expiry
    rw [hexpires, h.expiry]
    omega
  refine ⟨rfl, h.registered, AList.lookup_insert _, fun _ => hboth,
    ⟨fun _ => ⟨_, AList.lookup_insert _, ?_⟩, fun _ => AList.lookup_insert _,
      fun id ctx hl heq => ?_, fun hno => absurd rfl hno⟩, h.rateLimit, h.expiry⟩
  · rw [h.token.unbound hnot]
    exact ⟨rfl, rfl, rfl, rfl, hfair.clock 2, hfair.clock 2, hafter, rfl,
      by rw [← h.rateLimit]; rfl⟩
  · rw [HashMap.lookup_insert_eq] at hl
    split at hl
    · next hid => exact ⟨hid, rfl⟩
    · exact absurd (h.token.only id ctx hl heq).2 hnot

theorem getCandidates_answered (haccepted : stage.intent = .accepted) :
    p.Answered (step C s (p.op timestamp env .getCandidates)).1 .getCandidates ∧
      Standing p stage (step C s (p.op timestamp env .getCandidates)).2 := by
  have honline :=
    isRegistered_of_registered (h.registered .initiator (h.both (haccepted ▸ nofun) _))
  have hl : s.rendezvous.lookup p.intentId = some ⟨p.id .initiator, p.id .target,
      p.candidates .initiator, p.candidates .target, .accepted p.token⟩ := by
    have hintent := h.intent
    rw [haccepted] at hintent
    exact hintent
  rcases handleGetCandidates_cases (s := s) (p.id .initiator) p.intentId.toList with
    ⟨hno, -⟩ | ⟨id, intent, relayToken, hid, hauth, heq⟩
  · exact absurd ⟨honline, hl, rfl, rfl⟩ (hno p.intentId _ p.token rfl)
  · cases Bytes.toList_injective hid
    cases hauth.found.symm.trans hl
    cases hauth.accepted
    have hstep : step C s (p.op timestamp env .getCandidates) = _ := step_message heq
    rw [hstep]
    exact ⟨rfl, h⟩

end

theorem not_overdue_of_stands (h : ContextStands p bound ctx) (hnow : p.InTime now) :
    ¬ ctx.Overdue now := by
  have hidle : saturatingSub now ctx.lastActiveMs ≤ idleTimeoutMs :=
    saturatingSub_le_of_inTime hnow h.lastActive (by decide)
  rintro (hlate | hlate)
  · exact absurd hidle (UInt64.not_le.mpr hlate)
  · have hle := hnow.le
    have hexpires := h.expires
    rw [ge_iff_le, UInt64.le_iff_toNat_le] at hlate
    omega

/-- The context takes the address of either device. -/
theorem bind_stands (hp : p.Sound) (h : ContextStands p bound ctx) (hnow : p.InTime now)
    (role : Role) :
    ∃ ctx', ForwardingContext.bind now (p.id role) (p.addr role) ctx = (.ok (), ctx') ∧
      ContextStands p (Function.update bound role true) ctx' := by
  have hlive : ctx.state.isTerminal = false := h.state ▸ boundState_isTerminal bound
  have hinitiator : ctx.initiator.deviceId = p.id .initiator := by rw [h.initiator]; rfl
  have htarget : ctx.target.deviceId = p.id .target := by rw [h.target]; rfl
  rcases bind_cases now (p.id role) (p.addr role) ctx with
    ⟨hdead | ⟨-, hother, hstranger⟩, -⟩ | ⟨-, hlate, -⟩ | ⟨-, -, hid, heq⟩ |
    ⟨-, -, hother, hid, heq⟩
  · rw [hlive] at hdead
    cases hdead
  · cases role with
    | initiator => exact absurd hinitiator hother
    | target => exact absurd htarget hstranger
  · exact absurd hlate (not_overdue_of_stands h hnow)
  · obtain rfl : role = .initiator := by
      cases role with
      | initiator => rfl
      | target => exact absurd (hinitiator.symm.trans hid) hp.distinct
    refine ⟨_, heq, h.token, ?_, h.target, ?_, hnow, h.authorizedAt, h.expires, h.bytes, h.bucket⟩
    · rw [ForwardingContext.bound, h.initiator]
      rfl
    · rw [ForwardingContext.bound, h.target]
      cases hb : bound .target <;> simp [Pairing.binding, boundState, hb]
  · obtain rfl : role = .target := by
      cases role with
      | initiator => exact absurd hinitiator hother
      | target => rfl
    refine ⟨_, heq, h.token, h.initiator, ?_, ?_, hnow, h.authorizedAt, h.expires, h.bytes,
      h.bucket⟩
    · rw [ForwardingContext.bound, h.target]
      rfl
    · rw [ForwardingContext.bound, h.initiator]
      cases hb : bound .initiator <;> simp [Pairing.binding, boundState, hb]

theorem bind_part (h : Standing p stage s) (hp : p.Sound) {role : Role}
    (hfair : Fair p s timestamp env (.bind role)) (haccepted : stage.intent = .accepted) :
    p.Answered (step C s (p.op timestamp env (.bind role))).1 (.bind role) ∧
      Standing p { stage with bound := Function.update stage.bound role true }
        (step C s (p.op timestamp env (.bind role))).2 := by
  obtain ⟨ctx, hl, hctx⟩ := h.token.context haccepted
  obtain ⟨ctx', hok, hctx'⟩ := bind_stands hp hctx (hfair.clock 1) role
  have hauth : EstablishAuth C s (env.clock 0) p.intentId (p.id role) timestamp
      ((p.client role).signatureBytes (establishPayload p.intentId.toList (p.id role) timestamp)) :=
    ⟨window_of_inTime (hfair.clock 0) hfair.timestamp,
      signedBy_of_registered (h.registered _ (h.both (haccepted ▸ nofun) _)) (hp.genuine _) _⟩
  have hupdate : updateBinding (env.clock 1) p.intentId (p.id role) (p.addr role) s.forwarding =
      (.ok (), { s.forwarding with contexts := s.forwarding.contexts.insert p.intentId ctx' }) := by
    rw [updateBinding, onContext, hl]
    dsimp only
    rw [hok]
  rcases handleRelayEstablish_cases (s := s) env p.intentId.toList (p.id role) timestamp
    ((p.client role).signatureBytes (establishPayload p.intentId.toList (p.id role) timestamp))
    (some (p.addr role)) with ⟨hno, -⟩ | ⟨id, addr, hid, haddr, -, heq⟩
  · exact absurd hauth (hno p.intentId (p.addr role) rfl rfl)
  cases Bytes.toList_injective hid
  cases haddr
  rw [hupdate] at heq
  have hstep : step C s (p.op timestamp env (.bind role)) = _ := step_message heq
  rw [hstep]
  refine ⟨rfl, h.registered, h.intent, h.both,
    ⟨fun _ => ⟨ctx', AList.lookup_insert _, hctx'⟩, h.token.index, fun id ctx₁ hl₁ htok => ?_,
      fun hno => absurd haccepted hno⟩, h.rateLimit, h.expiry⟩
  dsimp only at hl₁
  rw [HashMap.lookup_insert_eq] at hl₁
  split at hl₁
  · next hid => exact ⟨hid, haccepted⟩
  · exact h.token.only id ctx₁ hl₁ htok

/-- Each step of the two devices is answered, and takes them to the next stage. -/
theorem part_answered (h : Standing p stage s) (hp : p.Sound) {part : Part} {stage' : Stage}
    (hnext : stage.next part = some stage') (hfair : Fair p s timestamp env part) :
    p.Answered (step C s (p.op timestamp env part)).1 part ∧
      Standing p stage' (step C s (p.op timestamp env part)).2 := by
  cases part with
  | register role =>
    cases hnext
    exact register_part h hp hfair
  | connectIntent =>
    obtain ⟨⟨hboth, habsent⟩, ⟨⟩⟩ := Option.ite_none_right_eq_some.mp hnext
    exact connectIntent_answered h hp hfair hboth habsent
  | poll =>
    obtain ⟨hpending, ⟨⟩⟩ := Option.ite_none_right_eq_some.mp hnext
    exact poll_answered h hp hfair hpending
  | accept =>
    obtain ⟨hpending, ⟨⟩⟩ := Option.ite_none_right_eq_some.mp hnext
    exact accept_answered h hp hfair hpending
  | getCandidates =>
    obtain ⟨haccepted, ⟨⟩⟩ := Option.ite_none_right_eq_some.mp hnext
    exact getCandidates_answered h haccepted
  | bind role =>
    obtain ⟨⟨haccepted, -⟩, ⟨⟩⟩ := Option.ite_none_right_eq_some.mp hnext
    exact bind_part h hp hfair haccepted

theorem standing_start (p : Pairing C) :
    Standing p .start (RelayServer.withLimits p.rateLimit p.expiry) where
  registered := nofun
  intent := rfl
  both h := absurd rfl h
  token := ⟨nofun, nofun, nofun, fun _ => rfl⟩
  rateLimit := rfl
  expiry := rfl

/-! ### The first packet -/

theorem refilled_full {rateLimit : UInt64} {b : RateBucket} (h : b.tokens = rateLimit.toNat) :
    (ForwardingContext.refilled rateLimit now b).tokens = rateLimit.toNat := by
  have hadded : (0 : ℚ) ≤ (saturatingSub now b.lastRefillMs).toNat / 1000 * rateLimit.toNat :=
    mul_nonneg (div_nonneg (Nat.cast_nonneg _) (by decide)) (Nat.cast_nonneg _)
  show min _ _ = _
  rw [h]
  exact min_eq_right (le_add_of_nonneg_right hadded)

/-- A context with both addresses forwards its first packet. -/
theorem forward_stands {source destination : SocketAddr} (h : ContextStands p bound ctx)
    (hstate : ctx.state = .relayActive) (hnow : p.InTime now)
    (hopposite : ctx.opposite source = some destination) (hlen : packetLen ≤ p.rateLimit) :
    (ForwardingContext.forward p.rateLimit now source packetLen ctx).1 = .ok destination := by
  have htokens :
      ¬ (ForwardingContext.refilled p.rateLimit now ctx.rateBucket).tokens < packetLen.toNat := by
    rw [refilled_full h.bucket, not_lt]
    exact Nat.cast_le.mpr (UInt64.le_iff_toNat_le.mp hlen)
  have hlive : ¬ (now ≥ ctx.expiresAtMs ∨ ctx.bytesForwarded ≥ sessionByteCap ∨
      saturatingSub now ctx.lastActiveMs > idleTimeoutMs) := by
    have hdue := not_or.mp (not_overdue_of_stands h hnow)
    rintro (hexpired | hcap | hidle)
    · exact hdue.2 hexpired
    · rw [h.bytes] at hcap
      exact absurd hcap (by decide)
    · exact hdue.1 hidle
  rw [ForwardingContext.forward, Call.getState_bind, Call.rejectIf_bind,
    if_neg (not_not.mpr hstate), if_neg hlive, hopposite]
  dsimp only
  rw [Call.update_bind, Call.rejectIf_bind, if_neg htokens, Call.update_bind]
  rcases Outcome.add64_cases (ε := Unit) ctx.bytesForwarded packetLen with
    ⟨bytes, -, hadd⟩ | ⟨hover, -⟩
  · rw [hadd]
    rfl
  · rw [h.bytes] at hover
    have hlt := packetLen.toNat_lt
    simp at hover
    omega

/-- A packet from one of the two addresses goes to the other one. -/
theorem getDestination_stands {role other : Role} (h : Standing p stage s)
    (hcomplete : stage.complete = true) (hclock : p.InTime (env.clock 0))
    (hlisted : s.forwarding.isBlocklisted (p.addr role).ip (env.clock 1) = false)
    (hlen : packetLen ≤ p.rateLimit) (hother : other ≠ role) :
    (getDestination env p.token (p.addr role) packetLen s.forwarding).1 = .ok (p.addr other) := by
  obtain ⟨hi, ht⟩ := Bool.and_eq_true_iff.mp hcomplete
  have haccepted : stage.intent = .accepted := by
    by_contra hno
    rw [h.token.unbound hno] at hi
    cases hi
  obtain ⟨ctx, hl, hctx⟩ := h.token.context haccepted
  have hstate : ctx.state = .relayActive := by rw [hctx.state, boundState, hi, ht]
  have hopposite : ctx.opposite (p.addr role) = some (p.addr other) := by
    rw [ForwardingContext.opposite, hctx.initiator, hctx.target, Pairing.binding, Pairing.binding,
      hi, ht]
    cases role <;> cases other
    · exact absurd rfl hother
    · simp
    · simp
    · exact absurd rfl hother
  rw [getDestination, Call.getState_bind, Call.rejectIf_bind, hlisted, if_neg Bool.noConfusion,
    h.token.index haccepted, h.rateLimit]
  dsimp only
  rw [onContext, hl]
  exact forward_stands hctx hstate hclock hopposite hlen

end CompletionLemmas

/-! ## Whole runs -/

/-- A turn of the relay: a step of the two devices, or of someone else. -/
inductive Turn where
  | ours (part : Part) (timestamp : UInt64) (env : Env)
  | other (op : Op)

/-- The relay, and how far the two devices are. -/
structure Progress where
  server : RelayServer
  stage : Stage

variable (p : Pairing C)

/-- One turn. -/
def pairingStep (q : Progress) : Turn → Reply × Progress
  | .ours part timestamp env =>
    ((step C q.server (p.op timestamp env part)).1,
      ⟨(step C q.server (p.op timestamp env part)).2, (q.stage.next part).getD q.stage⟩)
  | .other op => ((step C q.server op).1, ⟨(step C q.server op).2, q.stage⟩)

/-- A turn that can come: a step of the two devices in their order, with room and in time, or until
both addresses are bound a step of someone else that stays outside of the pairing. -/
def Admissible (q : Progress) : Turn → Prop
  | .ours part timestamp env =>
    (q.stage.next part).isSome = true ∧ Fair p q.server timestamp env part
  | .other op => q.stage.complete = false ∧ Outside p q.server op

/-- The turns at an empty relay. -/
def pairingRun (turns : List Turn) : List (Entry Progress Turn Reply) :=
  run (pairingStep p) ⟨RelayServer.withLimits p.rateLimit p.expiry, .start⟩ turns

/-- The relay after the turns. -/
def pairingAfter (turns : List Turn) : Progress :=
  endState (pairingStep p) ⟨RelayServer.withLimits p.rateLimit p.expiry, .start⟩ turns

open CompletionLemmas

/-- Two devices that follow the protocol get through. Each of their requests is answered as they
wait for it, whatever others do in between, and once both addresses are bound a packet from either
of them goes to the other one. -/
theorem rendezvous_completes (hp : p.Sound) (turns : List Turn)
    (hturns : ∀ e ∈ pairingRun p turns, Admissible p e.pre e.input) :
    (∀ e ∈ pairingRun p turns, ∀ part timestamp env, e.input = .ours part timestamp env →
      p.Answered e.out part) ∧
    ((pairingAfter p turns).stage.complete = true → ∀ role other, other ≠ role →
      ∀ env packetLen, p.InTime (env.clock 0) → packetLen ≤ p.rateLimit →
        (pairingAfter p turns).server.forwarding.isBlocklisted (p.addr role).ip (env.clock 1) =
          false →
        (getDestination env p.token (p.addr role) packetLen
          (pairingAfter p turns).server.forwarding).1 = .ok (p.addr other)) := by
  have hrun : (∀ e ∈ pairingRun p turns, ∀ part timestamp env, e.input = .ours part timestamp env →
        p.Answered e.out part) ∧
      Standing p (pairingAfter p turns).stage (pairingAfter p turns).server := by
    refine run_guarded (G := Admissible p) (P := fun h q => (∀ e ∈ h, ∀ part timestamp env,
      e.input = .ours part timestamp env → p.Answered e.out part) ∧
      Standing p q.stage q.server) ?_ ?_
      hturns
    · exact ⟨fun e he => absurd he List.not_mem_nil, standing_start p⟩
    · rintro h q turn ⟨hanswered, hstands⟩ hturn
      cases turn with
      | ours part timestamp env =>
        obtain ⟨hnext, hfair⟩ := hturn
        obtain ⟨stage', hstage'⟩ := Option.isSome_iff_exists.mp hnext
        obtain ⟨hanswer, hstands'⟩ := part_answered hstands hp hstage' hfair
        refine ⟨List.forall_mem_append.mpr ⟨hanswered, List.forall_mem_singleton.mpr ?_⟩, ?_⟩
        · rintro _ _ _ ⟨⟩
          exact hanswer
        · show Standing p ((q.stage.next part).getD q.stage) _
          rw [hstage']
          exact hstands'
      | other op =>
        refine ⟨List.forall_mem_append.mpr ⟨hanswered, List.forall_mem_singleton.mpr ?_⟩,
          standing_outside hstands hp hturn.1 hturn.2⟩
        rintro _ _ _ ⟨⟩
  refine ⟨hrun.1, fun hcomplete role other hother env packetLen hclock hlen hlisted => ?_⟩
  exact getDestination_stands hrun.2 hcomplete hclock hlisted hlen hother

/-! ### A rendezvous beside a third device -/

/-- A transparent instance in which the digest of a key is the key. -/
def RelayCrypto.literal : RelayCrypto where
  sha256 := fun bytes => (Bytes.ofList? 32 bytes).getD (plainSha256 bytes)
  validKey := RelayCrypto.plain.validKey
  verify := RelayCrypto.plain.verify

/-- A client whose key bytes are all `b`. -/
def literalClient (b : UInt8) : RelayControlClient .literal where
  signingKey :=
    { verifyKey := ⟨Bytes.fill 32 b, rfl⟩
      sign := (plainClient b).signingKey.sign }

theorem literal_sha256 (key : Bytes 32) : RelayCrypto.literal.sha256 key.toList = key := by
  simp [RelayCrypto.literal]

theorem literalClient_deviceId (b : UInt8) : (literalClient b).deviceId = Bytes.fill 32 b :=
  literal_sha256 _

/-- Two transparent devices. -/
def literalPair : Pairing .literal where
  client role := literalClient (if role = .initiator then 1 else 2)
  intentId := Bytes.fill 16 5
  candidates _ := []
  addr role := .v4 (Bytes.fill 4 (if role = .initiator then 10 else 20)) 4000
  token := Bytes.fill 32 7
  start := 1000
  rateLimit := 625000
  expiry := 120000

theorem literalPair_sound : literalPair.Sound where
  genuine _ _ := decide_eq_true rfl
  distinct := by
    show (literalClient 1).deviceId ≠ (literalClient 2).deviceId
    rw [literalClient_deviceId, literalClient_deviceId]
    decide
  unmistakable role key hkey := by
    rw [literal_sha256] at hkey
    exact hkey.trans (literalClient_deviceId _)
  started := by decide
  expiry := by decide

/-- The parts in their order, between the registration of a third device and a sweep. -/
def literalTurns : List Turn :=
  .other (.message ((literalClient 3).request (.register 1000)) none (.at 1000 none)) ::
    [.register .initiator, .register .target, .connectIntent, .poll, .accept, .getCandidates,
      .bind .target].map (fun part => .ours part 1000 (.at 1000 (some literalPair.token))) ++
    [.other (.sweep 1000), .ours (.bind .initiator) 1000 (.at 1000 none)]

theorem literalTurns_admissible :
    ∀ e ∈ pairingRun literalPair literalTurns, Admissible literalPair e.pre e.input := by
  have hroom : ∀ e ∈ pairingRun literalPair literalTurns,
      HashMap.size e.pre.server.registry < maxRegistrations ∧
      HashMap.size (RendezvousRegistry.pruned 1000 e.pre.server.rendezvous) < maxIntents ∧
      e.pre.server.forwarding.sessionExpiryMs = 120000 := by decide +kernel
  have htime : literalPair.InTime 1000 := ⟨by decide, by decide⟩
  intro e he
  obtain ⟨hregistry, hintents, hexpiry⟩ := hroom e he
  have hfair : ∀ part random, (part = .accept → random = some literalPair.token) →
      Fair literalPair e.pre.server 1000 (.at 1000 random) part := by
    intro part random hrandom
    refine ⟨fun _ => htime, htime, fun _ _ => hregistry, fun _ => hintents, hrandom, fun _ => ?_⟩
    rw [hexpiry]
    exact Nat.lt_of_le_of_lt (Nat.add_le_add_right htime.le _) (by decide)
  simp only [pairingRun, literalTurns, List.map, List.cons_append, List.nil_append, run_cons,
    run_nil, List.mem_cons, List.not_mem_nil, or_false] at he
  rcases he with rfl | rfl | rfl | rfl | rfl | rfl | rfl | rfl | rfl | rfl
  · exact ⟨rfl, hregistry⟩
  · exact ⟨rfl, hfair _ _ fun _ => rfl⟩
  · exact ⟨rfl, hfair _ _ fun _ => rfl⟩
  · exact ⟨rfl, hfair _ _ fun _ => rfl⟩
  · exact ⟨rfl, hfair _ _ fun _ => rfl⟩
  · exact ⟨rfl, hfair _ _ fun _ => rfl⟩
  · exact ⟨rfl, hfair _ _ fun _ => rfl⟩
  · exact ⟨rfl, hfair _ _ fun _ => rfl⟩
  · exact ⟨rfl, htime⟩
  · exact ⟨rfl, hfair _ _ nofun⟩

theorem rendezvous_completes_literal :
    (∀ e ∈ pairingRun literalPair literalTurns, ∀ part timestamp env,
      e.input = .ours part timestamp env → literalPair.Answered e.out part) ∧
    (getDestination (.at 1500 none) literalPair.token (literalPair.addr .initiator) 1200
      (pairingAfter literalPair literalTurns).server.forwarding).1 =
        .ok (literalPair.addr .target) := by
  obtain ⟨hanswered, hforwards⟩ := rendezvous_completes literalPair literalPair_sound literalTurns
    literalTurns_admissible
  refine ⟨hanswered, hforwards rfl .initiator .target nofun (.at 1500 none) 1200
    ⟨by decide, by decide⟩
    (by decide) ?_⟩
  decide +kernel

end Blackwing.Relay

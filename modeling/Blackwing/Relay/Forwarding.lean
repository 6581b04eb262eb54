import Blackwing.Lib.HashMap
import Blackwing.Relay.Message
import Mathlib.Data.Rat.Defs
import Mathlib.Algebra.Order.Field.Rat

/-!
# The forwarding table

`bw-relay/src/forwarding.rs`: forwarding contexts by intent id, an index from relay
tokens to intent ids, and a count of failed lookups per source address. The bucket
of the rate limiter is read as exact rational arithmetic, and an overflowing `+` as
a panic.

* `onContext_lookup`, `bind_cases`, `forward_cases`: what a call on one context can do.
* `authorizePair_cases`, `getDestination_cases`: the same for the whole table.
* `lookup_sweep`, `tokenIndex_sweep`: the two maps after a sweep.
-/

namespace Blackwing.Relay

/-! ## Constants -/

/-- `IDLE_TIMEOUT_MS`. -/
def idleTimeoutMs : UInt64 := 30000

/-- `SESSION_EXPIRY_MS`. -/
def sessionExpiryMs : UInt64 := 120000

/-- `SESSION_BYTE_CAP`. -/
def sessionByteCap : UInt64 := 10 * 1024 * 1024 * 1024

/-- `EXCHANGE_TIMEOUT_MS`. -/
def exchangeTimeoutMs : UInt64 := 10000

/-- `RATE_LIMIT_BYTES_PER_SEC`. -/
def rateLimitBytesPerSec : UInt64 := 625000

/-- `BLOCKLIST_THRESHOLD`. -/
def blocklistThreshold : UInt64 := 20

/-- `BLOCKLIST_WINDOW_MS`. -/
def blocklistWindowMs : UInt64 := 60000

/-- `MAX_BLOCKLIST_ENTRIES`. -/
def maxBlocklistEntries : Nat := 4096

/-! ## One context -/

/-- `ForwardingState`. -/
inductive ForwardingState where
  | authorized
  | relayRequested
  | relayActive
  | relayExpired
  | relayClosed
deriving DecidableEq

/-- `RelayExpired` or `RelayClosed`. -/
def ForwardingState.isTerminal : ForwardingState → Bool
  | .relayExpired => true
  | .relayClosed => true
  | _ => false

/-- `EndpointBinding`. -/
structure EndpointBinding where
  deviceId : DeviceId
  addr : Option SocketAddr
deriving DecidableEq

/-- `RateBucket`. -/
structure RateBucket where
  tokens : ℚ
  lastRefillMs : UInt64
deriving DecidableEq

/-- `ForwardingContext`. -/
structure ForwardingContext where
  intentId : IntentId
  token : RelayToken
  initiator : EndpointBinding
  target : EndpointBinding
  state : ForwardingState
  lastActiveMs : UInt64
  expiresAtMs : UInt64
  bytesForwarded : UInt64
  authorizedAtMs : UInt64
  rateBucket : RateBucket
deriving DecidableEq

namespace ForwardingContext

/-- The end of `update_binding`: the state after an address was bound. -/
def bound (now : UInt64) (ctx : ForwardingContext) : ForwardingContext :=
  { ctx with
    lastActiveMs := now
    state := if ctx.initiator.addr.isSome ∧ ctx.target.addr.isSome then .relayActive
      else .relayRequested }

/-- `update_binding` comes too late: after the idle timeout or the absolute expiry. -/
def Overdue (now : UInt64) (ctx : ForwardingContext) : Prop :=
  saturatingSub now ctx.lastActiveMs > idleTimeoutMs ∨ now ≥ ctx.expiresAtMs

instance (now : UInt64) (ctx : ForwardingContext) : Decidable (ctx.Overdue now) :=
  inferInstanceAs (Decidable (_ ∨ _))

/-- `update_binding` on the context it found. -/
def bind (now : UInt64) (deviceId : DeviceId) (addr : SocketAddr) :
    Call ForwardingContext String Unit := do
  let ctx ← Call.getState
  Call.rejectIf (ctx.state.isTerminal = true) "Cannot rebind a closed or expired forwarding session"
  if saturatingSub now ctx.lastActiveMs > idleTimeoutMs then do
    Call.update fun c => { c with state := .relayExpired }
    Call.fail "Forwarding session has expired due to inactivity"
  else if now ≥ ctx.expiresAtMs then do
    Call.update fun c => { c with state := .relayExpired }
    Call.fail "Forwarding session has reached its absolute expiry"
  else if ctx.initiator.deviceId = deviceId then
    Call.update fun c => bound now { c with initiator := { c.initiator with addr := some addr } }
  else if ctx.target.deviceId = deviceId then
    Call.update fun c => bound now { c with target := { c.target with addr := some addr } }
  else Call.fail "Device is not part of this forwarding session"

/-- The bucket after the refill of `get_destination`. -/
def refilled (rateLimit now : UInt64) (b : RateBucket) : RateBucket :=
  let elapsedS : ℚ := (saturatingSub now b.lastRefillMs).toNat / 1000
  ⟨min (b.tokens + elapsedS * rateLimit.toNat) rateLimit.toNat, now⟩

/-- The destination of a packet from `source`, when it is one of the two bound addresses. -/
def opposite (ctx : ForwardingContext) (source : SocketAddr) : Option SocketAddr := do
  let initAddr ← ctx.initiator.addr
  let targAddr ← ctx.target.addr
  if source = initAddr then some targAddr
  else if source = targAddr then some initAddr
  else none

/-- `get_destination` on the context it found; `None` is the error `()`. -/
def forward (rateLimit now : UInt64) (source : SocketAddr) (packetLen : UInt64) :
    Call ForwardingContext Unit SocketAddr := do
  let ctx ← Call.getState
  Call.rejectIf (ctx.state ≠ .relayActive) ()
  -- the absolute expiry, the byte cap and the idle timeout, with one outcome
  if now ≥ ctx.expiresAtMs ∨ ctx.bytesForwarded ≥ sessionByteCap ∨
      saturatingSub now ctx.lastActiveMs > idleTimeoutMs then do
    Call.update fun c => { c with state := .relayExpired }
    Call.fail ()
  else
    match ctx.opposite source with
    | none => Call.fail ()
    | some destination => do
      let bucket := refilled rateLimit now ctx.rateBucket
      -- the refill is kept even when the packet is then refused
      Call.update fun c => { c with rateBucket := bucket }
      Call.rejectIf (bucket.tokens < packetLen.toNat) ()
      Call.update fun c =>
        { c with rateBucket := { bucket with tokens := bucket.tokens - packetLen.toNat } }
      let bytesForwarded ← Call.ofOutcome (Outcome.add64 ctx.bytesForwarded packetLen)
      Call.update fun c => { c with bytesForwarded := bytesForwarded, lastActiveMs := now }
      pure destination

/-- What `sweep` makes of a context before it removes the terminal ones. -/
def swept (now : UInt64) (ctx : ForwardingContext) : ForwardingContext :=
  let idleTimedOut := ctx.state = .relayActive ∧ saturatingSub now ctx.lastActiveMs > idleTimeoutMs
  let exchangeTimedOut := (ctx.state = .authorized ∨ ctx.state = .relayRequested) ∧
    saturatingSub now ctx.authorizedAtMs > exchangeTimeoutMs
  let absoluteExpired := now ≥ ctx.expiresAtMs
  if idleTimedOut ∨ exchangeTimedOut ∨ absoluteExpired then { ctx with state := .relayExpired }
  else ctx

end ForwardingContext

/-! ## The table -/

/-- `ForwardingTable`. -/
structure ForwardingTable where
  contexts : HashMap IntentId ForwardingContext
  tokenIndex : HashMap RelayToken IntentId
  /-- The count of failed lookups and the start of its window. -/
  failedLookups : HashMap IpAddr (UInt64 × UInt64)
  rateLimitBytesPerSec : UInt64
  sessionExpiryMs : UInt64

namespace ForwardingTable

/-- `ForwardingTable::with_limits`. -/
def withLimits (rateLimitBytesPerSec sessionExpiryMs : UInt64) : ForwardingTable :=
  ⟨∅, ∅, ∅, rateLimitBytesPerSec, sessionExpiryMs⟩

/-- A call on the context of an intent, `contexts.get_mut(&intent_id)`, with the error for an
intent that has none. -/
def onContext {ε α : Type} (intentId : IntentId) (missing : ε) (x : Call ForwardingContext ε α) :
    Call ForwardingTable ε α := fun t =>
  match t.contexts.lookup intentId with
  | none => (.err missing, t)
  | some ctx => ((x ctx).1, { t with contexts := t.contexts.insert intentId (x ctx).2 })

/-- The context that `authorize_pair` creates. -/
def freshContext (t : ForwardingTable) (now : UInt64) (intentId : IntentId) (token : RelayToken)
    (initiatorId targetId : DeviceId) (expiresAtMs : UInt64) : ForwardingContext where
  intentId := intentId
  token := token
  initiator := ⟨initiatorId, none⟩
  target := ⟨targetId, none⟩
  state := .authorized
  lastActiveMs := now
  expiresAtMs := expiresAtMs
  bytesForwarded := 0
  authorizedAtMs := now
  rateBucket := ⟨t.rateLimitBytesPerSec.toNat, now⟩

/-- `ForwardingTable::authorize_pair`. -/
def authorizePair (now : UInt64) (intentId : IntentId) (token : RelayToken)
    (initiatorId targetId : DeviceId) : Call ForwardingTable String Unit := do
  let t ← Call.getState
  let expiresAtMs ← Call.ofOutcome (Outcome.add64 now t.sessionExpiryMs)
  let ctx := t.freshContext now intentId token initiatorId targetId expiresAtMs
  Call.update fun t => { t with contexts := t.contexts.insert intentId ctx }
  Call.update fun t => { t with tokenIndex := t.tokenIndex.insert token intentId }

/-- `ForwardingTable::update_binding`. -/
def updateBinding (now : UInt64) (intentId : IntentId) (deviceId : DeviceId) (addr : SocketAddr) :
    Call ForwardingTable String Unit :=
  onContext intentId "Forwarding session not found" (ForwardingContext.bind now deviceId addr)

/-- `ForwardingTable::record_failed_lookup`, on the failed lookups. -/
def recordFailedLookup (ip : IpAddr) (now : UInt64) :
    Call (HashMap IpAddr (UInt64 × UInt64)) Unit Unit := do
  Call.update fun failed =>
    if HashMap.size failed ≥ maxBlocklistEntries then
      HashMap.retain (fun _ e => saturatingSub now e.2 ≤ blocklistWindowMs) failed
    else failed
  let failed ← Call.getState
  let entry := (failed.lookup ip).getD (0, now)
  if saturatingSub now entry.2 > blocklistWindowMs then
    Call.update fun failed => failed.insert ip (1, now)
  else do
    -- an entry whose count overflows was there before
    let count ← Call.ofOutcome (Outcome.add64 entry.1 1)
    Call.update fun failed => failed.insert ip (count, entry.2)

/-- `ForwardingTable::is_blocklisted`. -/
def isBlocklisted (t : ForwardingTable) (ip : IpAddr) (now : UInt64) : Bool :=
  match t.failedLookups.lookup ip with
  | some (count, windowStart) =>
    count ≥ blocklistThreshold ∧ saturatingSub now windowStart ≤ blocklistWindowMs
  | none => false

/-- `ForwardingTable::get_destination`; `None` is the error `()`. -/
def getDestination (env : Env) (token : RelayToken) (sourceAddr : SocketAddr) (packetLen : UInt64) :
    Call ForwardingTable Unit SocketAddr := do
  let t ← Call.getState
  Call.rejectIf (t.isBlocklisted sourceAddr.ip (env.clock 1) = true) ()
  match t.tokenIndex.lookup token with
  | none => do
    Call.onPart failedLookups (fun t f => { t with failedLookups := f }) id
      (recordFailedLookup sourceAddr.ip (env.clock 0))
    Call.fail ()
  | some intentId =>
    onContext intentId ()
      (ForwardingContext.forward t.rateLimitBytesPerSec (env.clock 0) sourceAddr packetLen)

/-- `ForwardingTable::close`; the error `()` is the skipped `if let`. -/
def close (intentId : IntentId) : Call ForwardingTable Unit Unit :=
  onContext intentId () (Call.update fun ctx => { ctx with state := .relayClosed })

/-- The removal loop of `sweep`. -/
def removeAll : List IntentId → ForwardingTable → ForwardingTable
  | [], t => t
  | id :: ids, t =>
    match t.contexts.lookup id with
    | some ctx =>
      removeAll ids
        { t with contexts := t.contexts.erase id, tokenIndex := t.tokenIndex.erase ctx.token }
    | none => removeAll ids t

/-- The contexts after the marking loop of `sweep`. -/
def marked (now : UInt64) (t : ForwardingTable) : HashMap IntentId ForwardingContext :=
  HashMap.mapValues (fun _ ctx => ctx.swept now) t.contexts

/-- The `to_remove` of `sweep`. -/
def toRemove (now : UInt64) (t : ForwardingTable) : List IntentId :=
  ((t.marked now).entries.filter fun e => e.2.state.isTerminal).map Sigma.fst

/-- `ForwardingTable::sweep`, with the number of contexts removed. -/
def sweep (now : UInt64) (t : ForwardingTable) : Nat × ForwardingTable :=
  ((t.toRemove now).length, removeAll (t.toRemove now) { t with contexts := t.marked now })

end ForwardingTable

/-! ## What each call can do -/

open ForwardingTable

namespace ForwardingLemmas

/-- A packet goes from one of the two addresses to the other. -/
theorem opposite_eq_some {ctx : ForwardingContext} {source destination : SocketAddr}
    (hopp : ctx.opposite source = some destination) :
    (ctx.initiator.addr = some source ∧ ctx.target.addr = some destination) ∨
      (ctx.initiator.addr = some destination ∧ ctx.target.addr = some source) := by
  unfold ForwardingContext.opposite at hopp
  obtain ⟨initAddr, hi, hopp⟩ := Option.bind_eq_some_iff.mp hopp
  obtain ⟨targAddr, ht, hopp⟩ := Option.bind_eq_some_iff.mp hopp
  split at hopp
  · next hs =>
    cases hopp
    exact Or.inl ⟨hs ▸ hi, ht⟩
  · split at hopp
    · next hs =>
      cases hopp
      exact Or.inr ⟨hi, hs ▸ ht⟩
    · cases hopp

/-- Binding refuses a dead session or a stranger, expires a late session, or binds the address of
the initiator or else of the target. -/
theorem bind_cases (now : UInt64) (deviceId : DeviceId) (addr : SocketAddr)
    (ctx : ForwardingContext) :
    ((ctx.state.isTerminal = true ∨
        ¬ ctx.Overdue now ∧ ctx.initiator.deviceId ≠ deviceId ∧ ctx.target.deviceId ≠ deviceId) ∧
      ∃ e, ForwardingContext.bind now deviceId addr ctx = (.err e, ctx)) ∨
    (ctx.state.isTerminal = false ∧ ctx.Overdue now ∧
      ∃ e, ForwardingContext.bind now deviceId addr ctx =
        (.err e, { ctx with state := .relayExpired })) ∨
    (ctx.state.isTerminal = false ∧ ¬ ctx.Overdue now ∧ ctx.initiator.deviceId = deviceId ∧
      ForwardingContext.bind now deviceId addr ctx =
        (.ok (), .bound now { ctx with initiator := { ctx.initiator with addr := some addr } })) ∨
    (ctx.state.isTerminal = false ∧ ¬ ctx.Overdue now ∧ ctx.initiator.deviceId ≠ deviceId ∧
      ctx.target.deviceId = deviceId ∧
      ForwardingContext.bind now deviceId addr ctx =
        (.ok (), .bound now { ctx with target := { ctx.target with addr := some addr } })) := by
  rw [ForwardingContext.bind, Call.getState_bind, Call.rejectIf_bind]
  cases ht : ctx.state.isTerminal with
  | true => exact Or.inl ⟨Or.inl rfl, _, if_pos rfl⟩
  | false =>
    rw [if_neg Bool.false_ne_true]
    by_cases hidle : saturatingSub now ctx.lastActiveMs > idleTimeoutMs
    · rw [if_pos hidle]
      exact Or.inr (Or.inl ⟨rfl, Or.inl hidle, _, rfl⟩)
    rw [if_neg hidle]
    by_cases hexp : now ≥ ctx.expiresAtMs
    · rw [if_pos hexp]
      exact Or.inr (Or.inl ⟨rfl, Or.inr hexp, _, rfl⟩)
    rw [if_neg hexp]
    have htime : ¬ ctx.Overdue now := not_or.mpr ⟨hidle, hexp⟩
    by_cases hi : ctx.initiator.deviceId = deviceId
    · rw [if_pos hi]
      exact Or.inr (Or.inr (Or.inl ⟨rfl, htime, hi, rfl⟩))
    rw [if_neg hi]
    by_cases htg : ctx.target.deviceId = deviceId
    · rw [if_pos htg]
      exact Or.inr (Or.inr (Or.inr ⟨rfl, htime, hi, htg, rfl⟩))
    · rw [if_neg htg]
      exact Or.inl ⟨Or.inr ⟨htime, hi, htg⟩, _, rfl⟩

/-- Forwarding drops the packet, expires the session, drops the packet after a refill, overflows the
byte counter, or forwards. -/
theorem forward_cases (rateLimit now : UInt64) (source : SocketAddr) (packetLen : UInt64)
    (ctx : ForwardingContext) :
    ForwardingContext.forward rateLimit now source packetLen ctx = (.err (), ctx) ∨
    ForwardingContext.forward rateLimit now source packetLen ctx =
      (.err (), { ctx with state := .relayExpired }) ∨
    ∃ destination bucket, ctx.state = .relayActive ∧ now < ctx.expiresAtMs ∧
      ctx.bytesForwarded < sessionByteCap ∧
      saturatingSub now ctx.lastActiveMs ≤ idleTimeoutMs ∧
      ctx.opposite source = some destination ∧
      bucket = ForwardingContext.refilled rateLimit now ctx.rateBucket ∧
      (bucket.tokens < packetLen.toNat ∧
          ForwardingContext.forward rateLimit now source packetLen ctx =
            (.err (), { ctx with rateBucket := bucket }) ∨
        packetLen.toNat ≤ bucket.tokens ∧
          (ForwardingContext.forward rateLimit now source packetLen ctx =
            (.panicked, { ctx with
              rateBucket := { bucket with tokens := bucket.tokens - packetLen.toNat } }) ∨
          ∃ bytes : UInt64, bytes.toNat = ctx.bytesForwarded.toNat + packetLen.toNat ∧
            ForwardingContext.forward rateLimit now source packetLen ctx =
              (.ok destination, { ctx with
                rateBucket := { bucket with tokens := bucket.tokens - packetLen.toNat }
                bytesForwarded := bytes
                lastActiveMs := now }))) := by
  rw [ForwardingContext.forward, Call.getState_bind, Call.rejectIf_bind]
  by_cases hact : ctx.state ≠ .relayActive
  · rw [if_pos hact]
    exact Or.inl rfl
  rw [if_neg hact]
  by_cases hdead : now ≥ ctx.expiresAtMs ∨ ctx.bytesForwarded ≥ sessionByteCap ∨
      saturatingSub now ctx.lastActiveMs > idleTimeoutMs
  · rw [if_pos hdead]
    exact Or.inr (Or.inl rfl)
  rw [if_neg hdead]
  obtain ⟨hexp, hcap, hidle⟩ := not_or.mp hdead |>.imp_right not_or.mp
  cases hopp : ctx.opposite source with
  | none => exact Or.inl rfl
  | some destination =>
    refine Or.inr (Or.inr ⟨destination, _, not_not.mp hact, UInt64.not_le.mp hexp,
      UInt64.not_le.mp hcap, UInt64.not_lt.mp hidle, rfl, rfl, ?_⟩)
    dsimp only
    rw [Call.update_bind, Call.rejectIf_bind]
    by_cases hlow : (ForwardingContext.refilled rateLimit now ctx.rateBucket).tokens < packetLen.toNat
    · rw [if_pos hlow]
      exact Or.inl ⟨hlow, rfl⟩
    rw [if_neg hlow, Call.update_bind]
    refine Or.inr ⟨not_lt.mp hlow, ?_⟩
    rcases Outcome.add64_cases (ε := Unit) ctx.bytesForwarded packetLen with
      ⟨bytes, hbytes, hadd⟩ | ⟨-, hadd⟩
    · rw [hadd]
      exact Or.inr ⟨bytes, hbytes, rfl⟩
    · rw [hadd]
      exact Or.inl rfl

/-- Two contexts route the same token between the same devices at the same addresses. -/
structure SameEnds (c d : ForwardingContext) : Prop where
  token : d.token = c.token
  initiator : d.initiator = c.initiator
  target : d.target = c.target

theorem forward_sameEnds (rateLimit now : UInt64) (source : SocketAddr) (packetLen : UInt64)
    (ctx : ForwardingContext) :
    SameEnds ctx (ForwardingContext.forward rateLimit now source packetLen ctx).2 := by
  rcases forward_cases rateLimit now source packetLen ctx with
    h | h | ⟨_, _, _, _, _, _, _, _, ⟨_, h⟩ | ⟨_, h | ⟨_, _, h⟩⟩⟩ <;> rw [h] <;> exact ⟨rfl, rfl, rfl⟩

variable {now : UInt64}

theorem forward_eq_ok {rateLimit : UInt64} {source destination : SocketAddr} {packetLen : UInt64}
    {ctx : ForwardingContext}
    (h : (ForwardingContext.forward rateLimit now source packetLen ctx).1 = .ok destination) :
    ctx.opposite source = some destination := by
  rcases forward_cases rateLimit now source packetLen ctx with
    he | he | ⟨d, _, _, _, _, _, hopp, _, ⟨_, he⟩ | ⟨_, he | ⟨_, _, he⟩⟩⟩
  · rw [he] at h
    cases h
  · rw [he] at h
    cases h
  · rw [he] at h
    cases h
  · rw [he] at h
    cases h
  · rw [he] at h
    cases h
    exact hopp

/-- Binding keeps both ends, or gives the calling device the new address. -/
theorem bind_ends (now : UInt64) (deviceId : DeviceId) (addr : SocketAddr)
    (ctx : ForwardingContext) :
    SameEnds ctx (ForwardingContext.bind now deviceId addr ctx).2 ∨
    (ForwardingContext.bind now deviceId addr ctx).1 = .ok () ∧
      (ForwardingContext.bind now deviceId addr ctx).2.token = ctx.token ∧
      (ctx.initiator.deviceId = deviceId ∧
          (ForwardingContext.bind now deviceId addr ctx).2.initiator = ⟨deviceId, some addr⟩ ∧
          (ForwardingContext.bind now deviceId addr ctx).2.target = ctx.target ∨
        ctx.target.deviceId = deviceId ∧
          (ForwardingContext.bind now deviceId addr ctx).2.initiator = ctx.initiator ∧
          (ForwardingContext.bind now deviceId addr ctx).2.target = ⟨deviceId, some addr⟩) := by
  rcases bind_cases now deviceId addr ctx with
    ⟨-, _, h⟩ | ⟨-, -, _, h⟩ | ⟨-, -, hd, h⟩ | ⟨-, -, -, hd, h⟩
  · rw [h]
    exact Or.inl ⟨rfl, rfl, rfl⟩
  · rw [h]
    exact Or.inl ⟨rfl, rfl, rfl⟩
  · rw [h]
    exact Or.inr ⟨rfl, rfl, Or.inl ⟨hd, hd ▸ rfl, rfl⟩⟩
  · rw [h]
    exact Or.inr ⟨rfl, rfl, Or.inr ⟨hd, rfl, hd ▸ rfl⟩⟩

theorem bind_token (now : UInt64) (deviceId : DeviceId) (addr : SocketAddr) (ctx : ForwardingContext) :
    (ForwardingContext.bind now deviceId addr ctx).2.token = ctx.token := by
  rcases bind_ends now deviceId addr ctx with hsame | ⟨-, htoken, -⟩
  · exact hsame.token
  · exact htoken

theorem swept_sameEnds (now : UInt64) (ctx : ForwardingContext) : SameEnds ctx (ctx.swept now) := by
  unfold ForwardingContext.swept
  dsimp only
  split <;> exact ⟨rfl, rfl, rfl⟩

/-! ### The table -/

section OnContext

variable {ε α : Type} (intentId : IntentId) (missing : ε) (x : Call ForwardingContext ε α)
  (t : ForwardingTable)

theorem onContext_tokenIndex : (onContext intentId missing x t).2.tokenIndex = t.tokenIndex := by
  unfold onContext
  cases t.contexts.lookup intentId <;> rfl

theorem onContext_rateLimit :
    (onContext intentId missing x t).2.rateLimitBytesPerSec = t.rateLimitBytesPerSec := by
  unfold onContext
  cases t.contexts.lookup intentId <;> rfl

theorem onContext_lookup (j : IntentId) :
    (onContext intentId missing x t).2.contexts.lookup j =
      if j = intentId then (t.contexts.lookup intentId).map fun ctx => (x ctx).2
      else t.contexts.lookup j := by
  unfold onContext
  cases hl : t.contexts.lookup intentId with
  | none =>
    dsimp only
    split
    · next hj => exact hj ▸ hl
    · rfl
  | some ctx => exact HashMap.lookup_insert_eq _ _ _ _

end OnContext

variable {intentId : IntentId} {t : ForwardingTable}

theorem onContext_eq_ok {ε α : Type} {missing : ε} {x : Call ForwardingContext ε α} {a : α}
    (h : (onContext intentId missing x t).1 = .ok a) :
    ∃ ctx, t.contexts.lookup intentId = some ctx ∧ (x ctx).1 = .ok a := by
  unfold onContext at h
  cases hl : t.contexts.lookup intentId with
  | none =>
    rw [hl] at h
    cases h
  | some ctx =>
    rw [hl] at h
    exact ⟨ctx, rfl, h⟩

/-- A context after a call on the context of an intent. -/
theorem onContext_context {ε α : Type} {id : IntentId} {missing : ε}
    {x : Call ForwardingContext ε α} {d : ForwardingContext}
    (hd : (onContext id missing x t).2.contexts.lookup intentId = some d) :
    ∃ c, t.contexts.lookup intentId = some c ∧
      (intentId = id ∧ d = (x c).2 ∨ intentId ≠ id ∧ d = c) := by
  rw [onContext_lookup] at hd
  split at hd
  · next hid =>
    obtain ⟨c, hc, rfl⟩ := Option.map_eq_some_iff.mp hd
    exact ⟨c, hid ▸ hc, Or.inl ⟨hid, rfl⟩⟩
  · next hid => exact ⟨d, hd, Or.inr ⟨hid, rfl⟩⟩

/-- What a call on one context keeps of its ends, it keeps of the ends of every context. -/
theorem onContext_sameEnds {ε α : Type} {missing : ε} {x : Call ForwardingContext ε α}
    (hx : ∀ ctx, SameEnds ctx (x ctx).2) {j : IntentId} {ctx' : ForwardingContext}
    (h : (onContext intentId missing x t).2.contexts.lookup j = some ctx') :
    ∃ ctx, t.contexts.lookup j = some ctx ∧ SameEnds ctx ctx' := by
  obtain ⟨ctx, hl, ⟨-, rfl⟩ | ⟨-, rfl⟩⟩ := onContext_context h
  · exact ⟨ctx, hl, hx ctx⟩
  · exact ⟨ctx', hl, rfl, rfl, rfl⟩

/-- Authorization panics when the expiry overflows, and otherwise stores a fresh context and its
token. -/
theorem authorizePair_cases (now : UInt64) (intentId : IntentId) (token : RelayToken)
    (initiatorId targetId : DeviceId) (t : ForwardingTable) :
    (2 ^ 64 ≤ now.toNat + t.sessionExpiryMs.toNat ∧
      authorizePair now intentId token initiatorId targetId t = (.panicked, t)) ∨
    ∃ expiresAtMs : UInt64, expiresAtMs.toNat = now.toNat + t.sessionExpiryMs.toNat ∧
      authorizePair now intentId token initiatorId targetId t =
      (.ok (), { t with
        contexts := t.contexts.insert intentId
          (t.freshContext now intentId token initiatorId targetId expiresAtMs)
        tokenIndex := t.tokenIndex.insert token intentId }) := by
  rw [authorizePair, Call.getState_bind]
  rcases Outcome.add64_cases (ε := String) now t.sessionExpiryMs with
    ⟨expiresAtMs, hexpires, hadd⟩ | ⟨hlate, hadd⟩
  · rw [hadd]
    exact Or.inr ⟨expiresAtMs, hexpires, rfl⟩
  · rw [hadd]
    exact Or.inl ⟨hlate, rfl⟩

/-- A lookup on the data plane drops the packet without touching a context, or forwards in the
context its token leads to. -/
theorem getDestination_cases (env : Env) (token : RelayToken) (source : SocketAddr)
    (packetLen : UInt64) (t : ForwardingTable) :
    (∃ r f, getDestination env token source packetLen t = (r, { t with failedLookups := f }) ∧
      ∀ destination, r ≠ .ok destination) ∨
    ∃ intentId, t.tokenIndex.lookup token = some intentId ∧
      getDestination env token source packetLen t =
        onContext intentId ()
          (ForwardingContext.forward t.rateLimitBytesPerSec (env.clock 0) source packetLen) t := by
  rw [getDestination, Call.getState_bind, Call.rejectIf_bind]
  by_cases hb : t.isBlocklisted source.ip (env.clock 1) = true
  · rw [if_pos hb]
    exact Or.inl ⟨_, t.failedLookups, rfl, fun _ h => by cases h⟩
  rw [if_neg hb]
  cases hl : t.tokenIndex.lookup token with
  | none =>
    refine Or.inl ?_
    dsimp only
    rw [Call.bind_apply, Call.onPart]
    rcases recordFailedLookup source.ip (env.clock 0) t.failedLookups with ⟨_ | _ | _, f⟩
    · exact ⟨_, f, rfl, fun _ h => by cases h⟩
    · exact ⟨_, f, rfl, fun _ h => by cases h⟩
    · exact ⟨_, f, rfl, fun _ h => by cases h⟩
  | some intentId => exact Or.inr ⟨intentId, rfl, rfl⟩

/-! ### The sweep -/

section

variable (ids : List IntentId) (t : ForwardingTable)

theorem removeAll_lookup (j : IntentId) :
    (removeAll ids t).contexts.lookup j = if j ∈ ids then none else t.contexts.lookup j := by
  induction ids generalizing t with
  | nil => simp [removeAll]
  | cons id ids ih =>
    rw [removeAll]
    cases hl : t.contexts.lookup id with
    | none =>
      dsimp only
      rw [ih]
      by_cases hj : j = id
      · subst hj
        simp [hl]
      · simp [hj]
    | some ctx =>
      dsimp only
      rw [ih, HashMap.lookup_erase_eq]
      by_cases hj : j = id
      · simp [hj]
      · simp [hj]

theorem removeAll_tokenIndex (token : RelayToken) (j : IntentId) :
    (removeAll ids t).tokenIndex.lookup token = some j ↔
      t.tokenIndex.lookup token = some j ∧
        ∀ id ∈ ids, ∀ ctx, t.contexts.lookup id = some ctx → ctx.token ≠ token := by
  induction ids generalizing t with
  | nil => simp [removeAll]
  | cons id ids ih =>
    rw [removeAll]
    cases hl : t.contexts.lookup id with
    | none =>
      dsimp only
      rw [ih, List.forall_mem_cons]
      simp [hl]
    | some ctx =>
      dsimp only
      rw [ih, HashMap.lookup_erase_eq, List.forall_mem_cons]
      constructor
      · rintro ⟨htok, hrest⟩
        split at htok
        · cases htok
        · next hne =>
          refine ⟨htok, fun c hc => ?_, fun k hk c hc => ?_⟩
          · rw [hl] at hc
            cases hc
            exact fun h => hne h.symm
          · by_cases hkid : k = id
            · rw [hkid, hl] at hc
              cases hc
              exact fun h => hne h.symm
            · exact hrest k hk c (by rw [HashMap.lookup_erase_eq, if_neg hkid]; exact hc)
      · rintro ⟨htok, hhead, hrest⟩
        rw [if_neg fun h => hhead ctx hl h.symm]
        refine ⟨htok, fun k hk c hc => ?_⟩
        rw [HashMap.lookup_erase_eq] at hc
        split at hc
        · cases hc
        · exact hrest k hk c hc

theorem removeAll_limits :
    (removeAll ids t).rateLimitBytesPerSec = t.rateLimitBytesPerSec ∧
      (removeAll ids t).sessionExpiryMs = t.sessionExpiryMs := by
  induction ids generalizing t with
  | nil => exact ⟨rfl, rfl⟩
  | cons id ids ih =>
    rw [removeAll]
    cases t.contexts.lookup id with
    | none => exact ih t
    | some ctx => exact ih _

end

theorem mem_toRemove {id : IntentId} :
    id ∈ t.toRemove now ↔
      ∃ ctx, t.contexts.lookup id = some ctx ∧ (ctx.swept now).state.isTerminal = true := by
  have hmarked : ∀ c, (t.marked now).lookup id = some c ↔
      ∃ ctx, t.contexts.lookup id = some ctx ∧ ctx.swept now = c := fun c => by
    rw [marked, HashMap.lookup_mapValues, Option.map_eq_some_iff]
  rw [toRemove, List.mem_map]
  constructor
  · rintro ⟨⟨k, c⟩, hmem, rfl⟩
    obtain ⟨hin, hterm⟩ := List.mem_filter.mp hmem
    obtain ⟨ctx, hl, rfl⟩ := (hmarked c).mp (HashMap.mem_entries.mp hin)
    exact ⟨ctx, hl, hterm⟩
  · rintro ⟨ctx, hl, hterm⟩
    refine ⟨⟨id, ctx.swept now⟩, List.mem_filter.mpr ⟨?_, hterm⟩, rfl⟩
    exact HashMap.mem_entries.mpr ((hmarked _).mpr ⟨ctx, hl, rfl⟩)

/-- The contexts after a sweep: those it did not find terminal. -/
theorem lookup_sweep {j : IntentId} {c : ForwardingContext} :
    (t.sweep now).2.contexts.lookup j = some c ↔
      ∃ ctx, t.contexts.lookup j = some ctx ∧ ctx.swept now = c ∧ c.state.isTerminal = false := by
  rw [sweep, removeAll_lookup]
  dsimp only
  rw [marked, HashMap.lookup_mapValues]
  constructor
  · intro h
    split at h
    · cases h
    · next hmem =>
      obtain ⟨ctx, hl, rfl⟩ := Option.map_eq_some_iff.mp h
      refine ⟨ctx, hl, rfl, Bool.eq_false_iff.mpr fun hterm => ?_⟩
      exact hmem (mem_toRemove.mpr ⟨ctx, hl, hterm⟩)
  · rintro ⟨ctx, hl, rfl, hterm⟩
    rw [if_neg, hl, Option.map_some]
    intro hmem
    obtain ⟨ctx', hl', hterm'⟩ := mem_toRemove.mp hmem
    rw [hl] at hl'
    cases hl'
    exact Bool.eq_false_iff.mp hterm hterm'

/-- The index after a sweep: without the tokens of the contexts it removed. -/
theorem tokenIndex_sweep {token : RelayToken} {j : IntentId} :
    (t.sweep now).2.tokenIndex.lookup token = some j ↔
      t.tokenIndex.lookup token = some j ∧
        ∀ i ctx, t.contexts.lookup i = some ctx → (ctx.swept now).state.isTerminal = true →
          ctx.token ≠ token := by
  rw [sweep, removeAll_tokenIndex]
  refine and_congr_right fun _ => ⟨fun h i ctx hl hterm => ?_, fun h i hi c hc => ?_⟩
  · have hc : (t.marked now).lookup i = some (ctx.swept now) := by
      rw [marked, HashMap.lookup_mapValues, hl, Option.map_some]
    have hne := h i (mem_toRemove.mpr ⟨ctx, hl, hterm⟩) _ hc
    rwa [(swept_sameEnds now ctx).token] at hne
  · obtain ⟨ctx, hl, hterm⟩ := mem_toRemove.mp hi
    have hc' : (t.marked now).lookup i = some c := hc
    rw [marked, HashMap.lookup_mapValues, hl, Option.map_some] at hc'
    cases hc'
    rw [(swept_sameEnds now ctx).token]
    exact h i ctx hl hterm

end ForwardingLemmas

end Blackwing.Relay

import Mathlib.Algebra.BigOperators.Group.List.Basic
import Blackwing.Relay.Invariants

/-!
# The life of a forwarding context

Runs of the five calls on one `ForwardingTable`, with a clock that never goes back and with
intent ids and tokens that are never used twice. A context keeps its authorization time, the
time of its last bind or forward and a count of its bytes; in every run these are what the
history of calls says.

* `ForwardingEffect`, `forwardingStep_effect`: what a call can do to the table.
* `Recorded`: the record of a context agrees with the history of its intent id and token.
* `lifecycle_run`: every context of a reachable table is staged and recorded.
* `dead_run`: an expired or closed context is never live again.
* `forwarding_lifecycle`: the three guarantees together.
-/

namespace Blackwing.Relay

open ForwardingTable

/-! ## Runs of the table -/

/-- A call on the table, with the time it reads. -/
inductive ForwardingOp where
  | authorizePair (now : UInt64) (intentId : IntentId) (token : RelayToken)
      (initiatorId targetId : DeviceId)
  | updateBinding (now : UInt64) (intentId : IntentId) (deviceId : DeviceId) (addr : SocketAddr)
  | getDestination (env : Env) (token : RelayToken) (source : SocketAddr) (packetLen : UInt64)
  | close (intentId : IntentId)
  | sweep (now : UInt64)

/-- What the call returned. -/
inductive ForwardingOut where
  | authorized (r : Outcome String Unit)
  | bound (r : Outcome String Unit)
  | destination (r : Outcome Unit SocketAddr)
  | closed (r : Outcome Unit Unit)
  | swept (count : Nat)
deriving DecidableEq

/-- One call. -/
def forwardingStep (t : ForwardingTable) : ForwardingOp → ForwardingOut × ForwardingTable
  | .authorizePair now intentId token initiatorId targetId =>
    let call := authorizePair now intentId token initiatorId targetId t
    (.authorized call.1, call.2)
  | .updateBinding now intentId deviceId addr =>
    let call := updateBinding now intentId deviceId addr t
    (.bound call.1, call.2)
  | .getDestination env token source packetLen =>
    let call := getDestination env token source packetLen t
    (.destination call.1, call.2)
  | .close intentId =>
    let call := ForwardingTable.close intentId t
    (.closed call.1, call.2)
  | .sweep now =>
    let call := t.sweep now
    (.swept call.1, call.2)

/-- The readings of the clock in a call, in order. -/
def ForwardingOp.readings : ForwardingOp → List UInt64
  | .authorizePair now _ _ _ _ => [now]
  | .updateBinding now _ _ _ => [now]
  | .getDestination env _ _ _ => [env.clock 0, env.clock 1]
  | .close _ => []
  | .sweep now => [now]

/-- The clock never goes back in a run. -/
def ClockMonotone (ops : List ForwardingOp) : Prop :=
  (ops.flatMap ForwardingOp.readings).Pairwise (· ≤ ·)

instance (ops : List ForwardingOp) : Decidable (ClockMonotone ops) :=
  inferInstanceAs (Decidable (List.Pairwise _ _))

/-- The intent id and the token that a call authorizes. -/
def ForwardingOp.authorizes : ForwardingOp → Option (IntentId × RelayToken)
  | .authorizePair _ intentId token _ _ => some (intentId, token)
  | _ => none

/-- No two authorizations of a run have the same intent id or the same token. -/
def FreshPairs (ops : List ForwardingOp) : Prop :=
  (ops.filterMap ForwardingOp.authorizes).Pairwise fun a b => a.1 ≠ b.1 ∧ a.2 ≠ b.2

instance (ops : List ForwardingOp) : Decidable (FreshPairs ops) :=
  inferInstanceAs (Decidable (List.Pairwise _ _))

/-- An entry of a run. -/
abbrev ForwardingEntry : Type := Entry ForwardingTable ForwardingOp ForwardingOut

/-- The authorization that a call made, with its time. -/
def authorizedBy (e : ForwardingEntry) : Option (IntentId × RelayToken × UInt64) :=
  match e.input, e.out with
  | .authorizePair now intentId token _ _, .authorized (.ok _) => some (intentId, token, now)
  | _, _ => none

/-- The time of the call, when it bound an address of the intent or forwarded a packet of the
token. -/
def activeAt (intentId : IntentId) (token : RelayToken) (e : ForwardingEntry) : Option UInt64 :=
  match e.input, e.out with
  | .updateBinding now id _ _, .bound (.ok _) => if id = intentId then some now else none
  | .getDestination env tok _ _, .destination (.ok _) =>
    if tok = token then some (env.clock 0) else none
  | _, _ => none

/-- The bytes that the call forwarded for the token. -/
def bytesForwardedBy (token : RelayToken) (e : ForwardingEntry) : Option Nat :=
  match e.input, e.out with
  | .getDestination _ tok _ packetLen, .destination (.ok _) =>
    if tok = token then some packetLen.toNat else none
  | _, _ => none

/-! ## What a call does -/

/-- The call authorized, bound and forwarded nothing. -/
structure Quiet (e : ForwardingEntry) : Prop where
  authorizedBy_eq : authorizedBy e = none
  activeAt_eq : ∀ intentId token, activeAt intentId token e = none
  bytes_eq : ∀ token, bytesForwardedBy token e = none

/-- A later version of a context that was neither bound nor forwarded in. -/
structure SameRecord (c d : ForwardingContext) : Prop where
  ends : ForwardingLemmas.SameEnds c d
  lastActiveMs : d.lastActiveMs = c.lastActiveMs
  expiresAtMs : d.expiresAtMs = c.expiresAtMs
  authorizedAtMs : d.authorizedAtMs = c.authorizedAtMs
  bytesForwarded : d.bytesForwarded = c.bytesForwarded
  state : d.state = c.state ∨ d.state.isTerminal = true

/-- Every context of `after` is a later version of one in `before`, and the index has not grown. -/
structure Kept (before after : ForwardingTable) : Prop where
  contexts : ∀ j d, after.contexts.lookup j = some d →
    ∃ c, before.contexts.lookup j = some c ∧ SameRecord c d
  index : ∀ token j, after.tokenIndex.lookup token = some j → before.tokenIndex.lookup token = some j
  expiry : after.sessionExpiryMs = before.sessionExpiryMs

/-- What a call can do to the table. -/
inductive ForwardingEffect (t : ForwardingTable) : ForwardingOp → ForwardingOut → ForwardingTable → Prop
  | quiet (op : ForwardingOp) (out : ForwardingOut) (t' : ForwardingTable)
      (hquiet : Quiet ⟨t, op, out, t'⟩) (hkept : Kept t t') : ForwardingEffect t op out t'
  | authorized (now : UInt64) (intentId : IntentId) (token : RelayToken)
      (initiatorId targetId : DeviceId) (expiresAtMs : UInt64)
      (hexpires : expiresAtMs.toNat = now.toNat + t.sessionExpiryMs.toNat) :
      ForwardingEffect t (.authorizePair now intentId token initiatorId targetId)
        (.authorized (.ok ()))
        { t with
          contexts := t.contexts.insert intentId
            (t.freshContext now intentId token initiatorId targetId expiresAtMs)
          tokenIndex := t.tokenIndex.insert token intentId }
  | bound (now : UInt64) (intentId : IntentId) (deviceId : DeviceId) (addr : SocketAddr)
      (ctx rebound : ForwardingContext) (hl : t.contexts.lookup intentId = some ctx)
      (hlive : ctx.state.isTerminal = false) (htoken : rebound.token = ctx.token)
      (hexpires : rebound.expiresAtMs = ctx.expiresAtMs)
      (hauthorized : rebound.authorizedAtMs = ctx.authorizedAtMs)
      (hbytes : rebound.bytesForwarded = ctx.bytesForwarded)
      (hactive : rebound.lastActiveMs = now) (hstaged : rebound.Staged) :
      ForwardingEffect t (.updateBinding now intentId deviceId addr) (.bound (.ok ()))
        { t with contexts := t.contexts.insert intentId rebound }
  | forwarded (env : Env) (token : RelayToken) (source : SocketAddr) (packetLen : UInt64)
      (intentId : IntentId) (ctx forwarded : ForwardingContext) (destination : SocketAddr)
      (hindex : t.tokenIndex.lookup token = some intentId)
      (hl : t.contexts.lookup intentId = some ctx) (hstate : ctx.state = .relayActive)
      (hexpiry : env.clock 0 < ctx.expiresAtMs) (hcap : ctx.bytesForwarded < sessionByteCap)
      (hidle : saturatingSub (env.clock 0) ctx.lastActiveMs ≤ idleTimeoutMs)
      (hopposite : ctx.opposite source = some destination)
      (hends : ForwardingLemmas.SameEnds ctx forwarded) (hsame : forwarded.state = ctx.state)
      (hexpires : forwarded.expiresAtMs = ctx.expiresAtMs)
      (hauthorized : forwarded.authorizedAtMs = ctx.authorizedAtMs)
      (hbytes : forwarded.bytesForwarded.toNat = ctx.bytesForwarded.toNat + packetLen.toNat)
      (hactive : forwarded.lastActiveMs = env.clock 0) :
      ForwardingEffect t (.getDestination env token source packetLen)
        (.destination (.ok destination))
        { t with contexts := t.contexts.insert intentId forwarded }

namespace LifecycleLemmas

open ForwardingLemmas InvariantLemmas

variable {t t' : ForwardingTable}

theorem sameRecord_refl (ctx : ForwardingContext) : SameRecord ctx ctx :=
  ⟨⟨rfl, rfl, rfl⟩, rfl, rfl, rfl, rfl, Or.inl rfl⟩

theorem kept_of_same (hcontexts : t'.contexts = t.contexts) (hindex : t'.tokenIndex = t.tokenIndex)
    (hexpiry : t'.sessionExpiryMs = t.sessionExpiryMs) : Kept t t' := by
  refine ⟨fun j d hd => ?_, fun token j hj => ?_, hexpiry⟩
  · rw [hcontexts] at hd
    exact ⟨d, hd, sameRecord_refl d⟩
  · rwa [hindex] at hj

/-- A call on one context that keeps its record keeps the table. -/
theorem kept_insert {intentId : IntentId} {c d : ForwardingContext}
    (hl : t.contexts.lookup intentId = some c) (hsame : SameRecord c d) :
    Kept t { t with contexts := t.contexts.insert intentId d } := by
  refine ⟨fun j d' hd => ?_, fun _ _ h => h, rfl⟩
  rw [HashMap.lookup_insert_eq] at hd
  split at hd
  · next hj =>
    cases hd
    exact ⟨c, hj ▸ hl, hsame⟩
  · exact ⟨d', hd, sameRecord_refl d'⟩

theorem swept_sameRecord (now : UInt64) (ctx : ForwardingContext) :
    SameRecord ctx (ctx.swept now) := by
  refine ⟨swept_sameEnds now ctx, ?_, ?_, ?_, ?_, swept_state now ctx⟩ <;>
    · unfold ForwardingContext.swept
      dsimp only
      split <;> rfl

theorem kept_sweep (now : UInt64) : Kept t (t.sweep now).2 := by
  refine ⟨fun j d hd => ?_, fun token j hj => (tokenIndex_sweep.mp hj).1,
    (removeAll_limits _ _).2⟩
  obtain ⟨ctx, hl, rfl, -⟩ := lookup_sweep.mp hd
  exact ⟨ctx, hl, swept_sameRecord now ctx⟩

theorem updateBinding_effect (now : UInt64) (intentId : IntentId) (deviceId : DeviceId)
    (addr : SocketAddr) :
    ForwardingEffect t (.updateBinding now intentId deviceId addr)
      (.bound (updateBinding now intentId deviceId addr t).1)
      (updateBinding now intentId deviceId addr t).2 := by
  unfold updateBinding onContext
  cases hl : t.contexts.lookup intentId with
  | none => exact .quiet _ _ _ ⟨rfl, fun _ _ => rfl, fun _ => rfl⟩ (kept_of_same rfl rfl rfl)
  | some ctx =>
    dsimp only
    rcases bind_cases now deviceId addr ctx with
      ⟨-, _, h⟩ | ⟨-, -, _, h⟩ | ⟨hlive, -, -, h⟩ | ⟨hlive, -, -, -, h⟩
    · rw [h]
      exact .quiet _ _ _ ⟨rfl, fun _ _ => rfl, fun _ => rfl⟩ (kept_insert hl (sameRecord_refl ctx))
    · rw [h]
      refine .quiet _ _ _ ⟨rfl, fun _ _ => rfl, fun _ => rfl⟩ (kept_insert hl ?_)
      exact ⟨⟨rfl, rfl, rfl⟩, rfl, rfl, rfl, rfl, Or.inr rfl⟩
    · rw [h]
      exact .bound now intentId deviceId addr ctx _ hl hlive rfl rfl rfl rfl rfl
        (bound_staged now (Or.inl rfl))
    · rw [h]
      exact .bound now intentId deviceId addr ctx _ hl hlive rfl rfl rfl rfl rfl
        (bound_staged now (Or.inr rfl))

theorem getDestination_effect (env : Env) (token : RelayToken) (source : SocketAddr)
    (packetLen : UInt64) :
    ForwardingEffect t (.getDestination env token source packetLen)
      (.destination (getDestination env token source packetLen t).1)
      (getDestination env token source packetLen t).2 := by
  have hquiet : ∀ (r : Outcome Unit SocketAddr) (t' : ForwardingTable),
      (∀ destination, r ≠ .ok destination) →
      Quiet ⟨t, .getDestination env token source packetLen, .destination r, t'⟩ := by
    intro r t' hr
    cases r with
    | ok destination => exact absurd rfl (hr destination)
    | err e => exact ⟨rfl, fun _ _ => rfl, fun _ => rfl⟩
    | panicked => exact ⟨rfl, fun _ _ => rfl, fun _ => rfl⟩
  rcases getDestination_cases env token source packetLen t with ⟨r, f, hcall, hr⟩ | ⟨id, hindex, hcall⟩
  · rw [hcall]
    exact .quiet _ _ _ (hquiet r _ hr) (kept_of_same rfl rfl rfl)
  · rw [hcall]
    unfold onContext
    cases hl : t.contexts.lookup id with
    | none => exact .quiet _ _ _ (hquiet _ _ fun _ h => nomatch h) (kept_of_same rfl rfl rfl)
    | some ctx =>
      dsimp only
      rcases forward_cases t.rateLimitBytesPerSec (env.clock 0) source packetLen ctx with
        h | h |
          ⟨destination, bucket, hstate, hexp, hcap, hidle, hopp, -,
            ⟨-, h⟩ | ⟨-, h | ⟨bytes, hbytes, h⟩⟩⟩
      · rw [h]
        exact .quiet _ _ _ (hquiet _ _ fun _ h => nomatch h) (kept_insert hl (sameRecord_refl ctx))
      · rw [h]
        refine .quiet _ _ _ (hquiet _ _ fun _ h => nomatch h) (kept_insert hl ?_)
        exact ⟨⟨rfl, rfl, rfl⟩, rfl, rfl, rfl, rfl, Or.inr rfl⟩
      · rw [h]
        refine .quiet _ _ _ (hquiet _ _ fun _ h => nomatch h) (kept_insert hl ?_)
        exact ⟨⟨rfl, rfl, rfl⟩, rfl, rfl, rfl, rfl, Or.inl rfl⟩
      · rw [h]
        refine .quiet _ _ _ (hquiet _ _ fun _ h => nomatch h) (kept_insert hl ?_)
        exact ⟨⟨rfl, rfl, rfl⟩, rfl, rfl, rfl, rfl, Or.inl rfl⟩
      · rw [h]
        exact .forwarded env token source packetLen id ctx _ destination hindex hl hstate hexp hcap
          hidle hopp ⟨rfl, rfl, rfl⟩ rfl rfl rfl hbytes rfl

/-- Every call does one of these. -/
theorem forwardingStep_effect (t : ForwardingTable) (op : ForwardingOp) :
    ForwardingEffect t op (forwardingStep t op).1 (forwardingStep t op).2 := by
  cases op with
  | authorizePair now intentId token initiatorId targetId =>
    simp only [forwardingStep]
    rcases authorizePair_cases now intentId token initiatorId targetId t with
      ⟨-, h⟩ | ⟨expiresAtMs, hexpires, h⟩
    · rw [h]
      exact .quiet _ _ _ ⟨rfl, fun _ _ => rfl, fun _ => rfl⟩ (kept_of_same rfl rfl rfl)
    · rw [h]
      exact .authorized now intentId token initiatorId targetId expiresAtMs hexpires
  | updateBinding now intentId deviceId addr => exact updateBinding_effect now intentId deviceId addr
  | getDestination env token source packetLen =>
    exact getDestination_effect env token source packetLen
  | close intentId =>
    refine .quiet _ _ _ ⟨rfl, fun _ _ => rfl, fun _ => rfl⟩ ?_
    simp only [forwardingStep, ForwardingTable.close, onContext]
    cases hl : t.contexts.lookup intentId with
    | none => exact kept_of_same rfl rfl rfl
    | some ctx => exact kept_insert hl ⟨⟨rfl, rfl, rfl⟩, rfl, rfl, rfl, rfl, Or.inr rfl⟩
  | sweep now => exact .quiet _ _ _ ⟨rfl, fun _ _ => rfl, fun _ => rfl⟩ (kept_sweep now)

end LifecycleLemmas

/-! ## What the history says of a context -/

/-- The record of a context agrees with the history of its intent id and token. -/
structure Recorded (expiry : UInt64) (h : List ForwardingEntry) (intentId : IntentId)
    (ctx : ForwardingContext) : Prop where
  authorized : (intentId, ctx.token, ctx.authorizedAtMs) ∈ h.filterMap authorizedBy
  expires : ctx.expiresAtMs.toNat = ctx.authorizedAtMs.toNat + expiry.toNat
  active : (ctx.initiator.addr = none ∧ ctx.target.addr = none) ∨
    (h.filterMap (activeAt intentId ctx.token)).getLast? = some ctx.lastActiveMs
  bytes : (h.filterMap (bytesForwardedBy ctx.token)).sum = ctx.bytesForwarded.toNat

/-- The intent id and the token were not authorized. -/
def Unused (h : List ForwardingEntry) (intentId : IntentId) (token : RelayToken) : Prop :=
  ∀ a ∈ h.filterMap authorizedBy, a.1 ≠ intentId ∧ a.2.1 ≠ token

/-- A table that is the outcome of its history. -/
structure Lifecycle (expiry : UInt64) (h : List ForwardingEntry) (t : ForwardingTable) : Prop where
  expiry_eq : t.sessionExpiryMs = expiry
  staged : Staged t
  recorded : ∀ intentId ctx, t.contexts.lookup intentId = some ctx → Recorded expiry h intentId ctx
  indexed : ∀ token intentId, t.tokenIndex.lookup token = some intentId →
    ∃ now, (intentId, token, now) ∈ h.filterMap authorizedBy
  untouched : ∀ intentId token, Unused h intentId token →
    h.filterMap (activeAt intentId token) = [] ∧ h.filterMap (bytesForwardedBy token) = []

namespace LifecycleLemmas

open ForwardingLemmas InvariantLemmas

variable {expiry : UInt64} {h : List ForwardingEntry} {t t' : ForwardingTable} {e : ForwardingEntry}

theorem mem_filterMap_snoc {α : Type} {f : ForwardingEntry → Option α} {a : α}
    (ha : a ∈ h.filterMap f) : a ∈ (h ++ [e]).filterMap f := by
  rw [filterMap_snoc]
  exact List.mem_append_left _ ha

theorem filterMap_snoc_of_none {α : Type} {f : ForwardingEntry → Option α} (he : f e = none) :
    (h ++ [e]).filterMap f = h.filterMap f := by
  rw [filterMap_snoc, he]
  exact List.append_nil _

variable {intentId : IntentId} {token : RelayToken} {a : IntentId × RelayToken × UInt64}
  {op : ForwardingOp} {ctx : ForwardingContext}

theorem unused_of_snoc (hu : Unused (h ++ [e]) intentId token) : Unused h intentId token :=
  fun a ha => hu a (mem_filterMap_snoc ha)

theorem authorizes_of_authorizedBy (ha : authorizedBy e = some a) :
    e.input.authorizes = some (a.1, a.2.1) := by
  unfold authorizedBy at ha
  split at ha
  · next hinput _ =>
    cases ha
    rw [hinput]
    rfl
  · cases ha

theorem authorizes_of_mem (ha : a ∈ h.filterMap authorizedBy) :
    (a.1, a.2.1) ∈ (h.map Entry.input).filterMap ForwardingOp.authorizes := by
  obtain ⟨e, he, hauth⟩ := List.mem_filterMap.mp ha
  exact List.mem_filterMap.mpr ⟨e.input, List.mem_map_of_mem he, authorizes_of_authorizedBy hauth⟩

/-- In a run with fresh pairs, an intent id goes with one token and a token with one intent id. -/
theorem pair_unique (hfresh : FreshPairs (h.map Entry.input)) {b : IntentId × RelayToken × UInt64}
    (ha : a ∈ h.filterMap authorizedBy) (hb : b ∈ h.filterMap authorizedBy)
    (hab : a.1 = b.1 ∨ a.2.1 = b.2.1) : a.1 = b.1 ∧ a.2.1 = b.2.1 := by
  have hsymm : Std.Symm fun a b : IntentId × RelayToken => (a.1 = b.1 ∨ a.2 = b.2) → a = b :=
    ⟨fun _ _ hab hba => (hab (hba.imp Eq.symm Eq.symm)).symm⟩
  have hpair : ((h.map Entry.input).filterMap ForwardingOp.authorizes).Pairwise
      fun a b => (a.1 = b.1 ∨ a.2 = b.2) → a = b :=
    hfresh.imp fun hne heq => absurd heq (not_or.mpr hne)
  have heq := @List.Pairwise.forall_of_forall _ _ _ hsymm (fun _ _ _ => rfl) hpair
    _ (authorizes_of_mem ha) _ (authorizes_of_mem hb) hab
  exact Prod.mk.inj heq

/-- In a run with fresh pairs, what is authorized next was not authorized before. -/
theorem unused_of_fresh (hfresh : FreshPairs ((h ++ [e]).map Entry.input))
    (he : e.input.authorizes = some (intentId, token)) : Unused h intentId token := by
  rw [FreshPairs, List.map_append, List.filterMap_append, List.pairwise_append] at hfresh
  intro a ha
  refine hfresh.2.2 _ (authorizes_of_mem ha) (intentId, token) ?_
  rw [List.map_singleton, List.filterMap_cons, he]
  exact List.mem_singleton.mpr rfl

theorem fresh_of_snoc (hfresh : FreshPairs ((h ++ [e]).map Entry.input)) :
    FreshPairs (h.map Entry.input) := by
  rw [FreshPairs, List.map_append, List.filterMap_append, List.pairwise_append] at hfresh
  exact hfresh.1

/-- A context that the call neither bound nor forwarded in. -/
theorem recorded_snoc {c d : ForwardingContext} (hr : Recorded expiry h intentId c)
    (hsame : SameRecord c d) (hactive : activeAt intentId c.token e = none)
    (hbytes : bytesForwardedBy c.token e = none) :
    Recorded expiry (h ++ [e]) intentId d where
  authorized := by
    rw [hsame.ends.token, hsame.authorizedAtMs]
    exact mem_filterMap_snoc hr.authorized
  expires := by rw [hsame.expiresAtMs, hsame.authorizedAtMs, hr.expires]
  active := by
    rw [hsame.ends.initiator, hsame.ends.target, hsame.ends.token, hsame.lastActiveMs,
      filterMap_snoc_of_none hactive]
    exact hr.active
  bytes := by
    rw [hsame.ends.token, hsame.bytesForwarded, filterMap_snoc_of_none hbytes]
    exact hr.bytes

section

variable (hl : Lifecycle expiry h t)
include hl

theorem lifecycle_quiet {out : ForwardingOut} (hquiet : Quiet ⟨t, op, out, t'⟩)
    (hkept : Kept t t') :
    Lifecycle expiry (h ++ [⟨t, op, out, t'⟩]) t' := by
  refine ⟨hkept.expiry.trans hl.expiry_eq, fun j d hd => ?_, fun j d hd => ?_, fun token j hj => ?_,
    fun j token hu => ?_⟩
  · obtain ⟨c, hc, hsame⟩ := hkept.contexts j d hd
    exact staged_of_sameEnds hsame.ends hsame.state (hl.staged j c hc)
  · obtain ⟨c, hc, hsame⟩ := hkept.contexts j d hd
    exact recorded_snoc (hl.recorded j c hc) hsame (hquiet.activeAt_eq _ _) (hquiet.bytes_eq _)
  · obtain ⟨now, hmem⟩ := hl.indexed token j (hkept.index token j hj)
    exact ⟨now, mem_filterMap_snoc hmem⟩
  · rw [filterMap_snoc_of_none (hquiet.activeAt_eq _ _), filterMap_snoc_of_none (hquiet.bytes_eq _)]
    exact hl.untouched j token (unused_of_snoc hu)

theorem indexed_snoc (hindex : t.tokenIndex.lookup token = some intentId) :
    ∃ now, (intentId, token, now) ∈ (h ++ [e]).filterMap authorizedBy := by
  obtain ⟨now, hmem⟩ := hl.indexed token intentId hindex
  exact ⟨now, mem_filterMap_snoc hmem⟩

/-- The call wrote one context and left no mark on the others. -/
theorem lifecycle_insert {d : ForwardingContext} {index : HashMap RelayToken IntentId}
    (hstaged : d.Staged) (hrecorded : Recorded expiry (h ++ [e]) intentId d)
    (hother : ∀ j c, j ≠ intentId → t.contexts.lookup j = some c →
      activeAt j c.token e = none ∧ bytesForwardedBy c.token e = none)
    (hindex : ∀ token j, index.lookup token = some j →
      ∃ now, (j, token, now) ∈ (h ++ [e]).filterMap authorizedBy)
    (hunused : ∀ j token, Unused (h ++ [e]) j token →
      activeAt j token e = none ∧ bytesForwardedBy token e = none) :
    Lifecycle expiry (h ++ [e])
      { t with contexts := t.contexts.insert intentId d, tokenIndex := index } := by
  refine ⟨hl.expiry_eq, fun j c hc => ?_, fun j c hc => ?_, hindex, fun j token hu => ?_⟩
  · rw [HashMap.lookup_insert_eq] at hc
    split at hc
    · cases hc
      exact hstaged
    · exact hl.staged j c hc
  · rw [HashMap.lookup_insert_eq] at hc
    split at hc
    · next hj =>
      cases hc
      exact hj ▸ hrecorded
    · next hj =>
      obtain ⟨hactive, hbytes⟩ := hother j c hj hc
      exact recorded_snoc (hl.recorded j c hc) (sameRecord_refl c) hactive hbytes
  · obtain ⟨hactive, hbytes⟩ := hunused j token hu
    rw [filterMap_snoc_of_none hactive, filterMap_snoc_of_none hbytes]
    exact hl.untouched j token (unused_of_snoc hu)

theorem lifecycle_authorized {now : UInt64} {initiatorId targetId : DeviceId}
    {expiresAtMs : UInt64} (hexpires : expiresAtMs.toNat = now.toNat + t.sessionExpiryMs.toNat)
    (hinput : e.input = .authorizePair now intentId token initiatorId targetId)
    (hout : e.out = .authorized (.ok ())) (hunused : Unused h intentId token) :
    Lifecycle expiry (h ++ [e])
      { t with
        contexts := t.contexts.insert intentId
          (t.freshContext now intentId token initiatorId targetId expiresAtMs)
        tokenIndex := t.tokenIndex.insert token intentId } := by
  have hquiet : ∀ j tok, activeAt j tok e = none ∧ bytesForwardedBy tok e = none :=
    fun j tok => by rw [activeAt, bytesForwardedBy, hinput, hout]; exact ⟨rfl, rfl⟩
  have hnew : (intentId, token, now) ∈ (h ++ [e]).filterMap authorizedBy := by
    rw [filterMap_snoc, authorizedBy, hinput, hout]
    exact List.mem_append_right _ (List.mem_singleton.mpr rfl)
  refine lifecycle_insert hl (fun _ => rfl) ⟨hnew, ?_, Or.inl ⟨rfl, rfl⟩, ?_⟩
    (fun j c _ _ => hquiet j c.token) (fun tok j hj => ?_) (fun j tok _ => hquiet j tok)
  · rw [← hl.expiry_eq]
    exact hexpires
  · -- nothing was forwarded for a token before it was authorized
    show ((h ++ [e]).filterMap (bytesForwardedBy token)).sum = 0
    rw [filterMap_snoc_of_none (hquiet intentId token).2, (hl.untouched intentId token hunused).2]
    rfl
  · rw [HashMap.lookup_insert_eq] at hj
    split at hj
    · next htok =>
      cases hj
      exact ⟨now, htok ▸ hnew⟩
    · exact indexed_snoc hl hj

theorem lifecycle_bound {now : UInt64} {deviceId : DeviceId} {addr : SocketAddr}
    {rebound : ForwardingContext} (hctx : t.contexts.lookup intentId = some ctx)
    (htoken : rebound.token = ctx.token) (hexpires : rebound.expiresAtMs = ctx.expiresAtMs)
    (hauthorized : rebound.authorizedAtMs = ctx.authorizedAtMs)
    (hbytesEq : rebound.bytesForwarded = ctx.bytesForwarded) (hlast : rebound.lastActiveMs = now)
    (hstaged : rebound.Staged) (hinput : e.input = .updateBinding now intentId deviceId addr)
    (hout : e.out = .bound (.ok ())) :
    Lifecycle expiry (h ++ [e]) { t with contexts := t.contexts.insert intentId rebound } := by
  have hactive : ∀ j tok, activeAt j tok e = if intentId = j then some now else none :=
    fun j tok => by rw [activeAt, hinput, hout]
  have hbytes : ∀ tok, bytesForwardedBy tok e = none := fun tok => by
    rw [bytesForwardedBy, hinput, hout]
  have hr := hl.recorded intentId ctx hctx
  refine lifecycle_insert hl hstaged
    ⟨?_, by rw [hexpires, hauthorized, hr.expires], Or.inr ?_, ?_⟩
    (fun j c hj _ => ⟨?_, hbytes _⟩) (fun tok j hj => indexed_snoc hl hj)
    (fun j tok hu => ⟨?_, hbytes tok⟩)
  · rw [htoken, hauthorized]
    exact mem_filterMap_snoc hr.authorized
  · rw [filterMap_snoc, hactive, if_pos rfl, hlast]
    exact List.getLast?_concat
  · rw [filterMap_snoc_of_none (hbytes _), htoken, hbytesEq, hr.bytes]
  · rw [hactive, if_neg fun heq => hj heq.symm]
  · -- the bound intent was authorized
    rw [hactive, if_neg (hu _ (mem_filterMap_snoc hr.authorized)).1]

section

variable (hfresh : FreshPairs (h.map Entry.input))
  (hindex : t.tokenIndex.lookup token = some intentId)
  (hctx : t.contexts.lookup intentId = some ctx)
include hfresh hindex hctx

theorem token_of_index : ctx.token = token := by
  obtain ⟨now, hmem⟩ := hl.indexed token intentId hindex
  exact (pair_unique hfresh (hl.recorded intentId ctx hctx).authorized hmem (Or.inl rfl)).2

theorem lifecycle_forwarded {env : Env} {source destination : SocketAddr} {packetLen : UInt64}
    {forwarded : ForwardingContext} (hends : SameEnds ctx forwarded)
    (hsame : forwarded.state = ctx.state) (hexpires : forwarded.expiresAtMs = ctx.expiresAtMs)
    (hauthorized : forwarded.authorizedAtMs = ctx.authorizedAtMs)
    (hbytesEq : forwarded.bytesForwarded.toNat = ctx.bytesForwarded.toNat + packetLen.toNat)
    (hlast : forwarded.lastActiveMs = env.clock 0)
    (hinput : e.input = .getDestination env token source packetLen)
    (hout : e.out = .destination (.ok destination)) :
    Lifecycle expiry (h ++ [e]) { t with contexts := t.contexts.insert intentId forwarded } := by
  have hactive : ∀ j tok, activeAt j tok e = if token = tok then some (env.clock 0) else none :=
    fun j tok => by rw [activeAt, hinput, hout]
  have hbytes : ∀ tok, bytesForwardedBy tok e = if token = tok then some packetLen.toNat else none :=
    fun tok => by rw [bytesForwardedBy, hinput, hout]
  have hquiet : ∀ j tok, token ≠ tok → activeAt j tok e = none ∧ bytesForwardedBy tok e = none :=
    fun j tok hne => by rw [hactive, hbytes, if_neg hne, if_neg hne]; exact ⟨rfl, rfl⟩
  have hr := hl.recorded intentId ctx hctx
  have htoken := token_of_index hl hfresh hindex hctx
  refine lifecycle_insert hl
    (staged_of_sameEnds hends (Or.inl hsame) (hl.staged intentId ctx hctx))
    ⟨?_, by rw [hexpires, hauthorized, hr.expires], Or.inr ?_, ?_⟩
    (fun j c hj hc => hquiet j c.token fun heq => hj ?_) (fun tok j hj => indexed_snoc hl hj)
    (fun j tok hu => hquiet j tok ?_)
  · rw [hends.token, hauthorized]
    exact mem_filterMap_snoc hr.authorized
  · rw [filterMap_snoc, hactive, hends.token, if_pos htoken.symm, hlast]
    exact List.getLast?_concat
  · rw [filterMap_snoc, hbytes, hends.token, if_pos htoken.symm, List.sum_append, hr.bytes,
      hbytesEq]
    rfl
  · -- another context has another token
    exact (pair_unique hfresh (hl.recorded j c hc).authorized hr.authorized
      (Or.inr (heq.symm.trans htoken.symm))).1
  · -- the token that led to the context was authorized
    obtain ⟨_, hmem⟩ := indexed_snoc (e := e) hl hindex
    exact (hu _ hmem).2

end

end

theorem lifecycle_step (op : ForwardingOp) (hl : Lifecycle expiry h t)
    (hfresh : FreshPairs ((h ++ [stepEntry forwardingStep t op]).map Entry.input)) :
    Lifecycle expiry (h ++ [stepEntry forwardingStep t op]) (forwardingStep t op).2 := by
  have heff := forwardingStep_effect t op
  unfold stepEntry at hfresh ⊢
  generalize forwardingStep t op = result at heff hfresh ⊢
  obtain ⟨out, next⟩ := result
  cases heff with
  | quiet _ _ _ hquiet hkept => exact lifecycle_quiet hl hquiet hkept
  | authorized now intentId token initiatorId targetId expiresAtMs hexpires =>
    exact lifecycle_authorized hl hexpires rfl rfl (unused_of_fresh hfresh rfl)
  | bound now intentId deviceId addr ctx rebound hctx _ htoken hexpires hauthorized hbytes hactive
      hstaged =>
    exact lifecycle_bound hl hctx htoken hexpires hauthorized hbytes hactive hstaged rfl rfl
  | forwarded env token source packetLen intentId ctx forwarded destination hindex hctx _ _ _ _ _
      hends hsame hexpires hauthorized hbytes hactive =>
    exact lifecycle_forwarded hl (fresh_of_snoc hfresh) hindex hctx hends hsame hexpires hauthorized
      hbytes hactive rfl rfl

/-- Every table that a run with fresh pairs reaches is the outcome of its history. -/
theorem lifecycle_run (rateLimit expiry : UInt64) {ops : List ForwardingOp}
    (hfresh : FreshPairs ops) :
    Lifecycle expiry (run forwardingStep (withLimits rateLimit expiry) ops)
      (endState forwardingStep (withLimits rateLimit expiry) ops) := by
  have hrun := @run_induction _ _ _ forwardingStep
    (fun h t => FreshPairs (h.map Entry.input) → Lifecycle expiry h t) (withLimits rateLimit expiry)
    ?_ (fun h t op ih hfresh => lifecycle_step op (ih (fresh_of_snoc hfresh)) hfresh) ops
  · rw [map_input_run] at hrun
    exact hrun hfresh
  · intro _
    refine ⟨rfl, staged_init rateLimit expiry, fun _ _ hl => ?_, fun _ _ hl => ?_,
      fun _ _ _ => ⟨rfl, rfl⟩⟩
    · cases hl
    · cases hl

/-! ### Expired and closed contexts -/

section

variable (hdead : ∀ ctx, t.contexts.lookup intentId = some ctx → ctx.state.isTerminal = true)
include hdead

theorem dead_step (hop : ∀ token, op.authorizes ≠ some (intentId, token)) :
    ∀ ctx, (forwardingStep t op).2.contexts.lookup intentId = some ctx →
      ctx.state.isTerminal = true := by
  have heff := forwardingStep_effect t op
  generalize forwardingStep t op = result at heff ⊢
  obtain ⟨out, next⟩ := result
  intro d hd
  cases heff with
  | quiet _ _ _ _ hkept =>
    obtain ⟨c, hc, hsame⟩ := hkept.contexts _ d hd
    rcases hsame.state with heq | hterm
    · rw [heq]
      exact hdead c hc
    · exact hterm
  | authorized now id token =>
    rw [HashMap.lookup_insert_eq] at hd
    split at hd
    · next hid => exact absurd (by rw [hid]; rfl) (hop token)
    · exact hdead d hd
  | bound now id deviceId addr ctx rebound hctx hlive =>
    rw [HashMap.lookup_insert_eq] at hd
    split at hd
    · next hid => exact nomatch hlive.symm.trans (hdead ctx (hid ▸ hctx))
    · exact hdead d hd
  | forwarded env token source packetLen id ctx forwarded destination _ hctx hstate =>
    rw [HashMap.lookup_insert_eq] at hd
    split at hd
    · next hid =>
      have hterm := hdead ctx (hid ▸ hctx)
      rw [hstate] at hterm
      exact nomatch hterm
    · exact hdead d hd

/-- Until its intent id is authorized again, a context that has ended stays ended. -/
theorem dead_run {ops : List ForwardingOp}
    (hops : ∀ op ∈ ops, ∀ token, op.authorizes ≠ some (intentId, token)) :
    ∀ ctx, (endState forwardingStep t ops).contexts.lookup intentId = some ctx →
      ctx.state.isTerminal = true :=
  run_guarded (G := fun _ op => ∀ token, op.authorizes ≠ some (intentId, token))
    (P := fun _ (t : ForwardingTable) =>
      ∀ ctx, t.contexts.lookup intentId = some ctx → ctx.state.isTerminal = true)
    hdead (fun _ _ _ ih hop => dead_step ih hop)
    (fun e he => hops e.input (input_mem_of_mem_run he))

end

/-! ### The clock -/

theorem activeAt_reading {time : UInt64} (hactive : activeAt intentId token e = some time) :
    time ∈ e.input.readings := by
  unfold activeAt at hactive
  split at hactive
  · next hinput _ =>
    rw [hinput]
    split at hactive
    · cases hactive
      exact List.mem_singleton.mpr rfl
    · cases hactive
  · next hinput _ =>
    rw [hinput]
    split at hactive
    · cases hactive
      exact List.mem_cons_self
    · cases hactive
  · cases hactive

theorem clockMonotone_of_append {before after : List ForwardingOp}
    (hclock : ClockMonotone (before ++ after)) : ClockMonotone before := by
  rw [ClockMonotone, List.flatMap_append, List.pairwise_append] at hclock
  exact hclock.1

theorem clockMonotone_of_snoc {h : List ForwardingEntry}
    (hclock : ClockMonotone ((h ++ [e]).map Entry.input)) : ClockMonotone (h.map Entry.input) := by
  rw [List.map_append] at hclock
  exact clockMonotone_of_append hclock

theorem reading_le {before after : List ForwardingOp} {r r' : UInt64}
    (hclock : ClockMonotone (before ++ op :: after)) (hr : r ∈ before.flatMap ForwardingOp.readings)
    (hr' : r' ∈ op.readings) : r ≤ r' := by
  rw [ClockMonotone, List.flatMap_append, List.pairwise_append] at hclock
  exact hclock.2.2 r hr r' (List.mem_flatMap.mpr ⟨op, List.mem_cons_self, hr'⟩)

end LifecycleLemmas

/-! ## The guarantees -/

/-- The number of bound addresses. -/
def ForwardingContext.boundCount (ctx : ForwardingContext) : Nat :=
  [ctx.initiator.addr, ctx.target.addr].countP Option.isSome

/-- What a forwarded packet shows of the context it went through, against the history before it. -/
structure ForwardedIn (expiry : UInt64) (h : List ForwardingEntry) (t t' : ForwardingTable)
    (now : UInt64) (token : RelayToken) (source destination : SocketAddr) (intentId : IntentId)
    (ctx : ForwardingContext) : Prop where
  context : t.contexts.lookup intentId = some ctx ∧ ctx.token = token
  active : ctx.state = .relayActive
  addresses : (ctx.initiator.addr = some source ∧ ctx.target.addr = some destination) ∨
    (ctx.initiator.addr = some destination ∧ ctx.target.addr = some source)
  beforeExpiry : ∃ authorizedAt, (intentId, token, authorizedAt) ∈ h.filterMap authorizedBy ∧
    now.toNat < authorizedAt.toNat + expiry.toNat
  notIdle : ∃ last, (h.filterMap (activeAt intentId token)).getLast? = some last ∧ last ≤ now ∧
    now.toNat ≤ last.toNat + 30000
  belowCap : (h.filterMap (bytesForwardedBy token)).sum < sessionByteCap.toNat
  others : ∀ j, j ≠ intentId → t'.contexts.lookup j = t.contexts.lookup j

namespace LifecycleLemmas

open ForwardingLemmas InvariantLemmas

theorem boundCount_of_staged {ctx : ForwardingContext} (hstaged : ctx.Staged)
    (hlive : ctx.state.isTerminal = false) :
    (ctx.state = .authorized ↔ ctx.boundCount = 0) ∧
      (ctx.state = .relayRequested ↔ ctx.boundCount = 1) ∧
      (ctx.state = .relayActive ↔ ctx.boundCount = 2) := by
  rw [hstaged hlive, ForwardingContext.stage, ForwardingContext.boundCount]
  cases ctx.initiator.addr with
  | none => cases ctx.target.addr <;> simp
  | some initAddr => cases ctx.target.addr <;> simp

/-- A packet is forwarded only in a context that meets all of this. -/
theorem forwardedIn_of_ok (rateLimit expiry : UInt64) {before after : List ForwardingOp} {env : Env}
    {token : RelayToken} {source destination : SocketAddr} {packetLen : UInt64}
    (hfresh : FreshPairs before)
    (hclock : ClockMonotone (before ++ .getDestination env token source packetLen :: after))
    (hok : (getDestination env token source packetLen
      (endState forwardingStep (withLimits rateLimit expiry) before)).1 = .ok destination) :
    ∃ intentId ctx,
      ForwardedIn expiry (run forwardingStep (withLimits rateLimit expiry) before)
        (endState forwardingStep (withLimits rateLimit expiry) before)
        (getDestination env token source packetLen
          (endState forwardingStep (withLimits rateLimit expiry) before)).2
        (env.clock 0) token source destination intentId ctx := by
  have hl := lifecycle_run rateLimit expiry hfresh
  have hinputs : FreshPairs
      ((run forwardingStep (withLimits rateLimit expiry) before).map Entry.input) := by
    rw [map_input_run]
    exact hfresh
  have heff := forwardingStep_effect (endState forwardingStep (withLimits rateLimit expiry) before)
    (.getDestination env token source packetLen)
  simp only [forwardingStep] at heff
  rw [hok] at heff
  generalize (getDestination env token source packetLen
    (endState forwardingStep (withLimits rateLimit expiry) before)).2 = next at heff ⊢
  cases heff with
  | quiet _ _ _ hquiet _ =>
    have hnone : (if token = token then some packetLen.toNat else none) = none :=
      hquiet.bytes_eq token
    rw [if_pos rfl] at hnone
    exact nomatch hnone
  | forwarded _ _ _ _ intentId ctx forwarded _ hindex hctx hstate hexpiry hcap hidle hopposite =>
    have hr := hl.recorded intentId ctx hctx
    have htoken := token_of_index hl hinputs hindex hctx
    have haddresses := opposite_eq_some hopposite
    have hlast : ((run forwardingStep (withLimits rateLimit expiry) before).filterMap
        (activeAt intentId token)).getLast? = some ctx.lastActiveMs := by
      rw [← htoken]
      refine hr.active.resolve_left fun hnone => ?_
      rcases haddresses with ⟨hi, -⟩ | ⟨hi, -⟩ <;> exact nomatch hnone.1.symm.trans hi
    refine ⟨intentId, ctx, ⟨hctx, htoken⟩, hstate, haddresses,
      ⟨ctx.authorizedAtMs, htoken ▸ hr.authorized, ?_⟩, ⟨ctx.lastActiveMs, hlast, ?_⟩, ?_,
      fun j hj => ?_⟩
    · rw [← hr.expires]
      exact UInt64.lt_iff_toNat_lt.mp hexpiry
    · -- the last activity read the clock earlier in the run
      obtain ⟨e, he, hactive⟩ := List.mem_filterMap.mp (List.mem_of_getLast? hlast)
      have hle : ctx.lastActiveMs ≤ env.clock 0 := by
        refine reading_le hclock (List.mem_flatMap.mpr ⟨e.input, input_mem_of_mem_run he, ?_⟩)
          List.mem_cons_self
        exact activeAt_reading hactive
      refine ⟨hle, ?_⟩
      have hnat := UInt64.le_iff_toNat_le.mp hidle
      rw [toNat_saturatingSub] at hnat
      have hmax : idleTimeoutMs.toNat = 30000 := rfl
      omega
    · rw [← htoken, hr.bytes]
      exact UInt64.lt_iff_toNat_lt.mp hcap
    · exact AList.lookup_insert_ne hj

end LifecycleLemmas

open LifecycleLemmas

/-- In every run with fresh intent ids and tokens and a clock that never goes back: the state of a
live context says how many addresses are bound, a context that has ended stays ended, and a packet
is forwarded only within the limits of its context. -/
theorem forwarding_lifecycle (rateLimit expiry : UInt64) {ops : List ForwardingOp}
    (hfresh : FreshPairs ops) (hclock : ClockMonotone ops) :
    let tableAfter := endState forwardingStep (withLimits rateLimit expiry)
    (∀ intentId ctx, (tableAfter ops).contexts.lookup intentId = some ctx →
      ctx.state.isTerminal = false →
        (ctx.state = .authorized ↔ ctx.boundCount = 0) ∧
          (ctx.state = .relayRequested ↔ ctx.boundCount = 1) ∧
          (ctx.state = .relayActive ↔ ctx.boundCount = 2)) ∧
    (∀ before after intentId ctx, ops = before ++ after →
      (tableAfter before).contexts.lookup intentId = some ctx → ctx.state.isTerminal = true →
        ∀ ctx', (tableAfter ops).contexts.lookup intentId = some ctx' →
          ctx'.state.isTerminal = true) ∧
    ∀ before after env token source packetLen destination,
      ops = before ++ .getDestination env token source packetLen :: after →
      (getDestination env token source packetLen (tableAfter before)).1 = .ok destination →
        ∃ intentId ctx,
          ForwardedIn expiry (run forwardingStep (withLimits rateLimit expiry) before)
            (tableAfter before) (getDestination env token source packetLen (tableAfter before)).2
            (env.clock 0) token source destination intentId ctx := by
  intro tableAfter
  refine ⟨fun intentId ctx hctx hlive => ?_, fun before after intentId ctx hops hctx hdead => ?_,
    fun before after env token source packetLen destination hops hok => ?_⟩
  · exact boundCount_of_staged ((lifecycle_run rateLimit expiry hfresh).staged intentId ctx hctx) hlive
  · subst hops
    rw [FreshPairs, List.filterMap_append, List.pairwise_append] at hfresh
    have hr := (lifecycle_run rateLimit expiry hfresh.1).recorded intentId ctx hctx
    show ∀ ctx', (endState forwardingStep _ (before ++ after)).contexts.lookup intentId = some ctx' → _
    rw [endState_append]
    refine dead_run (fun c hc => ?_) fun op hop token hauth => ?_
    · cases hctx.symm.trans hc
      exact hdead
    · -- the intent id was authorized before
      have hmem := authorizes_of_mem hr.authorized
      rw [map_input_run] at hmem
      have hafter := List.mem_filterMap.mpr ⟨op, hop, hauth⟩
      exact (hfresh.2.2 _ hmem _ hafter).1 rfl
  · subst hops
    rw [FreshPairs, List.filterMap_append, List.pairwise_append] at hfresh
    exact forwardedIn_of_ok rateLimit expiry hfresh.1 hclock hok

/-- Two devices are authorized and bind their addresses. -/
def boundSession : List ForwardingOp :=
  [.authorizePair 1000 (Bytes.fill 16 7) (Bytes.fill 32 9) (Bytes.fill 32 1) (Bytes.fill 32 2),
    .updateBinding 2000 (Bytes.fill 16 7) (Bytes.fill 32 1) (.v4 (Bytes.fill 4 1) 1111),
    .updateBinding 3000 (Bytes.fill 16 7) (Bytes.fill 32 2) (.v4 (Bytes.fill 4 2) 2222)]

/-- A packet of the first device goes to the second. -/
theorem forwarding_lifecycle_first_packet :
    let t := endState forwardingStep (withLimits rateLimitBytesPerSec sessionExpiryMs) boundSession
    let call := getDestination (.at 4000 none) (Bytes.fill 32 9) (.v4 (Bytes.fill 4 1) 1111) 100 t
    ∃ intentId ctx,
      ForwardedIn sessionExpiryMs
        (run forwardingStep (withLimits rateLimitBytesPerSec sessionExpiryMs) boundSession) t call.2
        4000 (Bytes.fill 32 9) (.v4 (Bytes.fill 4 1) 1111) (.v4 (Bytes.fill 4 2) 2222) intentId
        ctx :=
  (forwarding_lifecycle rateLimitBytesPerSec sessionExpiryMs (by decide +kernel)
    (by decide +kernel)).2.2 boundSession [] (.at 4000 none) (Bytes.fill 32 9)
    (.v4 (Bytes.fill 4 1) 1111) 100 (.v4 (Bytes.fill 4 2) 2222) rfl (by decide +kernel)

end Blackwing.Relay

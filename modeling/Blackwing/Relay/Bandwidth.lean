import Blackwing.Lib.TokenBucket
import Blackwing.Relay.Lifecycle

/-!
# The bandwidth cap

Each forwarding context has a token bucket that both directions share. A session of an intent id
is a stretch of a run in which the id is not authorized again: an authorization replaces the context
and starts with a full bucket.

* `BucketEffect`, `forwardingStep_bucket`: what a call can do to the bucket of a context.
* `MeteredTable`, `meteredTable_run`: along every run whose clock never goes back, each bucket has
  paid for the packets of its session.
* `bandwidth_cap`: in every window, a session forwards at most one full bucket and the refill.
-/

namespace Blackwing.Relay

open ForwardingTable TokenBucket

/-- The packet that the call forwarded in the context of the intent: its time and its length. -/
def forwardedFor (intentId : IntentId) (e : ForwardingEntry) : Option (Spend ℚ) :=
  match e.input, e.out with
  | .getDestination env token _ packetLen, .destination (.ok _) =>
    if e.pre.tokenIndex.lookup token = some intentId then
      some ⟨(env.clock 0).toNat, packetLen.toNat⟩
    else none
  | _, _ => none

/-- No call of the history authorized the intent. -/
def OneSession (intentId : IntentId) (h : List ForwardingEntry) : Prop :=
  ∀ a ∈ h.filterMap authorizedBy, a.1 ≠ intentId

instance (intentId : IntentId) (h : List ForwardingEntry) : Decidable (OneSession intentId h) :=
  inferInstanceAs (Decidable (∀ a ∈ _, _))

/-- The bucket has paid for the packets: it holds a second's worth and gains a thousandth of it in a
millisecond. -/
def RateBucket.Metered (rateLimit : UInt64) (packets : List (Spend ℚ)) (b : RateBucket) : Prop :=
  TokenBucket.Metered (rateLimit.toNat : ℚ) (rateLimit.toNat / 1000) packets b.tokens
    b.lastRefillMs.toNat

/-- What a call with these clock readings can do to a bucket, and the packet that it pays for. -/
inductive BucketEffect (rateLimit : UInt64) (readings : List UInt64) (b : RateBucket) :
    RateBucket → Option (Spend ℚ) → Prop
  | kept : BucketEffect rateLimit readings b b none
  | refilled (now : UInt64) (hnow : now ∈ readings) :
      BucketEffect rateLimit readings b (ForwardingContext.refilled rateLimit now b) none
  /-- A packet whose byte count overflows is paid for and not forwarded. -/
  | charged (now : UInt64) (hnow : now ∈ readings) (packetLen : UInt64) (packet : Option (Spend ℚ))
      (hle : (packetLen.toNat : ℚ) ≤ (ForwardingContext.refilled rateLimit now b).tokens)
      (hpacket : packet = none ∨ packet = some ⟨now.toNat, packetLen.toNat⟩) :
      BucketEffect rateLimit readings b
        { ForwardingContext.refilled rateLimit now b with
          tokens := (ForwardingContext.refilled rateLimit now b).tokens - packetLen.toNat }
        packet

/-- Every bucket of the table has paid for the packets of its session, and was refilled last at a
time that the history has read. -/
structure MeteredTable (rateLimit : UInt64) (h : List ForwardingEntry) (t : ForwardingTable) :
    Prop where
  rate : t.rateLimitBytesPerSec = rateLimit
  refilledAt : ∀ intentId ctx, t.contexts.lookup intentId = some ctx →
    ctx.rateBucket.lastRefillMs ∈ (h.map Entry.input).flatMap ForwardingOp.readings
  metered : ∀ intentId before session, h = before ++ session → OneSession intentId session →
    ∀ ctx, t.contexts.lookup intentId = some ctx →
      ctx.rateBucket.Metered rateLimit (session.filterMap (forwardedFor intentId))
  capped : ∀ intentId before session, h = before ++ session → OneSession intentId session →
    Capped (rateLimit.toNat : ℚ) (rateLimit.toNat / 1000)
      (session.filterMap (forwardedFor intentId))

namespace BandwidthLemmas

open ForwardingLemmas LifecycleLemmas

variable {rateLimit now : UInt64} {t : ForwardingTable} {op : ForwardingOp} {intentId : IntentId}

/-! ## One bucket -/

theorem rate_nonneg (rateLimit : UInt64) : (0 : ℚ) ≤ rateLimit.toNat / 1000 := by positivity

theorem metered_full (rateLimit now : UInt64) :
    RateBucket.Metered rateLimit [] ⟨rateLimit.toNat, now⟩ :=
  TokenBucket.Metered.idle (rate_nonneg rateLimit) (Nat.cast_nonneg _) (le_refl _)

variable {b : RateBucket} {packets : List (Spend ℚ)} {readings : List UInt64}
  {d : ForwardingContext}

/-- What the bucket has paid for can be forgotten. -/
theorem metered_nil (h : b.Metered rateLimit packets) :
    b.Metered rateLimit [] :=
  TokenBucket.Metered.idle h.rate_nonneg h.nonneg h.le_cap

theorem metered_refilled (h : b.Metered rateLimit packets) (hnow : b.lastRefillMs ≤ now) :
    (ForwardingContext.refilled rateLimit now b).Metered rateLimit packets := by
  have hle := UInt64.le_iff_toNat_le.mp hnow
  have helapsed : ((saturatingSub now b.lastRefillMs).toNat : ℚ) / 1000 * rateLimit.toNat =
      rateLimit.toNat / 1000 * (now.toNat - b.lastRefillMs.toNat) := by
    rw [toNat_saturatingSub, Nat.cast_sub hle]
    ring
  have hfilled := TokenBucket.Metered.refill h (Nat.cast_le.mpr hle)
  rw [← helapsed] at hfilled
  exact hfilled

theorem metered_of_effect {b' : RateBucket} {packet : Option (Spend ℚ)}
    (heff : BucketEffect rateLimit readings b b' packet) (h : b.Metered rateLimit packets)
    (hclock : ∀ now ∈ readings, b.lastRefillMs ≤ now) :
    b'.Metered rateLimit (packets ++ packet.toList) := by
  cases heff with
  | kept => rwa [Option.toList_none, List.append_nil]
  | refilled now hnow =>
    rw [Option.toList_none, List.append_nil]
    exact metered_refilled h (hclock now hnow)
  | charged now hnow packetLen _ hle hpacket =>
    have hfilled := metered_refilled h (hclock now hnow)
    rcases hpacket with rfl | rfl
    · rw [Option.toList_none, List.append_nil]
      exact TokenBucket.Metered.drain hfilled (Nat.cast_nonneg _) hle
    · exact TokenBucket.Metered.spend hfilled (Nat.cast_nonneg _) hle

theorem lastRefill_of_effect {b' : RateBucket} {packet : Option (Spend ℚ)}
    (heff : BucketEffect rateLimit readings b b' packet) :
    b'.lastRefillMs = b.lastRefillMs ∨ b'.lastRefillMs ∈ readings := by
  cases heff with
  | kept => exact Or.inl rfl
  | refilled now hnow => exact Or.inr hnow
  | charged now hnow packetLen packet hle hpacket => exact Or.inr hnow

/-! ## One call -/

/-- The packet of a data-plane call on the context of its token. -/
theorem forwardedFor_getDestination (env : Env) (token : RelayToken) (source : SocketAddr)
    (packetLen : UInt64) :
    forwardedFor intentId
        (stepEntry forwardingStep t (.getDestination env token source packetLen)) =
      match (getDestination env token source packetLen t).1 with
      | .ok _ => if t.tokenIndex.lookup token = some intentId then
          some ⟨(env.clock 0).toNat, packetLen.toNat⟩ else none
      | _ => none := by
  simp only [forwardedFor, stepEntry, forwardingStep]
  cases (getDestination env token source packetLen t).1 <;> rfl

/-- Forwarding refills and charges the bucket for what it forwards. -/
theorem forward_bucket (now : UInt64) (source : SocketAddr) (packetLen : UInt64)
    (ctx : ForwardingContext) (hnow : now ∈ readings) :
    BucketEffect rateLimit readings ctx.rateBucket
      (ForwardingContext.forward rateLimit now source packetLen ctx).2.rateBucket
      (match (ForwardingContext.forward rateLimit now source packetLen ctx).1 with
      | .ok _ => some ⟨now.toNat, packetLen.toNat⟩
      | _ => none) := by
  rcases forward_cases rateLimit now source packetLen ctx with
    h | h | ⟨_, _, -, -, -, -, -, rfl, ⟨-, h⟩ | ⟨hle, h | ⟨_, -, h⟩⟩⟩
  · rw [h]
    exact .kept
  · rw [h]
    exact .kept
  · rw [h]
    exact .refilled now hnow
  · rw [h]
    exact .charged now hnow packetLen _ hle (Or.inl rfl)
  · rw [h]
    exact .charged now hnow packetLen _ hle (Or.inr rfl)

/-- A call on one context that leaves its bucket alone. -/
theorem onContext_kept {ε α : Type} {id : IntentId} {missing : ε} {x : Call ForwardingContext ε α}
    (hx : ∀ ctx, (x ctx).2.rateBucket = ctx.rateBucket)
    (hd : (onContext id missing x t).2.contexts.lookup intentId = some d) :
    ∃ c, t.contexts.lookup intentId = some c ∧
      BucketEffect t.rateLimitBytesPerSec readings c.rateBucket d.rateBucket none := by
  obtain ⟨c, hc, ⟨-, rfl⟩ | ⟨-, rfl⟩⟩ := onContext_context hd
  · refine ⟨c, hc, ?_⟩
    rw [hx]
    exact .kept
  · exact ⟨d, hc, .kept⟩

theorem bind_rateBucket (now : UInt64) (deviceId : DeviceId) (addr : SocketAddr)
    (ctx : ForwardingContext) :
    (ForwardingContext.bind now deviceId addr ctx).2.rateBucket = ctx.rateBucket := by
  rcases bind_cases now deviceId addr ctx with
    ⟨-, _, h⟩ | ⟨-, -, _, h⟩ | ⟨-, -, -, h⟩ | ⟨-, -, -, -, h⟩ <;> rw [h] <;> rfl

theorem swept_rateBucket (now : UInt64) (ctx : ForwardingContext) :
    (ctx.swept now).rateBucket = ctx.rateBucket := by
  unfold ForwardingContext.swept
  dsimp only
  split <;> rfl

theorem getDestination_bucket {env : Env} {token : RelayToken} {source : SocketAddr}
    {packetLen : UInt64}
    (hd : (getDestination env token source packetLen t).2.contexts.lookup intentId = some d) :
    ∃ c, t.contexts.lookup intentId = some c ∧
      BucketEffect t.rateLimitBytesPerSec [env.clock 0, env.clock 1] c.rateBucket d.rateBucket
        (forwardedFor intentId
          (stepEntry forwardingStep t (.getDestination env token source packetLen))) := by
  rw [forwardedFor_getDestination]
  rcases getDestination_cases env token source packetLen t with ⟨r, f, hcall, hr⟩ | ⟨id, hindex, hcall⟩
  · rw [hcall] at hd ⊢
    refine ⟨d, hd, ?_⟩
    cases r with
    | ok destination => exact absurd rfl (hr destination)
    | err e => exact .kept
    | panicked => exact .kept
  · rw [hcall] at hd ⊢
    rw [hindex]
    obtain ⟨c, hc, ⟨rfl, rfl⟩ | ⟨hid, rfl⟩⟩ := onContext_context hd
    · refine ⟨c, hc, ?_⟩
      rw [if_pos rfl, onContext, hc]
      exact forward_bucket (env.clock 0) source packetLen c List.mem_cons_self
    · refine ⟨d, hc, ?_⟩
      rw [if_neg fun h => hid (Option.some.inj h).symm]
      cases (onContext id () _ t).1 <;> exact .kept

/-- A context after a call is a fresh one of this authorization, or one that was there before. -/
theorem forwardingStep_bucket (hd : (forwardingStep t op).2.contexts.lookup intentId = some d) :
    (∃ token, ∃ now ∈ op.readings,
      authorizedBy (stepEntry forwardingStep t op) = some (intentId, token, now) ∧
        d.rateBucket = ⟨t.rateLimitBytesPerSec.toNat, now⟩) ∨
    ∃ c, t.contexts.lookup intentId = some c ∧
      BucketEffect t.rateLimitBytesPerSec op.readings c.rateBucket d.rateBucket
        (forwardedFor intentId (stepEntry forwardingStep t op)) := by
  cases op with
  | authorizePair now id token initiatorId targetId =>
    simp only [stepEntry, forwardingStep] at hd ⊢
    rcases authorizePair_cases now id token initiatorId targetId t with
      ⟨-, h⟩ | ⟨expiresAtMs, -, h⟩
    · rw [h] at hd ⊢
      exact Or.inr ⟨d, hd, .kept⟩
    · rw [h] at hd ⊢
      rw [HashMap.lookup_insert_eq] at hd
      split at hd
      · next hid =>
        cases hd
        exact Or.inl ⟨token, now, List.mem_singleton.mpr rfl, by rw [hid]; rfl, rfl⟩
      · exact Or.inr ⟨d, hd, .kept⟩
  | updateBinding now id deviceId addr =>
    exact Or.inr (onContext_kept (bind_rateBucket now deviceId addr) hd)
  | getDestination env token source packetLen => exact Or.inr (getDestination_bucket hd)
  | close id => exact Or.inr (onContext_kept (fun _ => rfl) hd)
  | sweep now =>
    obtain ⟨c, hc, rfl, -⟩ := lookup_sweep.mp hd
    refine Or.inr ⟨c, hc, ?_⟩
    rw [swept_rateBucket]
    exact .kept

/-- A packet leaves the context it went through in the table. -/
theorem forwardedFor_of_lookup_none
    (hnone : (forwardingStep t op).2.contexts.lookup intentId = none) :
    forwardedFor intentId (stepEntry forwardingStep t op) = none := by
  cases op with
  | getDestination env token source packetLen =>
    rw [forwardedFor_getDestination]
    replace hnone :
      (getDestination env token source packetLen t).2.contexts.lookup intentId = none := hnone
    rcases getDestination_cases env token source packetLen t with
      ⟨r, f, hcall, hr⟩ | ⟨id, hindex, hcall⟩
    · rw [hcall]
      cases r with
      | ok destination => exact absurd rfl (hr destination)
      | err e => rfl
      | panicked => rfl
    · rw [hcall, onContext_lookup] at hnone
      rw [hcall, hindex]
      split at hnone
      · next hid =>
        rw [onContext, Option.map_eq_none_iff.mp hnone]
      · next hid =>
        rw [if_neg fun h => hid (Option.some.inj h).symm]
        cases (onContext id () _ t).1 <;> rfl
  | _ => rfl

/-! ## Whole runs -/

theorem forwardingStep_rate (t : ForwardingTable) (op : ForwardingOp) :
    (forwardingStep t op).2.rateLimitBytesPerSec = t.rateLimitBytesPerSec := by
  cases op with
  | authorizePair now id token initiatorId targetId =>
    simp only [forwardingStep]
    rcases authorizePair_cases now id token initiatorId targetId t with ⟨-, h⟩ | ⟨_, -, h⟩ <;> rw [h]
  | updateBinding now id deviceId addr => exact onContext_rateLimit _ _ _ t
  | getDestination env token source packetLen =>
    simp only [forwardingStep]
    rcases getDestination_cases env token source packetLen t with ⟨_, _, h, -⟩ | ⟨_, -, h⟩
    · rw [h]
    · rw [h]
      exact onContext_rateLimit _ _ _ t
  | close id => exact onContext_rateLimit _ _ _ t
  | sweep now => exact (removeAll_limits _ _).1

variable {h : List ForwardingEntry}

/-- A session that ends with a call is the session before it and the call. -/
theorem session_snoc {e : ForwardingEntry} {before session : List ForwardingEntry}
    (hsplit : h ++ [e] = before ++ session) (hone : OneSession intentId session) :
    session = [] ∨ ∃ earlier, h = before ++ earlier ∧ session = earlier ++ [e] ∧
      OneSession intentId earlier ∧ ∀ a, authorizedBy e = some a → a.1 ≠ intentId := by
  rcases List.eq_nil_or_concat' session with rfl | ⟨earlier, last, rfl⟩
  · exact Or.inl rfl
  · rw [← List.append_assoc] at hsplit
    obtain ⟨rfl, hlast⟩ := List.append_inj' hsplit rfl
    cases hlast
    refine Or.inr ⟨earlier, rfl, rfl, fun a ha => hone a (mem_filterMap_snoc ha), fun a ha => ?_⟩
    refine hone a (List.mem_filterMap.mpr ⟨e, List.mem_append_right _ ?_, ha⟩)
    exact List.mem_singleton.mpr rfl

section

variable (hm : MeteredTable rateLimit h t)
  (hclock : ClockMonotone ((h ++ [stepEntry forwardingStep t op]).map Entry.input))
include hm hclock

/-- The bucket after the call has paid for one more packet, unless it is a fresh one. -/
theorem metered_step {before session : List ForwardingEntry} (hsplit : h = before ++ session)
    (hone : OneSession intentId session)
    (hd : (forwardingStep t op).2.contexts.lookup intentId = some d) :
    (∃ token now, authorizedBy (stepEntry forwardingStep t op) = some (intentId, token, now) ∧
      d.rateBucket = ⟨rateLimit.toNat, now⟩) ∨
    d.rateBucket.Metered rateLimit
      ((session ++ [stepEntry forwardingStep t op]).filterMap (forwardedFor intentId)) := by
  rw [filterMap_snoc]
  rcases forwardingStep_bucket hd with ⟨token, now, -, hauth, hb⟩ | ⟨c, hc, heff⟩
  · rw [hm.rate] at hb
    exact Or.inl ⟨token, now, hauth, hb⟩
  · rw [hm.rate] at heff
    refine Or.inr (metered_of_effect heff (hm.metered intentId before session hsplit hone c hc) ?_)
    intro now hnow
    rw [List.map_append, List.map_singleton] at hclock
    exact reading_le hclock (hm.refilledAt intentId c hc) hnow

theorem meteredTable_step :
    MeteredTable rateLimit (h ++ [stepEntry forwardingStep t op]) (forwardingStep t op).2 := by
  have hmetered : ∀ id before session, h ++ [stepEntry forwardingStep t op] = before ++ session →
      OneSession id session → ∀ d, (forwardingStep t op).2.contexts.lookup id = some d →
        d.rateBucket.Metered rateLimit (session.filterMap (forwardedFor id)) := by
    intro id before session hsplit hone d hd
    rcases session_snoc hsplit hone with rfl | ⟨earlier, hearlier, rfl, hone', hauth⟩
    · have hnil : OneSession id [] := fun _ he => absurd he List.not_mem_nil
      rcases metered_step hm hclock (List.append_nil h).symm hnil hd with ⟨_, now, -, hb⟩ | hd'
      · rw [hb]
        exact metered_full rateLimit now
      · exact metered_nil hd'
    · rcases metered_step hm hclock hearlier hone' hd with ⟨token, now, hnew, -⟩ | hd'
      · exact absurd rfl (hauth _ hnew)
      · exact hd'
  refine ⟨(forwardingStep_rate t op).trans hm.rate, fun id d hd => ?_, hmetered,
    fun id before session hsplit hone => ?_⟩
  · rw [List.map_append, List.flatMap_append, List.map_singleton, List.flatMap_singleton,
      List.mem_append]
    rcases forwardingStep_bucket hd with ⟨token, now, hnow, -, hb⟩ | ⟨c, hc, heff⟩
    · rw [hb]
      exact Or.inr hnow
    · rcases lastRefill_of_effect heff with heq | hmem
      · rw [heq]
        exact Or.inl (hm.refilledAt id c hc)
      · exact Or.inr hmem
  · cases hd : (forwardingStep t op).2.contexts.lookup id with
    | some d => exact (hmetered id before session hsplit hone d hd).capped
    | none =>
      rcases session_snoc hsplit hone with rfl | ⟨earlier, hearlier, rfl, hone', -⟩
      · exact capped_nil (Nat.cast_nonneg _) (rate_nonneg rateLimit)
      · rw [filterMap_snoc, forwardedFor_of_lookup_none hd, Option.toList_none, List.append_nil]
        exact hm.capped id before earlier hearlier hone'

end

/-- Along every run whose clock never goes back, each bucket has paid for its session. -/
theorem meteredTable_run (rateLimit expiry : UInt64) {ops : List ForwardingOp}
    (hclock : ClockMonotone ops) :
    MeteredTable rateLimit (run forwardingStep (withLimits rateLimit expiry) ops)
      (endState forwardingStep (withLimits rateLimit expiry) ops) := by
  have hrun := @run_induction _ _ _ forwardingStep
    (fun h t => ClockMonotone (h.map Entry.input) → MeteredTable rateLimit h t)
    (withLimits rateLimit expiry) ?_
    (fun h t op ih hclock => meteredTable_step (ih (clockMonotone_of_snoc hclock)) hclock) ops
  · rw [map_input_run] at hrun
    exact hrun hclock
  · intro _
    refine ⟨rfl, fun _ _ hl => ?_, fun _ _ _ _ _ _ hl => ?_, fun id before session hsplit _ => ?_⟩
    · cases hl
    · cases hl
    · obtain ⟨-, rfl⟩ := List.append_eq_nil_iff.mp hsplit.symm
      exact capped_nil (Nat.cast_nonneg _) (rate_nonneg rateLimit)

end BandwidthLemmas

open BandwidthLemmas

/-- In every run whose clock never goes back, a bucket holds between nothing and a second's worth,
and in every window a session forwards at most a second's worth and the refill of the window. -/
theorem bandwidth_cap (rateLimit expiry : UInt64) {ops : List ForwardingOp}
    (hclock : ClockMonotone ops) :
    (∀ intentId ctx,
      (endState forwardingStep (withLimits rateLimit expiry) ops).contexts.lookup intentId =
        some ctx → 0 ≤ ctx.rateBucket.tokens ∧ ctx.rateBucket.tokens ≤ rateLimit.toNat) ∧
    ∀ intentId before session,
      run forwardingStep (withLimits rateLimit expiry) ops = before ++ session →
      OneSession intentId session → ∀ t₁ t₂ : ℚ, t₁ ≤ t₂ →
        spentWithin t₁ t₂ (session.filterMap (forwardedFor intentId)) ≤
          rateLimit.toNat + rateLimit.toNat * (t₂ - t₁) / 1000 := by
  have hm := meteredTable_run rateLimit expiry hclock
  refine ⟨fun intentId ctx hl => ?_, fun intentId before session hrun hone t₁ t₂ ht => ?_⟩
  · have hb := hm.metered intentId _ [] (List.append_nil _).symm
      (fun _ he => absurd he List.not_mem_nil) ctx hl
    exact ⟨hb.nonneg, hb.le_cap⟩
  · have hcap := hm.capped intentId before session hrun hone t₁ t₂ ht
    rwa [div_mul_eq_mul_div] at hcap

/-- Two packets of one session, half a second apart: the second one is paid for by the refill. -/
theorem bandwidth_cap_two_packets :
    let packet := fun now => ForwardingOp.getDestination (.at now none) (Bytes.fill 32 9)
      (.v4 (Bytes.fill 4 1) 1111) 400000
    let entries := run forwardingStep (withLimits rateLimitBytesPerSec sessionExpiryMs)
      (boundSession ++ [packet 4000, packet 4500])
    let sent := spentWithin 4000 4500 ((entries.drop 1).filterMap (forwardedFor (Bytes.fill 16 7)))
    sent = 800000 ∧ sent ≤ 625000 + 625000 * (4500 - 4000) / 1000 :=
  ⟨by decide +kernel,
    (bandwidth_cap rateLimitBytesPerSec sessionExpiryMs (by decide +kernel)).2 (Bytes.fill 16 7) _ _
      (List.take_append_drop 1 _).symm (by decide +kernel) 4000 4500 (by decide +kernel)⟩

end Blackwing.Relay

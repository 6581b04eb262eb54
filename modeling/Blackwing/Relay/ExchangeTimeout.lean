import Blackwing.Relay.Lifecycle

/-!
# The exchange timeout

A context has ten seconds from its authorization until both addresses are bound. Only `sweep`
enforces this rule. `update_binding` tests the idle timeout of thirty seconds and the absolute
expiry, so without a sweep in between it completes a pair that a sweep would have removed.

* `LateBinding`, `LateActivation`, `SweptAway`: what a call would have to be for the rule to fail,
  in terms of the table before it.
* `activatesInTime_iff`, `sweepIndifferent_iff`, `sweepInvisible_iff`: one call.
* `exchange_timeout_iff`: a whole run keeps the rule exactly when no call is a late binding.
* `late_binding_activates`: a run that does not.
-/

namespace Blackwing.Relay

open ForwardingTable

/-! ## The rule -/

/-- The exchange timeout of `sweep`: one of the addresses is missing after ten seconds. -/
def ForwardingContext.ExchangeOver (now : UInt64) (ctx : ForwardingContext) : Prop :=
  (ctx.state = .authorized ∨ ctx.state = .relayRequested) ∧
    saturatingSub now ctx.authorizedAtMs > exchangeTimeoutMs

/-- The device is one of the two ends. -/
def ForwardingContext.Joins (deviceId : DeviceId) (ctx : ForwardingContext) : Prop :=
  ctx.initiator.deviceId = deviceId ∨ ctx.target.deviceId = deviceId

/-- An address of the device is the last one that the context needs. A device that is both ends
binds the initiator's. -/
def ForwardingContext.Completes (deviceId : DeviceId) (ctx : ForwardingContext) : Prop :=
  (ctx.initiator.deviceId = deviceId ∧ ctx.target.addr.isSome = true) ∨
    (ctx.initiator.deviceId ≠ deviceId ∧ ctx.target.deviceId = deviceId ∧
      ctx.initiator.addr.isSome = true)

/-- A context that the call turns `RelayActive` was authorized at most ten seconds before. -/
def ActivatesInTime (e : ForwardingEntry) : Prop :=
  ∀ intentId c d, e.pre.contexts.lookup intentId = some c → c.state ≠ .relayActive →
    e.post.contexts.lookup intentId = some d → d.state = .relayActive →
      ∀ now ∈ e.input.readings, now.toNat ≤ d.authorizedAtMs.toNat + exchangeTimeoutMs.toNat

/-- Whether the call binds does not depend on a sweep before it. -/
def SweepIndifferent (e : ForwardingEntry) : Prop :=
  ∀ now intentId deviceId addr, e.input = .updateBinding now intentId deviceId addr →
    ∀ sweptAt ≤ now,
      (updateBinding now intentId deviceId addr (e.pre.sweep sweptAt).2).1 = .ok () ↔
        (updateBinding now intentId deviceId addr e.pre).1 = .ok ()

/-- What the call returns, the text of an error included, does not depend on a sweep before it. -/
def SweepInvisible (e : ForwardingEntry) : Prop :=
  ∀ now intentId deviceId addr, e.input = .updateBinding now intentId deviceId addr →
    ∀ sweptAt ≤ now,
      (updateBinding now intentId deviceId addr (e.pre.sweep sweptAt).2).1 =
        (updateBinding now intentId deviceId addr e.pre).1

/-- One of the two devices binds in time for `update_binding`, and too late for `sweep`. -/
def LateBinding (t : ForwardingTable) (op : ForwardingOp) : Prop :=
  ∃ now intentId deviceId addr ctx, op = .updateBinding now intentId deviceId addr ∧
    t.contexts.lookup intentId = some ctx ∧ ctx.ExchangeOver now ∧ ¬ ctx.Overdue now ∧
    ctx.Joins deviceId

/-- The late binding completes the pair. -/
def LateActivation (t : ForwardingTable) (op : ForwardingOp) : Prop :=
  ∃ now intentId deviceId addr ctx, op = .updateBinding now intentId deviceId addr ∧
    t.contexts.lookup intentId = some ctx ∧ ctx.ExchangeOver now ∧ ¬ ctx.Overdue now ∧
    ctx.Completes deviceId

/-- A sweep at the time of the binding would remove the context. -/
def SweptAway (t : ForwardingTable) (op : ForwardingOp) : Prop :=
  ∃ now intentId deviceId addr ctx, op = .updateBinding now intentId deviceId addr ∧
    t.contexts.lookup intentId = some ctx ∧ (ctx.swept now).state.isTerminal = true

namespace ExchangeTimeoutLemmas

open ForwardingLemmas LifecycleLemmas

variable {t : ForwardingTable} {ctx : ForwardingContext} {now sweptAt : UInt64}
  {intentId : IntentId} {deviceId : DeviceId} {addr : SocketAddr}

/-! ## The sweep and the binding of one context -/

theorem not_terminal_of_exchangeOver (h : ctx.ExchangeOver now) : ctx.state.isTerminal = false := by
  rcases h.1 with hs | hs <;> rw [hs] <;> rfl

/-- The sweep ends a context that has ended, is idle, waited too long or has expired. -/
theorem swept_isTerminal_iff :
    (ctx.swept now).state.isTerminal = true ↔
      ctx.state.isTerminal = true ∨
        (ctx.state = .relayActive ∧ saturatingSub now ctx.lastActiveMs > idleTimeoutMs) ∨
        ctx.ExchangeOver now ∨ now ≥ ctx.expiresAtMs := by
  unfold ForwardingContext.swept
  dsimp only
  split
  · next h => exact iff_of_true rfl (Or.inr h)
  · next h => exact ⟨Or.inl, fun ho => ho.resolve_right h⟩

theorem swept_eq_self (h : (ctx.swept now).state.isTerminal = false) : ctx.swept now = ctx := by
  unfold ForwardingContext.swept at h ⊢
  dsimp only at h ⊢
  split at h
  · cases h
  · next hn => rw [if_neg hn]

/-- What a sweep ends, a later one ends too. -/
theorem swept_isTerminal_mono (hle : sweptAt ≤ now)
    (h : (ctx.swept sweptAt).state.isTerminal = true) :
    (ctx.swept now).state.isTerminal = true := by
  rw [swept_isTerminal_iff] at h ⊢
  refine h.imp_right (Or.imp (fun hi => ⟨hi.1, ?_⟩) (Or.imp (fun hx => ⟨hx.1, ?_⟩) fun he => ?_))
  · exact UInt64.lt_of_lt_of_le hi.2 (saturatingSub_le_left hle _)
  · exact UInt64.lt_of_lt_of_le hx.2 (saturatingSub_le_left hle _)
  · exact UInt64.le_trans he hle

theorem bind_ok_iff :
    (ForwardingContext.bind now deviceId addr ctx).1 = .ok () ↔
      ctx.state.isTerminal = false ∧ ¬ ctx.Overdue now ∧ ctx.Joins deviceId := by
  rcases bind_cases now deviceId addr ctx with
    ⟨hno, _, h⟩ | ⟨-, hover, _, h⟩ | ⟨hlive, htime, hd, h⟩ | ⟨hlive, htime, -, hd, h⟩
  · rw [h]
    refine iff_of_false (fun he => nomatch he) fun ⟨hlive, _, hjoin⟩ => ?_
    rcases hno with hdead | ⟨-, hi, ht⟩
    · exact nomatch hlive.symm.trans hdead
    · exact hjoin.elim hi ht
  · rw [h]
    exact iff_of_false (fun he => nomatch he) fun hall => hall.2.1 hover
  · rw [h]
    exact iff_of_true rfl ⟨hlive, htime, Or.inl hd⟩
  · rw [h]
    exact iff_of_true rfl ⟨hlive, htime, Or.inr hd⟩

/-- A context that is there answers with another error than a missing one. -/
theorem bind_ne_not_found :
    (ForwardingContext.bind now deviceId addr ctx).1 ≠ .err "Forwarding session not found" := by
  have herr : ∀ s : String, s ≠ "Forwarding session not found" →
      (.err s : Outcome String Unit) ≠ .err "Forwarding session not found" :=
    fun s hs h => hs (Outcome.err.inj h)
  rw [ForwardingContext.bind, Call.getState_bind, Call.rejectIf_bind]
  split
  · exact herr _ (by decide)
  split
  · exact herr _ (by decide)
  split
  · exact herr _ (by decide)
  split
  · exact fun h => by cases h
  split
  · exact fun h => by cases h
  · exact herr _ (by decide)

theorem updateBinding_result :
    (updateBinding now intentId deviceId addr t).1 =
      match t.contexts.lookup intentId with
      | none => .err "Forwarding session not found"
      | some ctx => (ForwardingContext.bind now deviceId addr ctx).1 := by
  unfold updateBinding onContext
  cases t.contexts.lookup intentId <;> rfl

/-- After a sweep that removed the context of the intent, or that did not. -/
theorem updateBinding_sweep_cases (hl : t.contexts.lookup intentId = some ctx) :
    ((ctx.swept sweptAt).state.isTerminal = true ∧
      (updateBinding now intentId deviceId addr (t.sweep sweptAt).2).1 =
        .err "Forwarding session not found") ∨
    ((ctx.swept sweptAt).state.isTerminal = false ∧
      (updateBinding now intentId deviceId addr (t.sweep sweptAt).2).1 =
        (ForwardingContext.bind now deviceId addr ctx).1) := by
  rw [updateBinding_result]
  cases hterm : (ctx.swept sweptAt).state.isTerminal with
  | true =>
    refine Or.inl ⟨rfl, ?_⟩
    cases hs : (t.sweep sweptAt).2.contexts.lookup intentId with
    | none => rfl
    | some c =>
      obtain ⟨ctx', hl', rfl, hlive⟩ := lookup_sweep.mp hs
      cases hl.symm.trans hl'
      exact nomatch hterm.symm.trans hlive
  | false =>
    refine Or.inr ⟨rfl, ?_⟩
    rw [lookup_sweep.mpr ⟨ctx, hl, swept_eq_self hterm, swept_eq_self hterm ▸ hterm⟩]

theorem updateBinding_sweep_of_none (hl : t.contexts.lookup intentId = none) :
    (updateBinding now intentId deviceId addr (t.sweep sweptAt).2).1 =
      (updateBinding now intentId deviceId addr t).1 := by
  rw [updateBinding_result, updateBinding_result, hl]
  cases hs : (t.sweep sweptAt).2.contexts.lookup intentId with
  | none => rfl
  | some c =>
    obtain ⟨ctx, hl', -⟩ := lookup_sweep.mp hs
    cases hl.symm.trans hl'

/-! ## One call -/

variable {e : ForwardingEntry}

/-- Whether a binding succeeds is independent of a sweep unless the binding is late. -/
theorem sweepIndifferent_iff : SweepIndifferent e ↔ ¬ LateBinding e.pre e.input := by
  constructor
  · rintro h ⟨now, intentId, deviceId, addr, ctx, hop, hl, hover, htime, hjoin⟩
    have hlive := not_terminal_of_exchangeOver hover
    have hswept : (ctx.swept now).state.isTerminal = true :=
      swept_isTerminal_iff.mpr (Or.inr (Or.inr (Or.inl hover)))
    have hok := (h now intentId deviceId addr hop now (UInt64.le_refl _)).mpr (by
      rw [updateBinding_result, hl]
      exact bind_ok_iff.mpr ⟨hlive, htime, hjoin⟩)
    rcases @updateBinding_sweep_cases _ _ now now _ deviceId addr hl with ⟨-, hr⟩ | ⟨hkept, -⟩
    · rw [hr] at hok
      cases hok
    · exact nomatch hkept.symm.trans hswept
  · intro hlate now intentId deviceId addr hop sweptAt hle
    cases hl : e.pre.contexts.lookup intentId with
    | none => rw [updateBinding_sweep_of_none hl]
    | some ctx =>
      rw [@updateBinding_result e.pre, hl]
      rcases @updateBinding_sweep_cases _ _ now sweptAt _ deviceId addr hl with ⟨hterm, hr⟩ | ⟨-, hr⟩
      · rw [hr]
        refine iff_of_false (fun he => nomatch he) fun hok => ?_
        obtain ⟨hlive, htime, hjoin⟩ := bind_ok_iff.mp hok
        -- a sweep can only have removed it for its exchange timeout
        rcases swept_isTerminal_iff.mp (swept_isTerminal_mono hle hterm) with hdead | hidle | hx | hexp
        · exact nomatch hlive.symm.trans hdead
        · exact htime (Or.inl hidle.2)
        · exact hlate ⟨now, intentId, deviceId, addr, ctx, hop, hl, hx, htime, hjoin⟩
        · exact htime (Or.inr hexp)
      · rw [hr]

/-- The result of a binding is independent of a sweep exactly when none would remove the context. -/
theorem sweepInvisible_iff : SweepInvisible e ↔ ¬ SweptAway e.pre e.input := by
  constructor
  · rintro h ⟨now, intentId, deviceId, addr, ctx, hop, hl, hswept⟩
    have hsame := h now intentId deviceId addr hop now (UInt64.le_refl _)
    rw [@updateBinding_result e.pre, hl] at hsame
    rcases @updateBinding_sweep_cases _ _ now now _ deviceId addr hl with ⟨-, hr⟩ | ⟨hkept, -⟩
    · exact bind_ne_not_found (hsame.symm.trans hr)
    · exact nomatch hkept.symm.trans hswept
  · intro haway now intentId deviceId addr hop sweptAt hle
    cases hl : e.pre.contexts.lookup intentId with
    | none => exact updateBinding_sweep_of_none hl
    | some ctx =>
      rw [@updateBinding_result e.pre, hl]
      rcases @updateBinding_sweep_cases _ _ now sweptAt _ deviceId addr hl with ⟨hterm, -⟩ | ⟨-, hr⟩
      · exact absurd ⟨now, intentId, deviceId, addr, ctx, hop, hl, swept_isTerminal_mono hle hterm⟩
          haway
      · exact hr

theorem bound_active_iff :
    (ForwardingContext.bound now ctx).state = .relayActive ↔
      ctx.initiator.addr.isSome = true ∧ ctx.target.addr.isSome = true := by
  unfold ForwardingContext.bound
  dsimp only
  split
  · next h => exact iff_of_true rfl h
  · next h => exact iff_of_false (fun he => nomatch he) h

/-- A binding turns a waiting context active exactly when it is in time and completes the pair. -/
theorem bind_active_iff (hwait : ctx.state ≠ .relayActive) :
    (ForwardingContext.bind now deviceId addr ctx).2.state = .relayActive ↔
      ctx.state.isTerminal = false ∧ ¬ ctx.Overdue now ∧ ctx.Completes deviceId := by
  unfold ForwardingContext.Completes
  rcases bind_cases now deviceId addr ctx with
    ⟨hno, _, h⟩ | ⟨-, hover, _, h⟩ | ⟨hlive, htime, hd, h⟩ | ⟨hlive, htime, hi, hd, h⟩
  · rw [h]
    refine iff_of_false hwait fun ⟨hlive, _, hc⟩ => ?_
    rcases hno with hdead | ⟨-, hi, ht⟩
    · exact nomatch hlive.symm.trans hdead
    · exact hc.elim (fun hc => hi hc.1) (fun hc => ht hc.2.1)
  · rw [h]
    exact iff_of_false (fun he => nomatch he) fun hall => hall.2.1 hover
  · rw [h, bound_active_iff]
    simp [hlive, htime, hd]
  · rw [h, bound_active_iff]
    simp [hlive, htime, hi, hd]

theorem bind_authorizedAt :
    (ForwardingContext.bind now deviceId addr ctx).2.authorizedAtMs = ctx.authorizedAtMs := by
  rcases bind_cases now deviceId addr ctx with
    ⟨-, _, h⟩ | ⟨-, -, _, h⟩ | ⟨-, -, -, h⟩ | ⟨-, -, -, -, h⟩ <;> rw [h] <;> rfl

/-- Only a binding turns a context active. -/
theorem active_of_step {op : ForwardingOp} {c d : ForwardingContext}
    (hc : t.contexts.lookup intentId = some c) (hwait : c.state ≠ .relayActive)
    (hd : (forwardingStep t op).2.contexts.lookup intentId = some d)
    (hactive : d.state = .relayActive) :
    ∃ now deviceId addr, op = .updateBinding now intentId deviceId addr ∧
      d = (ForwardingContext.bind now deviceId addr c).2 := by
  have heff := forwardingStep_effect t op
  have hafter := hd
  generalize forwardingStep t op = result at heff hd
  obtain ⟨out, next⟩ := result
  cases heff with
  | quiet _ _ _ _ hkept =>
    obtain ⟨c', hc', hsame⟩ := hkept.contexts intentId d hd
    cases hc.symm.trans hc'
    rcases hsame.state with heq | hterm
    · exact absurd (heq.symm.trans hactive) hwait
    · rw [hactive] at hterm
      cases hterm
  | authorized now id token initiatorId targetId expiresAtMs _ =>
    rw [HashMap.lookup_insert_eq] at hd
    split at hd
    · cases hd
      cases hactive
    · cases hc.symm.trans hd
      exact absurd hactive hwait
  | bound now id deviceId addr ctx rebound _ =>
    obtain ⟨c', hc', ⟨rfl, rfl⟩ | ⟨-, rfl⟩⟩ := onContext_context hafter
    · cases hc.symm.trans hc'
      exact ⟨now, deviceId, addr, rfl, rfl⟩
    · cases hc.symm.trans hc'
      exact absurd hactive hwait
  | forwarded env token source packetLen id ctx forwarded destination _ hctx hstate =>
    rw [HashMap.lookup_insert_eq] at hd
    split at hd
    · next hid =>
      cases hc.symm.trans (hid ▸ hctx)
      exact absurd hstate hwait
    · cases hc.symm.trans hd
      exact absurd hactive hwait

theorem exchangeOver_iff (hwait : ctx.state ≠ .relayActive) (hlive : ctx.state.isTerminal = false) :
    ctx.ExchangeOver now ↔ ctx.authorizedAtMs.toNat + exchangeTimeoutMs.toNat < now.toNat := by
  have hstate : ctx.state = .authorized ∨ ctx.state = .relayRequested := by
    cases hs : ctx.state with
    | authorized => exact Or.inl rfl
    | relayRequested => exact Or.inr rfl
    | relayActive => exact absurd hs hwait
    | relayExpired => exact nomatch hs ▸ hlive
    | relayClosed => exact nomatch hs ▸ hlive
  rw [ForwardingContext.ExchangeOver, and_iff_right hstate, gt_iff_lt, UInt64.lt_iff_toNat_lt,
    toNat_saturatingSub]
  exact Nat.lt_sub_iff_add_lt'

/-- A step turns a context active in time unless it is a late activation. -/
theorem activatesInTime_iff {op : ForwardingOp} :
    ActivatesInTime (stepEntry forwardingStep t op) ↔ ¬ LateActivation t op := by
  constructor
  · rintro h ⟨now, intentId, deviceId, addr, ctx, rfl, hl, hover, htime, hcomplete⟩
    have hlive := not_terminal_of_exchangeOver hover
    have hwait : ctx.state ≠ .relayActive := by
      rcases hover.1 with hs | hs <;> rw [hs] <;> exact fun he => nomatch he
    have hpost : (updateBinding now intentId deviceId addr t).2.contexts.lookup intentId =
        some (ForwardingContext.bind now deviceId addr ctx).2 := by
      rw [updateBinding, onContext_lookup, if_pos rfl, hl, Option.map_some]
    have hle := h intentId ctx _ hl hwait hpost ((bind_active_iff hwait).mpr ⟨hlive, htime, hcomplete⟩)
      now (List.mem_singleton.mpr rfl)
    rw [bind_authorizedAt] at hle
    exact Nat.not_lt.mpr hle ((exchangeOver_iff hwait hlive).mp hover)
  · intro hlate intentId c d hc hwait hd hactive now hnow
    obtain ⟨time, deviceId, addr, rfl, rfl⟩ := active_of_step hc hwait hd hactive
    obtain ⟨hlive, htime, hcomplete⟩ := (bind_active_iff hwait).mp hactive
    obtain rfl : now = time := List.mem_singleton.mp hnow
    rw [bind_authorizedAt]
    refine Nat.not_lt.mp fun hlt => hlate ?_
    exact ⟨now, intentId, deviceId, addr, c, rfl, hc, (exchangeOver_iff hwait hlive).mpr hlt, htime,
      hcomplete⟩

theorem lateBinding_of_lateActivation {op : ForwardingOp} (h : LateActivation t op) :
    LateBinding t op := by
  obtain ⟨now, intentId, deviceId, addr, ctx, hop, hl, hover, htime, hcomplete⟩ := h
  refine ⟨now, intentId, deviceId, addr, ctx, hop, hl, hover, htime, ?_⟩
  exact hcomplete.imp And.left fun hc => hc.2.1

end ExchangeTimeoutLemmas

open ExchangeTimeoutLemmas

/-- In every run, whatever sweeps it has: contexts become active within the exchange timeout and no
binding depends on a sweep before it, exactly when no call is a late binding. The first part alone
holds exactly when no late binding completes a pair, and the results with their error texts are
independent of sweeps exactly when no sweep would remove the context of a binding. -/
theorem exchange_timeout_iff (rateLimit expiry : UInt64) (ops : List ForwardingOp) :
    let entries := run forwardingStep (withLimits rateLimit expiry) ops
    ((∀ e ∈ entries, ActivatesInTime e ∧ SweepIndifferent e) ↔
      ∀ e ∈ entries, ¬ LateBinding e.pre e.input) ∧
    ((∀ e ∈ entries, ActivatesInTime e) ↔ ∀ e ∈ entries, ¬ LateActivation e.pre e.input) ∧
    ((∀ e ∈ entries, SweepInvisible e) ↔ ∀ e ∈ entries, ¬ SweptAway e.pre e.input) := by
  intro entries
  have hactivates : ∀ e ∈ entries, ActivatesInTime e ↔ ¬ LateActivation e.pre e.input := by
    intro e he
    obtain ⟨before, after, -, hstep⟩ := mem_run he
    rw [hstep]
    exact activatesInTime_iff
  refine ⟨?_, forall₂_congr hactivates, forall₂_congr fun e _ => sweepInvisible_iff⟩
  refine forall₂_congr fun e he => ?_
  rw [hactivates e he, sweepIndifferent_iff]
  exact and_iff_right_of_imp fun hlate hact => hlate (lateBinding_of_lateActivation hact)

/-- The first address is bound after five seconds, the second one after twenty. -/
theorem late_binding_activates :
    let t := endState forwardingStep (withLimits rateLimitBytesPerSec sessionExpiryMs)
      [.authorizePair 0 (Bytes.fill 16 7) (Bytes.fill 32 9) (Bytes.fill 32 1) (Bytes.fill 32 2),
        .updateBinding 5000 (Bytes.fill 16 7) (Bytes.fill 32 1) (.v4 (Bytes.fill 4 1) 1111)]
    let bind := updateBinding 20000 (Bytes.fill 16 7) (Bytes.fill 32 2) (.v4 (Bytes.fill 4 2) 2222)
    ((bind t).2.contexts.lookup (Bytes.fill 16 7)).map (fun ctx => (ctx.state, ctx.authorizedAtMs)) =
      some (.relayActive, 0) ∧
    (bind t).1 = .ok () ∧
    (bind (t.sweep 20000).2).1 = .err "Forwarding session not found" := by
  decide +kernel

end Blackwing.Relay

import Blackwing.Relay.System

/-!
# Invariants of the stores

What holds of the stores of the relay in every reachable state, whoever sent the messages.

* `WithinCapacity`: the registry and the intents stay within their limits.
* `ForwardingContext.stage`, `Staged`: the state of a live context says how many of its two
  addresses are bound.
* `reachable_withinCapacity`, `reachable_staged`: both hold after every run.
-/

namespace Blackwing.Relay

open RelayServer ForwardingTable

/-- The registry and the intents are within their limits. -/
structure WithinCapacity (s : RelayServer) : Prop where
  registry : HashMap.size s.registry ≤ maxRegistrations
  intents : HashMap.size s.rendezvous ≤ maxIntents

/-- The state of a live context as its bound addresses give it. -/
def ForwardingContext.stage (ctx : ForwardingContext) : ForwardingState :=
  match ctx.initiator.addr, ctx.target.addr with
  | none, none => .authorized
  | some _, some _ => .relayActive
  | _, _ => .relayRequested

/-- A live context is in the state its addresses give. -/
def ForwardingContext.Staged (ctx : ForwardingContext) : Prop :=
  ctx.state.isTerminal = false → ctx.state = ctx.stage

/-- Every context of the table is staged. -/
def Staged (t : ForwardingTable) : Prop :=
  ∀ intentId ctx, t.contexts.lookup intentId = some ctx → ctx.Staged

namespace InvariantLemmas

open ForwardingLemmas SystemLemmas

variable {C : RelayCrypto} {s s' : RelayServer} {op : Op} {reply : Reply}

/-! ## Capacity -/

theorem size_evicted_le (now : UInt64) (registry : HashMap DeviceId ClientContext) :
    HashMap.size (evicted now registry) ≤ HashMap.size registry := by
  unfold evicted
  split
  · exact HashMap.size_retain_le _ _
  · exact Nat.le_refl _

theorem withinCapacity_step (heff : Effect C s op reply s') (hs : WithinCapacity s) :
    WithinCapacity s' := by
  cases heff with
  | evicted peerAddr e hauth => exact ⟨(size_evicted_le _ _).trans hs.registry, hs.intents⟩
  | registered peerAddr hauth hroom =>
    exact ⟨(HashMap.size_insert_le _ _ _).trans hroom, hs.intents⟩
  | pruned peerAddr env e =>
    exact ⟨hs.registry, (HashMap.size_retain_le _ _).trans hs.intents⟩
  | stored candidates peerAddr hauth hroom =>
    exact ⟨hs.registry, (HashMap.size_insert_le _ _ _).trans hroom⟩
  | touched e hold hst hi ht hc hnew =>
    exact ⟨hs.registry, (HashMap.size_insert_of_lookup hold _).trans_le hs.intents⟩
  | accepted candidates peerAddr hauth hst hr hf =>
    exact ⟨hs.registry, (HashMap.size_insert_of_lookup hauth.found _).trans_le hs.intents⟩
  | _ => exact ⟨hs.registry, hs.intents⟩

/-! ## Stages -/

variable {ctx : ForwardingContext}

theorem staged_of_terminal (hdead : ctx.state.isTerminal = true) :
    ctx.Staged :=
  fun hlive => nomatch hdead.symm.trans hlive

/-- What keeps the addresses of a context and keeps or ends its state keeps it staged. -/
theorem staged_of_sameEnds {c d : ForwardingContext} (hends : SameEnds c d)
    (hstate : d.state = c.state ∨ d.state.isTerminal = true) (hc : c.Staged) : d.Staged := by
  rcases hstate with hsame | hdead
  · intro hlive
    rw [hsame] at hlive ⊢
    rw [hc hlive, ForwardingContext.stage, ForwardingContext.stage, hends.initiator, hends.target]
  · exact staged_of_terminal hdead

/-- An address was bound, so the state is `RelayActive` or `RelayRequested`. -/
theorem bound_staged (now : UInt64)
    (hsome : ctx.initiator.addr.isSome = true ∨ ctx.target.addr.isSome = true) :
    (ctx.bound now).Staged := by
  intro _
  unfold ForwardingContext.bound ForwardingContext.stage
  dsimp only
  cases hi : ctx.initiator.addr with
  | none =>
    cases ht : ctx.target.addr with
    | none =>
      rw [hi, ht] at hsome
      simp at hsome
    | some targAddr => rfl
  | some initAddr =>
    cases ht : ctx.target.addr with
    | none => rfl
    | some targAddr => rfl

theorem bind_staged (now : UInt64) (deviceId : DeviceId) (addr : SocketAddr) (hctx : ctx.Staged) :
    (ForwardingContext.bind now deviceId addr ctx).2.Staged := by
  rcases bind_cases now deviceId addr ctx with
    ⟨-, _, h⟩ | ⟨-, -, _, h⟩ | ⟨-, -, -, h⟩ | ⟨-, -, -, -, h⟩
  · rw [h]
    exact hctx
  · rw [h]
    exact staged_of_terminal rfl
  · rw [h]
    exact bound_staged now (Or.inl rfl)
  · rw [h]
    exact bound_staged now (Or.inr rfl)

theorem forward_state (rateLimit now : UInt64) (source : SocketAddr) (packetLen : UInt64)
    (ctx : ForwardingContext) :
    (ForwardingContext.forward rateLimit now source packetLen ctx).2.state = ctx.state ∨
      (ForwardingContext.forward rateLimit now source packetLen ctx).2.state.isTerminal = true := by
  rcases forward_cases rateLimit now source packetLen ctx with
    h | h | ⟨_, _, _, _, _, _, _, _, ⟨_, h⟩ | ⟨_, h | ⟨_, _, h⟩⟩⟩
  · exact Or.inl (by rw [h])
  · exact Or.inr (by rw [h]; rfl)
  · exact Or.inl (by rw [h])
  · exact Or.inl (by rw [h])
  · exact Or.inl (by rw [h])

theorem swept_state (now : UInt64) (ctx : ForwardingContext) :
    (ctx.swept now).state = ctx.state ∨ (ctx.swept now).state.isTerminal = true := by
  unfold ForwardingContext.swept
  dsimp only
  split
  · exact Or.inr rfl
  · exact Or.inl rfl

theorem onContext_staged {ε α : Type} {intentId : IntentId} {missing : ε}
    {x : Call ForwardingContext ε α} (hx : ∀ ctx : ForwardingContext, ctx.Staged → (x ctx).2.Staged)
    {t : ForwardingTable} (ht : Staged t) : Staged (onContext intentId missing x t).2 := by
  intro j ctx' hl
  rw [onContext_lookup] at hl
  split at hl
  · obtain ⟨ctx, hctx, rfl⟩ := Option.map_eq_some_iff.mp hl
    exact hx ctx (ht intentId ctx hctx)
  · exact ht j ctx' hl

theorem staged_init (rateLimitBytesPerSec sessionExpiryMs : UInt64) :
    Staged (ForwardingTable.withLimits rateLimitBytesPerSec sessionExpiryMs) := by
  intro intentId ctx hl
  cases hl

theorem staged_step (heff : Effect C s op reply s') (hs : Staged s.forwarding) :
    Staged s'.forwarding := by
  cases heff with
  | accepted candidates peerAddr hauth hst hr hf =>
    rcases hf with ⟨-, rfl⟩ | ⟨-, expiresAtMs, rfl⟩
    · exact hs
    · intro j ctx hl
      rw [HashMap.lookup_insert_eq] at hl
      split at hl
      · cases hl
        exact fun _ => rfl
      · exact hs j ctx hl
  | bound hauth => exact onContext_staged (fun _ hctx => bind_staged _ _ _ hctx) hs
  | forwarded sourceAddr packetLen env hl =>
    refine onContext_staged (fun ctx hctx => ?_) hs
    exact staged_of_sameEnds (forward_sameEnds _ _ _ _ ctx) (forward_state _ _ _ _ ctx) hctx
  | closed intentId =>
    exact onContext_staged (fun _ _ => staged_of_terminal rfl) hs
  | swept now =>
    intro j ctx' hl
    obtain ⟨ctx, hctx, rfl, -⟩ := lookup_sweep.mp hl
    exact staged_of_sameEnds (swept_sameEnds now ctx) (swept_state now ctx) (hs j ctx hctx)
  | _ => exact hs

end InvariantLemmas

/-! ## Every reachable state -/

open InvariantLemmas

theorem reachable_withinCapacity (C : RelayCrypto) (rateLimitBytesPerSec sessionExpiryMs : UInt64)
    (ops : List Op) : WithinCapacity (relayAfter C rateLimitBytesPerSec sessionExpiryMs ops) :=
  @run_induction _ _ _ (step C) (fun _ s => WithinCapacity s) _ ⟨Nat.zero_le _, Nat.zero_le _⟩
    (fun _ s op hs => withinCapacity_step (step_effect C s op) hs) ops

theorem reachable_staged (C : RelayCrypto) (rateLimitBytesPerSec sessionExpiryMs : UInt64)
    (ops : List Op) : Staged (relayAfter C rateLimitBytesPerSec sessionExpiryMs ops).forwarding :=
  @run_induction _ _ _ (step C) (fun _ s => Staged s.forwarding) _
    (staged_init rateLimitBytesPerSec sessionExpiryMs)
    (fun _ s op hs => staged_step (step_effect C s op) hs) ops

end Blackwing.Relay

import Blackwing.Relay.Invariants

/-!
# Registrations

The registry of the relay holds at most `MAX_REGISTRATIONS` devices. A registration that
finds it full evicts the entries whose `last_seen` is at least `STALE_REGISTRATION_MS` old,
and fails if none is. Nothing but a registration sets `last_seen`, and a renewal goes through
the same check as a first registration.

* `registry_cases`: what a step can do to the registry.
* `lastSeen_run`: `last_seen` is the time of the last successful registration.
* `active_device_kept_iff`: a device that is heard from but does not register again is evicted.
* `renewal_succeeds_iff`: a renewal fails when the registry is full of fresh entries.
-/

namespace Blackwing.Relay

open RelayServer

/-! ## What the relay has heard -/

/-- The device that a request names as its sender. -/
def RelayMessage.sender : RelayMessage → Option DeviceId
  | .registerRequest deviceId _ _ _ => some deviceId
  | .connectIntent initiatorDeviceId _ _ _ _ _ => some initiatorDeviceId
  | .acceptConnect acceptorDeviceId _ _ _ _ => some acceptorDeviceId
  | .relayEstablishRequest _ deviceId _ _ => some deviceId
  | .getCandidates requesterDeviceId _ => some requesterDeviceId
  | .pollPendingIntents deviceId => some deviceId
  | _ => none

/-- The time of the step, when it handled a message of the device with success. -/
def heardFrom (deviceId : DeviceId) (e : RelayEntry) : Option UInt64 :=
  match e.input, e.out with
  | .message message _ env, .response (.ok _) =>
    if message.sender = some deviceId then some (env.clock 0) else none
  | _, _ => none

/-- The time of the step, when it registered the device. -/
def registeredAt (deviceId : DeviceId) (e : RelayEntry) : Option UInt64 :=
  match e.input, e.out with
  | .message (.registerRequest d _ _ _) _ env, .response (.ok _) =>
    if d = deviceId then some (env.clock 0) else none
  | _, _ => none

/-- A message of the device was handled within the last `STALE_REGISTRATION_MS`. -/
def Active (deviceId : DeviceId) (h : List RelayEntry) (now : UInt64) : Prop :=
  ∃ time ∈ h.filterMap (heardFrom deviceId),
    time ≤ now ∧ now.toNat ≤ time.toNat + staleRegistrationMs.toNat

/-- If the step is a registration, every other device that is active stays registered. -/
def KeepsActive (h : List RelayEntry) (e : RelayEntry) : Prop :=
  ∀ other verifyKeyBytes timestamp signatureBytes peerAddr env,
    e.input = .message (.registerRequest other verifyKeyBytes timestamp signatureBytes) peerAddr env →
    ∀ deviceId, deviceId ≠ other → e.pre.isRegistered deviceId = true →
      Active deviceId h (env.clock 0) → e.post.isRegistered deviceId = true

/-- A genuine registration finds the registry full, and another device that is active registered
itself too long ago. -/
def EvictsActive (C : RelayCrypto) (h : List RelayEntry) (s : RelayServer) (op : Op) : Prop :=
  ∃ other verifyKeyBytes timestamp signatureBytes peerAddr env,
    op = .message (.registerRequest other verifyKeyBytes timestamp signatureBytes) peerAddr env ∧
    RegisterAuth C (env.clock 0) other verifyKeyBytes timestamp signatureBytes ∧
    maxRegistrations ≤ HashMap.size s.registry ∧
    ∃ deviceId, deviceId ≠ other ∧ s.isRegistered deviceId = true ∧
      Active deviceId h (env.clock 0) ∧
      ∃ last, (h.filterMap (registeredAt deviceId)).getLast? = some last ∧
        last ≤ saturatingSub (env.clock 0) staleRegistrationMs

namespace RegistryLemmas

open ServerLemmas SystemLemmas InvariantLemmas

variable {C : RelayCrypto} {s : RelayServer} {now : UInt64} {deviceId : DeviceId}
  {registry : HashMap DeviceId ClientContext} {ctx : ClientContext}

/-! ## One step -/

/-- A step is no registration, or a genuine one that fails at capacity or stores its entry. -/
theorem registry_cases (C : RelayCrypto) (s : RelayServer) (op : Op) :
    ((∀ d, registeredAt d (stepEntry (step C) s op) = none) ∧
      (∀ other verifyKeyBytes timestamp signatureBytes peerAddr env,
        op = .message (.registerRequest other verifyKeyBytes timestamp signatureBytes) peerAddr env →
        ¬ RegisterAuth C (env.clock 0) other verifyKeyBytes timestamp signatureBytes) ∧
      (step C s op).2.registry = s.registry) ∨
    ∃ d verifyKeyBytes timestamp signatureBytes peerAddr env,
      op = .message (.registerRequest d verifyKeyBytes timestamp signatureBytes) peerAddr env ∧
      RegisterAuth C (env.clock 0) d verifyKeyBytes timestamp signatureBytes ∧
      ((∃ e, (step C s op).1 = .response (.err e) ∧
          (step C s op).2.registry = evicted (env.clock 0) s.registry) ∨
        (step C s op).1 = .response (.ok (.registerAck s.nextSessionId peerAddr)) ∧
          (step C s op).2.registry = (evicted (env.clock 0) s.registry).insert d
            ⟨s.nextSessionId, env.clock 0, verifyKeyBytes, peerAddr⟩) := by
  by_cases hop : ∃ d verifyKeyBytes timestamp signatureBytes peerAddr env,
      op = .message (.registerRequest d verifyKeyBytes timestamp signatureBytes) peerAddr env
  · obtain ⟨d, verifyKeyBytes, timestamp, signatureBytes, peerAddr, env, rfl⟩ := hop
    have hstep : step C s
        (.message (.registerRequest d verifyKeyBytes timestamp signatureBytes) peerAddr env) =
          (.response (handleRegister C env d verifyKeyBytes timestamp signatureBytes peerAddr s).1,
            (handleRegister C env d verifyKeyBytes timestamp signatureBytes peerAddr s).2) := rfl
    rcases handleRegister_cases env d verifyKeyBytes timestamp signatureBytes peerAddr with
      ⟨hauth, e, h⟩ | ⟨hauth, ⟨-, h⟩ | ⟨-, h⟩⟩
    · rw [h] at hstep
      refine Or.inl ⟨fun d' => by simp [registeredAt, stepEntry, hstep], ?_, by rw [hstep]⟩
      intro _ _ _ _ _ _ hop
      cases hop
      exact hauth
    · rw [h] at hstep
      exact Or.inr ⟨d, _, _, _, _, _, rfl, hauth, Or.inl ⟨_, by rw [hstep], by rw [hstep]⟩⟩
    · rw [h] at hstep
      exact Or.inr ⟨d, _, _, _, _, _, rfl, hauth, Or.inr ⟨by rw [hstep], by rw [hstep]⟩⟩
  · have hno : ∀ d verifyKeyBytes timestamp signatureBytes peerAddr env,
        op ≠ .message (.registerRequest d verifyKeyBytes timestamp signatureBytes) peerAddr env :=
      fun d k t g p env h => hop ⟨d, k, t, g, p, env, h⟩
    refine Or.inl ⟨fun d => ?_, fun d k t g p env h => absurd h (hno d k t g p env), ?_⟩
    · unfold registeredAt
      split
      · next hinput _ => exact absurd hinput (hno _ _ _ _ _ _)
      · rfl
    · have heff := step_effect C s op
      generalize step C s op = result at heff ⊢
      obtain ⟨reply, s'⟩ := result
      cases heff with
      | evicted => exact absurd rfl (hno _ _ _ _ _ _)
      | registered => exact absurd rfl (hno _ _ _ _ _ _)
      | _ => rfl

/-! ## Whole runs -/

/-- Every entry of the registry is as old as the last registration of its device. -/
def LastSeenRecorded (h : List RelayEntry) (s : RelayServer) : Prop :=
  ∀ d ctx, s.registry.lookup d = some ctx →
    (h.filterMap (registeredAt d)).getLast? = some ctx.lastSeen

theorem lastSeen_step {h : List RelayEntry} (op : Op) (hs : LastSeenRecorded h s) :
    LastSeenRecorded (h ++ [stepEntry (step C) s op]) (step C s op).2 := by
  intro d ctx hl
  rw [filterMap_snoc]
  rcases registry_cases C s op with
    ⟨hno, -, hsame⟩ | ⟨d', key, timestamp, sig, peerAddr, env, rfl, -, ⟨e, hout, hreg⟩ | ⟨hout, hreg⟩⟩
  · rw [hsame] at hl
    rw [hno d, Option.toList_none, List.append_nil]
    exact hs d ctx hl
  · rw [hreg] at hl
    have hno : registeredAt d (stepEntry (step C) s
        (.message (.registerRequest d' key timestamp sig) peerAddr env)) = none := by
      simp [registeredAt, stepEntry, hout]
    rw [hno, Option.toList_none, List.append_nil]
    exact hs d ctx (lookup_of_evicted hl)
  · have hat : registeredAt d (stepEntry (step C) s
        (.message (.registerRequest d' key timestamp sig) peerAddr env)) =
          if d' = d then some (env.clock 0) else none := by
      simp [registeredAt, stepEntry, hout]
    rw [hreg, HashMap.lookup_insert_eq] at hl
    rw [hat]
    split at hl
    · next hd =>
      cases hl
      simp [hd]
    · next hd =>
      rw [if_neg fun h => hd h.symm, Option.toList_none, List.append_nil]
      exact hs d ctx (lookup_of_evicted hl)

theorem lastSeen_run (C : RelayCrypto) (rateLimit expiry : UInt64) (ops : List Op) :
    LastSeenRecorded (relayRun C rateLimit expiry ops) (relayAfter C rateLimit expiry ops) :=
  run_induction (fun _ _ hl => nomatch hl) (fun _ _ op hs => lastSeen_step op hs) ops

theorem isRegistered_eq_true : s.isRegistered deviceId = true ↔
    ∃ ctx, s.registry.lookup deviceId = some ctx :=
  Option.isSome_iff_exists

theorem not_retained_iff :
    ctx.retained now = false ↔ ctx.lastSeen ≤ saturatingSub now staleRegistrationMs := by
  simp [ClientContext.retained]

/-- A poll of a registered device is answered and changes nothing. -/
theorem step_poll (c : RelayControlClient C) (peerAddr : Option SocketAddr) (env : Env)
    (hreg : s.isRegistered c.deviceId = true) :
    ∃ answer, step C s (.message (c.request .pollPendingIntents) peerAddr env) =
      (.response (.ok answer), s) := by
  have hcall : ∃ answer, handlePollPendingIntents env c.deviceId s = (.ok answer, s) := by
    have honline : ¬ s.isRegistered c.deviceId = false := by
      rw [hreg]
      exact fun h => nomatch h
    rw [handlePollPendingIntents, Call.getState_bind, Call.rejectIf_bind, if_neg honline]
    exact ⟨_, rfl⟩
  obtain ⟨answer, hcall⟩ := hcall
  refine ⟨answer, ?_⟩
  show (Reply.response (handlePollPendingIntents env c.deviceId s).1,
    (handlePollPendingIntents env c.deviceId s).2) = _
  rw [hcall]

/-- Eviction keeps the other devices, unless the registry is full and their entry is stale. -/
theorem registered_after {op : Op} {other : DeviceId} {verifyKeyBytes : Bytes 32} {timestamp : UInt64}
    {signatureBytes : List UInt8} {peerAddr : Option SocketAddr} {env : Env}
    (hop : op = .message (.registerRequest other verifyKeyBytes timestamp signatureBytes) peerAddr env)
    (hauth : RegisterAuth C (env.clock 0) other verifyKeyBytes timestamp signatureBytes)
    (hne : deviceId ≠ other) :
    (step C s op).2.registry.lookup deviceId = (evicted (env.clock 0) s.registry).lookup deviceId := by
  rcases registry_cases C s op with
    ⟨-, hno, -⟩ | ⟨d', _, _, _, _, _, rfl, -, ⟨_, -, hreg⟩ | ⟨-, hreg⟩⟩
  · exact absurd hauth (hno _ _ _ _ _ _ hop)
  · cases hop
    rw [hreg]
  · cases hop
    rw [hreg, AList.lookup_insert_ne hne]

end RegistryLemmas

/-! ## A full registry -/

/-- The `i`-th client registers at the time `times i`. -/
def registration (times : Nat → UInt64) (i : Nat) : Op :=
  .message ((numberedClient i).request (.register (times i))) none (.at (times i) none)

namespace RegistryLemmas

open ServerLemmas

theorem registration_auth (i : Nat) (now : UInt64) :
    RegisterAuth .plain now (numberedClient i).deviceId (numberedClient i).verifyKeyBytes now
      ((numberedClient i).signatureBytes
        (registerPayload (numberedClient i).deviceId (numberedClient i).verifyKeyBytes now)) := by
  refine ⟨by simp [absDiff], rfl, rfl, signed_eq_true.mpr ⟨_, Bytes.ofList?_toList _, ?_⟩⟩
  exact decide_eq_true rfl

theorem lookup_registration {times : Nat → UInt64} {i : Nat} {s : RelayServer} {d : DeviceId}
    (hne : d ≠ (numberedClient i).deviceId) :
    (step .plain s (registration times i)).2.registry.lookup d =
      (evicted (times i) s.registry).lookup d := by
  have hop : registration times i = .message (.registerRequest (numberedClient i).deviceId
      (numberedClient i).verifyKeyBytes (times i) _) none (.at (times i) none) := rfl
  have hauth : RegisterAuth .plain ((Env.at (times i) none).clock 0) _ _ _ _ :=
    registration_auth i (times i)
  -- the environment comes from `hop`, not from the goal, which only has its first reading
  have hlookup := registered_after (s := s) hop hauth hne
  exact hlookup

/-- The registry after the first `n` clients have registered. -/
structure Filled (times : Nat → UInt64) (n : Nat) (s : RelayServer) : Prop where
  size : HashMap.size s.registry = n
  seen : ∀ i < n, ∃ ctx, s.registry.lookup (numberedClient i).deviceId = some ctx ∧
    ctx.lastSeen = times i
  only : ∀ d ctx, s.registry.lookup d = some ctx →
    ∃ i < n, d = (numberedClient i).deviceId ∧ ctx.lastSeen = times i

variable {times : Nat → UInt64} {n : Nat} {s : RelayServer}

/-- A registration while there is room stores its entry and evicts nothing. -/
theorem registry_registration (times : Nat → UInt64) (i : Nat)
    (hroom : HashMap.size s.registry < maxRegistrations) :
    (step .plain s (registration times i)).2.registry =
      s.registry.insert (numberedClient i).deviceId
        ⟨s.nextSessionId, times i, (numberedClient i).verifyKeyBytes, none⟩ := by
  have hevicted : evicted (times i) s.registry = s.registry := by
    rw [evicted, if_neg (Nat.not_le.mpr hroom)]
  rcases handleRegister_cases (.at (times i) none) _ _ _ _ none with
    ⟨hno, -⟩ | ⟨-, ⟨hfull, -⟩ | ⟨-, hcall⟩⟩
  · exact absurd (registration_auth i (times i)) hno
  · rw [show (Env.at (times i) none).clock 0 = times i from rfl, hevicted] at hfull
    exact absurd hroom (Nat.not_lt.mpr hfull)
  · refine (congrArg (fun r => r.2.registry) hcall).trans ?_
    show (evicted (times i) s.registry).insert _ _ = _
    rw [hevicted]
    rfl

theorem filled_step (h : Filled times n s) (hn : n < maxRegistrations) :
    Filled times (n + 1) (step .plain s (registration times n)).2 := by
  have hsmall : ∀ i < n + 1, i < 2 ^ 32 := fun i hi =>
    Nat.lt_of_lt_of_le hi (Nat.le_trans hn (by decide))
  have hother : ∀ i < n, (numberedClient i).deviceId ≠ (numberedClient n).deviceId := fun i hi heq =>
    Nat.ne_of_lt hi (numberedClient_deviceId_injective (hsmall i (Nat.lt_succ_of_lt hi))
      (hsmall n n.lt_succ_self) heq)
  have hfresh : s.registry.lookup (numberedClient n).deviceId = none := by
    refine Option.eq_none_iff_forall_ne_some.mpr fun ctx hl => ?_
    obtain ⟨i, hi, hd, -⟩ := h.only _ ctx hl
    exact hother i hi hd.symm
  have hreg := registry_registration times n (h.size.trans_lt hn)
  refine ⟨?_, fun i hi => ?_, fun d ctx hl => ?_⟩
  · rw [hreg, HashMap.size_insert_of_fresh hfresh, h.size]
  · rw [hreg]
    rcases Nat.lt_succ_iff_lt_or_eq.mp hi with hlt | rfl
    · rw [AList.lookup_insert_ne (hother i hlt)]
      exact h.seen i hlt
    · exact ⟨_, AList.lookup_insert _, rfl⟩
  · rw [hreg, HashMap.lookup_insert_eq] at hl
    split at hl
    · next hd =>
      cases hl
      exact ⟨n, n.lt_succ_self, hd, rfl⟩
    · obtain ⟨i, hi, hd, htime⟩ := h.only d ctx hl
      exact ⟨i, Nat.lt_succ_of_lt hi, hd, htime⟩

theorem filled_run (times : Nat → UInt64) :
    Filled times maxRegistrations (relayAfter .plain rateLimitBytesPerSec sessionExpiryMs
      ((List.range maxRegistrations).map (registration times))) := by
  refine endState_range ⟨rfl, fun i hi => absurd hi (Nat.not_lt_zero i), fun _ _ hl => nomatch hl⟩ _ ?_
  exact fun k hk s h => filled_step h hk

end RegistryLemmas

open RegistryLemmas ServerLemmas

/-- After every run, a registration evicts an active device exactly if it finds the registry full
and the last registration of that device, not its last message, is stale. -/
theorem active_device_kept_iff (C : RelayCrypto) (rateLimit expiry : UInt64) (ops : List Op) (op : Op) :
    KeepsActive (relayRun C rateLimit expiry ops)
        (stepEntry (step C) (relayAfter C rateLimit expiry ops) op) ↔
      ¬ EvictsActive C (relayRun C rateLimit expiry ops) (relayAfter C rateLimit expiry ops) op := by
  constructor
  · rintro hkeeps ⟨other, key, timestamp, sig, peerAddr, env, hop, hauth, hfull, d, hne, hreg, hactive,
      last, hlast, hstale⟩
    have hpost := hkeeps other key timestamp sig peerAddr env hop d hne hreg hactive
    obtain ⟨ctx, hctx⟩ := isRegistered_eq_true.mp hreg
    obtain ⟨ctx', hctx'⟩ := isRegistered_eq_true.mp hpost
    cases hlast.symm.trans (lastSeen_run C rateLimit expiry ops d ctx hctx)
    have hkept := (registered_after hop hauth hne).symm.trans hctx'
    rw [lookup_evicted, if_pos hfull, hctx, Option.filter_eq_some_iff] at hkept
    obtain ⟨hsame, hretained⟩ := hkept
    cases hsame
    exact absurd hretained (Bool.eq_false_iff.mp (not_retained_iff.mpr hstale))
  · intro hnot other key timestamp sig peerAddr env hop d hne hreg hactive
    change (relayAfter C rateLimit expiry ops).isRegistered d = true at hreg
    obtain ⟨ctx, hctx⟩ := isRegistered_eq_true.mp hreg
    refine isRegistered_eq_true.mpr ⟨ctx, ?_⟩
    by_cases hauth : RegisterAuth C (env.clock 0) other key timestamp sig
    · refine (registered_after hop hauth hne).trans ?_
      rw [lookup_evicted]
      split
      · next hfull =>
        rw [hctx, Option.filter_eq_some_iff]
        refine ⟨rfl, Bool.of_not_eq_false fun hstale => hnot ?_⟩
        exact ⟨other, key, timestamp, sig, peerAddr, env, hop, hauth, hfull, d, hne, hreg, hactive, _,
          lastSeen_run C rateLimit expiry ops d ctx hctx, not_retained_iff.mp hstale⟩
      · exact hctx
    · rcases registry_cases C (relayAfter C rateLimit expiry ops) op with
        ⟨-, -, hsame⟩ | ⟨_, _, _, _, _, _, hop', hauth', -⟩
      · exact (congrArg (AList.lookup d) hsame).trans hctx
      · cases hop.symm.trans hop'
        exact absurd hauth' hauth

/-- The first client registers at time zero, the others five minutes later; then it polls. -/
def pollingRun : List Op :=
  (List.range maxRegistrations).map (registration fun i => if i = 0 then 0 else 300000) ++
    [.message ((numberedClient 0).request .pollPendingIntents) none (.at 300000 none)]

/-- The device polled in this millisecond, and the registration of one more device evicts it. -/
theorem polling_device_evicted :
    (relayAfter .plain rateLimitBytesPerSec sessionExpiryMs pollingRun).isRegistered
        (numberedClient 0).deviceId = true ∧
      Active (numberedClient 0).deviceId
        (relayRun .plain rateLimitBytesPerSec sessionExpiryMs pollingRun) 300000 ∧
      (step .plain (relayAfter .plain rateLimitBytesPerSec sessionExpiryMs pollingRun)
        (registration (fun _ => 300000) maxRegistrations)).2.isRegistered
          (numberedClient 0).deviceId = false := by
  have hfilled := filled_run fun i => if i = 0 then 0 else 300000
  obtain ⟨ctx, hl, hseen⟩ := hfilled.seen 0 (by decide)
  have hreg := isRegistered_eq_true.mpr ⟨ctx, hl⟩
  obtain ⟨answer, hpoll⟩ := step_poll (numberedClient 0) none (.at 300000 none) hreg
  have hafter : relayAfter .plain rateLimitBytesPerSec sessionExpiryMs pollingRun =
      relayAfter .plain rateLimitBytesPerSec sessionExpiryMs
        ((List.range maxRegistrations).map (registration fun i => if i = 0 then 0 else 300000)) := by
    rw [pollingRun, relayAfter_snoc, hpoll]
  refine ⟨by rw [hafter]; exact hreg, ⟨300000, ?_, by decide⟩, ?_⟩
  · rw [pollingRun, relayRun_snoc, List.filterMap_append, List.mem_append, stepEntry, hpoll]
    exact Or.inr (List.mem_filterMap.mpr ⟨_, List.mem_singleton.mpr rfl, rfl⟩)
  · have hne : (numberedClient 0).deviceId ≠ (numberedClient maxRegistrations).deviceId := fun heq =>
      absurd (numberedClient_deviceId_injective (by decide) (by decide) heq) (by decide)
    rw [hafter]
    generalize relayAfter .plain rateLimitBytesPerSec sessionExpiryMs ((List.range maxRegistrations).map
      (registration fun i => if i = 0 then 0 else 300000)) = s at hl hfilled
    have hstale : ctx.retained 300000 = false := not_retained_iff.mpr (by rw [hseen]; decide)
    rw [isRegistered, lookup_registration hne, lookup_evicted,
      if_pos (Nat.le_of_eq hfilled.size.symm), hl, Option.filter_some, hstale]
    rfl

/-! ## Renewals -/

/-- What a renewal is for: it succeeds, it replaces the entry of the device, and the registry does
not grow. -/
structure Renewed (s : RelayServer) (deviceId : DeviceId) (entry : ClientContext)
    (call : Outcome RelayError RelayMessage × RelayServer) : Prop where
  answer : call.1 = .ok (.registerAck entry.sessionId entry.serverReflexiveAddr)
  refreshed : call.2.registry.lookup deviceId = some entry
  size : HashMap.size call.2.registry ≤ HashMap.size s.registry

namespace RegistryLemmas

variable {s : RelayServer} {now : UInt64} {deviceId : DeviceId}
  {registry : HashMap DeviceId ClientContext} {ctx : ClientContext}

/-- Eviction makes room exactly if there was room or an entry is stale. -/
theorem size_evicted_lt_iff (hsize : HashMap.size registry ≤ maxRegistrations) :
    HashMap.size (evicted now registry) < maxRegistrations ↔
      HashMap.size registry < maxRegistrations ∨ ∃ d ctx, registry.lookup d = some ctx ∧
        ctx.lastSeen ≤ saturatingSub now staleRegistrationMs := by
  rcases Nat.lt_or_ge (HashMap.size registry) maxRegistrations with hroom | hfull
  · rw [evicted, if_neg (Nat.not_le.mpr hroom)]
    exact iff_of_true hroom (Or.inl hroom)
  · rw [evicted, if_pos hfull]
    constructor
    · intro hlt
      refine Or.inr (not_forall_not.mp fun hnone => ?_)
      have hall : HashMap.retain (fun _ ctx => ClientContext.retained now ctx) registry = registry := by
        refine HashMap.retain_eq_self fun d ctx hl => Bool.of_not_eq_false fun hstale => ?_
        exact hnone d ⟨ctx, hl, not_retained_iff.mp hstale⟩
      rw [hall] at hlt
      exact Nat.not_le.mpr hlt hfull
    · rintro (hroom | ⟨d, ctx, hl, hstale⟩)
      · exact absurd hfull (Nat.not_le.mpr hroom)
      · exact Nat.lt_of_lt_of_le (HashMap.size_retain_lt hl (not_retained_iff.mpr hstale)) hsize

/-- A renewal does not grow the registry: its own entry was kept, or was evicted before. -/
theorem size_renewed_le (hl : registry.lookup deviceId = some ctx) (entry : ClientContext) :
    HashMap.size ((evicted now registry).insert deviceId entry) ≤ HashMap.size registry := by
  cases hkept : (evicted now registry).lookup deviceId with
  | some old =>
    rw [HashMap.size_insert_of_lookup hkept]
    exact InvariantLemmas.size_evicted_le _ _
  | none =>
    refine Nat.le_trans (HashMap.size_insert_le _ _ _) ?_
    rw [lookup_evicted, hl] at hkept
    split at hkept
    · next hfull =>
      rw [evicted, if_pos hfull]
      refine HashMap.size_retain_lt hl (Bool.eq_false_iff.mpr fun hretained => ?_)
      rw [Option.filter_some, hretained] at hkept
      cases hkept
    · cases hkept

end RegistryLemmas

/-- In every reachable state, a genuine registration of a device that is already registered renews
its entry exactly if there is room left or some entry is stale. -/
theorem renewal_succeeds_iff (C : RelayCrypto) (rateLimit expiry : UInt64) (ops : List Op) {env : Env}
    {deviceId : DeviceId} {verifyKeyBytes : Bytes 32} {timestamp : UInt64} {signatureBytes : List UInt8}
    (peerAddr : Option SocketAddr)
    (hregistered : (relayAfter C rateLimit expiry ops).isRegistered deviceId = true)
    (hauth : RegisterAuth C (env.clock 0) deviceId verifyKeyBytes timestamp signatureBytes) :
    Renewed (relayAfter C rateLimit expiry ops) deviceId
        ⟨(relayAfter C rateLimit expiry ops).nextSessionId, env.clock 0, verifyKeyBytes, peerAddr⟩
        (handleRegister C env deviceId verifyKeyBytes timestamp signatureBytes peerAddr
          (relayAfter C rateLimit expiry ops)) ↔
      HashMap.size (relayAfter C rateLimit expiry ops).registry < maxRegistrations ∨
        ∃ d ctx, (relayAfter C rateLimit expiry ops).registry.lookup d = some ctx ∧
          ctx.lastSeen ≤ saturatingSub (env.clock 0) staleRegistrationMs := by
  rw [← size_evicted_lt_iff (reachable_withinCapacity C rateLimit expiry ops).registry]
  obtain ⟨ctx, hl⟩ := isRegistered_eq_true.mp hregistered
  rcases ServerLemmas.handleRegister_cases env deviceId verifyKeyBytes timestamp signatureBytes peerAddr
    with ⟨hno, -⟩ | ⟨-, ⟨hfull, h⟩ | ⟨hroom, h⟩⟩
  · exact absurd hauth hno
  · refine iff_of_false (fun hrenewed => ?_) (Nat.not_lt.mpr hfull)
    have hanswer := hrenewed.answer
    rw [h] at hanswer
    cases hanswer
  · refine iff_of_true ?_ hroom
    rw [h]
    exact ⟨rfl, AList.lookup_insert _, size_renewed_le hl _⟩

/-- A lone client renews its registration. -/
theorem renewal_with_room :
    Renewed (relayAfter .plain rateLimitBytesPerSec sessionExpiryMs [registration (fun _ => 5) 0])
        (numberedClient 0).deviceId
        ⟨(relayAfter .plain rateLimitBytesPerSec sessionExpiryMs
          [registration (fun _ => 5) 0]).nextSessionId, 6, (numberedClient 0).verifyKeyBytes, none⟩
        (handleRegister .plain (.at 6 none) (numberedClient 0).deviceId
          (numberedClient 0).verifyKeyBytes 6
          ((numberedClient 0).signatureBytes
            (registerPayload (numberedClient 0).deviceId (numberedClient 0).verifyKeyBytes 6)) none
          (relayAfter .plain rateLimitBytesPerSec sessionExpiryMs [registration (fun _ => 5) 0])) :=
  have hregistered : (relayAfter .plain rateLimitBytesPerSec sessionExpiryMs
      [registration (fun _ => 5) 0]).isRegistered (numberedClient 0).deviceId = true := by
    decide +kernel
  (@renewal_succeeds_iff .plain rateLimitBytesPerSec sessionExpiryMs [registration (fun _ => 5) 0]
    (.at 6 none) _ _ _ _ none hregistered (registration_auth 0 6)).mpr (Or.inl (by decide +kernel))

/-- One of 1024 clients that registered a millisecond ago is turned away when it renews. -/
theorem renewal_rejected_at_capacity :
    (relayAfter .plain rateLimitBytesPerSec sessionExpiryMs
        ((List.range maxRegistrations).map (registration fun _ => 5))).isRegistered
          (numberedClient 0).deviceId = true ∧
      (step .plain (relayAfter .plain rateLimitBytesPerSec sessionExpiryMs
        ((List.range maxRegistrations).map (registration fun _ => 5)))
          (registration (fun _ => 6) 0)).1 =
        .response (.err (.internal "Relay registry is at capacity")) := by
  have hfilled := filled_run fun _ => 5
  obtain ⟨ctx, hl, -⟩ := hfilled.seen 0 (by decide)
  refine ⟨isRegistered_eq_true.mpr ⟨ctx, hl⟩, ?_⟩
  have hfull : ¬ HashMap.size (evicted 6 (relayAfter .plain rateLimitBytesPerSec sessionExpiryMs
      ((List.range maxRegistrations).map (registration fun _ => 5))).registry) < maxRegistrations := by
    rw [size_evicted_lt_iff (Nat.le_of_eq hfilled.size)]
    rintro (hroom | ⟨d, ctx, hl, hstale⟩)
    · exact Nat.ne_of_lt hroom hfilled.size
    · obtain ⟨_, -, -, htime⟩ := hfilled.only d ctx hl
      rw [htime] at hstale
      exact absurd hstale (by decide)
  rcases ServerLemmas.handleRegister_cases (.at 6 none) _ _ _ _ none with
    ⟨hno, -⟩ | ⟨-, ⟨-, hcall⟩ | ⟨hroom, -⟩⟩
  · exact absurd (registration_auth 0 6) hno
  · exact congrArg (fun r => Reply.response (Prod.fst r)) hcall
  · exact absurd hroom hfull

end Blackwing.Relay

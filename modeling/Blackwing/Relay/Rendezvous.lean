import Blackwing.Lib.HashMap
import Blackwing.Relay.Message

/-!
# The rendezvous registry

`bw-relay/src/rendezvous.rs`: connect intents by their 16-byte id. An intent waits
as `Pending`, becomes `Accepted` with a random relay token, or expires after 30
seconds. The id is chosen by the initiator; an id whose intent is not `Pending`
can be registered again.

* `registerIntent_cases`, `acceptIntent_cases`: everything the two writers can do.
* `getTargetCandidates_ok`: who gets the candidates and the token.
-/

namespace Blackwing.Relay

/-- `INTENT_TIMEOUT_MS`. -/
def intentTimeoutMs : UInt64 := 30000

/-- `MAX_INTENTS`. -/
def maxIntents : Nat := 2048

/-- `IntentState`. -/
inductive IntentState where
  | pending (createdAt : UInt64)
  | accepted (relayToken : RelayToken)
  | expired
deriving DecidableEq

/-- `PendingIntent`. -/
structure PendingIntent where
  initiator : DeviceId
  target : DeviceId
  initiatorCandidates : List Candidate
  targetCandidates : List Candidate
  state : IntentState
deriving DecidableEq

/-- `RendezvousRegistry`, its `intents`. -/
abbrev RendezvousRegistry : Type := HashMap IntentId PendingIntent

/-- The state is `Pending`. -/
def PendingIntent.isPending (i : PendingIntent) : Bool :=
  match i.state with
  | .pending _ => true
  | _ => false

/-- What the pruning step of `register_intent` keeps: every intent but a `Pending` one that is
past its timeout. -/
def PendingIntent.retained (now : UInt64) (i : PendingIntent) : Bool :=
  match i.state with
  | .pending createdAt => createdAt > saturatingSub now intentTimeoutMs
  | _ => true

/-- `sweep_expired` finds the intent `Pending` and past its timeout. -/
def PendingIntent.overdue (now : UInt64) (i : PendingIntent) : Bool :=
  match i.state with
  | .pending createdAt => saturatingSub now createdAt > intentTimeoutMs
  | _ => false

namespace RendezvousRegistry

/-- The pruning step of `register_intent`. -/
def pruned (now : UInt64) (intents : RendezvousRegistry) : RendezvousRegistry :=
  HashMap.retain (fun _ i => i.retained now) intents

/-- `RendezvousRegistry::register_intent`. -/
def registerIntent (now : UInt64) (intentId : IntentId) (initiator target : DeviceId)
    (initiatorCandidates : List Candidate) : Call RendezvousRegistry String Unit := do
  Call.update (pruned now)
  let intents ← Call.getState
  Call.rejectIf (HashMap.size intents ≥ maxIntents) "Rendezvous registry is at capacity"
  Call.rejectIf ((intents.lookup intentId).any PendingIntent.isPending = true)
    "Duplicate intent_id: an active intent with this ID already exists"
  Call.update fun m =>
    m.insert intentId ⟨initiator, target, initiatorCandidates, [], .pending now⟩

/-- `RendezvousRegistry::accept_intent`. -/
def acceptIntent (now : UInt64) (random : Option (Bytes 32)) (intentId : IntentId)
    (acceptor : DeviceId) (targetCandidates : List Candidate) :
    Call RendezvousRegistry String (DeviceId × List Candidate × RelayToken) := do
  let intents ← Call.getState
  match intents.lookup intentId with
  | none => Call.fail "Intent not found"
  | some intent =>
    match intent.state with
    | .accepted _ => Call.fail "Intent is already accepted"
    | .expired => Call.fail "Intent has expired"
    | .pending createdAt =>
      if saturatingSub now createdAt > intentTimeoutMs then do
        Call.update fun m => m.insert intentId { intent with state := .expired }
        Call.fail "Intent has expired"
      else do
        Call.rejectIf (intent.target ≠ acceptor) "Acceptor identity does not match the intended target"
        -- the candidates are stored before the random source is asked
        Call.update fun m => m.insert intentId { intent with targetCandidates := targetCandidates }
        match random with
        | none => Call.fail "Failed to generate random token"
        | some relayToken => do
          Call.update fun m => m.insert intentId
            { intent with targetCandidates := targetCandidates, state := .accepted relayToken }
          pure (intent.initiator, intent.initiatorCandidates, relayToken)

/-- `RendezvousRegistry::get_target_candidates`. -/
def getTargetCandidates (intents : RendezvousRegistry) (intentId : IntentId) (requester : DeviceId) :
    Outcome String (List Candidate × RelayToken) :=
  match intents.lookup intentId with
  | none => .err "Intent not found"
  | some intent =>
    match intent.state with
    | .pending _ => .err "Intent not yet accepted by the target"
    | .expired => .err "Intent has expired"
    | .accepted relayToken =>
      if intent.initiator ≠ requester then
        .err "Unauthorized: requester is not the initiator of this intent"
      else .ok (intent.targetCandidates, relayToken)

/-- `RendezvousRegistry::sweep_expired`. -/
def sweepExpired (now : UInt64) : Call RendezvousRegistry String Nat := do
  let intents ← Call.getState
  Call.update (HashMap.mapValues fun _ i => if i.overdue now then { i with state := .expired } else i)
  pure (intents.entries.filter fun e => e.2.overdue now).length

/-- `RendezvousRegistry::peek_initiator`. -/
def peekInitiator (intents : RendezvousRegistry) (intentId : IntentId) : Outcome String DeviceId :=
  match intents.lookup intentId with
  | none => .err "Intent not found"
  | some intent => .ok intent.initiator

/-- `RendezvousRegistry::pending_for`, in the order of the map's entries. -/
def pendingFor (intents : RendezvousRegistry) (now : UInt64) (target : DeviceId) :
    List (IntentId × DeviceId) :=
  intents.entries.filterMap fun e =>
    if e.2.target = target then
      match e.2.state with
      | .pending createdAt =>
        if createdAt > saturatingSub now intentTimeoutMs then some (e.1, e.2.initiator) else none
      | _ => none
    else none

end RendezvousRegistry

/-! ## What each call can do -/

open RendezvousRegistry

namespace RendezvousLemmas

variable {intents intents' : RendezvousRegistry} {intentId : IntentId} {now : UInt64}

theorem lookup_pruned (now : UInt64) (intents : RendezvousRegistry) (j : IntentId) :
    (pruned now intents).lookup j = (intents.lookup j).filter fun i => i.retained now :=
  HashMap.lookup_retain _ _ _

/-- Registration prunes, and then refuses at capacity, refuses a pending id, or stores. -/
theorem registerIntent_cases (now : UInt64) (intentId : IntentId) (initiator target : DeviceId)
    (candidates : List Candidate) (intents : RendezvousRegistry) :
    (maxIntents ≤ HashMap.size (pruned now intents) ∧
      registerIntent now intentId initiator target candidates intents =
        (.err "Rendezvous registry is at capacity", pruned now intents)) ∨
    (HashMap.size (pruned now intents) < maxIntents ∧
      ((pruned now intents).lookup intentId).any PendingIntent.isPending = true ∧
      registerIntent now intentId initiator target candidates intents =
        (.err "Duplicate intent_id: an active intent with this ID already exists",
          pruned now intents)) ∨
    (HashMap.size (pruned now intents) < maxIntents ∧
      ((pruned now intents).lookup intentId).any PendingIntent.isPending = false ∧
      registerIntent now intentId initiator target candidates intents =
        (.ok (), (pruned now intents).insert intentId
          ⟨initiator, target, candidates, [], .pending now⟩)) := by
  rw [registerIntent, Call.update_bind, Call.getState_bind, Call.rejectIf_bind]
  rcases Nat.lt_or_ge (HashMap.size (pruned now intents)) maxIntents with hlt | hge
  · rw [if_neg (Nat.not_le.mpr hlt), Call.rejectIf_bind]
    cases hp : ((pruned now intents).lookup intentId).any PendingIntent.isPending with
    | true => exact Or.inr (Or.inl ⟨hlt, rfl, if_pos rfl⟩)
    | false => exact Or.inr (Or.inr ⟨hlt, rfl, if_neg Bool.false_ne_true⟩)
  · exact Or.inl ⟨hge, if_pos hge⟩

/-- Acceptance finds no live intent for this acceptor and changes nothing, expires it, stores the
candidates only because the random source failed, or accepts. -/
theorem acceptIntent_cases (now : UInt64) (random : Option (Bytes 32)) (intentId : IntentId)
    (acceptor : DeviceId) (candidates : List Candidate) (intents : RendezvousRegistry) :
    ((∀ intent createdAt, intents.lookup intentId = some intent → intent.state = .pending createdAt →
        saturatingSub now createdAt ≤ intentTimeoutMs ∧ intent.target ≠ acceptor) ∧
      ∃ e, acceptIntent now random intentId acceptor candidates intents = (.err e, intents)) ∨
    (∃ intent createdAt, intents.lookup intentId = some intent ∧ intent.state = .pending createdAt ∧
      intentTimeoutMs < saturatingSub now createdAt ∧
      acceptIntent now random intentId acceptor candidates intents =
        (.err "Intent has expired", intents.insert intentId { intent with state := .expired })) ∨
    (∃ intent createdAt, intents.lookup intentId = some intent ∧ intent.state = .pending createdAt ∧
      saturatingSub now createdAt ≤ intentTimeoutMs ∧ intent.target = acceptor ∧ random = none ∧
      acceptIntent now random intentId acceptor candidates intents =
        (.err "Failed to generate random token",
          intents.insert intentId { intent with targetCandidates := candidates })) ∨
    (∃ intent createdAt relayToken, intents.lookup intentId = some intent ∧
      intent.state = .pending createdAt ∧ saturatingSub now createdAt ≤ intentTimeoutMs ∧
      intent.target = acceptor ∧ random = some relayToken ∧
      acceptIntent now random intentId acceptor candidates intents =
        (.ok (intent.initiator, intent.initiatorCandidates, relayToken),
          intents.insert intentId
            { intent with targetCandidates := candidates, state := .accepted relayToken })) := by
  rw [acceptIntent, Call.getState_bind]
  cases hl : intents.lookup intentId with
  | none => exact Or.inl ⟨(fun _ _ h => nomatch h), _, rfl⟩
  | some intent =>
    obtain ⟨initiator, target, initiatorCandidates, targetCandidates, state⟩ := intent
    cases state with
    | accepted token =>
      refine Or.inl ⟨fun i createdAt hi hs => ?_, _, rfl⟩
      cases hi
      cases hs
    | expired =>
      refine Or.inl ⟨fun i createdAt hi hs => ?_, _, rfl⟩
      cases hi
      cases hs
    | pending createdAt =>
      rcases UInt64.lt_or_le intentTimeoutMs (saturatingSub now createdAt) with hlt | hle
      · refine Or.inr (Or.inl ⟨_, createdAt, rfl, rfl, hlt, ?_⟩)
        exact congrFun (if_pos hlt) intents
      · have hcall : ∀ x y : Call RendezvousRegistry String (DeviceId × List Candidate × RelayToken),
            (if saturatingSub now createdAt > intentTimeoutMs then x else y) intents = y intents :=
          fun x y => congrFun (if_neg (UInt64.not_lt.mpr hle)) intents
        by_cases ht : target = acceptor
        · cases random with
          | none =>
            refine Or.inr (Or.inr (Or.inl ⟨_, createdAt, rfl, rfl, hle, ht, rfl, ?_⟩))
            refine (hcall _ _).trans ?_
            rw [Call.rejectIf_bind, if_neg (not_not_intro ht)]
            rfl
          | some relayToken =>
            refine Or.inr (Or.inr (Or.inr ⟨_, createdAt, relayToken, rfl, rfl, hle, ht, rfl, ?_⟩))
            refine (hcall _ _).trans ?_
            rw [Call.rejectIf_bind, if_neg (not_not_intro ht), Call.update_bind]
            exact congrArg (Prod.mk _) (AList.insert_insert intents)
        · refine Or.inl ⟨fun i c hi hs => ?_,
            "Acceptor identity does not match the intended target", ?_⟩
          · cases hi
            cases hs
            exact ⟨hle, ht⟩
          · refine (hcall _ _).trans ?_
            rw [Call.rejectIf_bind, if_pos ht]

/-- The candidates and the token go to the initiator of an accepted intent. -/
theorem getTargetCandidates_ok {requester : DeviceId} {r : List Candidate × RelayToken} :
    getTargetCandidates intents intentId requester = .ok r ↔
      ∃ intent, intents.lookup intentId = some intent ∧ intent.initiator = requester ∧
        intent.state = .accepted r.2 ∧ r.1 = intent.targetCandidates := by
  unfold getTargetCandidates
  cases hl : intents.lookup intentId with
  | none => simp
  | some intent =>
    obtain ⟨initiator, target, initiatorCandidates, targetCandidates, state⟩ := intent
    cases state with
    | pending createdAt => simp
    | expired => simp
    | accepted token =>
      obtain ⟨candidates, relayToken⟩ := r
      by_cases hr : initiator = requester
      · simp [hr, and_comm, eq_comm]
      · simp [hr]

theorem getTargetCandidates_ne_panicked {requester : DeviceId} :
    getTargetCandidates intents intentId requester ≠ .panicked := by
  unfold getTargetCandidates
  split
  · exact fun h => nomatch h
  · split
    · exact fun h => nomatch h
    · exact fun h => nomatch h
    · split <;> exact fun h => nomatch h

end RendezvousLemmas

end Blackwing.Relay

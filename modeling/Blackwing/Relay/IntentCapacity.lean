import Blackwing.Lib.Run
import Blackwing.Relay.Rendezvous

/-!
# The capacity of the rendezvous registry

Runs of the calls on one `RendezvousRegistry`. A registration prunes the `Pending` intents
that are past their timeout and is refused if `MAX_INTENTS` intents are left. No call removes
an intent that is `Accepted` or `Expired`: such an intent only makes way for a new one under
the same id, and only while there is room.

* `withinLimit_run`: the registry never holds more than `MAX_INTENTS` intents.
* `capacity_error_justified_iff`: the capacity error comes without `MAX_INTENTS` live intents
  exactly if a settled intent takes a place.
-/

namespace Blackwing.Relay

open RendezvousRegistry

/-! ## Runs of the registry -/

/-- A call on the registry, with the time it reads. -/
inductive RendezvousOp where
  | registerIntent (now : UInt64) (intentId : IntentId) (initiator target : DeviceId)
      (initiatorCandidates : List Candidate)
  | acceptIntent (now : UInt64) (random : Option (Bytes 32)) (intentId : IntentId)
      (acceptor : DeviceId) (targetCandidates : List Candidate)
  | getTargetCandidates (intentId : IntentId) (requester : DeviceId)
  | sweepExpired (now : UInt64)
  | peekInitiator (intentId : IntentId)
  | pendingFor (now : UInt64) (target : DeviceId)

/-- What the call returned. -/
inductive RendezvousOut where
  | registered (r : Outcome String Unit)
  | accepted (r : Outcome String (DeviceId × List Candidate × RelayToken))
  | candidates (r : Outcome String (List Candidate × RelayToken))
  | swept (r : Outcome String Nat)
  | initiator (r : Outcome String DeviceId)
  | pending (intents : List (IntentId × DeviceId))
deriving DecidableEq

/-- One call. -/
def rendezvousStep (intents : RendezvousRegistry) :
    RendezvousOp → RendezvousOut × RendezvousRegistry
  | .registerIntent now intentId initiator target initiatorCandidates =>
    let call := registerIntent now intentId initiator target initiatorCandidates intents
    (.registered call.1, call.2)
  | .acceptIntent now random intentId acceptor targetCandidates =>
    let call := acceptIntent now random intentId acceptor targetCandidates intents
    (.accepted call.1, call.2)
  | .getTargetCandidates intentId requester =>
    (.candidates (getTargetCandidates intents intentId requester), intents)
  | .sweepExpired now =>
    let call := sweepExpired now intents
    (.swept call.1, call.2)
  | .peekInitiator intentId => (.initiator (peekInitiator intents intentId), intents)
  | .pendingFor now target => (.pending (pendingFor intents now target), intents)

/-- An entry of a run. -/
abbrev RendezvousEntry : Type := Entry RendezvousRegistry RendezvousOp RendezvousOut

/-- The registry after a list of calls on an empty one. -/
def rendezvousAfter (ops : List RendezvousOp) : RendezvousRegistry := endState rendezvousStep ∅ ops

/-- The intent is `Pending` and younger than its timeout. -/
def PendingIntent.live (now : UInt64) (i : PendingIntent) : Bool :=
  match i.state with
  | .pending createdAt => now.toNat < createdAt.toNat + intentTimeoutMs.toNat
  | _ => false

/-- The number of live intents. -/
def liveCount (now : UInt64) (intents : RendezvousRegistry) : Nat :=
  HashMap.size (HashMap.retain (fun _ i => i.live now) intents)

/-- If the call is a registration under an unused id that is refused at capacity, then `MAX_INTENTS`
intents are live. -/
def CapacityJustified (e : RendezvousEntry) : Prop :=
  ∀ now intentId initiator target candidates,
    e.input = .registerIntent now intentId initiator target candidates →
    e.pre.lookup intentId = none →
    e.out = .registered (.err "Rendezvous registry is at capacity") →
    maxIntents ≤ liveCount now e.pre

/-- A registration under an unused id finds the registry full of intents that are not pruned, one
of them settled. -/
def Exhausted (intents : RendezvousRegistry) : RendezvousOp → Prop
  | .registerIntent now intentId _ _ _ =>
    intents.lookup intentId = none ∧ maxIntents ≤ HashMap.size intents ∧
      (∀ id i, intents.lookup id = some i → i.retained now = true) ∧
      ∃ id i, intents.lookup id = some i ∧ i.isPending = false
  | _ => False

namespace IntentCapacityLemmas

open RendezvousLemmas

variable {intents : RendezvousRegistry} {now : UInt64} {i : PendingIntent}

/-! ## The limit -/

theorem withinLimit_step (op : RendezvousOp) (h : HashMap.size intents ≤ maxIntents) :
    HashMap.size (rendezvousStep intents op).2 ≤ maxIntents := by
  have hpruned : ∀ now, HashMap.size (pruned now intents) ≤ maxIntents := fun now =>
    Nat.le_trans (HashMap.size_retain_le _ _) h
  cases op with
  | registerIntent now intentId initiator target candidates =>
    show HashMap.size (registerIntent now intentId initiator target candidates intents).2 ≤ _
    rcases registerIntent_cases now intentId initiator target candidates intents with
      ⟨-, hcall⟩ | ⟨-, -, hcall⟩ | ⟨hroom, -, hcall⟩
    · rw [hcall]
      exact hpruned now
    · rw [hcall]
      exact hpruned now
    · rw [hcall]
      exact Nat.le_trans (HashMap.size_insert_le _ _ _) hroom
  | acceptIntent now random intentId acceptor candidates =>
    show HashMap.size (acceptIntent now random intentId acceptor candidates intents).2 ≤ _
    rcases acceptIntent_cases now random intentId acceptor candidates intents with
      ⟨-, _, hcall⟩ | ⟨_, _, hl, -, -, hcall⟩ | ⟨_, _, hl, -, -, -, -, hcall⟩ |
        ⟨_, _, _, hl, -, -, -, -, hcall⟩
    · rw [hcall]
      exact h
    · rw [hcall, HashMap.size_insert_of_lookup hl]
      exact h
    · rw [hcall, HashMap.size_insert_of_lookup hl]
      exact h
    · rw [hcall, HashMap.size_insert_of_lookup hl]
      exact h
  | sweepExpired now => exact Nat.le_trans (Nat.le_of_eq (HashMap.size_mapValues _ _)) h
  | getTargetCandidates intentId requester => exact h
  | peekInitiator intentId => exact h
  | pendingFor now target => exact h

/-- After every run the registry is within its limit. -/
theorem withinLimit_run (ops : List RendezvousOp) :
    HashMap.size (rendezvousAfter ops) ≤ maxIntents :=
  @run_induction _ _ _ rendezvousStep (fun _ intents => HashMap.size intents ≤ maxIntents) ∅
    (Nat.zero_le _) (fun _ _ op h => withinLimit_step op h) ops

/-! ## Live and settled intents -/

theorem live_of_retained (hp : i.isPending = true) (hr : i.retained now = true) :
    i.live now = true := by
  obtain ⟨initiator, target, initiatorCandidates, targetCandidates, state⟩ := i
  cases state with
  | pending createdAt =>
    simp only [PendingIntent.retained, PendingIntent.live, decide_eq_true_eq, gt_iff_lt,
      UInt64.lt_iff_toNat_lt, toNat_saturatingSub] at hr ⊢
    omega
  | accepted token => cases hp
  | expired => cases hp

theorem live_of_settled (hp : i.isPending = false) : i.live now = false := by
  obtain ⟨initiator, target, initiatorCandidates, targetCandidates, state⟩ := i
  cases state with
  | pending createdAt => cases hp
  | accepted token => rfl
  | expired => rfl

theorem retained_of_settled (hp : i.isPending = false) : i.retained now = true := by
  obtain ⟨initiator, target, initiatorCandidates, targetCandidates, state⟩ := i
  cases state with
  | pending createdAt => cases hp
  | accepted token => rfl
  | expired => rfl

/-- The registration is refused at capacity exactly if pruning leaves a full registry. -/
theorem registerIntent_full_iff {intentId : IntentId} {initiator target : DeviceId}
    {candidates : List Candidate} :
    (registerIntent now intentId initiator target candidates intents).1 =
        .err "Rendezvous registry is at capacity" ↔
      maxIntents ≤ HashMap.size (pruned now intents) := by
  rcases registerIntent_cases now intentId initiator target candidates intents with
    ⟨hfull, h⟩ | ⟨hroom, -, h⟩ | ⟨hroom, -, h⟩
  · rw [h]
    exact iff_of_true rfl hfull
  · rw [h]
    exact iff_of_false (fun he => absurd (Outcome.err.inj he) (by decide)) (Nat.not_le.mpr hroom)
  · rw [h]
    exact iff_of_false (fun he => nomatch he) (Nat.not_le.mpr hroom)

end IntentCapacityLemmas

open IntentCapacityLemmas

/-- After every run, a registration under an unused id gets the capacity error without
`MAX_INTENTS` live intents exactly if the registry is full and holds a settled intent. -/
theorem capacity_error_justified_iff (ops : List RendezvousOp) (op : RendezvousOp) :
    CapacityJustified (stepEntry rendezvousStep (rendezvousAfter ops) op) ↔
      ¬ Exhausted (rendezvousAfter ops) op := by
  have hlimit := withinLimit_run ops
  generalize rendezvousAfter ops = intents at hlimit
  constructor
  · intro hjust hex
    cases op with
    | registerIntent now intentId initiator target candidates =>
      obtain ⟨hunused, hfull, hretained, id, i, hl, hsettled⟩ := hex
      have hpruned : pruned now intents = intents := HashMap.retain_eq_self hretained
      have herr : (registerIntent now intentId initiator target candidates intents).1 =
          .err "Rendezvous registry is at capacity" :=
        registerIntent_full_iff.mpr (by rw [hpruned]; exact hfull)
      have hlive := hjust now intentId initiator target candidates rfl hunused
        (congrArg RendezvousOut.registered herr)
      have hlt : liveCount now intents < HashMap.size intents :=
        HashMap.size_retain_lt hl (live_of_settled hsettled)
      exact Nat.not_lt.mpr hlive (Nat.lt_of_lt_of_le hlt hlimit)
    | _ => exact hex
  · rintro hnot now intentId initiator target candidates rfl hunused hout
    have hfull := registerIntent_full_iff.mp (RendezvousOut.registered.inj hout)
    -- nothing was pruned, so every intent is retained, and by assumption none is settled
    have hsize : HashMap.size intents ≤ HashMap.size (pruned now intents) :=
      Nat.le_trans hlimit hfull
    have hretained : ∀ id i, intents.lookup id = some i → i.retained now = true := fun id i hl =>
      HashMap.retained_of_size_le hsize hl
    have hall : HashMap.retain (fun _ i => PendingIntent.live now i) intents = intents := by
      refine HashMap.retain_eq_self fun id i hl => live_of_retained ?_ (hretained id i hl)
      refine Bool.of_not_eq_false fun hsettled => hnot ⟨hunused, ?_, hretained, id, i, hl, hsettled⟩
      exact Nat.le_trans hfull (HashMap.size_retain_le _ _)
    show maxIntents ≤ liveCount now intents
    rw [liveCount, hall]
    exact Nat.le_trans hfull (HashMap.size_retain_le _ _)

/-! ## A registry full of settled intents -/

namespace IntentCapacityLemmas

open RendezvousLemmas

variable {intents : RendezvousRegistry}

/-- Pruning removes no settled intent. -/
theorem pruned_of_settled (now : UInt64)
    (h : ∀ id i, intents.lookup id = some i → i.isPending = false) : pruned now intents = intents :=
  HashMap.retain_eq_self fun id i hl => retained_of_settled (h id i hl)

/-- A registry full of settled intents. -/
structure FullOfSettled (intents : RendezvousRegistry) : Prop where
  full : maxIntents ≤ HashMap.size intents
  settled : ∀ id i, intents.lookup id = some i → i.isPending = false

theorem registerIntent_of_settled (h : FullOfSettled intents) (now : UInt64) (intentId : IntentId)
    (initiator target : DeviceId) (candidates : List Candidate) :
    registerIntent now intentId initiator target candidates intents =
      (.err "Rendezvous registry is at capacity", intents) := by
  have hpruned := pruned_of_settled now h.settled
  rcases registerIntent_cases now intentId initiator target candidates intents with
    ⟨-, hcall⟩ | ⟨hroom, -⟩ | ⟨hroom, -⟩
  · rw [hcall, hpruned]
  · rw [hpruned] at hroom
    exact absurd h.full (Nat.not_le.mpr hroom)
  · rw [hpruned] at hroom
    exact absurd h.full (Nat.not_le.mpr hroom)

theorem refused_of_settled (h : FullOfSettled intents) (now : UInt64) (intentId : IntentId)
    (initiator target : DeviceId) (candidates : List Candidate) :
    (rendezvousStep intents (.registerIntent now intentId initiator target candidates)).1 =
      .registered (.err "Rendezvous registry is at capacity") :=
  congrArg (fun call => RendezvousOut.registered (Prod.fst call))
    (registerIntent_of_settled h now intentId initiator target candidates)

theorem liveCount_of_settled {now : UInt64}
    (h : ∀ id i, intents.lookup id = some i → i.isPending = false) : liveCount now intents = 0 := by
  refine List.length_eq_zero_iff.mpr (List.filter_eq_nil_iff.mpr fun e he => ?_)
  exact Bool.eq_false_iff.mp (live_of_settled (h e.1 e.2 (HashMap.mem_entries.mp he)))

/-- A completed rendezvous: the intent is registered and accepted. -/
def rendezvous (k : Nat) : List RendezvousOp :=
  [.registerIntent 1 (Bytes.ofNat 16 k) (Bytes.fill 32 1) (Bytes.fill 32 2) [],
    .acceptIntent 1 (some (Bytes.fill 32 3)) (Bytes.ofNat 16 k) (Bytes.fill 32 2) []]

/-- The registry after `n` completed rendezvous. -/
structure Completed (n : Nat) (intents : RendezvousRegistry) : Prop where
  size : HashMap.size intents = n
  settled : ∀ id i, intents.lookup id = some i → i.isPending = false
  fresh : ∀ k, n ≤ k → k < 256 ^ 16 → intents.lookup (Bytes.ofNat 16 k) = none

/-- The first half of a round: there is room, and the id is new. -/
theorem register_round {n : Nat} (h : Completed n intents) (hn : n < maxIntents) :
    registerIntent 1 (Bytes.ofNat 16 n) (Bytes.fill 32 1) (Bytes.fill 32 2) [] intents =
      (.ok (), intents.insert (Bytes.ofNat 16 n)
        ⟨Bytes.fill 32 1, Bytes.fill 32 2, [], [], .pending 1⟩) := by
  have hfresh := h.fresh n (Nat.le_refl n) (Nat.lt_trans hn (by decide))
  have hpruned := pruned_of_settled 1 h.settled
  rcases registerIntent_cases 1 (Bytes.ofNat 16 n) (Bytes.fill 32 1) (Bytes.fill 32 2) [] intents with
    ⟨hfull, -⟩ | ⟨-, hdup, -⟩ | ⟨-, -, hcall⟩
  · rw [hpruned, h.size] at hfull
    exact absurd hn (Nat.not_lt.mpr hfull)
  · rw [hpruned, hfresh] at hdup
    cases hdup
  · rw [hcall, hpruned]

/-- The second half: the target accepts in time, with a token. -/
theorem accept_round (intentId : IntentId) (intents : RendezvousRegistry) :
    (acceptIntent 1 (some (Bytes.fill 32 3)) intentId (Bytes.fill 32 2) []
      (intents.insert intentId ⟨Bytes.fill 32 1, Bytes.fill 32 2, [], [], .pending 1⟩)).2 =
        intents.insert intentId
          ⟨Bytes.fill 32 1, Bytes.fill 32 2, [], [], .accepted (Bytes.fill 32 3)⟩ := by
  rcases acceptIntent_cases 1 (some (Bytes.fill 32 3)) intentId (Bytes.fill 32 2) []
    (intents.insert intentId ⟨Bytes.fill 32 1, Bytes.fill 32 2, [], [], .pending 1⟩) with
    ⟨hno, -⟩ | ⟨i, createdAt, hl, hstate, hlate, -⟩ | ⟨_, _, -, -, -, -, hrandom, -⟩ |
      ⟨i, createdAt, token, hl, -, -, -, hrandom, hcall⟩
  · exact absurd rfl (hno _ 1 (AList.lookup_insert _) rfl).2
  · rw [AList.lookup_insert] at hl
    cases hl
    cases hstate
    exact absurd hlate (by decide)
  · cases hrandom
  · rw [AList.lookup_insert] at hl
    cases hl
    cases hrandom
    rw [hcall, AList.insert_insert]

theorem completed_round {n : Nat} (h : Completed n intents) (hn : n < maxIntents) :
    Completed (n + 1) (endState rendezvousStep intents (rendezvous n)) := by
  have hsmall : n < 256 ^ 16 := Nat.lt_trans hn (by decide)
  have hfresh := h.fresh n (Nat.le_refl n) hsmall
  have hround : endState rendezvousStep intents (rendezvous n) =
      intents.insert (Bytes.ofNat 16 n)
        ⟨Bytes.fill 32 1, Bytes.fill 32 2, [], [], .accepted (Bytes.fill 32 3)⟩ := by
    show (acceptIntent 1 (some (Bytes.fill 32 3)) (Bytes.ofNat 16 n) (Bytes.fill 32 2) []
      (registerIntent 1 (Bytes.ofNat 16 n) (Bytes.fill 32 1) (Bytes.fill 32 2) [] intents).2).2 = _
    rw [register_round h hn]
    exact accept_round _ _
  rw [hround]
  refine ⟨?_, fun id i hl => ?_, fun k hk hlt => ?_⟩
  · rw [HashMap.size_insert_of_fresh hfresh, h.size]
  · rw [HashMap.lookup_insert_eq] at hl
    split at hl
    · cases hl
      rfl
    · exact h.settled id i hl
  · have hne : Bytes.ofNat 16 k ≠ Bytes.ofNat 16 n := fun heq =>
      Nat.ne_of_gt hk (Bytes.ofNat_injective hlt hsmall heq)
    rw [AList.lookup_insert_ne hne]
    exact h.fresh k (Nat.le_of_succ_le hk) hlt

theorem Completed.fullOfSettled (h : Completed maxIntents intents) : FullOfSettled intents :=
  ⟨Nat.le_of_eq h.size.symm, h.settled⟩

theorem completed_rendezvous :
    Completed maxIntents (rendezvousAfter ((List.range maxIntents).flatMap rendezvous)) :=
  endState_rounds ⟨rfl, (fun _ _ hl => nomatch hl), fun _ _ _ => rfl⟩ _
    fun _ hk _ h => completed_round h hk

end IntentCapacityLemmas

/-- After 2048 completed rendezvous a new intent is refused a day later, although no intent is
live. -/
theorem completed_rendezvous_exhaust_registry :
    (rendezvousAfter ((List.range maxIntents).flatMap rendezvous)).lookup
        (Bytes.ofNat 16 maxIntents) = none ∧
      (rendezvousStep (rendezvousAfter ((List.range maxIntents).flatMap rendezvous))
        (.registerIntent 86400001 (Bytes.ofNat 16 maxIntents) (Bytes.fill 32 1) (Bytes.fill 32 2)
          [])).1 = .registered (.err "Rendezvous registry is at capacity") ∧
      liveCount 86400001 (rendezvousAfter ((List.range maxIntents).flatMap rendezvous)) = 0 := by
  refine ⟨completed_rendezvous.fresh maxIntents (Nat.le_refl _) (by decide), ?_, ?_⟩
  · exact refused_of_settled completed_rendezvous.fullOfSettled _ _ _ _ _
  · exact liveCount_of_settled completed_rendezvous.settled

end Blackwing.Relay

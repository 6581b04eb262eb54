import Blackwing.Relay.IntentCapacity

/-!
# The timeout of connect intents

Three functions of `rendezvous.rs` judge the age of a `Pending` intent.
`accept_intent` compares the age with `INTENT_TIMEOUT_MS`; `pending_for` and the
pruning step of `register_intent` compare the creation time with the cut-off
`now - INTENT_TIMEOUT_MS`, which stops at zero.

All three come down to a comparison of the creation time with the cut-off
(`mem_pendingFor`, `acceptIntent_ok_iff`, `lookup_registerIntent`), and they agree
but at the cut-off itself: there an intent can still be accepted, is no longer
listed and is pruned (`expiry_consistent_iff`). On a clock that is not yet past
the timeout the cut-off is zero, and an intent created at zero is in this position
from the start.
-/

namespace Blackwing.Relay

open RendezvousRegistry

/-- The intent `intentId` is listed to the device `d`. -/
def ListedFor (intents : RendezvousRegistry) (now : UInt64) (d : DeviceId) (intentId : IntentId) :
    Prop :=
  ∃ initiator, (intentId, initiator) ∈ pendingFor intents now d

/-- The device `d` can accept the intent `intentId` with these candidates, if the random source
gives this token. -/
def AcceptableBy (intents : RendezvousRegistry) (now : UInt64) (d : DeviceId) (intentId : IntentId)
    (relayToken : RelayToken) (candidates : List Candidate) : Prop :=
  ∃ r, (acceptIntent now (some relayToken) intentId d candidates intents).1 = .ok r

/-- No registration at this time removes or replaces the intent `intentId`. -/
def KeptByRegistration (intents : RendezvousRegistry) (now : UInt64) (intentId : IntentId) : Prop :=
  ∀ id initiator target candidates,
    (registerIntent now id initiator target candidates intents).2.lookup intentId =
      intents.lookup intentId

/-- The intent `intentId` waits for `d` and was created at the cut-off. -/
def AtCutOff (intents : RendezvousRegistry) (now : UInt64) (d : DeviceId) (intentId : IntentId) :
    Prop :=
  ∃ intent, intents.lookup intentId = some intent ∧ intent.target = d ∧
    intent.state = .pending (saturatingSub now intentTimeoutMs)

namespace ExpiryLemmas

open RendezvousLemmas

variable {intents : RendezvousRegistry} {now : UInt64} {d : DeviceId} {intentId : IntentId}

theorem age_le_iff {createdAt : UInt64} :
    saturatingSub now createdAt ≤ intentTimeoutMs ↔ saturatingSub now intentTimeoutMs ≤ createdAt := by
  rw [UInt64.le_iff_toNat_le, UInt64.le_iff_toNat_le, toNat_saturatingSub, toNat_saturatingSub]
  omega

theorem mem_pendingFor :
    ListedFor intents now d intentId ↔
      ∃ intent createdAt, intents.lookup intentId = some intent ∧ intent.target = d ∧
        intent.state = .pending createdAt ∧ saturatingSub now intentTimeoutMs < createdAt := by
  unfold ListedFor pendingFor
  constructor
  · rintro ⟨initiator, hmem⟩
    obtain ⟨⟨id, intent⟩, hentry, hsome⟩ := List.mem_filterMap.mp hmem
    dsimp only at hsome
    split at hsome
    · next htarget =>
      split at hsome
      · next createdAt hstate =>
        split at hsome
        · next hfresh =>
          cases hsome
          exact ⟨intent, createdAt, HashMap.mem_entries.mp hentry, htarget, hstate, hfresh⟩
        · exact nomatch hsome
      · exact nomatch hsome
    · exact nomatch hsome
  · rintro ⟨intent, createdAt, hlookup, htarget, hstate, hfresh⟩
    refine ⟨intent.initiator, List.mem_filterMap.mpr ⟨_, HashMap.mem_entries.mpr hlookup, ?_⟩⟩
    dsimp only
    rw [if_pos htarget, hstate]
    exact if_pos hfresh

theorem acceptIntent_ok_iff {relayToken : RelayToken} {candidates : List Candidate} :
    AcceptableBy intents now d intentId relayToken candidates ↔
      ∃ intent createdAt, intents.lookup intentId = some intent ∧ intent.target = d ∧
        intent.state = .pending createdAt ∧ saturatingSub now intentTimeoutMs ≤ createdAt := by
  unfold AcceptableBy
  rcases acceptIntent_cases now (some relayToken) intentId d candidates intents with
    ⟨hnone, e, hcall⟩ | ⟨intent, createdAt, hlookup, hstate, hold, hcall⟩ |
    ⟨_, _, _, _, _, _, hrandom, _⟩ |
    ⟨intent, createdAt, token, hlookup, hstate, hage, htarget, -, hcall⟩
  · rw [hcall]
    refine iff_of_false (fun ⟨_, h⟩ => nomatch h) ?_
    rintro ⟨intent, createdAt, hlookup, htarget, hstate, -⟩
    exact (hnone intent createdAt hlookup hstate).2 htarget
  · rw [hcall]
    refine iff_of_false (fun ⟨_, h⟩ => nomatch h) ?_
    rintro ⟨intent', createdAt', hlookup', -, hstate', hcut⟩
    cases hlookup.symm.trans hlookup'
    cases hstate.symm.trans hstate'
    exact UInt64.not_lt.mpr (age_le_iff.mpr hcut) hold
  · exact nomatch hrandom
  · rw [hcall]
    exact iff_of_true ⟨_, rfl⟩ ⟨intent, createdAt, hlookup, htarget, hstate, age_le_iff.mp hage⟩

/-- A registration keeps every `Pending` intent created after the cut-off: it is not pruned, and
its id is refused as a duplicate. -/
theorem lookup_registerIntent {intent : PendingIntent} {createdAt : UInt64}
    (hlookup : intents.lookup intentId = some intent) (hstate : intent.state = .pending createdAt)
    (hfresh : saturatingSub now intentTimeoutMs < createdAt) :
    KeptByRegistration intents now intentId := by
  intro id initiator target candidates
  have hpruned : (pruned now intents).lookup intentId = intents.lookup intentId := by
    rw [lookup_pruned, hlookup, Option.filter_some]
    refine if_pos ?_
    simpa [PendingIntent.retained, hstate] using hfresh
  rcases registerIntent_cases now id initiator target candidates intents with
    ⟨-, hcall⟩ | ⟨-, -, hcall⟩ | ⟨-, hunused, hcall⟩
  · rw [hcall, hpruned]
  · rw [hcall, hpruned]
  · have hother : intentId ≠ id := by
      rintro rfl
      rw [hpruned, hlookup] at hunused
      simp [PendingIntent.isPending, hstate] at hunused
    rw [hcall]
    exact (AList.lookup_insert_ne hother).trans hpruned

/-- The three judgements of one intent agree exactly if it is not at the cut-off. -/
theorem consistent_iff (intents : RendezvousRegistry) (now : UInt64) (d : DeviceId)
    (intentId : IntentId) (relayToken : RelayToken) (candidates : List Candidate) :
    ((ListedFor intents now d intentId ↔
        AcceptableBy intents now d intentId relayToken candidates) ∧
      (AcceptableBy intents now d intentId relayToken candidates →
        KeptByRegistration intents now intentId)) ↔
    ¬ AtCutOff intents now d intentId := by
  rw [mem_pendingFor, acceptIntent_ok_iff]
  constructor
  · rintro ⟨hsame, -⟩ ⟨intent, hlookup, htarget, hstate⟩
    obtain ⟨intent', createdAt, hlookup', -, hstate', hfresh⟩ :=
      hsame.mpr ⟨intent, _, hlookup, htarget, hstate, UInt64.le_refl _⟩
    cases hlookup.symm.trans hlookup'
    cases hstate.symm.trans hstate'
    exact UInt64.lt_irrefl _ hfresh
  · intro hoff
    -- whatever can be accepted was created after the cut-off
    have hfresh : ∀ intent createdAt, intents.lookup intentId = some intent → intent.target = d →
        intent.state = .pending createdAt → saturatingSub now intentTimeoutMs ≤ createdAt →
        saturatingSub now intentTimeoutMs < createdAt := by
      intro intent createdAt hlookup htarget hstate hcut
      refine UInt64.lt_of_le_of_ne hcut fun heq => hoff ⟨intent, hlookup, htarget, ?_⟩
      rw [heq, hstate]
    refine ⟨⟨?_, ?_⟩, ?_⟩
    · rintro ⟨intent, createdAt, hlookup, htarget, hstate, hcut⟩
      exact ⟨intent, createdAt, hlookup, htarget, hstate, UInt64.le_of_lt hcut⟩
    · rintro ⟨intent, createdAt, hlookup, htarget, hstate, hcut⟩
      exact ⟨intent, createdAt, hlookup, htarget, hstate,
        hfresh intent createdAt hlookup htarget hstate hcut⟩
    · rintro ⟨intent, createdAt, hlookup, htarget, hstate, hcut⟩
      exact lookup_registerIntent hlookup hstate
        (hfresh intent createdAt hlookup htarget hstate hcut)

end ExpiryLemmas

/-- In every reachable registry, at every time: the intent is listed exactly if it can be accepted,
and a registration keeps what can be accepted, unless the intent was created exactly at the
cut-off. -/
theorem expiry_consistent_iff (ops : List RendezvousOp) (now : UInt64) (d : DeviceId)
    (intentId : IntentId) (relayToken : RelayToken) (candidates : List Candidate) :
    ((ListedFor (rendezvousAfter ops) now d intentId ↔
        AcceptableBy (rendezvousAfter ops) now d intentId relayToken candidates) ∧
      (AcceptableBy (rendezvousAfter ops) now d intentId relayToken candidates →
        KeptByRegistration (rendezvousAfter ops) now intentId)) ↔
    ¬ AtCutOff (rendezvousAfter ops) now d intentId :=
  ExpiryLemmas.consistent_iff (rendezvousAfter ops) now d intentId relayToken candidates

/-- A registry that took one intent, at the time 5000. -/
def oneIntent : RendezvousRegistry :=
  rendezvousAfter [.registerIntent 5000 (Bytes.fill 16 7) (Bytes.fill 32 1) (Bytes.fill 32 2) []]

/-- An intent of age `INTENT_TIMEOUT_MS`: its target is not told of it, although it could accept
it, and a registration by another device removes it. -/
theorem acceptable_unlisted_at_timeout :
    pendingFor oneIntent 35000 (Bytes.fill 32 2) = [] ∧
      (acceptIntent 35000 (some (Bytes.fill 32 9)) (Bytes.fill 16 7) (Bytes.fill 32 2) []
        oneIntent).1 = .ok (Bytes.fill 32 1, [], Bytes.fill 32 9) ∧
      (registerIntent 35000 (Bytes.fill 16 8) (Bytes.fill 32 3) (Bytes.fill 32 4) []
        oneIntent).2.lookup (Bytes.fill 16 7) = none := by
  decide +kernel

end Blackwing.Relay

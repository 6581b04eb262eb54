import Blackwing.Protocol.Encryption
import Blackwing.Protocol.Reliability

/-!
# The rule of the replay windows

`ReplayProtection` and `DuplicateFilter` each keep the largest value they have accepted and a mask
of 64 bits. The rule they implement needs neither: a value is accepted when it was never accepted
before and lies less than 64 below the largest accepted one.

* `replayAnswers`, `filterAnswers`: what the two answer to a sequence of values.
* `replay_windows_exact`: both follow the rule on every sequence, so they agree.
-/

namespace Blackwing.Protocol

/-- The counters fed to a new `ReplayProtection`, in nonces of any epochs, with its answers. -/
def replayAnswers (fed : List (UInt32 × UInt64)) : Answers :=
  (run (fun self nonce => ReplayProtection.protectReplay nonce self) ReplayProtection.new
    (fed.map fun p => Nonce.new p.1 p.2)).map fun e => (e.input.counter, decide (e.out = .ok ()))

/-- The values fed to a new `DuplicateFilter`, with its answers: `true` for a value that is not a
duplicate. -/
def filterAnswers (values : List UInt64) : Answers :=
  (run (fun self seq => DuplicateFilter.checkAndTrack seq self) DuplicateFilter.new values).map
    fun e => (e.input, !e.out)

namespace WindowRuleLemmas

open EncryptionLemmas

/-- The window of a `ReplayProtection`. -/
def replayWindow (self : ReplayProtection) : UInt64 × UInt64 := (self.maxCounter, self.receivedMask)

/-- The window of a `DuplicateFilter`. -/
def filterWindow (self : DuplicateFilter) : UInt64 × UInt64 := (self.maxReceived, self.receivedMask)

theorem protectReplay_offer (self : ReplayProtection) (nonce : Nonce) :
    offer (replayWindow self) nonce.counter =
      (decide ((ReplayProtection.protectReplay nonce self).1 = .ok ()),
        replayWindow (ReplayProtection.protectReplay nonce self).2) := by
  unfold offer ReplayProtection.protectReplay replayWindow
  cases slide self.maxCounter self.receivedMask nonce.counter <;> simp

theorem checkAndTrack_offer (self : DuplicateFilter) (seq : SequenceNumber) :
    offer (filterWindow self) seq =
      (!(self.checkAndTrack seq).1, filterWindow (self.checkAndTrack seq).2) := by
  unfold offer DuplicateFilter.checkAndTrack filterWindow
  cases slide self.maxReceived self.receivedMask seq <;> simp

theorem replayAnswers_eq (fed : List (UInt32 × UInt64)) :
    replayAnswers fed =
      (run offer (0, 0) (fed.map Prod.snd)).map fun e => (e.input, e.out) := by
  have hvalues : fed.map Prod.snd = (fed.map fun p => Nonce.new p.1 p.2).map Nonce.counter := by
    simp
  have hrun := run_simulates replayWindow Nonce.counter
    (fun o : Outcome ProtocolError Unit => decide (o = .ok ())) protectReplay_offer
    ReplayProtection.new (fed.map fun p => Nonce.new p.1 p.2)
  rw [hvalues]
  show _ = (run offer (replayWindow ReplayProtection.new) _).map _
  rw [hrun, List.map_map]
  rfl

theorem filterAnswers_eq (values : List UInt64) :
    filterAnswers values = (run offer (0, 0) values).map fun e => (e.input, e.out) := by
  have hrun := run_simulates filterWindow id (fun o : Bool => !o) checkAndTrack_offer
    DuplicateFilter.new values
  rw [List.map_id] at hrun
  show _ = (run offer (filterWindow DuplicateFilter.new) _).map _
  rw [hrun, List.map_map]
  rfl

end WindowRuleLemmas

open WindowRuleLemmas

/-- On every sequence of 64-bit values, both accept exactly the values that the rule accepts, and
therefore the same ones. -/
theorem replay_windows_exact (fed : List (UInt32 × UInt64)) :
    (replayAnswers fed).FollowsRule ∧ (filterAnswers (fed.map Prod.snd)).FollowsRule ∧
      replayAnswers fed = filterAnswers (fed.map Prod.snd) := by
  rw [replayAnswers_eq, filterAnswers_eq]
  exact ⟨offer_followsRule _, offer_followsRule _, rfl⟩

end Blackwing.Protocol

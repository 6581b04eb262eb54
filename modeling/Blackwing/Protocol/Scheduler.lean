import Blackwing.Lib.Loop
import Mathlib.Data.Fin.VecNotation
import Mathlib.Data.Fintype.Basic

/-!
# The stream scheduler

`bw-protocol/src/scheduler.rs`: seven queues of payloads. Stream 0 is drained first;
streams 1 to 6 take turns by deficit round robin. A cursor below 6 is part of the
type, and so is a stream index below 7. An overflowing `+` or `*` is a panic.

The loop of `dequeue_next` has no bound of its own, so a call is given a number of
passes and has no result when they are used up.

* `Turned`, `turn_turned`: everything one pass of the loop can do.
* `dequeueNext_cases`: a call serves stream 0 or runs the loop.
-/

namespace Blackwing.Protocol

/-! ## Constants -/

/-- `NUM_DRR_STREAMS`, one less than `NUM_STREAMS`. -/
abbrev numDrrStreams : Nat := 6

/-- `NUM_STREAMS`. -/
abbrev numStreams : Nat := numDrrStreams + 1

/-- Found before the instances for sums, so that stream 0 is written with one proof. -/
instance (priority := 2000) : NeZero numStreams := ⟨Nat.succ_ne_zero _⟩

/-- `DEFAULT_QUANTUM`. -/
def defaultQuantum : UInt64 := 1500

/-- `DEFAULT_WEIGHTS`. -/
def defaultWeights : Fin numStreams → UInt64 := ![0, 6, 5, 3, 4, 2, 1]

/-- `SchedulerError`. -/
inductive SchedulerError where
  | invalidStreamId (streamId : UInt8)
deriving DecidableEq, Repr

/-! ## The scheduler -/

/-- `DrrScheduler`. -/
structure DrrScheduler where
  queues : Fin numStreams → List (List UInt8)
  deficits : Fin numStreams → UInt64
  weights : Fin numStreams → UInt64
  quantum : UInt64
  cursor : Fin numDrrStreams
  roundStart : Fin numDrrStreams
  round : UInt64
  creditedRound : Fin numStreams → UInt64
deriving DecidableEq

/-- What `dequeue_next` returns: a stream and a payload of it. -/
abbrev Dequeued : Type := Option (Fin numStreams × List UInt8)

/-- The stamp of a stream that was never credited, `u64::MAX`. -/
def neverCredited : UInt64 := 0xFFFFFFFFFFFFFFFF

namespace DrrScheduler

/-- `DrrScheduler::with_quantum`. -/
def withQuantum (quantum : UInt64) : DrrScheduler where
  queues := fun _ => []
  deficits := fun _ => 0
  weights := defaultWeights
  quantum := quantum
  cursor := 0
  roundStart := 0
  round := 0
  creditedRound := fun _ => neverCredited

/-- `DrrScheduler::new`. -/
def new : DrrScheduler := withQuantum defaultQuantum

/-- `DrrScheduler::stream_index`. -/
def streamIndex (streamId : UInt8) : Outcome SchedulerError (Fin numStreams) :=
  if h : streamId.toNat < numStreams then .ok ⟨streamId.toNat, h⟩
  else .err (.invalidStreamId streamId)

/-- The scheduler with another queue for one stream. -/
def setQueue (self : DrrScheduler) (s : Fin numStreams) (queue : List (List UInt8)) : DrrScheduler :=
  { self with queues := Function.update self.queues s queue }

/-- The scheduler with another deficit for one stream. -/
def setDeficit (self : DrrScheduler) (s : Fin numStreams) (deficit : UInt64) : DrrScheduler :=
  { self with deficits := Function.update self.deficits s deficit }

/-- The scheduler with the current round noted as the last credited one of a stream. -/
def stamp (self : DrrScheduler) (s : Fin numStreams) : DrrScheduler :=
  { self with creditedRound := Function.update self.creditedRound s self.round }

/-- `DrrScheduler::enqueue`. -/
def enqueue (streamId : UInt8) (data : List UInt8) : Call DrrScheduler SchedulerError Unit := do
  let idx ← Call.ofOutcome (streamIndex streamId)
  Call.update fun self => self.setQueue idx (self.queues idx ++ [data])

/-- The credit at the start of a turn, once per round. -/
def credit (s : Fin numStreams) : Call DrrScheduler Empty Unit := do
  let self ← Call.getState
  if self.creditedRound s ≠ self.round then
    let amount ← Call.ofOutcome (.mul64 (self.weights s) self.quantum)
    let deficit ← Call.ofOutcome (.add64 (self.deficits s) amount)
    Call.update fun self => (self.setDeficit s deficit).stamp s
  else pure ()

/-- `self.queues[1..].iter().all(VecDeque::is_empty)`. -/
def DrrIdle (self : DrrScheduler) : Prop := ∀ i : Fin numDrrStreams, self.queues i.succ = []

instance (self : DrrScheduler) : Decidable self.DrrIdle :=
  inferInstanceAs (Decidable (∀ i : Fin numDrrStreams, self.queues i.succ = []))

/-- The end of a circuit: the round counter moves when the cursor is back at its start. -/
def closeRound : Call DrrScheduler Empty Unit := do
  let self ← Call.getState
  if self.cursor = self.roundStart then
    let round ← Call.ofOutcome (.add64 self.round 1)
    Call.update fun self => { self with round := round, roundStart := self.cursor }
  else pure ()

/-- The end of a turn: the cursor moves on, a full circuit closes the round, and the loop
returns `None` when no stream has anything queued. -/
def endTurn : Call DrrScheduler Empty (Option Dequeued) := do
  Call.update fun self => { self with cursor := self.cursor + 1 }
  closeRound
  let self ← Call.getState
  if self.DrrIdle then pure (some none) else pure none

/-- One pass of the loop of `dequeue_next`. -/
def turn : Call DrrScheduler Empty (Option Dequeued) := do
  let self ← Call.getState
  let s := self.cursor.succ
  match self.queues s with
  | front :: rest =>
    credit s
    let self ← Call.getState
    if front.length ≤ (self.deficits s).toNat then
      Call.update fun self =>
        (self.setQueue s rest).setDeficit s (self.deficits s - UInt64.ofNat front.length)
      pure (some (some (s, front)))
    else endTurn
  | [] =>
    -- an inactive stream holds no deficit
    Call.update fun self => self.setDeficit s 0
    endTurn

/-- `DrrScheduler::dequeue_next`, given a number of passes of its loop. -/
def dequeueNext (passes : Nat) (self : DrrScheduler) :
    Option (Outcome Empty Dequeued × DrrScheduler) :=
  match self.queues 0 with
  | data :: rest => some (.ok (some (0, data)), self.setQueue 0 rest)
  | [] => Call.loop turn passes self

/-- `DrrScheduler::is_empty`. -/
def IsEmpty (self : DrrScheduler) : Prop := ∀ s, self.queues s = []

instance (self : DrrScheduler) : Decidable self.IsEmpty :=
  inferInstanceAs (Decidable (∀ s, self.queues s = []))

/-! ## What a pass can do -/

/-- The stream whose turn it is. -/
abbrev current (self : DrrScheduler) : Fin numStreams := self.cursor.succ

/-- The state after the credit of the current stream. -/
inductive Paid (self : DrrScheduler) : DrrScheduler → Prop
  | credited (d : UInt64) (hdue : self.creditedRound self.current ≠ self.round)
      (hd : d.toNat = (self.deficits self.current).toNat +
        (self.weights self.current).toNat * self.quantum.toNat) :
      Paid self ((self.setDeficit self.current d).stamp self.current)
  | already (hdue : self.creditedRound self.current = self.round) : Paid self self

/-- The state after the end of a turn: the cursor moved, and a full circuit closed the round. -/
inductive MovedOn (self : DrrScheduler) : DrrScheduler → Prop
  | within (hwithin : self.cursor + 1 ≠ self.roundStart) :
      MovedOn self { self with cursor := self.cursor + 1 }
  | around (round : UInt64) (haround : self.cursor + 1 = self.roundStart)
      (hround : round.toNat = self.round.toNat + 1) :
      MovedOn self { self with
        cursor := self.cursor + 1
        round := round
        roundStart := self.cursor + 1 }

/-- Everything one pass can do, with how the loop ends; `none` when it goes round again. -/
inductive Turned (self : DrrScheduler) : Option (Outcome Empty Dequeued) → DrrScheduler → Prop
  /-- The front payload fits in the deficit. -/
  | served (paid : DrrScheduler) (front : List UInt8) (rest : List (List UInt8)) (d : UInt64)
      (hqueue : self.queues self.current = front :: rest) (hpaid : Paid self paid)
      (hd : d.toNat + front.length = (paid.deficits self.current).toNat) :
      Turned self (some (.ok (some (self.current, front))))
        ((paid.setQueue self.current rest).setDeficit self.current d)
  /-- The front payload does not fit: the deficit is kept for the next round. -/
  | saved (paid next : DrrScheduler) (front : List UInt8) (rest : List (List UInt8))
      (hqueue : self.queues self.current = front :: rest) (hpaid : Paid self paid)
      (hshort : (paid.deficits self.current).toNat < front.length) (hnext : MovedOn paid next) :
      Turned self none next
  /-- The stream has nothing queued, but another one has. -/
  | skipped (next : DrrScheduler) (hqueue : self.queues self.current = [])
      (hbusy : ¬ self.DrrIdle) (hnext : MovedOn (self.setDeficit self.current 0) next) :
      Turned self none next
  /-- No stream has anything queued. -/
  | idle (next : DrrScheduler) (hidle : self.DrrIdle)
      (hnext : MovedOn (self.setDeficit self.current 0) next) :
      Turned self (some (.ok none)) next
  /-- A product, a sum or the round counter overflowed; no payload is lost. -/
  | panicked (next : DrrScheduler) (hqueues : next.queues = self.queues) :
      Turned self (some .panicked) next

end DrrScheduler

namespace SchedulerLemmas

open DrrScheduler

variable {self paid next : DrrScheduler}

section

variable (s : Fin numStreams)

@[simp] theorem queues_setQueue (t : Fin numStreams) (queue : List (List UInt8)) :
    (self.setQueue s queue).queues t = if t = s then queue else self.queues t :=
  Function.update_apply self.queues s queue t

@[simp] theorem queues_setDeficit (d : UInt64) :
    (self.setDeficit s d).queues = self.queues := rfl

@[simp] theorem deficits_setDeficit (t : Fin numStreams) (d : UInt64) :
    (self.setDeficit s d).deficits t = if t = s then d else self.deficits t :=
  Function.update_apply self.deficits s d t

@[simp] theorem deficits_stamp : (self.stamp s).deficits = self.deficits := rfl

@[simp] theorem creditedRound_stamp (t : Fin numStreams) :
    (self.stamp s).creditedRound t = if t = s then self.round else self.creditedRound t :=
  Function.update_apply self.creditedRound s self.round t

@[simp] theorem creditedRound_setDeficit (d : UInt64) :
    (self.setDeficit s d).creditedRound = self.creditedRound := rfl

end

theorem streamIndex_cases (streamId : UInt8) :
    (∃ idx : Fin numStreams, idx.val = streamId.toNat ∧ streamIndex streamId = .ok idx) ∨
      (numStreams ≤ streamId.toNat ∧ streamIndex streamId = .err (.invalidStreamId streamId)) := by
  unfold streamIndex
  split
  · next h => exact Or.inl ⟨_, rfl, rfl⟩
  · next h => exact Or.inr ⟨Nat.not_lt.mp h, rfl⟩

theorem credit_cases (self : DrrScheduler) :
    (∃ paid, Paid self paid ∧ credit self.current self = (.ok (), paid)) ∨
      credit self.current self = (.panicked, self) := by
  unfold credit
  rw [Call.getState_bind]
  by_cases hdue : self.creditedRound self.current ≠ self.round
  · rw [if_pos hdue]
    rcases Outcome.mul64_cases (ε := Empty) (self.weights self.current) self.quantum with
      ⟨amount, hamount, hmul⟩ | ⟨-, hmul⟩
    · rw [hmul, Call.ofOutcome_ok_bind]
      rcases Outcome.add64_cases (ε := Empty) (self.deficits self.current) amount with
        ⟨d, hd, hadd⟩ | ⟨-, hadd⟩
      · rw [hadd, Call.ofOutcome_ok_bind]
        exact Or.inl ⟨_, .credited d hdue (by rw [hd, hamount]), rfl⟩
      · rw [hadd, Call.ofOutcome_panicked_bind]
        exact Or.inr rfl
    · rw [hmul, Call.ofOutcome_panicked_bind]
      exact Or.inr rfl
  · rw [if_neg hdue]
    exact Or.inl ⟨self, .already (not_not.mp hdue), rfl⟩

theorem closeRound_cases (self : DrrScheduler) :
    (∃ next, MovedOn self next ∧
      closeRound { self with cursor := self.cursor + 1 } = (.ok (), next)) ∨
    closeRound { self with cursor := self.cursor + 1 } =
      (.panicked, { self with cursor := self.cursor + 1 }) := by
  unfold closeRound
  rw [Call.getState_bind]
  by_cases haround : self.cursor + 1 = self.roundStart
  · rw [if_pos haround]
    rcases Outcome.add64_cases (ε := Empty) self.round 1 with ⟨round, hround, hadd⟩ | ⟨-, hadd⟩
    · rw [hadd, Call.ofOutcome_ok_bind]
      exact Or.inl ⟨_, .around round haround hround, rfl⟩
    · rw [hadd, Call.ofOutcome_panicked_bind]
      exact Or.inr rfl
  · rw [if_neg haround]
    exact Or.inl ⟨_, .within haround, rfl⟩

theorem queues_movedOn (h : MovedOn self next) : next.queues = self.queues := by
  cases h with
  | within => rfl
  | around => rfl

theorem endTurn_cases (self : DrrScheduler) :
    (∃ next, MovedOn self next ∧
      endTurn self = (.ok (if self.DrrIdle then some none else none), next)) ∨
    (∃ next, next.queues = self.queues ∧ endTurn self = (.panicked, next)) := by
  unfold endTurn
  rw [Call.update_bind]
  rcases closeRound_cases self with ⟨next, hnext, hclose⟩ | hclose
  · refine Or.inl ⟨next, hnext, ?_⟩
    have hidle : next.DrrIdle ↔ self.DrrIdle := by
      unfold DrrIdle
      rw [queues_movedOn hnext]
    rw [Call.bind_of_ok hclose, Call.getState_bind]
    by_cases h : self.DrrIdle
    · rw [if_pos (hidle.mpr h), if_pos h, Call.pure_apply]
    · rw [if_neg (hidle.not.mpr h), if_neg h, Call.pure_apply]
  · exact Or.inr ⟨{ self with cursor := self.cursor + 1 }, rfl, Call.bind_of_panicked hclose _⟩

theorem queues_paid (h : Paid self paid) : paid.queues = self.queues := by
  cases h with
  | credited => rfl
  | already => rfl

theorem turn_of_cons {front : List UInt8} {rest : List (List UInt8)}
    (h : self.queues self.current = front :: rest) : Turned self (turn self).1.ended (turn self).2 := by
  have hturn : turn self = (credit self.current >>= fun _ => Call.getState >>= fun self' =>
      if front.length ≤ (self'.deficits self.current).toNat then
        (Call.update fun self' => (self'.setQueue self.current rest).setDeficit self.current
          (self'.deficits self.current - UInt64.ofNat front.length)) >>= fun _ =>
            pure (some (some (self.current, front)))
      else endTurn) self := by
    unfold turn
    rw [Call.getState_bind]
    simp only [h]
  rw [hturn]
  rcases credit_cases self with ⟨paid, hpaid, hcredit⟩ | hcredit
  · rw [Call.bind_of_ok hcredit, Call.getState_bind]
    by_cases hfit : front.length ≤ (paid.deficits self.current).toNat
    · rw [if_pos hfit, Call.update_bind, Call.pure_apply]
      refine .served paid front rest _ h hpaid ?_
      have hlt : front.length < 2 ^ 64 := Nat.lt_of_le_of_lt hfit (UInt64.toNat_lt _)
      have hlen : (UInt64.ofNat front.length).toNat = front.length := by
        rw [UInt64.toNat_ofNat', Nat.mod_eq_of_lt hlt]
      rw [UInt64.toNat_sub_of_le _ _ (by rw [UInt64.le_iff_toNat_le, hlen]; exact hfit), hlen]
      exact Nat.sub_add_cancel hfit
    · rw [if_neg hfit]
      have hbusy : ¬ paid.DrrIdle := fun hidle => by
        have := hidle self.cursor
        rw [queues_paid hpaid, h] at this
        exact nomatch this
      rcases endTurn_cases paid with ⟨next, hnext, hend⟩ | ⟨next, hnext, hend⟩
      · rw [hend, if_neg hbusy]
        exact .saved paid next front rest h hpaid (Nat.not_le.mp hfit) hnext
      · rw [hend]
        exact .panicked next (hnext.trans (queues_paid hpaid))
  · rw [Call.bind_of_panicked hcredit]
    exact .panicked self rfl

theorem turn_of_nil (h : self.queues self.current = []) :
    Turned self (turn self).1.ended (turn self).2 := by
  have hturn : turn self = endTurn (self.setDeficit self.current 0) := by
    unfold turn
    rw [Call.getState_bind]
    simp only [h]
    rw [Call.update_bind]
  rw [hturn]
  rcases endTurn_cases (self.setDeficit self.current 0) with
    ⟨next, hnext, hend⟩ | ⟨next, hnext, hend⟩
  · rw [hend]
    by_cases hidle : (self.setDeficit self.current 0).DrrIdle
    · rw [if_pos hidle]
      exact .idle next hidle hnext
    · rw [if_neg hidle]
      exact .skipped next h hidle hnext
  · rw [hend]
    exact .panicked next hnext

/-- One pass of the loop is one of the five. -/
theorem turn_turned (self : DrrScheduler) : Turned self (turn self).1.ended (turn self).2 := by
  cases h : self.queues self.current with
  | nil => exact turn_of_nil h
  | cons front rest => exact turn_of_cons h

theorem turned_of_ended {r : Option (Outcome Empty Dequeued)} (h : (turn self).1.ended = r) :
    Turned self r (turn self).2 :=
  h ▸ turn_turned self

/-- A call serves stream 0, or runs the loop when it is empty. -/
theorem dequeueNext_cases (passes : Nat) (self : DrrScheduler) :
    (∃ data rest, self.queues 0 = data :: rest ∧
      dequeueNext passes self = some (.ok (some (0, data)), self.setQueue 0 rest)) ∨
    (self.queues 0 = [] ∧ dequeueNext passes self = Call.loop turn passes self) := by
  unfold dequeueNext
  cases self.queues 0 with
  | nil => exact Or.inr ⟨rfl, rfl⟩
  | cons data rest => exact Or.inl ⟨data, rest, rfl, rfl⟩

end SchedulerLemmas

end Blackwing.Protocol

import Blackwing.Protocol.SchedulerRuns
import Mathlib.Algebra.BigOperators.Fin
import Mathlib.Algebra.Order.BigOperators.Group.Finset

/-!
# The scheduler's loop ends

A pass that serves nothing moves the cursor. A stream with a payload at its front is
credited at least one byte in each round, so its deficit grows until the payload fits.
The rank of a state counts the passes until then.

* `Rounds`: the stamps of the streams agree with the cursor and the round counter.
* `reachable_rounds`: this holds in every state reached without an overflow.
* `dequeueNext_returns`: a call returns within a number of passes that is linear in the
  lengths of the front payloads, and it returns `None` exactly when every queue is empty.
-/

namespace Blackwing.Protocol

open DrrScheduler SchedulerLemmas SchedulerRunsLemmas

/-- The stamps of the streams. A stream was last credited in an earlier round, or in this round
and the cursor has reached it, or never. -/
structure Rounds (quantum : UInt64) (st : DrrScheduler) : Prop where
  quantum_eq : st.quantum = quantum
  weights_eq : st.weights = defaultWeights
  start : st.roundStart = 0
  stamps : ∀ s, (st.creditedRound s).toNat < st.round.toNat ∨
    (st.creditedRound s = st.round ∧ s.val ≤ st.cursor.val + 1) ∨
    st.creditedRound s = neverCredited

/-- What a pass does to the cursor and the round counter. -/
inductive Ticked (self next : DrrScheduler) : Prop
  | stayed (hcursor : next.cursor = self.cursor) (hround : next.round = self.round)
  | within (hcursor : next.cursor.val = self.cursor.val + 1) (hround : next.round = self.round)
  | around (hlast : self.cursor.val = 5) (hcursor : next.cursor.val = 0)
      (hround : next.round.toNat = self.round.toNat + 1)

namespace SchedulerProgressLemmas

variable {self paid next : DrrScheduler} {r : Option (Outcome Empty Dequeued)} {s : Fin numStreams}
  {quantum : UInt64}

theorem cursor_lt (self : DrrScheduler) : self.cursor.val < 6 := self.cursor.isLt

theorem movedOn_ticked (h : MovedOn self next) (hstart : self.roundStart = 0) :
    Ticked self next ∧ next.roundStart = 0 := by
  have hlt := cursor_lt self
  have hval : (self.cursor + 1).val = (self.cursor.val + 1) % 6 := by
    rw [Fin.val_add]
    rfl
  cases h with
  | within hwithin =>
    refine ⟨.within ?_ rfl, hstart⟩
    have hne : (self.cursor + 1).val ≠ 0 := fun h0 => hwithin (by rw [hstart]; exact Fin.ext h0)
    show (self.cursor + 1).val = _
    omega
  | around round haround hround =>
    have h0 : (self.cursor + 1).val = 0 := by
      rw [haround, hstart]
      rfl
    exact ⟨.around (by omega) h0 hround, haround.trans hstart⟩

theorem movedOn_keeps (h : MovedOn self next) :
    next.creditedRound = self.creditedRound ∧ next.deficits = self.deficits ∧
      next.quantum = self.quantum ∧ next.weights = self.weights := by
  cases h with
  | within => exact ⟨rfl, rfl, rfl, rfl⟩
  | around => exact ⟨rfl, rfl, rfl, rfl⟩

theorem paid_clock (h : Paid self paid) :
    paid.cursor = self.cursor ∧ paid.round = self.round ∧ paid.roundStart = self.roundStart ∧
      paid.quantum = self.quantum ∧ paid.weights = self.weights := by
  cases h with
  | credited => exact ⟨rfl, rfl, rfl, rfl, rfl⟩
  | already => exact ⟨rfl, rfl, rfl, rfl, rfl⟩

theorem paid_other (h : Paid self paid) (hs : s ≠ self.current) :
    paid.deficits s = self.deficits s ∧ paid.creditedRound s = self.creditedRound s := by
  cases h with
  | credited d => simp [hs]
  | already => exact ⟨rfl, rfl⟩

/-- The credit of the current stream: its weight times the quantum, once per round. -/
def creditAmount (self : DrrScheduler) : Nat :=
  if self.creditedRound self.current = self.round then 0
  else (self.weights self.current).toNat * self.quantum.toNat

theorem paid_current (h : Paid self paid) :
    paid.creditedRound self.current = self.round ∧
      (paid.deficits self.current).toNat =
        (self.deficits self.current).toNat + creditAmount self := by
  cases h with
  | credited d hdue hd =>
    rw [creditAmount, if_neg hdue, ← hd]
    simp [setDeficit]
  | already hdue => exact ⟨hdue, by rw [creditAmount, if_pos hdue, Nat.add_zero]⟩

/-- What the end of a turn keeps of the state before it. -/
theorem movedOn_turn (h : MovedOn paid next) (hcursor : paid.cursor = self.cursor)
    (hround : paid.round = self.round) (hstart : paid.roundStart = 0) :
    Ticked self next ∧ next.roundStart = 0 := by
  obtain ⟨htick, hstart'⟩ := movedOn_ticked h hstart
  refine ⟨?_, hstart'⟩
  cases htick with
  | stayed hc hr => exact .stayed (hc.trans hcursor) (hr.trans hround)
  | within hc hr => exact .within (hcursor ▸ hc) (hr.trans hround)
  | around hl hc hr => exact .around (hcursor ▸ hl) hc (hround ▸ hr)

/-- What a pass keeps: the clock moves as `Ticked` says, and nothing of the streams changes whose
turn it is not. -/
structure Keeps (st next : DrrScheduler) : Prop where
  ticked : Ticked st next
  start : next.roundStart = 0
  quantum_eq : next.quantum = st.quantum
  weights_eq : next.weights = st.weights
  deficits : ∀ s, s ≠ st.current → next.deficits s = st.deficits s
  stamps : ∀ s, s ≠ st.current → next.creditedRound s = st.creditedRound s

theorem keeps_of_reset (hnext : MovedOn (self.setDeficit self.current 0) next)
    (hstart : self.roundStart = 0) : Keeps self next := by
  obtain ⟨hstamps, hdeficits, hq, hw⟩ := movedOn_keeps hnext
  have hcursor : (self.setDeficit self.current 0).cursor = self.cursor := rfl
  obtain ⟨htick, hstart'⟩ := movedOn_turn hnext hcursor rfl hstart
  refine ⟨htick, hstart', hq, hw, fun s hs => ?_, fun s _ => ?_⟩
  · rw [hdeficits, deficits_setDeficit, if_neg hs]
  · rw [hstamps, creditedRound_setDeficit]

section

variable (h : Turned self r next) (hr : r ≠ some .panicked) (hstart : self.roundStart = 0)
include h hr hstart

theorem turned_keeps : Keeps self next := by
  cases h with
  | served paid front rest d hqueue hpaid hd =>
    obtain ⟨hcursor, hround, hst, hq, hw⟩ := paid_clock hpaid
    refine ⟨.stayed hcursor hround, hst.trans hstart, hq, hw, fun s hs => ?_, fun s hs => ?_⟩
    · rw [deficits_setDeficit, if_neg hs]
      exact (paid_other hpaid hs).1
    · exact (paid_other hpaid hs).2
  | saved paid _ front rest hqueue hpaid hshort hnext =>
    obtain ⟨hcursor, hround, hst, hq, hw⟩ := paid_clock hpaid
    obtain ⟨hstamps, hdeficits, hq', hw'⟩ := movedOn_keeps hnext
    obtain ⟨htick, hstart'⟩ := movedOn_turn hnext hcursor hround (hst.trans hstart)
    refine ⟨htick, hstart', hq'.trans hq, hw'.trans hw, fun s hs => ?_, fun s hs => ?_⟩
    · rw [hdeficits]
      exact (paid_other hpaid hs).1
    · rw [hstamps]
      exact (paid_other hpaid hs).2
  | skipped _ _ _ hnext => exact keeps_of_reset hnext hstart
  | idle _ _ hnext => exact keeps_of_reset hnext hstart
  | panicked => exact absurd rfl hr

/-- A pass stamps no stream but the current one, and that one with the current round. -/
theorem turned_stamp (s : Fin numStreams) :
    next.creditedRound s = self.creditedRound s ∨
      s = self.current ∧ next.creditedRound s = self.round := by
  by_cases hs : s = self.current
  · subst hs
    cases h with
    | served paid front rest d hqueue hpaid hd => exact Or.inr ⟨rfl, (paid_current hpaid).1⟩
    | saved paid _ front rest hqueue hpaid hshort hnext =>
      rw [(movedOn_keeps hnext).1]
      exact Or.inr ⟨rfl, (paid_current hpaid).1⟩
    | skipped _ _ _ hnext =>
      rw [(movedOn_keeps hnext).1]
      exact Or.inl rfl
    | idle _ _ hnext =>
      rw [(movedOn_keeps hnext).1]
      exact Or.inl rfl
    | panicked => exact absurd rfl hr
  · exact Or.inl ((turned_keeps h hr hstart).stamps s hs)

end

section

variable (hrounds : Rounds quantum self)
include hrounds

theorem rounds_turned (h : Turned self r next) (hr : r ≠ some .panicked) : Rounds quantum next := by
  have hkeeps := turned_keeps h hr hrounds.start
  refine ⟨hkeeps.quantum_eq.trans hrounds.quantum_eq, hkeeps.weights_eq.trans hrounds.weights_eq,
    hkeeps.start, fun s => ?_⟩
  -- the stamp before the pass, seen from the clock after it
  have hold : ∀ c : UInt64, c.toNat < self.round.toNat ∨
      (c = self.round ∧ s.val ≤ self.cursor.val + 1) ∨ c = neverCredited →
      c.toNat < next.round.toNat ∨ (c = next.round ∧ s.val ≤ next.cursor.val + 1) ∨
        c = neverCredited := by
    intro c hc
    cases hkeeps.ticked with
    | stayed hcursor hround =>
      rw [hcursor, hround]
      exact hc
    | within hcursor hround =>
      rw [hcursor, hround]
      exact hc.imp_right (Or.imp_left fun h => ⟨h.1, Nat.le_succ_of_le h.2⟩)
    | around hlast hcursor hround =>
      rcases hc with hlt | ⟨rfl, -⟩ | hnever
      · exact Or.inl (by omega)
      · exact Or.inl (by omega)
      · exact Or.inr (Or.inr hnever)
  rcases turned_stamp h hr hrounds.start s with hsame | ⟨rfl, hstamp⟩
  · rw [hsame]
    exact hold _ (hrounds.stamps s)
  · rw [hstamp]
    exact hold _ (Or.inr (Or.inl ⟨rfl, Nat.le_refl _⟩))

theorem rounds_setQueue (queue : List (List UInt8)) :
    Rounds quantum (self.setQueue s queue) :=
  ⟨hrounds.quantum_eq, hrounds.weights_eq, hrounds.start, hrounds.stamps⟩

theorem rounds_dequeueNext {passes : Nat} {r : Outcome Empty Dequeued}
    (h : dequeueNext passes self = some (r, next)) (hr : r ≠ .panicked) : Rounds quantum next := by
  rcases dequeueNext_cases passes self with ⟨data, rest, -, hcall⟩ | ⟨-, hcall⟩
  · rw [hcall] at h
    cases h
    exact rounds_setQueue hrounds rest
  · rw [hcall] at h
    refine Call.loop_rule (P := fun _ t => Rounds quantum t)
      (Q := fun _ r t => r ≠ .panicked → Rounds quantum t) ?_ ?_ hrounds h hr
    · intro _ t ht hagain
      exact rounds_turned ht (turned_of_ended hagain) (fun h => nomatch h)
    · intro _ t r ht hended hr
      exact rounds_turned ht (turned_of_ended hended) (fun h => hr (Option.some.inj h))

theorem rounds_enqueue (streamId : UInt8) (data : List UInt8) :
    Rounds quantum (enqueue streamId data self).2 := by
  rcases streamIndex_cases streamId with ⟨idx, -, hindex⟩ | ⟨-, hindex⟩
  · rw [enqueue, hindex, Call.ofOutcome_ok_bind, Call.update_apply]
    exact rounds_setQueue hrounds _
  · rw [enqueue, hindex, Call.ofOutcome_err_bind]
    exact hrounds

theorem rounds_step (op : SchedulerOp) (hno : NoOverflow (stepEntry schedulerStep self op)) :
    Rounds quantum (schedulerStep self op).2 := by
  cases op with
  | enqueue streamId data => exact rounds_enqueue hrounds streamId data
  | dequeueNext passes =>
    cases hcall : dequeueNext passes self with
    | none =>
      simp only [schedulerStep, hcall]
      exact hrounds
    | some result =>
      obtain ⟨r, next⟩ := result
      simp only [NoOverflow, stepEntry, schedulerStep, hcall] at hno ⊢
      exact rounds_dequeueNext hrounds hcall fun hr => hno (by rw [hr])

end

theorem rounds_withQuantum (quantum : UInt64) : Rounds quantum (withQuantum quantum) :=
  ⟨rfl, rfl, rfl, fun _ => Or.inr (Or.inr rfl)⟩

end SchedulerProgressLemmas

open SchedulerProgressLemmas

/-- The stamps agree with the clock in every state that is reached without an overflow. -/
theorem reachable_rounds {quantum : UInt64} {ops : List SchedulerOp}
    (hno : ∀ e ∈ run schedulerStep (withQuantum quantum) ops, NoOverflow e) :
    Rounds quantum (endState schedulerStep (withQuantum quantum) ops) := by
  refine run_guarded (P := fun _ st => Rounds quantum st)
    (G := fun st op => NoOverflow (stepEntry schedulerStep st op)) (rounds_withQuantum quantum)
    (fun _ st op hst hop => rounds_step hst op hop) fun e he => noOverflow_of_mem he (hno e he)

/-! ## The ranking -/

/-- The passes until the front payload of stream `i + 1`, of the given length, fits. Once the
round counter is at its end, the passes until it overflows. -/
def rank (i : Fin numDrrStreams) (length : Nat) (st : DrrScheduler) : Nat :=
  if st.round = neverCredited then 6 - st.cursor.val
  else 6 * (length - (st.deficits i.succ).toNat) + (i.val + 6 - st.cursor.val) % 6 +
    (if st.cursor = i ∧ st.creditedRound i.succ = st.round then 6 else 0) + 6

namespace SchedulerProgressLemmas

variable {self paid next : DrrScheduler} {quantum : UInt64} {i : Fin numDrrStreams}
  {front : List UInt8} {rest : List (List UInt8)}

theorem defaultWeights_pos (i : Fin numDrrStreams) : 0 < (defaultWeights i.succ).toNat := by
  revert i
  decide

/-- A pass over the current stream that goes round again left it short of its front payload,
credited and stamped. -/
theorem again_current (h : Turned self none next) (hq : self.queues self.current = front :: rest) :
    (next.deficits self.current).toNat = (self.deficits self.current).toNat + creditAmount self ∧
      (next.deficits self.current).toNat < front.length := by
  cases h with
  | saved paid _ front' rest' hqueue hpaid hshort hnext =>
    rw [hq] at hqueue
    cases hqueue
    rw [(movedOn_keeps hnext).2.1]
    exact ⟨(paid_current hpaid).2, hshort⟩
  | skipped _ hqueue _ _ =>
    rw [hq] at hqueue
    cases hqueue

/-- A pass that goes round again moved the cursor. -/
theorem again_cursor_ne (h : Turned self none next) : next.cursor ≠ self.cursor := by
  have hne : ∀ c : Fin numDrrStreams, c + 1 ≠ c := by decide
  have hmoved : ∀ {paid : DrrScheduler}, MovedOn paid next → next.cursor ≠ paid.cursor := by
    intro paid hnext
    cases hnext with
    | within => exact hne _
    | around => exact hne _
  cases h with
  | saved paid _ front rest hqueue hpaid hshort hnext => exact (paid_clock hpaid).1 ▸ hmoved hnext
  | skipped _ _ _ hnext => exact (hmoved hnext : next.cursor ≠ (self.setDeficit self.current 0).cursor)

/-- The stream that the cursor moves to does not have the stamp of the round yet. -/
theorem again_unstamped (hrounds : Rounds quantum self) (h : Turned self none next)
    (hround : next.round ≠ neverCredited) : next.creditedRound next.current ≠ next.round := by
  have hkeeps := turned_keeps h (fun h => nomatch h) hrounds.start
  have hne : next.current ≠ self.current := fun he => again_cursor_ne h (Fin.succ_injective _ he)
  rw [hkeeps.stamps _ hne]
  intro hstamp
  have hold := hrounds.stamps next.current
  rw [hstamp] at hold
  have hval : next.current.val = next.cursor.val + 1 := Fin.val_succ _
  cases hkeeps.ticked with
  | stayed hcursor _ => exact again_cursor_ne h hcursor
  | within hcursor hsame =>
    rcases hold with hlt | ⟨-, hle⟩ | hnever
    · rw [hsame] at hlt
      exact Nat.lt_irrefl _ hlt
    · omega
    · exact hround hnever
  | around _ hcursor hnext =>
    rcases hold with hlt | ⟨heq, -⟩ | hnever
    · omega
    · rw [heq] at hnext
      omega
    · exact hround hnever

/-- The distance of the cursor to a stream that it is not on falls with each pass. -/
theorem distance_ticked (h : Ticked self next) (hmoved : next.cursor ≠ self.cursor)
    (hne : self.cursor ≠ i) :
    (i.val + 6 - next.cursor.val) % 6 + 1 = (i.val + 6 - self.cursor.val) % 6 := by
  have hc := cursor_lt self
  have hi : i.val < 6 := i.isLt
  have hne : self.cursor.val ≠ i.val := fun he => hne (Fin.ext he)
  cases h with
  | stayed hcursor _ => exact absurd hcursor hmoved
  | within hcursor _ => omega
  | around hlast hcursor _ => omega

/-- Right after its turn a stream is five passes away. -/
theorem distance_after_turn (h : Ticked self next) (hmoved : next.cursor ≠ self.cursor) :
    (self.cursor.val + 6 - next.cursor.val) % 6 = 5 := by
  have hc := cursor_lt self
  cases h with
  | stayed hcursor _ => exact absurd hcursor hmoved
  | within hcursor _ => omega
  | around hlast hcursor _ => omega

theorem rank_of_last (h : self.round = neverCredited) (n : Nat) :
    rank i n self = 6 - self.cursor.val := if_pos h

theorem rank_of_unstamped {n : Nat} (h : self.round ≠ neverCredited)
    (hflag : self.cursor = i → self.creditedRound i.succ ≠ self.round) :
    rank i n self =
      6 * (n - (self.deficits i.succ).toNat) + (i.val + 6 - self.cursor.val) % 6 + 6 := by
  rw [rank, if_neg h, if_neg (fun hc => hflag hc.1 hc.2), Nat.add_zero]

/-- The rank in a turn that leaves the stream with a deficit of `d`. -/
theorem rank_current (hquantum : 0 < quantum.toNat) (hrounds : Rounds quantum self)
    (hround : self.round ≠ neverCredited) {d n : Nat}
    (hd : d = (self.deficits self.cursor.succ).toNat + creditAmount self) (hshort : d < n) :
    6 * (n - d) + 12 ≤ rank self.cursor n self := by
  by_cases hstamp : self.creditedRound self.current = self.round
  · rw [creditAmount, if_pos hstamp] at hd
    rw [rank, if_neg hround, if_pos ⟨rfl, hstamp⟩]
    omega
  · have hpos : 0 < creditAmount self := by
      rw [creditAmount, if_neg hstamp, hrounds.weights_eq, hrounds.quantum_eq]
      exact Nat.mul_pos (defaultWeights_pos _) hquantum
    rw [rank_of_unstamped hround fun _ => hstamp]
    omega

/-- Each pass lowers the rank. -/
theorem rank_again (hquantum : 0 < quantum.toNat) (hrounds : Rounds quantum self)
    (hqueue : self.queues i.succ = front :: rest) (h : Turned self none next) :
    rank i front.length next < rank i front.length self := by
  have hkeeps := turned_keeps h (fun h => nomatch h) hrounds.start
  have hmoved := again_cursor_ne h
  have hlast : neverCredited.toNat = 2 ^ 64 - 1 := rfl
  have hbound := next.round.toNat_lt
  by_cases hround : self.round = neverCredited
  · -- the counter is at its end: the cursor runs to the end of the circuit
    cases hkeeps.ticked with
    | stayed hcursor _ => exact absurd hcursor hmoved
    | within hcursor hsame =>
      have hc := cursor_lt self
      rw [rank_of_last (hsame.trans hround), rank_of_last hround]
      omega
    | around _ _ hnext =>
      rw [hround, hlast] at hnext
      omega
  · have hnext : next.round = neverCredited → next.cursor.val = 0 := by
      intro hn
      cases hkeeps.ticked with
      | stayed hcursor _ => exact absurd hcursor hmoved
      | within _ hsame => exact absurd (hsame ▸ hn) hround
      | around _ hcursor _ => exact hcursor
    have hflag : next.round ≠ neverCredited → next.cursor = i →
        next.creditedRound i.succ ≠ next.round := by
      rintro hn rfl
      exact again_unstamped hrounds h hn
    by_cases hcur : self.cursor = i
    · -- the turn of the stream itself: it is short of its payload after the credit
      subst hcur
      obtain ⟨hd, hshort⟩ : (next.deficits self.cursor.succ).toNat =
          (self.deficits self.cursor.succ).toNat + creditAmount self ∧
          (next.deficits self.cursor.succ).toNat < front.length := again_current h hqueue
      have hdist := distance_after_turn hkeeps.ticked hmoved
      have hself := rank_current hquantum hrounds hround hd hshort
      by_cases hn : next.round = neverCredited
      · rw [rank_of_last hn, hnext hn]
        omega
      · rw [rank_of_unstamped hn (hflag hn), hdist]
        omega
    · have hsame : next.deficits i.succ = self.deficits i.succ :=
        hkeeps.deficits _ fun he => hcur (Fin.succ_injective _ he).symm
      have hdist := distance_ticked hkeeps.ticked hmoved hcur
      rw [rank_of_unstamped hround fun hc => absurd hc hcur]
      by_cases hn : next.round = neverCredited
      · rw [rank_of_last hn, hnext hn]
        omega
      · rw [rank_of_unstamped hn (hflag hn), hsame]
        omega

theorem rank_le (i : Fin numDrrStreams) (n : Nat) (st : DrrScheduler) :
    rank i n st < 6 * n + 18 := by
  have hmod := Nat.mod_lt (i.val + 6 - st.cursor.val) (show 0 < 6 by decide)
  unfold rank
  split
  · omega
  · split <;> omega

/-- The loop ends when a stream has a payload. -/
theorem loop_returns (hquantum : 0 < quantum.toNat) (hrounds : Rounds quantum self)
    (hqueue : self.queues i.succ = front :: rest) {passes : Nat}
    (hpasses : 6 * front.length + 18 ≤ passes) :
    ∃ r next, Call.loop turn passes self = some (r, next) := by
  refine @Call.loop_ends _ _ _ turn self passes
    (fun t => Rounds quantum t ∧ t.queues i.succ = front :: rest) (rank i front.length) ?_
    ⟨hrounds, hqueue⟩ (Nat.lt_of_lt_of_le (rank_le i front.length self) hpasses)
  rintro t ⟨ht, hq⟩ hagain
  have hturned := turned_of_ended hagain
  exact ⟨⟨rounds_turned ht hturned (fun h => nomatch h), by rw [queues_of_again hturned, hq]⟩,
    rank_again hquantum ht hq hturned⟩

/-- One pass is enough when no stream has a payload. -/
theorem loop_returns_idle (hidle : self.DrrIdle) {passes : Nat} (hpasses : 0 < passes) :
    ∃ r next, Call.loop turn passes self = some (r, next) := by
  obtain ⟨n, rfl⟩ := Nat.exists_eq_add_of_lt hpasses
  rw [Nat.zero_add]
  cases hended : (turn self).1.ended with
  | some r => exact ⟨r, _, Call.loop_of_ended hended⟩
  | none =>
    cases turned_of_ended hended with
    | saved paid _ front rest hqueue _ _ _ =>
      rw [hidle self.cursor] at hqueue
      cases hqueue
    | skipped _ _ hbusy _ => exact absurd hidle hbusy

/-- The loop returns `None` only when no stream has a payload. -/
theorem idle_of_loop_none {passes : Nat}
    (h : Call.loop turn passes self = some (.ok none, next)) : self.DrrIdle := by
  refine Call.loop_rule (P := fun _ t => t.queues = self.queues)
    (Q := fun _ r _ => r = .ok none → self.DrrIdle) ?_ ?_ rfl h rfl
  · intro _ t ht hagain
    exact (queues_of_again (turned_of_ended hagain)).trans ht
  · rintro _ t r ht hended rfl
    cases turned_of_ended hended with
    | idle _ hidle _ =>
      intro i
      rw [← ht]
      exact hidle i

/-- A returned call returned `None` exactly when every queue was empty, unless it overflowed. -/
theorem dequeueNext_none_iff {passes : Nat} {r : Outcome Empty Dequeued}
    (h : dequeueNext passes self = some (r, next)) (hr : r ≠ .panicked) :
    r = .ok none ↔ self.IsEmpty := by
  constructor
  · rintro rfl
    rcases dequeueNext_cases passes self with ⟨data, rest, hqueue, hcall⟩ | ⟨hqueue, hcall⟩
    · rw [hcall] at h
      cases h
    · rw [hcall] at h
      exact Fin.cases hqueue (idle_of_loop_none h)
  · intro hempty
    cases dequeueNext_took h with
    | payload s data hfront _ _ =>
      rw [hempty s] at hfront
      cases hfront
    | nothing r hnothing _ =>
      cases r with
      | ok taken =>
        cases taken with
        | none => rfl
        | some taken => exact absurd rfl (hnothing taken)
      | err e => exact nomatch e
      | panicked => exact absurd rfl hr

end SchedulerProgressLemmas

/-- The length of the front payload of a stream, 0 when it has none. -/
def DrrScheduler.frontLength (self : DrrScheduler) (s : Fin numStreams) : Nat :=
  ((self.queues s).headD []).length

/-- A number of passes within which `dequeue_next` returns. -/
def DrrScheduler.passBound (self : DrrScheduler) : Nat :=
  6 * (∑ i : Fin numDrrStreams, self.frontLength i.succ) + 18

/-- In every state reached with a positive quantum and without an overflow, `dequeue_next` returns
within `passBound` passes. Unless that call overflows, it returns `None` exactly when every queue is
empty. -/
theorem dequeueNext_returns {quantum : UInt64} (hquantum : 1 ≤ quantum) {ops : List SchedulerOp}
    (hno : ∀ e ∈ run schedulerStep (withQuantum quantum) ops, NoOverflow e) {passes : Nat}
    (hpasses : (endState schedulerStep (withQuantum quantum) ops).passBound ≤ passes) :
    ∃ r next, dequeueNext passes (endState schedulerStep (withQuantum quantum) ops) =
        some (r, next) ∧
      (r ≠ .panicked →
        (r = .ok none ↔ (endState schedulerStep (withQuantum quantum) ops).IsEmpty)) := by
  have hrounds := reachable_rounds hno
  generalize endState schedulerStep (withQuantum quantum) ops = st at hpasses hrounds ⊢
  have hpos : 0 < quantum.toNat := UInt64.le_iff_toNat_le.mp hquantum
  have hreturns : ∃ r next, dequeueNext passes st = some (r, next) := by
    rcases dequeueNext_cases passes st with ⟨data, rest, -, hcall⟩ | ⟨-, hcall⟩
    · exact ⟨_, _, hcall⟩
    · rw [hcall]
      by_cases hidle : st.DrrIdle
      · exact loop_returns_idle hidle (Nat.lt_of_lt_of_le (Nat.succ_pos _) hpasses)
      · obtain ⟨i, hi⟩ := not_forall.mp hidle
        obtain ⟨front, rest, hqueue⟩ := List.exists_cons_of_ne_nil hi
        refine loop_returns hpos hrounds hqueue (Nat.le_trans ?_ hpasses)
        have hfront : front.length = st.frontLength i.succ := by
          rw [frontLength, hqueue]
          rfl
        have hle : front.length ≤ ∑ i : Fin numDrrStreams, st.frontLength i.succ := by
          rw [hfront]
          exact Finset.single_le_sum (f := fun i : Fin numDrrStreams => st.frontLength i.succ)
            (fun _ _ => Nat.zero_le _) (Finset.mem_univ i)
        exact Nat.add_le_add_right (Nat.mul_le_mul_left 6 hle) 18
  obtain ⟨r, next, h⟩ := hreturns
  exact ⟨r, next, h, dequeueNext_none_iff h⟩

/-- With a quantum of one byte, three bytes on stream 6 are served in the third round. -/
theorem dequeueNext_returns_third_round :
    (dequeueNext 36 (endState schedulerStep (withQuantum 1) [.enqueue 6 [1, 2, 3]])).map
      (fun x => (x.1, x.2.round)) = some (.ok (some (6, [1, 2, 3])), 2) ∧
    ∃ r next, dequeueNext 36 (endState schedulerStep (withQuantum 1) [.enqueue 6 [1, 2, 3]]) =
        some (r, next) ∧
      (r ≠ .panicked → (r = .ok none ↔
        (endState schedulerStep (withQuantum 1) [.enqueue 6 [1, 2, 3]]).IsEmpty)) :=
  ⟨by decide +kernel,
    dequeueNext_returns (by decide) (by decide +kernel) (by decide +kernel)⟩

end Blackwing.Protocol

import Blackwing.Protocol.SchedulerProgress

/-!
# Weighted fairness of the scheduler

A stretch of a run during which a stream always has something queued. Each credit of the
stream adds its weight times the quantum to its deficit and each payload served takes its
length from it, so the bytes served are the credits, up to the difference of the deficits
at the two ends. While it is not the turn of a stream, its deficit is less than its front
payload or zero.

The turns of a stream are numbered by `phase`: the rounds begun before the stream's place,
and one more once the stream has been credited in the current round. Between two backlogged
streams the phases differ by at most one, always in favour of the stream that comes first.

* `Accounts`, `accounts_run`: the deficit and the phase over a stretch.
* `offTurn_run`: the deficits of the streams whose turn it is not.
* `scheduler_fair`: bytes served and credits over a stretch; the credits of two streams.
-/

namespace Blackwing.Protocol

open DrrScheduler SchedulerLemmas SchedulerRunsLemmas SchedulerProgressLemmas

/-! ## What is counted -/

/-- A pass that begins in this state credits the stream. -/
def DrrScheduler.Credits (self : DrrScheduler) (s : Fin numStreams) : Prop :=
  self.current = s ∧ self.queues s ≠ [] ∧ self.creditedRound s ≠ self.round

instance (self : DrrScheduler) (s : Fin numStreams) : Decidable (self.Credits s) :=
  inferInstanceAs (Decidable (_ ∧ _ ∧ _))

/-- How many of these passes credit the stream. -/
def creditCount (s : Fin numStreams) (passes : List DrrScheduler) : Nat :=
  passes.countP fun st => decide (st.Credits s)

/-- How often a call credited a stream: in the passes of its loop, which it enters when stream 0
is empty. -/
def creditsTo (s : Fin numStreams) (e : SchedulerEntry) : Nat :=
  match e.input, e.out with
  | .dequeueNext passes, .dequeued _ =>
    if e.pre.queues 0 = [] then creditCount s (Call.heads turn passes e.pre) else 0
  | _, _ => 0

/-- The length of what a call returned, if it is a payload of the stream. -/
def takenFrom (s : Fin numStreams) : Outcome Empty Dequeued → Nat
  | .ok (some (t, data)) => if t = s then data.length else 0
  | _ => 0

/-- The bytes that a call dequeued from a stream. -/
def bytesFrom (s : Fin numStreams) (e : SchedulerEntry) : Nat :=
  match e.out with
  | .dequeued r => takenFrom s r
  | _ => 0

/-- The stream has something queued at every moment of the stretch. -/
def Backlogged (s : Fin numStreams) (st : DrrScheduler) (stretch : List SchedulerOp) : Prop :=
  ∀ done ∈ stretch.inits, (endState schedulerStep st done).queues s ≠ []

instance (s : Fin numStreams) (st : DrrScheduler) (stretch : List SchedulerOp) :
    Decidable (Backlogged s st stretch) :=
  inferInstanceAs (Decidable (∀ done ∈ _, _ ≠ _))

/-- The length of the largest payload enqueued on a stream. -/
def largestOn (s : Fin numStreams) (entries : List SchedulerEntry) : Nat :=
  ((entries.filterMap (enqueuedOn s)).map List.length).foldr max 0

/-- The number of the turn of a stream: the rounds begun before its place, and one more when it
has had its credit of this round. -/
def phase (i : Fin numDrrStreams) (st : DrrScheduler) : Nat :=
  st.round.toNat +
    if i < st.cursor ∨ (i = st.cursor ∧ st.creditedRound i.succ = st.round) then 1 else 0

/-- How often a stream is credited in a stretch. -/
def creditsIn (s : Fin numStreams) (st : DrrScheduler) (stretch : List SchedulerOp) : Nat :=
  ((run schedulerStep st stretch).map (creditsTo s)).sum

/-- The bytes dequeued from a stream in a stretch. -/
def bytesIn (s : Fin numStreams) (st : DrrScheduler) (stretch : List SchedulerOp) : Nat :=
  ((run schedulerStep st stretch).map (bytesFrom s)).sum

/-- The account of a stream from `start` to `st`, with the credits given and the bytes served in
between. -/
structure Accounts (quantum : UInt64) (i : Fin numDrrStreams) (start : DrrScheduler)
    (credits bytes : Nat) (st : DrrScheduler) : Prop where
  deficit : (st.deficits i.succ).toNat + bytes = (start.deficits i.succ).toNat +
    credits * ((defaultWeights i.succ).toNat * quantum.toNat)
  phase_eq : st.round ≠ neverCredited →
    start.round ≠ neverCredited ∧ phase i st = phase i start + credits

/-- A stream whose turn it is not has less deficit than its front payload, or none. -/
def OffTurn (st : DrrScheduler) : Prop :=
  ∀ i, st.cursor ≠ i → (st.deficits i.succ).toNat = 0 ∨
    ∃ front rest, st.queues i.succ = front :: rest ∧ (st.deficits i.succ).toNat < front.length

namespace SchedulerFairnessLemmas

variable {self paid next : DrrScheduler} {quantum : UInt64} {i : Fin numDrrStreams}
  {r : Option (Outcome Empty Dequeued)}

theorem creditAmount_eq (hrounds : Rounds quantum self) (hqueue : self.queues self.current ≠ []) :
    creditAmount self =
      (if self.Credits self.current then 1 else 0) *
        ((defaultWeights self.current).toNat * quantum.toNat) := by
  rw [creditAmount, hrounds.weights_eq, hrounds.quantum_eq]
  by_cases hstamp : self.creditedRound self.current = self.round
  · rw [if_pos hstamp, if_neg (fun h => h.2.2 hstamp), Nat.zero_mul]
  · rw [if_neg hstamp, if_pos ⟨rfl, hqueue, hstamp⟩, Nat.one_mul]

theorem not_credits_of_ne (h : self.cursor ≠ i) : ¬ self.Credits i.succ :=
  fun hc => h (Fin.succ_injective _ hc.1)

/-! ## The deficit -/

/-- The deficit of a backlogged stream over one pass. -/
theorem deficit_turned (hrounds : Rounds quantum self) (h : Turned self r next)
    (hr : r ≠ some .panicked) (hqueue : self.queues i.succ ≠ []) :
    (next.deficits i.succ).toNat + (r.map (takenFrom i.succ)).getD 0 =
      (self.deficits i.succ).toNat + (if self.Credits i.succ then 1 else 0) *
        ((defaultWeights i.succ).toNat * quantum.toNat) := by
  by_cases hcur : self.cursor = i
  · subst hcur
    rw [← creditAmount_eq hrounds hqueue]
    cases h with
    | served paid front rest d hq hpaid hd =>
      rw [deficits_setDeficit, if_pos rfl, ← (paid_current hpaid).2, ← hd]
      simp [takenFrom]
    | saved paid _ front rest hq hpaid hshort hnext =>
      rw [(movedOn_keeps hnext).2.1]
      exact (paid_current hpaid).2
    | skipped _ hq _ _ => exact absurd hq hqueue
    | idle _ hidle _ => exact absurd (hidle self.cursor) hqueue
    | panicked => exact absurd rfl hr
  · have hne : i.succ ≠ self.current := fun he => hcur (Fin.succ_injective _ he).symm
    rw [(turned_keeps h hr hrounds.start).deficits _ hne, if_neg (not_credits_of_ne hcur),
      Nat.zero_mul]
    cases h with
    | served => simp [takenFrom, hne.symm]
    | saved => rfl
    | skipped => rfl
    | idle => rfl
    | panicked => exact absurd rfl hr

/-! ## The phase -/

theorem phase_of_stamped (h : self.creditedRound self.current = self.round) :
    phase self.cursor self = self.round.toNat + 1 := by
  rw [phase, if_pos (Or.inr ⟨rfl, h⟩)]

theorem phase_of_unstamped (h : i = self.cursor → self.creditedRound i.succ ≠ self.round) :
    phase i self = self.round.toNat + if i < self.cursor then 1 else 0 := by
  rw [phase]
  by_cases hlt : i < self.cursor
  · rw [if_pos (Or.inl hlt), if_pos hlt]
  · rw [if_neg (fun hc => hc.elim hlt fun hc => h hc.1 hc.2), if_neg hlt]

theorem phase_current (hqueue : self.queues self.current ≠ []) :
    phase self.cursor self + (if self.Credits self.current then 1 else 0) =
      self.round.toNat + 1 := by
  by_cases hstamp : self.creditedRound self.current = self.round
  · rw [phase_of_stamped hstamp, if_neg fun hc => hc.2.2 hstamp]
  · rw [phase_of_unstamped fun _ => hstamp, if_neg (lt_irrefl _), if_pos ⟨rfl, hqueue, hstamp⟩]

theorem phase_served {x : Fin numStreams × List UInt8} (hstart : self.roundStart = 0)
    (h : Turned self (some (.ok (some x))) next) (hqueue : self.queues i.succ ≠ []) :
    phase i next = phase i self + if self.Credits i.succ then 1 else 0 := by
  have hkeeps := turned_keeps h (fun h => nomatch h) hstart
  cases h with
  | served paid front rest d hq hpaid hd =>
    obtain ⟨hcursor, hround, -, -, -⟩ := paid_clock hpaid
    by_cases hcur : self.cursor = i
    · subst hcur
      rw [phase_current hqueue]
      have hstamp := (paid_current hpaid).1
      have hphase : phase paid.cursor paid = paid.round.toNat + 1 :=
        phase_of_stamped (by rw [current, hcursor, hstamp, hround])
      rw [hcursor, hround] at hphase
      exact hphase
    · rw [if_neg (not_credits_of_ne hcur), Nat.add_zero]
      have hne : i.succ ≠ self.current := fun he => hcur (Fin.succ_injective _ he).symm
      unfold phase
      rw [hkeeps.stamps _ hne]
      show paid.round.toNat + _ = _
      rw [hround]
      show _ + (if i < paid.cursor ∨ i = paid.cursor ∧ _ = paid.round then 1 else 0) = _
      rw [hcursor, hround]

theorem phase_again (hrounds : Rounds quantum self) (h : Turned self none next)
    (hround : next.round ≠ neverCredited) (hqueue : self.queues i.succ ≠ []) :
    phase i next = phase i self + if self.Credits i.succ then 1 else 0 := by
  have hkeeps := turned_keeps h (fun h => nomatch h) hrounds.start
  have hmoved := again_cursor_ne h
  have hunstamped : i = next.cursor → next.creditedRound i.succ ≠ next.round := by
    rintro rfl
    exact again_unstamped hrounds h hround
  have hi : i.val < 6 := i.isLt
  rw [phase_of_unstamped hunstamped]
  by_cases hcur : self.cursor = i
  · subst hcur
    rw [phase_current hqueue]
    cases hkeeps.ticked with
    | stayed hcursor _ => exact absurd hcursor hmoved
    | within hcursor hsame =>
      have hlt : self.cursor < next.cursor := Fin.lt_def.mpr (by omega)
      rw [if_pos hlt, hsame]
    | around hlast hcursor hnext =>
      have hlt : ¬ self.cursor < next.cursor := fun hlt => by
        have := Fin.lt_def.mp hlt
        omega
      rw [if_neg hlt, hnext, Nat.add_zero]
  · rw [if_neg (not_credits_of_ne hcur), phase_of_unstamped fun he => absurd he.symm hcur,
      Nat.add_zero]
    have hne : self.cursor.val ≠ i.val := fun he => hcur (Fin.ext he)
    simp only [Fin.lt_def]
    cases hkeeps.ticked with
    | stayed hcursor _ => exact absurd hcursor hmoved
    | within hcursor hsame =>
      rw [hcursor, hsame]
      congr 1
      exact if_congr (by omega) rfl rfl
    | around hlast hcursor hnext =>
      rw [hcursor, hnext, hlast, if_neg (Nat.not_lt_zero _), if_pos (by omega)]

/-! ## The account of a stretch -/

theorem accounts_refl (st : DrrScheduler) : Accounts quantum i st 0 0 st :=
  ⟨by rw [Nat.zero_mul], fun h => ⟨h, rfl⟩⟩

theorem accounts_trans {start mid st : DrrScheduler} {c c' b b' : Nat}
    (h : Accounts quantum i start c b mid) (h' : Accounts quantum i mid c' b' st) :
    Accounts quantum i start (c + c') (b + b') st := by
  refine ⟨?_, fun hround => ?_⟩
  · have hfirst := h.deficit
    have hsecond := h'.deficit
    rw [Nat.add_mul]
    omega
  · obtain ⟨hmid, hphase'⟩ := h'.phase_eq hround
    obtain ⟨hstart, hphase⟩ := h.phase_eq hmid
    exact ⟨hstart, by rw [hphase', hphase, Nat.add_assoc]⟩

/-- A round counter that is at its end stays there. -/
theorem round_ne_of_ticked (h : Ticked self next) (hround : next.round ≠ neverCredited) :
    self.round ≠ neverCredited := by
  intro hself
  cases h with
  | stayed _ hsame => exact hround (hsame.trans hself)
  | within _ hsame => exact hround (hsame.trans hself)
  | around _ _ hnext =>
    have hlast : neverCredited.toNat = 2 ^ 64 - 1 := rfl
    have hbound := next.round.toNat_lt
    rw [hself, hlast] at hnext
    omega

theorem accounts_turned (hrounds : Rounds quantum self) (h : Turned self r next)
    (hr : r ≠ some .panicked) (hqueue : self.queues i.succ ≠ []) :
    Accounts quantum i self (if self.Credits i.succ then 1 else 0)
      ((r.map (takenFrom i.succ)).getD 0) next := by
  refine ⟨deficit_turned hrounds h hr hqueue, fun hround => ⟨?_, ?_⟩⟩
  · exact round_ne_of_ticked (turned_keeps h hr hrounds.start).ticked hround
  · cases h with
    | served paid front rest d hq hpaid hd =>
      exact phase_served hrounds.start (.served paid front rest d hq hpaid hd) hqueue
    | saved paid _ front rest hq hpaid hshort hnext =>
      exact phase_again hrounds (.saved paid _ front rest hq hpaid hshort hnext) hround hqueue
    | skipped _ hq hbusy hnext =>
      exact phase_again hrounds (.skipped _ hq hbusy hnext) hround hqueue
    | idle _ hidle _ => exact absurd (hidle i) hqueue
    | panicked => exact absurd rfl hr

theorem creditCount_snoc (s : Fin numStreams) (passes : List DrrScheduler) (st : DrrScheduler) :
    creditCount s (passes ++ [st]) = creditCount s passes + if st.Credits s then 1 else 0 := by
  simp [creditCount, List.countP_append, List.countP_cons]

theorem accounts_loop {passes : Nat} {r : Outcome Empty Dequeued} (hrounds : Rounds quantum self)
    (h : Call.loop turn passes self = some (r, next)) (hr : r ≠ .panicked)
    (hqueue : self.queues i.succ ≠ []) :
    Accounts quantum i self (creditCount i.succ (Call.heads turn passes self)) (takenFrom i.succ r)
      next := by
  refine Call.loop_rule
    (P := fun heads t => Rounds quantum t ∧ t.queues = self.queues ∧
      Accounts quantum i self (creditCount i.succ heads) 0 t)
    (Q := fun heads r t => r ≠ .panicked →
      Accounts quantum i self (creditCount i.succ heads) (takenFrom i.succ r) t)
    ?_ ?_ ⟨hrounds, rfl, accounts_refl self⟩ h hr
  · rintro heads t ⟨ht, hq, hacc⟩ hagain
    have hturned := turned_of_ended hagain
    refine ⟨rounds_turned ht hturned (fun h => nomatch h), (queues_of_again hturned).trans hq, ?_⟩
    rw [creditCount_snoc]
    exact accounts_trans hacc
      (accounts_turned ht hturned (fun h => nomatch h) (by rw [hq]; exact hqueue))
  · rintro heads t r ⟨ht, hq, hacc⟩ hended hr
    rw [creditCount_snoc, ← Nat.zero_add (takenFrom i.succ r)]
    exact accounts_trans hacc (accounts_turned ht (turned_of_ended hended)
      (fun h => hr (Option.some.inj h)) (by rw [hq]; exact hqueue))

/-- A change of queues alone is no entry in the account. -/
theorem accounts_setQueue (s : Fin numStreams) (queue : List (List UInt8)) :
    Accounts quantum i self 0 0 (self.setQueue s queue) :=
  ⟨by rw [Nat.zero_mul]; rfl, fun h => ⟨h, rfl⟩⟩

theorem accounts_step (hrounds : Rounds quantum self) (op : SchedulerOp)
    (hno : NoOverflow (stepEntry schedulerStep self op)) (hqueue : self.queues i.succ ≠ []) :
    Accounts quantum i self (creditsTo i.succ (stepEntry schedulerStep self op))
      (bytesFrom i.succ (stepEntry schedulerStep self op)) (schedulerStep self op).2 := by
  cases op with
  | enqueue streamId data =>
    show Accounts quantum i self 0 0 (enqueue streamId data self).2
    rcases streamIndex_cases streamId with ⟨idx, -, hindex⟩ | ⟨-, hindex⟩
    · rw [enqueue, hindex, Call.ofOutcome_ok_bind, Call.update_apply]
      exact accounts_setQueue idx _
    · rw [enqueue, hindex, Call.ofOutcome_err_bind]
      exact accounts_refl self
  | dequeueNext passes =>
    cases hcall : dequeueNext passes self with
    | none =>
      simp only [creditsTo, bytesFrom, stepEntry, schedulerStep, hcall]
      exact accounts_refl self
    | some result =>
      obtain ⟨r, next⟩ := result
      simp only [NoOverflow, creditsTo, bytesFrom, stepEntry, schedulerStep, hcall] at hno ⊢
      rcases dequeueNext_cases passes self with ⟨data, rest, hzero, hcall'⟩ | ⟨hzero, hcall'⟩
      · rw [hcall'] at hcall
        cases hcall
        rw [hzero, if_neg (List.cons_ne_nil _ _)]
        exact accounts_setQueue 0 rest
      · rw [hcall'] at hcall
        rw [if_pos hzero]
        exact accounts_loop hrounds hcall (fun hr => hno (by rw [hr])) hqueue

theorem backlogged_of_mem {s : Fin numStreams} {stretch : List SchedulerOp}
    (h : Backlogged s self stretch) {e : SchedulerEntry}
    (he : e ∈ run schedulerStep self stretch) : e.pre.queues s ≠ [] := by
  obtain ⟨done, todo, hsplit, hee⟩ := mem_run he
  rw [hee]
  exact h done ((List.mem_inits done stretch).mpr ⟨e.input :: todo, hsplit.symm⟩)

theorem sum_map_snoc {α : Type} (f : α → Nat) (l : List α) (a : α) :
    ((l ++ [a]).map f).sum = (l.map f).sum + f a := by
  simp

/-- The account of a backlogged stream over a stretch. -/
theorem accounts_run {start : DrrScheduler} {stretch : List SchedulerOp}
    (hrounds : Rounds quantum start) (hno : ∀ e ∈ run schedulerStep start stretch, NoOverflow e)
    (hbacklog : Backlogged i.succ start stretch) :
    Accounts quantum i start (creditsIn i.succ start stretch) (bytesIn i.succ start stretch)
      (endState schedulerStep start stretch) := by
  refine (run_guarded (P := fun h st => Rounds quantum st ∧
      Accounts quantum i start (h.map (creditsTo i.succ)).sum (h.map (bytesFrom i.succ)).sum st)
    (G := fun st op => NoOverflow (stepEntry schedulerStep st op) ∧ st.queues i.succ ≠ [])
    ⟨hrounds, accounts_refl start⟩ ?_ fun e he => ?_).2
  · rintro h st op ⟨hst, hacc⟩ ⟨hop, hqueue⟩
    refine ⟨rounds_step hst op hop, ?_⟩
    rw [sum_map_snoc, sum_map_snoc]
    exact accounts_trans hacc (accounts_step hst op hop hqueue)
  · exact ⟨noOverflow_of_mem he (hno e he), backlogged_of_mem hbacklog he⟩

/-! ## Streams whose turn it is not -/

theorem offTurn_turned (hoff : OffTurn self) (h : Turned self r next) (hr : r ≠ some .panicked)
    (hstart : self.roundStart = 0) : OffTurn next := by
  intro j hj
  have hkeeps := turned_keeps h hr hstart
  by_cases hcur : j = self.cursor
  · -- the turn of the stream is over
    subst hcur
    cases h with
    | served paid front rest d hq hpaid hd => exact absurd (paid_clock hpaid).1 hj
    | saved paid _ front rest hq hpaid hshort hnext =>
      refine Or.inr ⟨front, rest, ?_, ?_⟩
      · rw [queues_movedOn hnext, queues_paid hpaid, hq]
      · rw [(movedOn_keeps hnext).2.1]
        exact hshort
    | skipped _ hq _ hnext =>
      rw [(movedOn_keeps hnext).2.1, deficits_setDeficit, if_pos rfl]
      exact Or.inl rfl
    | idle _ _ hnext =>
      rw [(movedOn_keeps hnext).2.1, deficits_setDeficit, if_pos rfl]
      exact Or.inl rfl
    | panicked => exact absurd rfl hr
  · have hne : j.succ ≠ self.current := fun he => hcur (Fin.succ_injective _ he)
    rw [hkeeps.deficits _ hne]
    have hqueues : next.queues j.succ = self.queues j.succ := by
      cases h with
      | served paid front rest d hq hpaid hd =>
        rw [queues_setDeficit, queues_setQueue, if_neg hne, queues_paid hpaid]
      | saved paid _ front rest hq hpaid hshort hnext =>
        rw [queues_movedOn hnext, queues_paid hpaid]
      | skipped _ hq _ hnext => rw [queues_movedOn hnext, queues_setDeficit]
      | idle _ _ hnext => rw [queues_movedOn hnext, queues_setDeficit]
      | panicked => exact absurd rfl hr
    rw [hqueues]
    exact hoff j fun he => hcur he.symm

theorem offTurn_step (hrounds : Rounds quantum self) (hoff : OffTurn self) (op : SchedulerOp)
    (hno : NoOverflow (stepEntry schedulerStep self op)) : OffTurn (schedulerStep self op).2 := by
  cases op with
  | enqueue streamId data =>
    show OffTurn (enqueue streamId data self).2
    rcases streamIndex_cases streamId with ⟨idx, -, hindex⟩ | ⟨-, hindex⟩
    · rw [enqueue, hindex, Call.ofOutcome_ok_bind, Call.update_apply]
      intro j hj
      refine (hoff j hj).imp_right ?_
      rintro ⟨front, rest, hq, hlt⟩
      -- a payload is added at the back: the front stays
      by_cases hidx : j.succ = idx
      · subst hidx
        exact ⟨front, rest ++ [data], by rw [queues_setQueue, if_pos rfl, hq]; rfl, hlt⟩
      · exact ⟨front, rest, by rw [queues_setQueue, if_neg hidx, hq], hlt⟩
    · rw [enqueue, hindex, Call.ofOutcome_err_bind]
      exact hoff
  | dequeueNext passes =>
    cases hcall : dequeueNext passes self with
    | none =>
      simp only [schedulerStep, hcall]
      exact hoff
    | some result =>
      obtain ⟨r, next⟩ := result
      simp only [NoOverflow, stepEntry, schedulerStep, hcall] at hno ⊢
      rcases dequeueNext_cases passes self with ⟨data, rest, -, hcall'⟩ | ⟨-, hcall'⟩
      · rw [hcall'] at hcall
        cases hcall
        intro j hj
        rw [queues_setQueue, if_neg (Fin.succ_ne_zero j)]
        exact hoff j hj
      · rw [hcall'] at hcall
        refine Call.loop_rule (P := fun _ t => Rounds quantum t ∧ OffTurn t)
          (Q := fun _ r t => r ≠ .panicked → OffTurn t) ?_ ?_ ⟨hrounds, hoff⟩ hcall
          fun hr => hno (by rw [hr])
        · rintro _ t ⟨ht, hoff⟩ hagain
          have hturned := turned_of_ended hagain
          exact ⟨rounds_turned ht hturned (fun h => by cases h),
            offTurn_turned hoff hturned (fun h => by cases h) ht.start⟩
        · rintro _ t r ⟨ht, hoff⟩ hended hr
          exact offTurn_turned hoff (turned_of_ended hended) (fun h => hr (Option.some.inj h)) ht.start

/-- Between turns no stream holds more deficit than its front payload. -/
theorem offTurn_run {ops : List SchedulerOp}
    (hno : ∀ e ∈ run schedulerStep (withQuantum quantum) ops, NoOverflow e) :
    OffTurn (endState schedulerStep (withQuantum quantum) ops) := by
  refine (run_guarded (P := fun _ st => Rounds quantum st ∧ OffTurn st)
    (G := fun st op => NoOverflow (stepEntry schedulerStep st op))
    ⟨rounds_withQuantum quantum, fun _ _ => Or.inl rfl⟩ ?_
    fun e he => noOverflow_of_mem he (hno e he)).2
  rintro _ st op ⟨hst, hoff⟩ hop
  exact ⟨rounds_step hst op hop, offTurn_step hst hoff op hop⟩

theorem le_largestOn {s : Fin numStreams} {entries : List SchedulerEntry} {data : List UInt8}
    (h : data ∈ entries.filterMap (enqueuedOn s)) : data.length ≤ largestOn s entries := by
  unfold largestOn
  generalize entries.filterMap (enqueuedOn s) = payloads at h ⊢
  induction payloads with
  | nil => exact absurd h List.not_mem_nil
  | cons first rest ih =>
    rw [List.map_cons, List.foldr_cons]
    rcases List.mem_cons.mp h with rfl | h
    · exact Nat.le_max_left _ _
    · exact Nat.le_trans (ih h) (Nat.le_max_right _ _)

/-- While it is not the turn of a stream, its deficit is at most the largest payload ever enqueued
on it, in the run so far and what follows it. -/
theorem deficit_le_largestOn {ops : List SchedulerOp}
    (hno : ∀ e ∈ run schedulerStep (withQuantum quantum) ops, NoOverflow e)
    (hcursor : (endState schedulerStep (withQuantum quantum) ops).cursor ≠ i)
    (later : List SchedulerOp) :
    ((endState schedulerStep (withQuantum quantum) ops).deficits i.succ).toNat ≤
      largestOn i.succ (run schedulerStep (withQuantum quantum) (ops ++ later)) := by
  rcases offTurn_run hno i hcursor with hzero | ⟨front, rest, hq, hlt⟩
  · rw [hzero]
    exact Nat.zero_le _
  · refine Nat.le_trans (Nat.le_of_lt hlt) (le_largestOn ?_)
    rw [run_append, List.filterMap_append, ← queues_run, hq]
    exact List.mem_append_left _ (List.mem_append_right _ List.mem_cons_self)

/-- Of two streams, the first is in the same phase or one ahead. -/
theorem phase_order {j : Fin numDrrStreams} (hij : i ≤ j) (st : DrrScheduler) :
    phase j st ≤ phase i st ∧ phase i st ≤ phase j st + 1 := by
  unfold phase
  by_cases hj : j < st.cursor ∨ (j = st.cursor ∧ st.creditedRound j.succ = st.round)
  · have hi : i < st.cursor ∨ (i = st.cursor ∧ st.creditedRound i.succ = st.round) := by
      rcases lt_or_eq_of_le hij with hlt | rfl
      · exact Or.inl (hj.elim (lt_trans hlt) fun h => h.1 ▸ hlt)
      · exact hj
    rw [if_pos hi, if_pos hj]
    exact ⟨Nat.le_refl _, Nat.le_succ _⟩
  · rw [if_neg hj]
    split
    · exact ⟨Nat.le_succ _, Nat.le_refl _⟩
    · exact ⟨Nat.le_refl _, Nat.le_succ _⟩

end SchedulerFairnessLemmas

open SchedulerFairnessLemmas

/-- Weighted fairness. Over a stretch of a run in which a stream is never empty, and at both ends
of which it is not its turn, the bytes dequeued from it are its credits up to the difference of its
deficits, hence up to the largest payload ever enqueued on it. The credits of two streams that are
never empty in the same stretch differ by at most one. No arithmetic overflows in the run, and the
round counter could still be incremented at its end. -/
theorem scheduler_fair {quantum : UInt64} {before stretch : List SchedulerOp}
    {start stop : DrrScheduler} (hstart : start = endState schedulerStep (withQuantum quantum) before)
    (hstop : stop = endState schedulerStep start stretch)
    (hno : ∀ e ∈ run schedulerStep (withQuantum quantum) (before ++ stretch), NoOverflow e)
    (hround : stop.round.toNat + 1 < 2 ^ 64) :
    (∀ i : Fin numDrrStreams, Backlogged i.succ start stretch → start.cursor ≠ i → stop.cursor ≠ i →
      bytesIn i.succ start stretch + (stop.deficits i.succ).toNat =
        creditsIn i.succ start stretch * ((defaultWeights i.succ).toNat * quantum.toNat) +
          (start.deficits i.succ).toNat ∧
      bytesIn i.succ start stretch ≤
        creditsIn i.succ start stretch * ((defaultWeights i.succ).toNat * quantum.toNat) +
          largestOn i.succ (run schedulerStep (withQuantum quantum) (before ++ stretch)) ∧
      creditsIn i.succ start stretch * ((defaultWeights i.succ).toNat * quantum.toNat) ≤
        bytesIn i.succ start stretch +
          largestOn i.succ (run schedulerStep (withQuantum quantum) (before ++ stretch))) ∧
    ∀ i j : Fin numDrrStreams, Backlogged i.succ start stretch → Backlogged j.succ start stretch →
      creditsIn i.succ start stretch ≤ creditsIn j.succ start stretch + 1 := by
  have hnoBefore : ∀ e ∈ run schedulerStep (withQuantum quantum) before, NoOverflow e := by
    intro e he
    exact hno e (by rw [run_append]; exact List.mem_append_left _ he)
  have hnoStretch : ∀ e ∈ run schedulerStep start stretch, NoOverflow e := by
    intro e he
    exact hno e (by rw [run_append, ← hstart]; exact List.mem_append_right _ he)
  have hrounds : Rounds quantum start := hstart ▸ reachable_rounds hnoBefore
  have hend : stop = endState schedulerStep (withQuantum quantum) (before ++ stretch) := by
    rw [hstop, hstart, endState_append]
  have haccounts : ∀ i : Fin numDrrStreams, Backlogged i.succ start stretch →
      Accounts quantum i start (creditsIn i.succ start stretch) (bytesIn i.succ start stretch) stop :=
    fun i hi => hstop ▸ accounts_run hrounds hnoStretch hi
  constructor
  · intro i hi hfrom hto
    have hfromLe : (start.deficits i.succ).toNat ≤
        largestOn i.succ (run schedulerStep (withQuantum quantum) (before ++ stretch)) := by
      rw [hstart] at hfrom ⊢
      exact deficit_le_largestOn hnoBefore hfrom stretch
    have htoLe : (stop.deficits i.succ).toNat ≤
        largestOn i.succ (run schedulerStep (withQuantum quantum) (before ++ stretch)) := by
      rw [hend] at hto ⊢
      have := deficit_le_largestOn hno hto []
      rwa [List.append_nil] at this
    have hdeficit := (haccounts i hi).deficit
    refine ⟨?_, ?_, ?_⟩ <;> omega
  · intro i j hi hj
    have hlast : stop.round ≠ neverCredited := fun hlast => by
      rw [hlast] at hround
      exact absurd hround (by decide)
    have hphase := ((haccounts i hi).phase_eq hlast).2
    have hphase' := ((haccounts j hj).phase_eq hlast).2
    rcases Nat.le_total i.val j.val with hij | hij
    · have hfrom := phase_order (Fin.le_def.mpr hij) start
      have hto := phase_order (Fin.le_def.mpr hij) stop
      omega
    · have hfrom := phase_order (Fin.le_def.mpr hij) start
      have hto := phase_order (Fin.le_def.mpr hij) stop
      omega

/-- A run that ends in a turn of stream 3, with payloads waiting on streams 1 and 2. -/
def sampleBefore : List SchedulerOp :=
  [.enqueue 3 [0], .dequeueNext 9, .enqueue 1 [1, 1, 1], .enqueue 1 [2, 2, 2], .enqueue 1 [3, 3, 3],
    .enqueue 2 [4, 4, 4, 4], .enqueue 2 [5, 5, 5, 5]]

/-- A stretch that ends in the next turn of stream 3. -/
def sampleStretch : List SchedulerOp :=
  [.dequeueNext 9, .dequeueNext 9, .dequeueNext 9, .enqueue 3 [6], .dequeueNext 9]

/-- With a quantum of one byte, streams 1 and 2 are credited once each: stream 1 sends six bytes of
its credit of six, stream 2 four of five. -/
theorem scheduler_fair_one_round :
    let start := endState schedulerStep (withQuantum 1) sampleBefore
    let stop := endState schedulerStep start sampleStretch
    (bytesIn 1 start sampleStretch, creditsIn 1 start sampleStretch) = (6, 1) ∧
    (bytesIn 2 start sampleStretch, creditsIn 2 start sampleStretch) = (4, 1) ∧
    creditsIn 1 start sampleStretch ≤ creditsIn 2 start sampleStretch + 1 ∧
    bytesIn 2 start sampleStretch + (stop.deficits 2).toNat =
      creditsIn 2 start sampleStretch * ((defaultWeights 2).toNat * (1 : UInt64).toNat) +
        (start.deficits 2).toNat := by
  have hfair := @scheduler_fair 1 sampleBefore sampleStretch _ _ rfl rfl (by decide +kernel)
    (by decide +kernel)
  exact ⟨by decide +kernel, by decide +kernel,
    hfair.2 0 1 (by decide +kernel) (by decide +kernel),
    (hfair.1 1 (by decide +kernel) (by decide +kernel) (by decide +kernel)).1⟩

end Blackwing.Protocol

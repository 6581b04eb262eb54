import Blackwing.Lib.Run
import Blackwing.Protocol.Scheduler

/-!
# Runs of the scheduler

Any interleaving of `enqueue` and `dequeue_next` calls on one scheduler. A call of
`dequeue_next` that has used up the passes it was given is still running, and the
scheduler is taken to be as it was before the call.

* `dequeueNext_took`: a call takes the front payload of one queue or none at all.
* `scheduler_conserves`: on every stream, what was dequeued followed by what is queued
  is what was enqueued; a payload of streams 1 to 6 is returned only when stream 0 is empty.
-/

namespace Blackwing.Protocol

open DrrScheduler SchedulerLemmas

/-- A call on the scheduler. -/
inductive SchedulerOp where
  | enqueue (streamId : UInt8) (data : List UInt8)
  | dequeueNext (passes : Nat)
deriving DecidableEq

/-- What came of it. -/
inductive SchedulerOut where
  | enqueued (r : Outcome SchedulerError Unit)
  | dequeued (r : Outcome Empty Dequeued)
  | running
deriving DecidableEq

/-- One call. -/
def schedulerStep (self : DrrScheduler) : SchedulerOp → SchedulerOut × DrrScheduler
  | .enqueue streamId data =>
    (.enqueued (enqueue streamId data self).1, (enqueue streamId data self).2)
  | .dequeueNext passes =>
    match dequeueNext passes self with
    | some (r, next) => (.dequeued r, next)
    | none => (.running, self)

/-- An entry of a run of the scheduler. -/
abbrev SchedulerEntry : Type := Entry DrrScheduler SchedulerOp SchedulerOut

/-- The payload that a call enqueued on a stream. -/
def enqueuedOn (s : Fin numStreams) (e : SchedulerEntry) : Option (List UInt8) :=
  match e.input, e.out with
  | .enqueue streamId data, .enqueued (.ok _) => if streamId.toNat = s.val then some data else none
  | _, _ => none

/-- The payload that a call dequeued from a stream. -/
def dequeuedFrom (s : Fin numStreams) (e : SchedulerEntry) : Option (List UInt8) :=
  match e.out with
  | .dequeued (.ok (some (t, data))) => if t = s then some data else none
  | _ => none

/-- No deficit, product or round counter overflowed in the call. -/
def NoOverflow (e : SchedulerEntry) : Prop := e.out ≠ .dequeued .panicked

instance (e : SchedulerEntry) : Decidable (NoOverflow e) := inferInstanceAs (Decidable (_ ≠ _))

/-- What a call of `dequeue_next` can do to the queues: take the front of one of them, or
nothing. -/
inductive Took (before after : Fin numStreams → List (List UInt8)) : Outcome Empty Dequeued → Prop
  | payload (s : Fin numStreams) (data : List UInt8) (hfront : before s = data :: after s)
      (hother : ∀ t, t ≠ s → after t = before t) (hstrict : s ≠ 0 → before 0 = []) :
      Took before after (.ok (some (s, data)))
  | nothing (r : Outcome Empty Dequeued) (hr : ∀ taken, r ≠ .ok (some taken))
      (hsame : after = before) : Took before after r

namespace SchedulerRunsLemmas

variable {self next : DrrScheduler}

theorem queues_of_again (h : Turned self none next) : next.queues = self.queues := by
  cases h with
  | saved paid _ front rest _ hpaid _ hnext =>
    exact (queues_movedOn hnext).trans (queues_paid hpaid)
  | skipped _ _ _ hnext => exact (queues_movedOn hnext).trans rfl

theorem took_of_ended {r : Outcome Empty Dequeued} (h : Turned self (some r) next)
    (hstrict : self.queues 0 = []) : Took self.queues next.queues r := by
  cases h with
  | served paid front rest d hqueue hpaid hd =>
    have hafter : ∀ t, ((paid.setQueue self.current rest).setDeficit self.current d).queues t =
        if t = self.current then rest else self.queues t := by
      intro t
      rw [queues_setDeficit, queues_setQueue, queues_paid hpaid]
    refine .payload self.current front ?_ (fun t ht => ?_) (fun _ => hstrict)
    · rw [hafter, if_pos rfl, hqueue]
    · rw [hafter, if_neg ht]
  | idle _ _ hnext => exact .nothing _ (fun _ h => nomatch h) ((queues_movedOn hnext).trans rfl)
  | panicked _ hqueues => exact .nothing _ (fun _ h => nomatch h) hqueues

/-- What a returned call of `dequeue_next` did to the queues. -/
theorem dequeueNext_took {passes : Nat} {r : Outcome Empty Dequeued}
    (h : dequeueNext passes self = some (r, next)) : Took self.queues next.queues r := by
  rcases dequeueNext_cases passes self with ⟨data, rest, hqueue, hcall⟩ | ⟨hqueue, hcall⟩
  · rw [hcall] at h
    cases h
    refine .payload 0 data ?_ (fun t ht => ?_) (fun h => absurd rfl h)
    · rw [queues_setQueue, if_pos rfl, hqueue]
    · rw [queues_setQueue, if_neg ht]
  · rw [hcall] at h
    refine Call.loop_rule (P := fun _ t => t.queues = self.queues)
      (Q := fun _ r t => Took self.queues t.queues r) ?_ ?_ rfl h
    · intro _ t ht hagain
      exact (queues_of_again (turned_of_ended hagain)).trans ht
    · intro _ t r ht hended
      rw [← ht]
      exact took_of_ended (turned_of_ended hended) (by rw [ht, hqueue])

/-- What one call adds on a stream. -/
theorem queues_step (op : SchedulerOp) (s : Fin numStreams) :
    (dequeuedFrom s (stepEntry schedulerStep self op)).toList ++ (schedulerStep self op).2.queues s =
      self.queues s ++ (enqueuedOn s (stepEntry schedulerStep self op)).toList := by
  cases op with
  | enqueue streamId data =>
    rcases streamIndex_cases streamId with ⟨idx, hidx, hindex⟩ | ⟨-, hindex⟩
    · have hcall : enqueue streamId data self =
          (.ok (), self.setQueue idx (self.queues idx ++ [data])) := by
        rw [enqueue, hindex, Call.ofOutcome_ok_bind, Call.update_apply]
      simp only [dequeuedFrom, enqueuedOn, stepEntry, schedulerStep, hcall, queues_setQueue]
      by_cases h : s = idx
      · subst h
        simp [hidx]
      · have hne : ¬ streamId.toNat = s.val := fun he => h (Fin.ext (he.symm.trans hidx.symm))
        simp [h, hne]
    · have hcall : enqueue streamId data self = (.err (.invalidStreamId streamId), self) := by
        rw [enqueue, hindex, Call.ofOutcome_err_bind]
      simp [dequeuedFrom, enqueuedOn, stepEntry, schedulerStep, hcall]
  | dequeueNext passes =>
    cases hcall : dequeueNext passes self with
    | none => simp [dequeuedFrom, enqueuedOn, stepEntry, schedulerStep, hcall]
    | some result =>
      obtain ⟨r, next⟩ := result
      cases dequeueNext_took hcall with
      | payload t data hfront hother _ =>
        by_cases h : t = s
        · subst h
          simp [dequeuedFrom, enqueuedOn, stepEntry, schedulerStep, hcall, hfront]
        · simp [dequeuedFrom, enqueuedOn, stepEntry, schedulerStep, hcall, h,
            hother s (fun he => h he.symm)]
      | nothing r hr hsame =>
        have hnone : dequeuedFrom s (stepEntry schedulerStep self (.dequeueNext passes)) = none := by
          simp only [dequeuedFrom, stepEntry, schedulerStep, hcall]
          split
          · next taken data he =>
            cases he
            exact absurd rfl (hr _)
          · rfl
        rw [hnone]
        simp [enqueuedOn, stepEntry, schedulerStep, hcall, hsame]

theorem queues_run (quantum : UInt64) (ops : List SchedulerOp) (s : Fin numStreams) :
    (run schedulerStep (withQuantum quantum) ops).filterMap (dequeuedFrom s) ++
        (endState schedulerStep (withQuantum quantum) ops).queues s =
      (run schedulerStep (withQuantum quantum) ops).filterMap (enqueuedOn s) := by
  refine run_induction
    (P := fun h st => h.filterMap (dequeuedFrom s) ++ st.queues s = h.filterMap (enqueuedOn s))
    rfl ?_ ops
  intro h st op ih
  rw [filterMap_snoc, filterMap_snoc, List.append_assoc, queues_step, ← List.append_assoc, ih]

theorem strict_step {op : SchedulerOp} {s : Fin numStreams} {data : List UInt8}
    (hout : (schedulerStep self op).1 = .dequeued (.ok (some (s, data)))) (hs : s ≠ 0) :
    self.queues 0 = [] := by
  cases op with
  | enqueue streamId payload => cases hout
  | dequeueNext passes =>
    cases hcall : dequeueNext passes self with
    | none =>
      simp only [schedulerStep, hcall] at hout
      cases hout
    | some result =>
      obtain ⟨r, next⟩ := result
      simp only [schedulerStep, hcall] at hout
      cases hout
      cases dequeueNext_took hcall with
      | payload _ _ _ _ hstrict => exact hstrict hs
      | nothing _ hr _ => exact absurd rfl (hr _)

theorem noOverflow_of_mem {ops : List SchedulerOp} {e : SchedulerEntry}
    (he : e ∈ run schedulerStep self ops) (h : NoOverflow e) :
    NoOverflow (stepEntry schedulerStep e.pre e.input) := by
  rw [NoOverflow, out_eq_of_mem_run he] at h
  exact h

end SchedulerRunsLemmas

open SchedulerRunsLemmas

/-- Nothing is lost, duplicated, reordered or moved to another stream, and stream 0 comes first. -/
theorem scheduler_conserves (quantum : UInt64) (ops : List SchedulerOp) (s : Fin numStreams) :
    ((run schedulerStep (withQuantum quantum) ops).filterMap (dequeuedFrom s) ++
        (endState schedulerStep (withQuantum quantum) ops).queues s =
      (run schedulerStep (withQuantum quantum) ops).filterMap (enqueuedOn s)) ∧
    ∀ e ∈ run schedulerStep (withQuantum quantum) ops, ∀ t data,
      e.out = .dequeued (.ok (some (t, data))) → t ≠ 0 → e.pre.queues 0 = [] := by
  refine ⟨queues_run quantum ops s, fun e he t data hout ht => ?_⟩
  rw [out_eq_of_mem_run he] at hout
  exact strict_step hout ht

end Blackwing.Protocol

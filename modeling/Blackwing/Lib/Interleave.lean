import Blackwing.Lib.Run
import Blackwing.Lib.Wp

/-!
# Interleavings of threads on a shared state

A thread is a value between two atomic sections. A section reads and writes the
shared state and leaves the thread at its next one. A pool is the shared state with
all threads started so far, and a schedule starts threads, advances one of them by a
section, or lets something outside of the threads change the shared state.

* `Threads`, `Pool`, `poolStep`: the machine whose runs are the interleavings.
* `pool_guarded`: what each section preserves of the shared state and of its own
  thread holds of every interleaving whose sections meet a condition.
* `alone_eq_inSequence`: a thread whose sections are calls, and that no other thread
  disturbs, does what the calls in sequence do.
-/

namespace Blackwing

variable {σ θ κ ι ε : Type}

/-- How threads start, what a section does, and what happens outside of the threads. -/
structure Threads (σ θ κ ι ε : Type) where
  start : κ → θ
  advance : θ → ι → σ → θ × σ
  outside : ε → σ → σ

/-- The shared state and the threads, in the order in which they were started. -/
structure Pool (σ θ : Type) where
  shared : σ
  threads : List θ

/-- One choice of a scheduler. -/
inductive PoolOp (κ ι ε : Type) where
  | spawn (call : κ)
  | advance (index : Nat) (input : ι)
  | outside (event : ε)

/-- One step of a pool. An index of no thread changes nothing. -/
def poolStep (T : Threads σ θ κ ι ε) (p : Pool σ θ) : PoolOp κ ι ε → Unit × Pool σ θ
  | .spawn call => ((), ⟨p.shared, p.threads ++ [T.start call]⟩)
  | .advance index input =>
    match p.threads[index]? with
    | none => ((), p)
    | some thread =>
      ((), ⟨(T.advance thread input p.shared).2,
        p.threads.set index (T.advance thread input p.shared).1⟩)
  | .outside event => ((), ⟨T.outside event p.shared, p.threads⟩)

/-- The section that a step runs meets the condition. -/
def SectionMeets (G : θ → ι → σ → Prop) (p : Pool σ θ) (op : PoolOp κ ι ε) : Prop :=
  ∀ index input thread, op = .advance index input → p.threads[index]? = some thread →
    G thread input p.shared

/-- One property of the shared state and one of every thread. -/
def Pool.Holds (I : σ → Prop) (J : θ → Prop) (p : Pool σ θ) : Prop :=
  I p.shared ∧ ∀ thread ∈ p.threads, J thread

variable {T : Threads σ θ κ ι ε}

/-- A section leaves its thread in the pool. -/
theorem advanced_mem {p : Pool σ θ} {index : Nat} {thread : θ} (h : p.threads[index]? = some thread)
    (input : ι) :
    (T.advance thread input p.shared).1 ∈
      (poolStep T p (.advance index input)).2.threads := by
  rw [poolStep, h]
  exact List.mem_set (List.getElem?_eq_some_iff.mp h).1 _

section Rule

variable {G : θ → ι → σ → Prop} {I : σ → Prop} {J : θ → Prop}

section

variable (hstart : ∀ call, J (T.start call))
  (hadvance : ∀ thread input s, I s → J thread → G thread input s →
    I (T.advance thread input s).2 ∧ J (T.advance thread input s).1)
  (houtside : ∀ event s, I s → I (T.outside event s))
include hstart hadvance houtside

theorem holds_poolStep {p : Pool σ θ} {op : PoolOp κ ι ε} (hp : p.Holds I J)
    (hmeets : SectionMeets G p op) : (poolStep T p op).2.Holds I J := by
  obtain ⟨hshared, hthreads⟩ := hp
  cases op with
  | spawn call =>
    refine ⟨hshared, fun thread hmem => ?_⟩
    rcases List.mem_append.mp hmem with hold | hnew
    · exact hthreads thread hold
    · rw [List.mem_singleton.mp hnew]
      exact hstart call
  | outside event => exact ⟨houtside event _ hshared, hthreads⟩
  | advance index input =>
    rw [poolStep]
    cases hget : p.threads[index]? with
    | none => exact ⟨hshared, hthreads⟩
    | some thread =>
      obtain ⟨hshared', hthread'⟩ := hadvance thread input p.shared hshared
        (hthreads thread (List.mem_of_getElem? hget)) (hmeets index input thread rfl hget)
      refine ⟨hshared', fun other hmem => ?_⟩
      rcases List.mem_or_eq_of_mem_set hmem with hold | rfl
      · exact hthreads other hold
      · exact hthread'

/-- The invariant rule for interleavings. Each section is looked at once, alone. -/
theorem pool_guarded {p : Pool σ θ} (init : p.Holds I J) {ops : List (PoolOp κ ι ε)}
    (guard : ∀ e ∈ run (poolStep T) p ops, SectionMeets G e.pre e.input) :
    ∀ e ∈ run (poolStep T) p ops, e.pre.Holds I J ∧ e.post.Holds I J := by
  have hrun := @run_guarded _ _ _ (poolStep T) (SectionMeets G)
    (fun h q => (∀ e ∈ h, e.pre.Holds I J ∧ e.post.Holds I J) ∧ q.Holds I J) p
    ⟨fun e he => absurd he List.not_mem_nil, init⟩ ?_ ops guard
  · exact hrun.1
  · rintro h q op ⟨hpast, hq⟩ hmeets
    have hnext := holds_poolStep hstart hadvance houtside hq hmeets
    refine ⟨fun e he => ?_, hnext⟩
    rcases List.mem_append.mp he with hold | hlast
    · exact hpast e hold
    · rw [List.mem_singleton.mp hlast]
      exact ⟨hq, hnext⟩

end

end Rule

/-! ## Threads that run calls -/

section Calls

variable {ε' α : Type}

/-- The section of a thread that a call performs. Its error or its panic finishes the thread. -/
def Call.orFinish (finished : Outcome ε' α → θ) (x : Call σ ε' θ) (s : σ) : θ × σ :=
  match x s with
  | (.ok thread, s') => (thread, s')
  | (.err e, s') => (finished (.err e), s')
  | (.panicked, s') => (finished .panicked, s')

/-- A section keeps what its call establishes, when every finished thread is fine. -/
theorem holds_orFinish {I : σ → Prop} {J : θ → Prop} {finished : Outcome ε' α → θ}
    (hfinished : ∀ r, J (finished r)) {x : Call σ ε' θ} {s : σ}
    (hx : x.wp (fun thread s' => I s' ∧ J thread) I s) :
    I (x.orFinish finished s).2 ∧ J (x.orFinish finished s).1 := by
  unfold Call.wp at hx
  unfold Call.orFinish
  split at hx
  · next h => rw [h]; exact hx
  · next h => rw [h]; exact ⟨hx, hfinished _⟩
  · next h => rw [h]; exact ⟨hx, hfinished _⟩

variable (finished : Outcome ε' α → θ) (next : θ → Call σ ε' θ) (result : θ → Outcome ε' α)

/-- A thread and the shared state after `n` of its sections with nothing in between. -/
def alone : Nat → θ → σ → θ × σ
  | 0, thread, s => (thread, s)
  | n + 1, thread, s =>
    alone n ((next thread).orFinish finished s).1 ((next thread).orFinish finished s).2

/-- `n` sections of a thread as one call. -/
def inSequence : Nat → θ → Call σ ε' α
  | 0, thread => Call.ofOutcome (result thread)
  | n + 1, thread => next thread >>= inSequence n

variable {finished next result}

section

variable (hnext : ∀ r, next (finished r) = pure (finished r))
  (hresult : ∀ r, result (finished r) = r)
include hnext hresult

theorem inSequence_finished (n : Nat) (r : Outcome ε' α) (s : σ) :
    inSequence next result n (finished r) s = (r, s) := by
  induction n with
  | zero => rw [inSequence, hresult, Call.ofOutcome_apply]
  | succ n ih =>
    rw [inSequence, hnext]
    exact ih

/-- A thread that nothing disturbs ends as the call of its sections in sequence. -/
theorem alone_eq_inSequence {left : θ → Nat}
    (hzero : ∀ thread, left thread = 0 → thread = finished (result thread))
    (hfinished : ∀ r, left (finished r) = 0)
    (hleft : ∀ thread s t s', next thread s = (.ok t, s') → left t ≤ left thread - 1) {n : Nat}
    {thread : θ} (s : σ) (hn : left thread ≤ n) :
    alone finished next n thread s =
      (finished (inSequence next result n thread s).1, (inSequence next result n thread s).2) := by
  induction n generalizing thread s with
  | zero => exact congrArg (·, s) (hzero thread (Nat.le_zero.mp hn))
  | succ n ih =>
    rw [alone, inSequence, Call.orFinish]
    rcases hx : next thread s with ⟨t | e | _, s'⟩
    · rw [Call.bind_of_ok hx]
      exact ih s' (Nat.le_trans (hleft thread s t s' hx) (Nat.sub_le_of_le_add hn))
    · rw [Call.bind_of_err hx, ih s' (by rw [hfinished]; exact Nat.zero_le n),
        inSequence_finished hnext hresult]
    · rw [Call.bind_of_panicked hx, ih s' (by rw [hfinished]; exact Nat.zero_le n),
        inSequence_finished hnext hresult]

end

end Calls

end Blackwing

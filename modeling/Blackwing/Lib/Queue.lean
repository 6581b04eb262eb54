import Blackwing.Lib.Run

/-!
# Queues along a run

A part of the state is read as a queue. A step may put values in at the back and take values out at
the front, and both are read off the entry of the step.

* `run_conserves`: what was in the queue and what was put in is what was taken out and what is left,
  in this order, if every single step has it so.
-/

namespace Blackwing

variable {σ ι ο α : Type} {step : σ → ι → ο × σ}

/-- What holds of the queue in one step. -/
def Conserves (step : σ → ι → ο × σ) (queue : σ → List α) (put take : Entry σ ι ο → List α) (s : σ)
    (i : ι) : Prop :=
  queue s ++ put (stepEntry step s i) = take (stepEntry step s i) ++ queue (step s i).2

variable {queue : σ → List α} {put take : Entry σ ι ο → List α}

/-- The values pass the queue in order, none lost and none twice. -/
theorem run_conserves {P : σ → Prop} {G : σ → ι → Prop} {s : σ} (init : P s)
    (preserved : ∀ s i, P s → G s i → P (step s i).2 ∧ Conserves step queue put take s i)
    {is : List ι} (guard : ∀ e ∈ run step s is, G e.pre e.input) :
    queue s ++ (run step s is).flatMap put =
      (run step s is).flatMap take ++ queue (endState step s is) := by
  have hrun : P (endState step s is) ∧ queue s ++ (run step s is).flatMap put =
      (run step s is).flatMap take ++ queue (endState step s is) := by
    refine run_guarded (P := fun h t => P t ∧ queue s ++ h.flatMap put = h.flatMap take ++ queue t)
      ⟨init, by simp⟩ ?_ guard
    rintro h t i ⟨hinv, heq⟩ hg
    obtain ⟨hinv', hstep⟩ := preserved t i hinv hg
    refine ⟨hinv', ?_⟩
    rw [List.flatMap_append, List.flatMap_append, List.flatMap_singleton, List.flatMap_singleton,
      ← List.append_assoc, heq, List.append_assoc, hstep, List.append_assoc]
  exact hrun.2

end Blackwing

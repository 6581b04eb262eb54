import Blackwing.Lib.Call

/-!
# Loops without a bound

A `loop` over a mutable state whose body either goes round again or ends the loop.
Such a loop need not end, so it is run for a number of passes, and it has no result
when they are used up.

* `Call.loop`, `Call.heads`: the result of a loop and the states in which its passes begin.
* `loop_rule`, `forall_heads`: the invariant rules, for the end of the loop and for its passes.
* `loop_ends`: the ranking rule.
-/

namespace Blackwing

/-- How the loop ends after a pass of its body; `none` when it goes round again. -/
def Outcome.ended {ε α : Type} : Outcome ε (Option α) → Option (Outcome ε α)
  | .ok none => none
  | .ok (some a) => some (.ok a)
  | .err e => some (.err e)
  | .panicked => some .panicked

namespace Call

variable {σ ε α : Type}

/-- The loop with this body, run for a number of passes. -/
def loop (body : Call σ ε (Option α)) : Nat → σ → Option (Outcome ε α × σ)
  | 0, _ => none
  | n + 1, s =>
    match (body s).1.ended with
    | none => loop body n (body s).2
    | some r => some (r, (body s).2)

/-- The states in which the passes of the loop begin. -/
def heads (body : Call σ ε (Option α)) : Nat → σ → List σ
  | 0, _ => []
  | n + 1, s =>
    match (body s).1.ended with
    | none => s :: heads body n (body s).2
    | some _ => [s]

variable {body : Call σ ε (Option α)} {s s' : σ} {n : Nat} {r : Outcome ε α}

theorem loop_of_again (h : (body s).1.ended = none) :
    loop body (n + 1) s = loop body n (body s).2 := by
  rw [loop, h]

theorem loop_of_ended (h : (body s).1.ended = some r) :
    loop body (n + 1) s = some (r, (body s).2) := by
  rw [loop, h]

theorem heads_of_again (h : (body s).1.ended = none) :
    heads body (n + 1) s = s :: heads body n (body s).2 := by
  rw [heads, h]

theorem heads_of_ended (h : (body s).1.ended = some r) : heads body (n + 1) s = [s] := by
  rw [heads, h]

/-- The invariant rule. What each pass preserves of the states seen so far holds when the loop
ends. -/
theorem loop_rule {P : List σ → σ → Prop} {Q : List σ → Outcome ε α → σ → Prop}
    (again : ∀ h t, P h t → (body t).1.ended = none → P (h ++ [t]) (body t).2)
    (stop : ∀ h t r, P h t → (body t).1.ended = some r → Q (h ++ [t]) r (body t).2)
    (init : P [] s) (h : loop body n s = some (r, s')) : Q (heads body n s) r s' := by
  suffices ∀ n s before, P before s → loop body n s = some (r, s') →
      Q (before ++ heads body n s) r s' from this n s [] init h
  clear init h
  intro n
  induction n with
  | zero => exact fun s before _ h => nomatch h
  | succ n ih =>
    intro s before hP h
    cases he : (body s).1.ended with
    | none =>
      rw [loop_of_again he] at h
      rw [heads_of_again he, List.append_cons]
      exact ih _ _ (again _ _ hP he) h
    | some r' =>
      rw [loop_of_ended he] at h
      cases h
      rw [heads_of_ended he]
      exact stop _ _ _ hP he

/-- What each pass preserves holds whenever a pass begins. -/
theorem forall_heads {I : σ → Prop} (again : ∀ t, I t → (body t).1.ended = none → I (body t).2)
    (init : I s) (n : Nat) : ∀ t ∈ heads body n s, I t := by
  induction n generalizing s with
  | zero => exact nofun
  | succ n ih =>
    intro t ht
    cases he : (body s).1.ended with
    | none =>
      rw [heads_of_again he] at ht
      rcases List.mem_cons.mp ht with rfl | ht
      · exact init
      · exact ih (again s init he) t ht
    | some r =>
      rw [heads_of_ended he] at ht
      exact List.mem_singleton.mp ht ▸ init

/-- The ranking rule. A loop whose passes lower a rank ends. -/
theorem loop_ends {I : σ → Prop} {rank : σ → Nat}
    (again : ∀ t, I t → (body t).1.ended = none → I (body t).2 ∧ rank (body t).2 < rank t)
    (init : I s) (h : rank s < n) : ∃ r s', loop body n s = some (r, s') := by
  induction n generalizing s with
  | zero => exact absurd h (Nat.not_lt_zero _)
  | succ n ih =>
    cases he : (body s).1.ended with
    | none =>
      obtain ⟨hnext, hlt⟩ := again s init he
      rw [loop_of_again he]
      exact ih hnext (Nat.lt_of_lt_of_le hlt (Nat.le_of_lt_succ h))
    | some r => exact ⟨r, (body s).2, loop_of_ended he⟩

end Call

end Blackwing

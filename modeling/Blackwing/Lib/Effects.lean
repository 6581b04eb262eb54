import Blackwing.Lib.Call

/-!
# Effects that may be refused

Effects on the world outside are attempted one after the other. Each is carried out or
refused, and the first refusal ends the sequence; what was carried out before stays.

* `Call.attempt`: one effect, recorded in the state when it is carried out.
* `forM_attempt`: a sequence records what comes before the first refusal, and
  `forM_eq_ok_iff`: it succeeds when nothing is refused.
* `forM_optional`: a loop that attempts something in some of its passes.
-/

namespace Blackwing

variable {σ ε ι α : Type}

/-- The effect was not refused. -/
def Outcome.accepted : Outcome ε Unit → Bool
  | ok _ => true
  | _ => false

@[simp] theorem Outcome.accepted_mapErr {ε' : Type} (f : ε → ε') (x : Outcome ε Unit) :
    (x.mapErr f).accepted = x.accepted := by
  cases x <;> rfl

/-- Behind a refusal nothing is carried out. -/
theorem takeWhile_append_of_refused {p : α → Bool} {l₁ l₂ : List α} (h : ¬ ∀ a ∈ l₁, p a = true) :
    (l₁ ++ l₂).takeWhile p = l₁.takeWhile p := by
  induction l₁ with
  | nil => exact absurd (fun a ha => absurd ha List.not_mem_nil) h
  | cons a l₁ ih =>
    rw [List.cons_append, List.takeWhile_cons, List.takeWhile_cons]
    cases ha : p a with
    | true =>
      have hrest : ¬ ∀ b ∈ l₁, p b = true := fun hall => h (List.forall_mem_cons.mpr ⟨ha, hall⟩)
      rw [if_pos rfl, if_pos rfl, ih hrest]
    | false => rfl

namespace Call

/-- An effect that is recorded unless it is refused. -/
def attempt (accept : ι → Outcome ε Unit) (record : σ → ι → σ) (i : ι) : Call σ ε Unit := fun s =>
  (accept i, if (accept i).accepted then record s i else s)

/-- A sequence of effects records what comes before the first refusal. -/
theorem forM_attempt (accept : ι → Outcome ε Unit) (record : σ → ι → σ) (effects : List ι) (s : σ) :
    effects.forM (attempt accept record) s =
      (effects.forM accept, (effects.takeWhile fun i => (accept i).accepted).foldl record s) := by
  induction effects generalizing s with
  | nil => rfl
  | cons i effects ih =>
    show (attempt accept record i >>= fun _ => effects.forM (attempt accept record)) s =
      (accept i >>= fun _ => effects.forM accept, _)
    rw [bind_apply, attempt, List.takeWhile_cons]
    cases accept i with
    | ok u => exact ih (record s i)
    | err e => rfl
    | panicked => rfl

theorem forM_eq_ok_iff {accept : ι → Outcome ε Unit} {effects : List ι} :
    effects.forM accept = .ok () ↔ ∀ i ∈ effects, (accept i).accepted = true := by
  induction effects with
  | nil => exact iff_of_true rfl fun i hi => absurd hi List.not_mem_nil
  | cons i effects ih =>
    show (accept i >>= fun _ => effects.forM accept) = .ok () ↔ _
    rw [List.forall_mem_cons, ← ih]
    cases accept i with
    | ok u => exact (and_iff_right rfl).symm
    | err e => exact iff_of_false (fun h => nomatch h) fun h => nomatch h.1
    | panicked => exact iff_of_false (fun h => nomatch h) fun h => nomatch h.1

theorem forM_singleton (f : α → Call σ ε Unit) (a : α) : [a].forM f = f a := by
  funext s
  show (f a >>= fun _ => pure ()) s = f a s
  rw [bind_apply]
  rcases f a s with ⟨_ | _ | _, s'⟩ <;> rfl

/-- A loop that attempts an effect in some of its passes is the sequence of these effects. -/
theorem forM_optional (f : α → Option ι) (g : ι → Call σ ε Unit) (l : List α) :
    (l.forM fun a => (f a).elim (pure ()) g) = (l.filterMap f).forM g := by
  induction l with
  | nil => rfl
  | cons a l ih =>
    show ((f a).elim (pure ()) g >>= fun _ => l.forM _) = _
    rw [ih, List.filterMap_cons]
    cases f a with
    | some i => rfl
    | none => rfl

end Call

end Blackwing

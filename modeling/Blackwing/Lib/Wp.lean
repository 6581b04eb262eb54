import Blackwing.Lib.Call

/-!
# Weakest preconditions of calls

`x.wp Q E s`: the call `x` on the state `s` returns a value and a state that satisfy
`Q`, or it ends with an error or a panic in a state that satisfies `E`. A call that
fails keeps its writes, so the state it leaves needs a condition of its own.

* `wp_bind`, `wp_rejectIf` and the others: one rule for each operation of a call, by
  which `simp` turns a call into its verification condition.
* `wp_mono`, `wp_of_forall`: weaker conditions, and a condition that every state meets.
* `wp_const`: a condition on the state alone, however the call ends.
* `of_wp_ok`, `cases_of_wp`: what a call that returned has established, and what any call has.
-/

namespace Blackwing.Call

variable {σ τ ε ε' α β : Type} {Q : α → σ → Prop} {E : σ → Prop} {s : σ}

/-- The weakest precondition of a call. -/
def wp (x : Call σ ε α) (Q : α → σ → Prop) (E : σ → Prop) (s : σ) : Prop :=
  match x s with
  | (.ok a, s') => Q a s'
  | (.err _, s') => E s'
  | (.panicked, s') => E s'

variable {x : Call σ ε α}

theorem of_wp_ok (h : x.wp Q E s) {a : α} {s' : σ} (hx : x s = (.ok a, s')) : Q a s' := by
  rw [wp, hx] at h
  exact h

theorem cases_of_wp (h : x.wp Q E s) : (∃ a, Q a (x s).2) ∨ E (x s).2 := by
  revert h
  unfold wp
  rcases x s with ⟨a | e | _, s'⟩
  · exact fun h => Or.inl ⟨a, h⟩
  · exact Or.inr
  · exact Or.inr

theorem wp_mono {Q' : α → σ → Prop} {E' : σ → Prop} (hQ : ∀ a s', Q a s' → Q' a s')
    (hE : ∀ s', E s' → E' s') (h : x.wp Q E s) : x.wp Q' E' s := by
  unfold wp at h ⊢
  split at h
  · exact hQ _ _ h
  · exact hE _ h
  · exact hE _ h

theorem wp_of_forall (hQ : ∀ a s', Q a s') (hE : ∀ s', E s') : x.wp Q E s := by
  unfold wp
  split
  · exact hQ _ _
  · exact hE _
  · exact hE _

theorem wp_const : x.wp (fun _ => E) E s ↔ E (x s).2 := by
  unfold wp
  rcases x s with ⟨a | e | _, s'⟩ <;> rfl

/-- What the first call reaches in every case, and the second one keeps. -/
theorem holds_bind {f : α → Call σ ε β} (hx : E (x s).2) (hf : ∀ a s', E s' → E (f a s').2) :
    E ((x >>= f) s).2 := by
  rw [bind_apply]
  rcases hs : x s with ⟨a | e | _, s'⟩ <;> rw [hs] at hx
  · exact hf a s' hx
  · exact hx
  · exact hx

@[simp] theorem wp_pure {a : α} : (pure a : Call σ ε α).wp Q E s ↔ Q a s := Iff.rfl

@[simp] theorem wp_bind {Q : β → σ → Prop} {f : α → Call σ ε β} :
    (x >>= f).wp Q E s ↔ x.wp (fun a s' => (f a).wp Q E s') E s := by
  unfold wp
  rw [bind_apply]
  rcases x s with ⟨a | e | _, s'⟩ <;> rfl

@[simp] theorem wp_getState {Q : σ → σ → Prop} : (getState : Call σ ε σ).wp Q E s ↔ Q s s := Iff.rfl

@[simp] theorem wp_update {Q : Unit → σ → Prop} {f : σ → σ} :
    (update f : Call σ ε Unit).wp Q E s ↔ Q () (f s) := Iff.rfl

@[simp] theorem wp_rejectIf {Q : Unit → σ → Prop} {c : Prop} [Decidable c] {e : ε} :
    (rejectIf c e : Call σ ε Unit).wp Q E s ↔ (c → E s) ∧ (¬ c → Q () s) := by
  unfold wp rejectIf
  by_cases hc : c
  · rw [if_pos hc]
    exact ⟨fun h => ⟨fun _ => h, fun hn => absurd hc hn⟩, fun h => h.1 hc⟩
  · rw [if_neg hc]
    exact ⟨fun h => ⟨fun hy => absurd hy hc, fun _ => h⟩, fun h => h.2 hc⟩

/-- A value is returned, or the call ends where it began. -/
@[simp] theorem wp_ofOutcome {x : Outcome ε α} :
    (ofOutcome x : Call σ ε α).wp Q E s ↔ (∀ a, x = .ok a → Q a s) ∧ ((∀ a, x ≠ .ok a) → E s) := by
  unfold wp ofOutcome
  cases x with
  | ok a =>
    refine ⟨fun h => ⟨fun b hb => Outcome.ok.inj hb ▸ h, fun hn => absurd rfl (hn a)⟩,
      fun h => h.1 a rfl⟩
  | err e =>
    exact ⟨fun h => ⟨(fun _ hb => nomatch hb), fun _ => h⟩, fun h => h.2 fun _ hb => nomatch hb⟩
  | panicked =>
    exact ⟨fun h => ⟨(fun _ hb => nomatch hb), fun _ => h⟩, fun h => h.2 fun _ hb => nomatch hb⟩

@[simp] theorem wp_onPart {get : σ → τ} {set : σ → τ → σ} {h : ε' → ε} {x : Call τ ε' α} :
    (onPart get set h x).wp Q E s ↔
      x.wp (fun a t => Q a (set s t)) (fun t => E (set s t)) (get s) := by
  unfold wp onPart
  rcases x (get s) with ⟨a | e | _, t⟩ <;> rfl

end Blackwing.Call

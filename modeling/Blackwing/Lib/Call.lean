import Mathlib.Algebra.Group.Int.Defs
import Mathlib.Algebra.GroupWithZero.Nat
import Mathlib.Tactic.Common

/-!
# Fallible calls on a mutable state

A call of a method on `&mut self` returns a value, returns an error, or panics,
and in each case leaves a state behind. Unlike `StateT` over `Except`, a failed
call keeps the writes it made before it failed.

* `Outcome ε α`: how a call ended.
* `Call σ ε α`: a call on a state `σ`, with `?` as the monadic bind.
* `bind_apply` and the `_apply` lemmas: the rules by which a call is evaluated.
* `Outcome.add16`, `Outcome.add32`, `Outcome.add64`, `Outcome.mul32`, `Outcome.mul64`: arithmetic
  that panics on overflow.
* `Outcome.index`, `Outcome.store`, `Outcome.slice`: accesses that panic out of bounds.
* `Follows`: a call on a view of the state that does what another call does on the state, with one
  rule for each way to build a call.
-/

namespace Blackwing

/-- How a call ended. -/
inductive Outcome (ε α : Type) where
  | ok (a : α)
  | err (e : ε)
  | panicked
deriving DecidableEq, Repr

namespace Outcome

variable {ε ε' α β : Type}

/-- `Result::map_err`. -/
def mapErr (f : ε → ε') : Outcome ε α → Outcome ε' α
  | ok a => ok a
  | err e => err (f e)
  | panicked => panicked

/-- `Option::ok_or`. -/
def okOr (e : ε) : Option α → Outcome ε α
  | some a => ok a
  | none => err e

/-- The `?` operator between two fallible values. -/
def andThen : Outcome ε α → (α → Outcome ε β) → Outcome ε β
  | ok a, f => f a
  | err e, _ => err e
  | panicked, _ => panicked

instance : Monad (Outcome ε) where
  pure := ok
  bind := andThen

@[simp] theorem pure_eq (a : α) : (pure a : Outcome ε α) = ok a := rfl

@[simp] theorem ok_bind (a : α) (f : α → Outcome ε β) : (ok a >>= f) = f a := rfl

@[simp] theorem err_bind (e : ε) (f : α → Outcome ε β) : (err e >>= f) = err e := rfl

@[simp] theorem panicked_bind (f : α → Outcome ε β) : (panicked >>= f) = panicked := rfl

@[simp] theorem bind_pure (x : Outcome ε α) : (x >>= pure) = x := by
  cases x <;> rfl

/-- The laws of a monad. They are no instance, so that `simp` keeps the binds of the models. -/
theorem lawfulMonad : LawfulMonad (Outcome ε) :=
  LawfulMonad.mk' (Outcome ε) (fun x => by cases x <;> rfl) (fun _ _ => rfl)
    (fun x _ _ => by cases x <;> rfl)

theorem foldlM_append (f : β → α → Outcome ε β) (l l' : List α) (b : β) :
    (l ++ l').foldlM f b = l.foldlM f b >>= l'.foldlM f :=
  @List.foldlM_append _ _ _ _ lawfulMonad f b l l'

theorem bind_eq_ok {x : Outcome ε α} {f : α → Outcome ε β} {b : β} :
    (x >>= f) = ok b ↔ ∃ a, x = ok a ∧ f a = ok b := by
  cases x with
  | ok a => simp
  | err e => simp
  | panicked => simp

theorem mapErr_eq_ok {f : ε → ε'} {x : Outcome ε α} {a : α} : x.mapErr f = ok a ↔ x = ok a := by
  cases x <;> simp [mapErr]

theorem okOr_eq_ok {e : ε} {o : Option α} {a : α} : okOr e o = ok a ↔ o = some a := by
  cases o <;> simp [okOr]

/-- `u16` addition. Overflow panics. -/
def add16 (a b : UInt16) : Outcome ε UInt16 :=
  if a.toNat + b.toNat < 2 ^ 16 then ok (a + b) else panicked

/-- `u32` addition. Overflow panics. -/
def add32 (a b : UInt32) : Outcome ε UInt32 :=
  if a.toNat + b.toNat < 2 ^ 32 then ok (a + b) else panicked

/-- `u64` addition. Overflow panics. -/
def add64 (a b : UInt64) : Outcome ε UInt64 :=
  if a.toNat + b.toNat < 2 ^ 64 then ok (a + b) else panicked

/-- `u32` subtraction. Underflow panics. -/
def sub32 (a b : UInt32) : Outcome ε UInt32 :=
  if b ≤ a then ok (a - b) else panicked

/-- `u32` multiplication. Overflow panics. -/
def mul32 (a b : UInt32) : Outcome ε UInt32 :=
  if a.toNat * b.toNat < 2 ^ 32 then ok (a * b) else panicked

/-- `u64` multiplication. Overflow panics. -/
def mul64 (a b : UInt64) : Outcome ε UInt64 :=
  if a.toNat * b.toNat < 2 ^ 64 then ok (a * b) else panicked

/-- `x && y`, which evaluates `y` only if `x` is true. -/
def and (x y : Outcome ε Bool) : Outcome ε Bool := do
  if ← x then y else pure false

theorem ok_and_ok (a b : Bool) : and (ok a : Outcome ε Bool) (ok b) = ok (a && b) := by
  cases a <;> rfl

/-- `l[i]`. -/
def index (l : List α) (i : Nat) : Outcome ε α :=
  match l[i]? with
  | some a => ok a
  | none => panicked

/-- `l[i] = a`. -/
def store (l : List α) (i : Nat) (a : α) : Outcome ε (List α) :=
  if i < l.length then ok (l.set i a) else panicked

/-- `l[start..stop]`. -/
def slice (l : List α) (start stop : Nat) : Outcome ε (List α) :=
  if start ≤ stop ∧ stop ≤ l.length then ok ((l.drop start).take (stop - start)) else panicked

theorem index_eq_ok {l : List α} {i : Nat} {a : α} :
    (index l i : Outcome ε α) = ok a ↔ l[i]? = some a := by
  unfold index
  cases l[i]? with
  | none => exact ⟨nofun, nofun⟩
  | some b => rw [ok.injEq, Option.some.injEq]

theorem slice_eq_ok_of_drop {l part after : List α} {start stop : Nat}
    (h : l.drop start = part ++ after) (hstart : start ≤ l.length)
    (hstop : start + part.length = stop) : (slice l start stop : Outcome ε (List α)) = ok part := by
  have hlen : l.length - start = part.length + after.length := by
    rw [← List.length_drop, h, List.length_append]
  unfold slice
  rw [if_pos ⟨by omega, by omega⟩, h, ← hstop, Nat.add_sub_cancel_left, List.take_left]

theorem add32_eq_ok {a b c : UInt32} :
    (add32 a b : Outcome ε UInt32) = ok c ↔ c.toNat = a.toNat + b.toNat := by
  unfold add32
  split
  · next h =>
    rw [ok.injEq, ← UInt32.toNat_inj, UInt32.toNat_add, Nat.mod_eq_of_lt h]
    exact eq_comm
  · next h =>
    have hc := c.toNat_lt
    exact ⟨(fun he => nomatch he), fun he => absurd (he ▸ hc) h⟩

theorem add32_of_lt {a b : UInt32} (h : a.toNat + b.toNat < 2 ^ 32) :
    (add32 a b : Outcome ε UInt32) = ok (a + b) ∧ (a + b).toNat = a.toNat + b.toNat :=
  ⟨if_pos h, by rw [UInt32.toNat_add, Nat.mod_eq_of_lt h]⟩

theorem mul32_of_lt {a b : UInt32} (h : a.toNat * b.toNat < 2 ^ 32) :
    (mul32 a b : Outcome ε UInt32) = ok (a * b) ∧ (a * b).toNat = a.toNat * b.toNat :=
  ⟨if_pos h, by rw [UInt32.toNat_mul, Nat.mod_eq_of_lt h]⟩

theorem sub32_of_le {a b : UInt32} (h : b.toNat ≤ a.toNat) :
    ∃ c, (sub32 a b : Outcome ε UInt32) = ok c ∧ b.toNat + c.toNat = a.toNat := by
  have hle : b ≤ a := UInt32.le_iff_toNat_le.mpr h
  refine ⟨a - b, if_pos hle, ?_⟩
  rw [UInt32.toNat_sub_of_le _ _ hle, Nat.add_sub_cancel' h]

theorem add16_cases (a b : UInt16) :
    (∃ c, c.toNat = a.toNat + b.toNat ∧ (add16 a b : Outcome ε UInt16) = ok c) ∨
      (2 ^ 16 ≤ a.toNat + b.toNat ∧ (add16 a b : Outcome ε UInt16) = panicked) := by
  unfold add16
  split
  · next h => exact Or.inl ⟨a + b, by rw [UInt16.toNat_add, Nat.mod_eq_of_lt h], rfl⟩
  · next h => exact Or.inr ⟨Nat.not_lt.mp h, rfl⟩

theorem add32_cases (a b : UInt32) :
    (∃ c, c.toNat = a.toNat + b.toNat ∧ (add32 a b : Outcome ε UInt32) = ok c) ∨
      (2 ^ 32 ≤ a.toNat + b.toNat ∧ (add32 a b : Outcome ε UInt32) = panicked) := by
  unfold add32
  split
  · next h => exact Or.inl ⟨a + b, by rw [UInt32.toNat_add, Nat.mod_eq_of_lt h], rfl⟩
  · next h => exact Or.inr ⟨Nat.not_lt.mp h, rfl⟩

theorem mul64_cases (a b : UInt64) :
    (∃ c, c.toNat = a.toNat * b.toNat ∧ (mul64 a b : Outcome ε UInt64) = ok c) ∨
      (2 ^ 64 ≤ a.toNat * b.toNat ∧ (mul64 a b : Outcome ε UInt64) = panicked) := by
  unfold mul64
  split
  · next h => exact Or.inl ⟨a * b, by rw [UInt64.toNat_mul, Nat.mod_eq_of_lt h], rfl⟩
  · next h => exact Or.inr ⟨Nat.not_lt.mp h, rfl⟩

theorem add64_cases (a b : UInt64) :
    (∃ c, c.toNat = a.toNat + b.toNat ∧ (add64 a b : Outcome ε UInt64) = ok c) ∨
      (2 ^ 64 ≤ a.toNat + b.toNat ∧ (add64 a b : Outcome ε UInt64) = panicked) := by
  unfold add64
  split
  · next h => exact Or.inl ⟨a + b, by rw [UInt64.toNat_add, Nat.mod_eq_of_lt h], rfl⟩
  · next h => exact Or.inr ⟨Nat.not_lt.mp h, rfl⟩

end Outcome

/-- `u64::abs_diff`. -/
def absDiff (a b : UInt64) : UInt64 := if a < b then b - a else a - b

/-- `u64::saturating_sub`. -/
def saturatingSub (a b : UInt64) : UInt64 := if a < b then 0 else a - b

theorem toNat_saturatingSub (a b : UInt64) : (saturatingSub a b).toNat = a.toNat - b.toNat := by
  unfold saturatingSub
  split
  · next h => exact (Nat.sub_eq_zero_of_le (Nat.le_of_lt (UInt64.lt_iff_toNat_lt.mp h))).symm
  · next h => exact UInt64.toNat_sub_of_le _ _ (UInt64.not_lt.mp h)

/-- The distance to a fixed time grows with the clock. -/
theorem saturatingSub_le_left {a a' : UInt64} (h : a ≤ a') (b : UInt64) :
    saturatingSub a b ≤ saturatingSub a' b := by
  rw [UInt64.le_iff_toNat_le, toNat_saturatingSub, toNat_saturatingSub]
  exact Nat.sub_le_sub_right (UInt64.le_iff_toNat_le.mp h) _

/-- `u64::checked_mul`. -/
def checkedMul (a b : UInt64) : Option UInt64 :=
  if a.toNat * b.toNat < 2 ^ 64 then some (a * b) else none

/-- A call on a state `σ`. -/
def Call (σ ε α : Type) : Type := σ → Outcome ε α × σ

namespace Call

variable {σ τ ε ε' α β : Type}

/-- Running `f` on the result of `x`; an error or a panic of `x` ends the call
in the state `x` left. -/
def andThen (x : Call σ ε α) (f : α → Call σ ε β) : Call σ ε β := fun s =>
  match x s with
  | (.ok a, s') => f a s'
  | (.err e, s') => (.err e, s')
  | (.panicked, s') => (.panicked, s')

instance : Monad (Call σ ε) where
  pure a := fun s => (.ok a, s)
  bind := andThen

/-- The current state. -/
def getState : Call σ ε σ := fun s => (.ok s, s)

/-- A write to the state. -/
def update (f : σ → σ) : Call σ ε Unit := fun s => (.ok (), f s)

/-- `return Err(e)`. -/
def fail (e : ε) : Call σ ε α := fun s => (.err e, s)

/-- A value that does not depend on the state. -/
def ofOutcome (x : Outcome ε α) : Call σ ε α := fun s => (x, s)

/-- `if c { return Err(e) }`. -/
def rejectIf (c : Prop) [Decidable c] (e : ε) : Call σ ε Unit := fun s =>
  if c then (.err e, s) else (.ok (), s)

/-- `Result::map_err` on the result of a call. -/
def mapErr (h : ε' → ε) (x : Call σ ε' α) : Call σ ε α := fun s => ((x s).1.mapErr h, (x s).2)

/-- A call on a component of the state, with its errors converted by `h`. -/
def onPart (get : σ → τ) (set : σ → τ → σ) (h : ε' → ε) (x : Call τ ε' α) : Call σ ε α := fun s =>
  ((x (get s)).1.mapErr h, set s (x (get s)).2)

theorem bind_apply (x : Call σ ε α) (f : α → Call σ ε β) (s : σ) :
    (x >>= f) s = match x s with
      | (.ok a, s') => f a s'
      | (.err e, s') => (.err e, s')
      | (.panicked, s') => (.panicked, s') := rfl

theorem bind_bind {γ : Type} (x : Call σ ε α) (f : α → Call σ ε β) (g : β → Call σ ε γ) :
    x >>= f >>= g = x >>= fun a => f a >>= g := by
  funext s
  show andThen (andThen x f) g s = andThen x (fun a => andThen (f a) g) s
  unfold andThen
  rcases x s with ⟨_ | _ | _, s'⟩ <;> rfl

theorem bind_pure_left (a : α) (f : α → Call σ ε β) : pure a >>= f = f a := rfl

@[simp] theorem pure_apply (a : α) (s : σ) : (pure a : Call σ ε α) s = (.ok a, s) := rfl

@[simp] theorem getState_bind (f : σ → Call σ ε β) (s : σ) : (getState >>= f) s = f s s := rfl

@[simp] theorem update_apply (g : σ → σ) (s : σ) :
    (update g : Call σ ε Unit) s = (.ok (), g s) := rfl

@[simp] theorem update_bind (g : σ → σ) (f : Unit → Call σ ε β) (s : σ) :
    (update g >>= f) s = f () (g s) := rfl

@[simp] theorem fail_apply (e : ε) (s : σ) : (fail e : Call σ ε α) s = (.err e, s) := rfl

@[simp] theorem ofOutcome_apply (x : Outcome ε α) (s : σ) :
    (ofOutcome x : Call σ ε α) s = (x, s) := rfl

@[simp] theorem ofOutcome_ok_bind (a : α) (f : α → Call σ ε β) (s : σ) :
    (ofOutcome (.ok a) >>= f) s = f a s := rfl

@[simp] theorem ofOutcome_err_bind (e : ε) (f : α → Call σ ε β) (s : σ) :
    (ofOutcome (.err e) >>= f) s = (.err e, s) := rfl

@[simp] theorem ofOutcome_panicked_bind (f : α → Call σ ε β) (s : σ) :
    (ofOutcome .panicked >>= f) s = (.panicked, s) := rfl

theorem ofOutcome_bind (x : Outcome ε α) (f : α → Call σ ε β) (s : σ) :
    (ofOutcome x >>= f) s = match x with
      | .ok a => f a s
      | .err e => (.err e, s)
      | .panicked => (.panicked, s) := by
  cases x <;> rfl

theorem rejectIf_bind (c : Prop) [Decidable c] (e : ε) (f : Unit → Call σ ε β) (s : σ) :
    (rejectIf c e >>= f) s = if c then (.err e, s) else f () s := by
  show andThen (rejectIf c e) f s = _
  unfold andThen rejectIf
  split <;> split <;> simp_all

/-- A check that writes nothing, before two calls that agree in the state it was made in. -/
theorem rejectIf_bind_congr {c : Prop} [Decidable c] {e : ε} {f g : Unit → Call σ ε β} {s : σ}
    (h : f () s = g () s) : (rejectIf c e >>= f) s = (rejectIf c e >>= g) s := by
  rw [rejectIf_bind, rejectIf_bind, h]

variable {f : α → Call σ ε β} {x : Call σ ε α}

/-- A value that does not depend on the state, before two calls that agree in this state. -/
theorem ofOutcome_bind_congr {x : Outcome ε α} {g : α → Call σ ε β} {s : σ} (h : ∀ a, f a s = g a s) :
    (ofOutcome x >>= f) s = (ofOutcome x >>= g) s := by
  cases x with
  | ok a => exact h a
  | err e => rfl
  | panicked => rfl

theorem bind_of_ok {s s' : σ} {a : α} (h : x s = (.ok a, s')) (f : α → Call σ ε β) :
    (x >>= f) s = f a s' := by
  rw [bind_apply, h]

theorem bind_of_err {s s' : σ} {e : ε} (h : x s = (.err e, s')) (f : α → Call σ ε β) :
    (x >>= f) s = (.err e, s') := by
  rw [bind_apply, h]

theorem bind_of_panicked {s s' : σ} (h : x s = (.panicked, s')) (f : α → Call σ ε β) :
    (x >>= f) s = (.panicked, s') := by
  rw [bind_apply, h]

theorem bind_fst_eq_ok {s : σ} {b : β} (h : ((x >>= f) s).1 = .ok b) :
    ∃ a s', x s = (.ok a, s') ∧ (f a s').1 = .ok b := by
  rcases hx : x s with ⟨a | e | _, s'⟩
  · rw [bind_of_ok hx] at h
    exact ⟨a, s', rfl, h⟩
  · rw [bind_of_err hx] at h
    cases h
  · rw [bind_of_panicked hx] at h
    cases h

theorem onPart_of_ok {get : σ → τ} {set : σ → τ → σ} {h : ε' → ε} {x : Call τ ε' α} {s : σ} {t : τ}
    {a : α} (hx : x (get s) = (.ok a, t)) : onPart get set h x s = (.ok a, set s t) := by
  rw [onPart, hx]
  rfl

theorem bind_ofOutcome_fst (x : Call σ ε α) (g : α → Outcome ε β) (s : σ) :
    ((x >>= fun a => ofOutcome (g a)) s).1 = (x s).1 >>= g := by
  rw [bind_apply]
  rcases x s with ⟨_ | _ | _, s'⟩ <;> rfl

theorem bind_pure_apply (x : Call σ ε α) (b : β) (s : σ) :
    (x >>= fun _ => pure b) s = ((x s).1 >>= fun _ => .ok b, (x s).2) := by
  rw [bind_apply]
  rcases x s with ⟨_ | _ | _, s'⟩ <;> rfl

/-! ### Views -/

/-- On the view of the state, `y` does what `x` does on the state. -/
def Follows (view : σ → τ) (y : Call τ ε α) (x : Call σ ε α) (s : σ) : Prop :=
  y (view s) = ((x s).1, view (x s).2)

variable {view : σ → τ} {s : σ}

theorem follows_bind {y : Call τ ε α} {g : α → Call τ ε β} (h : Follows view y x s)
    (hnext : ∀ a s', x s = (.ok a, s') → Follows view (g a) (f a) s') :
    Follows view (y >>= g) (x >>= f) s := by
  unfold Follows at h ⊢
  rw [bind_apply, bind_apply, h]
  rcases hx : x s with ⟨a | e | _, s'⟩
  · exact hnext a s' hx
  · rfl
  · rfl

theorem follows_getState_bind {y : Call τ ε β} {f : σ → Call σ ε β} (h : Follows view y (f s) s) :
    Follows view y (getState >>= f) s := h

/-- Both calls read their state. -/
theorem follows_getState_both {g : τ → Call τ ε β} {f : σ → Call σ ε β}
    (h : Follows view (g (view s)) (f s) s) : Follows view (getState >>= g) (getState >>= f) s := h

theorem follows_ok_bind {α' : Type} {a : α} {a' : α'} {g : α → Call τ ε β} {f : α' → Call σ ε β}
    (h : Follows view (g a) (f a') s) :
    Follows view (ofOutcome (.ok a) >>= g) (ofOutcome (.ok a') >>= f) s := h

theorem follows_rejectIf {c : Prop} [Decidable c] {e : ε} :
    Follows view (rejectIf c e) (rejectIf c e) s := by
  unfold Follows rejectIf
  split <;> rfl

theorem follows_ofOutcome (x : Outcome ε α) : Follows view (ofOutcome x) (ofOutcome x) s := rfl

/-- Calls on parts of the state and of its view. -/
theorem follows_onPart {ρ ρ' ε'' : Type} {get : σ → ρ} {set : σ → ρ → σ} {get' : τ → ρ'}
    {set' : τ → ρ' → τ} {h : ε' → ε} {h' : ε'' → ε} {x : Call ρ ε' α} {y : Call ρ' ε'' α}
    (hout : (y (get' (view s))).1.mapErr h' = (x (get s)).1.mapErr h)
    (hstate : set' (view s) (y (get' (view s))).2 = view (set s (x (get s)).2)) :
    Follows view (onPart get' set' h' y) (onPart get set h x) s :=
  Prod.ext hout hstate

end Call

end Blackwing

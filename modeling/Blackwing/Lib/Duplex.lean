import Blackwing.Lib.Call

/-!
# Two parties that talk to each other

A party sends a message, waits for one, or has a result. Two parties are joined by a queue in each
direction; a move lets one of them go on. The moves of the two sides commute: what one side puts
behind a queue does not change what the other side takes from its front. So the order of the moves
does not matter. When one order brings both sides to an end, every other order brings them to the
same end, in as many moves.

* `Party`, `Party.runOver`: a party, and the call that it is over a given transport.
* `Duplex`, `Duplex.move`: the two parties and the queues between them.
* `moves_confluent`: every order of moves leads to the end that one of them reaches.
* `moves_clean`: what holds of every message that a party can send holds of every message in flight.
-/

namespace Blackwing

/-! ## Moves that commute -/

section Moves

variable {σ ι : Type} (move : σ → ι → Option σ)

/-- A list of moves, which may all have to be possible. -/
def moves : σ → List ι → Option σ
  | s, [] => some s
  | s, i :: is => (move s i).bind fun s' => moves s' is

/-- Two different moves that are both possible can be made in either order. -/
def MovesCommute : Prop :=
  ∀ s i j a b, i ≠ j → move s i = some a → move s j = some b →
    ∃ c, move a j = some c ∧ move b i = some c

variable {move}

/-- Where no move is possible, every way has ended. -/
theorem moves_ended {s t : σ} {is : List ι} (hend : ∀ i, move s i = none)
    (h : moves move s is = some t) :
    t = s := by
  cases is with
  | nil =>
    cases h
    rfl
  | cons i is =>
    rw [moves, hend i] at h
    cases h

section

variable [DecidableEq ι] {s e : σ} {is : List ι} (hcomm : MovesCommute move)
  (his : moves move s is = some e) (hend : ∀ i, move e i = none)
include hcomm his hend

/-- A move that is possible now can be made first on the way to the end. -/
theorem moves_pull {a : σ} {j : ι} (hj : move s j = some a) :
    ∃ js, moves move a js = some e ∧ js.length + 1 = is.length := by
  induction is generalizing s a with
  | nil =>
    cases his
    rw [hend j] at hj
    cases hj
  | cons i is ih =>
    obtain ⟨b, hb, hrest⟩ := Option.bind_eq_some_iff.mp his
    by_cases hij : i = j
    · subst hij
      cases hb.symm.trans hj
      exact ⟨is, hrest, rfl⟩
    · obtain ⟨c, hbc, hac⟩ := hcomm s i j b a hij hb hj
      obtain ⟨js, hjs, hlen⟩ := ih hrest hbc
      refine ⟨i :: js, ?_, congrArg (· + 1) hlen⟩
      rw [moves, hac, Option.bind_some]
      exact hjs

/-- Whatever moves are made, the rest of the way to the end is still open, and it has the length
that is left. -/
theorem moves_confluent {t : σ} {js : List ι} (hjs : moves move s js = some t) :
    ∃ rest, moves move t rest = some e ∧ js.length + rest.length = is.length := by
  induction js generalizing s is with
  | nil =>
    cases hjs
    exact ⟨is, his, Nat.zero_add _⟩
  | cons j js ih =>
    obtain ⟨a, ha, hrest⟩ := Option.bind_eq_some_iff.mp hjs
    obtain ⟨is', his', hlen⟩ := moves_pull hcomm his hend ha
    obtain ⟨rest, hto, hsum⟩ := ih his' hrest
    refine ⟨rest, hto, ?_⟩
    rw [List.length_cons]
    omega

end

end Moves

/-! ## Parties -/

/-- A party with messages `μ`, errors `ε` of its transport, and results `ρ`. `failed` is the result
when the transport fails, with the error or, if it panics, without. -/
inductive Party (μ ε ρ : Type) where
  | stopped (result : ρ)
  | sends (message : μ) (failed : Option ε → ρ) (next : Party μ ε ρ)
  | waits (failed : Option ε → ρ) (next : μ → Party μ ε ρ)

namespace Party

variable {μ ε ρ ρ' τ : Type}

/-- The rest of a call over a transport, from what its last call returned. -/
def resume {α : Type} (failed : Option ε → ρ) (next : α → τ → ρ × τ) : Outcome ε α × τ → ρ × τ
  | (.ok a, t) => next a t
  | (.err e, t) => (failed (some e), t)
  | (.panicked, t) => (failed none, t)

/-- A party as a call over a transport. -/
def runOver (send : μ → Call τ ε Unit) (recv : Call τ ε μ) : Party μ ε ρ → τ → ρ × τ
  | .stopped result, t => (result, t)
  | .sends message failed next, t => resume failed (fun _ => next.runOver send recv) (send message t)
  | .waits failed next, t => resume failed (fun m => (next m).runOver send recv) (recv t)

/-- A party that goes on with a value, if there is one. -/
def branch {α ε' : Type} (failed : Option ε' → ρ) (x : Outcome ε' α) (next : α → Party μ ε ρ) :
    Party μ ε ρ :=
  match x with
  | .ok a => next a
  | .err e => .stopped (failed (some e))
  | .panicked => .stopped (failed none)

theorem branch_ok {α ε' : Type} (failed : Option ε' → ρ) (a : α) (next : α → Party μ ε ρ) :
    branch failed (.ok a) next = next a := rfl

section Over

variable {α β ε' : Type} {send : μ → Call τ ε Unit} {recv : Call τ ε μ}

theorem runOver_branch (failed : Option ε' → ρ) (x : Outcome ε' α) (next : α → Party μ ε ρ) :
    (branch failed x next).runOver send recv =
      fun t => resume failed (fun a => (next a).runOver send recv) (x, t) := by
  cases x <;> rfl

theorem runOver_sends (message : μ) (failed : Option ε → ρ) (next : Party μ ε ρ) :
    (sends message failed next).runOver send recv =
      fun t => resume failed (fun _ => next.runOver send recv) (send message t) := rfl

theorem runOver_waits (failed : Option ε → ρ) (next : μ → Party μ ε ρ) :
    (waits failed next).runOver send recv =
      fun t => resume failed (fun m => (next m).runOver send recv) (recv t) := rfl

theorem runOver_stopped (result : ρ) :
    (stopped result : Party μ ε ρ).runOver send recv = fun t => (result, t) := rfl

section

variable (failed : Option ε' → ρ)

theorem resume_ok (next : α → τ → ρ × τ) (a : α) (t : τ) :
    resume failed next (.ok a, t) = next a t := rfl

theorem resume_ite (next : α → τ → ρ × τ) {c : Prop} [Decidable c] (e : ε') (x : Outcome ε' α)
    (t : τ) :
    resume failed next (if c then .err e else x, t) =
      if c then (failed (some e), t) else resume failed next (x, t) := by
  split <;> rfl

theorem resume_rejectIf (next : Unit → τ → ρ × τ) {c : Prop} [Decidable c] (e : ε') (t : τ) :
    resume failed next (Call.rejectIf c e t) = if c then (failed (some e), t) else next () t := by
  rw [Call.rejectIf]
  split <;> rfl

theorem resume_bind (next : β → τ → ρ × τ) (x : Call τ ε' α) (f : α → Call τ ε' β) (t : τ) :
    resume failed next ((x >>= f) t) = resume failed (fun a t => resume failed next (f a t)) (x t) := by
  rw [Call.bind_apply]
  rcases x t with ⟨_ | _ | _, t'⟩ <;> rfl

theorem resume_mapErr (next : α → τ → ρ × τ) (h : ε → ε') (x : Call τ ε α) (t : τ) :
    resume failed next (x.mapErr h t) = resume (fun e => failed (e.map h)) next (x t) := by
  rw [Call.mapErr]
  rcases x t with ⟨_ | _ | _, t'⟩ <;> rfl

end

end Over

/-- Everything that a party can send has the property, whatever it receives. -/
def Speaks (P : μ → Prop) : Party μ ε ρ → Prop
  | .stopped _ => True
  | .sends message _ next => P message ∧ next.Speaks P
  | .waits _ next => ∀ m, (next m).Speaks P

theorem speaks_branch {α ε' : Type} {P : μ → Prop} {failed : Option ε' → ρ} {x : Outcome ε' α}
    {next : α → Party μ ε ρ} (h : ∀ a, x = .ok a → (next a).Speaks P) :
    (branch failed x next).Speaks P := by
  cases x with
  | ok a => exact h a rfl
  | err e => trivial
  | panicked => trivial

end Party

/-! ## Two of them -/

/-- The two sides. -/
inductive Side where
  | left
  | right
deriving DecidableEq, Repr

/-- Two parties, and what each of them has yet to receive. -/
structure Duplex (μ ε ρ ρ' : Type) where
  left : Party μ ε ρ
  right : Party μ ε ρ'
  toLeft : List μ
  toRight : List μ

namespace Duplex

variable {μ ε ρ ρ' : Type}

/-- One party goes on, with its inbox: its next state, the rest of the inbox, and what it sends. A
party that waits for a message that has not come does not go on. -/
def advance : Party μ ε ρ → List μ → Option (Party μ ε ρ × List μ × List μ)
  | .stopped _, _ => none
  | .sends message _ next, inbox => some (next, inbox, [message])
  | .waits _ _, [] => none
  | .waits _ next, m :: inbox => some (next m, inbox, [])

/-- One side goes on. -/
def move (d : Duplex μ ε ρ ρ') : Side → Option (Duplex μ ε ρ ρ')
  | .left => (advance d.left d.toLeft).map fun (left, toLeft, sent) =>
    ⟨left, d.right, toLeft, d.toRight ++ sent⟩
  | .right => (advance d.right d.toRight).map fun (right, toRight, sent) =>
    ⟨d.left, right, d.toLeft ++ sent, toRight⟩

/-- What arrives behind the inbox is not looked at. -/
theorem advance_append {p p' : Party μ ε ρ} {inbox rest sent : List μ}
    (h : advance p inbox = some (p', rest, sent)) (more : List μ) :
    advance p (inbox ++ more) = some (p', rest ++ more, sent) := by
  cases p with
  | stopped result => cases h
  | sends message failed next =>
    cases h
    rfl
  | waits failed next =>
    cases inbox with
    | nil => cases h
    | cons m inbox =>
      cases h
      rfl

variable {d d' : Duplex μ ε ρ ρ'}

theorem move_left (h : d.move .left = some d') :
    ∃ p inbox sent, advance d.left d.toLeft = some (p, inbox, sent) ∧
      d' = ⟨p, d.right, inbox, d.toRight ++ sent⟩ := by
  obtain ⟨⟨p, inbox, sent⟩, hadvance, rfl⟩ := Option.map_eq_some_iff.mp h
  exact ⟨p, inbox, sent, hadvance, rfl⟩

theorem move_right (h : d.move .right = some d') :
    ∃ p inbox sent, advance d.right d.toRight = some (p, inbox, sent) ∧
      d' = ⟨d.left, p, d.toLeft ++ sent, inbox⟩ := by
  obtain ⟨⟨p, inbox, sent⟩, hadvance, rfl⟩ := Option.map_eq_some_iff.mp h
  exact ⟨p, inbox, sent, hadvance, rfl⟩

theorem move_left_right {a b : Duplex μ ε ρ ρ'} (ha : d.move .left = some a)
    (hb : d.move .right = some b) : ∃ c, a.move .right = some c ∧ b.move .left = some c := by
  obtain ⟨p, inbox, sent, hleft, rfl⟩ := move_left ha
  obtain ⟨q, inbox', sent', hright, rfl⟩ := move_right hb
  refine ⟨⟨p, q, inbox ++ sent', inbox' ++ sent⟩, ?_, ?_⟩
  · simp only [move, advance_append hright, Option.map_some]
  · simp only [move, advance_append hleft, Option.map_some]

theorem commute : MovesCommute (move : Duplex μ ε ρ ρ' → Side → Option (Duplex μ ε ρ ρ')) := by
  intro d i j a b hij ha hb
  cases i with
  | left =>
    cases j with
    | left => exact absurd rfl hij
    | right => exact move_left_right ha hb
  | right =>
    cases j with
    | left =>
      obtain ⟨c, hac, hbc⟩ := move_left_right hb ha
      exact ⟨c, hbc, hac⟩
    | right => exact absurd rfl hij

/-- Both parties send only what has the property, and so does what is on its way. -/
structure Clean (P : μ → Prop) (d : Duplex μ ε ρ ρ') : Prop where
  left : d.left.Speaks P
  right : d.right.Speaks P
  toLeft : ∀ m ∈ d.toLeft, P m
  toRight : ∀ m ∈ d.toRight, P m

theorem advance_speaks {P : μ → Prop} {p p' : Party μ ε ρ} {inbox rest sent : List μ}
    (hp : p.Speaks P) (hinbox : ∀ m ∈ inbox, P m) (h : advance p inbox = some (p', rest, sent)) :
    p'.Speaks P ∧ (∀ m ∈ rest, P m) ∧ ∀ m ∈ sent, P m := by
  cases p with
  | stopped result => cases h
  | sends message failed next =>
    cases h
    exact ⟨hp.2, hinbox, List.forall_mem_singleton.mpr hp.1⟩
  | waits failed next =>
    cases inbox with
    | nil => cases h
    | cons m inbox =>
      cases h
      exact ⟨hp m, (List.forall_mem_cons.mp hinbox).2, fun _ hm => absurd hm List.not_mem_nil⟩

theorem move_clean {P : μ → Prop} (hd : d.Clean P) {side : Side} (h : d.move side = some d') :
    d'.Clean P := by
  cases side with
  | left =>
    obtain ⟨p, inbox, sent, hadvance, rfl⟩ := move_left h
    obtain ⟨hp, hinbox, hsent⟩ := advance_speaks hd.left hd.toLeft hadvance
    exact ⟨hp, hd.right, hinbox, List.forall_mem_append.mpr ⟨hd.toRight, hsent⟩⟩
  | right =>
    obtain ⟨p, inbox, sent, hadvance, rfl⟩ := move_right h
    obtain ⟨hp, hinbox, hsent⟩ := advance_speaks hd.right hd.toRight hadvance
    exact ⟨hd.left, hp, List.forall_mem_append.mpr ⟨hd.toLeft, hsent⟩, hinbox⟩

theorem moves_clean {P : μ → Prop} (hd : d.Clean P) {sides : List Side}
    (h : moves move d sides = some d') : d'.Clean P := by
  induction sides generalizing d with
  | nil =>
    cases h
    exact hd
  | cons side sides ih =>
    obtain ⟨a, ha, hrest⟩ := Option.bind_eq_some_iff.mp h
    exact ih (move_clean hd ha) hrest

end Duplex

end Blackwing

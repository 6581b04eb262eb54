import Blackwing.Lib.Call
import Mathlib.Data.List.Basic

/-!
# Channels that keep order

Two calls on one state, `send` and `recv`, make a first-in first-out channel when the state can be
read as the list of values in flight. A layer of a protocol stack is a channel built from the calls
of the channel below it.

* `Fifo`: such a channel, with the reading of its state and the proof that both calls follow it.
* `Fifo.queue`: the channel whose state is the list itself.
* `Call.forEach`, `Call.times`: sending a list of values and receiving a number of them.
* `fifo_delivers`: what was sent is received, in order.
* `Fifo.Grants`: a budget within which no `send` fails; `forEach_granted` spends it.
* `Call.attempts`, `Call.completed`: the same where a failed call does not end the receiver.
* `Consumes`: what a number of calls makes of a block of values in flight; blocks that follow each
  other compose (`consumes_append`).
-/

namespace Blackwing

variable {σ ε α : Type}

namespace Call

/-- The call for each value of a list, up to the first that fails. -/
def forEach (f : α → Call σ ε Unit) : List α → Call σ ε Unit
  | [] => pure ()
  | a :: as => do
    f a
    forEach f as

/-- The call a number of times, up to the first that fails. -/
def times (x : Call σ ε α) : Nat → Call σ ε (List α)
  | 0 => pure []
  | n + 1 => do
    let a ← x
    let as ← times x n
    pure (a :: as)

/-- The values of the list whose calls returned, up to the first that did not. -/
def completed (f : α → Call σ ε Unit) : List α → σ → List α
  | [], _ => []
  | a :: as, s =>
    match f a s with
    | (.ok (), s') => a :: completed f as s'
    | _ => []

/-- The call a number of times, whether or not it fails: the values returned, and the state. -/
def attempts (x : Call σ ε α) : Nat → σ → List α × σ
  | 0, s => ([], s)
  | n + 1, s =>
    match x s with
    | (.ok a, s') => (a :: (attempts x n s').1, (attempts x n s').2)
    | (_, s') => attempts x n s'

end Call

/-- A channel that keeps order. -/
structure Fifo (σ ε α : Type) where
  send : α → Call σ ε Unit
  recv : Call σ ε α
  /-- The values that the channel can take. -/
  Carries : α → Prop
  /-- The state has these values in flight, oldest first. -/
  Holds : σ → List α → Prop
  send_holds : ∀ {s l a}, Holds s l → Carries a → (send a s).1 = .ok () →
    Holds (send a s).2 (l ++ [a])
  recv_holds : ∀ {s l a}, Holds s (a :: l) → ∃ s', recv s = (.ok a, s') ∧ Holds s' l

/-- A `send` does not fail while there is room for the value. `Room s n` reads the state as having
room for values that cost `n` together. -/
def Fifo.Grants (F : Fifo σ ε α) (cost : α → Nat) (Room : σ → Nat → Prop) : Prop :=
  ∀ s l a n, F.Holds s l → F.Carries a → Room s (cost a + n) →
    (F.send a s).1 = .ok () ∧ Room (F.send a s).2 n

/-- No `send` of a value that the channel can take fails. -/
def Fifo.Total (F : Fifo σ ε α) : Prop := F.Grants (fun _ => 1) fun _ _ => True

/-- The list of values in flight as a channel; receiving from the empty list fails with
`empty`. -/
def Fifo.queue (empty : ε) : Fifo (List α) ε α where
  send := fun a => Call.update fun l => l ++ [a]
  recv := fun
    | [] => (.err empty, [])
    | a :: l => (.ok a, l)
  Carries := fun _ => True
  Holds := fun s l => s = l
  send_holds := fun h _ _ => by rw [h]; rfl
  recv_holds := fun h => ⟨_, by rw [h], rfl⟩

/-- The channel with its errors converted by `h`. -/
def Fifo.mapErr {ε' : Type} (h : ε → ε') (F : Fifo σ ε α) : Fifo σ ε' α where
  send := fun a => (F.send a).mapErr h
  recv := F.recv.mapErr h
  Carries := F.Carries
  Holds := F.Holds
  send_holds := fun hs ha hok => F.send_holds hs ha (Outcome.mapErr_eq_ok.mp hok)
  recv_holds := fun hs => by
    obtain ⟨s', hrecv, hs'⟩ := F.recv_holds hs
    refine ⟨s', ?_, hs'⟩
    rw [Call.mapErr, hrecv]
    rfl

theorem Fifo.mapErr_grants {ε' : Type} (h : ε → ε') {F : Fifo σ ε α} {cost : α → Nat}
    {Room : σ → Nat → Prop} (hroom : F.Grants cost Room) : (F.mapErr h).Grants cost Room :=
  fun s l a n hs ha hn =>
    ⟨Outcome.mapErr_eq_ok.mpr (hroom s l a n hs ha hn).1, (hroom s l a n hs ha hn).2⟩

theorem Fifo.queue_total (empty : ε) : (Fifo.queue empty : Fifo (List α) ε α).Total :=
  fun _ _ _ _ _ _ _ => ⟨rfl, trivial⟩

namespace FifoLemmas

variable {F : Fifo σ ε α} {s : σ} {l as : List α}

theorem forEach_holds (hs : F.Holds s l) (has : ∀ a ∈ as, F.Carries a)
    (hok : (Call.forEach F.send as s).1 = .ok ()) :
    F.Holds (Call.forEach F.send as s).2 (l ++ as) := by
  induction as generalizing s l with
  | nil =>
    rw [List.append_nil]
    exact hs
  | cons a as ih =>
    rw [Call.forEach] at hok ⊢
    obtain ⟨u, s', hsend, hrest⟩ := Call.bind_fst_eq_ok hok
    rw [Call.bind_of_ok hsend]
    have hfirst := F.send_holds hs (has a List.mem_cons_self) (by rw [hsend])
    rw [hsend] at hfirst
    rw [List.append_cons]
    exact ih hfirst (fun b hb => has b (List.mem_cons_of_mem _ hb)) hrest

theorem forEach_granted {cost : α → Nat} {Room : σ → Nat → Prop} (hroom : F.Grants cost Room)
    (hs : F.Holds s l) (has : ∀ a ∈ as, F.Carries a) (hn : Room s (as.map cost).sum) :
    (Call.forEach F.send as s).1 = .ok () := by
  induction as generalizing s l with
  | nil => rfl
  | cons a as ih =>
    have ha := has a List.mem_cons_self
    rw [List.map_cons, List.sum_cons] at hn
    obtain ⟨hok, hrest⟩ := hroom s l a _ hs ha hn
    have hcall : F.send a s = (.ok (), (F.send a s).2) := Prod.ext hok rfl
    rw [Call.forEach, Call.bind_of_ok hcall]
    exact ih (F.send_holds hs ha hok) (fun b hb => has b (List.mem_cons_of_mem _ hb)) hrest

theorem times_recv (hs : F.Holds s (as ++ l)) :
    ∃ s', Call.times F.recv as.length s = (.ok as, s') ∧ F.Holds s' l := by
  induction as generalizing s with
  | nil => exact ⟨s, rfl, hs⟩
  | cons a as ih =>
    obtain ⟨s', hrecv, hs'⟩ := F.recv_holds hs
    obtain ⟨s'', hrest, hs''⟩ := ih hs'
    refine ⟨s'', ?_, hs''⟩
    rw [List.length_cons, Call.times, Call.bind_of_ok hrecv, Call.bind_of_ok hrest]
    rfl

end FifoLemmas

open FifoLemmas

/-- What was sent into an empty channel is received, in order. -/
theorem fifo_delivers {F : Fifo σ ε α} {s : σ} {as : List α} (hs : F.Holds s [])
    (has : ∀ a ∈ as, F.Carries a) (hok : (Call.forEach F.send as s).1 = .ok ()) :
    (Call.times F.recv as.length (Call.forEach F.send as s).2).1 = .ok as := by
  have hsent : F.Holds (Call.forEach F.send as s).2 (as ++ []) := by
    rw [List.append_nil]
    exact forEach_holds hs has hok
  obtain ⟨s', hrecv, -⟩ := times_recv hsent
  rw [hrecv]

/-! ## Receivers that go on after an error -/

variable {β : Type}

/-- `calls` calls of `x` read the values `as` off the channel and return `out`. -/
def Consumes (F : Fifo σ ε α) (x : Call σ ε β) (as : List α) (calls : Nat) (out : List β) : Prop :=
  ∀ s l, F.Holds s (as ++ l) → (x.attempts calls s).1 = out ∧ F.Holds (x.attempts calls s).2 l

namespace FifoLemmas

theorem attempts_add (x : Call σ ε β) (a b : Nat) (s : σ) :
    x.attempts (a + b) s =
      ((x.attempts a s).1 ++ (x.attempts b (x.attempts a s).2).1,
        (x.attempts b (x.attempts a s).2).2) := by
  induction a generalizing s with
  | zero => rw [Nat.zero_add, Call.attempts, List.nil_append]
  | succ a ih =>
    rw [Nat.succ_add, Call.attempts, Call.attempts]
    rcases x s with ⟨_ | _ | _, s'⟩
    · simp only [ih, List.cons_append]
    · exact ih s'
    · exact ih s'

variable {F : Fifo σ ε α} {x : Call σ ε β} {as bs : List α} {out out' : List β} {b : β} {e : ε}

theorem consumes_nil : Consumes F x [] 0 [] := fun _ _ hs => ⟨rfl, hs⟩

theorem consumes_append {n n' : Nat} (h : Consumes F x as n out) (h' : Consumes F x bs n' out') :
    Consumes F x (as ++ bs) (n + n') (out ++ out') := by
  intro s l hs
  rw [List.append_assoc] at hs
  obtain ⟨hout, hmid⟩ := h s _ hs
  obtain ⟨hout', hend⟩ := h' _ l hmid
  rw [attempts_add]
  exact ⟨by rw [hout, hout'], hend⟩

theorem consumes_of_ok
    (h : ∀ s l, F.Holds s (as ++ l) → ∃ s', F.Holds s' l ∧ x s = (.ok b, s')) :
    Consumes F x as 1 [b] := by
  intro s l hs
  obtain ⟨s', hs', hcall⟩ := h s l hs
  simp only [Call.attempts, hcall]
  exact ⟨trivial, hs'⟩

theorem consumes_of_err
    (h : ∀ s l, F.Holds s (as ++ l) → ∃ s', F.Holds s' l ∧ x s = (.err e, s')) :
    Consumes F x as 1 [] := by
  intro s l hs
  obtain ⟨s', hs', hcall⟩ := h s l hs
  simp only [Call.attempts, hcall]
  exact ⟨trivial, hs'⟩

end FifoLemmas

end Blackwing

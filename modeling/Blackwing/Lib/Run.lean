import Mathlib.Algebra.GroupWithZero.Nat
import Mathlib.Data.List.Basic
import Mathlib.Data.List.Induction
import Mathlib.Data.List.Pairwise
import Mathlib.Order.Basic

/-!
# Runs of a state machine

A machine is a function `step : σ → ι → ο × σ` from a state and an input to an
output and the next state. A run is the list of its entries, oldest first. Each
entry keeps the states before and after the step, so that a statement about a
whole run is a statement about the entries of one list.

* `run`, `endState`: the entries of a run and the state it ends in.
* `forall_split_snoc`: what holds wherever a history is split, one element later.
* `exists_first_out`: where the first output of a run comes from.
* `run_induction`: the history invariant rule. What one step preserves of a
  history and a state holds of every run.
* `run_guarded`: the same when every step of the run meets a condition.
* `run_safe_iff`: the exact condition on the steps under which every state of a run is safe.
* `endState_rounds`, `endState_range`: the state after a numbered family of inputs.
* `run_charged`: what an invariant gives for each entry of a run with a budget.
* `run_erase`: entries that change nothing can be left out.
* `run_simulates`: the run of a machine, read through a map of its states, inputs and outputs.
* `run_emits_increasing`: what a machine emits at the places of a growing rank is
  emitted in increasing order, and `run_emits_unique`: one emission for each place.
-/

namespace Blackwing

variable {σ ι ο : Type}

/-- One step of a run. -/
structure Entry (σ ι ο : Type) where
  pre : σ
  input : ι
  out : ο
  post : σ
deriving DecidableEq

/-- The entry of a step from `s` on the input `i`. -/
def stepEntry (step : σ → ι → ο × σ) (s : σ) (i : ι) : Entry σ ι ο :=
  ⟨s, i, (step s i).1, (step s i).2⟩

/-- The entries of the run from `s` on a list of inputs, oldest first. -/
def run (step : σ → ι → ο × σ) : σ → List ι → List (Entry σ ι ο)
  | _, [] => []
  | s, i :: is => stepEntry step s i :: run step (step s i).2 is

/-- The state in which the run from `s` on a list of inputs ends. -/
def endState (step : σ → ι → ο × σ) : σ → List ι → σ
  | s, [] => s
  | s, i :: is => endState step (step s i).2 is

variable {step : σ → ι → ο × σ}

@[simp] theorem run_nil (s : σ) : run step s [] = [] := rfl

@[simp] theorem run_cons (s : σ) (i : ι) (is : List ι) :
    run step s (i :: is) = stepEntry step s i :: run step (step s i).2 is := rfl

@[simp] theorem endState_nil (s : σ) : endState step s [] = s := rfl

@[simp] theorem endState_cons (s : σ) (i : ι) (is : List ι) :
    endState step s (i :: is) = endState step (step s i).2 is := rfl

theorem endState_append (s : σ) (is js : List ι) :
    endState step s (is ++ js) = endState step (endState step s is) js := by
  induction is generalizing s with
  | nil => rfl
  | cons i is ih => simp [ih]

theorem run_append (s : σ) (is js : List ι) :
    run step s (is ++ js) = run step s is ++ run step (endState step s is) js := by
  induction is generalizing s with
  | nil => rfl
  | cons i is ih => simp [ih]

theorem run_snoc (s : σ) (is : List ι) (i : ι) :
    run step s (is ++ [i]) = run step s is ++ [stepEntry step (endState step s is) i] := by
  rw [run_append, run_cons, run_nil]

theorem endState_snoc (s : σ) (is : List ι) (i : ι) :
    endState step s (is ++ [i]) = (step (endState step s is) i).2 := by
  rw [endState_append, endState_cons, endState_nil]

/-- The last entry of a run is for its last input and leaves the state the run ends in. -/
theorem exists_last_entry (s : σ) (is : List ι) (i : ι) :
    ∃ e ∈ run step s (is ++ [i]), e.input = i ∧ e.post = endState step s (is ++ [i]) := by
  rw [run_snoc, endState_snoc]
  exact ⟨_, List.mem_append_right _ (List.mem_singleton.mpr rfl), rfl, rfl⟩

@[simp] theorem map_input_run (s : σ) (is : List ι) : (run step s is).map Entry.input = is := by
  induction is generalizing s with
  | nil => rfl
  | cons i is ih =>
    rw [run_cons, List.map_cons, ih]
    rfl

variable {s : σ} {is : List ι} {e : Entry σ ι ο} {α : Type}

theorem input_mem_of_mem_run (he : e ∈ run step s is) : e.input ∈ is := by
  have hmem := List.mem_map_of_mem (f := Entry.input) he
  rwa [map_input_run] at hmem

theorem filterMap_snoc {β : Type} (f : α → Option β) (l : List α) (a : α) :
    (l ++ [a]).filterMap f = l.filterMap f ++ (f a).toList := by
  rw [List.filterMap_append, List.filterMap_cons]
  cases f a with
  | none => rfl
  | some b => rfl

/-- The places at which a list with one more element can be split. -/
theorem forall_split_snoc {P : List α → α → List α → Prop} {l : List α} {x : α} :
    (∀ before a after, l ++ [x] = before ++ a :: after → P before a after) ↔
      P l x [] ∧ ∀ before a after, l = before ++ a :: after → P before a (after ++ [x]) := by
  constructor
  · intro h
    refine ⟨h l x [] rfl, fun before a after hl => h before a (after ++ [x]) ?_⟩
    rw [hl, List.append_assoc, List.cons_append]
  · rintro ⟨hlast, hbefore⟩ before a after hl
    rcases List.eq_nil_or_concat after with rfl | ⟨after, y, rfl⟩
    · obtain ⟨rfl, ha⟩ := List.append_inj' hl rfl
      cases ha
      exact hlast
    · have hl' : l ++ [x] = (before ++ a :: after) ++ [y] := by simpa using hl
      obtain ⟨hinit, hy⟩ := List.append_inj' hl' rfl
      cases hy
      rw [List.concat_eq_append]
      exact hbefore before a after hinit

/-- What two lists in step with each other have for each element of the first. -/
theorem exists_mem_of_forall₂ {β : Type} {R : α → β → Prop} {l : List α} {l' : List β}
    (h : List.Forall₂ R l l') : ∀ a ∈ l, ∃ b ∈ l', R a b := by
  induction h with
  | nil => exact nofun
  | @cons a b l l' hab _ ih =>
    intro c hc
    rcases List.mem_cons.mp hc with rfl | hc
    · exact ⟨b, List.mem_cons_self, hab⟩
    · obtain ⟨d, hd, hR⟩ := ih c hc
      exact ⟨d, List.mem_cons_of_mem _ hd, hR⟩

/-- The entries before one of a run are the run of the inputs before it. -/
theorem run_split {before after : List (Entry σ ι ο)} (hrun : run step s is = before ++ e :: after) :
    ∃ js ks, is = js ++ e.input :: ks ∧ before = run step s js ∧
      e = stepEntry step (endState step s js) e.input := by
  induction is generalizing s before with
  | nil => exact absurd hrun.symm (List.append_ne_nil_of_right_ne_nil _ (List.cons_ne_nil _ _))
  | cons i is ih =>
    rw [run_cons] at hrun
    rcases List.cons_eq_append_iff.mp hrun with ⟨rfl, he⟩ | ⟨before, rfl, hrest⟩
    · cases he
      exact ⟨[], is, rfl, rfl, rfl⟩
    · obtain ⟨js, ks, rfl, rfl, hee⟩ := ih hrest
      exact ⟨i :: js, ks, rfl, rfl, hee⟩

/-- An entry of a run that is not among those of the last inputs. -/
theorem run_append_split {js : List ι} {before after : List (Entry σ ι ο)}
    (hrun : run step s (is ++ js) = before ++ e :: after)
    (he : e ∉ run step (endState step s is) js) :
    ∃ ks ls, is = ks ++ e.input :: ls ∧ after.map Entry.input = ls ++ js := by
  rw [run_append, List.append_eq_append_iff] at hrun
  rcases hrun with ⟨part, -, hpart⟩ | ⟨part, hfirst, hpart⟩
  · exact absurd (hpart ▸ List.mem_append_right _ List.mem_cons_self) he
  · cases part with
    | nil =>
      rw [List.nil_append] at hpart
      exact absurd (hpart ▸ List.mem_cons_self) he
    | cons e' part =>
      rw [List.cons_append] at hpart
      obtain ⟨rfl, rfl⟩ := List.cons.inj hpart
      refine ⟨before.map Entry.input, part.map Entry.input, ?_, ?_⟩
      · rw [← List.map_cons, ← List.map_append, ← hfirst, map_input_run]
      · rw [List.map_append, map_input_run]

/-- An entry of a run is the step from a state that a part of the run ends in. -/
theorem mem_run (he : e ∈ run step s is) :
    ∃ before after, is = before ++ e.input :: after ∧
      e = stepEntry step (endState step s before) e.input := by
  obtain ⟨before, after, hrun⟩ := List.append_of_mem he
  obtain ⟨js, ks, his, -, hee⟩ := run_split hrun
  exact ⟨js, ks, his, hee⟩

theorem endState_of_fixed (h : ∀ i ∈ is, (step s i).2 = s) : endState step s is = s := by
  induction is with
  | nil => rfl
  | cons i is ih =>
    rw [List.forall_mem_cons] at h
    rw [endState_cons, h.1, ih h.2]

/-- The first output of a run after steps that change nothing and have none. -/
theorem head?_out_of_silent {step : σ → ι → Option α × σ} {i : ι} {a : α}
    (his : ∀ j ∈ is, step s j = (none, s)) (hi : (step s i).1 = some a) (js : List ι) :
    ((run step s (is ++ i :: js)).filterMap Entry.out).head? = some a := by
  induction is with
  | nil =>
    have hentry : (stepEntry step s i).out = some a := hi
    rw [List.nil_append, run_cons, List.filterMap_cons_some hentry, List.head?_cons]
  | cons j is ih =>
    rw [List.forall_mem_cons] at his
    rw [List.cons_append, run_cons, his.1, List.filterMap_cons_none (by rw [stepEntry, his.1]),
      ih his.2]

/-- The first output of a run: no step before it has one. -/
theorem exists_first_out {step : σ → ι → Option α × σ} {a : α}
    (h : ((run step s is).filterMap Entry.out).head? = some a) :
    ∃ before i after, is = before ++ i :: after ∧ (∀ e ∈ run step s before, e.out = none) ∧
      (step (endState step s before) i).1 = some a := by
  induction is generalizing s with
  | nil => cases h
  | cons i is ih =>
    rw [run_cons, List.filterMap_cons] at h
    cases hout : (step s i).1 with
    | none =>
      have hentry : (stepEntry step s i).out = none := hout
      simp only [hentry] at h
      obtain ⟨before, j, after, rfl, hnone, hj⟩ := ih h
      exact ⟨i :: before, j, after, rfl, List.forall_mem_cons.mpr ⟨hentry, hnone⟩, hj⟩
    | some b =>
      have hentry : (stepEntry step s i).out = some b := hout
      simp only [hentry, List.head?_cons, Option.some.injEq] at h
      exact ⟨[], i, is, rfl, fun e he => absurd he List.not_mem_nil, hout.trans (h ▸ rfl)⟩

theorem out_eq_of_mem_run (he : e ∈ run step s is) : e.out = (step e.pre e.input).1 := by
  obtain ⟨before, after, -, hee⟩ := mem_run he
  rw [hee]
  rfl

theorem post_eq_of_mem_run (he : e ∈ run step s is) : e.post = (step e.pre e.input).2 := by
  obtain ⟨before, after, -, hee⟩ := mem_run he
  rw [hee]
  rfl

/-- The history invariant rule. -/
theorem run_induction {P : List (Entry σ ι ο) → σ → Prop} {s : σ} (init : P [] s)
    (preserved : ∀ h t i, P h t → P (h ++ [stepEntry step t i]) (step t i).2) (is : List ι) :
    P (run step s is) (endState step s is) := by
  induction is using List.reverseRecOn with
  | nil => exact init
  | append_singleton is i ih =>
    rw [run_snoc, endState_snoc]
    exact preserved _ _ _ ih

/-- The history invariant rule for runs whose steps all meet a condition. -/
theorem run_guarded {G : σ → ι → Prop} {P : List (Entry σ ι ο) → σ → Prop} {s : σ} (init : P [] s)
    (preserved : ∀ h t i, P h t → G t i → P (h ++ [stepEntry step t i]) (step t i).2)
    {is : List ι} (guard : ∀ e ∈ run step s is, G e.pre e.input) :
    P (run step s is) (endState step s is) := by
  have h := @run_induction _ _ _ step (fun h t => (∀ e ∈ h, G e.pre e.input) → P h t) s
    (fun _ => init) ?_ is
  · exact h guard
  · intro h t i ih hg
    refine preserved h t i (ih fun e he => hg e (List.mem_append_left _ he)) ?_
    exact hg (stepEntry step t i) (List.mem_append_right _ (List.mem_singleton.mpr rfl))

/-- When a step from a state with an invariant leads to a safe one exactly under a condition, and
safe steps keep the invariant, a run stays safe exactly if each of its steps meets the condition. -/
theorem run_safe_iff {Inv Safe : σ → Prop} {G : σ → ι → Prop} {s : σ} (init : Inv s)
    (hsafe : ∀ t i, Inv t → (Safe (step t i).2 ↔ G t i))
    (hkept : ∀ t i, Inv t → Safe (step t i).2 → Inv (step t i).2) (is : List ι) :
    (∀ e ∈ run step s is, Safe e.post) ↔ ∀ e ∈ run step s is, G e.pre e.input := by
  induction is generalizing s with
  | nil => simp
  | cons i is ih =>
    rw [run_cons, List.forall_mem_cons, List.forall_mem_cons]
    show Safe (step s i).2 ∧ _ ↔ G s i ∧ _
    rw [← hsafe s i init]
    exact and_congr_right fun h => ih (hkept s i init h)

/-- What holds of the state after the first `k` rounds of a numbered family holds after `n`. -/
theorem endState_rounds {P : Nat → σ → Prop} {f : Nat → List ι} (init : P 0 s) (n : Nat)
    (preserved : ∀ k < n, ∀ t, P k t → P (k + 1) (endState step t (f k))) :
    P n (endState step s ((List.range n).flatMap f)) := by
  induction n with
  | zero => exact init
  | succ n ih =>
    rw [List.range_succ, List.flatMap_append, List.flatMap_singleton, endState_append]
    exact preserved n n.lt_succ_self _ (ih fun k hk => preserved k (Nat.lt_succ_of_lt hk))

/-- The same for one input a round. -/
theorem endState_range {P : Nat → σ → Prop} {f : Nat → ι} (init : P 0 s) (n : Nat)
    (preserved : ∀ k < n, ∀ t, P k t → P (k + 1) (step t (f k)).2) :
    P n (endState step s ((List.range n).map f)) := by
  rw [List.map_eq_flatMap]
  exact endState_rounds init n preserved

/-- What an invariant gives for a step holds of every entry of a run whose steps all meet a
condition. The invariant has a level, which each step raises by its cost; the costs of the whole run
stay below a bound. -/
theorem run_charged {G : σ → ι → Prop} {I : Nat → σ → Prop} {Q : Entry σ ι ο → Prop}
    {cost : σ → ι → Nat} {bound : Nat}
    (preserved : ∀ n t i, I n t → G t i → n + cost t i < bound → I (n + cost t i) (step t i).2)
    (here : ∀ n t i, I n t → Q (stepEntry step t i)) {n : Nat} (init : I n s)
    (guard : ∀ e ∈ run step s is, G e.pre e.input)
    (budget : n + ((run step s is).map fun e => cost e.pre e.input).sum < bound) :
    ∀ e ∈ run step s is, Q e := by
  induction is generalizing n s with
  | nil => exact fun e he => absurd he List.not_mem_nil
  | cons i is ih =>
    rw [run_cons, List.map_cons, List.sum_cons, ← Nat.add_assoc] at budget
    have hfirst := preserved n s i init (guard _ List.mem_cons_self)
      (Nat.lt_of_le_of_lt (Nat.le_add_right _ _) budget)
    intro e he
    rcases List.mem_cons.mp he with rfl | he
    · exact here n s i init
    · exact ih hfirst (fun e he => guard e (List.mem_cons_of_mem _ he)) budget e he

/-- Entries that change nothing can be erased from a run: the others do not notice. -/
theorem run_erase {keep : Entry σ ι ο → Bool}
    (h : ∀ e ∈ run step s is, keep e = false → e.post = e.pre) :
    run step s (((run step s is).filter keep).map Entry.input) = (run step s is).filter keep := by
  induction is generalizing s with
  | nil => rfl
  | cons i is ih =>
    rw [run_cons] at h ⊢
    have hrest := ih fun e he => h e (List.mem_cons_of_mem _ he)
    cases hk : keep (stepEntry step s i) with
    | true =>
      rw [List.filter_cons_of_pos hk, List.map_cons, run_cons]
      show stepEntry step s i :: run step (step s i).2 _ = _
      rw [hrest]
    | false =>
      have hsame : (step s i).2 = s := h _ List.mem_cons_self hk
      rw [List.filter_cons_of_neg (by rw [hk]; exact Bool.false_ne_true)]
      rw [hsame] at hrest ⊢
      exact hrest

/-- A machine that another one simulates step by step has the run of the other one. -/
theorem run_simulates {τ κ ω : Type} {step' : τ → κ → ω × τ} (state : σ → τ) (input : ι → κ)
    (out : ο → ω)
    (h : ∀ s i, step' (state s) (input i) = (out (step s i).1, state (step s i).2)) (s : σ)
    (is : List ι) :
    run step' (state s) (is.map input) = (run step s is).map fun e =>
      ⟨state e.pre, input e.input, out e.out, state e.post⟩ := by
  induction is generalizing s with
  | nil => rfl
  | cons i is ih => simp [stepEntry, h, ih]

section Rank

variable {τ ρ : Type} [Preorder ρ] (rank : σ → ρ) (emit : Entry σ ι ο → Option τ) (place : τ → ρ)

section

variable (grows : ∀ s i, rank s ≤ rank (step s i).2)
  (emits : ∀ s i t, emit (stepEntry step s i) = some t → place t = rank s ∧ rank s < rank (step s i).2)
include grows emits

/-- A rank that no step lowers bounds the places of everything emitted later. -/
theorem run_emits_ge {s : σ} {is : List ι} {t : τ} (ht : t ∈ (run step s is).filterMap emit) :
    rank s ≤ place t := by
  induction is generalizing s with
  | nil => exact absurd ht List.not_mem_nil
  | cons i is ih =>
    rw [run_cons, List.filterMap_cons] at ht
    cases he : emit (stepEntry step s i) with
    | none =>
      rw [he] at ht
      exact le_trans (grows s i) (ih ht)
    | some u =>
      rw [he] at ht
      rcases List.mem_cons.mp ht with rfl | ht
      · exact le_of_eq (emits s i t he).1.symm
      · exact le_trans (grows s i) (ih ht)

/-- When every emission stands at the current rank and raises it, emissions come in
increasing order. -/
theorem run_emits_increasing (s : σ) (is : List ι) :
    ((run step s is).filterMap emit).Pairwise fun t u => place t < place u := by
  induction is generalizing s with
  | nil => exact List.Pairwise.nil
  | cons i is ih =>
    rw [run_cons, List.filterMap_cons]
    cases he : emit (stepEntry step s i) with
    | none => exact ih _
    | some t =>
      refine List.Pairwise.cons (fun u hu => ?_) (ih _)
      obtain ⟨hplace, hlt⟩ := emits s i t he
      rw [hplace]
      exact lt_of_lt_of_le hlt (run_emits_ge rank emit place grows emits hu)

/-- Under the same conditions, what is emitted at one place is one emission. -/
theorem run_emits_unique {s : σ} {is : List ι} {t u : τ} (ht : t ∈ (run step s is).filterMap emit)
    (hu : u ∈ (run step s is).filterMap emit) (h : place t = place u) : t = u := by
  have hsymm : Std.Symm fun t u : τ => place t = place u → t = u :=
    ⟨fun _ _ hab heq => (hab heq.symm).symm⟩
  have hpair : ((run step s is).filterMap emit).Pairwise fun t u => place t = place u → t = u := by
    refine (run_emits_increasing rank emit place grows emits s is).imp ?_
    intro t u hlt heq
    exact absurd hlt (heq ▸ lt_irrefl (place t))
  exact @List.Pairwise.forall_of_forall _ (fun t u => place t = place u → t = u) _ hsymm
    (fun _ _ _ => rfl) hpair t ht u hu h

end

end Rank

end Blackwing

import Blackwing.Lib.Call
import Mathlib.Data.List.Nodup
import Mathlib.Data.Nat.Init

/-!
# Stores into a list

A loop whose passes store values at positions of a list that keeps its length. What it leaves
at a position is read off the list of its stores, without their order, when all stores at the
position agree.

* `storeAll`: the stores `(position, value)` one after another.
* `getElem?_storeAll`, `getElem?_storeAll_of_nodup`: what is at a position afterwards.
* `Memory`: a state that holds the list, and may hold more. `Memory.recorded` also keeps the stores.
* `Memory.foldlM_passes`: a loop whose passes do nothing but store is all their stores, or panics.
* `Memory.foldlM_stores`: the same for passes that never panic.
* `Memory.Updates`: a part of a program that does nothing but apply a function to values in place.
-/

namespace Blackwing

variable {α β γ ε : Type}

theorem index_lt {w h x y : Nat} (hx : x < w) (hy : y < h) : y * w + x < w * h := by
  rw [Nat.add_comm, Nat.mul_comm y w]
  exact Nat.add_mul_lt_mul_of_lt_of_lt hx hy

/-- Every index is the one of a place. -/
theorem exists_place {w h i : Nat} (hi : i < w * h) : ∃ x < w, ∃ y < h, y * w + x = i := by
  have hpos : 0 < w := Nat.pos_of_mul_pos_right (Nat.zero_lt_of_lt hi)
  refine ⟨i % w, Nat.mod_lt i hpos, i / w, (Nat.div_lt_iff_lt_mul hpos).mpr ?_, ?_⟩
  · rwa [Nat.mul_comm]
  · rw [Nat.mul_comm, Nat.div_add_mod]

/-- The list after stores of values at positions. -/
def storeAll (cells : List (Nat × α)) (l : List α) : List α :=
  cells.foldl (fun l cell => l.set cell.1 cell.2) l

@[simp] theorem storeAll_cons (cell : Nat × α) (cells : List (Nat × α)) (l : List α) :
    storeAll (cell :: cells) l = storeAll cells (l.set cell.1 cell.2) := rfl

theorem storeAll_append (cells more : List (Nat × α)) (l : List α) :
    storeAll (cells ++ more) l = storeAll more (storeAll cells l) := List.foldl_append

@[simp] theorem length_storeAll (cells : List (Nat × α)) (l : List α) :
    (storeAll cells l).length = l.length := by
  induction cells generalizing l with
  | nil => rfl
  | cons cell cells ih => rw [storeAll_cons, ih, List.length_set]

variable {cells : List (Nat × α)}

theorem getElem?_storeAll_of_eq {l : List α} {i : Nat} {a : α} (hi : l[i]? = some a)
    (h : ∀ cell ∈ cells, cell.1 = i → cell.2 = a) :
    (storeAll cells l)[i]? = some a := by
  induction cells generalizing l with
  | nil => exact hi
  | cons cell cells ih =>
    rw [storeAll_cons]
    refine ih ?_ fun cell' hmem => h cell' (List.mem_cons_of_mem _ hmem)
    by_cases heq : cell.1 = i
    · have hlt : i < l.length := (List.getElem?_eq_some_iff.mp hi).1
      rw [heq, List.getElem?_set_self hlt, h cell List.mem_cons_self heq]
    · rw [List.getElem?_set_ne heq, hi]

/-- A position that is stored to, always with the same value. -/
theorem getElem?_storeAll {l : List α} {i : Nat} {a : α} (hi : i < l.length)
    (hmem : ∃ cell ∈ cells, cell.1 = i) (h : ∀ cell ∈ cells, cell.1 = i → cell.2 = a) :
    (storeAll cells l)[i]? = some a := by
  obtain ⟨cell, hcell, heq⟩ := hmem
  obtain ⟨before, after, rfl⟩ := List.append_of_mem hcell
  have hstored : ((storeAll before l).set cell.1 cell.2)[i]? = some a := by
    rw [heq, List.getElem?_set_self (by rw [length_storeAll]; exact hi), h cell hcell heq]
  rw [storeAll_append, storeAll_cons]
  refine getElem?_storeAll_of_eq hstored fun cell' hmem' => h cell' ?_
  exact List.mem_append_right _ (List.mem_cons_of_mem _ hmem')

/-- Stores at distinct positions all last. -/
theorem getElem?_storeAll_of_nodup {l : List α} {i : Nat} {a : α}
    (hnodup : (cells.map Prod.fst).Nodup) (hmem : (i, a) ∈ cells) (hi : i < l.length) :
    (storeAll cells l)[i]? = some a := by
  refine getElem?_storeAll hi ⟨_, hmem, rfl⟩ fun cell hcell heq => ?_
  have hsame := List.inj_on_of_nodup_map hnodup hcell hmem heq
  rw [hsame]

/-! ## Memories -/

/-- A list that is stored to, in a state that may keep more than the list. -/
structure Memory (β α : Type) where
  values : β → List α
  put : β → Nat → α → β
  values_put : ∀ b i a, values (put b i a) = (values b).set i a

namespace Memory

/-- A list alone. -/
def list : Memory (List α) α := ⟨id, List.set, fun _ _ _ => rfl⟩

/-- A list with the stores that were made into it, oldest first. -/
def recorded : Memory (List α × List (Nat × α)) α :=
  ⟨Prod.fst, fun b i a => (b.1.set i a, b.2 ++ [(i, a)]), fun _ _ _ => rfl⟩

variable (M : Memory β α)

/-- `b[i] = a`. -/
def store (b : β) (i : Nat) (a : α) : Outcome ε β :=
  if i < (M.values b).length then .ok (M.put b i a) else .panicked

/-- The state after stores of values at positions. -/
def putAll (cells : List (Nat × α)) (b : β) : β :=
  cells.foldl (fun b cell => M.put b cell.1 cell.2) b

variable {M : Memory β α}

section

variable (cells : List (Nat × α))

theorem putAll_append (more : List (Nat × α)) (b : β) :
    M.putAll (cells ++ more) b = M.putAll more (M.putAll cells b) := List.foldl_append

theorem values_putAll (b : β) :
    M.values (M.putAll cells b) = storeAll cells (M.values b) := by
  induction cells generalizing b with
  | nil => rfl
  | cons cell cells ih =>
    rw [storeAll_cons, ← M.values_put]
    exact ih _

theorem length_values_putAll (b : β) :
    (M.values (M.putAll cells b)).length = (M.values b).length := by
  rw [values_putAll, length_storeAll]

/-- The record of a memory grows by the stores. -/
theorem putAll_recorded (l : List α) (log : List (Nat × α)) :
    recorded.putAll cells (l, log) = (storeAll cells l, log ++ cells) := by
  induction cells generalizing l log with
  | nil => rw [List.append_nil]; rfl
  | cons cell cells ih =>
    rw [storeAll_cons, List.append_cons]
    exact ih _ _

/-- Stores one after another panic exactly if one of them is out of bounds. -/
theorem foldlM_store (b : β) :
    cells.foldlM (fun b cell => (M.store b cell.1 cell.2 : Outcome ε β)) b =
      if ∀ cell ∈ cells, cell.1 < (M.values b).length then .ok (M.putAll cells b)
      else .panicked := by
  induction cells generalizing b with
  | nil => exact (if_pos fun _ h => absurd h List.not_mem_nil).symm
  | cons cell cells ih =>
    have hlength : (M.values (M.put b cell.1 cell.2)).length = (M.values b).length := by
      rw [M.values_put, List.length_set]
    rw [List.foldlM_cons, store]
    by_cases hcell : cell.1 < (M.values b).length
    · rw [if_pos hcell, Outcome.ok_bind, ih, hlength]
      simp only [List.forall_mem_cons, hcell, true_and]
      rfl
    · rw [if_neg hcell, if_neg fun h => hcell (h cell List.mem_cons_self)]
      rfl

end

/-- A loop over a memory of `n` values whose passes do nothing but store, where they can. -/
theorem foldlM_passes {f : β → γ → Outcome ε β} {stores : γ → List (Nat × α)} {G : γ → Prop}
    [DecidablePred G] {n : Nat} {passes : List γ} {b : β} (hb : (M.values b).length = n)
    (h : ∀ p ∈ passes, ∀ b, (M.values b).length = n →
      f b p = if G p then .ok (M.putAll (stores p) b) else .panicked) :
    passes.foldlM f b =
      if ∀ p ∈ passes, G p then .ok (M.putAll (passes.flatMap stores) b) else .panicked := by
  induction passes generalizing b with
  | nil => exact (if_pos fun _ h => absurd h List.not_mem_nil).symm
  | cons p passes ih =>
    have hlength : (M.values (M.putAll (stores p) b)).length = n := by rw [length_values_putAll, hb]
    rw [List.foldlM_cons, h p List.mem_cons_self b hb, List.flatMap_cons, putAll_append]
    by_cases hp : G p
    · rw [if_pos hp, Outcome.ok_bind, ih hlength fun q hq => h q (List.mem_cons_of_mem _ hq)]
      simp only [List.forall_mem_cons, hp, true_and]
    · rw [if_neg hp, if_neg fun hall => hp (hall p List.mem_cons_self)]
      rfl

/-- A loop over a memory of `n` values whose passes do nothing but store. -/
theorem foldlM_stores {f : β → γ → Outcome ε β} {stores : γ → List (Nat × α)} {n : Nat}
    {passes : List γ} {b : β} (hb : (M.values b).length = n)
    (h : ∀ p ∈ passes, ∀ b, (M.values b).length = n → f b p = .ok (M.putAll (stores p) b)) :
    passes.foldlM f b = .ok (M.putAll (passes.flatMap stores) b) := by
  have hpass : ∀ p ∈ passes, ∀ b, (M.values b).length = n →
      f b p = if True then .ok (M.putAll (stores p) b) else .panicked := fun p hp b hb => by
    rw [if_pos trivial, h p hp b hb]
  rw [foldlM_passes (G := fun _ => True) hb hpass, if_pos fun _ _ => trivial]

/-! ## Updates -/

variable (M) in
/-- `b[i] = f(b[i])`. -/
def update (f : α → α) (b : β) (i : Nat) : Outcome ε β := do
  M.store b i (f (← Outcome.index (M.values b) i))

/-- The stores that updates make, at positions that are all distinct. -/
def updates (f : α → α) (l : List α) (positions : List Nat) : List (Nat × α) :=
  positions.filterMap fun i => l[i]?.map fun a => (i, f a)

variable {f : α → α} {positions : List Nat}

theorem updates_congr {l l' : List α} (h : ∀ i ∈ positions, l[i]? = l'[i]?) :
    updates f l positions = updates f l' positions :=
  List.filterMap_congr fun i hi => by rw [h i hi]

theorem map_fst_updates {l : List α} (h : ∀ i ∈ positions, i < l.length) :
    (updates f l positions).map Prod.fst = positions := by
  induction positions with
  | nil => rfl
  | cons i positions ih =>
    obtain ⟨hi, hrest⟩ := List.forall_mem_cons.mp h
    rw [updates, List.filterMap_cons, List.getElem?_eq_getElem hi]
    exact congrArg (i :: ·) (ih hrest)

theorem update_of_lt {b : β} {i : Nat} {a : α} (h : (M.values b)[i]? = some a) :
    (M.update f b i : Outcome ε β) = .ok (M.put b i (f a)) := by
  have hi : i < (M.values b).length := (List.getElem?_eq_some_iff.mp h).1
  rw [update, Outcome.index_eq_ok.mpr h, Outcome.ok_bind, store, if_pos hi]

/-- Updates at distinct positions are stores of what was there before. -/
theorem foldlM_update {b : β} (hnodup : positions.Nodup)
    (hlt : ∀ i ∈ positions, i < (M.values b).length) :
    positions.foldlM (M.update f) b =
      (.ok (M.putAll (updates f (M.values b) positions) b) : Outcome ε β) := by
  induction positions generalizing b with
  | nil => rfl
  | cons i positions ih =>
    obtain ⟨hi, hrest⟩ := List.forall_mem_cons.mp hlt
    obtain ⟨hnot, hnodup⟩ := List.nodup_cons.mp hnodup
    have ha : (M.values b)[i]? = some ((M.values b)[i]) := List.getElem?_eq_getElem hi
    have hkept : updates f (M.values (M.put b i (f ((M.values b)[i])))) positions =
        updates f (M.values b) positions := by
      refine updates_congr fun j hj => ?_
      rw [M.values_put, List.getElem?_set_ne (ne_of_mem_of_not_mem hj hnot).symm]
    rw [List.foldlM_cons, update_of_lt ha, Outcome.ok_bind, ih hnodup ?_, hkept, updates, updates,
      List.filterMap_cons, ha]
    · rfl
    · simpa [M.values_put] using hrest

/-- What updates at distinct positions leave. -/
theorem storeAll_updates {l : List α} (hnodup : positions.Nodup)
    (hlt : ∀ i ∈ positions, i < l.length) :
    storeAll (updates f l positions) l = l.mapIdx fun i a => if i ∈ positions then f a else a := by
  have hfst := map_fst_updates (f := f) hlt
  refine List.ext_getElem? fun i => ?_
  rw [List.getElem?_mapIdx]
  cases hi : l[i]? with
  | none =>
    rw [List.getElem?_eq_none_iff] at hi
    rw [Option.map_none, List.getElem?_eq_none_iff, length_storeAll]
    exact hi
  | some a =>
    by_cases hmem : i ∈ positions
    · rw [Option.map_some, if_pos hmem]
      refine getElem?_storeAll_of_nodup (by rwa [hfst]) ?_ (List.getElem?_eq_some_iff.mp hi).1
      exact List.mem_filterMap.mpr ⟨i, hmem, by rw [hi]; rfl⟩
    · rw [Option.map_some, if_neg hmem]
      refine getElem?_storeAll_of_eq hi fun cell hcell heq => absurd ?_ hmem
      rw [← heq, ← hfst]
      exact List.mem_map_of_mem hcell

variable (M) in
/-- On a memory of `n` values, a part of a program does nothing but update positions. -/
def Updates (f : α → α) (n : Nat) (part : β → Outcome ε β) (positions : List Nat) : Prop :=
  ∀ b, (M.values b).length = n → part b = positions.foldlM (M.update f) b

theorem length_of_foldlM_update {b b' : β}
    (h : positions.foldlM (M.update f) b = (.ok b' : Outcome ε β)) :
    (M.values b').length = (M.values b).length := by
  induction positions generalizing b with
  | nil =>
    cases h
    rfl
  | cons i positions ih =>
    rw [List.foldlM_cons] at h
    obtain ⟨c, hc, hrest⟩ := Outcome.bind_eq_ok.mp h
    obtain ⟨a, -, hstore⟩ := Outcome.bind_eq_ok.mp hc
    rw [store] at hstore
    split_ifs at hstore
    cases hstore
    rw [ih hrest, M.values_put, List.length_set]

theorem Updates.append {n : Nat} {part part' : β → Outcome ε β} {positions' : List Nat}
    (h : M.Updates f n part positions) (h' : M.Updates f n part' positions') :
    M.Updates f n (fun b => part b >>= part') (positions ++ positions') := by
  intro b hb
  show part b >>= part' = _
  rw [h b hb, Outcome.foldlM_append]
  cases hpart : positions.foldlM (M.update f) b with
  | ok c => exact h' c ((length_of_foldlM_update hpart).trans hb)
  | err e => rfl
  | panicked => rfl

theorem Updates.foldlM {n : Nat} {part : β → γ → Outcome ε β} {positions : γ → List Nat}
    {passes : List γ} (h : ∀ p ∈ passes, M.Updates f n (part · p) (positions p)) :
    M.Updates f n (passes.foldlM part) (passes.flatMap positions) := by
  induction passes with
  | nil => exact fun b _ => rfl
  | cons p passes ih =>
    obtain ⟨hp, hrest⟩ := List.forall_mem_cons.mp h
    intro b hb
    rw [List.flatMap_cons]
    exact hp.append (ih hrest) b hb

end Memory

end Blackwing

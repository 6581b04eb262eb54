import Mathlib.Data.List.Nodup
import Mathlib.Data.List.Perm.Basic

/-!
# Free lists

The cells of a pool are free or held. The free ones are a stack: a cell is taken from its top, and a
cell that is given back becomes its top. A pool stores the stack as the top and a link from each
free cell to the one below it.

* `Alloc`: the free cells, top first, and the held ones, oldest first. `Alloc.take`, `Alloc.give`.
* `Alloc.Shares`: each of the cells is free or held, and is so once. The operations keep this.
* `Linked`: the links lead through a list of cells to the end mark. `Linked.frame`: they still do
  after a write to a cell that is not in the list; `Linked.push`: a cell put on top.
-/

namespace Blackwing.FreeList

variable {ι : Type}

/-- The free cells, top first, and the held ones, oldest first. -/
structure Alloc (ι : Type) where
  free : List ι
  held : List ι

namespace Alloc

/-- The top of the free cells, and what remains when it is held. -/
def take (a : Alloc ι) : Option (ι × Alloc ι) :=
  match a.free with
  | [] => none
  | i :: rest => some (i, ⟨rest, a.held ++ [i]⟩)

/-- The cell held at a place becomes the top of the free ones. -/
def give (a : Alloc ι) (place : Nat) : Alloc ι :=
  match a.held[place]? with
  | none => a
  | some i => ⟨i :: a.free, a.held.eraseIdx place⟩

/-- Each of the cells is free or held, and is so once. -/
def Shares (a : Alloc ι) (cells : List ι) : Prop := (a.free ++ a.held).Perm cells

variable {a : Alloc ι} {cells rest : List ι} {i : ι} {place : Nat}

theorem take_of_nil (h : a.free = []) : a.take = none := by
  rw [take, h]

theorem take_of_cons (h : a.free = i :: rest) : a.take = some (i, ⟨rest, a.held ++ [i]⟩) := by
  rw [take, h]

theorem give_of_none (h : a.held[place]? = none) : a.give place = a := by
  rw [give, h]

theorem give_of_some (h : a.held[place]? = some i) :
    a.give place = ⟨i :: a.free, a.held.eraseIdx place⟩ := by
  rw [give, h]

theorem shares_fresh (cells : List ι) : Shares ⟨cells, []⟩ cells :=
  List.Perm.of_eq (List.append_nil cells)

theorem Shares.take (h : a.Shares cells) (hfree : a.free = i :: rest) :
    Shares ⟨rest, a.held ++ [i]⟩ cells := by
  have hmove : (rest ++ (a.held ++ [i])).Perm (a.free ++ a.held) := by
    rw [hfree, ← List.append_assoc]
    exact List.perm_append_singleton i (rest ++ a.held)
  exact hmove.trans h

theorem Shares.give (h : a.Shares cells) (hheld : a.held[place]? = some i) :
    Shares ⟨i :: a.free, a.held.eraseIdx place⟩ cells := by
  obtain ⟨hlt, rfl⟩ := List.getElem?_eq_some_iff.mp hheld
  have hmove : (a.held[place] :: a.free ++ a.held.eraseIdx place).Perm
      (a.free ++ a.held[place] :: a.held.eraseIdx place) := List.perm_middle.symm
  have hback : (a.free ++ a.held[place] :: a.held.eraseIdx place).Perm (a.free ++ a.held) :=
    (List.getElem_cons_eraseIdx_perm hlt).append_left _
  exact (hmove.trans hback).trans h

variable (h : a.Shares cells)
include h

theorem Shares.nodup (hcells : cells.Nodup) : (a.free ++ a.held).Nodup := h.nodup_iff.mpr hcells

theorem Shares.mem_free_iff (hcells : cells.Nodup) : i ∈ a.free ↔ i ∈ cells ∧ i ∉ a.held := by
  have hapart := (List.nodup_append.mp (h.nodup hcells)).2.2
  rw [← List.Perm.mem_iff h, List.mem_append]
  constructor
  · intro hi
    exact ⟨Or.inl hi, fun hheld => hapart i hi i hheld rfl⟩
  · rintro ⟨hi | hi, hnot⟩
    · exact hi
    · exact absurd hi hnot

theorem Shares.free_eq_nil_iff : a.free = [] ↔ a.held.length = cells.length := by
  have hlen := List.Perm.length_eq h
  rw [List.length_append] at hlen
  rw [← List.length_eq_zero_iff]
  omega

end Alloc

/-- From `start` the links lead through the cells of the list, in its order, to `stop`. -/
inductive Linked (link : ι → Option ι) (stop : ι) : ι → List ι → Prop
  | nil : Linked link stop stop []
  | cons {i next : ι} {l : List ι} : link i = some next → Linked link stop next l →
      Linked link stop i (i :: l)

namespace Linked

variable {link link' : ι → Option ι} {stop start i : ι} {l : List ι}

theorem start_mem (h : Linked link stop start l) : start = stop ∨ start ∈ l := by
  cases h with
  | nil => exact Or.inl rfl
  | cons => exact Or.inr List.mem_cons_self

theorem uncons (h : Linked link stop start (i :: l)) :
    start = i ∧ ∃ next, link i = some next ∧ Linked link stop next l := by
  cases h with
  | cons hnext hrest => exact ⟨rfl, _, hnext, hrest⟩

theorem frame (h : Linked link stop start l) (hlink : ∀ i ∈ l, link' i = link i) :
    Linked link' stop start l := by
  induction h with
  | nil => exact .nil
  | cons hnext _ ih =>
    refine .cons ((hlink _ List.mem_cons_self).trans hnext) (ih fun i hi => ?_)
    exact hlink i (List.mem_cons_of_mem _ hi)

theorem push (h : Linked link stop start l) (hi : link' i = some start)
    (hlink : ∀ j ∈ l, link' j = link j) : Linked link' stop i (i :: l) :=
  .cons hi (h.frame hlink)

end Linked

/-- Cells that are each linked to the next number. -/
theorem linked_range' {link : Nat → Option Nat} {n : Nat} (hlink : ∀ i < n, link i = some (i + 1)) :
    ∀ m k, k + m = n → Linked link n k (List.range' k m)
  | 0, k, hk => by
    obtain rfl : k = n := hk
    exact .nil
  | m + 1, k, hk =>
    .cons (hlink k (by omega)) (linked_range' hlink m (k + 1) (by omega))

end Blackwing.FreeList

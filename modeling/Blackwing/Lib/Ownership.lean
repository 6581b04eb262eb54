import Mathlib.Data.Set.Insert
import Mathlib.Logic.Function.Basic
import Mathlib.Order.BooleanAlgebra.Set

/-!
# Keys and their owners

A table of keys beside the owners it serves: each owner has at most one key. The table is right when
it has the keys that are owned and no others.

* `Balanced`, `Exclusive`: the table is right, and no key has two owners.
* `Balanced.acquire`, `Balanced.release`: a key that comes and goes with its owner.
* `not_balanced_abandon`, `balanced_revoke_iff`: an owner that goes without its key, and a key that
  is taken while it may be owned.
-/

namespace Blackwing.Ownership

variable {ι κ : Type} {owner : ι → Option κ} {keys : Set κ} {i : ι} {k : κ}

/-- The keys are those that someone owns. -/
def Balanced (owner : ι → Option κ) (keys : Set κ) : Prop :=
  ∀ k, k ∈ keys ↔ ∃ i, owner i = some k

/-- No key has two owners. -/
def Exclusive (owner : ι → Option κ) : Prop :=
  ∀ i j k, owner i = some k → owner j = some k → i = j

theorem balanced_empty : Balanced (fun _ : ι => (none : Option κ)) ∅ := by
  simp [Balanced]

theorem exclusive_empty : Exclusive fun _ : ι => (none : Option κ) := by
  simp [Exclusive]

/-- Taking a key from a table that is right harms nobody exactly if nobody owns it. -/
theorem balanced_revoke_iff (h : Balanced owner keys) :
    Balanced owner (keys \ {k}) ↔ ∀ i, owner i ≠ some k := by
  constructor
  · intro h' i hi
    exact ((h' k).mpr ⟨i, hi⟩).2 rfl
  · intro hfree
    have hk : k ∉ keys := fun hmem => by
      obtain ⟨i, hi⟩ := (h k).mp hmem
      exact hfree i hi
    rwa [Set.sdiff_singleton_eq_self hk]

variable [DecidableEq ι]

theorem Balanced.acquire (h : Balanced owner keys) (hi : owner i = none) :
    Balanced (Function.update owner i (some k)) (insert k keys) := by
  intro k'
  rw [Set.mem_insert_iff, h k']
  constructor
  · rintro (rfl | ⟨j, hj⟩)
    · exact ⟨i, Function.update_self ..⟩
    · have hne : j ≠ i := fun heq => nomatch (heq ▸ hj).symm.trans hi
      exact ⟨j, (Function.update_of_ne hne ..).trans hj⟩
  · rintro ⟨j, hj⟩
    rw [Function.update_apply] at hj
    split at hj
    · exact Or.inl (Option.some.inj hj).symm
    · exact Or.inr ⟨j, hj⟩

theorem Exclusive.acquire (hx : Exclusive owner) (hfree : ∀ j, owner j ≠ some k) :
    Exclusive (Function.update owner i (some k)) := by
  intro j j' k' hj hj'
  rw [Function.update_apply] at hj hj'
  split at hj <;> split at hj'
  · next h h' => exact h.trans h'.symm
  · exact absurd (hj.symm ▸ hj') (hfree j')
  · exact absurd (hj'.symm ▸ hj) (hfree j)
  · exact hx j j' k' hj hj'

theorem Exclusive.release (hx : Exclusive owner) : Exclusive (Function.update owner i none) := by
  intro j j' k' hj hj'
  rw [Function.update_apply] at hj hj'
  split at hj
  · cases hj
  · split at hj'
    · cases hj'
    · exact hx j j' k' hj hj'

/-- Once its only owner has gone, nobody owns a key. -/
theorem not_owned_of_gone (hx : Exclusive owner) (hi : owner i = some k) (j : ι) :
    Function.update owner i none j ≠ some k := by
  rw [Function.update_apply]
  split
  · exact fun h => nomatch h
  · next hne => exact fun hj => hne (hx j i k hj hi)

section

variable (h : Balanced owner keys) (hx : Exclusive owner) (hi : owner i = some k)
include h hx hi

theorem Balanced.release :
    Balanced (Function.update owner i none) (keys \ {k}) := by
  intro k'
  rw [Set.mem_sdiff, Set.mem_singleton_iff, h k']
  constructor
  · rintro ⟨⟨j, hj⟩, hne⟩
    have hji : j ≠ i := fun heq => hne (Option.some.inj (hj.symm.trans (heq ▸ hi)))
    exact ⟨j, (Function.update_of_ne hji ..).trans hj⟩
  · rintro ⟨j, hj⟩
    refine ⟨?_, fun heq => not_owned_of_gone hx hi j (heq ▸ hj)⟩
    rw [Function.update_apply] at hj
    split at hj
    · cases hj
    · exact ⟨j, hj⟩

/-- An owner that goes without its key leaves it in the table. -/
theorem not_balanced_abandon :
    ¬ Balanced (Function.update owner i none) keys := by
  intro h'
  obtain ⟨j, hj⟩ := (h' k).mp ((h k).mpr ⟨i, hi⟩)
  exact not_owned_of_gone hx hi j hj

end

end Blackwing.Ownership

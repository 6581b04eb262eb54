import Mathlib.Data.List.Nodup
import Mathlib.Logic.Function.Basic

/-!
# What each of many threads holds

Threads are named, and what a thread holds is read off its state. The holdings are apart when no
thing is held twice, by one thread or by two.

* `Apart`: the holdings are apart. `Apart.update`: they stay so when one thread moves on to a state
  in which it holds only what it held before, or what nobody held.
* `exists_update_iff`: who holds a thing after one thread has moved on.
* `Tallied`: things carry a mark, and the marked ones are those that are held. `Tallied.keep` and
  `Tallied.put` are the two ways in which a thread moves on.
-/

namespace Blackwing.Holders

variable {τ θ ι : Type} {threads : τ → θ} {holding : θ → List ι}

/-- No thing is held twice. -/
structure Apart (threads : τ → θ) (holding : θ → List ι) : Prop where
  nodup : ∀ t, (holding (threads t)).Nodup
  disjoint : ∀ t u i, i ∈ holding (threads t) → i ∈ holding (threads u) → t = u

/-- Threads that are all in a state without holdings. -/
theorem apart_const {start : θ} (h : holding start = []) : Apart (fun _ : τ => start) holding where
  nodup _ := by rw [h]; exact List.nodup_nil
  disjoint _ _ i hi := by
    rw [h] at hi
    exact absurd hi List.not_mem_nil

/-- What a thread holds, for the others. -/
theorem Apart.not_holding (h : Apart threads holding) {t u : τ} {i : ι} (hi : i ∈ holding (threads t))
    (hu : u ≠ t) : i ∉ holding (threads u) := fun hheld =>
  hu (h.disjoint u t i hheld hi)

/-- The holdings are apart, and the things that are marked are those that some thread holds. -/
structure Tallied (marked : ι → Prop) (threads : τ → θ) (holding : θ → List ι) : Prop
    extends Apart threads holding where
  marked_iff : ∀ i, marked i ↔ ∃ t, i ∈ holding (threads t)

namespace Tallied

variable {marked : ι → Prop}

theorem not_holding_of_not_marked (h : Tallied marked threads holding) {i : ι} (hi : ¬ marked i)
    (u : τ) : i ∉ holding (threads u) := fun hu =>
  hi ((h.marked_iff i).mpr ⟨u, hu⟩)

theorem exists_iff (h : Tallied marked threads holding) (t : τ) (i : ι) :
    marked i ↔ i ∈ holding (threads t) ∨ ∃ u, u ≠ t ∧ i ∈ holding (threads u) := by
  rw [h.marked_iff]
  constructor
  · rintro ⟨u, hu⟩
    by_cases hut : u = t
    · exact Or.inl (hut ▸ hu)
    · exact Or.inr ⟨u, hut, hu⟩
  · rintro (ht | ⟨u, -, hu⟩)
    · exact ⟨t, ht⟩
    · exact ⟨u, hu⟩

end Tallied

/-! ## One thread moves on -/

variable [DecidableEq τ] {t : τ} {new : θ} {i : ι}

theorem Apart.update (h : Apart threads holding) (hnodup : (holding new).Nodup)
    (hfrom : ∀ i ∈ holding new, i ∈ holding (threads t) ∨ ∀ u, i ∉ holding (threads u)) :
    Apart (Function.update threads t new) holding where
  nodup u := by
    rw [Function.update_apply]
    split
    · exact hnodup
    · exact h.nodup u
  disjoint u v i hu hv := by
    -- what is new for one thread was held by it before, or by nobody
    have hother : ∀ w, i ∈ holding new → i ∈ holding (threads w) → t = w := by
      intro w hnew hw
      rcases hfrom i hnew with hold | hnobody
      · exact h.disjoint t w i hold hw
      · exact absurd hw (hnobody w)
    rw [Function.update_apply] at hu hv
    split at hu <;> split at hv
    · next hut hvt => exact hut.trans hvt.symm
    · next hut _ => exact hut.trans (hother v hu hv)
    · next _ hvt => exact ((hother u hv hu).symm.trans hvt.symm)
    · exact h.disjoint u v i hu hv

/-- A thread that holds no more than before. -/
theorem Apart.update_of_subset (h : Apart threads holding) (hnodup : (holding new).Nodup)
    (hsub : holding new ⊆ holding (threads t)) : Apart (Function.update threads t new) holding :=
  h.update hnodup fun _ hi => Or.inl (hsub hi)

/-- Who holds a thing after one thread has moved on. -/
theorem exists_update_iff :
    (∃ u, i ∈ holding (Function.update threads t new u)) ↔
      i ∈ holding new ∨ ∃ u, u ≠ t ∧ i ∈ holding (threads u) := by
  constructor
  · rintro ⟨u, hu⟩
    by_cases hut : u = t
    · subst hut
      rw [Function.update_self] at hu
      exact Or.inl hu
    · rw [Function.update_of_ne hut] at hu
      exact Or.inr ⟨u, hut, hu⟩
  · rintro (hnew | ⟨u, hut, hu⟩)
    · exact ⟨t, by rwa [Function.update_self]⟩
    · exact ⟨u, by rwa [Function.update_of_ne hut]⟩

namespace Tallied

variable {marked marked' : ι → Prop}

/-- A thread moves on with what it holds. -/
theorem keep (h : Tallied marked threads holding)
    (hholding : (holding new).Perm (holding (threads t))) (hmarked : ∀ i, marked' i ↔ marked i) :
    Tallied marked' (Function.update threads t new) holding where
  toApart := h.toApart.update_of_subset (hholding.nodup_iff.mpr (h.nodup t)) hholding.subset
  marked_iff i := by
    rw [hmarked, exists_update_iff, hholding.mem_iff]
    exact h.exists_iff t i

/-- A thread moves on, and one thing that no other thread holds is marked anew. -/
theorem put (h : Tallied marked threads holding) (hnodup : (holding new).Nodup)
    (hothers : ∀ j, j ≠ i → (j ∈ holding new ↔ j ∈ holding (threads t)))
    (hi : ∀ u, u ≠ t → i ∉ holding (threads u)) (hmark : marked' i ↔ i ∈ holding new)
    (hmarked : ∀ j, j ≠ i → (marked' j ↔ marked j)) :
    Tallied marked' (Function.update threads t new) holding where
  toApart := by
    refine h.toApart.update hnodup fun j hj => ?_
    by_cases hji : j = i
    · subst hji
      by_cases hold : j ∈ holding (threads t)
      · exact Or.inl hold
      · refine Or.inr fun u hu => ?_
        by_cases hut : u = t
        · exact hold (hut ▸ hu)
        · exact hi u hut hu
    · exact Or.inl ((hothers j hji).mp hj)
  marked_iff j := by
    rw [exists_update_iff]
    by_cases hji : j = i
    · subst hji
      rw [hmark]
      refine ⟨Or.inl, fun hheld => hheld.resolve_right ?_⟩
      rintro ⟨u, hut, hu⟩
      exact hi u hut hu
    · rw [hmarked j hji, hothers j hji]
      exact h.exists_iff t j

end Tallied

end Blackwing.Holders

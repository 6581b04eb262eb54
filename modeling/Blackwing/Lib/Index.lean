import Blackwing.Lib.HashMap

/-!
# Maps with an index

A map `m : K → V` whose values carry a key of their own, `key : V → T`, and a second
map `index : T → K` that finds a value by that key. The two are kept by separate
writes.

* `Indexed`: the two maps are inverse to each other.
* `indexed_insert_iff`: when a write to both keeps them inverse.
* `Indexed.update`, `Indexed.remove`: changing values, and removing values with
  their index entries, keeps them inverse.
-/

namespace Blackwing

variable {K V T : Type} [DecidableEq K] [DecidableEq T]

/-- `index` finds exactly the values of `m`, each by its key. -/
def Indexed (key : V → T) (m : HashMap K V) (index : HashMap T K) : Prop :=
  ∀ t k, index.lookup t = some k ↔ ∃ v, m.lookup k = some v ∧ key v = t

variable {key : V → T} {m m' : HashMap K V} {index index' : HashMap T K}

theorem indexed_empty : Indexed key (∅ : HashMap K V) ∅ :=
  fun _ _ => ⟨(fun h => nomatch h), fun ⟨_, h, _⟩ => nomatch h⟩

section

variable (h : Indexed key m index)
include h

theorem Indexed.injective {k k' : K} {v v' : V} (hv : m.lookup k = some v)
    (hv' : m.lookup k' = some v') (heq : key v = key v') : k = k' := by
  have hk := (h (key v) k).mpr ⟨v, hv, rfl⟩
  have hk' := (h (key v) k').mpr ⟨v', hv', heq.symm⟩
  exact Option.some.inj (hk.symm.trans hk')

/-- A write to both maps keeps them inverse exactly when it replaces no value with another key, and
takes its key from no other value. -/
theorem indexed_insert_iff (k : K) (v : V) :
    Indexed key (m.insert k v) (index.insert (key v) k) ↔
      (∀ v', m.lookup k = some v' → key v' = key v) ∧
        ∀ k', index.lookup (key v) = some k' → k' = k := by
  constructor
  · intro hnew
    constructor
    · intro v' hv'
      -- the old index entry of the replaced value still leads to `k`
      by_contra hne
      have hold : (index.insert (key v) k).lookup (key v') = some k := by
        rw [HashMap.lookup_insert_eq, if_neg hne]
        exact (h _ _).mpr ⟨v', hv', rfl⟩
      obtain ⟨w, hw, hkey⟩ := (hnew _ _).mp hold
      rw [AList.lookup_insert] at hw
      cases hw
      exact hne hkey.symm
    · intro k' hk'
      -- the other value still has the key
      by_contra hne
      obtain ⟨v', hv', hkey⟩ := (h _ _).mp hk'
      have hstill : (m.insert k v).lookup k' = some v' := by
        rw [HashMap.lookup_insert_eq, if_neg hne]
        exact hv'
      have hback := (hnew _ _).mpr ⟨v', hstill, hkey⟩
      rw [AList.lookup_insert] at hback
      exact hne (Option.some.inj hback).symm
  · rintro ⟨hsame, hfree⟩ t j
    rw [HashMap.lookup_insert_eq, HashMap.lookup_insert_eq]
    by_cases ht : t = key v
    · rw [if_pos ht]
      constructor
      · intro hj
        cases hj
        exact ⟨v, if_pos rfl, ht.symm⟩
      · rintro ⟨w, hw, hkey⟩
        split at hw
        · next hj => rw [hj]
        · rw [hfree j ((h _ _).mpr ⟨w, hw, hkey.trans ht⟩)]
    · rw [if_neg ht, h]
      by_cases hj : j = k
      · rw [if_pos hj, hj]
        constructor
        · rintro ⟨w, hw, hkey⟩
          exact absurd (hkey.symm.trans (hsame w hw)) ht
        · rintro ⟨w, hw, hkey⟩
          cases hw
          exact absurd hkey.symm ht
      · rw [if_neg hj]

/-- Changing values without changing their keys. -/
theorem Indexed.update {f : K → V → V} (hf : ∀ k v, key (f k v) = key v)
    (hm : ∀ k, m'.lookup k = (m.lookup k).map (f k)) : Indexed key m' index := by
  intro t k
  rw [h, hm]
  constructor
  · rintro ⟨v, hv, hkey⟩
    exact ⟨f k v, by rw [hv, Option.map_some], (hf k v).trans hkey⟩
  · rintro ⟨w, hw, hkey⟩
    obtain ⟨v, hv, rfl⟩ := Option.map_eq_some_iff.mp hw
    exact ⟨v, hv, (hf k v).symm.trans hkey⟩

/-- Changing values without changing their keys, and removing some of them with their keys. -/
theorem Indexed.remove {f : V → V} {dead : V → Prop} (hf : ∀ v, key (f v) = key v)
    (hm : ∀ k w, m'.lookup k = some w ↔ ∃ v, m.lookup k = some v ∧ f v = w ∧ ¬ dead v)
    (hi : ∀ t k, index'.lookup t = some k ↔
      index.lookup t = some k ∧ ∀ k' v, m.lookup k' = some v → dead v → key v ≠ t) :
    Indexed key m' index' := by
  intro t k
  rw [hi, h]
  constructor
  · rintro ⟨⟨v, hv, hkey⟩, hlive⟩
    exact ⟨f v, (hm _ _).mpr ⟨v, hv, rfl, fun hd => hlive k v hv hd hkey⟩, (hf v).trans hkey⟩
  · rintro ⟨w, hw, hkey⟩
    obtain ⟨v, hv, rfl, hlive⟩ := (hm _ _).mp hw
    rw [hf] at hkey
    refine ⟨⟨v, hv, hkey⟩, fun k' v' hv' hd hkey' => ?_⟩
    obtain rfl : k = k' := h.injective hv hv' (hkey.trans hkey'.symm)
    cases hv.symm.trans hv'
    exact hlive hd

end

end Blackwing

import Mathlib.Data.List.Basic

/-!
# Occurrences of a pattern

* `OccursAt pattern l i`: the pattern stands in `l` at position `i`.
* `position`: the first position, as `slice.windows(n).position(..)` finds it, and
  `position_eq_some`, `position_eq_none`, its specification.
* `occursAt_append`: the occurrences of a concatenation.
* `occursAt_disjoint`: occurrences do not overlap when the first element of the pattern
  does not come again in it.
-/

namespace Blackwing

variable {α : Type}

/-- The pattern stands in the list at the position. -/
def OccursAt (pattern l : List α) (i : Nat) : Prop := pattern <+: l.drop i

variable {pattern l : List α} {i : Nat}

theorem occursAt_drop {k : Nat} : OccursAt pattern (l.drop k) i ↔ OccursAt pattern l (k + i) := by
  unfold OccursAt
  rw [List.drop_drop]

theorem occursAt_append {p q : List α} :
    OccursAt (p ++ q) l i ↔ OccursAt p l i ∧ OccursAt q l (i + p.length) := by
  unfold OccursAt
  rw [← List.drop_drop]
  constructor
  · rintro ⟨rest, h⟩
    rw [← h, List.append_assoc, List.drop_left]
    exact ⟨⟨q ++ rest, rfl⟩, ⟨rest, rfl⟩⟩
  · rintro ⟨⟨rest, h⟩, hq⟩
    rw [← h, List.drop_left] at hq
    obtain ⟨rest', rfl⟩ := hq
    exact ⟨rest', by rw [List.append_assoc, h]⟩

theorem OccursAt.length_le (h : OccursAt pattern l i) : pattern.length ≤ l.length - i := by
  rw [← List.length_drop]
  exact List.IsPrefix.length_le h

theorem OccursAt.getElem? {k : Nat} (h : OccursAt pattern l i) (hk : k < pattern.length) :
    l[i + k]? = pattern[k]? := by
  obtain ⟨rest, h⟩ := h
  rw [← List.getElem?_drop, ← h, List.getElem?_append_left hk]

/-- Two occurrences of a pattern whose first element does not come again in it do not overlap. -/
theorem occursAt_disjoint {a : α} {p : List α} (ha : a ∉ p) {j : Nat} (hi : OccursAt (a :: p) l i)
    (hj : OccursAt (a :: p) l j) (hlt : i < j) :
    i + (a :: p).length ≤ j := by
  by_contra hge
  obtain ⟨k, rfl⟩ := Nat.exists_eq_add_of_lt hlt
  have hk : k + 1 < (a :: p).length := by
    rw [Nat.not_le, Nat.add_assoc] at hge
    exact Nat.lt_of_add_lt_add_left hge
  -- the element at `j` is the first one of the pattern, and one of its later ones
  have hfirst : l[i + k + 1]? = some a := hj.getElem? (k := 0) (Nat.succ_pos _)
  have hlater : l[i + k + 1]? = p[k]? := hi.getElem? hk
  rw [hfirst] at hlater
  exact ha (List.mem_of_getElem? hlater.symm)

variable [DecidableEq α]

instance (pattern l : List α) (i : Nat) : Decidable (OccursAt pattern l i) :=
  inferInstanceAs (Decidable (pattern <+: l.drop i))

/-- The position of the first window that equals the pattern. -/
def position (pattern : List α) : List α → Option Nat
  | [] => none
  | a :: l => if pattern <+: a :: l then some 0 else (position pattern l).map (· + 1)

theorem position_eq_none (hp : pattern ≠ []) :
    position pattern l = none ↔ ∀ i, ¬ OccursAt pattern l i := by
  induction l with
  | nil =>
    refine iff_of_true rfl fun i h => hp (List.prefix_nil.mp ?_)
    rwa [OccursAt, List.drop_nil] at h
  | cons a l ih =>
    rw [position]
    split
    · next h => exact iff_of_false (fun h => nomatch h) fun hno => hno 0 h
    · next h =>
      rw [Option.map_eq_none_iff, ih]
      constructor
      · intro hno i
        cases i with
        | zero => exact h
        | succ i => exact hno i
      · exact fun hno i => hno (i + 1)

theorem position_eq_some (hp : pattern ≠ []) :
    position pattern l = some i ↔ OccursAt pattern l i ∧ ∀ j < i, ¬ OccursAt pattern l j := by
  induction l generalizing i with
  | nil =>
    refine iff_of_false (fun h => nomatch h) fun h => hp (List.prefix_nil.mp ?_)
    have h := h.1
    rwa [OccursAt, List.drop_nil] at h
  | cons a l ih =>
    rw [position]
    split
    · next h =>
      constructor
      · intro hi
        cases hi
        exact ⟨h, fun j hj => absurd hj (Nat.not_lt_zero j)⟩
      · rintro ⟨-, hfirst⟩
        cases i with
        | zero => rfl
        | succ i => exact absurd h (hfirst 0 (Nat.succ_pos i))
    · next h =>
      rw [Option.map_eq_some_iff]
      constructor
      · rintro ⟨i, hi, rfl⟩
        obtain ⟨hocc, hfirst⟩ := ih.mp hi
        refine ⟨hocc, fun j hj => ?_⟩
        cases j with
        | zero => exact h
        | succ j => exact hfirst j (Nat.lt_of_succ_lt_succ hj)
      · rintro ⟨hocc, hfirst⟩
        cases i with
        | zero => exact absurd hocc h
        | succ i => exact ⟨i, ih.mpr ⟨hocc, fun j hj => hfirst (j + 1) (Nat.succ_lt_succ hj)⟩, rfl⟩

end Blackwing

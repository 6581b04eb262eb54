import Mathlib.Data.List.Chain

/-!
# A switch that is turned on and off

The list of the positions a switch was brought to, oldest first. Before the first of
them it is off.

* `Alternates`: on, off, on, ... from the first.
* `lastOn`: where it stands now.
* `alternates_snoc_iff`: the next position is the other one.
-/

namespace Blackwing

/-- Every position is another than the one before it, and the first one is on. -/
def Alternates (l : List Bool) : Prop := List.IsChain (· ≠ ·) (false :: l)

instance (l : List Bool) : Decidable (Alternates l) :=
  inferInstanceAs (Decidable (List.IsChain (· ≠ ·) (false :: l)))

/-- The switch is left on. -/
def lastOn (l : List Bool) : Bool := l.getLastD false

theorem lastOn_snoc (l : List Bool) (b : Bool) : lastOn (l ++ [b]) = b := by
  simp [lastOn]

theorem alternates_nil : Alternates [] := List.isChain_singleton false

/-- One more position keeps them alternating when the switch was in the other one. -/
theorem alternates_snoc_iff {l : List Bool} {b : Bool} :
    Alternates (l ++ [b]) ↔ Alternates l ∧ lastOn l ≠ b := by
  have hlast : (false :: l).getLast? = some (lastOn l) := by
    rw [List.getLast?_cons, lastOn, List.getLastD_eq_getLast?]
  unfold Alternates
  rw [← List.cons_append, List.isChain_append, hlast]
  simp

theorem Alternates.of_isPrefix {l l' : List Bool} (h : Alternates l') (hl : l <+: l') :
    Alternates l := by
  obtain ⟨rest, rfl⟩ := hl
  exact List.IsChain.left_of_append h

end Blackwing

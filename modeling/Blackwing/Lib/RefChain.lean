import Blackwing.Lib.Run
import Mathlib.Data.List.Infix

/-!
# Reference chains

A stream of coded units, some of which are keys. A key stands for itself, and any other
unit refers to the unit before it. Some units are sent.

* `Chained`: the unit that a sent unit refers to was sent.
* `Spaced n`: at most `n` units in a row are no keys; `Since n`: so many since the last key.
* `chained_snoc`, `spaced_snoc`, `since_snoc`: how they grow with the stream.
-/

namespace Blackwing

variable {α : Type} (key sent : α → Prop)

/-- The last unit was sent. -/
def EndsSent (l : List α) : Prop := ∃ before a, l = before ++ [a] ∧ sent a

/-- Every unit that was sent and is no key follows one that was sent. -/
def Chained (l : List α) : Prop :=
  ∀ before a after, l = before ++ a :: after → sent a → ¬ key a → EndsSent sent before

/-- At most `n` units in a row are no keys. -/
def Spaced (n : Nat) (l : List α) : Prop := ∀ w, w <:+: l → (∀ a ∈ w, ¬ key a) → w.length ≤ n

/-- At most `n` units came since the last key. -/
def Since (n : Nat) (l : List α) : Prop := ∀ w, w <:+ l → (∀ a ∈ w, ¬ key a) → w.length ≤ n

variable {key sent} {l : List α} {a : α} {n : Nat}

theorem chained_nil : Chained key sent [] := by
  intro before a after h
  cases before <;> cases h

theorem chained_snoc (h : Chained key sent l) (ha : sent a → ¬ key a → EndsSent sent l) :
    Chained key sent (l ++ [a]) :=
  forall_split_snoc.mpr ⟨ha, fun before b after hl => h before b after hl⟩

theorem spaced_nil : Spaced key n [] := by
  intro w hw _
  rw [List.infix_nil.mp hw]
  exact Nat.zero_le n

theorem spaced_snoc (h : Spaced key n l) (ha : Since key n (l ++ [a])) :
    Spaced key n (l ++ [a]) := by
  intro w hw
  rcases List.infix_concat_iff.mp hw with hw | hw
  · exact ha w hw
  · exact h w hw

theorem since_snoc_key (ha : key a) : Since key n (l ++ [a]) := by
  intro w hw hno
  rcases List.suffix_concat_iff.mp hw with rfl | ⟨t, rfl, -⟩
  · exact Nat.zero_le n
  · exact absurd ha (hno a (List.mem_append_right t List.mem_cons_self))

theorem since_snoc (h : Since key n l) : Since key (n + 1) (l ++ [a]) := by
  intro w hw hno
  rcases List.suffix_concat_iff.mp hw with rfl | ⟨t, rfl, ht⟩
  · exact Nat.zero_le _
  · rw [List.length_append]
    exact Nat.succ_le_succ (h t ht fun b hb => hno b (List.mem_append_left _ hb))

theorem Since.mono {m : Nat} (h : Since key n l) (hle : n ≤ m) : Since key m l :=
  fun w hw hno => (h w hw hno).trans hle

end Blackwing

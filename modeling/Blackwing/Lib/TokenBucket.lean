import Mathlib.Algebra.Order.Field.Basic
import Mathlib.Algebra.BigOperators.Group.List.Basic
import Mathlib.Tactic.Linarith
import Mathlib.Tactic.Ring

/-!
# Token buckets

A bucket holds at most `cap` tokens, is refilled at `rate` tokens per unit of time, and pays for
what is spent. What is spent in a window of any length is bounded by a full bucket and the refill of
the window.

* `spentFrom`, `spentWithin`: the amounts spent from a time on, and in a window.
* `Capped`: the bound for every window.
* `Metered`: a bucket that has paid for a list of spends. The sum of its level and of what was spent
  since a time grows no faster than the refill since that time.
* `Metered.idle`, `Metered.refill`, `Metered.drain`, `Metered.spend`: the operations keep this.
-/

namespace Blackwing.TokenBucket

/-- An amount that was spent at a time. -/
structure Spend (K : Type) where
  time : K
  amount : K
deriving DecidableEq

section Sums

variable {K : Type} [Field K] [LinearOrder K]

/-- What was spent at `t` or later. -/
def spentFrom (t : K) (spends : List (Spend K)) : K :=
  ((spends.filter fun s => t ≤ s.time).map Spend.amount).sum

/-- What was spent in the window from `t₁` to `t₂`. -/
def spentWithin (t₁ t₂ : K) (spends : List (Spend K)) : K :=
  ((spends.filter fun s => t₁ ≤ s.time ∧ s.time ≤ t₂).map Spend.amount).sum

/-- In no window is more spent than a full bucket and the refill. -/
def Capped (cap rate : K) (spends : List (Spend K)) : Prop :=
  ∀ t₁ t₂, t₁ ≤ t₂ → spentWithin t₁ t₂ spends ≤ cap + rate * (t₂ - t₁)

/-- The level at the time `last` of a bucket that has paid for the spends. -/
structure Metered (cap rate : K) (spends : List (Spend K)) (level last : K) : Prop where
  rate_nonneg : 0 ≤ rate
  nonneg : 0 ≤ level
  le_cap : level ≤ cap
  past : ∀ s ∈ spends, s.time ≤ last
  since : ∀ t, t ≤ last → spentFrom t spends + level ≤ cap + rate * (last - t)
  capped : Capped cap rate spends

theorem spentFrom_snoc {t : K} (spends : List (Spend K)) {s : Spend K} (hs : t ≤ s.time) :
    spentFrom t (spends ++ [s]) = spentFrom t spends + s.amount := by
  have hkeep : [s].filter (fun s => t ≤ s.time) = [s] := List.filter_cons_of_pos (decide_eq_true hs)
  rw [spentFrom, List.filter_append, hkeep, List.map_append, List.sum_append, List.map_singleton,
    List.sum_singleton, spentFrom]

/-- Nothing is spent from a time on that all spends precede. -/
theorem spentFrom_eq_zero {t : K} {spends : List (Spend K)} (h : ∀ s ∈ spends, s.time < t) :
    spentFrom t spends = 0 := by
  have hnone : spends.filter (fun s => t ≤ s.time) = [] := by
    refine List.filter_eq_nil_iff.mpr fun s hs => ?_
    rw [decide_eq_true_eq]
    exact not_le_of_gt (h s hs)
  rw [spentFrom, hnone]
  rfl

theorem spentWithin_eq_spentFrom {t₁ t₂ : K} {spends : List (Spend K)}
    (h : ∀ s ∈ spends, s.time ≤ t₂) : spentWithin t₁ t₂ spends = spentFrom t₁ spends := by
  rw [spentWithin, spentFrom]
  refine congrArg (fun l : List (Spend K) => (l.map Spend.amount).sum) ?_
  refine List.filter_congr fun s hs => ?_
  exact decide_eq_decide.mpr (and_iff_left (h s hs))

/-- A spend outside the window does not count. -/
theorem spentWithin_snoc {t₁ t₂ : K} (spends : List (Spend K)) {s : Spend K}
    (hs : ¬ (t₁ ≤ s.time ∧ s.time ≤ t₂)) :
    spentWithin t₁ t₂ (spends ++ [s]) = spentWithin t₁ t₂ spends := by
  rw [spentWithin, List.filter_append, List.filter_cons_of_neg (by rwa [decide_eq_true_eq]),
    List.filter_nil, List.append_nil, spentWithin]

end Sums

variable {K : Type} [Field K] [LinearOrder K] [IsStrictOrderedRing K]

theorem capped_nil {cap rate : K} (hcap : 0 ≤ cap) (hrate : 0 ≤ rate) : Capped cap rate [] := by
  intro t₁ t₂ h
  show 0 ≤ cap + rate * (t₂ - t₁)
  exact add_nonneg hcap (mul_nonneg hrate (sub_nonneg.mpr h))

namespace Metered

variable {cap rate level last : K} {spends : List (Spend K)}

/-- A bucket that has paid for nothing yet. -/
theorem idle (hrate : 0 ≤ rate) (hlevel : 0 ≤ level) (hle : level ≤ cap) :
    Metered cap rate [] level last := by
  refine ⟨hrate, hlevel, hle, fun s hs => absurd hs List.not_mem_nil, fun t ht => ?_,
    capped_nil (le_trans hlevel hle) hrate⟩
  have hrefill : 0 ≤ rate * (last - t) := mul_nonneg hrate (sub_nonneg.mpr ht)
  show 0 + level ≤ _
  linarith

section

variable (h : Metered cap rate spends level last)
include h

theorem refill {now : K} (hnow : last ≤ now) :
    Metered cap rate spends (min (level + rate * (now - last)) cap) now := by
  have hgain : 0 ≤ rate * (now - last) := mul_nonneg h.rate_nonneg (sub_nonneg.mpr hnow)
  refine ⟨h.rate_nonneg, le_min (add_nonneg h.nonneg hgain) (le_trans h.nonneg h.le_cap),
    min_le_right _ _, fun s hs => le_trans (h.past s hs) hnow, fun t ht => ?_, h.capped⟩
  rcases le_or_gt t last with hle | hgt
  · -- the refill since the last one is part of the refill since `t`
    have hold := h.since t hle
    have hsplit : rate * (now - t) = rate * (last - t) + rate * (now - last) := by ring
    have hmin := min_le_left (level + rate * (now - last)) cap
    rw [hsplit]
    linarith
  · have hzero : spentFrom t spends = 0 :=
      spentFrom_eq_zero fun s hs => lt_of_le_of_lt (h.past s hs) hgt
    have hrefill : 0 ≤ rate * (now - t) := mul_nonneg h.rate_nonneg (sub_nonneg.mpr ht)
    have hmin := min_le_right (level + rate * (now - last)) cap
    rw [hzero]
    linarith

/-- Tokens that are taken without a spend. -/
theorem drain {amount : K} (hpos : 0 ≤ amount) (hle : amount ≤ level) :
    Metered cap rate spends (level - amount) last := by
  refine ⟨h.rate_nonneg, sub_nonneg.mpr hle, le_trans (sub_le_self _ hpos) h.le_cap, h.past,
    fun t ht => ?_, h.capped⟩
  have hold := h.since t ht
  linarith

theorem spend {amount : K} (hpos : 0 ≤ amount) (hle : amount ≤ level) :
    Metered cap rate (spends ++ [⟨last, amount⟩]) (level - amount) last := by
  have hpast : ∀ s ∈ spends ++ [⟨last, amount⟩], s.time ≤ last := by
    intro s hs
    rcases List.mem_append.mp hs with hs | hs
    · exact h.past s hs
    · exact le_of_eq (congrArg Spend.time (List.mem_singleton.mp hs))
  have hsince : ∀ t, t ≤ last →
      spentFrom t (spends ++ [⟨last, amount⟩]) + (level - amount) ≤ cap + rate * (last - t) := by
    intro t ht
    have hold := h.since t ht
    rw [spentFrom_snoc spends ht]
    linarith
  refine ⟨h.rate_nonneg, sub_nonneg.mpr hle, le_trans (sub_le_self _ hpos) h.le_cap, hpast, hsince,
    fun t₁ t₂ ht => ?_⟩
  by_cases hin : t₁ ≤ last ∧ last ≤ t₂
  · -- the window ends after every spend, so the account since its start bounds it
    have hacc := hsince t₁ hin.1
    have hrest : 0 ≤ rate * (t₂ - last) := mul_nonneg h.rate_nonneg (sub_nonneg.mpr hin.2)
    have hsplit : rate * (t₂ - t₁) = rate * (last - t₁) + rate * (t₂ - last) := by ring
    rw [spentWithin_eq_spentFrom fun s hs => le_trans (hpast s hs) hin.2, hsplit]
    linarith
  · rw [spentWithin_snoc spends hin]
    exact h.capped t₁ t₂ ht

end

end Metered

end Blackwing.TokenBucket

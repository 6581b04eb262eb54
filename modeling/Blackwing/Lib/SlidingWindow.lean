import Blackwing.Lib.Run
import Mathlib.Data.Set.Insert
import Mathlib.Tactic.Common

/-!
# A 64-bit sliding window

A window remembers which of the last 64 counters below its largest one were
seen: `top` is the largest counter and bit `i` of `mask` stands for `top - i`.
`slide` offers a counter to the window; it refuses a counter that was seen or
that lies 64 or more below `top`.

* `Tracks top mask seen`: the window is the image of the set `seen` of all
  counters it ever accepted.
* `slide_ne`: accepting a counter always changes the window.
* `slide_eq_none_iff_refused`, `slide_eq_none`: which counters are refused, by the bits of
  the mask and by the set `seen`.
* `slide_tracks`: an accepted counter joins `seen`, and `top` becomes the maximum.
* `offer_followsRule`: the answers of a window to a sequence of counters, by the counters it
  accepted before.
-/

namespace Blackwing

/-- Offer `val` to the window; `none` when it is refused. -/
def slide (top mask val : UInt64) : Option (UInt64 × UInt64) :=
  if val ≤ top then
    let diff := top - val
    if diff ≥ 64 then none
    else
      let bit := 1 <<< diff
      if mask &&& bit ≠ 0 then none else some (top, mask ||| bit)
  else
    let diff := val - top
    some (val, if diff ≥ 64 then 1 else (mask <<< diff) ||| 1)

/-- Bit `i` of a machine word. -/
def bitAt (m : UInt64) (i : Nat) : Bool := m.toBitVec.getLsbD i

/-- The counter is at or below `top`, and it is too old for the mask or marked in it. -/
def Refused (top mask val : UInt64) : Prop :=
  val.toNat ≤ top.toNat ∧
    (64 ≤ top.toNat - val.toNat ∨ bitAt mask (top.toNat - val.toNat) = true)

instance (top mask val : UInt64) : Decidable (Refused top mask val) :=
  inferInstanceAs (Decidable (_ ∧ _))

/-- Offer `val` to the window and say whether it is accepted. -/
def offer (window : UInt64 × UInt64) (val : UInt64) : Bool × (UInt64 × UInt64) :=
  match slide window.1 window.2 val with
  | none => (false, window)
  | some window' => (true, window')

/-- Counters, each with the answer it was given, oldest first. -/
abbrev Answers : Type := List (UInt64 × Bool)

/-- The counters that were accepted. -/
def Answers.accepted (answers : Answers) : List Nat :=
  (answers.filter Prod.snd).map fun a => a.1.toNat

/-- The largest of the numbers, 0 if there is none. -/
def largest (l : List Nat) : Nat := l.foldr max 0

/-- Every counter is accepted exactly when it was not accepted before and lies less than 64 below
the largest one accepted before. -/
def Answers.FollowsRule (answers : Answers) : Prop :=
  ∀ before a after, answers = before ++ a :: after →
    (a.2 = true ↔ a.1.toNat ∉ accepted before ∧ largest (accepted before) < a.1.toNat + 64)

/-- The window `(top, mask)` stands for the set `seen` of accepted counters. -/
structure Tracks (top mask : UInt64) (seen : Set Nat) : Prop where
  le_top : ∀ v ∈ seen, v ≤ top.toNat
  top_seen : top.toNat = 0 ∨ top.toNat ∈ seen
  bits : ∀ i < 64, bitAt mask i = true ↔ i ≤ top.toNat ∧ top.toNat - i ∈ seen

namespace SlidingWindowLemmas

theorem bitAt_or (a b : UInt64) (i : Nat) : bitAt (a ||| b) i = (bitAt a i || bitAt b i) := by
  simp [bitAt]

theorem bitAt_zero (i : Nat) : bitAt 0 i = false := by
  simp [bitAt]

theorem bitAt_one (i : Nat) : bitAt 1 i = decide (i = 0) := by
  simp [bitAt]

theorem bitAt_shiftLeft {m d : UInt64} (hd : d.toNat < 64) (i : Nat) :
    bitAt (m <<< d) i = (decide (i < 64) && !decide (i < d.toNat) && bitAt m (i - d.toNat)) := by
  have hmod : (d.toBitVec % 64#64).toNat = d.toNat := by
    rw [BitVec.toNat_umod]
    exact Nat.mod_eq_of_lt hd
  show (m <<< d).toBitVec.getLsbD i = _
  rw [UInt64.toBitVec_shiftLeft]
  show (m.toBitVec <<< (d.toBitVec % 64#64)).getLsbD i = _
  rw [BitVec.getLsbD_shiftLeft', hmod]
  rfl

theorem bitAt_bit {d : UInt64} (hd : d.toNat < 64) (i : Nat) :
    bitAt (1 <<< d) i = decide (i = d.toNat) := by
  rw [bitAt_shiftLeft hd, bitAt_one]
  by_cases h : i = d.toNat
  · simp [h, hd]
  · simp only [h, decide_false, Bool.and_eq_false_iff, Bool.not_eq_false', decide_eq_true_eq,
      decide_eq_false_iff_not]
    omega

/-- Testing a mask against one bit reads that bit. -/
theorem and_bit_ne_zero {m d : UInt64} (hd : d.toNat < 64) :
    m &&& (1 <<< d) ≠ 0 ↔ bitAt m d.toNat = true := by
  constructor
  · intro h
    by_contra hb
    apply h
    apply UInt64.toBitVec_inj.mp
    apply BitVec.eq_of_getLsbD_eq
    intro i hi
    have h0 : (0 : UInt64).toBitVec.getLsbD i = false := bitAt_zero i
    have hbit : (1 <<< d : UInt64).toBitVec.getLsbD i = decide (i = d.toNat) := bitAt_bit hd i
    rw [UInt64.toBitVec_and, BitVec.getLsbD_and, hbit, h0]
    by_cases hid : i = d.toNat
    · subst hid
      simpa [bitAt] using hb
    · simp [hid]
  · intro hb h
    have hz : bitAt (m &&& (1 <<< d)) d.toNat = false := by
      rw [h]
      exact bitAt_zero _
    have hbit : (1 <<< d : UInt64).toBitVec.getLsbD d.toNat = true :=
      (bitAt_bit hd d.toNat).trans (decide_eq_true rfl)
    have hm : m.toBitVec.getLsbD d.toNat = true := hb
    rw [bitAt, UInt64.toBitVec_and, BitVec.getLsbD_and, hbit, hm] at hz
    exact Bool.noConfusion hz

theorem ge_64_iff {d : UInt64} : d ≥ 64 ↔ 64 ≤ d.toNat := UInt64.le_iff_toNat_le

end SlidingWindowLemmas

open SlidingWindowLemmas

/-- The window before any counter was offered. -/
theorem tracks_empty : Tracks 0 0 ∅ where
  le_top := fun _ h => absurd h (Set.notMem_empty _)
  top_seen := Or.inl rfl
  bits := fun i _ => by simp [bitAt_zero]

/-- What `slide` does, read through the bits of the mask. -/
theorem slide_cases (top mask val : UInt64) :
    (val.toNat ≤ top.toNat ∧ slide top mask val =
      if 64 ≤ top.toNat - val.toNat then none
      else if bitAt mask (top.toNat - val.toNat) then none
      else some (top, mask ||| (1 <<< (top - val)))) ∨
    (top.toNat < val.toNat ∧ slide top mask val =
      some (val, if 64 ≤ val.toNat - top.toNat then 1 else (mask <<< (val - top)) ||| 1)) := by
  by_cases h : val ≤ top
  · refine Or.inl ⟨UInt64.le_iff_toNat_le.mp h, ?_⟩
    have hd : (top - val).toNat = top.toNat - val.toNat := UInt64.toNat_sub_of_le _ _ h
    unfold slide
    rw [if_pos h]
    simp only [ge_64_iff, hd]
    by_cases h64 : 64 ≤ top.toNat - val.toNat
    · rw [if_pos h64, if_pos h64]
    · rw [if_neg h64, if_neg h64]
      have hbit := and_bit_ne_zero (m := mask) (d := top - val) (by omega)
      rw [hd] at hbit
      simp only [hbit]
  · have hlt : top < val := UInt64.not_le.mp h
    refine Or.inr ⟨UInt64.lt_iff_toNat_lt.mp hlt, ?_⟩
    have hd : (val - top).toNat = val.toNat - top.toNat :=
      UInt64.toNat_sub_of_le _ _ (UInt64.le_of_lt hlt)
    unfold slide
    rw [if_neg h]
    simp only [ge_64_iff, hd]

variable {top mask val : UInt64}

/-- An accepted counter changes the window. -/
theorem slide_ne {w : UInt64 × UInt64} (hs : slide top mask val = some w) : w ≠ (top, mask) := by
  rcases slide_cases top mask val with ⟨hle, he⟩ | ⟨hlt, he⟩
  · rw [he] at hs
    split at hs
    · exact nomatch hs
    · next h64 =>
      split at hs
      · exact nomatch hs
      · next hbit =>
        cases hs
        intro heq
        have hd : (top - val).toNat = top.toNat - val.toNat :=
          UInt64.toNat_sub_of_le _ _ (UInt64.le_iff_toNat_le.mpr hle)
        apply hbit
        rw [← (Prod.mk.inj heq).2, bitAt_or, bitAt_bit (by omega), hd]
        simp
  · rw [he] at hs
    cases hs
    intro heq
    rw [(Prod.mk.inj heq).1] at hlt
    exact Nat.lt_irrefl _ hlt

theorem slide_eq_none_iff_refused : slide top mask val = none ↔ Refused top mask val := by
  unfold Refused
  rcases slide_cases top mask val with ⟨hle, hs⟩ | ⟨hlt, hs⟩
  · rw [hs, and_iff_right hle]
    split
    · next h64 => exact iff_of_true rfl (Or.inl h64)
    · next h64 =>
      rw [or_iff_right h64]
      split
      · next hbit => exact iff_of_true rfl hbit
      · next hbit => exact iff_of_false (fun he => nomatch he) hbit
  · rw [hs]
    exact iff_of_false (fun he => nomatch he) fun hr => absurd hr.1 (Nat.not_le.mpr hlt)

/-- A counter is refused exactly when it was accepted before or lies 64 or more
below the largest accepted one. -/
theorem slide_eq_none {seen : Set Nat} (h : Tracks top mask seen) :
    slide top mask val = none ↔ val.toNat ∈ seen ∨ val.toNat + 64 ≤ top.toNat := by
  rw [slide_eq_none_iff_refused]
  constructor
  · rintro ⟨hle, hr⟩
    by_cases h64 : 64 ≤ top.toNat - val.toNat
    · exact Or.inr (by omega)
    · have hbit := (h.bits _ (Nat.not_le.mp h64)).mp (hr.resolve_left h64)
      rw [Nat.sub_sub_self hle] at hbit
      exact Or.inl hbit.2
  · rintro (hv | hv)
    · have hle := h.le_top _ hv
      refine ⟨hle, or_iff_not_imp_left.mpr fun h64 => (h.bits _ (Nat.not_le.mp h64)).mpr ?_⟩
      rw [Nat.sub_sub_self hle]
      exact ⟨Nat.sub_le _ _, hv⟩
    · exact ⟨by omega, Or.inl (by omega)⟩

/-- An accepted counter joins the set, and `top` becomes the maximum. -/
theorem slide_tracks {top' mask' : UInt64} {seen : Set Nat} (h : Tracks top mask seen)
    (hs : slide top mask val = some (top', mask')) :
    Tracks top' mask' (insert val.toNat seen) ∧ top'.toNat = max top.toNat val.toNat := by
  rcases slide_cases top mask val with ⟨hle, he⟩ | ⟨hlt, he⟩
  · -- the counter is at or below `top`: one bit is set, `top` stays
    rw [he] at hs
    split at hs
    · exact nomatch hs
    · next h64 =>
      split at hs
      · exact nomatch hs
      · cases hs
        have hd : (top - val).toNat = top.toNat - val.toNat :=
          UInt64.toNat_sub_of_le _ _ (UInt64.le_iff_toNat_le.mpr hle)
        refine ⟨⟨?_, ?_, ?_⟩, by omega⟩
        · rintro v (rfl | hv)
          · exact hle
          · exact h.le_top v hv
        · exact h.top_seen.imp_right (Set.mem_insert_of_mem _)
        · intro i hi
          rw [bitAt_or, bitAt_bit (by omega), Bool.or_eq_true, h.bits i hi, decide_eq_true_eq, hd,
            Set.mem_insert_iff]
          constructor
          · rintro (⟨hit, hv⟩ | rfl)
            · exact ⟨hit, Or.inr hv⟩
            · exact ⟨by omega, Or.inl (by omega)⟩
          · rintro ⟨hit, hv | hv⟩
            · exact Or.inr (by omega)
            · exact Or.inl ⟨hit, hv⟩
  · -- the counter is above `top`: the mask moves up and its low bit is set
    rw [he] at hs
    cases hs
    have hd : (val - top).toNat = val.toNat - top.toNat :=
      UInt64.toNat_sub_of_le _ _ (UInt64.le_of_lt (UInt64.lt_iff_toNat_lt.mpr hlt))
    refine ⟨⟨?_, Or.inr (Set.mem_insert _ _), ?_⟩, by omega⟩
    · rintro v (rfl | hv)
      · exact Nat.le_refl _
      · exact Nat.le_of_lt (Nat.lt_of_le_of_lt (h.le_top v hv) hlt)
    · intro i hi
      rw [Set.mem_insert_iff]
      by_cases h0 : i = 0
      · subst h0
        refine iff_of_true ?_ ⟨Nat.zero_le _, Or.inl rfl⟩
        split
        · rw [bitAt_one]
          rfl
        · rw [bitAt_or, bitAt_one]
          simp
      · by_cases hmid : i < val.toNat - top.toNat
        · -- counters strictly between the old and the new top were never seen
          refine iff_of_false ?_ ?_
          · split
            · rw [bitAt_one]
              simpa using h0
            · rw [bitAt_or, bitAt_one, bitAt_shiftLeft (by omega), hd]
              simp [h0, hmid]
          · rintro ⟨_, hv | hv⟩
            · omega
            · exact absurd (h.le_top _ hv) (by omega)
        · rw [if_neg (by omega), bitAt_or, bitAt_one, bitAt_shiftLeft (by omega), hd]
          have hbit := h.bits (i - (val.toNat - top.toNat)) (by omega)
          simp only [hi, decide_true, hmid, decide_false, Bool.not_false, Bool.and_self,
            Bool.true_and, h0, Bool.or_false, hbit]
          rw [show top.toNat - (i - (val.toNat - top.toNat)) = val.toNat - i by omega]
          constructor
          · rintro ⟨hle, hv⟩
            exact ⟨by omega, Or.inr hv⟩
          · rintro ⟨hle, hv | hv⟩
            · omega
            · exact ⟨by omega, hv⟩

/-! ## Sequences of counters -/

namespace SlidingWindowLemmas

/-- The window after these answers. -/
structure Answered (answers : Answers) (window : UInt64 × UInt64) : Prop where
  rule : answers.FollowsRule
  tracks : Tracks window.1 window.2 {v | v ∈ answers.accepted}
  top : window.1.toNat = largest answers.accepted

theorem accepted_snoc (answers : Answers) (a : UInt64 × Bool) :
    Answers.accepted (answers ++ [a]) =
      if a.2 = true then answers.accepted ++ [a.1.toNat] else answers.accepted := by
  cases h : a.2 <;> simp [Answers.accepted, h]

theorem largest_snoc (l : List Nat) (n : Nat) : largest (l ++ [n]) = max (largest l) n := by
  induction l with
  | nil => simp [largest]
  | cons m l ih =>
    show max m (largest (l ++ [n])) = max (max m (largest l)) n
    rw [ih, Nat.max_assoc]

theorem followsRule_snoc {answers : Answers} {a : UInt64 × Bool} :
    Answers.FollowsRule (answers ++ [a]) ↔ answers.FollowsRule ∧
      (a.2 = true ↔ a.1.toNat ∉ answers.accepted ∧ largest answers.accepted < a.1.toNat + 64) := by
  unfold Answers.FollowsRule
  rw [forall_split_snoc, and_comm]

/-- The rule is what the window answers, and the window keeps up with it. -/
theorem answered_offer {answers : Answers} {window : UInt64 × UInt64} (h : Answered answers window)
    (val : UInt64) :
    Answered (answers ++ [(val, (offer window val).1)]) (offer window val).2 := by
  have hrefuses := @slide_eq_none _ _ val _ h.tracks
  unfold offer
  cases hs : slide window.1 window.2 val with
  | none =>
    have hno := hrefuses.mp hs
    rw [h.top] at hno
    refine ⟨followsRule_snoc.mpr ⟨h.rule, iff_of_false Bool.false_ne_true ?_⟩, ?_, ?_⟩
    · rintro ⟨hnew, hlow⟩
      exact hno.elim hnew (Nat.not_le.mpr hlow)
    · simpa [accepted_snoc] using h.tracks
    · simpa [accepted_snoc] using h.top
  | some window' =>
    have hyes : ¬ (val.toNat ∈ answers.accepted ∨ val.toNat + 64 ≤ window.1.toNat) :=
      fun hor => nomatch (hrefuses.mpr hor).symm.trans hs
    rw [h.top, not_or, Nat.not_le] at hyes
    obtain ⟨htracks, htop⟩ := slide_tracks h.tracks hs
    refine ⟨followsRule_snoc.mpr ⟨h.rule, iff_of_true rfl hyes⟩, ?_, ?_⟩
    · have hset : {v | v ∈ answers.accepted ++ [val.toNat]} =
          insert val.toNat {v | v ∈ answers.accepted} := by
        ext v
        simp [or_comm]
      rw [accepted_snoc, if_pos rfl, hset]
      exact htracks
    · simpa [accepted_snoc, largest_snoc, h.top] using htop

end SlidingWindowLemmas

/-- The answers of a new window to any sequence of counters follow the rule. -/
theorem offer_followsRule (values : List UInt64) :
    Answers.FollowsRule ((run offer (0, 0) values).map fun e => (e.input, e.out)) := by
  have h := @run_induction _ _ _ offer
    (fun entries window => Answered (entries.map fun e => (e.input, e.out)) window) (0, 0)
    ⟨fun before a after he => absurd he (by simp), by simpa [Answers.accepted] using tracks_empty, rfl⟩
    (fun entries window val ih => by
      rw [List.map_append]
      exact answered_offer ih val)
    values
  exact h.rule

end Blackwing

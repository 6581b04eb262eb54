import Blackwing.Lib.Absorb
import Blackwing.Lib.Call
import Mathlib.Data.List.Forall2
import Mathlib.Order.Interval.Basic
import Mathlib.Order.Lattice.Nat

/-!
# Dirty rectangles

`merge_dirty_rects` (`bw-capture/src/frame.rs`) goes once over the rectangles. Each is united with
the first one in the result that it overlaps, or appended. No damage is lost or invented: the
result is one bounding box for each group of a partition of the input. But a union may reach a
rectangle that neither of its parts overlaps, and this one stays as it is.

* `DirtyRect.box`: a rectangle as an interval of points, ordered by inclusion.
* `mergeDirtyRects_spec`: the merge is the greedy absorption of the boxes.
* `merge_keeps_damage`: the partition.
* `merged_apart_iff`: the result has no overlaps exactly if the input falls into groups whose
  bounding boxes do not overlap.
-/

namespace Blackwing.Capture

/-! ## The merge -/

/-- `DirtyRect`. -/
structure DirtyRect where
  x : UInt32
  y : UInt32
  width : UInt32
  height : UInt32
deriving DecidableEq

namespace DirtyRect

/-- The sum `x + width`. -/
def right (r : DirtyRect) : Outcome Empty UInt32 := .add32 r.x r.width

/-- The sum `y + height`. -/
def bottom (r : DirtyRect) : Outcome Empty UInt32 := .add32 r.y r.height

/-- `DirtyRect::contains`. -/
def contains (r other : DirtyRect) : Outcome Empty Bool :=
  .and (pure (other.x ≥ r.x)) (.and (pure (other.y ≥ r.y))
    (.and (do return (← other.right) ≤ (← r.right)) (do return (← other.bottom) ≤ (← r.bottom))))

/-- `DirtyRect::union`. -/
def union (r other : DirtyRect) : Outcome Empty DirtyRect := do
  let x := min r.x other.x
  let y := min r.y other.y
  let right := max (← r.right) (← other.right)
  let bottom := max (← r.bottom) (← other.bottom)
  return ⟨x, y, ← .sub32 right x, ← .sub32 bottom y⟩

end DirtyRect

/-- `rects_overlap`. -/
def rectsOverlap (a b : DirtyRect) : Outcome Empty Bool :=
  .and (do return a.x < (← b.right)) (.and (do return (← a.right) > b.x)
    (.and (do return a.y < (← b.bottom)) (do return (← a.bottom) > b.y)))

/-- The inner loop of `merge_dirty_rects`: the result with `rect` absorbed, if it overlaps a
rectangle there. -/
def absorb (rect : DirtyRect) : List DirtyRect → Outcome Empty (Option (List DirtyRect))
  | [] => pure none
  | existing :: rest => do
    if ← rectsOverlap existing rect then
      return some ((← existing.union rect) :: rest)
    else
      return (← absorb rect rest).map (existing :: ·)

/-- A pass of the outer loop. -/
def mergePass (merged : List DirtyRect) (rect : DirtyRect) : Outcome Empty (List DirtyRect) := do
  match ← absorb rect merged with
  | some absorbed => return absorbed
  | none => return merged ++ [rect]

/-- `merge_dirty_rects`. -/
def mergeDirtyRects (rects : List DirtyRect) : Outcome Empty (List DirtyRect) :=
  if rects.isEmpty then pure [] else rects.foldlM mergePass []

/-! ## Boxes -/

/-- The points of a rectangle with its edges, from the top left to the bottom right one. -/
def DirtyRect.box (r : DirtyRect) : NonemptyInterval (ℕ × ℕ) :=
  ⟨((r.x.toNat, r.y.toNat), (r.x.toNat + r.width.toNat, r.y.toNat + r.height.toNat)),
    ⟨Nat.le_add_right _ _, Nat.le_add_right _ _⟩⟩

/-- The right and the bottom edge fit in a `u32`. -/
structure DirtyRect.Fits (r : DirtyRect) : Prop where
  right : r.x.toNat + r.width.toNat < 2 ^ 32
  bottom : r.y.toNat + r.height.toNat < 2 ^ 32

instance (r : DirtyRect) : Decidable r.Fits :=
  decidable_of_iff (r.x.toNat + r.width.toNat < 2 ^ 32 ∧ r.y.toNat + r.height.toNat < 2 ^ 32)
    ⟨fun h => ⟨h.1, h.2⟩, fun h => ⟨h.right, h.bottom⟩⟩

/-- The boxes have inner points in common. -/
def Overlaps (a b : NonemptyInterval (ℕ × ℕ)) : Prop :=
  a.fst.1 < b.snd.1 ∧ b.fst.1 < a.snd.1 ∧ a.fst.2 < b.snd.2 ∧ b.fst.2 < a.snd.2

instance : DecidableRel Overlaps := fun _ _ => inferInstanceAs (Decidable (_ ∧ _))

theorem Overlaps.symm {a b : NonemptyInterval (ℕ × ℕ)} (h : Overlaps a b) : Overlaps b a := by
  obtain ⟨hleft, hright, htop, hbottom⟩ := h
  exact ⟨hright, hleft, hbottom, htop⟩

theorem Overlaps.grow {a b c : NonemptyInterval (ℕ × ℕ)} (hle : a ≤ b) (h : Overlaps a c) :
    Overlaps b c := by
  obtain ⟨⟨hleft, htop⟩, hright, hbottom⟩ := NonemptyInterval.le_def.mp hle
  obtain ⟨haleft, haright, hatop, habottom⟩ := h
  exact ⟨Nat.lt_of_le_of_lt hleft haleft, Nat.lt_of_lt_of_le haright hright,
    Nat.lt_of_le_of_lt htop hatop, Nat.lt_of_lt_of_le habottom hbottom⟩

namespace DirtyRectLemmas

variable {a b r rect : DirtyRect}

/-- The right and the bottom edge are those of the box. -/
theorem edges_eq (h : r.Fits) :
    ∃ right bottom, r.right = .ok right ∧ r.bottom = .ok bottom ∧
      right.toNat = r.box.snd.1 ∧ bottom.toNat = r.box.snd.2 := by
  obtain ⟨hright, hright'⟩ := Outcome.add32_of_lt h.right
  obtain ⟨hbottom, hbottom'⟩ := Outcome.add32_of_lt h.bottom
  exact ⟨_, _, hright, hbottom, hright', hbottom'⟩

theorem rectsOverlap_eq (ha : a.Fits) (hb : b.Fits) :
    rectsOverlap a b = .ok (decide (Overlaps a.box b.box)) := by
  obtain ⟨aRight, aBottom, haRight, haBottom, haRight', haBottom'⟩ := edges_eq ha
  obtain ⟨bRight, bBottom, hbRight, hbBottom, hbRight', hbBottom'⟩ := edges_eq hb
  simp only [rectsOverlap, haRight, hbRight, haBottom, hbBottom, Outcome.ok_bind, Outcome.pure_eq,
    Outcome.ok_and_ok, gt_iff_lt, UInt32.lt_iff_toNat_lt, haRight', hbRight', haBottom', hbBottom']
  rw [Outcome.ok.injEq, Bool.eq_iff_iff]
  simp only [Bool.and_eq_true, decide_eq_true_eq]
  rfl

theorem contains_eq_ok_true (ha : a.Fits) (hb : b.Fits) :
    a.contains b = .ok true ↔ b.box ≤ a.box := by
  obtain ⟨aRight, aBottom, haRight, haBottom, haRight', haBottom'⟩ := edges_eq ha
  obtain ⟨bRight, bBottom, hbRight, hbBottom, hbRight', hbBottom'⟩ := edges_eq hb
  simp only [DirtyRect.contains, haRight, hbRight, haBottom, hbBottom, Outcome.ok_bind,
    Outcome.pure_eq, Outcome.ok_and_ok, ge_iff_le, UInt32.le_iff_toNat_le, haRight', hbRight',
    haBottom', hbBottom', Outcome.ok.injEq, Bool.and_eq_true, decide_eq_true_eq]
  rw [NonemptyInterval.le_def]
  constructor
  · rintro ⟨hx, hy, hright, hbottom⟩
    exact ⟨⟨hx, hy⟩, hright, hbottom⟩
  · rintro ⟨⟨hx, hy⟩, hright, hbottom⟩
    exact ⟨hx, hy, hright, hbottom⟩

theorem union_spec (ha : a.Fits) (hb : b.Fits) :
    ∃ r, a.union b = .ok r ∧ r.box = a.box ⊔ b.box ∧ r.Fits := by
  obtain ⟨aRight, aBottom, haRight, haBottom, haRight', haBottom'⟩ := edges_eq ha
  obtain ⟨bRight, bBottom, hbRight, hbBottom, hbRight', hbBottom'⟩ := edges_eq hb
  have hx : (min a.x b.x).toNat ≤ (max aRight bRight).toNat := by
    rw [UInt32.toNat_min, UInt32.toNat_max, haRight']
    exact Nat.le_trans (Nat.min_le_left _ _) (Nat.le_trans a.box.fst_le_snd.1 (Nat.le_max_left _ _))
  have hy : (min a.y b.y).toNat ≤ (max aBottom bBottom).toNat := by
    rw [UInt32.toNat_min, UInt32.toNat_max, haBottom']
    exact Nat.le_trans (Nat.min_le_left _ _) (Nat.le_trans a.box.fst_le_snd.2 (Nat.le_max_left _ _))
  obtain ⟨width, hwidth, hspanX⟩ := Outcome.sub32_of_le (ε := Empty) hx
  obtain ⟨height, hheight, hspanY⟩ := Outcome.sub32_of_le (ε := Empty) hy
  refine ⟨⟨min a.x b.x, min a.y b.y, width, height⟩, ?_, ?_, ?_⟩
  · simp only [DirtyRect.union, haRight, hbRight, haBottom, hbBottom, Outcome.ok_bind, hwidth,
      hheight]
    rfl
  · refine NonemptyInterval.ext (Prod.ext (Prod.ext ?_ ?_) (Prod.ext ?_ ?_))
    · exact UInt32.toNat_min _ _
    · exact UInt32.toNat_min _ _
    · exact hspanX.trans ((UInt32.toNat_max _ _).trans (by rw [haRight', hbRight']; rfl))
    · exact hspanY.trans ((UInt32.toNat_max _ _).trans (by rw [haBottom', hbBottom']; rfl))
  · exact ⟨hspanX ▸ UInt32.toNat_lt _, hspanY ▸ UInt32.toNat_lt _⟩

variable {merged : List DirtyRect}

/-- What a pass makes of the result of the inner loop. -/
theorem mergePass_eq {o : Option (List DirtyRect)} (h : absorb rect merged = .ok o) :
    mergePass merged rect = .ok (o.getD (merged ++ [rect])) := by
  rw [mergePass, h, Outcome.ok_bind]
  cases o <;> rfl

theorem mergePass_spec (hmerged : ∀ r ∈ merged, r.Fits) (hrect : rect.Fits) :
    ∃ out, mergePass merged rect = .ok out ∧ (∀ r ∈ out, r.Fits) ∧
      out.map DirtyRect.box = Absorb.place Overlaps rect.box (merged.map DirtyRect.box) := by
  suffices h : ∃ o, absorb rect merged = .ok o ∧ (∀ r ∈ o.getD (merged ++ [rect]), r.Fits) ∧
      (o.getD (merged ++ [rect])).map DirtyRect.box =
        Absorb.place Overlaps rect.box (merged.map DirtyRect.box) by
    obtain ⟨o, ho, hfits, hboxes⟩ := h
    exact ⟨_, mergePass_eq ho, hfits, hboxes⟩
  induction merged with
  | nil => exact ⟨none, rfl, fun r hr => List.mem_singleton.mp hr ▸ hrect, rfl⟩
  | cons existing rest ih =>
    obtain ⟨hexisting, hrest⟩ := List.forall_mem_cons.mp hmerged
    rw [absorb, rectsOverlap_eq hexisting hrect, Outcome.ok_bind, List.map_cons, Absorb.place]
    by_cases hover : Overlaps existing.box rect.box
    · obtain ⟨u, hu, hbox, hfits⟩ := union_spec hexisting hrect
      refine ⟨some (u :: rest), ?_, List.forall_mem_cons.mpr ⟨hfits, hrest⟩, ?_⟩
      · simp only [hover, decide_true, if_true, hu, Outcome.ok_bind, Outcome.pure_eq]
      · rw [if_pos hover, ← hbox]
        rfl
    · obtain ⟨o, ho, hfits, hboxes⟩ := ih hrest
      have hgetD : (o.map (existing :: ·)).getD (existing :: rest ++ [rect]) =
          existing :: o.getD (rest ++ [rect]) := by
        cases o <;> rfl
      refine ⟨o.map (existing :: ·), ?_, ?_, ?_⟩
      · simp only [hover, decide_false, Bool.false_eq_true, if_false, ho, Outcome.ok_bind,
          Outcome.pure_eq]
      · rw [hgetD]
        exact List.forall_mem_cons.mpr ⟨hexisting, hfits⟩
      · rw [hgetD, List.map_cons, hboxes, if_neg hover]

theorem foldlM_mergePass {rects : List DirtyRect} (hmerged : ∀ r ∈ merged, r.Fits)
    (hrects : ∀ r ∈ rects, r.Fits) :
    ∃ out, rects.foldlM mergePass merged = .ok out ∧ (∀ r ∈ out, r.Fits) ∧
      out.map DirtyRect.box = (rects.map DirtyRect.box).foldl
        (fun placed x => Absorb.place Overlaps x placed) (merged.map DirtyRect.box) := by
  induction rects generalizing merged with
  | nil => exact ⟨merged, rfl, hmerged, rfl⟩
  | cons rect rects ih =>
    obtain ⟨hrect, hrects⟩ := List.forall_mem_cons.mp hrects
    obtain ⟨next, hnext, hnextFits, hplaced⟩ := mergePass_spec hmerged hrect
    obtain ⟨out, hout, houtFits, hboxes⟩ := ih hnextFits hrects
    refine ⟨out, ?_, houtFits, ?_⟩
    · rw [List.foldlM_cons, hnext, Outcome.ok_bind, hout]
    · rw [hboxes, hplaced]
      rfl

/-- The merge is the greedy absorption of the boxes, and does not overflow. -/
theorem mergeDirtyRects_spec {rects : List DirtyRect} (hfits : ∀ r ∈ rects, r.Fits) :
    ∃ out, mergeDirtyRects rects = .ok out ∧ (∀ r ∈ out, r.Fits) ∧
      out.map DirtyRect.box = Absorb.merge Overlaps (rects.map DirtyRect.box) := by
  have hpasses : mergeDirtyRects rects = rects.foldlM mergePass [] := by
    cases rects <;> rfl
  rw [hpasses]
  exact foldlM_mergePass (fun r hr => absurd hr List.not_mem_nil) hfits

end DirtyRectLemmas

open DirtyRectLemmas

open Absorb (groupOf)

/-! ## The partition -/

/-- The smallest rectangle that contains the rectangles of a group. -/
structure BoundingBox (group : List DirtyRect) (bound : DirtyRect) : Prop where
  contains : ∀ r ∈ group, bound.contains r = .ok true
  smallest : ∀ q : DirtyRect, q.Fits → (∀ r ∈ group, q.contains r = .ok true) →
    q.contains bound = .ok true

namespace DirtyRectLemmas

theorem boundingBox_of_joinOf {group : List DirtyRect} {bound : DirtyRect}
    (hgroup : ∀ r ∈ group, r.Fits) (hbound : bound.Fits)
    (h : Absorb.JoinOf DirtyRect.box group bound.box) : BoundingBox group bound := by
  refine ⟨fun r hr => ?_, fun q hq hall => ?_⟩
  · exact (contains_eq_ok_true hbound (hgroup r hr)).mpr (h.2.1 ⟨r, hr, rfl⟩)
  · refine (contains_eq_ok_true hq hbound).mpr (h.2.2 ?_)
    rintro b ⟨r, hr, rfl⟩
    exact (contains_eq_ok_true hq (hgroup r hr)).mp (hall r hr)

end DirtyRectLemmas

/-- The merge neither loses nor invents damage: every rectangle is contained in one of the result,
and the result consists of the bounding boxes of the non-empty groups of a partition. -/
theorem merge_keeps_damage (rects : List DirtyRect) (hfits : ∀ r ∈ rects, r.Fits) :
    ∃ out, mergeDirtyRects rects = .ok out ∧
      (∀ r ∈ rects, ∃ bound ∈ out, bound.contains r = .ok true) ∧
      ∃ groups : List (List DirtyRect), groups.flatten.Perm rects ∧
        List.Forall₂ (fun group bound => group ≠ [] ∧ BoundingBox group bound) groups out := by
  obtain ⟨out, hout, houtFits, hboxes⟩ := mergeDirtyRects_spec hfits
  obtain ⟨groups, hperm, hjoins⟩ := Absorb.exists_groups Overlaps DirtyRect.box rects
  rw [← hboxes, List.forall₂_map_right_iff] at hjoins
  have hgroupFits : ∀ group ∈ groups, ∀ r ∈ group, r.Fits := fun group hgroup r hr =>
    hfits r (hperm.subset (List.mem_flatten_of_mem hgroup hr))
  have hgroups :
      List.Forall₂ (fun group bound => group ≠ [] ∧ BoundingBox group bound) groups out := by
    rw [List.forall₂_iff_zip] at hjoins ⊢
    refine ⟨hjoins.1, fun hmem => ?_⟩
    obtain ⟨hgroup, hbound⟩ := List.of_mem_zip hmem
    have hjoin := hjoins.2 hmem
    exact ⟨hjoin.1, boundingBox_of_joinOf (hgroupFits _ hgroup) (houtFits _ hbound) hjoin⟩
  refine ⟨out, hout, fun r hr => ?_, groups, hperm, hgroups⟩
  obtain ⟨group, hgroup, hr⟩ := List.mem_flatten.mp (hperm.mem_iff.mpr hr)
  obtain ⟨bound, hbound, -, hbox⟩ := exists_mem_of_forall₂ hgroups group hgroup
  exact ⟨bound, hbound, hbox.contains r hr⟩

/-- Two rectangles that touch at a corner, and one over both. -/
theorem merge_keeps_damage_three :
    (∀ r ∈ [⟨0, 0, 4, 4⟩, ⟨4, 4, 4, 4⟩, ⟨2, 2, 4, 4⟩], DirtyRect.Fits r) ∧
      ∃ out, mergeDirtyRects [⟨0, 0, 4, 4⟩, ⟨4, 4, 4, 4⟩, ⟨2, 2, 4, 4⟩] = .ok out ∧
        (∀ r ∈ [⟨0, 0, 4, 4⟩, ⟨4, 4, 4, 4⟩, ⟨2, 2, 4, 4⟩],
          ∃ bound ∈ out, bound.contains r = .ok true) ∧
        ∃ groups : List (List DirtyRect),
          groups.flatten.Perm [⟨0, 0, 4, 4⟩, ⟨4, 4, 4, 4⟩, ⟨2, 2, 4, 4⟩] ∧
          List.Forall₂ (fun group bound => group ≠ [] ∧ BoundingBox group bound) groups out :=
  ⟨by decide, merge_keeps_damage _ (by decide)⟩

/-! ## Overlaps of the result -/

/-- No two rectangles at distinct positions overlap. -/
def NonOverlapping (rects : List DirtyRect) : Prop :=
  ∀ (i j : Nat) (a b : DirtyRect), rects[i]? = some a → rects[j]? = some b → i ≠ j →
    rectsOverlap a b = .ok false

/-- `bound` is the bounding box of a group that is not empty. -/
structure Bounds (group : List DirtyRect) (bound : DirtyRect) : Prop
    extends BoundingBox group bound where
  nonempty : group ≠ []
  fits : bound.Fits

/-- The rectangles are labelled by groups: each one but the first of its group overlaps the bounding
box of those before it in the group, and the bounding boxes of two groups do not overlap. -/
structure Separable (labelled : List (ℕ × DirtyRect)) : Prop where
  linked : ∀ i before rect after bound, groupOf labelled i = before ++ rect :: after →
    Bounds before bound → rectsOverlap bound rect = .ok true
  apart : ∀ i j bound bound', i ≠ j → Bounds (groupOf labelled i) bound →
    Bounds (groupOf labelled j) bound' → rectsOverlap bound bound' = .ok false

namespace DirtyRectLemmas

variable {a b bound : DirtyRect} {merged group : List DirtyRect} {labelled : List (ℕ × DirtyRect)}

theorem overlap_true_iff (ha : a.Fits) (hb : b.Fits) :
    rectsOverlap a b = .ok true ↔ Overlaps a.box b.box := by
  rw [rectsOverlap_eq ha hb, Outcome.ok.injEq, decide_eq_true_eq]

theorem overlap_false_iff (ha : a.Fits) (hb : b.Fits) :
    rectsOverlap a b = .ok false ↔ ¬ Overlaps a.box b.box := by
  rw [rectsOverlap_eq ha hb, Outcome.ok.injEq, decide_eq_false_iff_not]

theorem nonOverlapping_iff (hfits : ∀ r ∈ merged, r.Fits) :
    NonOverlapping merged ↔ Absorb.Apart Overlaps (merged.map DirtyRect.box) := by
  rw [Absorb.Apart, List.pairwise_map, List.pairwise_iff_getElem]
  constructor
  · intro h i j hi hj hlt
    refine (overlap_false_iff (hfits _ (List.getElem_mem hi)) (hfits _ (List.getElem_mem hj))).mp ?_
    exact h i j _ _ (List.getElem?_eq_getElem hi) (List.getElem?_eq_getElem hj) (Nat.ne_of_lt hlt)
  · intro h i j a b ha hb hne
    obtain ⟨hi, rfl⟩ := List.getElem?_eq_some_iff.mp ha
    obtain ⟨hj, rfl⟩ := List.getElem?_eq_some_iff.mp hb
    refine (overlap_false_iff (hfits _ (List.getElem_mem hi)) (hfits _ (List.getElem_mem hj))).mpr ?_
    rcases Nat.lt_or_gt_of_ne hne with hlt | hgt
    · exact h i j hi hj hlt
    · exact fun hover => h j i hj hi hgt hover.symm

theorem exists_joinOf (hgroup : ∀ r ∈ group, r.Fits) (hne : group ≠ []) :
    ∃ bound : DirtyRect, bound.Fits ∧ Absorb.JoinOf DirtyRect.box group bound.box := by
  induction group using List.reverseRecOn with
  | nil => exact absurd rfl hne
  | append_singleton group rect ih =>
    obtain ⟨hgroup, hrect⟩ := List.forall_mem_append.mp hgroup
    rw [List.forall_mem_singleton] at hrect
    rcases eq_or_ne group [] with rfl | hne
    · exact ⟨rect, hrect, Absorb.joinOf_singleton _ _⟩
    · obtain ⟨bound, hbound, hjoin⟩ := ih hgroup hne
      obtain ⟨union, -, hbox, hunion⟩ := union_spec hbound hrect
      exact ⟨union, hunion, hbox ▸ hjoin.snoc rect⟩

theorem bounds_iff (hgroup : ∀ r ∈ group, r.Fits) :
    Bounds group bound ↔ bound.Fits ∧ Absorb.JoinOf DirtyRect.box group bound.box := by
  constructor
  · rintro ⟨⟨hcontains, hsmallest⟩, hne, hbound⟩
    refine ⟨hbound, hne, ?_, fun y hy => ?_⟩
    · rintro _ ⟨r, hr, rfl⟩
      exact (contains_eq_ok_true hbound (hgroup r hr)).mp (hcontains r hr)
    · -- any upper bound is above the join, which is a rectangle's box
      obtain ⟨q, hq, hjoin⟩ := exists_joinOf hgroup hne
      have hq' := hsmallest q hq fun r hr =>
        (contains_eq_ok_true hq (hgroup r hr)).mpr (hjoin.le hr)
      exact ((contains_eq_ok_true hq hbound).mp hq').trans (hjoin.2.2 hy)
  · rintro ⟨hbound, hjoin⟩
    exact ⟨boundingBox_of_joinOf hgroup hbound hjoin, hjoin.1, hbound⟩

theorem separable_iff (hfits : ∀ i, ∀ r ∈ groupOf labelled i, r.Fits) :
    Separable labelled ↔ Absorb.Separated Overlaps DirtyRect.box labelled := by
  have hbounds {group : List DirtyRect} (hgroup : ∀ r ∈ group, r.Fits) {y}
      (hy : Absorb.JoinOf DirtyRect.box group y) : ∃ bound, Bounds group bound ∧ bound.box = y := by
    obtain ⟨bound, hbound, hjoin⟩ := exists_joinOf hgroup hy.1
    exact ⟨bound, (bounds_iff hgroup).mpr ⟨hbound, hjoin⟩, hjoin.2.unique hy.2⟩
  constructor
  · rintro ⟨hlinked, hapart⟩
    refine ⟨fun i before rect after hsplit y hy => ?_, fun i j y z hne hy hz => ?_⟩
    · have hgroup := hfits i
      rw [hsplit, List.forall_mem_append, List.forall_mem_cons] at hgroup
      obtain ⟨bound, hbound, rfl⟩ := hbounds hgroup.1 hy
      exact (overlap_true_iff hbound.fits hgroup.2.1).mp (hlinked i _ _ _ _ hsplit hbound)
    · obtain ⟨bound, hbound, rfl⟩ := hbounds (hfits i) hy
      obtain ⟨bound', hbound', rfl⟩ := hbounds (hfits j) hz
      exact (overlap_false_iff hbound.fits hbound'.fits).mp (hapart i j _ _ hne hbound hbound')
  · rintro ⟨hlinked, hapart⟩
    refine ⟨fun i before rect after bound hsplit hbound => ?_, fun i j b b' hne hb hb' => ?_⟩
    · have hgroup := hfits i
      rw [hsplit, List.forall_mem_append, List.forall_mem_cons] at hgroup
      refine (overlap_true_iff hbound.fits hgroup.2.1).mpr ?_
      exact hlinked i _ _ _ hsplit _ ((bounds_iff hgroup.1).mp hbound).2
    · refine (overlap_false_iff hb.fits hb'.fits).mpr ?_
      exact hapart i j _ _ hne ((bounds_iff (hfits i)).mp hb).2 ((bounds_iff (hfits j)).mp hb').2

end DirtyRectLemmas

/-- The result has no overlaps exactly if the rectangles fall into groups whose bounding boxes do
not overlap, and in which each one but the first overlaps the bounding box of those before it. -/
theorem merged_apart_iff (rects : List DirtyRect) (hfits : ∀ r ∈ rects, r.Fits) :
    (∃ out, mergeDirtyRects rects = .ok out ∧ NonOverlapping out) ↔
      ∃ labelled : List (ℕ × DirtyRect), labelled.map Prod.snd = rects ∧ Separable labelled := by
  obtain ⟨out, hout, houtFits, hboxes⟩ := mergeDirtyRects_spec hfits
  have hresult : (∃ out, mergeDirtyRects rects = .ok out ∧ NonOverlapping out) ↔
      Absorb.Apart Overlaps (Absorb.merge Overlaps (rects.map DirtyRect.box)) := by
    rw [← hboxes, ← nonOverlapping_iff houtFits]
    constructor
    · rintro ⟨out', hout', h⟩
      obtain rfl : out = out' := Outcome.ok.inj (hout.symm.trans hout')
      exact h
    · exact fun h => ⟨out, hout, h⟩
  rw [hresult, Absorb.apart_merge_iff Overlaps.symm Overlaps.grow]
  refine exists_congr fun labelled => and_congr_right fun hlabels => ?_
  refine (separable_iff fun i r hr => ?_).symm
  obtain ⟨p, hp, rfl⟩ := List.mem_map.mp hr
  exact hfits _ (hlabels ▸ List.mem_map_of_mem (List.mem_of_mem_filter hp))

/-- Two rectangles that overlap, and one apart from both that comes between them. -/
theorem merged_apart_iff_three :
    (∀ r ∈ [⟨0, 0, 4, 4⟩, ⟨8, 8, 4, 4⟩, ⟨2, 2, 4, 4⟩], DirtyRect.Fits r) ∧
      ∃ out, mergeDirtyRects [⟨0, 0, 4, 4⟩, ⟨8, 8, 4, 4⟩, ⟨2, 2, 4, 4⟩] = .ok out ∧
        NonOverlapping out := by
  refine ⟨by decide, (merged_apart_iff _ (by decide)).mpr
    ⟨[(0, ⟨0, 0, 4, 4⟩), (1, ⟨8, 8, 4, 4⟩), (0, ⟨2, 2, 4, 4⟩)], rfl, ?_⟩⟩
  have hpair : Absorb.JoinOf DirtyRect.box [⟨0, 0, 4, 4⟩, ⟨2, 2, 4, 4⟩] _ :=
    (Absorb.joinOf_singleton _ _).snoc _
  have hone : Absorb.JoinOf DirtyRect.box [⟨8, 8, 4, 4⟩] _ := Absorb.joinOf_singleton _ _
  have hfar : ¬ Overlaps (DirtyRect.box ⟨0, 0, 4, 4⟩ ⊔ DirtyRect.box ⟨2, 2, 4, 4⟩)
    (DirtyRect.box ⟨8, 8, 4, 4⟩) := by decide
  rw [separable_iff fun
    | 0 => by decide
    | 1 => by decide
    | _ + 2 => fun r hr => absurd hr List.not_mem_nil]
  refine ⟨?_, ?_⟩
  · rintro (_ | _ | i) before rect after hsplit y hy
    · change [_, _] = _ at hsplit
      rcases before with _ | ⟨b, _ | ⟨c, before⟩⟩
      · exact absurd rfl hy.1
      · cases hsplit
        rw [hy.2.unique (Absorb.joinOf_singleton _ _).2]
        decide
      · simp at hsplit
    · change [_] = _ at hsplit
      rcases before with _ | ⟨b, before⟩
      · exact absurd rfl hy.1
      · simp at hsplit
    · change [] = _ at hsplit
      simp at hsplit
  · rintro (_ | _ | i) (_ | _ | j) y z hne hy hz
    · exact absurd rfl hne
    · rw [hy.2.unique hpair.2, hz.2.unique hone.2]
      exact hfar
    · exact absurd rfl hz.1
    · rw [hy.2.unique hone.2, hz.2.unique hpair.2]
      exact fun h => hfar h.symm
    · exact absurd rfl hne
    · exact absurd rfl hz.1
    · exact absurd rfl hy.1
    · exact absurd rfl hy.1
    · exact absurd rfl hy.1

/-- A wide rectangle and a tall one are united, and the union covers one that neither of them
overlaps. -/
theorem union_overlaps_placed :
    (∀ r ∈ [⟨0, 0, 10, 2⟩, ⟨8, 4, 2, 2⟩, ⟨0, 1, 2, 6⟩], DirtyRect.Fits r) ∧
      mergeDirtyRects [⟨0, 0, 10, 2⟩, ⟨8, 4, 2, 2⟩, ⟨0, 1, 2, 6⟩] =
        .ok [⟨0, 0, 10, 7⟩, ⟨8, 4, 2, 2⟩] ∧
      rectsOverlap ⟨0, 0, 10, 7⟩ ⟨8, 4, 2, 2⟩ = .ok true := by
  decide

end Blackwing.Capture

import Blackwing.Lib.Run
import Mathlib.Data.Fintype.EquivFin
import Mathlib.Order.Bounds.Lattice

/-!
# Greedy absorption in a join-semilattice

Elements arrive one after another. Each is joined to the first placed element that is near it, or
placed at the end. The placed elements are the joins of a partition of those that arrived. They
need not be far from each other: a join may come near an element that its parts were not near.

* `place`, `merge`: one arrival, and all of them.
* `exists_groups`: the partition.
* `Separated`: a labelling of what arrived by groups whose joins are apart, and in which each
  element is near the join of those before it in its group.
* `apart_merge_iff`: the result is pairwise apart exactly if there is such a labelling.
-/

namespace Blackwing.Absorb

/-! ## Placing -/

variable {α β : Type} [SemilatticeSup α] (near : α → α → Prop) [DecidableRel near]

/-- `x` is joined to the first element that is near it, or placed at the end. -/
def place (x : α) : List α → List α
  | [] => [x]
  | y :: ys => if near y x then (y ⊔ x) :: ys else y :: place x ys

/-- The elements placed one after another. -/
def merge (xs : List α) : List α := xs.foldl (fun placed x => place near x placed) []

theorem merge_snoc (xs : List α) (x : α) :
    merge near (xs ++ [x]) = place near x (merge near xs) := by
  rw [merge, List.foldl_append]
  rfl

/-! ## The partition -/

/-- `y` is the join of the elements of a group. -/
def JoinOf (f : β → α) (group : List β) (y : α) : Prop :=
  group ≠ [] ∧ IsLUB {a | ∃ b ∈ group, f b = a} y

theorem joinOf_singleton (f : β → α) (b : β) : JoinOf f [b] (f b) := by
  refine ⟨List.cons_ne_nil _ _, ?_⟩
  have hset : {a | ∃ c ∈ [b], f c = a} = {f b} := by
    ext a
    simp [eq_comm]
  rw [hset]
  exact isLUB_singleton

variable {f : β → α} {group : List β}

theorem JoinOf.snoc {y : α} (h : JoinOf f group y) (b : β) : JoinOf f (group ++ [b]) (y ⊔ f b) := by
  refine ⟨List.append_ne_nil_of_left_ne_nil h.1 _, ?_⟩
  have hset : {a | ∃ c ∈ group ++ [b], f c = a} =
      {a | ∃ c ∈ group, f c = a} ∪ {a | ∃ c ∈ [b], f c = a} := by
    ext a
    simp only [List.mem_append, or_and_right, exists_or, Set.mem_ofPred_eq, Set.mem_union]
  rw [hset]
  exact h.2.union (joinOf_singleton f b).2

variable {near}

variable (near) in
theorem place_groups {groups : List (List β)} {placed : List α}
    (h : List.Forall₂ (JoinOf f) groups placed) (b : β) :
    ∃ groups' : List (List β), groups'.flatten.Perm (groups.flatten ++ [b]) ∧
      List.Forall₂ (JoinOf f) groups' (place near (f b) placed) := by
  induction h with
  | nil => exact ⟨[[b]], List.Perm.refl _, .cons (joinOf_singleton f b) .nil⟩
  | @cons group y groups placed hy hrest ih =>
    rw [place]
    split_ifs
    · refine ⟨(group ++ [b]) :: groups, ?_, .cons (hy.snoc b) hrest⟩
      simp only [List.flatten_cons, List.append_assoc]
      exact List.perm_append_comm.append_left group
    · obtain ⟨groups', hperm, hgroups'⟩ := ih
      refine ⟨group :: groups', ?_, .cons hy hgroups'⟩
      simp only [List.flatten_cons, List.append_assoc]
      exact hperm.append_left group

variable (near) in
/-- The result consists of the joins of a partition of what arrived. -/
theorem exists_groups (f : β → α) (xs : List β) :
    ∃ groups : List (List β), groups.flatten.Perm xs ∧
      List.Forall₂ (JoinOf f) groups (merge near (xs.map f)) := by
  induction xs using List.reverseRecOn with
  | nil => exact ⟨[], List.Perm.refl _, .nil⟩
  | append_singleton xs x ih =>
    obtain ⟨groups, hperm, hgroups⟩ := ih
    obtain ⟨groups', hperm', hgroups'⟩ := place_groups near hgroups x
    rw [List.map_append, List.map_singleton, merge_snoc]
    exact ⟨groups', hperm'.trans (hperm.append_right [x]), hgroups'⟩

/-! ## Groups that are apart -/

variable (near) in
/-- No two elements are near each other. -/
def Apart (placed : List α) : Prop := placed.Pairwise fun a b => ¬ near a b

theorem JoinOf.exists (h : group ≠ []) : ∃ y, JoinOf f group y := by
  induction group using List.reverseRecOn with
  | nil => exact absurd rfl h
  | append_singleton group b ih =>
    rcases eq_or_ne group [] with rfl | hne
    · exact ⟨_, joinOf_singleton f b⟩
    · obtain ⟨y, hy⟩ := ih hne
      exact ⟨_, hy.snoc b⟩

theorem JoinOf.le {b : β} {y : α} (h : JoinOf f group y) (hb : b ∈ group) :
    f b ≤ y := h.2.1 ⟨b, hb, rfl⟩

theorem JoinOf.mono {group' : List β} {y y' : α} (h : JoinOf f group y) (h' : JoinOf f group' y')
    (hsub : group ⊆ group') : y ≤ y' := by
  refine h.2.2 ?_
  rintro _ ⟨b, hb, rfl⟩
  exact h'.le (hsub hb)

variable {ι : Type} [DecidableEq ι]

/-- The elements with a label, in their order. -/
def groupOf (labelled : List (ι × β)) (i : ι) : List β := (labelled.filter (·.1 = i)).map Prod.snd

theorem groupOf_append (l l' : List (ι × β)) (i : ι) :
    groupOf (l ++ l') i = groupOf l i ++ groupOf l' i := by
  rw [groupOf, List.filter_append, List.map_append]
  rfl

theorem groupOf_cons_self (i : ι) (b : β) (l : List (ι × β)) :
    groupOf ((i, b) :: l) i = b :: groupOf l i := by
  simp [groupOf]

theorem groupOf_snoc_self (l : List (ι × β)) (i : ι) (b : β) :
    groupOf (l ++ [(i, b)]) i = groupOf l i ++ [b] := by
  rw [groupOf_append, groupOf_cons_self]
  rfl

theorem groupOf_snoc_ne {i j : ι} (h : i ≠ j) (l : List (ι × β)) (b : β) :
    groupOf (l ++ [(i, b)]) j = groupOf l j := by
  simp [groupOf, h]

variable (near) in
/-- Each element of a group is near the join of those before it in the group. -/
def Linked (f : β → α) (labelled : List (ι × β)) : Prop :=
  ∀ i before b after, groupOf labelled i = before ++ b :: after →
    ∀ y, JoinOf f before y → near y (f b)

variable (near) in
/-- The elements are labelled by groups that are linked and whose joins are apart. -/
structure Separated (f : β → α) (labelled : List (ι × β)) : Prop where
  linked : Linked near f labelled
  apart : ∀ i j y z, i ≠ j → JoinOf f (groupOf labelled i) y → JoinOf f (groupOf labelled j) z →
    ¬ near y z

/-- The placed elements, each with the label of its group. -/
structure Follows (f : β → α) (labelled : List (ι × β)) (placed : List (ι × α)) : Prop where
  nodup : (placed.map Prod.fst).Nodup
  joins : ∀ p ∈ placed, JoinOf f (groupOf labelled p.1) p.2
  covers : ∀ i, groupOf labelled i ≠ [] → ∃ y, (i, y) ∈ placed

omit [DecidableEq ι] in
variable (near) in
/-- What one arrival does to placed elements with labels. -/
theorem place_cases (x : α) (placed : List (ι × α)) :
    (∀ p ∈ placed, ¬ near p.2 x) ∧
        (∀ i, place near x (placed.map Prod.snd) = (placed ++ [(i, x)]).map Prod.snd) ∨
      ∃ left i y right, placed = left ++ (i, y) :: right ∧ near y x ∧
        place near x (placed.map Prod.snd) = (left ++ (i, y ⊔ x) :: right).map Prod.snd := by
  induction placed with
  | nil => exact .inl ⟨fun p hp => absurd hp List.not_mem_nil, fun _ => rfl⟩
  | cons p rest ih =>
    rw [List.map_cons, place]
    by_cases hp : near p.2 x
    · exact .inr ⟨[], p.1, p.2, rest, rfl, hp, if_pos hp⟩
    · rw [if_neg hp]
      rcases ih with ⟨hfar, hplace⟩ | ⟨left, i, y, right, rfl, hy, hplace⟩
      · refine .inl ⟨List.forall_mem_cons.mpr ⟨hp, hfar⟩, fun i => ?_⟩
        rw [hplace i, List.cons_append, List.map_cons]
      · refine .inr ⟨p :: left, i, y, right, rfl, hy, ?_⟩
        rw [hplace, List.cons_append, List.map_cons]

section Steps

variable {f : β → α} {labelled : List (ι × β)} {placed left right : List (ι × α)} {i : ι} {y : α}

theorem Follows.nil : Follows f ([] : List (ι × β)) [] :=
  ⟨List.nodup_nil, fun _ hp => absurd hp List.not_mem_nil, fun _ hi => absurd rfl hi⟩

theorem Follows.new (h : Follows f labelled placed) (hi : ∀ p ∈ placed, p.1 ≠ i) (b : β) :
    Follows f (labelled ++ [(i, b)]) (placed ++ [(i, f b)]) where
  nodup := by
    rw [List.map_append, List.nodup_append]
    refine ⟨h.nodup, List.nodup_singleton _, fun j hj k hk => ?_⟩
    obtain ⟨p, hp, rfl⟩ := List.mem_map.mp hj
    rw [List.mem_singleton.mp hk]
    exact hi p hp
  joins := by
    refine List.forall_mem_append.mpr ⟨fun p hp => ?_, List.forall_mem_singleton.mpr ?_⟩
    · rw [groupOf_snoc_ne (hi p hp).symm]
      exact h.joins p hp
    · have hempty : groupOf labelled i = [] := by
        by_contra hne
        obtain ⟨y, hy⟩ := h.covers i hne
        exact hi _ hy rfl
      rw [groupOf_snoc_self, hempty]
      exact joinOf_singleton f b
  covers j hj := by
    rcases eq_or_ne i j with rfl | hne
    · exact ⟨_, List.mem_append_right _ List.mem_cons_self⟩
    · rw [groupOf_snoc_ne hne] at hj
      obtain ⟨z, hz⟩ := h.covers j hj
      exact ⟨z, List.mem_append_left _ hz⟩

theorem Follows.old (h : Follows f labelled (left ++ (i, y) :: right)) (b : β) :
    Follows f (labelled ++ [(i, b)]) (left ++ (i, y ⊔ f b) :: right) := by
  obtain ⟨hnodup, hjoins, hcovers⟩ := h
  rw [List.forall_mem_append, List.forall_mem_cons] at hjoins
  have hfresh : ∀ p ∈ left ++ right, i ≠ p.1 := by
    intro p hp hpi
    rw [List.map_append, List.map_cons, List.perm_middle.nodup_iff, ← List.map_append] at hnodup
    exact (List.nodup_cons.mp hnodup).1 (List.mem_map.mpr ⟨p, hp, hpi.symm⟩)
  have hother : ∀ p ∈ left ++ right, JoinOf f (groupOf (labelled ++ [(i, b)]) p.1) p.2 := by
    intro p hp
    rw [groupOf_snoc_ne (hfresh p hp)]
    exact (List.mem_append.mp hp).elim (hjoins.1 p) (hjoins.2.2 p)
  rw [List.forall_mem_append] at hother
  refine ⟨?_, List.forall_mem_append.mpr ⟨hother.1, List.forall_mem_cons.mpr ⟨?_, hother.2⟩⟩, ?_⟩
  · rwa [List.map_append, List.map_cons] at hnodup ⊢
  · rw [groupOf_snoc_self]
    exact hjoins.2.1.snoc b
  · intro j hj
    rcases eq_or_ne i j with rfl | hne
    · exact ⟨_, List.mem_append_right _ List.mem_cons_self⟩
    · rw [groupOf_snoc_ne hne] at hj
      obtain ⟨z, hz⟩ := hcovers j hj
      simp only [List.mem_append, List.mem_cons, Prod.mk.injEq, hne.symm, false_and, false_or]
        at hz ⊢
      exact ⟨z, hz⟩

omit [DecidableRel near] in
theorem Linked.snoc (h : Linked near f labelled) {b : β}
    (hb : ∀ y, JoinOf f (groupOf labelled i) y → near y (f b)) :
    Linked near f (labelled ++ [(i, b)]) := by
  intro j
  rcases eq_or_ne i j with rfl | hne
  · rw [groupOf_snoc_self]
    exact forall_split_snoc.mpr ⟨hb, fun before c after hsplit => h i before c after hsplit⟩
  · rw [groupOf_snoc_ne hne]
    exact h j

end Steps

variable (near) in
theorem exists_labelled (f : β → α) (xs : List β) :
    ∃ (labelled : List (ℕ × β)) (placed : List (ℕ × α)), labelled.map Prod.snd = xs ∧
      Linked near f labelled ∧ Follows f labelled placed ∧
      merge near (xs.map f) = placed.map Prod.snd := by
  induction xs using List.reverseRecOn with
  | nil =>
    refine ⟨[], [], rfl, fun i before b after h => ?_, .nil, rfl⟩
    exact absurd h.symm (List.append_ne_nil_of_right_ne_nil _ (List.cons_ne_nil _ _))
  | append_singleton xs b ih =>
    obtain ⟨labelled, placed, rfl, hlinked, hfollows, hmerge⟩ := ih
    have hlabels (i : ℕ) : (labelled ++ [(i, b)]).map Prod.snd = labelled.map Prod.snd ++ [b] :=
      List.map_append
    rw [List.map_append, List.map_singleton, merge_snoc, hmerge]
    rcases place_cases near (f b) placed with ⟨-, hplace⟩ | ⟨left, i, y, right, rfl, hy, hplace⟩
    · -- a group of its own, under a label that none has
      obtain ⟨i, hi⟩ := Infinite.exists_notMem_finset (placed.map Prod.fst).toFinset
      have hfresh : ∀ p ∈ placed, p.1 ≠ i := fun p hp hpi =>
        hi (List.mem_toFinset.mpr (hpi ▸ List.mem_map_of_mem hp))
      refine ⟨_, _, hlabels i, hlinked.snoc fun y hy => ?_, hfollows.new hfresh b, hplace i⟩
      obtain ⟨z, hz⟩ := hfollows.covers i hy.1
      exact absurd rfl (hfresh _ hz)
    · refine ⟨_, _, hlabels i, hlinked.snoc fun z hz => ?_, hfollows.old b, hplace⟩
      have hjoin := hfollows.joins (i, y) (List.mem_append_right _ List.mem_cons_self)
      rwa [hz.2.unique hjoin.2]

section Apart

variable (hsymm : ∀ {a b : α}, near a b → near b a)
  (hgrows : ∀ {a b c : α}, a ≤ b → near a c → near b c) {f : β → α}

include hsymm hgrows

omit [DecidableRel near] in
/-- A join of a part of a group is far from every element of another group. -/
theorem Separated.far {labelled : List (ι × β)} (h : Separated near f labelled) {i j : ι}
    (hne : i ≠ j) {part : List β} {z : α} (hz : JoinOf f part z)
    (hpart : part ⊆ groupOf labelled j) {b : β} (hb : b ∈ groupOf labelled i) :
    ¬ near z (f b) := by
  intro hnear
  obtain ⟨y, hy⟩ := JoinOf.exists (f := f) (List.ne_nil_of_mem hb)
  obtain ⟨c, hc⟩ := List.exists_mem_of_ne_nil part hz.1
  obtain ⟨z', hz'⟩ := JoinOf.exists (f := f) (List.ne_nil_of_mem (hpart hc))
  have hgrown : near z' (f b) := hgrows (hz.mono hz' hpart) hnear
  exact h.apart i j y z' hne hy hz' (hgrows (hy.le hb) (hsymm hgrown))

theorem Separated.follows {labelled : List (ι × β)} (h : Separated near f labelled)
    {before after : List (ι × β)} (hsplit : labelled = before ++ after) :
    ∃ placed : List (ι × α), Follows f before placed ∧
      merge near ((before.map Prod.snd).map f) = placed.map Prod.snd := by
  induction before using List.reverseRecOn generalizing after with
  | nil => exact ⟨[], .nil, rfl⟩
  | append_singleton before last ih =>
    obtain ⟨i, b⟩ := last
    rw [List.append_assoc] at hsplit
    obtain ⟨placed, hfollows, hmerge⟩ := ih hsplit
    have hgroup : groupOf labelled i = groupOf before i ++ b :: groupOf after i := by
      rw [hsplit, groupOf_append, List.singleton_append, groupOf_cons_self]
    have hfar : ∀ p ∈ placed, near p.2 (f b) → p.1 = i := by
      intro p hp hnear
      by_contra hne
      refine h.far hsymm hgrows (Ne.symm hne) (hfollows.joins p hp) ?_ ?_ hnear
      · rw [hsplit, groupOf_append]
        exact List.subset_append_left _ _
      · rw [hgroup]
        exact List.mem_append_right _ List.mem_cons_self
    rw [List.map_append, List.map_append, List.map_singleton, List.map_singleton, merge_snoc,
      hmerge]
    rcases place_cases near (f b) placed with
      ⟨hnone, hplace⟩ | ⟨left, j, y, right, rfl, hy, hplace⟩
    · refine ⟨_, hfollows.new (fun p hp hpi => ?_) b, hplace i⟩
      have hjoin := hfollows.joins p hp
      rw [hpi] at hjoin
      exact hnone p hp (h.linked i _ b _ hgroup p.2 hjoin)
    · obtain rfl : j = i := hfar (j, y) (List.mem_append_right _ List.mem_cons_self) hy
      exact ⟨_, hfollows.old b, hplace⟩

/-- The result is pairwise apart exactly if what arrived can be labelled by separated groups. -/
theorem apart_merge_iff (xs : List β) :
    Apart near (merge near (xs.map f)) ↔
      ∃ labelled : List (ℕ × β), labelled.map Prod.snd = xs ∧ Separated near f labelled := by
  constructor
  · intro h
    obtain ⟨labelled, placed, hlabels, hlinked, hfollows, hmerge⟩ := exists_labelled near f xs
    refine ⟨labelled, hlabels, hlinked, fun i j y z hne hy hz => ?_⟩
    rw [hmerge, Apart, List.pairwise_map] at h
    obtain ⟨y', hy'⟩ := hfollows.covers i hy.1
    obtain ⟨z', hz'⟩ := hfollows.covers j hz.1
    rw [hy.2.unique (hfollows.joins _ hy').2, hz.2.unique (hfollows.joins _ hz').2]
    have : Std.Symm fun p q : ℕ × α => ¬ near p.2 q.2 := ⟨fun _ _ hpq hqp => hpq (hsymm hqp)⟩
    exact h.forall hy' hz' fun heq => hne (congrArg Prod.fst heq)
  · rintro ⟨labelled, rfl, h⟩
    obtain ⟨placed, hfollows, hmerge⟩ := h.follows hsymm hgrows (List.append_nil labelled).symm
    rw [hmerge, Apart, List.pairwise_map]
    refine (List.pairwise_map.mp hfollows.nodup).imp_of_mem fun {p q} hp hq hne => ?_
    exact h.apart p.1 q.1 p.2 q.2 hne (hfollows.joins p hp) (hfollows.joins q hq)

end Apart

end Blackwing.Absorb

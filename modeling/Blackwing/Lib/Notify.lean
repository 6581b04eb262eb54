import Blackwing.Lib.Run
import Mathlib.Data.List.Destutter
import Mathlib.Data.List.Nodup

/-!
# Polls that make each other forget

Several kinds of content are polled. A poll notifies unless its kind is known, and a notification
leaves only its own kind known. From the first notification on, every change from one kind to
another is therefore notified again.

* `poll`, `notified`: one poll, and the notifications of a list of polls.
* `notified_eq`: they are the polls from the first unknown kind on, without repetitions in a row.
* `nodup_notified_iff`: no kind is notified twice exactly if among these polls none of another kind
  comes between two of one kind.
-/

namespace Blackwing.Notify

variable {κ : Type} [DecidableEq κ]

/-- Only the kind `k` is known. -/
def only (k : κ) : κ → Bool := fun j => j = k

/-- A poll of the kind `k`. -/
def poll (known : κ → Bool) (k : κ) : Option κ × (κ → Bool) :=
  if known k then (none, known) else (some k, only k)

/-- The kinds that are notified, oldest first. -/
def notified (known : κ → Bool) (polls : List κ) : List κ :=
  (run poll known polls).filterMap Entry.out

theorem notified_append (known : κ → Bool) (polls more : List κ) :
    notified known (polls ++ more) =
      notified known polls ++ notified (endState poll known polls) more := by
  rw [notified, run_append, List.filterMap_append]
  rfl

variable {known : κ → Bool} {polls : List κ}

theorem notified_cons_of_known {k : κ} (h : known k = true) (polls : List κ) :
    notified known (k :: polls) = notified known polls := by
  simp [notified, stepEntry, poll, h]

theorem notified_cons_of_unknown {k : κ} (h : known k = false) (polls : List κ) :
    notified known (k :: polls) = k :: notified (only k) polls := by
  simp [notified, stepEntry, poll, h]

theorem cons_notified_only (k : κ) (polls : List κ) :
    k :: notified (only k) polls = polls.destutter' (· ≠ ·) k := by
  induction polls generalizing k with
  | nil => rfl
  | cons j polls ih =>
    by_cases hj : j = k
    · subst hj
      rw [notified_cons_of_known (by simp [only]), ih, List.destutter'_cons_neg _ (not_not.mpr rfl)]
    · rw [notified_cons_of_unknown (by simp [only, hj]), ih, List.destutter'_cons_pos _ (Ne.symm hj)]

/-- The notifications are the polls from the first unknown kind on, without repetitions in a row. -/
theorem notified_eq (known : κ → Bool) (polls : List κ) :
    notified known polls = (polls.dropWhile known).destutter (· ≠ ·) := by
  induction polls with
  | nil => rfl
  | cons k polls ih =>
    cases hk : known k with
    | true => rw [notified_cons_of_known hk, ih, List.dropWhile_cons_of_pos hk]
    | false =>
      rw [notified_cons_of_unknown hk, cons_notified_only, List.dropWhile_cons_of_neg (by simp [hk])]
      rfl

theorem mem_destutter'_ne {k j : κ} : j ∈ polls.destutter' (· ≠ ·) k ↔ j ∈ k :: polls := by
  induction polls generalizing k with
  | nil => rfl
  | cons i polls ih =>
    by_cases hi : k = i
    · subst hi
      rw [List.destutter'_cons_neg _ (not_not.mpr rfl), ih]
      simp
    · rw [List.destutter'_cons_pos _ hi, List.mem_cons, ih]
      simp

omit [DecidableEq κ] in
/-- A repetition in a row gives no new returns to a kind. -/
theorem sublist_cons_cons_self {k i j : κ} (hij : i ≠ j) (h : [i, j, i].Sublist (k :: k :: polls)) :
    [i, j, i].Sublist (k :: polls) := by
  rcases List.sublist_cons_iff.mp h with h | ⟨rest, heq, hrest⟩
  · exact h
  · cases heq
    rcases List.sublist_cons_iff.mp hrest with h | ⟨rest, heq, -⟩
    · exact h.cons_cons _
    · cases heq
      exact absurd rfl hij

theorem nodup_destutter'_iff {k : κ} :
    (polls.destutter' (· ≠ ·) k).Nodup ↔
      ∀ i j, i ≠ j → ¬ [i, j, i].Sublist (k :: polls) := by
  induction polls generalizing k with
  | nil =>
    refine iff_of_true (List.nodup_singleton k) fun i j _ h => ?_
    exact absurd h.length_le (by simp)
  | cons p polls ih =>
    by_cases hp : k = p
    · subst hp
      rw [List.destutter'_cons_neg _ (not_not.mpr rfl), ih]
      refine forall₃_congr fun i j hij => not_congr ⟨fun h => h.cons k, sublist_cons_cons_self hij⟩
    · rw [List.destutter'_cons_pos _ hp, List.nodup_cons, mem_destutter'_ne, ih]
      constructor
      · rintro ⟨hk, hrest⟩ i j hij h
        rcases List.sublist_cons_iff.mp h with h | ⟨rest, heq, h⟩
        · exact hrest i j hij h
        · cases heq
          exact hk (h.subset (by simp))
      · intro h
        refine ⟨fun hk => ?_, fun i j hij hsub => h i j hij (hsub.cons k)⟩
        have hk' : k ∈ polls := (List.mem_cons.mp hk).resolve_left hp
        exact h k p hp (((List.singleton_sublist.mpr hk').cons_cons p).cons_cons k)

/-- No kind is notified twice, exactly if from the first unknown kind on no kind is polled again
after another one. -/
theorem nodup_notified_iff :
    (notified known polls).Nodup ↔
      ∀ i j, i ≠ j → ¬ [i, j, i].Sublist (polls.dropWhile known) := by
  rw [notified_eq]
  cases polls.dropWhile known with
  | nil => exact iff_of_true List.nodup_nil fun i j _ h => absurd h.length_le (by simp)
  | cons k polls => exact nodup_destutter'_iff

end Blackwing.Notify

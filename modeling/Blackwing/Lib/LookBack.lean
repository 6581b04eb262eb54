import Blackwing.Lib.Run

/-!
# Events in a sliding window

The times of a list of events, oldest first. A bound on their number in every window of one length,
wherever the window is placed, is a bound on what each event finds when it looks back. A counter
with fixed windows, each opened by the first event after the one before, sees less: it holds only
the newest window.

* `within`, `recent`: the times in a window, and those less than its length before an event.
* `within_le_iff`: the two bounds are the same.
* `windowsOf`, `admitted`: the fixed windows of a list of times, and the first events of each.
* `within_admitted_le_iff`: what the counter admits is within the bound wherever the window is
  placed, exactly if each fixed window fits in with the one before it.
-/

namespace Blackwing.LookBack

variable {α : Type}

/-- The times from `a` on, for the length `w`. -/
def within (w a : Nat) (times : List Nat) : List Nat := times.filter fun t => a ≤ t ∧ t < a + w

/-- The times that are less than `w` before `now`. -/
def recent (w now : Nat) (times : List Nat) : List Nat := times.filter fun t => now < t + w

theorem within_append (w a : Nat) (before after : List Nat) :
    within w a (before ++ after) = within w a before ++ within w a after := List.filter_append ..

theorem within_cons_of_mem {w a t : Nat} (h : a ≤ t ∧ t < a + w) (times : List Nat) :
    within w a (t :: times) = t :: within w a times := List.filter_cons_of_pos (decide_eq_true h)

theorem within_cons_of_not_mem {w a t : Nat} (h : ¬ (a ≤ t ∧ t < a + w)) (times : List Nat) :
    within w a (t :: times) = within w a times := List.filter_cons_of_neg (by simpa using h)

/-- What the last time of a window finds. -/
theorem length_within_le_recent {w a t : Nat} (h : t < a + w) (times : List Nat) :
    (within w a times).length ≤ (recent w t times).length := by
  refine (List.monotone_filter_right _ fun s hs => ?_).length_le
  simp only [decide_eq_true_eq] at hs ⊢
  omega

/-- What an event finds is a window that ends with it. -/
theorem recent_eq_within {w t : Nat} {times : List Nat} (h : ∀ s ∈ times, s ≤ t) :
    recent w t times = within w (t + 1 - w) times := by
  refine List.filter_congr fun s hs => ?_
  have hle := h s hs
  rw [decide_eq_decide]
  omega

/-- No window of the length `w` holds more than `n` times, exactly if each event finds fewer than
`n` in the length before it. -/
theorem within_le_iff {w n : Nat} (hw : 0 < w) {times : List Nat} (hsorted : times.Pairwise (· ≤ ·)) :
    (∀ a, (within w a times).length ≤ n) ↔
      ∀ before t after, times = before ++ t :: after → (recent w t before).length < n := by
  constructor
  · rintro hall before t after rfl
    have hpast : ∀ s ∈ before, s ≤ t := fun s hs =>
      (List.pairwise_append.mp hsorted).2.2 s hs t List.mem_cons_self
    have hend := hall (t + 1 - w)
    rw [within_append, within_cons_of_mem (by omega), ← recent_eq_within hpast,
      List.length_append, List.length_cons] at hend
    omega
  · intro hback a
    induction times using List.reverseRecOn with
    | nil => exact Nat.zero_le n
    | append_singleton times t ih =>
      rw [forall_split_snoc] at hback
      obtain ⟨hlast, hbefore⟩ := hback
      have ih := ih (List.pairwise_append.mp hsorted).1 hbefore
      rw [within_append, List.length_append]
      by_cases hin : a ≤ t ∧ t < a + w
      · -- the last event in the window finds all the others
        have hle := length_within_le_recent hin.2 times
        rw [within_cons_of_mem hin]
        exact Nat.lt_of_le_of_lt hle hlast
      · rw [within_cons_of_not_mem hin]
        exact ih

/-! ## Fixed windows -/

/-- A window that an event opened, and the times of the events in it after that one. -/
structure Window where
  opened : Nat
  later : List Nat
deriving DecidableEq

/-- The times of the first `n` events of a window. -/
def Window.first (n : Nat) (win : Window) : List Nat := (win.opened :: win.later).take n

/-- An event falls into the newest window, or opens one when that is over. -/
def addEvent (w : Nat) : List Window → Nat → List Window
  | [], t => [⟨t, []⟩]
  | win :: older, t =>
    if t - win.opened < w then ⟨win.opened, win.later ++ [t]⟩ :: older else ⟨t, []⟩ :: win :: older

/-- The windows of the events, the newest first. -/
def windowsOf (w : Nat) (times : List Nat) : List Window := times.foldl (addEvent w) []

/-- The times of the first `n` events of each window, the oldest first. -/
def admitted (n : Nat) : List Window → List Nat
  | [] => []
  | win :: older => admitted n older ++ win.first n

/-- Each of the first `n` events of a window finds fewer than `n` of those admitted there and in the
window before. -/
def Fits (w n : Nat) (new old : Window) : Prop :=
  ∀ first t rest, new.first n = first ++ t :: rest →
    (recent w t (old.first n)).length + first.length < n

theorem windowsOf_snoc (w : Nat) (times : List Nat) (t : Nat) :
    windowsOf w (times ++ [t]) = addEvent w (windowsOf w times) t := by
  rw [windowsOf, List.foldl_append]
  rfl

variable {w n t : Nat} {times : List Nat} {windows older : List Window} {win : Window}

/-- What an event adds to those admitted. -/
theorem admitted_addEvent (hn : 0 < n) (h : addEvent w windows t = win :: older) :
    admitted n (win :: older) = admitted n windows ++ [t].take (n - win.later.length) := by
  have hone : [t].take n = [t] := List.take_of_length_le hn
  cases windows with
  | nil =>
    cases h
    simp [admitted, Window.first, hone]
  | cons newest rest =>
    rw [addEvent] at h
    split_ifs at h
    · cases h
      rw [admitted, admitted, Window.first, Window.first, ← List.cons_append, List.take_append,
        List.append_assoc, List.length_append]
      rfl
    · cases h
      simp [admitted, Window.first, hone]

theorem addEvent_eq_cons (w : Nat) (windows : List Window) (t : Nat) :
    ∃ win older, addEvent w windows t = win :: older := by
  cases windows with
  | nil => exact ⟨_, _, rfl⟩
  | cons newest rest =>
    rw [addEvent]
    split_ifs <;> exact ⟨_, _, rfl⟩

theorem admitted_sublist (hn : 0 < n) (times : List Nat) :
    (admitted n (windowsOf w times)).Sublist times := by
  induction times using List.reverseRecOn with
  | nil => exact List.Sublist.slnil
  | append_singleton times t ih =>
    obtain ⟨win, older, hadd⟩ := addEvent_eq_cons w (windowsOf w times) t
    rw [windowsOf_snoc, hadd, admitted_addEvent hn hadd]
    exact ih.append (List.take_sublist _ _)

/-- Every window lasts for the length `w`, and the next one opens after it with an event. -/
structure Placed (w : Nat) (times : List Nat) (windows : List Window) : Prop where
  lasts : ∀ win ∈ windows, ∀ t ∈ win.opened :: win.later, win.opened ≤ t ∧ t < win.opened + w
  spaced : windows.Pairwise fun new old => old.opened + w ≤ new.opened
  opened : ∀ win ∈ windows, win.opened ∈ times

theorem Placed.tail (h : Placed w times (win :: older)) : Placed w times older :=
  ⟨(List.forall_mem_cons.mp h.lasts).2, (List.pairwise_cons.mp h.spaced).2,
    (List.forall_mem_cons.mp h.opened).2⟩

theorem Placed.add (hw : 0 < w) (h : Placed w times windows) (hpast : ∀ s ∈ times, s ≤ t) :
    Placed w (times ++ [t]) (addEvent w windows t) := by
  obtain ⟨hlasts, hspaced, hopened⟩ := h
  have hnew : ∀ s ∈ [t], t ≤ s ∧ s < t + w :=
    List.forall_mem_singleton.mpr ⟨Nat.le_refl t, Nat.lt_add_of_pos_right hw⟩
  have hmem : t ∈ times ++ [t] := List.mem_append_right _ List.mem_cons_self
  have hkept : ∀ win ∈ windows, win.opened ∈ times ++ [t] := fun win hwin =>
    List.mem_append_left _ (hopened win hwin)
  cases windows with
  | nil =>
    exact ⟨List.forall_mem_singleton.mpr hnew, List.pairwise_singleton _ _,
      List.forall_mem_singleton.mpr hmem⟩
  | cons newest rest =>
    have hle : newest.opened ≤ t := hpast _ (hopened newest List.mem_cons_self)
    rw [addEvent]
    split_ifs with hin
    · rw [List.forall_mem_cons] at hlasts hkept
      refine ⟨List.forall_mem_cons.mpr ⟨fun s hs => ?_, hlasts.2⟩, ?_,
        List.forall_mem_cons.mpr hkept⟩
      · rw [← List.cons_append, List.mem_append, List.mem_singleton] at hs
        rcases hs with hs | rfl
        · exact hlasts.1 s hs
        · exact ⟨hle, by dsimp only; omega⟩
      · exact List.pairwise_cons.mpr (List.pairwise_cons.mp hspaced)
    · have hover : newest.opened + w ≤ t := by omega
      refine ⟨List.forall_mem_cons.mpr ⟨hnew, hlasts⟩, List.pairwise_cons.mpr ⟨?_, hspaced⟩,
        List.forall_mem_cons.mpr ⟨hmem, hkept⟩⟩
      refine List.forall_mem_cons.mpr ⟨hover, fun old hold => ?_⟩
      exact Nat.le_trans ((List.pairwise_cons.mp hspaced).1 old hold) hle

theorem placed_windowsOf (hw : 0 < w) (hsorted : times.Pairwise (· ≤ ·)) :
    Placed w times (windowsOf w times) := by
  induction times using List.reverseRecOn with
  | nil =>
    exact ⟨fun _ h => absurd h List.not_mem_nil, .nil, fun _ h => absurd h List.not_mem_nil⟩
  | append_singleton times t ih =>
    obtain ⟨hbefore, -, hlast⟩ := List.pairwise_append.mp hsorted
    rw [windowsOf_snoc]
    exact (ih hbefore).add hw fun s hs => hlast s hs t List.mem_cons_self

theorem mem_admitted {s : Nat} (h : s ∈ admitted n windows) :
    ∃ win ∈ windows, s ∈ win.opened :: win.later := by
  induction windows with
  | nil => exact absurd h List.not_mem_nil
  | cons win older ih =>
    rcases List.mem_append.mp h with h | h
    · obtain ⟨old, hold, hs⟩ := ih h
      exact ⟨old, List.mem_cons_of_mem _ hold, hs⟩
    · exact ⟨win, List.mem_cons_self, List.mem_of_mem_take h⟩

/-- An admitted event finds all those before it in its window, and of the others only some of the
window before. -/
theorem length_recent_admitted {old new : Window} (h : Placed w times (new :: old :: older))
    {first rest : List Nat} (hsplit : new.first n = first ++ t :: rest) :
    (recent w t (admitted n (old :: older) ++ first)).length =
      (recent w t (old.first n)).length + first.length := by
  obtain ⟨hlasts, hspaced, -⟩ := h
  rw [List.forall_mem_cons] at hlasts
  have hmem : ∀ s ∈ first ++ t :: rest, new.opened ≤ s ∧ s < new.opened + w := by
    rw [← hsplit]
    exact fun s hs => hlasts.1 s (List.mem_of_mem_take hs)
  obtain ⟨hopened, hend⟩ := hmem t (List.mem_append_right _ List.mem_cons_self)
  have hfirst : recent w t first = first := by
    refine List.filter_eq_self.mpr fun s hs => ?_
    have hs := (hmem s (List.mem_append_left _ hs)).1
    exact decide_eq_true (by omega)
  have holder : recent w t (admitted n older) = [] := by
    refine List.filter_eq_nil_iff.mpr fun s hs => ?_
    obtain ⟨win, hwin, hs⟩ := mem_admitted hs
    have hlast := (hlasts.2 win (List.mem_cons_of_mem _ hwin) s hs).2
    have hbefore := (List.pairwise_cons.mp (List.pairwise_cons.mp hspaced).2).1 win hwin
    have hnew := (List.pairwise_cons.mp hspaced).1 old List.mem_cons_self
    simp only [decide_eq_true_eq]
    omega
  rw [admitted, recent, List.filter_append, List.filter_append, ← recent, ← recent, ← recent,
    holder, hfirst, List.nil_append, List.length_append]

theorem forall_split_append {l l' : List α} {P : List α → α → Prop} :
    (∀ before a after, l ++ l' = before ++ a :: after → P before a) ↔
      (∀ before a after, l = before ++ a :: after → P before a) ∧
        ∀ before a after, l' = before ++ a :: after → P (l ++ before) a := by
  induction l' using List.reverseRecOn with
  | nil => simp
  | append_singleton l' x ih =>
    rw [← List.append_assoc, forall_split_snoc, forall_split_snoc, ih]
    tauto

/-- Each admitted event finds fewer than `n`, exactly if each window fits in with the one before. -/
theorem lookBack_admitted_iff (h : Placed w times windows) :
    (∀ before t after, admitted n windows = before ++ t :: after → (recent w t before).length < n) ↔
      windows.IsChain (Fits w n) := by
  induction windows with
  | nil => simp [admitted]
  | cons new older ih =>
    rw [admitted, forall_split_append]
    cases older with
    | nil =>
      refine ⟨fun _ => .singleton _, fun _ => ⟨by simp [admitted], fun first t rest hsplit => ?_⟩⟩
      have hlength := List.length_take_le n (new.opened :: new.later)
      rw [← Window.first, hsplit, List.length_append, List.length_cons] at hlength
      have hle := List.length_filter_le (fun s => decide (t < s + w)) first
      exact Nat.lt_of_le_of_lt hle (by omega)
    | cons old older =>
      rw [List.isChain_cons_cons, ih h.tail, and_comm]
      refine and_congr_left fun _ => forall₃_congr fun first t rest => ?_
      refine forall_congr' fun hsplit => ?_
      rw [length_recent_admitted h hsplit]

/-- What fixed windows admit is within the bound wherever a window is placed, exactly if each fixed
window fits in with the one before it. -/
theorem within_admitted_le_iff (hw : 0 < w) (hn : 0 < n) (hsorted : times.Pairwise (· ≤ ·)) :
    (∀ a, (within w a (admitted n (windowsOf w times))).length ≤ n) ↔
      (windowsOf w times).IsChain (Fits w n) := by
  have hplaced := placed_windowsOf hw hsorted
  rw [within_le_iff hw (hsorted.sublist (admitted_sublist hn times)), lookBack_admitted_iff hplaced]

end Blackwing.LookBack

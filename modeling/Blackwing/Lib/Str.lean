import Mathlib.Data.String.Basic
import Blackwing.Lib.Call

/-!
# Texts and byte positions

A Rust `str` as the list of its characters, where positions count bytes of the UTF-8
coding (`Char.utf8Size`, `String.utf8Len`). A position is a boundary if it is between
two characters; slicing at any other position is a panic.

* `splitAtByte`: the text before and after a position, `splitAtByte_append` for positions
  behind a part, `eq_append_of_splitAtByte` for what it returns.
* `strSlice`: `&s[start..stop]`, and `strSlice_append`: a slice that begins behind a part.
* `splitAtByte_two_cases`: what the first two bytes of a text can be.
-/

namespace Blackwing

open String (utf8Len utf8Len_cons utf8Len_append)

/-- The text cut at a position; none if the position is inside a character or behind the end. -/
def splitAtByte : Nat → List Char → Option (List Char × List Char)
  | n, [] => if n = 0 then some ([], []) else none
  | n, c :: s =>
    if n = 0 then some ([], c :: s)
    else if c.utf8Size ≤ n then (splitAtByte (n - c.utf8Size) s).map fun p => (c :: p.1, p.2)
    else none

theorem splitAtByte_zero (s : List Char) : splitAtByte 0 s = some ([], s) := by
  cases s <;> rfl

theorem splitAtByte_cons {n : Nat} {c : Char} (h : c.utf8Size ≤ n) (s : List Char) :
    splitAtByte n (c :: s) = (splitAtByte (n - c.utf8Size) s).map fun p => (c :: p.1, p.2) := by
  have hpos := c.utf8Size_pos
  rw [splitAtByte, if_neg (by omega), if_pos h]

/-- The first character reaches beyond the position. -/
theorem splitAtByte_inside {n : Nat} {c : Char} (hn : n ≠ 0) (h : n < c.utf8Size) (s : List Char) :
    splitAtByte n (c :: s) = none := by
  rw [splitAtByte, if_neg hn, if_neg (by omega)]

/-- Positions behind a part are counted from its end. -/
theorem splitAtByte_append (a s : List Char) (n : Nat) :
    splitAtByte (utf8Len a + n) (a ++ s) = (splitAtByte n s).map fun p => (a ++ p.1, p.2) := by
  induction a with
  | nil => simp [String.utf8Len]
  | cons c a ih =>
    have hpos : utf8Len (c :: a) + n - c.utf8Size = utf8Len a + n := by
      rw [utf8Len_cons]
      omega
    rw [List.cons_append, splitAtByte_cons (by rw [utf8Len_cons]; omega), hpos, ih, Option.map_map]
    rfl

theorem splitAtByte_self (a s : List Char) : splitAtByte (utf8Len a) (a ++ s) = some (a, s) := by
  have h := splitAtByte_append a s 0
  rwa [Nat.add_zero, splitAtByte_zero, Option.map_some, List.append_nil] at h

theorem eq_append_of_splitAtByte {n : Nat} {s a b : List Char} (h : splitAtByte n s = some (a, b)) :
    s = a ++ b ∧ utf8Len a = n := by
  induction s generalizing n a with
  | nil =>
    rw [splitAtByte] at h
    split at h
    · next hn =>
      cases h
      exact ⟨rfl, hn.symm⟩
    · exact nomatch h
  | cons c s ih =>
    rw [splitAtByte] at h
    split at h
    · next hn =>
      cases h
      exact ⟨rfl, hn.symm⟩
    · split at h
      · next hsize =>
        obtain ⟨⟨a', b'⟩, hsplit, heq⟩ := Option.map_eq_some_iff.mp h
        cases heq
        obtain ⟨rfl, hlen⟩ := ih hsplit
        exact ⟨rfl, by rw [utf8Len_cons, hlen, Nat.sub_add_cancel hsize]⟩
      · exact nomatch h

variable {ε : Type}

/-- `&s[start..stop]`. -/
def strSlice (s : List Char) (start stop : Nat) : Outcome ε (List Char) :=
  match splitAtByte stop s with
  | none => .panicked
  | some (before, _) =>
    match splitAtByte start before with
    | none => .panicked
    | some (_, part) => .ok part

theorem strSlice_append (a s : List Char) (n : Nat) :
    (strSlice (a ++ s) (utf8Len a) (utf8Len a + n) : Outcome ε (List Char)) =
      match splitAtByte n s with
      | none => .panicked
      | some (part, _) => .ok part := by
  unfold strSlice
  rw [splitAtByte_append]
  cases splitAtByte n s with
  | none => rfl
  | some p =>
    dsimp only [Option.map_some]
    rw [splitAtByte_self]

/-- `&s[start..]`. -/
theorem strSlice_to_end (a s : List Char) :
    (strSlice (a ++ s) (utf8Len a) (utf8Len (a ++ s)) : Outcome ε (List Char)) = .ok s := by
  have h := splitAtByte_self s []
  rw [List.append_nil] at h
  rw [utf8Len_append, strSlice_append, h]

/-- The second byte of the text is not the end of a character: it begins with a character of three
or four bytes, or with one of one byte and then a longer one. -/
def BreaksPair : List Char → Prop
  | [] => False
  | [a] => 3 ≤ a.utf8Size
  | a :: b :: _ => 3 ≤ a.utf8Size ∨ (a.utf8Size = 1 ∧ 2 ≤ b.utf8Size)

/-- The first two bytes of a text are two characters, or one, or do not end with one. -/
theorem splitAtByte_two_cases {s : List Char} (h : 2 ≤ utf8Len s) :
    (∃ a b t, s = a :: b :: t ∧ a.utf8Size = 1 ∧ b.utf8Size = 1 ∧
      splitAtByte 2 s = some ([a, b], t)) ∨
    (∃ a t, s = a :: t ∧ a.utf8Size = 2 ∧ splitAtByte 2 s = some ([a], t)) ∨
    (BreaksPair s ∧ splitAtByte 2 s = none) := by
  cases s with
  | nil => exact absurd h (by decide)
  | cons a s =>
    have ha := a.utf8Size_pos
    rcases Nat.lt_trichotomy a.utf8Size 2 with hsize | hsize | hsize
    · have hone : a.utf8Size = 1 := by omega
      cases s with
      | nil =>
        rw [utf8Len_cons, hone] at h
        exact absurd h (by decide)
      | cons b t =>
        have hb := b.utf8Size_pos
        rcases Nat.lt_or_ge b.utf8Size 2 with hsize' | hsize'
        · have hone' : b.utf8Size = 1 := by omega
          refine Or.inl ⟨a, b, t, rfl, hone, hone', ?_⟩
          rw [splitAtByte_cons (by omega), hone, splitAtByte_cons (by omega), hone',
            splitAtByte_zero]
          rfl
        · refine Or.inr (Or.inr ⟨Or.inr ⟨hone, hsize'⟩, ?_⟩)
          rw [splitAtByte_cons (by omega), hone, splitAtByte_inside (by decide) (by omega)]
          rfl
    · refine Or.inr (Or.inl ⟨a, s, rfl, hsize, ?_⟩)
      rw [splitAtByte_cons (by omega), hsize, splitAtByte_zero]
      rfl
    · refine Or.inr (Or.inr ⟨?_, splitAtByte_inside (by decide) hsize s⟩)
      cases s with
      | nil => exact hsize
      | cons b t => exact Or.inl hsize

end Blackwing

import Mathlib.Data.List.Basic
import Mathlib.Data.List.Infix

/-!
# Text that may not be UTF-8

A byte string is read as characters and, where it is not UTF-8, as ill-formed pieces, each as long
as it could still have become a character. Lossy conversion shows an ill-formed piece as U+FFFD.

* `tails`: the bytes that may follow a first byte, as ranges.
* `Reads`: the pieces of a byte string, defined by what a character and an ill-formed piece are.
* `pieces`, `lossy`: the scanner that finds them, and the text it shows.
* `reads_pieces`, `reads_unique`: the scanner finds the pieces, and no byte string has two readings.
* `lossy_append_ascii`, `suffix_lossy_iff`: ASCII at the end is shown as it is, and what is shown as
  ASCII at the end was there.
-/

namespace Blackwing.Utf8

/-! ## Characters -/

/-- A range of bytes, both ends included. -/
structure Range where
  low : UInt8
  high : UInt8
  nonempty : low ≤ high

def Range.Has (r : Range) (x : UInt8) : Prop := r.low ≤ x ∧ x ≤ r.high

instance (r : Range) (x : UInt8) : Decidable (r.Has x) := inferInstanceAs (Decidable (_ ∧ _))

/-- The bytes that continue a character, where the first byte asks for no less. -/
def continuation : Range := ⟨0x80, 0xBF, by decide⟩

/-- What has to follow a first byte, if it is one. -/
def tails (b : UInt8) : Option (List Range) :=
  if b < 0x80 then some []
  else if b < 0xC2 then none
  else if b < 0xE0 then some [continuation]
  else if b = 0xE0 then some [⟨0xA0, 0xBF, by decide⟩, continuation]
  else if b = 0xED then some [⟨0x80, 0x9F, by decide⟩, continuation]
  else if b < 0xF0 then some [continuation, continuation]
  else if b = 0xF0 then some [⟨0x90, 0xBF, by decide⟩, continuation, continuation]
  else if b < 0xF4 then some [continuation, continuation, continuation]
  else if b = 0xF4 then some [⟨0x80, 0x8F, by decide⟩, continuation, continuation]
  else none

/-- The bytes lie in the first of the ranges, one in each. -/
def Fits : List Range → List UInt8 → Prop
  | _, [] => True
  | [], _ :: _ => False
  | r :: rs, x :: xs => r.Has x ∧ Fits rs xs

/-- A first byte and all that has to follow it. -/
def IsChar : List UInt8 → Prop
  | [] => False
  | b :: xs => ∃ rs, tails b = some rs ∧ Fits rs xs ∧ xs.length = rs.length

/-- `c` is ill-formed in front of `rest`: no character begins here, and `c` is one byte or as many
as still begin a character. -/
structure IsIll (c rest : List UInt8) : Prop where
  ne_nil : c ≠ []
  no_char : ∀ d, IsChar d → ¬ d <+: c ++ rest
  begins : c.length = 1 ∨ ∃ d, IsChar d ∧ c <+: d
  longest : ∀ c' d, IsChar d → c' <+: d → c' <+: c ++ rest → c'.length ≤ c.length

inductive Piece where
  | char (bytes : List UInt8)
  | ill
deriving DecidableEq, Repr

/-- The pieces of a byte string. -/
inductive Reads : List UInt8 → List Piece → Prop
  | nil : Reads [] []
  | char {c rest : List UInt8} {ps : List Piece} (hc : IsChar c) (h : Reads rest ps) :
      Reads (c ++ rest) (.char c :: ps)
  | ill {c rest : List UInt8} {ps : List Piece} (hc : IsIll c rest) (h : Reads rest ps) :
      Reads (c ++ rest) (.ill :: ps)

/-- The bytes that a piece is shown as; U+FFFD for an ill-formed one. -/
def Piece.shown : Piece → List UInt8
  | .char bytes => bytes
  | .ill => [0xEF, 0xBF, 0xBD]

/-! ## The scanner -/

/-- How many bytes of a string lie in the ranges, one in each, before the first that does not. -/
def matched : List Range → List UInt8 → Nat
  | r :: rs, x :: xs => if r.Has x then matched rs xs + 1 else 0
  | _, _ => 0

/-- The first piece of a string that begins with `b`, and how many bytes follow `b` in it. -/
def scan (b : UInt8) (rest : List UInt8) : Piece × Nat :=
  match tails b with
  | none => (.ill, 0)
  | some rs =>
    let n := matched rs rest
    if n = rs.length then (.char (b :: rest.take n), n) else (.ill, n)

/-- The pieces that the scanner finds; `fuel` bounds their number. -/
def piecesLoop : Nat → List UInt8 → List Piece
  | 0, _ => []
  | _ + 1, [] => []
  | fuel + 1, b :: rest => (scan b rest).1 :: piecesLoop fuel (rest.drop (scan b rest).2)

def pieces (l : List UInt8) : List Piece := piecesLoop l.length l

/-- `String::from_utf8_lossy`, as bytes. -/
def lossy (l : List UInt8) : List UInt8 := (pieces l).flatMap Piece.shown

/-! ## What the scanner finds -/

theorem matched_le (rs : List Range) (xs : List UInt8) : matched rs xs ≤ rs.length := by
  fun_induction matched rs xs with
  | case1 r rs x xs _ ih => exact Nat.succ_le_succ ih
  | case2 => exact Nat.zero_le _
  | case3 => exact Nat.zero_le _

theorem fits_take_matched (rs : List Range) (xs : List UInt8) : Fits rs (xs.take (matched rs xs)) := by
  fun_induction matched rs xs with
  | case1 r rs x xs h ih => exact ⟨h, ih⟩
  | case2 r rs x xs => simp [Fits]
  | case3 rs xs => simp [Fits]

variable {rs : List Range} {c d l rest rest' : List UInt8} {b : UInt8} {ps : List Piece}

/-- No more bytes lie in the ranges than the scanner counts. -/
theorem length_le_matched {xs us : List UInt8} (hus : us <+: xs) (hfits : Fits rs us) :
    us.length ≤ matched rs xs := by
  induction us generalizing rs xs with
  | nil => exact Nat.zero_le _
  | cons u us ih =>
    obtain ⟨r, rs, rfl⟩ : ∃ r rs', rs = r :: rs' := by
      cases rs with
      | nil => exact hfits.elim
      | cons r rs => exact ⟨r, rs, rfl⟩
    obtain ⟨ys, rfl, hys⟩ : ∃ ys, xs = u :: ys ∧ us <+: ys := by
      obtain ⟨t, rfl⟩ := hus
      exact ⟨us ++ t, rfl, List.prefix_append us t⟩
    rw [matched, if_pos hfits.1]
    exact Nat.succ_le_succ (ih hys hfits.2)

theorem Fits.of_prefix {us xs : List UInt8} (hus : us <+: xs) (h : Fits rs xs) : Fits rs us := by
  obtain ⟨t, rfl⟩ := hus
  induction us generalizing rs with
  | nil => simp [Fits]
  | cons u us ih =>
    cases rs with
    | nil => exact h.elim
    | cons r rs => exact ⟨h.1, ih h.2⟩

/-- Bytes in the first of the ranges can be continued to all of them. -/
theorem Fits.extend {us : List UInt8} (h : Fits rs us) :
    ∃ xs, us <+: xs ∧ Fits rs xs ∧ xs.length = rs.length := by
  induction rs generalizing us with
  | nil =>
    cases us with
    | nil => exact ⟨[], List.prefix_rfl, trivial, rfl⟩
    | cons u us => exact h.elim
  | cons r rs ih =>
    cases us with
    | nil =>
      have hnil : Fits rs [] := by simp [Fits]
      obtain ⟨xs, -, hfits, hlen⟩ := ih hnil
      exact ⟨r.low :: xs, List.nil_prefix, ⟨⟨UInt8.le_refl _, r.nonempty⟩, hfits⟩,
        congrArg Nat.succ hlen⟩
    | cons u us =>
      obtain ⟨xs, hus, hfits, hlen⟩ := ih h.2
      exact ⟨u :: xs, List.cons_prefix_cons.mpr ⟨rfl, hus⟩, ⟨h.1, hfits⟩, congrArg Nat.succ hlen⟩

theorem matched_le_length (rs : List Range) (xs : List UInt8) : matched rs xs ≤ xs.length := by
  fun_induction matched rs xs with
  | case1 r rs x xs _ ih => exact Nat.succ_le_succ ih
  | case2 => exact Nat.zero_le _
  | case3 => exact Nat.zero_le _

/-- What begins both a character and a string that begins with `b`. -/
theorem begin_of_prefix (hd : IsChar d) (hcd : c <+: d) (hc : c <+: b :: l) :
    c = [] ∨ ∃ us rs, c = b :: us ∧ us <+: l ∧ tails b = some rs ∧ Fits rs us := by
  rcases List.prefix_cons_iff.mp hc with rfl | ⟨us, rfl, hus⟩
  · exact Or.inl rfl
  · cases d with
    | nil => exact hd.elim
    | cons b' xs =>
      obtain ⟨rfl, hxs⟩ := List.cons_prefix_cons.mp hcd
      obtain ⟨rs, hrs, hfits, -⟩ := hd
      exact Or.inr ⟨us, rs, rfl, hus, hrs, hfits.of_prefix hxs⟩

/-- A character at the beginning of a string that begins with `b`. -/
theorem char_of_prefix (hd : IsChar d) (h : d <+: b :: l) :
    ∃ xs rs, d = b :: xs ∧ xs <+: l ∧ tails b = some rs ∧ Fits rs xs ∧ xs.length = rs.length := by
  cases d with
  | nil => exact hd.elim
  | cons b' xs =>
    obtain ⟨rfl, hxs⟩ := List.cons_prefix_cons.mp h
    obtain ⟨rs, hrs, hfits, hlen⟩ := hd
    exact ⟨xs, rs, rfl, hxs, hrs, hfits, hlen⟩

theorem isIll_of_no_tails (hb : tails b = none) : IsIll [b] rest where
  ne_nil := List.cons_ne_nil _ _
  no_char := fun d hd h => by
    obtain ⟨_, _, -, -, hrs, -⟩ := char_of_prefix hd h
    exact nomatch hb.symm.trans hrs
  begins := Or.inl rfl
  longest := fun c' d hd hcd hc => by
    rcases begin_of_prefix hd hcd hc with rfl | ⟨_, _, -, -, hrs, -⟩
    · exact Nat.zero_le _
    · exact nomatch hb.symm.trans hrs

theorem isIll_of_matched_lt (hb : tails b = some rs) (hlt : matched rs rest < rs.length) :
    IsIll (b :: rest.take (matched rs rest)) (rest.drop (matched rs rest)) := by
  have hall : b :: rest.take (matched rs rest) ++ rest.drop (matched rs rest) = b :: rest := by
    rw [List.cons_append, List.take_append_drop]
  refine ⟨List.cons_ne_nil _ _, fun d hd h => ?_, Or.inr ?_, fun c' d hd hcd hc => ?_⟩
  · rw [hall] at h
    obtain ⟨xs, rs', -, hxs, hrs, hfits, hlen⟩ := char_of_prefix hd h
    cases hb.symm.trans hrs
    exact Nat.not_lt.mpr (length_le_matched hxs hfits) (hlen ▸ hlt)
  · obtain ⟨xs, hxs, hfits, hlen⟩ := (fits_take_matched rs rest).extend
    exact ⟨b :: xs, ⟨rs, hb, hfits, hlen⟩, List.cons_prefix_cons.mpr ⟨rfl, hxs⟩⟩
  · rw [hall] at hc
    rcases begin_of_prefix hd hcd hc with rfl | ⟨us, rs', rfl, hus, hrs, hfits⟩
    · exact Nat.zero_le _
    · cases hb.symm.trans hrs
      rw [List.length_cons, List.length_cons, List.length_take,
        Nat.min_eq_left (matched_le_length rs rest)]
      exact Nat.succ_le_succ (length_le_matched hus hfits)

/-- The scanner finds a piece that reads so. -/
theorem reads_scan (h : Reads (rest.drop (scan b rest).2) ps) :
    Reads (b :: rest) ((scan b rest).1 :: ps) := by
  unfold scan at h ⊢
  cases hb : tails b with
  | none =>
    rw [hb] at h
    exact .ill (isIll_of_no_tails hb) h
  | some rs =>
    rw [hb] at h
    dsimp only at h ⊢
    have hall : b :: rest = (b :: rest.take (matched rs rest)) ++ rest.drop (matched rs rest) := by
      rw [List.cons_append, List.take_append_drop]
    rw [hall]
    split at h
    · next hn =>
      rw [if_pos hn]
      refine .char ⟨rs, hb, fits_take_matched rs rest, ?_⟩ h
      rw [List.length_take, Nat.min_eq_left (matched_le_length rs rest), hn]
    · next hn =>
      rw [if_neg hn]
      exact .ill (isIll_of_matched_lt hb (Nat.lt_of_le_of_ne (matched_le rs rest) hn)) h

theorem reads_piecesLoop (fuel : Nat) (l : List UInt8) (hfuel : l.length ≤ fuel) :
    Reads l (piecesLoop fuel l) := by
  induction fuel generalizing l with
  | zero =>
    cases List.length_eq_zero_iff.mp (Nat.le_zero.mp hfuel)
    exact .nil
  | succ fuel ih =>
    cases l with
    | nil => exact .nil
    | cons b rest =>
      refine reads_scan (ih _ ?_)
      rw [List.length_drop]
      exact Nat.le_trans (Nat.sub_le _ _) (Nat.le_of_succ_le_succ hfuel)

theorem reads_pieces (l : List UInt8) : Reads l (pieces l) :=
  reads_piecesLoop l.length l (Nat.le_refl _)

/-! ## One reading -/

/-- No character begins with another one. -/
theorem IsChar.eq_of_prefix (hc : IsChar c) (hd : IsChar d) (h : c <+: d) : c = d := by
  cases d with
  | nil => exact List.prefix_nil.mp h
  | cons b ys =>
    obtain ⟨xs, rs, rfl, hxs, hrs, -, hlen⟩ := char_of_prefix hc h
    obtain ⟨rs', hrs', -, hlen'⟩ := hd
    cases hrs.symm.trans hrs'
    rw [hxs.eq_of_length (hlen.trans hlen'.symm)]

theorem IsChar.unique (hc : IsChar c) (hd : IsChar d) (h : c ++ rest = d ++ rest') : c = d := by
  rcases List.prefix_or_prefix_of_prefix (List.prefix_append c rest) (h ▸ List.prefix_append d rest')
    with hcd | hdc
  · exact hc.eq_of_prefix hd hcd
  · exact (hd.eq_of_prefix hc hdc).symm

/-- An ill-formed piece is at least as long as any other one here. -/
theorem IsIll.length_le {c' : List UInt8} (hc : IsIll c rest) (hc' : IsIll c' rest')
    (h : c ++ rest = c' ++ rest') : c'.length ≤ c.length := by
  rcases hc'.begins with hone | ⟨d, hd, hcd⟩
  · rw [hone]
    exact List.length_pos_of_ne_nil hc.ne_nil
  · exact hc.longest c' d hd hcd (h ▸ List.prefix_append c' rest')

theorem IsIll.unique {c' : List UInt8} (hc : IsIll c rest) (hc' : IsIll c' rest')
    (h : c ++ rest = c' ++ rest') : c = c' :=
  (List.append_inj h (Nat.le_antisymm (hc'.length_le hc h.symm) (hc.length_le hc' h))).1

theorem reads_unique {l' : List UInt8} {qs : List Piece} (h : Reads l ps) (h' : Reads l' qs)
    (hl : l = l') : ps = qs := by
  induction h generalizing l' qs with
  | nil =>
    cases h' with
    | nil => rfl
    | char hc _ =>
      exact absurd (List.append_eq_nil_iff.mp hl.symm).1 fun hnil => (hnil ▸ hc : IsChar [])
    | ill hc _ => exact absurd (List.append_eq_nil_iff.mp hl.symm).1 hc.ne_nil
  | char hc _ ih =>
    cases h' with
    | nil => exact absurd (List.append_eq_nil_iff.mp hl).1 fun hnil => (hnil ▸ hc : IsChar [])
    | char hd h' =>
      cases hc.unique hd hl
      rw [ih h' (List.append_cancel_left hl)]
    | ill hd _ => exact absurd (hl ▸ List.prefix_append _ _) (hd.no_char _ hc)
  | ill hc _ ih =>
    cases h' with
    | nil => exact absurd (List.append_eq_nil_iff.mp hl).1 hc.ne_nil
    | char hd _ => exact absurd (hl.symm ▸ List.prefix_append _ _) (hc.no_char _ hd)
    | ill hd h' =>
      cases hc.unique hd hl
      rw [ih h' (List.append_cancel_left hl)]

theorem lossy_of_reads (h : Reads l ps) : lossy l = ps.flatMap Piece.shown := by
  rw [lossy, reads_unique (reads_pieces l) h rfl]

/-! ## ASCII at the end -/

theorem low_of_tails (h : tails b = some rs) : ∀ r ∈ rs, 0x80 ≤ r.low := by
  revert h
  fun_cases tails b <;> intro h <;> cases h <;> decide

theorem Fits.high {xs : List UInt8} (hrs : ∀ r ∈ rs, 0x80 ≤ r.low) (h : Fits rs xs) :
    ∀ x ∈ xs, 0x80 ≤ x := by
  induction xs generalizing rs with
  | nil => exact nofun
  | cons x xs ih =>
    cases rs with
    | nil => exact h.elim
    | cons r rs =>
      rw [List.forall_mem_cons] at hrs ⊢
      exact ⟨UInt8.le_trans hrs.1 h.1.1, ih hrs.2 h.2⟩

variable {a : UInt8}

theorem isChar_ascii (ha : a < 0x80) : IsChar [a] := ⟨[], if_pos ha, trivial, rfl⟩

/-- An ASCII byte is the first byte of any character it is in. -/
theorem IsChar.ascii_first {t : List UInt8} (hd : IsChar d) (h : t ++ [a] <+: d) (ha : a < 0x80) :
    t = [] := by
  cases t with
  | nil => rfl
  | cons b t =>
    obtain ⟨u, rfl⟩ := h
    obtain ⟨rs, hrs, hfits, -⟩ := hd
    have hhigh : 0x80 ≤ a := hfits.high (low_of_tails hrs) a (by simp)
    exact absurd ha (UInt8.not_lt.mpr hhigh)

theorem IsIll.snoc_ascii (h : IsIll c rest) (ha : a < 0x80) : IsIll c (rest ++ [a]) := by
  -- what begins a character here does not reach the new byte
  have hshort : ∀ d, IsChar d → ∀ c', c' <+: d → c' <+: c ++ (rest ++ [a]) → c' <+: c ++ rest := by
    intro d hd c' hcd hc'
    rw [← List.append_assoc, List.prefix_concat_iff] at hc'
    refine hc'.resolve_left fun heq => ?_
    exact h.ne_nil (List.append_eq_nil_iff.mp (hd.ascii_first (heq ▸ hcd) ha)).1
  refine ⟨h.ne_nil, fun d hd hpre => ?_, h.begins, fun c' d hd hcd hc' => ?_⟩
  · exact h.no_char d hd (hshort d hd d List.prefix_rfl hpre)
  · exact h.longest c' d hd hcd (hshort d hd c' hcd hc')

theorem Reads.snoc_ascii (h : Reads l ps) (ha : a < 0x80) :
    Reads (l ++ [a]) (ps ++ [.char [a]]) := by
  induction h with
  | nil => exact .char (isChar_ascii ha) .nil
  | char hc _ ih =>
    rw [List.append_assoc]
    exact .char hc ih
  | ill hc _ ih =>
    rw [List.append_assoc]
    exact .ill (hc.snoc_ascii ha) ih

theorem lossy_snoc_ascii (l : List UInt8) (ha : a < 0x80) : lossy (l ++ [a]) = lossy l ++ [a] := by
  rw [lossy_of_reads ((reads_pieces l).snoc_ascii ha), List.flatMap_append]
  rfl

theorem lossy_append_ascii (l : List UInt8) {s : List UInt8} (hs : ∀ a ∈ s, a < 0x80) :
    lossy (l ++ s) = lossy l ++ s := by
  induction s using List.reverseRecOn with
  | nil => rw [List.append_nil, List.append_nil]
  | append_singleton s a ih =>
    rw [List.forall_mem_append, List.forall_mem_singleton] at hs
    rw [← List.append_assoc, lossy_snoc_ascii _ hs.2, ih hs.1, List.append_assoc]

theorem lossy_ascii {s : List UInt8} (hs : ∀ a ∈ s, a < 0x80) : lossy s = s :=
  lossy_append_ascii [] hs

theorem Reads.eq_nil (h : Reads l ps) (hshown : ps.flatMap Piece.shown = []) : l = [] := by
  cases h with
  | nil => rfl
  | char hc _ =>
    have hnil := (List.append_eq_nil_iff.mp hshown).1
    exact ((hnil ▸ hc : IsChar [])).elim
  | ill => exact nomatch (List.append_eq_nil_iff.mp hshown).1

/-- The end of a string is the end of its last part, unless this is empty. -/
theorem ends_of_append {x y t : List UInt8} (h : x ++ y = t ++ [a]) :
    y = [] ∨ ∃ t', y = t' ++ [a] := by
  rcases List.eq_nil_or_concat y with rfl | ⟨t', b, rfl⟩
  · exact Or.inl rfl
  · rw [List.concat_eq_append, ← List.append_assoc] at h
    obtain ⟨-, hb⟩ := List.append_inj' h rfl
    exact Or.inr ⟨t', by rw [List.concat_eq_append, hb]⟩

/-- An ASCII byte that is shown last was the last byte. -/
theorem Reads.ends_ascii {t : List UInt8} (h : Reads l ps)
    (hshown : ps.flatMap Piece.shown = t ++ [a]) (ha : a < 0x80) : ∃ l', l = l' ++ [a] := by
  induction h generalizing t with
  | nil => exact absurd hshown.symm (by simp)
  | @char c rest ps hc hrest ih =>
    rcases ends_of_append hshown with hnil | ⟨t', htail⟩
    · have hc : c ++ rest = t ++ [a] := by
        rw [hrest.eq_nil hnil]
        exact (congrArg (c ++ ·) hnil).symm.trans hshown
      exact ⟨t, hc⟩
    · obtain ⟨l', rfl⟩ := ih htail
      exact ⟨c ++ l', (List.append_assoc ..).symm⟩
  | @ill c rest ps hc hrest ih =>
    rcases ends_of_append hshown with hnil | ⟨t', htail⟩
    · -- U+FFFD ends in no ASCII byte
      have hlast : ([0xEF, 0xBF] : List UInt8) ++ [0xBD] = t ++ [a] :=
        (congrArg (Piece.ill.shown ++ ·) hnil).symm.trans hshown
      obtain ⟨-, heq⟩ := List.append_inj' hlast rfl
      cases heq
      exact absurd ha (by decide)
    · obtain ⟨l', rfl⟩ := ih htail
      exact ⟨c ++ l', (List.append_assoc ..).symm⟩

theorem suffix_lossy_iff {s : List UInt8} (hs : ∀ a ∈ s, a < 0x80) : s <:+ lossy l ↔ s <:+ l := by
  constructor
  · intro h
    induction s using List.reverseRecOn generalizing l with
    | nil => exact List.nil_suffix
    | append_singleton s a ih =>
      rw [List.forall_mem_append, List.forall_mem_singleton] at hs
      obtain ⟨t, ht⟩ := h
      rw [← List.append_assoc] at ht
      obtain ⟨l', rfl⟩ := (reads_pieces l).ends_ascii ht.symm hs.2
      rw [lossy_snoc_ascii l' hs.2] at ht
      obtain ⟨u, hu⟩ := ih hs.1 ⟨t, List.append_cancel_right ht⟩
      exact ⟨u, by rw [← List.append_assoc, hu]⟩
  · rintro ⟨t, rfl⟩
    exact ⟨lossy t, (lossy_append_ascii t hs).symm⟩

end Blackwing.Utf8

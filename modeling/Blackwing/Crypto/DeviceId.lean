import Blackwing.Lib.Str
import Blackwing.Transport.Cert

/-!
# The text form of a device id

`Display` and `FromStr` of `DeviceId` in `bw-crypto/src/identity.rs`. A device id is
written as `bw-id-` and 64 lowercase hexadecimal digits. The parser checks the literal,
the length in bytes and that no letter is uppercase, and then hands each two bytes of
the body to `u8::from_str_radix`.

1. `u8FromStrRadix` is a parser of numbers, and a number may have a sign: `+5` is
   accepted as well as `05` (`u8FromStrRadix_pair`).
2. `fromStr_eq_ok_iff`: the accepted texts and what they stand for.
3. `one_text_per_id_iff`: a text is accepted exactly as the id it is the form of, unless
   one of its pairs is written with a plus sign.
4. `fromStr_returns_iff`: the slices are cut at byte positions. The parser panics if,
   behind pairs that it accepts, a pair ends inside a character.
-/

namespace Blackwing.Crypto

open Relay (DeviceId)
open Transport (hexByte displayDeviceId)
open String (utf8Len utf8Len_cons utf8Len_append)

/-- `DEVICE_ID_PREFIX`. -/
def deviceIdPrefix : List Char := ['b', 'w', '-', 'i', 'd', '-']

/-- `DEVICE_ID_STR_LEN`. -/
def deviceIdStrLen : Nat := utf8Len deviceIdPrefix + 64

/-- `DeviceIdParseError`. -/
inductive DeviceIdParseError where
  | invalidPrefix
  | invalidLength
  | invalidHex
  | uppercaseNotAllowed
deriving DecidableEq

/-- `char::to_digit`. -/
def toDigit (radix : Nat) (c : Char) : Option Nat :=
  let digit :=
    if '0' ≤ c ∧ c ≤ '9' then some (c.toNat - '0'.toNat)
    else if 'a' ≤ c ∧ c ≤ 'z' then some (c.toNat - 'a'.toNat + 10)
    else if 'A' ≤ c ∧ c ≤ 'Z' then some (c.toNat - 'A'.toNat + 10)
    else none
  digit.filter (· < radix)

/-- One round of `u8::from_str_radix`: the next digit, unless the number gets too large. -/
def addDigit (radix n : Nat) (c : Char) : Option Nat := do
  let digit ← toDigit radix c
  if n * radix + digit < 256 then some (n * radix + digit) else none

/-- The digits behind a plus sign. -/
def stripPlus : List Char → List Char
  | [] => []
  | c :: s => if c = '+' then s else c :: s

/-- `u8::from_str_radix`. A sign alone is no number; the type has no minus sign. -/
def u8FromStrRadix (radix : Nat) (src : List Char) : Option UInt8 :=
  if stripPlus src = [] then none
  else ((stripPlus src).foldlM (addDigit radix) 0).map UInt8.ofNat

/-- One round of the loop of `from_str`. -/
def parseByte (hexBody : List Char) (bytes : Bytes 32) (i : Nat) :
    Outcome DeviceIdParseError (Bytes 32) := do
  let start := i * 2
  let byteStr ← strSlice hexBody start (start + 2)
  let byte ← .okOr .invalidHex (u8FromStrRadix 16 byteStr)
  pure (bytes.set i byte)

/-- `from_str` on the characters of the text. -/
def parse (s : List Char) : Outcome DeviceIdParseError DeviceId :=
  if ¬ deviceIdPrefix <+: s then .err .invalidPrefix
  else if utf8Len s ≠ deviceIdStrLen then .err .invalidLength
  else do
    let hexBody ← strSlice s (utf8Len deviceIdPrefix) (utf8Len s)
    if hexBody.any Char.isUpper then .err .uppercaseNotAllowed
    else (List.range 32).foldlM (parseByte hexBody) (Bytes.fill 32 0)

/-- `DeviceId::from_str`. -/
def fromStr (s : String) : Outcome DeviceIdParseError DeviceId := parse s.toList

/-! ## Pairs -/

/-- The value of a lowercase hexadecimal digit. -/
def hexValue (c : Char) : Option Nat :=
  if '0' ≤ c ∧ c ≤ '9' then some (c.toNat - '0'.toNat)
  else if 'a' ≤ c ∧ c ≤ 'f' then some (c.toNat - 'a'.toNat + 10)
  else none

/-- The value of a plus sign or a digit in front of a digit. -/
def highValue (c : Char) : Option Nat := if c = '+' then some 0 else hexValue c

/-- The byte that two characters stand for: two digits, or a plus sign and a digit. -/
def pairValue (a b : Char) : Option UInt8 :=
  (highValue a).bind fun high => (hexValue b).map fun low => UInt8.ofNat (high * 16 + low)

/-- The characters stand, two by two, for these bytes. -/
def Reads : List Char → List UInt8 → Prop
  | [], xs => xs = []
  | [_], _ => False
  | a :: b :: s, xs => ∃ x rest, xs = x :: rest ∧ pairValue a b = some x ∧ Reads s rest

namespace DeviceIdLemmas

variable {n : Nat} {a b : Char}

theorem hexValue_digitChar (h : n < 16) : hexValue (Nat.digitChar n) = some n := by
  revert n
  decide

/-- The digits are the ones that are written. -/
theorem hexValue_eq_some {c : Char} (h : hexValue c = some n) : n < 16 ∧ c = Nat.digitChar n := by
  unfold hexValue at h
  split at h
  · next hrange =>
    have hlow : 48 ≤ c.toNat := hrange.1
    have hhigh : c.toNat ≤ 57 := hrange.2
    have hn : c.toNat - 48 = n := Option.some.inj h
    have hchar : ∀ n < 10, Char.ofNat (48 + n) = Nat.digitChar n := by decide
    refine ⟨by omega, ?_⟩
    rw [← hchar n (by omega), ← hn, Nat.add_sub_cancel' hlow, Char.ofNat_toNat]
  · split at h
    · next hrange =>
      have hlow : 97 ≤ c.toNat := hrange.1
      have hhigh : c.toNat ≤ 102 := hrange.2
      have hn : c.toNat - 97 + 10 = n := Option.some.inj h
      have hchar : ∀ k < 6, Char.ofNat (97 + k) = Nat.digitChar (k + 10) := by decide
      refine ⟨by omega, ?_⟩
      rw [← hn, ← hchar (c.toNat - 97) (by omega), Nat.add_sub_cancel' hlow, Char.ofNat_toNat]
    · exact nomatch h

/-- What a digit is like, as a character. -/
theorem hexValue_char {c : Char} (h : hexValue c = some n) :
    c.utf8Size = 1 ∧ c.isUpper = false ∧ c ≠ '+' := by
  obtain ⟨hn, rfl⟩ := hexValue_eq_some h
  revert n
  decide

/-- Without uppercase letters, the digits of the radix 16 are the lowercase ones. -/
theorem toDigit_of_not_upper {c : Char} (h : c.isUpper = false) : toDigit 16 c = hexValue c := by
  have hupper : ¬ ('A' ≤ c ∧ c ≤ 'Z') := of_decide_eq_false h
  unfold toDigit hexValue
  dsimp only
  rw [if_neg hupper]
  by_cases hdigit : '0' ≤ c ∧ c ≤ '9'
  · have hhigh : c.toNat ≤ 57 := hdigit.2
    have hlt : c.toNat - '0'.toNat < 16 := by
      show c.toNat - 48 < 16
      omega
    rw [if_pos hdigit, if_pos hdigit, Option.filter_some, if_pos (decide_eq_true hlt)]
  · rw [if_neg hdigit, if_neg hdigit]
    by_cases hletter : 'a' ≤ c ∧ c ≤ 'z'
    · have hlow : 97 ≤ c.toNat := hletter.1
      have hlt : c.toNat - 'a'.toNat + 10 < 16 ↔ c ≤ 'f' := by
        show c.toNat - 97 + 10 < 16 ↔ c.toNat ≤ 102
        omega
      rw [if_pos hletter, Option.filter_some]
      by_cases hhex : c ≤ 'f'
      · rw [if_pos (decide_eq_true (hlt.mpr hhex)), if_pos ⟨hletter.1, hhex⟩]
      · rw [if_neg fun hdec => hhex (hlt.mp (of_decide_eq_true hdec)),
          if_neg fun hrange => hhex hrange.2]
    · have hhex : ¬ ('a' ≤ c ∧ c ≤ 'f') := fun hrange =>
        hletter ⟨hrange.1, Char.le_trans hrange.2 (by decide)⟩
      rw [if_neg hletter, if_neg hhex]
      rfl

theorem addDigit_of_lt {c : Char} (hn : n < 16) (hc : c.isUpper = false) :
    addDigit 16 n c = (hexValue c).map (n * 16 + ·) := by
  unfold addDigit
  rw [toDigit_of_not_upper hc]
  cases hvalue : hexValue c with
  | none => rfl
  | some digit =>
    obtain ⟨hlt, -⟩ := hexValue_eq_some hvalue
    exact if_pos (by omega)

/-- What the number parser makes of two characters. -/
theorem u8FromStrRadix_pair (ha : a.isUpper = false) (hb : b.isUpper = false) :
    u8FromStrRadix 16 [a, b] = pairValue a b := by
  unfold u8FromStrRadix pairValue highValue
  by_cases hplus : a = '+'
  · have hstrip : stripPlus [a, b] = [b] := if_pos hplus
    rw [hstrip, if_pos hplus, if_neg (List.cons_ne_nil _ _), List.foldlM_cons,
      addDigit_of_lt (by decide) hb]
    cases hexValue b <;> rfl
  · have hstrip : stripPlus [a, b] = [a, b] := if_neg hplus
    rw [hstrip, if_neg hplus, if_neg (List.cons_ne_nil _ _), List.foldlM_cons,
      addDigit_of_lt (by decide) ha]
    cases hhigh : hexValue a with
    | none => rfl
    | some high =>
      obtain ⟨hlt, -⟩ := hexValue_eq_some hhigh
      rw [Option.map_some, Nat.zero_mul, Nat.zero_add]
      show Option.map UInt8.ofNat ([b].foldlM (addDigit 16) high) = _
      rw [List.foldlM_cons, addDigit_of_lt hlt hb]
      cases hexValue b <;> rfl

/-- A character of two bytes is not a number. -/
theorem u8FromStrRadix_wide (h : a.utf8Size = 2) : u8FromStrRadix 16 [a] = none := by
  have hplus : a ≠ '+' := by
    rintro rfl
    exact absurd h (by decide)
  have hupper : a.isUpper = false := by
    refine Bool.eq_false_iff.mpr fun hup => ?_
    have hle : a.val ≤ 'Z'.val := (of_decide_eq_true hup).2
    have hone : a.utf8Size = 1 := Char.utf8Size_eq_one_iff.mpr (UInt32.le_trans hle (by decide))
    omega
  have hstrip : stripPlus [a] = [a] := if_neg hplus
  unfold u8FromStrRadix
  rw [hstrip, if_neg (List.cons_ne_nil _ _), List.foldlM_cons, addDigit_of_lt (by decide) hupper]
  cases hvalue : hexValue a with
  | none => rfl
  | some n => exact absurd ((hexValue_char hvalue).1.symm.trans h) (by decide)

/-! ### The loop -/

/-- The loop of `from_str` as a reader of the body from the front. -/
def readPairs : Nat → List Char → Outcome DeviceIdParseError (List UInt8)
  | 0, _ => .ok []
  | n + 1, s =>
    match splitAtByte 2 s with
    | none => .panicked
    | some (byteStr, rest) => do
      let x ← .okOr .invalidHex (u8FromStrRadix 16 byteStr)
      let xs ← readPairs n rest
      pure (x :: xs)

theorem loop_eq_readPairs (n : Nat) {i : Nat} {done : List Char} (hdone : utf8Len done = i * 2)
    (rest : List Char) (bytes : Bytes 32) :
    (List.range' i n).foldlM (parseByte (done ++ rest)) bytes =
      readPairs n rest >>= fun xs => .ok (bytes.writeFrom i xs) := by
  induction n generalizing i done rest bytes with
  | zero => rfl
  | succ n ih =>
    have hslice : (strSlice (done ++ rest) (i * 2) (i * 2 + 2) : Outcome DeviceIdParseError _) =
        match splitAtByte 2 rest with
        | none => .panicked
        | some (byteStr, _) => .ok byteStr := by
      rw [← hdone]
      exact strSlice_append done rest 2
    rw [List.range'_succ, List.foldlM_cons, parseByte, hslice, readPairs]
    cases hsplit : splitAtByte 2 rest with
    | none => rfl
    | some p =>
      obtain ⟨byteStr, rest'⟩ := p
      obtain ⟨rfl, hlen⟩ := eq_append_of_splitAtByte hsplit
      cases hbyte : u8FromStrRadix 16 byteStr with
      | none => simp [Outcome.okOr, hbyte]
      | some x =>
        have hdone' : utf8Len (done ++ byteStr) = (i + 1) * 2 := by
          rw [utf8Len_append, hdone, hlen, Nat.succ_mul]
        have htail := ih hdone' rest' (bytes.set i x)
        rw [List.append_assoc] at htail
        simp only [Outcome.okOr, Outcome.ok_bind, Outcome.pure_eq, hbyte]
        rw [htail]
        cases readPairs n rest' with
        | ok xs => rfl
        | err e => rfl
        | panicked => rfl

/-! ### What the loop accepts -/

theorem pairValue_char {x : UInt8} (h : pairValue a b = some x) :
    a.utf8Size = 1 ∧ a.isUpper = false ∧ b.utf8Size = 1 ∧ b.isUpper = false ∧ b ≠ '+' := by
  unfold pairValue at h
  obtain ⟨high, hhigh, hmap⟩ := Option.bind_eq_some_iff.mp h
  obtain ⟨low, hlow, -⟩ := Option.map_eq_some_iff.mp hmap
  obtain ⟨hsize, hupper, hplus⟩ := hexValue_char hlow
  unfold highValue at hhigh
  split at hhigh
  · next h =>
    subst h
    exact ⟨by decide, by decide, hsize, hupper, hplus⟩
  · obtain ⟨hsize', hupper', -⟩ := hexValue_char hhigh
    exact ⟨hsize', hupper', hsize, hupper, hplus⟩

theorem Reads.chars : ∀ {s : List Char} {xs : List UInt8}, Reads s xs →
    utf8Len s = xs.length * 2 ∧ ∀ c ∈ s, c.isUpper = false
  | [], xs, h => by
    cases h
    exact ⟨rfl, nofun⟩
  | [_], _, h => h.elim
  | a :: b :: s, xs, ⟨x, rest, hxs, hpair, hrest⟩ => by
    obtain ⟨hlen, hupper⟩ := Reads.chars hrest
    obtain ⟨ha, hua, hb, hub, -⟩ := pairValue_char hpair
    subst hxs
    refine ⟨?_, ?_⟩
    · rw [utf8Len_cons, utf8Len_cons, ha, hb, hlen, List.length_cons, Nat.succ_mul]
    · intro c hc
      rcases List.mem_cons.mp hc with rfl | hc
      · exact hua
      rcases List.mem_cons.mp hc with rfl | hc
      · exact hub
      · exact hupper c hc

/-- Two bytes that do not end with a character are not a pair. -/
theorem pairValue_of_breaksPair {t : List Char} (h : BreaksPair (a :: b :: t)) :
    pairValue a b = none := by
  refine Option.eq_none_iff_forall_not_mem.mpr fun x hpair => ?_
  obtain ⟨ha, -, hb, -, -⟩ := pairValue_char hpair
  rcases h with hlong | ⟨-, hlong⟩
  · exact absurd (ha ▸ hlong) (by decide)
  · exact absurd (hb ▸ hlong) (by decide)

variable {s : List Char}

/-- One round of the loop reads a pair, ends with an error, or panics. -/
theorem readPairs_succ_cases (n : Nat) (hlen : 2 ≤ utf8Len s) (hupper : ∀ c ∈ s, c.isUpper = false) :
    (∃ a b t x, s = a :: b :: t ∧ pairValue a b = some x ∧
      readPairs (n + 1) s = readPairs n t >>= fun xs => .ok (x :: xs)) ∨
    ((∀ a b t, s = a :: b :: t → pairValue a b = none) ∧ ¬ BreaksPair s ∧
      readPairs (n + 1) s = .err .invalidHex) ∨
    ((∀ a b t, s = a :: b :: t → pairValue a b = none) ∧ BreaksPair s ∧
      readPairs (n + 1) s = .panicked) := by
  rw [readPairs]
  rcases splitAtByte_two_cases hlen with
    ⟨a, b, t, rfl, ha, hb, hsplit⟩ | ⟨a, t, rfl, ha, hsplit⟩ | ⟨hbreak, hsplit⟩
  · rw [hsplit]
    dsimp only
    rw [u8FromStrRadix_pair (hupper a (by simp)) (hupper b (by simp))]
    cases hpair : pairValue a b with
    | none =>
      refine Or.inr (Or.inl ⟨?_, ?_, rfl⟩)
      · rintro _ _ _ ⟨⟩
        exact hpair
      · rintro (hlong | ⟨-, hlong⟩)
        · exact absurd (ha ▸ hlong) (by decide)
        · exact absurd (hb ▸ hlong) (by decide)
    | some x => exact Or.inl ⟨a, b, t, x, rfl, hpair, rfl⟩
  · -- one character of two bytes
    rw [hsplit]
    dsimp only
    rw [u8FromStrRadix_wide ha]
    refine Or.inr (Or.inl ⟨?_, ?_, rfl⟩)
    · rintro _ _ _ ⟨⟩
      refine Option.eq_none_iff_forall_not_mem.mpr fun x hpair => ?_
      exact absurd ((pairValue_char hpair).1.symm.trans ha) (by decide)
    · intro hbreak
      cases t with
      | nil =>
        have hlong : 3 ≤ a.utf8Size := hbreak
        exact absurd (ha ▸ hlong) (by decide)
      | cons b t =>
        rcases hbreak with hlong | ⟨hone, -⟩
        · exact absurd (ha ▸ hlong) (by decide)
        · exact absurd (ha.symm.trans hone) (by decide)
  · rw [hsplit]
    refine Or.inr (Or.inr ⟨?_, hbreak, rfl⟩)
    rintro _ _ _ rfl
    exact pairValue_of_breaksPair hbreak

/-- The text and its bytes behind the first pair. -/
theorem behind_pair {t : List Char} {x : UInt8} (hpair : pairValue a b = some x)
    (hlen : utf8Len (a :: b :: t) = (n + 1) * 2) (hupper : ∀ c ∈ a :: b :: t, c.isUpper = false) :
    utf8Len t = n * 2 ∧ ∀ c ∈ t, c.isUpper = false := by
  obtain ⟨ha, -, hb, -, -⟩ := pairValue_char hpair
  rw [utf8Len_cons, utf8Len_cons, ha, hb] at hlen
  exact ⟨by omega, fun c hc => hupper c (List.mem_cons_of_mem _ (List.mem_cons_of_mem _ hc))⟩

/-- On a body of the right length, without uppercase letters, the loop returns exactly the bytes
that the characters stand for. -/
theorem readPairs_eq_ok_iff (hlen : utf8Len s = n * 2) (hupper : ∀ c ∈ s, c.isUpper = false)
    {xs : List UInt8} :
    readPairs n s = .ok xs ↔ Reads s xs := by
  induction n generalizing s xs with
  | zero =>
    cases String.utf8Len_eq_zero.mp (hlen.trans (Nat.zero_mul 2))
    rw [readPairs, Outcome.ok.injEq]
    exact eq_comm
  | succ n ih =>
    have hno : (∀ a b t, s = a :: b :: t → pairValue a b = none) → ¬ Reads s xs := by
      intro hnone hreads
      match s, hreads with
      | [], _ => exact absurd hlen (by rw [Nat.succ_mul]; exact Nat.ne_of_lt (Nat.succ_pos _))
      | a :: b :: t, ⟨x, rest, _, hpair, _⟩ => exact nomatch (hnone a b t rfl).symm.trans hpair
    rcases readPairs_succ_cases n (by omega) hupper with
      ⟨a, b, t, x, rfl, hpair, hround⟩ | ⟨hnone, -, hround⟩ | ⟨hnone, -, hround⟩
    · obtain ⟨hlen', hupper'⟩ := behind_pair hpair hlen hupper
      rw [hround, Outcome.bind_eq_ok]
      constructor
      · rintro ⟨rest, hrest, hxs⟩
        cases hxs
        exact ⟨x, rest, rfl, hpair, (ih hlen' hupper').mp hrest⟩
      · rintro ⟨x', rest, rfl, hpair', hrest⟩
        cases hpair.symm.trans hpair'
        exact ⟨rest, (ih hlen' hupper').mpr hrest, rfl⟩
    · rw [hround]
      exact iff_of_false nofun (hno hnone)
    · rw [hround]
      exact iff_of_false nofun (hno hnone)

/-- It panics exactly if, behind characters that it accepts, a pair ends inside a character. -/
theorem readPairs_eq_panicked_iff (hlen : utf8Len s = n * 2) (hupper : ∀ c ∈ s, c.isUpper = false) :
    readPairs n s = .panicked ↔
      ∃ done rest xs, s = done ++ rest ∧ Reads done xs ∧ BreaksPair rest := by
  induction n generalizing s with
  | zero =>
    cases String.utf8Len_eq_zero.mp (hlen.trans (Nat.zero_mul 2))
    refine iff_of_false nofun ?_
    rintro ⟨done, rest, xs, happend, -, hbreak⟩
    obtain ⟨-, rfl⟩ := List.append_eq_nil_iff.mp happend.symm
    exact hbreak
  | succ n ih =>
    rcases readPairs_succ_cases n (by omega) hupper with
      ⟨a, b, t, x, rfl, hpair, hround⟩ | ⟨hnone, hbreak, hround⟩ | ⟨hnone, hbreak, hround⟩
    · obtain ⟨hlen', hupper'⟩ := behind_pair hpair hlen hupper
      have hpanic : (readPairs n t >>= fun xs => .ok (x :: xs)) = .panicked ↔
          readPairs n t = .panicked := by
        cases readPairs n t with
        | ok xs => exact iff_of_false nofun nofun
        | err e => exact iff_of_false nofun nofun
        | panicked => exact iff_of_true rfl rfl
      rw [hround, hpanic, ih hlen' hupper']
      constructor
      · rintro ⟨done, rest, xs, rfl, hdone, hrest⟩
        exact ⟨a :: b :: done, rest, x :: xs, rfl, ⟨x, xs, rfl, hpair, hdone⟩, hrest⟩
      · rintro ⟨done, rest, xs, happend, hdone, hrest⟩
        match done, hdone with
        | [], _ =>
          have hbreak : BreaksPair (a :: b :: t) := happend ▸ hrest
          exact nomatch hpair.symm.trans (pairValue_of_breaksPair hbreak)
        | a' :: b' :: done, ⟨_, xs, _, _, hdone⟩ =>
          cases happend
          exact ⟨done, rest, xs, rfl, hdone, hrest⟩
    · rw [hround]
      refine iff_of_false nofun ?_
      rintro ⟨done, rest, xs, rfl, hdone, hrest⟩
      match done, hdone with
      | [], _ => exact hbreak hrest
      | a :: b :: done, ⟨x, _, _, hpair, _⟩ => exact nomatch (hnone _ _ _ rfl).symm.trans hpair
    · rw [hround]
      exact iff_of_true rfl ⟨[], s, [], rfl, rfl, hbreak⟩

/-! ### The whole text -/

theorem utf8Len_deviceIdPrefix : utf8Len deviceIdPrefix = 6 := by decide

/-- Behind the checks, the result is the one of the loop. -/
theorem parse_of_body {body : List Char} (hlen : utf8Len body = 64)
    (hupper : ∀ c ∈ body, c.isUpper = false) :
    parse (deviceIdPrefix ++ body) =
      readPairs 32 body >>= fun xs => .ok ((Bytes.fill 32 0).writeFrom 0 xs) := by
  have hany : body.any Char.isUpper = false :=
    List.any_eq_false.mpr fun c hc => Bool.eq_false_iff.mp (hupper c hc)
  have hloop := @loop_eq_readPairs 32 0 [] rfl body (Bytes.fill 32 0)
  unfold parse
  rw [if_neg (not_not.mpr (List.prefix_append _ _)),
    if_neg (not_not.mpr (by rw [utf8Len_append, hlen]; rfl)), strSlice_to_end, Outcome.ok_bind,
    hany, if_neg Bool.false_ne_true, List.range_eq_range']
  exact hloop

/-- The checks turn away everything else with an error. -/
theorem parse_cases (s : List Char) :
    (∃ body, s = deviceIdPrefix ++ body ∧ utf8Len body = 64 ∧ ∀ c ∈ body, c.isUpper = false) ∨
    ∃ e, parse s = .err e := by
  unfold parse
  split
  · exact Or.inr ⟨_, rfl⟩
  · next hprefix =>
    obtain ⟨body, rfl⟩ := not_not.mp hprefix
    split
    · exact Or.inr ⟨_, rfl⟩
    · next hlen =>
      rw [strSlice_to_end, Outcome.ok_bind]
      split
      · exact Or.inr ⟨_, rfl⟩
      · next hany =>
        refine Or.inl ⟨body, rfl, ?_, fun c hc => ?_⟩
        · have htotal := not_not.mp hlen
          rw [utf8Len_append, deviceIdStrLen] at htotal
          exact Nat.add_left_cancel htotal
        · exact Bool.eq_false_iff.mpr fun hup => hany (List.any_eq_true.mpr ⟨c, hc, hup⟩)

theorem parse_eq_ok_iff {d : DeviceId} :
    parse s = .ok d ↔ ∃ body, s = deviceIdPrefix ++ body ∧ Reads body d.toList := by
  constructor
  · intro hok
    rcases parse_cases s with ⟨body, rfl, hlen, hupper⟩ | ⟨e, herr⟩
    · rw [parse_of_body hlen hupper] at hok
      obtain ⟨xs, hxs, hd⟩ := Outcome.bind_eq_ok.mp hok
      have hreads := (readPairs_eq_ok_iff (n := 32) hlen hupper).mp hxs
      have hcount : xs.length = 32 := by
        have htotal := (Reads.chars hreads).1
        omega
      cases hd
      refine ⟨body, rfl, ?_⟩
      rwa [Bytes.toList_writeFrom_zero _ hcount]
    · exact nomatch hok.symm.trans herr
  · rintro ⟨body, rfl, hreads⟩
    obtain ⟨hlen, hupper⟩ := Reads.chars hreads
    rw [Bytes.length_toList] at hlen
    rw [parse_of_body hlen hupper, (readPairs_eq_ok_iff (n := 32) hlen hupper).mpr hreads,
      Outcome.ok_bind]
    exact congrArg Outcome.ok (Bytes.toList_injective (Bytes.toList_writeFrom_zero _ d.length_toList))

theorem parse_eq_panicked_iff :
    parse s = .panicked ↔
      ∃ done rest xs, s = deviceIdPrefix ++ (done ++ rest) ∧ utf8Len s = 70 ∧
        (∀ c ∈ done ++ rest, c.isUpper = false) ∧ Reads done xs ∧ BreaksPair rest := by
  constructor
  · intro hpanic
    rcases parse_cases s with ⟨body, rfl, hlen, hupper⟩ | ⟨e, herr⟩
    · rw [parse_of_body hlen hupper] at hpanic
      have hloop : readPairs 32 body = .panicked := by
        cases hread : readPairs 32 body with
        | ok xs => exact nomatch hread ▸ hpanic
        | err e => exact nomatch hread ▸ hpanic
        | panicked => rfl
      obtain ⟨done, rest, xs, rfl, hdone, hrest⟩ :=
        (readPairs_eq_panicked_iff (n := 32) hlen hupper).mp hloop
      refine ⟨done, rest, xs, rfl, ?_, hupper, hdone, hrest⟩
      rw [utf8Len_append, hlen, utf8Len_deviceIdPrefix]
    · exact nomatch hpanic.symm.trans herr
  · rintro ⟨done, rest, xs, rfl, hlen, hupper, hdone, hrest⟩
    have hbody : utf8Len (done ++ rest) = 64 := by
      rw [utf8Len_append, utf8Len_deviceIdPrefix] at hlen
      omega
    rw [parse_of_body hbody hupper, (readPairs_eq_panicked_iff (n := 32) hbody hupper).mpr
      ⟨done, rest, xs, rfl, hdone, hrest⟩]
    rfl

/-! ### The written form -/

/-- The two digits of a byte. -/
def byteChars (x : UInt8) : List Char := [Nat.digitChar (x.toNat / 16), Nat.digitChar (x.toNat % 16)]

theorem toList_displayDeviceId (d : DeviceId) :
    (displayDeviceId d).toList = deviceIdPrefix ++ d.toList.flatMap byteChars := by
  unfold displayDeviceId
  rw [String.toList_append, String.toList_join, List.flatMap_map]
  congr 1
  exact List.flatMap_congr fun x _ => String.toList_ofList

theorem pairValue_byteChars (x : UInt8) :
    pairValue (Nat.digitChar (x.toNat / 16)) (Nat.digitChar (x.toNat % 16)) = some x := by
  have hx := x.toNat_lt
  have hhigh := hexValue_digitChar (n := x.toNat / 16) (by omega)
  have hlow := hexValue_digitChar (n := x.toNat % 16) (by omega)
  have hsum : x.toNat / 16 * 16 + x.toNat % 16 = x.toNat := by omega
  unfold pairValue highValue
  rw [if_neg (hexValue_char hhigh).2.2, hhigh, hlow]
  show some (UInt8.ofNat (x.toNat / 16 * 16 + x.toNat % 16)) = some x
  rw [hsum, UInt8.ofNat_toNat]

theorem reads_byteChars (xs : List UInt8) : Reads (xs.flatMap byteChars) xs := by
  induction xs with
  | nil => rfl
  | cons x xs ih => exact ⟨x, xs, rfl, pairValue_byteChars x, ih⟩

/-- A pair without a plus sign is the two digits of its byte. -/
theorem eq_byteChars_of_pairValue {x : UInt8} (h : pairValue a b = some x) (hplus : a ≠ '+') :
    [a, b] = byteChars x := by
  unfold pairValue highValue at h
  rw [if_neg hplus] at h
  obtain ⟨high, hhigh, hmap⟩ := Option.bind_eq_some_iff.mp h
  obtain ⟨low, hlow, rfl⟩ := Option.map_eq_some_iff.mp hmap
  obtain ⟨hlt, rfl⟩ := hexValue_eq_some hhigh
  obtain ⟨hlt', rfl⟩ := hexValue_eq_some hlow
  have hx : (UInt8.ofNat (high * 16 + low)).toNat = high * 16 + low := by
    rw [UInt8.toNat_ofNat']
    omega
  have hdiv : (high * 16 + low) / 16 = high := by omega
  have hmod : (high * 16 + low) % 16 = low := by omega
  rw [byteChars, hx, hdiv, hmod]

/-- What is read without a plus sign is the written form of what it stands for. -/
theorem eq_flatMap_of_reads : ∀ {s : List Char} {xs : List UInt8}, Reads s xs → '+' ∉ s →
    s = xs.flatMap byteChars
  | [], xs, h, _ => by
    cases h
    rfl
  | [_], _, h, _ => h.elim
  | a :: b :: s, xs, ⟨x, rest, hxs, hpair, hrest⟩, hplus => by
    rw [List.mem_cons, List.mem_cons, not_or, not_or] at hplus
    have htail := eq_flatMap_of_reads hrest hplus.2.2
    have hhead := eq_byteChars_of_pairValue hpair (Ne.symm hplus.1)
    rw [hxs, List.flatMap_cons, ← hhead, ← htail]
    rfl

theorem plus_not_mem_flatMap (xs : List UInt8) : '+' ∉ xs.flatMap byteChars := by
  intro hmem
  obtain ⟨x, -, hx⟩ := List.mem_flatMap.mp hmem
  have hlt := x.toNat_lt
  have hhigh := hexValue_digitChar (n := x.toNat / 16) (by omega)
  have hlow := hexValue_digitChar (n := x.toNat % 16) (by omega)
  rcases List.mem_cons.mp hx with h | h
  · exact (hexValue_char hhigh).2.2 h.symm
  · exact (hexValue_char hlow).2.2 (List.mem_singleton.mp h).symm

end DeviceIdLemmas

open DeviceIdLemmas

/-- The accepted texts, and the device ids they stand for. -/
theorem fromStr_eq_ok_iff {s : String} {d : DeviceId} :
    fromStr s = .ok d ↔ ∃ body, s.toList = deviceIdPrefix ++ body ∧ Reads body d.toList :=
  parse_eq_ok_iff

theorem fromStr_displayDeviceId (d : DeviceId) : fromStr (displayDeviceId d) = .ok d :=
  fromStr_eq_ok_iff.mpr ⟨_, toList_displayDeviceId d, reads_byteChars d.toList⟩

/-- The text has 32 pairs behind the literal, and one of them is a plus sign and a digit. -/
def SignedPair (s : String) : Prop :=
  ∃ (body : List Char) (bytes : Bytes 32), s.toList = deviceIdPrefix ++ body ∧
    Reads body bytes.toList ∧ '+' ∈ body

/-- For every text, whatever the device id: it is accepted as that id if and only if it is the
written form of it, unless a pair of the text has a plus sign. -/
theorem one_text_per_id_iff (s : String) :
    (∀ d, fromStr s = .ok d ↔ s = displayDeviceId d) ↔ ¬ SignedPair s := by
  constructor
  · rintro hform ⟨body, bytes, hs, hreads, hplus⟩
    have hok : fromStr s = .ok bytes := fromStr_eq_ok_iff.mpr ⟨body, hs, hreads⟩
    have hdisplay := congrArg String.toList ((hform bytes).mp hok)
    rw [hs, toList_displayDeviceId] at hdisplay
    rw [List.append_cancel_left hdisplay] at hplus
    exact plus_not_mem_flatMap _ hplus
  · intro hsigned d
    constructor
    · intro hok
      obtain ⟨body, hs, hreads⟩ := fromStr_eq_ok_iff.mp hok
      have hplus : '+' ∉ body := fun hmem =>
        hsigned ⟨body, d, hs, hreads, hmem⟩
      apply String.toList_injective
      rw [hs, toList_displayDeviceId, eq_flatMap_of_reads hreads hplus]
    · rintro rfl
      exact fromStr_displayDeviceId d

/-- Two texts of one device id. -/
theorem plus_sign_accepted :
    fromStr (String.ofList (deviceIdPrefix ++ ['+', '7'] ++ List.replicate 62 '0')) =
        fromStr (String.ofList (deviceIdPrefix ++ ['0', '7'] ++ List.replicate 62 '0')) ∧
      fromStr (String.ofList (deviceIdPrefix ++ ['+', '7'] ++ List.replicate 62 '0')) =
        .ok ((Bytes.fill 32 0).set 0 7) ∧
      String.ofList (deviceIdPrefix ++ ['+', '7'] ++ List.replicate 62 '0') ≠
        displayDeviceId ((Bytes.fill 32 0).set 0 7) := by
  decide +kernel

/-- The parser returns on every text but those of 70 bytes, without uppercase letters, in which
some pairs that it accepts are followed by two bytes that do not end with a character. -/
theorem fromStr_returns_iff (s : String) :
    fromStr s ≠ .panicked ↔
      ¬ ∃ done rest xs, s.toList = deviceIdPrefix ++ (done ++ rest) ∧ utf8Len s.toList = 70 ∧
        (∀ c ∈ done ++ rest, c.isUpper = false) ∧ Reads done xs ∧ BreaksPair rest :=
  not_congr parse_eq_panicked_iff

/-- A text of 70 bytes: the literal, a digit, a character of two bytes, and 61 digits. -/
theorem fromStr_panics :
    fromStr (String.ofList (deviceIdPrefix ++ ['0', 'é'] ++ List.replicate 61 '0')) =
      .panicked := by
  decide +kernel

end Blackwing.Crypto

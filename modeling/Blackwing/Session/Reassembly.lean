import Blackwing.Session.Fragments
import Mathlib.Data.List.TakeWhile

/-!
# Reassembly after an error

A call that rejects a message stops in the middle of it. The fragments it did not read stay in the
channel, and the next call takes the first of them for the start of a message. A message over the
limit is therefore read in blocks: seventy fragments are over the limit, so every call but the last
takes seventy of them and fails; where the fifteen-bit index wraps, a call takes fewer and fails.
What the last call finds is returned if it fits.

* `Whole`: the lengths of which no part is returned.
* `returnedBy`: what the calls that read a message return of it.
* `reassembly_sound`: what is returned is a subsequence of the messages sent exactly when all of
  them have such a length.
-/

namespace Blackwing.Session

open Protocol FragmentsLemmas FifoLemmas

/-! ## What is left of a message -/

/-- The number of fragments that a call reads before it fails: sixty-nine full fragments fit the
limit. -/
def fragmentsPerCall : Nat := 70

/-- The fragment at which the last call that reads a message of `n` fragments starts. After
`2 ^ 15` fragments the index wraps; the call that meets the wrap fails on the fragment after it. -/
def tailStart (n : Nat) : Nat :=
  let base := if n ≤ 2 ^ 15 then 0 else 2 ^ 15 + 1
  base + fragmentsPerCall * ((n - base - 1) / fragmentsPerCall)

/-- The last call that reads a message of this length has something to read, and it fits the
limit. -/
def TailFits (len : Nat) : Prop :=
  tailStart (fragmentCount len) < fragmentCount len ∧
    len ≤ fragmentSize * tailStart (fragmentCount len) + maxReassembledSize

/-- No part of a message of this length is taken for a message. -/
def Whole (len : Nat) : Prop := len ≤ maxReassembledSize ∨ ¬ TailFits len

instance (len : Nat) : Decidable (TailFits len) := by unfold TailFits; infer_instance

instance (len : Nat) : Decidable (Whole len) := by unfold Whole; infer_instance

/-- What the calls that read a message return. -/
def returnedBy (m : List UInt8) : List (List UInt8) :=
  if TailFits m.length then [m.drop (fragmentSize * tailStart (fragmentCount m.length))] else []

/-- No part of a message in the list is taken for a message. A message of more than `2 ^ 16`
fragments overflows the index of the sender and ends the list. -/
def AllWhole (ms : List (List UInt8)) : Prop :=
  ∀ m ∈ ms.takeWhile (fun m => m.length ≤ fragmentSize * 2 ^ 16), Whole m.length

/-- However many calls the receiver makes, what they return is a subsequence of the messages that
were sent. -/
def ReturnsOnlySent {ε : Type} (send : List UInt8 → Call (List OwnedProtocolFrame) ε Unit)
    (recv : Call (List OwnedProtocolFrame) ε (List UInt8)) (ms : List (List UInt8)) : Prop :=
  ∀ calls, (recv.attempts calls (Call.forEach send ms []).2).1.Sublist (Call.completed send ms [])

namespace ReassemblyLemmas

variable {σ ε : Type} {F : Fifo σ ε OwnedProtocolFrame} {outOfOrder : ε} {oversized : Nat → ε}
  {m : List UInt8} {j c : Nat}

/-- A block of seventy fragments, the last of them too large for the rest of the limit, is read by
one call, which fails. -/
theorem consumes_oversized (hindex : j % 2 ^ 15 + 70 ≤ 2 ^ 15)
    (hsize : fragmentSize * j + maxReassembledSize < m.length) :
    Consumes F (recvJoined F.recv outOfOrder oversized) (fragmentsFrom m j 70) 1 [] := by
  have hmore : fragmentSize * (j + 69) < m.length := by
    unfold fragmentSize maxReassembledSize at *
    omega
  have hover : maxReassembledSize < fragmentSize * 69 + (chunk m (j + 69)).length := by
    rw [length_chunk]
    unfold fragmentSize maxReassembledSize at *
    omega
  exact consumes_of_err fun s l hs =>
    recvJoined_oversized outOfOrder oversized (by decide) (by omega) hmore (by decide) hover hs

/-- The last fragments of a message, where the index does not wrap. -/
theorem consumes_rest (hc : 0 < c) (hindex : j % 2 ^ 15 + c ≤ 2 ^ 15)
    (hmore : c = 1 ∨ fragmentSize * (j + (c - 1)) < m.length)
    (hlast : m.length ≤ fragmentSize * (j + c)) :
    ∃ calls, Consumes F (recvJoined F.recv outOfOrder oversized) (fragmentsFrom m j c) calls
      (if m.length ≤ fragmentSize * (j + 70 * ((c - 1) / 70)) + maxReassembledSize then
        [m.drop (fragmentSize * (j + 70 * ((c - 1) / 70)))] else []) := by
  induction c using Nat.strong_induction_on generalizing j with
  | _ c ih =>
    by_cases hone : c ≤ 70
    · -- One call reads what is left.
      have hzero : (c - 1) / 70 = 0 := by omega
      obtain ⟨k, rfl⟩ : ∃ k, c = k + 1 := ⟨c - 1, by omega⟩
      refine ⟨1, ?_⟩
      rw [hzero, Nat.mul_zero, Nat.add_zero]
      split
      · next hfits =>
        have hmore' : k = 0 ∨ fragmentSize * (j + k) < m.length := hmore.imp Nat.succ.inj id
        exact consumes_of_ok fun s l hs =>
          recvJoined_returns outOfOrder oversized (by omega) hmore' hlast hfits hs
      · next hover =>
        obtain rfl : k = 69 := by
          unfold fragmentSize maxReassembledSize at *
          omega
        exact consumes_oversized hindex (Nat.not_le.mp hover)
    · -- One call fails, and the others read what is left.
      obtain ⟨d, rfl⟩ : ∃ d, c = 70 + d := ⟨c - 70, by omega⟩
      have hover : fragmentSize * j + maxReassembledSize < m.length := by
        unfold fragmentSize maxReassembledSize at *
        omega
      have hmore' : fragmentSize * (j + 70 + (d - 1)) < m.length := by
        unfold fragmentSize at *
        omega
      have hstart : j + 70 + 70 * ((d - 1) / 70) = j + 70 * ((70 + d - 1) / 70) := by omega
      obtain ⟨calls, hrest⟩ := ih d (by omega) (by omega) (by omega) (Or.inr hmore')
        (by rwa [Nat.add_assoc])
      rw [hstart] at hrest
      refine ⟨1 + calls, ?_⟩
      rw [fragmentsFrom_append]
      exact consumes_append (consumes_oversized (by omega) hover) hrest

/-- The fragments of a message up to the one after the index wraps. -/
theorem consumes_wrap (hc : c % 70 ≠ 0) (hindex : j % 2 ^ 15 + c = 2 ^ 15)
    (hmore : fragmentSize * (j + c) < m.length) :
    ∃ calls, Consumes F (recvJoined F.recv outOfOrder oversized) (fragmentsFrom m j (c + 1))
      calls [] := by
  induction c using Nat.strong_induction_on generalizing j with
  | _ c ih =>
    by_cases hone : c < 70
    · have hfits : fragmentSize * c ≤ maxReassembledSize := by
        unfold fragmentSize maxReassembledSize
        omega
      exact ⟨1, consumes_of_err fun s l hs =>
        recvJoined_wrapped outOfOrder oversized (by omega) hindex hmore hfits hs⟩
    · obtain ⟨d, rfl⟩ : ∃ d, c = 70 + d := ⟨c - 70, by omega⟩
      have hover : fragmentSize * j + maxReassembledSize < m.length := by
        unfold fragmentSize maxReassembledSize at *
        omega
      obtain ⟨calls, hrest⟩ := ih d (by omega) (j := j + 70) (by omega) (by omega)
        (by rwa [Nat.add_assoc])
      refine ⟨1 + calls, ?_⟩
      rw [Nat.add_assoc, fragmentsFrom_append]
      exact consumes_append (consumes_oversized (by omega) hover) hrest

theorem tailStart_of_le {n : Nat} (hn : n ≤ 2 ^ 15) : tailStart n = 70 * ((n - 1) / 70) := by
  rw [tailStart, if_pos hn, fragmentsPerCall, Nat.zero_add, Nat.sub_zero]

theorem tailStart_of_lt {n : Nat} (hn : 2 ^ 15 < n) :
    tailStart n = 2 ^ 15 + 1 + 70 * ((n - (2 ^ 15 + 1) - 1) / 70) := by
  rw [tailStart, if_neg (Nat.not_le.mpr hn), fragmentsPerCall]

theorem returnedBy_of_lt {n : Nat} (hn : fragmentCount m.length = n) (h : tailStart n < n) :
    returnedBy m =
      if m.length ≤ fragmentSize * tailStart n + maxReassembledSize then
        [m.drop (fragmentSize * tailStart n)] else [] := by
  simp only [returnedBy, TailFits, hn, h, true_and]

theorem fragmentCount_last {len n : Nat} (hn : fragmentCount len = n) :
    0 < n ∧ (n = 1 ∨ fragmentSize * (n - 1) < len) ∧ len ≤ fragmentSize * n := by
  unfold fragmentCount fragmentSize at *
  omega

/-- The calls that read a message whose fragments were all sent. -/
theorem consumes_message (hcount : fragmentCount m.length ≤ 2 ^ 16) :
    ∃ calls, Consumes F (recvJoined F.recv outOfOrder oversized) (fragmentsOf m) calls
      (returnedBy m) := by
  generalize hn : fragmentCount m.length = n at hcount
  obtain ⟨hpos, hmore, hlast⟩ := fragmentCount_last hn
  by_cases hwrap : n ≤ 2 ^ 15
  · have htail := tailStart_of_le hwrap
    rw [returnedBy_of_lt hn (by omega), fragmentsOf, hn, htail, ← Nat.zero_add (70 * _)]
    exact consumes_rest hpos (by omega) (by rwa [Nat.zero_add]) (by rwa [Nat.zero_add])
  · have htail := tailStart_of_lt (Nat.not_le.mp hwrap)
    have hmore := hmore.resolve_left (by omega)
    have hfull : fragmentSize * (0 + 2 ^ 15) < m.length :=
      Nat.lt_of_le_of_lt (Nat.mul_le_mul_left _ (by omega)) hmore
    obtain ⟨calls, hfirst⟩ : ∃ calls, Consumes F (recvJoined F.recv outOfOrder oversized)
        (fragmentsFrom m 0 (2 ^ 15 + 1)) calls [] := consumes_wrap (by decide) (by decide) hfull
    obtain ⟨c, rfl⟩ : ∃ c, n = 2 ^ 15 + 1 + c := ⟨n - (2 ^ 15 + 1), by omega⟩
    rw [fragmentsOf, hn, fragmentsFrom_append, Nat.zero_add]
    rcases Nat.eq_zero_or_pos c with rfl | hc
    · -- Nothing is left after the wrap.
      have hnone : returnedBy m = [] := by
        refine if_neg fun h => ?_
        have := h.1
        rw [hn, htail] at this
        omega
      refine ⟨calls, ?_⟩
      rw [hnone, fragmentsFrom_zero, List.append_nil]
      exact hfirst
    · have hcount' : 2 ^ 15 + 1 + c - (2 ^ 15 + 1) - 1 = c - 1 := by omega
      rw [hcount'] at htail
      obtain ⟨calls', hrest⟩ : ∃ calls, Consumes F (recvJoined F.recv outOfOrder oversized)
          (fragmentsFrom m (2 ^ 15 + 1) c) calls _ := consumes_rest hc (by omega)
        (Or.inr (Nat.lt_of_le_of_lt (Nat.mul_le_mul_left _ (by omega)) hmore)) hlast
      refine ⟨calls + calls', ?_⟩
      rw [returnedBy_of_lt hn (by omega), htail]
      exact consumes_append hfirst hrest

/-- The calls that read several messages whose fragments were all sent. -/
theorem consumes_messages {ms : List (List UInt8)}
    (hcount : ∀ m ∈ ms, fragmentCount m.length ≤ 2 ^ 16) :
    ∃ calls, Consumes F (recvJoined F.recv outOfOrder oversized) (ms.flatMap fragmentsOf) calls
      (ms.flatMap returnedBy) := by
  induction ms with
  | nil => exact ⟨0, consumes_nil⟩
  | cons m ms ih =>
    obtain ⟨calls, hm⟩ := consumes_message (hcount m List.mem_cons_self)
    obtain ⟨calls', hms⟩ := ih fun m' hm' => hcount m' (List.mem_cons_of_mem _ hm')
    exact ⟨calls + calls', consumes_append hm hms⟩

/-! ### What is returned, as a list -/

theorem returnedBy_of_fits (hm : m.length ≤ maxReassembledSize) : returnedBy m = [m] := by
  have hcount : 0 < fragmentCount m.length ∧ fragmentCount m.length ≤ 70 := by
    unfold fragmentCount fragmentSize maxReassembledSize at *
    omega
  have htail : tailStart (fragmentCount m.length) = 0 := by
    rw [tailStart_of_le (by omega)]
    omega
  rw [returnedBy_of_lt rfl (by omega), htail, Nat.mul_zero, List.drop_zero, if_pos (by omega)]

theorem length_of_returned {t : List UInt8} (ht : t ∈ returnedBy m) :
    t.length ≤ maxReassembledSize := by
  unfold returnedBy at ht
  split at ht
  · next h =>
    rw [List.mem_singleton.mp ht, List.length_drop]
    exact Nat.sub_le_of_le_add ((Nat.add_comm _ _).symm ▸ h.2)
  · exact absurd ht List.not_mem_nil

theorem returnedBy_sublist (hm : Whole m.length) : (returnedBy m).Sublist [m] := by
  rcases hm with hfits | htail
  · rw [returnedBy_of_fits hfits]
  · rw [returnedBy, if_neg htail]
    exact List.nil_sublist _

/-- The messages that fit the limit. -/
def fitting (ms : List (List UInt8)) : List (List UInt8) :=
  ms.filter fun m => m.length ≤ maxReassembledSize

theorem length_fitting_le (ms : List (List UInt8)) :
    (fitting ms).length ≤ (ms.flatMap returnedBy).length := by
  induction ms with
  | nil => exact Nat.le_refl _
  | cons m ms ih =>
    rw [List.flatMap_cons, List.length_append, fitting, List.filter_cons]
    split
    · next h =>
      rw [returnedBy_of_fits (of_decide_eq_true h), List.length_cons, List.length_singleton,
        Nat.add_comm]
      exact Nat.add_le_add_left ih 1
    · exact Nat.le_trans ih (Nat.le_add_left _ _)

/-- If no more is returned than there are messages that fit, no part of a message is. -/
theorem whole_of_length_le {ms : List (List UInt8)}
    (h : (ms.flatMap returnedBy).length ≤ (fitting ms).length) : ∀ m ∈ ms, Whole m.length := by
  induction ms with
  | nil => exact fun m hm => absurd hm List.not_mem_nil
  | cons m ms ih =>
    have hrest := length_fitting_le ms
    rw [List.flatMap_cons, List.length_append, fitting, List.filter_cons] at h
    rw [List.forall_mem_cons]
    by_cases hfits : m.length ≤ maxReassembledSize
    · rw [if_pos (decide_eq_true hfits), returnedBy_of_fits hfits, List.length_singleton,
        List.length_cons, Nat.add_comm] at h
      exact ⟨Or.inl hfits, ih (Nat.le_of_add_le_add_right h)⟩
    · rw [if_neg (fun hd => hfits (of_decide_eq_true hd))] at h
      have hnone : (returnedBy m).length = 0 := Nat.le_zero.mp
        (Nat.le_of_add_le_add_right (Nat.le_trans h ((Nat.zero_add _).symm ▸ hrest)))
      rw [hnone, Nat.zero_add] at h
      refine ⟨Or.inr fun htail => ?_, ih h⟩
      rw [returnedBy, if_pos htail] at hnone
      cases hnone

theorem returned_sublist_iff (ms : List (List UInt8)) :
    (ms.flatMap returnedBy).Sublist ms ↔ ∀ m ∈ ms, Whole m.length := by
  constructor
  · intro h
    refine whole_of_length_le (List.Sublist.length_le ?_)
    have hfit := h.filter fun m => decide (m.length ≤ maxReassembledSize)
    rwa [List.filter_eq_self.mpr ?_] at hfit
    intro t ht
    obtain ⟨m, -, htm⟩ := List.mem_flatMap.mp ht
    exact decide_eq_true (length_of_returned htm)
  · intro h
    induction ms with
    | nil => exact List.Sublist.slnil
    | cons m ms ih =>
      rw [List.forall_mem_cons] at h
      exact (returnedBy_sublist h.1).append (ih h.2)

/-! ### The channel after the sends -/

variable {ε' : Type} {empty : ε'} {h : ε' → ε} {l : List OwnedProtocolFrame}

/-- Every frame in flight announces another one. -/
def Unfinished (l : List OwnedProtocolFrame) : Prop := ∀ f ∈ l, fragmentMore f = true

theorem collect_unfinished (hl : Unfinished l) (rounds expected : Nat) (acc : List UInt8) :
    (∀ p, (collect (lossless empty h).recv outOfOrder oversized rounds expected acc l).1 ≠ .ok p) ∧
      Unfinished (collect (lossless empty h).recv outOfOrder oversized rounds expected acc l).2 := by
  induction rounds generalizing expected acc l with
  | zero =>
    cases l with
    | nil => exact ⟨fun p hp => (nomatch hp), hl⟩
    | cons f l =>
      rw [Unfinished, List.forall_mem_cons] at hl
      exact ⟨fun p hp => (nomatch hp), hl.2⟩
  | succ rounds ih =>
    cases l with
    | nil => exact ⟨fun p hp => (nomatch hp), hl⟩
    | cons f l =>
      rw [Unfinished, List.forall_mem_cons] at hl
      have hrecv : (lossless empty h).recv (f :: l) = (.ok f, l) := rfl
      rw [collect_step hrecv, if_pos hl.1]
      split
      · exact ⟨fun p hp => (nomatch hp), hl.2⟩
      · split
        · exact ⟨fun p hp => (nomatch hp), hl.2⟩
        · exact ih hl.2 _ _

theorem recvJoined_unfinished (hl : Unfinished l) :
    (∀ p, (recvJoined (lossless empty h).recv outOfOrder oversized l).1 ≠ .ok p) ∧
      Unfinished (recvJoined (lossless empty h).recv outOfOrder oversized l).2 := by
  cases l with
  | nil => exact ⟨fun p hp => (nomatch hp), hl⟩
  | cons f l =>
    rw [Unfinished, List.forall_mem_cons] at hl
    have hrecv : (lossless empty h).recv (f :: l) = (.ok f, l) := rfl
    rw [recvJoined_step hrecv, if_pos hl.1]
    exact collect_unfinished hl.2 _ _ _

/-- Nothing is returned of frames that all announce another one. -/
theorem attempts_unfinished (hl : Unfinished l) (calls : Nat) :
    ((recvJoined (lossless empty h).recv outOfOrder oversized).attempts calls l).1 = [] := by
  induction calls generalizing l with
  | zero => rfl
  | succ calls ih =>
    obtain ⟨hfail, hrest⟩ := @recvJoined_unfinished ε outOfOrder oversized ε' empty h l hl
    rw [Call.attempts]
    split
    · next p l' hcall =>
      rw [hcall] at hfail
      exact absurd rfl (hfail p)
    · next l' hne hcall =>
      rw [hcall] at hrest
      exact ih hrest

section

variable (m : List UInt8) (ms : List (List UInt8)) (l : List OwnedProtocolFrame)

theorem forEach_cons :
    Call.forEach (sendSplit (lossless empty h).send) (m :: ms) l =
      if fragmentCount m.length < 2 ^ 16 then
        Call.forEach (sendSplit (lossless empty h).send) ms (l ++ fragmentsOf m)
      else (.panicked, l ++ fragmentsFrom m 0 (2 ^ 16)) := by
  have hsend := @sendSplit_lossless ε ε' empty h m l
  by_cases hok : fragmentCount m.length < 2 ^ 16
  · rw [if_pos hok, Nat.min_eq_left (Nat.le_of_lt hok)] at hsend
    rw [Call.forEach, Call.bind_of_ok hsend, if_pos hok]
    rfl
  · rw [if_neg hok, Nat.min_eq_right (Nat.not_lt.mp hok)] at hsend
    rw [Call.forEach, Call.bind_of_panicked hsend, if_neg hok]

theorem completed_cons :
    Call.completed (sendSplit (lossless empty h).send) (m :: ms) l =
      if fragmentCount m.length < 2 ^ 16 then
        m :: Call.completed (sendSplit (lossless empty h).send) ms (l ++ fragmentsOf m)
      else [] := by
  have hsend := @sendSplit_lossless ε ε' empty h m l
  by_cases hok : fragmentCount m.length < 2 ^ 16
  · rw [if_pos hok, Nat.min_eq_left (Nat.le_of_lt hok)] at hsend
    rw [Call.completed, hsend, if_pos hok]
    rfl
  · rw [if_neg hok] at hsend
    rw [Call.completed, hsend, if_neg hok]

end

theorem counted_iff {len : Nat} : len ≤ fragmentSize * 2 ^ 16 ↔ fragmentCount len ≤ 2 ^ 16 := by
  unfold fragmentCount fragmentSize
  omega

theorem unfinished_fragmentsFrom (hm : 2 ^ 16 < fragmentCount m.length) :
    Unfinished (fragmentsFrom m 0 (2 ^ 16)) := by
  intro f hf
  obtain ⟨i, -, hi, rfl⟩ := mem_fragmentsFrom.mp hf
  refine fragmentMore_of_lt ?_
  unfold fragmentCount fragmentSize at *
  omega

/-- What was sent, and the messages of which all fragments were. The index overflows in the message
that ends the run: it is cut off, unless it has `2 ^ 16` fragments. -/
theorem forEach_cases (ms : List (List UInt8)) (l : List OwnedProtocolFrame) :
    let sent := Call.completed (sendSplit (lossless empty h).send) ms l
    let wire := (Call.forEach (sendSplit (lossless empty h).send) ms l).2
    let counted := ms.takeWhile fun m => m.length ≤ fragmentSize * 2 ^ 16
    (∀ m ∈ sent, fragmentCount m.length ≤ 2 ^ 16) ∧
      ((∃ rest, Unfinished rest ∧ wire = l ++ (sent.flatMap fragmentsOf ++ rest) ∧ counted = sent) ∨
        ∃ x rest, fragmentCount x.length = 2 ^ 16 ∧
          wire = l ++ (sent ++ [x]).flatMap fragmentsOf ∧ counted = sent ++ x :: rest) := by
  induction ms generalizing l with
  | nil =>
    refine ⟨fun m hm => absurd hm List.not_mem_nil, Or.inl ⟨[], ?_, ?_, rfl⟩⟩
    · exact fun f hf => absurd hf List.not_mem_nil
    · exact (List.append_nil l).symm
  | cons m ms ih =>
    simp only [completed_cons, forEach_cons, List.takeWhile_cons, counted_iff]
    by_cases hok : fragmentCount m.length < 2 ^ 16
    · obtain ⟨hcount, hwire⟩ := ih (l ++ fragmentsOf m)
      simp only [counted_iff] at hwire
      simp only [hok, Nat.le_of_lt hok, if_true, decide_true, List.forall_mem_cons,
        List.cons_append, List.flatMap_cons, List.cons.injEq, true_and]
      refine ⟨hcount, ?_⟩
      simp only [List.append_assoc] at hwire ⊢
      exact hwire
    · simp only [hok, if_false]
      refine ⟨fun m hm => absurd hm List.not_mem_nil, ?_⟩
      by_cases hlast : fragmentCount m.length = 2 ^ 16
      · right
        have hwire : fragmentsFrom m 0 (2 ^ 16) = ([] ++ [m]).flatMap fragmentsOf := by
          rw [List.nil_append, List.flatMap_singleton, fragmentsOf, hlast]
        exact ⟨m, _, hlast, congrArg (l ++ ·) hwire,
          if_pos (decide_eq_true (Nat.le_of_eq hlast))⟩
      · have hlong : 2 ^ 16 < fragmentCount m.length := by omega
        exact Or.inl ⟨_, unfinished_fragmentsFrom hlong, rfl,
          if_neg fun hd => Nat.not_le.mpr hlong (of_decide_eq_true hd)⟩

/-- Some number of calls returns what is returned of the messages on the wire, and no number of
calls returns anything else. -/
theorem attempts_initial {ms : List (List UInt8)} {rest : List OwnedProtocolFrame}
    (hcount : ∀ m ∈ ms, fragmentCount m.length ≤ 2 ^ 16) (hrest : Unfinished rest) :
    (∃ calls, ((recvJoined (lossless empty h).recv outOfOrder oversized).attempts calls
        (ms.flatMap fragmentsOf ++ rest)).1 = ms.flatMap returnedBy) ∧
      ∀ calls, ((recvJoined (lossless empty h).recv outOfOrder oversized).attempts calls
        (ms.flatMap fragmentsOf ++ rest)).1 <+: ms.flatMap returnedBy := by
  obtain ⟨n, hn⟩ := @consumes_messages _ _ (lossless empty h) outOfOrder oversized ms hcount
  obtain ⟨hout, hleft⟩ := hn _ rest rfl
  refine ⟨⟨n, hout⟩, fun calls => ?_⟩
  have hall : ((recvJoined (lossless empty h).recv outOfOrder oversized).attempts (n + calls)
      (ms.flatMap fragmentsOf ++ rest)).1 = ms.flatMap returnedBy := by
    rw [attempts_add, hout, show _ = rest from hleft, attempts_unfinished hrest, List.append_nil]
  rw [← hall, Nat.add_comm, attempts_add]
  exact List.prefix_append _ _

theorem not_whole_of_overflow {x : List UInt8} (hx : fragmentCount x.length = 2 ^ 16) :
    ¬ Whole x.length := by
  have htail : tailStart (2 ^ 16) = 65529 := by decide
  rw [Whole, TailFits, hx, htail]
  unfold fragmentCount fragmentSize maxReassembledSize at *
  omega

theorem returnsOnlySent_iff (outOfOrder : ε) (oversized : Nat → ε) (closed : ε') (h : ε' → ε)
    (ms : List (List UInt8)) :
    ReturnsOnlySent (sendSplit (lossless closed h).send)
        (recvJoined (lossless closed h).recv outOfOrder oversized) ms ↔ AllWhole ms := by
  unfold AllWhole
  obtain ⟨hcount, ⟨rest, hrest, hwire, hcounted⟩ | ⟨x, rest, hx, hwire, hcounted⟩⟩ :=
    @forEach_cases ε ε' closed h ms []
  · rw [hcounted, ← returned_sublist_iff, ReturnsOnlySent, hwire, List.nil_append]
    obtain ⟨⟨n, hn⟩, hinitial⟩ := attempts_initial hcount hrest
    exact ⟨fun hall => hn ▸ hall n, fun hsub calls => (hinitial calls).sublist.trans hsub⟩
  · -- The message of `2 ^ 16` fragments is on the wire and was not sent.
    have hcount' : ∀ m ∈ Call.completed (sendSplit (lossless closed h).send) ms [] ++ [x],
        fragmentCount m.length ≤ 2 ^ 16 := by
      intro m hm
      rcases List.mem_append.mp hm with hm | hm
      · exact hcount m hm
      · rw [List.mem_singleton.mp hm]
        exact Nat.le_of_eq hx
    obtain ⟨⟨n, hn⟩, -⟩ := @attempts_initial ε outOfOrder oversized ε' closed h _ [] hcount'
      (fun f hf => absurd hf List.not_mem_nil)
    refine iff_of_false (fun hall => ?_) (fun hall => ?_)
    · have hsub := hall n
      rw [hwire, List.nil_append, ← List.append_nil (List.flatMap _ _), hn] at hsub
      have hwhole := (returned_sublist_iff _).mp (hsub.trans (List.sublist_append_left _ [x]))
      exact not_whole_of_overflow hx (hwhole x (List.mem_append_right _ List.mem_cons_self))
    · rw [hcounted] at hall
      exact not_whole_of_overflow hx (hall x (List.mem_append_right _ List.mem_cons_self))

/-- A message of seventy-one fragments: one call rejects seventy of them, the next returns the
last. -/
theorem tail_returned {outOfOrder : ε} {oversized : Nat → ε} {closed : ε'} {h : ε' → ε}
    (hlong : fragmentSize * 70 < m.length) (hlen : m.length ≤ fragmentSize * 71) :
    let sent := sendSplit (lossless closed h).send m []
    let first := recvJoined (lossless closed h).recv outOfOrder oversized sent.2
    sent.1 = .ok () ∧ first.1 = .err (oversized (fragmentSize * 70)) ∧
      (recvJoined (lossless closed h).recv outOfOrder oversized first.2).1 =
        .ok (m.drop (fragmentSize * 70)) := by
  have hcount : fragmentCount m.length = 71 := by
    unfold fragmentCount fragmentSize at *
    omega
  have hchunk : (chunk m (0 + 69)).length = fragmentSize := by
    rw [length_chunk]
    unfold fragmentSize at *
    omega
  have hwire : (lossless closed h).Holds (fragmentsFrom m 0 71)
      (fragmentsFrom m 0 (69 + 1) ++ fragmentsFrom m (0 + 70) 1) := by
    show fragmentsFrom m 0 (70 + 1) = _
    exact fragmentsFrom_append
  obtain ⟨s', hs', hfirst⟩ := recvJoined_oversized outOfOrder oversized (by decide) (by decide)
    (Nat.lt_of_le_of_lt (by decide) hlong) (by decide) (by rw [hchunk]; decide) hwire
  rw [← List.append_nil (fragmentsFrom m _ 1)] at hs'
  obtain ⟨s'', -, hsecond⟩ := recvJoined_returns outOfOrder oversized (by decide) (Or.inl rfl) hlen
    (Nat.le_trans hlen (by decide)) hs'
  have hsent : sendSplit (lossless closed h).send m [] = (.ok (), fragmentsFrom m 0 71) := by
    rw [sendSplit_lossless, hcount]
    rfl
  simp only [hsent, hfirst, hsecond, hchunk]
  exact ⟨trivial, rfl, trivial⟩

end ReassemblyLemmas

open ReassemblyLemmas

/-! ## The two layers -/

/-- However many calls the receiver makes, and whether or not they fail, the messages they return
are a subsequence of those sent exactly when no part of a sent message can be taken for one. The
condition is the same for both layers, whole or split. -/
theorem reassembly_sound (ms : List (List UInt8)) :
    (ReturnsOnlySent (MessageSession.sendFragmented secureQueue.send)
        (MessageSession.recvReassembled secureQueue.recv) ms ↔ AllWhole ms) ∧
      (ReturnsOnlySent (MessageSender.sendFragmented secureQueue.send)
        (MessageReceiver.recvReassembled secureQueue.recv) ms ↔ AllWhole ms) ∧
      (ReturnsOnlySent (SecureConnection.sendFragments adapterQueue.send)
        (SecureConnection.recvFragments adapterQueue.recv) ms ↔ AllWhole ms) ∧
      (ReturnsOnlySent (SecureSender.sendFragments adapterQueue.send)
        (SecureReceiver.recvFragments adapterQueue.recv) ms ↔ AllWhole ms) :=
  ⟨returnsOnlySent_iff _ _ _ _ ms, returnsOnlySent_iff _ _ _ _ ms, returnsOnlySent_iff _ _ _ _ ms,
    returnsOnlySent_iff _ _ _ _ ms⟩

/-- A message one byte over the limit is rejected as a whole, and the next one is not affected. -/
theorem reassembly_sound_rejected :
    let ms : List (List UInt8) := [List.replicate 4194305 0x61, [0x62]]
    ReturnsOnlySent (MessageSession.sendFragmented secureQueue.send)
      (MessageSession.recvReassembled secureQueue.recv) ms := by
  intro ms
  refine (reassembly_sound ms).1.mpr fun m hm => ?_
  have hmem : m = List.replicate 4194305 0x61 ∨ m = [0x62] := by
    simpa only [ms, List.mem_cons, List.not_mem_nil, or_false] using
      (List.takeWhile_sublist _).subset hm
  rcases hmem with rfl | rfl
  · rw [List.length_replicate]
    decide
  · decide

/-- A message of 4,200,001 bytes is rejected, and its last byte is then returned as a message, by
both layers. -/
theorem reassembly_returns_tail :
    let m : List UInt8 := List.replicate 4200001 0x61
    let sent := MessageSession.sendFragmented secureQueue.send m []
    let first := MessageSession.recvReassembled secureQueue.recv sent.2
    let sent' := SecureConnection.sendFragments adapterQueue.send m []
    let first' := SecureConnection.recvFragments adapterQueue.recv sent'.2
    (sent.1 = .ok () ∧ first.1 = .err (.oversizedMessage 4200000) ∧
      (MessageSession.recvReassembled secureQueue.recv first.2).1 = .ok [0x61]) ∧
    (sent'.1 = .ok () ∧ first'.1 = .err (.oversizedMessage 4200000) ∧
      (SecureConnection.recvFragments adapterQueue.recv first'.2).1 = .ok [0x61]) ∧
    m ≠ [0x61] := by
  intro m
  have hlen : m.length = 4200001 := List.length_replicate
  have hsize : fragmentSize * 70 = 4200000 := by decide
  have htail : m.drop 4200000 = [0x61] := by
    rw [List.drop_replicate]
    rfl
  have hlong : fragmentSize * 70 < m.length := by omega
  have hlast : m.length ≤ fragmentSize * 71 := by rw [hlen]; decide
  -- What follows uses only the length and the last byte.
  clear_value m
  have hmessage := @tail_returned WireError m _ .fragmentOutOfOrder .oversizedMessage
    (SecureConnError.adapter .closed) .session hlong hlast
  have hsecure := @tail_returned SecureConnError m _ .fragmentOutOfOrder .oversizedMessage
    AdapterError.closed .adapter hlong hlast
  rw [hsize, htail] at hmessage hsecure
  refine ⟨hmessage, hsecure, fun h => ?_⟩
  rw [h] at hlen
  exact absurd hlen (by decide)

end Blackwing.Session

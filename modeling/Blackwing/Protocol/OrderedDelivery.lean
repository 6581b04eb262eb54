import Mathlib.Data.List.GetD
import Blackwing.Lib.Run
import Blackwing.Protocol.Reliability

/-!
# Ordered delivery by the receiver

Any sequence of frames fed to one `ReliableReceiver`. The duplicate filter forgets the
numbers that lie 64 or more behind the largest one it took, but what it forgets it also
refuses: an accepted number is new, and it is not below `next_expected`.

* `Ordered`: the filter, the buffer and `next_expected` speak of one set of accepted numbers.
* `ordered_accepted`: what `receive` releases when it accepts a frame.
* `receiver_in_order`: the outputs so far are the payloads of the numbers below
  `next_expected`, each once and in order.
* `delivers_permuted_iff`: a permutation of the frames is delivered whole exactly when no
  frame comes after one that is 64 or more ahead of it.
-/

namespace Blackwing.Protocol

open ReliabilityLemmas

/-! ## One call -/

/-- Every buffered frame stands under its number, carries the payload of that number and was
accepted. -/
def Holds (pay : Nat → List UInt8) (seen : Set Nat)
    (buffer : HashMap SequenceNumber ReliableFrame) : Prop :=
  ∀ seq frame, buffer.lookup seq = some frame →
    frame.seq = seq ∧ frame.payload = pay seq.toNat ∧ seq.toNat < 2 ^ 64 - 1 ∧ seq.toNat ∈ seen

/-- The state of a receiver that has accepted the numbers `seen`. -/
structure Ordered (pay : Nat → List UInt8) (seen : Set Nat) (r : ReliableReceiver) : Prop where
  tracks : Tracks r.filter.maxReceived r.filter.receivedMask seen
  below : ∀ i < r.nextExpected.toNat, i ∈ seen
  kept : ∀ seq : SequenceNumber, seq.toNat ∈ seen →
    seq.toNat < r.nextExpected.toNat ∨ (r.assembler.buffer.lookup seq).isSome
  holds : Holds pay seen r.assembler.buffer
  above : ∀ seq frame, r.assembler.buffer.lookup seq = some frame →
    r.nextExpected.toNat < seq.toNat

/-- A call handed over the payloads from `next_expected` before it up to `next_expected` after
it. -/
structure Advanced (pay : Nat → List UInt8) (before : ReliableReceiver)
    (ready : List (List UInt8)) (after : ReliableReceiver) : Prop where
  le : before.nextExpected.toNat ≤ after.nextExpected.toNat
  ready_eq : ready = (List.range' before.nextExpected.toNat
    (after.nextExpected.toNat - before.nextExpected.toNat)).map pay

namespace OrderedDeliveryLemmas

variable {pay : Nat → List UInt8} {seen : Set Nat} {r : ReliableReceiver} {frame : ReliableFrame}

theorem ordered_new : Ordered pay ∅ ReliableReceiver.new where
  tracks := tracks_empty
  below := fun i hi => absurd hi (Nat.not_lt_zero i)
  kept := fun _ h => absurd h (Set.notMem_empty _)
  holds := fun _ _ h => nomatch h
  above := fun _ _ h => nomatch h

theorem advanced_refl : Advanced pay r [] r :=
  ⟨Nat.le_refl _, by rw [Nat.sub_self]; rfl⟩

theorem advanced_outputs {ready outputs : List (List UInt8)} {next : ReliableReceiver}
    (h : Advanced pay r ready next) (houtputs : outputs = (List.range r.nextExpected.toNat).map pay) :
    outputs ++ ready = (List.range next.nextExpected.toNat).map pay := by
  have hsplit := @List.range'_append_1 0 r.nextExpected.toNat
    (next.nextExpected.toNat - r.nextExpected.toNat)
  rw [Nat.zero_add, Nat.add_sub_cancel' h.le] at hsplit
  rw [houtputs, h.ready_eq, ← List.map_append, List.range_eq_range', List.range_eq_range', hsplit]

theorem holds_insert (h : Holds pay seen r.assembler.buffer)
    (hpay : frame.payload = pay frame.seq.toNat) (hmax : frame.seq.toNat < 2 ^ 64 - 1) :
    Holds pay (insert frame.seq.toNat seen) (r.assembler.buffer.insert frame.seq frame) := by
  intro seq f hf
  rw [HashMap.lookup_insert_eq] at hf
  split at hf
  · next heq =>
    cases hf
    subst heq
    exact ⟨rfl, hpay, hmax, Set.mem_insert _ _⟩
  · obtain ⟨hseq, hp, hm, hs⟩ := h seq f hf
    exact ⟨hseq, hp, hm, Set.mem_insert_of_mem _ hs⟩

section

variable (h : Ordered pay seen r)
include h

theorem accepted_ge (hacc : r.Accepts frame.seq) :
    r.nextExpected.toNat ≤ frame.seq.toNat :=
  Nat.not_lt.mp fun hlt => ((accepts_iff h.tracks).mp hacc).1 (h.below _ hlt)

/-- The invariant after the loop of `assemble` has run on the buffer with the new frame. -/
theorem ordered_released {ready : List (List UInt8)} {assembler : OrderedAssembler}
    {filter : DuplicateFilter} (hge : r.nextExpected.toNat ≤ frame.seq.toNat)
    (hholds : Holds pay (insert frame.seq.toNat seen) (r.assembler.buffer.insert frame.seq frame))
    (htracks : Tracks filter.maxReceived filter.receivedMask (insert frame.seq.toNat seen))
    (hrel : Released pay ⟨r.nextExpected, r.assembler.buffer.insert frame.seq frame⟩ ready assembler) :
    Ordered pay (insert frame.seq.toNat seen) ⟨assembler, filter⟩ := by
  have hle : r.nextExpected.toNat ≤ assembler.nextExpected.toNat := hrel.le
  refine ⟨htracks, fun i hi => ?_, fun seq hseq => ?_, fun seq f hf => ?_, fun seq f hf => ?_⟩
  · -- a number below the new `next_expected` was below the old one or has just been taken
    by_cases hold : i < r.nextExpected.toNat
    · exact Set.mem_insert_of_mem _ (h.below i hold)
    · have hlt : i < assembler.nextExpected.toNat := hi
      have hnat : (UInt64.ofNat i).toNat = i :=
        UInt64.toNat_ofNat_of_lt' (Nat.lt_trans hlt (UInt64.toNat_lt _))
      obtain ⟨f, hf⟩ := Option.isSome_iff_exists.mp
        (hrel.taken (UInt64.ofNat i) (by rw [hnat]; exact Nat.not_lt.mp hold) (by rw [hnat]; exact hlt))
      have hmem := (hholds _ _ hf).2.2.2
      rwa [hnat] at hmem
  · by_cases hlt : seq.toNat < assembler.nextExpected.toNat
    · exact Or.inl hlt
    · refine Or.inr ?_
      show (assembler.buffer.lookup seq).isSome
      rw [hrel.lookup_eq, if_neg fun hc => hlt hc.2, HashMap.lookup_insert_eq]
      split
      · rfl
      · next hne =>
        have hmem : seq.toNat ∈ seen :=
          hseq.resolve_left fun he => hne (UInt64.toNat_inj.mp he)
        refine (h.kept seq hmem).resolve_left fun hold => hlt ?_
        exact Nat.lt_of_lt_of_le hold hle
  · have hlook : assembler.buffer.lookup seq = some f := hf
    rw [hrel.lookup_eq] at hlook
    split at hlook
    · exact nomatch hlook
    · exact hholds seq f hlook
  · -- what stays in the buffer was not below the old `next_expected`, and the loop has stopped
    have hlook : assembler.buffer.lookup seq = some f := hf
    have hne : assembler.nextExpected.toNat ≠ seq.toNat := fun he => by
      rw [← UInt64.toNat_inj.mp he, hrel.stopped] at hlook
      exact nomatch hlook
    rw [hrel.lookup_eq, HashMap.lookup_insert_eq] at hlook
    split at hlook
    · exact nomatch hlook
    · next hout =>
      have hseq : r.nextExpected.toNat ≤ seq.toNat := by
        split at hlook
        · next heq => exact heq ▸ hge
        · exact Nat.le_of_lt (h.above seq f hlook)
      have hnot : assembler.nextExpected.toNat ≤ seq.toNat :=
        Nat.not_lt.mp fun hlt => hout ⟨hseq, hlt⟩
      exact Nat.lt_of_le_of_ne hnot hne

/-- A frame that the filter takes: what the call hands over and what it leaves. -/
theorem ordered_accepted (hacc : r.Accepts frame.seq) (hpay : frame.payload = pay frame.seq.toNat)
    (hmax : frame.seq.toNat < 2 ^ 64 - 1) :
    ∃ ready next, ReliableReceiver.receive frame r = (.ok ready, next) ∧
      Advanced pay r ready next ∧ Ordered pay (insert frame.seq.toNat seen) next := by
  obtain ⟨w, hslide, hcall⟩ := receive_accepted hacc
  have hge := accepted_ge h hacc
  have hholds := holds_insert h.holds hpay hmax
  have hinsert : r.assembler.insert frame =
      ⟨r.nextExpected, r.assembler.buffer.insert frame.seq frame⟩ :=
    if_pos (UInt64.le_iff_toNat_le.mpr hge)
  rw [hinsert] at hcall
  have hrel := @assemble_released pay ⟨r.nextExpected, r.assembler.buffer.insert frame.seq frame⟩
    fun seq f hf => ⟨(hholds seq f hf).2.1, (hholds seq f hf).2.2.1⟩
  refine ⟨_, _, hcall, ⟨hrel.le, hrel.ready_eq⟩, ?_⟩
  exact ordered_released h hge hholds (slide_tracks h.tracks hslide).1 hrel

/-- What a call of `receive` does, whether or not the filter takes the frame. -/
theorem ordered_receive (hpay : frame.payload = pay frame.seq.toNat)
    (hmax : frame.seq.toNat < 2 ^ 64 - 1) :
    ∃ ready next, ReliableReceiver.receive frame r = (.ok ready, next) ∧
      Advanced pay r ready next ∧
      Ordered pay (if r.Accepts frame.seq then insert frame.seq.toNat seen else seen) next := by
  by_cases hacc : r.Accepts frame.seq
  · rw [if_pos hacc]
    exact ordered_accepted h hacc hpay hmax
  · rw [if_neg hacc]
    exact ⟨[], r, receive_refused hacc, advanced_refl, h⟩

theorem next_not_seen : r.nextExpected.toNat ∉ seen := by
  intro hmem
  rcases h.kept _ hmem with hlt | hbuf
  · exact Nat.lt_irrefl _ hlt
  · obtain ⟨f, hf⟩ := Option.isSome_iff_exists.mp hbuf
    exact Nat.lt_irrefl _ (h.above _ f hf)

theorem next_eq_of_seen {n : Nat} (hseen : ∀ v, v ∈ seen ↔ v < n) :
    r.nextExpected.toNat = n := by
  refine Nat.le_antisymm (Nat.not_lt.mp fun hlt => ?_) (Nat.not_lt.mp fun hlt => ?_)
  · exact Nat.lt_irrefl n ((hseen n).mp (h.below n hlt))
  · exact next_not_seen h ((hseen _).mpr hlt)

end

end OrderedDeliveryLemmas

/-! ## Runs -/

/-- One call of `receive`. -/
def receiverStep (self : ReliableReceiver) (frame : ReliableFrame) :
    Outcome ProtocolError (List (List UInt8)) × ReliableReceiver :=
  ReliableReceiver.receive frame self

/-- An entry of a run of the receiver. -/
abbrev ReceiverEntry : Type :=
  Entry ReliableReceiver ReliableFrame (Outcome ProtocolError (List (List UInt8)))

/-- The payloads that a call handed over. -/
def released (e : ReceiverEntry) : List (List UInt8) :=
  match e.out with
  | .ok ready => ready
  | _ => []

/-- The numbers that the filter has taken. -/
def takenBy (h : List ReceiverEntry) : Set Nat :=
  {v | ∃ e ∈ h, e.pre.Accepts e.input.seq ∧ e.input.seq.toNat = v}

/-- The payload that a list of frames has under a number. -/
def payloadOf (frames : List ReliableFrame) (i : Nat) : Option (List UInt8) :=
  (frames.find? fun f => f.seq.toNat = i).map ReliableFrame.payload

/-- What holds of the receiver and its outputs after a history. -/
structure ReceivedInOrder (pay : Nat → List UInt8) (h : List ReceiverEntry) (r : ReliableReceiver) :
    Prop where
  ordered : Ordered pay (takenBy h) r
  outputs : h.flatMap released = (List.range r.nextExpected.toNat).map pay
  grows : ∀ e ∈ h, e.pre.nextExpected.toNat ≤ e.post.nextExpected.toNat

namespace OrderedDeliveryLemmas

variable {pay : Nat → List UInt8} {h : List ReceiverEntry} {r : ReliableReceiver}
  {frames : List ReliableFrame}

theorem takenBy_snoc (h : List ReceiverEntry) (e : ReceiverEntry) :
    takenBy (h ++ [e]) =
      if e.pre.Accepts e.input.seq then insert e.input.seq.toNat (takenBy h) else takenBy h := by
  ext v
  have hmem : v ∈ takenBy (h ++ [e]) ↔
      v ∈ takenBy h ∨ (e.pre.Accepts e.input.seq ∧ e.input.seq.toNat = v) := by
    simp only [takenBy, List.mem_append, List.mem_singleton, Set.mem_ofPred_eq, or_and_right,
      exists_or, exists_eq_left]
  rw [hmem]
  split
  · next hacc => rw [Set.mem_insert_iff, or_comm, and_iff_right hacc, eq_comm]
  · next hacc => exact or_iff_left fun hc => hacc hc.1

theorem receivedInOrder_step {frame : ReliableFrame} (hin : ReceivedInOrder pay h r)
    (hpay : frame.payload = pay frame.seq.toNat) (hmax : frame.seq.toNat < 2 ^ 64 - 1) :
    ReceivedInOrder pay (h ++ [stepEntry receiverStep r frame]) (receiverStep r frame).2 := by
  obtain ⟨ready, next, hcall, hadv, hord⟩ := ordered_receive hin.ordered hpay hmax
  have hentry : stepEntry receiverStep r frame = ⟨r, frame, .ok ready, next⟩ := by
    rw [stepEntry, receiverStep, hcall]
  rw [receiverStep, hcall, hentry]
  refine ⟨?_, ?_, fun e he => ?_⟩
  · rw [takenBy_snoc]
    exact hord
  · rw [List.flatMap_append, List.flatMap_singleton]
    exact advanced_outputs hadv hin.outputs
  · rcases List.mem_append.mp he with he | he
    · exact hin.grows e he
    · rw [List.mem_singleton.mp he]
      exact hadv.le

theorem receivedInOrder_run (hpay : ∀ f ∈ frames, f.payload = pay f.seq.toNat)
    (hmax : ∀ f ∈ frames, f.seq.toNat < 2 ^ 64 - 1) :
    ReceivedInOrder pay (run receiverStep ReliableReceiver.new frames)
      (endState receiverStep ReliableReceiver.new frames) := by
  refine run_guarded (G := fun _ f => f.payload = pay f.seq.toNat ∧ f.seq.toNat < 2 ^ 64 - 1)
    (P := ReceivedInOrder pay) ⟨?_, rfl, fun e he => absurd he List.not_mem_nil⟩ ?_ ?_
  · have hnone : takenBy [] = ∅ := by
      ext v
      simp [takenBy]
    rw [hnone]
    exact ordered_new
  · exact fun h t f hin hg => receivedInOrder_step hin hg.1 hg.2
  · exact fun e he => ⟨hpay _ (input_mem_of_mem_run he), hmax _ (input_mem_of_mem_run he)⟩

theorem payloadOf_eq_some {f : ReliableFrame} (hmem : f ∈ frames)
    (hpay : ∀ f ∈ frames, ∀ g ∈ frames, f.seq = g.seq → f.payload = g.payload) :
    payloadOf frames f.seq.toNat = some f.payload := by
  cases hfind : frames.find? fun g => g.seq.toNat = f.seq.toNat with
  | none =>
    have hnone := List.find?_eq_none.mp hfind f hmem
    exact absurd (decide_eq_true rfl) hnone
  | some g =>
    have hfound := List.find?_some hfind
    have hseq : g.seq.toNat = f.seq.toNat := of_decide_eq_true hfound
    rw [payloadOf, hfind, Option.map_some,
      hpay g (List.mem_of_find?_eq_some hfind) f hmem (UInt64.toNat_inj.mp hseq)]

end OrderedDeliveryLemmas

open OrderedDeliveryLemmas

/-- The outputs of a receiver so far are the payloads of the numbers below `next_expected`, in
order and each once; `next_expected` never goes back, and what is buffered lies above it. -/
theorem receiver_in_order {frames : List ReliableFrame}
    (hmax : ∀ f ∈ frames, f.seq.toNat < 2 ^ 64 - 1)
    (hpay : ∀ f ∈ frames, ∀ g ∈ frames, f.seq = g.seq → f.payload = g.payload) :
    let entries := run receiverStep ReliableReceiver.new frames
    let last := endState receiverStep ReliableReceiver.new frames
    (entries.flatMap released).map some =
        (List.range last.nextExpected.toNat).map (payloadOf frames) ∧
      (∀ e ∈ entries, e.pre.nextExpected.toNat ≤ e.post.nextExpected.toNat) ∧
      ∀ seq f, last.assembler.buffer.lookup seq = some f →
        f.seq = seq ∧ last.nextExpected.toNat < f.seq.toNat := by
  intro entries last
  have hin : ReceivedInOrder (fun i => (payloadOf frames i).getD []) entries last := by
    refine receivedInOrder_run (fun f hf => ?_) hmax
    rw [payloadOf_eq_some hf hpay]
    rfl
  refine ⟨?_, hin.grows, fun seq f hf => ?_⟩
  · rw [hin.outputs, List.map_map]
    refine List.map_congr_left fun i hi => ?_
    -- a number below `next_expected` was accepted, so one of the frames carries it
    obtain ⟨e, he, -, hseq⟩ := hin.ordered.below i (List.mem_range.mp hi)
    have hsome := payloadOf_eq_some (input_mem_of_mem_run he) hpay
    rw [hseq] at hsome
    show some ((payloadOf frames i).getD []) = payloadOf frames i
    rw [hsome]
    rfl
  · obtain ⟨hseq, -⟩ := hin.ordered.holds seq f hf
    exact ⟨hseq, hseq ▸ hin.ordered.above seq f hf⟩

/-- Frame 1 before frame 0, frame 1 again, and a gap before frame 3. -/
theorem receiver_in_order_gap :
    let frames : List ReliableFrame := [⟨1, [11]⟩, ⟨0, [10]⟩, ⟨1, [11]⟩, ⟨3, [13]⟩]
    ((run receiverStep ReliableReceiver.new frames).flatMap released).map some =
      (List.range (endState receiverStep ReliableReceiver.new frames).nextExpected.toNat).map
        (payloadOf frames) :=
  (receiver_in_order (by decide) (by decide)).1

/-! ## Permutations of a numbered list of payloads -/

/-- The frames that carry a list of payloads, numbered from 0. -/
def numbered (payloads : List (List UInt8)) : List ReliableFrame :=
  payloads.mapIdx fun i payload => ⟨UInt64.ofNat i, payload⟩

/-- A frame may come after another when it is less than 64 behind it. -/
def WithinWindow (earlier later : ReliableFrame) : Prop :=
  earlier.seq.toNat < later.seq.toNat + 64

instance (earlier later : ReliableFrame) : Decidable (WithinWindow earlier later) :=
  inferInstanceAs (Decidable (_ < _))

namespace OrderedDeliveryLemmas

variable {pay : Nat → List UInt8} {h : List ReceiverEntry} {r : ReliableReceiver}
  {frames : List ReliableFrame} {payloads : List (List UInt8)}

/-- After a history in which every frame was accepted, a new number is accepted exactly when no
frame of the history is too far ahead of it. -/
theorem accepts_iff_withinWindow {frame : ReliableFrame} (hin : ReceivedInOrder pay h r)
    (hall : ∀ e ∈ h, e.pre.Accepts e.input.seq)
    (hnew : ∀ e ∈ h, e.input.seq.toNat ≠ frame.seq.toNat) :
    r.Accepts frame.seq ↔ ∀ e ∈ h, WithinWindow e.input frame := by
  have hfresh : frame.seq.toNat ∉ takenBy h := fun ⟨e, he, _, hseq⟩ => hnew e he hseq
  rw [accepts_iff hin.ordered.tracks, and_iff_right hfresh]
  constructor
  · intro hlt e he
    exact Nat.lt_of_le_of_lt (hin.ordered.tracks.le_top _ ⟨e, he, hall e he, rfl⟩) hlt
  · intro hwithin
    rcases hin.ordered.tracks.top_seen with hzero | ⟨e, he, -, hseq⟩
    · rw [hzero]
      exact Nat.succ_pos _
    · rw [← hseq]
      exact hwithin e he

theorem all_accepted_iff (hpay : ∀ f ∈ frames, f.payload = pay f.seq.toNat)
    (hmax : ∀ f ∈ frames, f.seq.toNat < 2 ^ 64 - 1)
    (hnodup : (frames.map fun f => f.seq.toNat).Nodup) :
    (∀ e ∈ run receiverStep ReliableReceiver.new frames, e.pre.Accepts e.input.seq) ↔
      frames.Pairwise WithinWindow := by
  induction frames using List.reverseRecOn with
  | nil => exact iff_of_true (fun e he => absurd he List.not_mem_nil) List.Pairwise.nil
  | append_singleton frames frame ih =>
    rw [List.map_append, List.nodup_append] at hnodup
    have hpay' : ∀ f ∈ frames, f.payload = pay f.seq.toNat :=
      fun f hf => hpay f (List.mem_append_left _ hf)
    have hmax' : ∀ f ∈ frames, f.seq.toNat < 2 ^ 64 - 1 :=
      fun f hf => hmax f (List.mem_append_left _ hf)
    have hin := receivedInOrder_run hpay' hmax'
    have hnew : ∀ e ∈ run receiverStep ReliableReceiver.new frames,
        e.input.seq.toNat ≠ frame.seq.toNat := fun e he =>
      hnodup.2.2 _ (List.mem_map_of_mem (input_mem_of_mem_run he)) _ List.mem_cons_self
    have hlast : (∀ e ∈ run receiverStep ReliableReceiver.new frames, WithinWindow e.input frame) ↔
        ∀ f ∈ frames, WithinWindow f frame := by
      conv_rhs => rw [← @map_input_run _ _ _ receiverStep ReliableReceiver.new frames]
      exact (List.forall_mem_map (P := fun f => WithinWindow f frame)).symm
    have hboth : frames.Pairwise WithinWindow →
        ((endState receiverStep ReliableReceiver.new frames).Accepts frame.seq ↔
          ∀ f ∈ frames, WithinWindow f frame) := fun hwithin =>
      (accepts_iff_withinWindow hin ((ih hpay' hmax' hnodup.1).mpr hwithin) hnew).trans hlast
    rw [run_snoc, List.forall_mem_append, List.pairwise_append, ih hpay' hmax' hnodup.1]
    refine and_congr_right fun hwithin => ?_
    rw [List.forall_mem_singleton, and_iff_right (List.pairwise_singleton _ _)]
    refine (hboth hwithin).trans (forall₂_congr fun f _ => ?_)
    rw [List.forall_mem_singleton]

theorem numbered_seqs (hlen : payloads.length < 2 ^ 64) :
    (numbered payloads).map (fun f => f.seq.toNat) = List.range payloads.length := by
  refine List.ext_getElem (by simp [numbered]) fun i hi _ => ?_
  have hlt : i < payloads.length := by simpa [numbered] using hi
  simp only [numbered, List.getElem_map, List.getElem_mapIdx, List.getElem_range]
  exact UInt64.toNat_ofNat_of_lt' (Nat.lt_trans hlt hlen)

theorem numbered_payload (hlen : payloads.length < 2 ^ 64) {f : ReliableFrame}
    (hf : f ∈ numbered payloads) : f.payload = payloads.getD f.seq.toNat [] := by
  obtain ⟨i, hi, rfl⟩ := List.mem_mapIdx.mp hf
  have hnat : (UInt64.ofNat i).toNat = i := UInt64.toNat_ofNat_of_lt' (Nat.lt_trans hi hlen)
  show payloads[i] = payloads.getD (UInt64.ofNat i).toNat []
  rw [hnat, List.getD_eq_getElem _ _ hi]

theorem range_map_getD (payloads : List (List UInt8)) :
    (List.range payloads.length).map (fun i => payloads.getD i []) = payloads := by
  refine List.ext_getElem (by simp) fun i _ hi => ?_
  rw [List.getElem_map, List.getElem_range, List.getD_eq_getElem _ _ hi]

/-- When the frames are a permutation of the numbered payloads, everything has been handed over
exactly when every frame was accepted. -/
theorem delivered_iff_all_accepted (hin : ReceivedInOrder (fun i => payloads.getD i []) h r)
    (hnodup : (h.map fun e => e.input.seq.toNat).Nodup)
    (hseqs : ∀ v, (∃ e ∈ h, e.input.seq.toNat = v) ↔ v < payloads.length) :
    h.flatMap released = payloads ↔ ∀ e ∈ h, e.pre.Accepts e.input.seq := by
  constructor
  · intro houtputs e he
    have hnext : r.nextExpected.toNat = payloads.length := by
      have hlength := congrArg List.length (houtputs.symm.trans hin.outputs)
      rw [List.length_map, List.length_range] at hlength
      exact hlength.symm
    have hlt : e.input.seq.toNat < r.nextExpected.toNat := hnext ▸ (hseqs _).mp ⟨e, he, rfl⟩
    -- the number was accepted in some call, and no other call had it
    obtain ⟨e', he', hacc, hseq⟩ := hin.ordered.below _ hlt
    rwa [List.inj_on_of_nodup_map hnodup he' he hseq] at hacc
  · intro hall
    have hnext : r.nextExpected.toNat = payloads.length := by
      refine next_eq_of_seen hin.ordered fun v => ?_
      rw [← hseqs]
      constructor
      · rintro ⟨e, he, -, hseq⟩
        exact ⟨e, he, hseq⟩
      · rintro ⟨e, he, hseq⟩
        exact ⟨e, he, hall e he, hseq⟩
    rw [hin.outputs, hnext, range_map_getD]

end OrderedDeliveryLemmas

/-- A permutation of the frames is delivered whole exactly when no frame comes after one that is 64
or more ahead of it. -/
theorem delivers_permuted_iff {payloads : List (List UInt8)} {frames : List ReliableFrame}
    (hlen : payloads.length < 2 ^ 64) (hperm : frames.Perm (numbered payloads)) :
    (run receiverStep ReliableReceiver.new frames).flatMap released = payloads ↔
      frames.Pairwise WithinWindow := by
  have hseqs : (frames.map fun f => f.seq.toNat).Perm (List.range payloads.length) :=
    numbered_seqs hlen ▸ hperm.map _
  have hpay : ∀ f ∈ frames, f.payload = payloads.getD f.seq.toNat [] :=
    fun f hf => numbered_payload hlen (hperm.mem_iff.mp hf)
  have hmax : ∀ f ∈ frames, f.seq.toNat < 2 ^ 64 - 1 := fun f hf => by
    have hlt := List.mem_range.mp (hseqs.mem_iff.mp (List.mem_map_of_mem hf))
    omega
  have hnodup := hseqs.nodup_iff.mpr List.nodup_range
  have hinputs : (run receiverStep ReliableReceiver.new frames).map (fun e => e.input.seq.toNat) =
      frames.map fun f => f.seq.toNat := by
    conv_rhs => rw [← @map_input_run _ _ _ receiverStep ReliableReceiver.new frames, List.map_map]
    rfl
  have hin := @receivedInOrder_run (fun i => payloads.getD i []) frames hpay hmax
  refine (delivered_iff_all_accepted hin (hinputs ▸ hnodup) fun v => ?_).trans
    (@all_accepted_iff (fun i => payloads.getD i []) frames hpay hmax hnodup)
  rw [← List.mem_range, ← hseqs.mem_iff, ← hinputs, List.mem_map]

/-- Three frames in reverse order are delivered. -/
theorem delivers_permuted_iff_reversed :
    (run receiverStep ReliableReceiver.new [⟨2, [12]⟩, ⟨1, [11]⟩, ⟨0, [10]⟩]).flatMap released =
      [[10], [11], [12]] :=
  (delivers_permuted_iff (by decide) (by decide)).mpr (by decide)

/-- Of 65 frames, frame 64 comes first and frame 0 right after it is dropped: nothing is ever
delivered. -/
theorem delivers_permuted_far_ahead :
    let payloads : List (List UInt8) := (List.range 65).map fun i => [UInt8.ofNat i]
    let frames := (numbered payloads).drop 64 ++ (numbered payloads).take 64
    frames.Perm (numbered payloads) ∧ payloads ≠ [] ∧
      (run receiverStep ReliableReceiver.new frames).flatMap released = [] := by
  refine ⟨?_, by decide, by decide +kernel⟩
  exact List.perm_append_comm.trans (by rw [List.take_append_drop])

end Blackwing.Protocol

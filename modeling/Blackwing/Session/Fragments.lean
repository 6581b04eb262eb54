import Blackwing.Lib.Fifo
import Blackwing.Protocol.Codec

/-!
# Fragmentation

A message that does not fit one frame is sent as several. The message layer (`wire.rs`) cuts the
serialized message, the secure layer below it (`secure_conn.rs`) cuts the encrypted frame, and
both do it the same way: bit 0 of the header's `flags` says that more fragments follow, the other
fifteen bits are the index of the fragment.

Both layers, whole or split into a sender and a receiver, are the loops `sendSplit` and
`recvJoined` over the frame channel below them.

* `sendSplit_cases`, `sendSplit_lossless`: the frames a message becomes.
* `recvJoined_returns`: the rest of a message, from any of its fragments on, is returned when it
  fits the limit and its indices do not wrap.
* `recvJoined_oversized`, `recvJoined_wrapped`: where reassembly stops when it does not.
-/

namespace Blackwing.Session

open Protocol

/-! ## Errors -/

/-- `AdapterError`, without the errors of the QUIC library that it wraps. -/
inductive AdapterError where
  | write
  | read
  | protocol (e : ProtocolError)
  | closed
deriving DecidableEq, Repr

/-- `SecureConnError`, the variants that sending and receiving return. -/
inductive SecureConnError where
  | adapter (e : AdapterError)
  | protocol (e : ProtocolError)
  | lifecycleError
  | fragmentOutOfOrder
  | oversizedMessage (size : Nat)
deriving DecidableEq, Repr

/-- `WireError`, the variants that sending and receiving return. -/
inductive WireError where
  | session (e : SecureConnError)
  | protocol (e : ProtocolError)
  | fragmentOutOfOrder
  | oversizedMessage (size : Nat)
deriving DecidableEq, Repr

/-! ## Frames of a message -/

/-- `MESSAGE_FRAGMENT_SIZE` and `FRAGMENT_SIZE`. -/
def fragmentSize : Nat := 60000

/-- `FLAG_FRAGMENT_MORE`. -/
def flagFragmentMore : UInt16 := 0x0001

/-- `MAX_REASSEMBLED_SIZE`. -/
def maxReassembledSize : Nat := 4 * 1024 * 1024

/-- `PACKET_TYPE_MESSAGE`. -/
def packetTypeMessage : UInt16 := 0x02

/-- `fragment_flags`. -/
def fragmentFlags (index : UInt16) (more : Bool) : UInt16 := index <<< 1 ||| more.toUInt16

/-- The frame both layers build for one fragment. -/
def fragmentFrame (index : UInt16) (more : Bool) (payload : List UInt8) : OwnedProtocolFrame where
  header :=
    { magic := protocolMagic
      schemaVersion := currentVersion.toU16
      flags := fragmentFlags index more
      packetType := packetTypeMessage
      payloadLength := UInt16.ofNat payload.length
      sequenceNumber := 0
      sessionEpoch := 0
      monotonicTimestamp := 0 }
  payload := payload

/-- The index a frame carries. -/
def fragmentIndex (frame : OwnedProtocolFrame) : UInt16 := frame.header.flags >>> 1

/-- Whether a frame announces another fragment. -/
def fragmentMore (frame : OwnedProtocolFrame) : Bool :=
  frame.header.flags &&& flagFragmentMore != 0

/-! ## Sending -/

section Loops

variable {σ ε : Type}

/-- The `while offset < total` loop; `fuel` bounds its rounds. -/
def sendLoop (sendFrame : OwnedProtocolFrame → Call σ ε Unit) (payload : List UInt8) :
    Nat → UInt16 → Nat → Call σ ε Unit
  | 0, _, _ => pure ()
  | fuel + 1, index, offset =>
    if offset < payload.length then do
      let stop := min (offset + fragmentSize) payload.length
      let more := decide (stop < payload.length)
      sendFrame (fragmentFrame index more ((payload.drop offset).take (stop - offset)))
      let index ← Call.ofOutcome (Outcome.add16 index 1)
      sendLoop sendFrame payload fuel index stop
    else pure ()

/-- A payload in one frame if it fits, in fragments otherwise. Each round of the loop sends at
least one byte. -/
def sendSplit (sendFrame : OwnedProtocolFrame → Call σ ε Unit) (payload : List UInt8) :
    Call σ ε Unit :=
  if payload.length ≤ fragmentSize then sendFrame (fragmentFrame 0 false payload)
  else sendLoop sendFrame payload payload.length 0 0

/-! ## Receiving -/

/-- The `while more` loop, entered with `more` set. An index has fifteen bits, so when the index
`2 ^ 15` is expected the next fragment is out of order whatever it is; the first argument counts
the rounds until then. -/
def collect (recvFrame : Call σ ε OwnedProtocolFrame) (outOfOrder : ε) (oversized : Nat → ε) :
    Nat → Nat → List UInt8 → Call σ ε (List UInt8)
  | 0, _, _ => do
    let _ ← recvFrame
    Call.fail outOfOrder
  | rounds + 1, expected, payload => do
    let fragment ← recvFrame
    Call.rejectIf ((fragmentIndex fragment).toNat ≠ expected) outOfOrder
    let newLen := payload.length + fragment.payload.length
    Call.rejectIf (newLen > maxReassembledSize) (oversized newLen)
    if fragmentMore fragment then
      collect recvFrame outOfOrder oversized rounds (expected + 1) (payload ++ fragment.payload)
    else pure (payload ++ fragment.payload)

/-- One message, from the frames that come next. -/
def recvJoined (recvFrame : Call σ ε OwnedProtocolFrame) (outOfOrder : ε) (oversized : Nat → ε) :
    Call σ ε (List UInt8) := do
  let frame ← recvFrame
  let index := (fragmentIndex frame).toNat
  if index = 0 ∧ fragmentMore frame = false then pure frame.payload
  else if fragmentMore frame then
    collect recvFrame outOfOrder oversized (2 ^ 15 - (index + 1)) (index + 1) frame.payload
  else pure frame.payload

end Loops

/-! ## The two layers -/

section Layers

variable {σ : Type}

/-- `MessageSession::send_fragmented`. -/
def MessageSession.sendFragmented (sendSecureFrame : OwnedProtocolFrame → Call σ SecureConnError Unit) :
    List UInt8 → Call σ WireError Unit :=
  sendSplit fun frame => (sendSecureFrame frame).mapErr .session

/-- `MessageSession::recv_reassembled`. -/
def MessageSession.recvReassembled (recvSecureFrame : Call σ SecureConnError OwnedProtocolFrame) :
    Call σ WireError (List UInt8) :=
  recvJoined (recvSecureFrame.mapErr .session) .fragmentOutOfOrder .oversizedMessage

/-- `MessageSender::send_fragmented`. -/
def MessageSender.sendFragmented (sendSecureFrame : OwnedProtocolFrame → Call σ SecureConnError Unit) :
    List UInt8 → Call σ WireError Unit :=
  sendSplit fun frame => (sendSecureFrame frame).mapErr .session

/-- `MessageReceiver::recv_reassembled`. -/
def MessageReceiver.recvReassembled (recvSecureFrame : Call σ SecureConnError OwnedProtocolFrame) :
    Call σ WireError (List UInt8) :=
  recvJoined (recvSecureFrame.mapErr .session) .fragmentOutOfOrder .oversizedMessage

/-- `SecureConnection::send_fragments`, with `send_one_fragment` as the frame it builds. -/
def SecureConnection.sendFragments (sendFrame : OwnedProtocolFrame → Call σ AdapterError Unit) :
    List UInt8 → Call σ SecureConnError Unit :=
  sendSplit fun frame => (sendFrame frame).mapErr .adapter

/-- `SecureConnection::recv_fragments`. -/
def SecureConnection.recvFragments (recvFrame : Call σ AdapterError OwnedProtocolFrame) :
    Call σ SecureConnError (List UInt8) :=
  recvJoined (recvFrame.mapErr .adapter) .fragmentOutOfOrder .oversizedMessage

/-- `SecureSender::send_fragments`, with `send_one_fragment` as the frame it builds. -/
def SecureSender.sendFragments (sendFrame : OwnedProtocolFrame → Call σ AdapterError Unit) :
    List UInt8 → Call σ SecureConnError Unit :=
  sendSplit fun frame => (sendFrame frame).mapErr .adapter

/-- `SecureReceiver::recv_fragments`. -/
def SecureReceiver.recvFragments (recvFrame : Call σ AdapterError OwnedProtocolFrame) :
    Call σ SecureConnError (List UInt8) :=
  recvJoined (recvFrame.mapErr .adapter) .fragmentOutOfOrder .oversizedMessage

end Layers

/-! ## What a message becomes -/

/-- The number of fragments of a message. -/
def fragmentCount (len : Nat) : Nat := max 1 ((len + (fragmentSize - 1)) / fragmentSize)

/-- The bytes of fragment `j`. -/
def chunk (m : List UInt8) (j : Nat) : List UInt8 := (m.drop (fragmentSize * j)).take fragmentSize

/-- Fragment `j` of a message. -/
def fragment (m : List UInt8) (j : Nat) : OwnedProtocolFrame :=
  fragmentFrame (UInt16.ofNat j) (decide (fragmentSize * (j + 1) < m.length)) (chunk m j)

/-- `k` fragments of a message, from fragment `j` on. -/
def fragmentsFrom (m : List UInt8) (j k : Nat) : List OwnedProtocolFrame :=
  (List.range' j k).map (fragment m)

/-- All fragments of a message. -/
def fragmentsOf (m : List UInt8) : List OwnedProtocolFrame :=
  fragmentsFrom m 0 (fragmentCount m.length)

namespace FragmentsLemmas

variable {m : List UInt8} {j k : Nat}

theorem toNat_fragmentFlags (i : UInt16) (more : Bool) :
    (fragmentFlags i more).toNat = 2 * (i.toNat % 2 ^ 15) + more.toNat := by
  have hshift : i.toNat <<< (UInt16.toNat 1 % 16) % 2 ^ 16 = (i.toNat % 2 ^ 15) <<< 1 := by
    simp [Nat.shiftLeft_eq]
    omega
  have hbit : more.toNat < 2 ^ 1 := Bool.toNat_lt more
  have hmore : more.toUInt16.toNat = more.toNat := by cases more <;> rfl
  rw [fragmentFlags, UInt16.toNat_or, UInt16.toNat_shiftLeft, hshift, hmore,
    ← Nat.shiftLeft_add_eq_or_of_lt hbit, Nat.shiftLeft_eq, Nat.mul_comm]

theorem fragmentIndex_fragmentFrame (i : UInt16) (more : Bool) (p : List UInt8) :
    (fragmentIndex (fragmentFrame i more p)).toNat = i.toNat % 2 ^ 15 := by
  have hbit : more.toNat < 2 := Bool.toNat_lt more
  show ((fragmentFlags i more) >>> 1).toNat = _
  rw [UInt16.toNat_shiftRight, toNat_fragmentFlags]
  simp [Nat.shiftRight_eq_div_pow]
  omega

theorem fragmentMore_fragmentFrame (i : UInt16) (more : Bool) (p : List UInt8) :
    fragmentMore (fragmentFrame i more p) = more := by
  have hbit : (fragmentFlags i more &&& flagFragmentMore).toNat = more.toNat := by
    have hlt : more.toNat < 2 := Bool.toNat_lt more
    rw [UInt16.toNat_and, toNat_fragmentFlags]
    show _ &&& 1 = _
    rw [Nat.and_one_is_mod]
    omega
  show (fragmentFlags i more &&& flagFragmentMore != 0) = more
  cases more with
  | false =>
    rw [UInt16.toNat_inj.mp (hbit.trans (by rfl : Bool.toNat false = (0 : UInt16).toNat))]
    rfl
  | true =>
    rw [UInt16.toNat_inj.mp (hbit.trans (by rfl : Bool.toNat true = (1 : UInt16).toNat))]
    rfl

theorem fragmentIndex_fragment : (fragmentIndex (fragment m j)).toNat = j % 2 ^ 15 := by
  rw [fragment, fragmentIndex_fragmentFrame, UInt16.toNat_ofNat']
  omega

theorem fragmentMore_fragment :
    fragmentMore (fragment m j) = decide (fragmentSize * (j + 1) < m.length) :=
  fragmentMore_fragmentFrame _ _ _

theorem fragmentMore_of_lt (h : fragmentSize * (j + 1) < m.length) :
    fragmentMore (fragment m j) = true :=
  fragmentMore_fragment.trans (decide_eq_true h)

theorem not_fragmentMore_of_le (h : m.length ≤ fragmentSize * (j + 1)) :
    ¬ fragmentMore (fragment m j) = true := by
  rw [fragmentMore_fragment, decide_eq_true_iff]
  exact Nat.not_lt.mpr h

theorem length_chunk : (chunk m j).length = min fragmentSize (m.length - fragmentSize * j) := by
  rw [chunk, List.length_take, List.length_drop]

theorem length_chunk_le : (chunk m j).length ≤ fragmentSize := by
  rw [length_chunk]
  exact Nat.min_le_left _ _

theorem chunk_zero (h : m.length ≤ fragmentSize) : chunk m 0 = m := by
  rw [chunk, Nat.mul_zero, List.drop_zero, List.take_of_length_le h]

theorem chunk_last (h : m.length ≤ fragmentSize * (j + 1)) : chunk m j = m.drop (fragmentSize * j) := by
  rw [Nat.mul_succ] at h
  refine List.take_of_length_le ?_
  rw [List.length_drop]
  omega

theorem chunk_append_take :
    chunk m j ++ (m.drop (fragmentSize * (j + 1))).take (fragmentSize * k) =
      (m.drop (fragmentSize * j)).take (fragmentSize * (k + 1)) := by
  rw [chunk, Nat.mul_succ, ← List.drop_drop, Nat.mul_succ, Nat.add_comm (fragmentSize * k),
    List.take_add]

theorem fragmentsFrom_succ :
    fragmentsFrom m j (k + 1) = fragment m j :: fragmentsFrom m (j + 1) k := by
  rw [fragmentsFrom, List.range'_succ, List.map_cons, fragmentsFrom]

theorem fragmentsFrom_append {n : Nat} :
    fragmentsFrom m j (k + n) = fragmentsFrom m j k ++ fragmentsFrom m (j + k) n := by
  rw [fragmentsFrom, fragmentsFrom, fragmentsFrom, ← List.map_append, List.range'_append_1]

theorem fragmentsFrom_zero : fragmentsFrom m j 0 = [] := rfl

theorem lt_fragmentCount (hm : fragmentSize < m.length) {i : Nat} :
    i < fragmentCount m.length ↔ fragmentSize * i < m.length := by
  unfold fragmentCount fragmentSize at *
  omega

theorem fragmentCount_of_le (hm : m.length ≤ fragmentSize) : fragmentCount m.length = 1 := by
  unfold fragmentCount fragmentSize at *
  omega

theorem fragmentsOf_of_le (hm : m.length ≤ fragmentSize) :
    fragmentsOf m = [fragmentFrame 0 false m] := by
  have hmore : decide (fragmentSize * (0 + 1) < m.length) = false := by
    rw [Nat.zero_add, Nat.mul_one]
    exact decide_eq_false (Nat.not_lt.mpr hm)
  rw [fragmentsOf, fragmentCount_of_le hm, fragmentsFrom_succ, fragmentsFrom_zero, fragment,
    chunk_zero hm, hmore]
  rfl

theorem fragmentCount_lt (hm : m.length ≤ maxReassembledSize) : fragmentCount m.length < 2 ^ 16 := by
  unfold fragmentCount maxReassembledSize fragmentSize at *
  omega

theorem mem_fragmentsFrom {f : OwnedProtocolFrame} :
    f ∈ fragmentsFrom m j k ↔ ∃ i, j ≤ i ∧ i < j + k ∧ fragment m i = f := by
  rw [fragmentsFrom, List.mem_map]
  simp only [List.mem_range'_1, and_assoc]

theorem wellFormed_fragment : (fragment m j).WellFormed := by
  have hmagic : (fragment m j).header.magic = protocolMagic := rfl
  have hversion : (ProtocolVersion.ofU16 (fragment m j).header.schemaVersion).isCompatibleWith
      currentVersion = true := by
    show (ProtocolVersion.ofU16 currentVersion.toU16).isCompatibleWith currentVersion = true
    decide
  have hlen : (chunk m j).length < 2 ^ 16 := Nat.lt_of_le_of_lt length_chunk_le (by decide)
  refine ⟨?_, UInt16.toNat_ofNat_of_lt' hlen⟩
  simp only [PacketHeader.validate, hmagic, hversion, ne_eq, not_true_eq_false, if_false,
    Bool.not_true, Bool.false_eq_true]

theorem wellFormed_of_mem {f : OwnedProtocolFrame} (hf : f ∈ fragmentsOf m) :
    f.WellFormed ∧ f.payload.length ≤ fragmentSize := by
  obtain ⟨i, -, -, rfl⟩ := mem_fragmentsFrom.mp hf
  exact ⟨wellFormed_fragment, length_chunk_le⟩

/-! ### Sending -/

variable {σ ε : Type} {F : Fifo σ ε OwnedProtocolFrame} {s s' : σ} {l : List OwnedProtocolFrame}
  {Room : σ → Nat → Prop}

theorem carries_fragment (h : ∀ f ∈ fragmentsOf m, F.Carries f) :
    ∀ i < fragmentCount m.length, F.Carries (fragment m i) :=
  fun i hi => h _ (mem_fragmentsFrom.mpr ⟨i, Nat.zero_le _, by rwa [Nat.zero_add], rfl⟩)

/-- One round of the loop, at the offset of fragment `j`. -/
theorem sendLoop_succ (sendFrame : OwnedProtocolFrame → Call σ ε Unit) (fuel : Nat)
    (hj : fragmentSize * j < m.length) :
    sendLoop sendFrame m (fuel + 1) (UInt16.ofNat j) (min (fragmentSize * j) m.length) = (do
      sendFrame (fragment m j)
      let index ← Call.ofOutcome (Outcome.add16 (UInt16.ofNat j) 1)
      sendLoop sendFrame m fuel index (min (fragmentSize * (j + 1)) m.length)) := by
  have hoffset : min (fragmentSize * j) m.length = fragmentSize * j :=
    Nat.min_eq_left (Nat.le_of_lt hj)
  have hmore : min (fragmentSize * (j + 1)) m.length < m.length ↔
      fragmentSize * (j + 1) < m.length := by
    omega
  have hchunk : (m.drop (fragmentSize * j)).take
      (min (fragmentSize * (j + 1)) m.length - fragmentSize * j) = chunk m j := by
    rw [chunk, List.take_eq_take_iff, List.length_drop, Nat.mul_succ]
    omega
  rw [sendLoop, hoffset, if_pos hj, ← Nat.mul_succ]
  simp only [Nat.succ_eq_add_one, hchunk, hmore]
  rfl

theorem sendLoop_done (sendFrame : OwnedProtocolFrame → Call σ ε Unit) (fuel : Nat) (index : UInt16)
    (hj : ¬ fragmentSize * j < m.length) :
    sendLoop sendFrame m fuel index (min (fragmentSize * j) m.length) = pure () := by
  rw [Nat.min_eq_right (Nat.not_lt.mp hj)]
  cases fuel with
  | zero => rfl
  | succ fuel => exact if_neg (Nat.lt_irrefl _)

/-- The loop from fragment `j` on: unless a frame is refused below, all fragments are sent, and the
index overflows after `2 ^ 16` of them. A channel with room for the fragments refuses none. -/
theorem sendLoop_cases {n r fuel : Nat} (hroom : F.Grants (fun _ => 1) Room)
    (hn : ∀ i, i < n ↔ fragmentSize * i < m.length)
    (hcarries : ∀ i < n, F.Carries (fragment m i)) (hfuel : r ≤ fuel) (hj : j < 2 ^ 16)
    (hr : j + r = min n (2 ^ 16)) (hs : F.Holds s l) :
    ((∀ k, ¬ Room s (r + k)) ∧
        (sendLoop F.send m fuel (UInt16.ofNat j) (min (fragmentSize * j) m.length) s).1 ≠ .ok ()) ∨
      ((sendLoop F.send m fuel (UInt16.ofNat j) (min (fragmentSize * j) m.length) s).1 =
          (if n < 2 ^ 16 then .ok () else .panicked) ∧
        F.Holds (sendLoop F.send m fuel (UInt16.ofNat j) (min (fragmentSize * j) m.length) s).2
          (l ++ fragmentsFrom m j r) ∧
        ∀ k, Room s (r + k) →
          Room (sendLoop F.send m fuel (UInt16.ofNat j) (min (fragmentSize * j) m.length) s).2 k) := by
  induction r generalizing j fuel s l with
  | zero =>
    have hlt : n < 2 ^ 16 := by omega
    have hdone : ¬ fragmentSize * j < m.length := fun h => by
      have := (hn j).mpr h
      omega
    right
    rw [sendLoop_done F.send fuel _ hdone, fragmentsFrom_zero, List.append_nil, if_pos hlt]
    exact ⟨rfl, hs, fun k hk => by rwa [Nat.zero_add] at hk⟩
  | succ r ih =>
    obtain ⟨fuel, rfl⟩ : ∃ k, fuel = k + 1 := ⟨fuel - 1, by omega⟩
    have hjn : j < n := by omega
    have hindex : (UInt16.ofNat j).toNat = j := UInt16.toNat_ofNat_of_lt' hj
    have hgrant : ∀ k, Room s (r + 1 + k) →
        (F.send (fragment m j) s).1 = .ok () ∧ Room (F.send (fragment m j) s).2 (r + k) :=
      fun k hk => hroom s l _ _ hs (hcarries j hjn) (by rwa [Nat.add_right_comm, Nat.add_comm] at hk)
    rw [sendLoop_succ F.send fuel ((hn j).mp hjn)]
    by_cases hok : (F.send (fragment m j) s).1 = .ok ()
    · have hsend : F.send (fragment m j) s = (.ok (), (F.send (fragment m j) s).2) :=
        Prod.ext hok rfl
      have hsent := F.send_holds hs (hcarries j hjn) hok
      rw [Call.bind_of_ok hsend, fragmentsFrom_succ, List.append_cons]
      rcases Outcome.add16_cases (ε := ε) (UInt16.ofNat j) 1 with ⟨c, hc, hadd⟩ | ⟨hc, hadd⟩
      · rw [hindex, UInt16.toNat_one] at hc
        have hnext : c = UInt16.ofNat (j + 1) := by rw [← hc, UInt16.ofNat_toNat]
        have hlt := c.toNat_lt
        rw [hadd, Call.ofOutcome_ok_bind, hnext]
        rcases ih (by omega : r ≤ fuel) (by omega : j + 1 < 2 ^ 16) (by omega) hsent with
          ⟨hfull, hfail⟩ | ⟨hout, hholds, hleft⟩
        · exact Or.inl ⟨fun k hk => hfull k (hgrant k hk).2, hfail⟩
        · exact Or.inr ⟨hout, hholds, fun k hk => hleft k (hgrant k hk).2⟩
      · rw [hindex, UInt16.toNat_one] at hc
        have hover : ¬ n < 2 ^ 16 := by omega
        obtain rfl : r = 0 := by omega
        right
        rw [hadd, Call.ofOutcome_panicked_bind, if_neg hover, fragmentsFrom_zero, List.append_nil]
        exact ⟨rfl, hsent, fun k hk => Nat.zero_add k ▸ (hgrant k hk).2⟩
    · left
      refine ⟨fun k hk => hok (hgrant k hk).1, fun h => hok ?_⟩
      obtain ⟨_, s1, hsend, -⟩ := Call.bind_fst_eq_ok h
      rw [hsend]

/-- Sending a message: unless a frame is refused below, its fragments are sent, up to the overflow
of the index. -/
theorem sendSplit_cases (hroom : F.Grants (fun _ => 1) Room)
    (hcarries : ∀ i < fragmentCount m.length, F.Carries (fragment m i)) (hs : F.Holds s l) :
    ((∀ k, ¬ Room s (min (fragmentCount m.length) (2 ^ 16) + k)) ∧
        (sendSplit F.send m s).1 ≠ .ok ()) ∨
      ((sendSplit F.send m s).1 =
          (if fragmentCount m.length < 2 ^ 16 then .ok () else .panicked) ∧
        F.Holds (sendSplit F.send m s).2
          (l ++ fragmentsFrom m 0 (min (fragmentCount m.length) (2 ^ 16))) ∧
        ∀ k, Room s (min (fragmentCount m.length) (2 ^ 16) + k) → Room (sendSplit F.send m s).2 k) := by
  by_cases hm : m.length ≤ fragmentSize
  · have hcount := fragmentCount_of_le hm
    have hone : min 1 (2 ^ 16) = 1 := Nat.min_eq_left (by decide)
    have hall : fragmentsFrom m 0 1 = [fragmentFrame 0 false m] := by
      rw [← fragmentsOf_of_le hm, fragmentsOf, hcount]
    have hframe : fragment m 0 = fragmentFrame 0 false m := List.head_eq_of_cons_eq
      (fragmentsFrom_succ.symm.trans hall)
    rw [sendSplit, if_pos hm, hcount, hone, hall, if_pos (by decide)]
    have hcarry := hcarries 0 (by rw [hcount]; exact Nat.one_pos)
    rw [hframe] at hcarry
    by_cases hok : (F.send (fragmentFrame 0 false m) s).1 = .ok ()
    · exact Or.inr ⟨hok, F.send_holds hs hcarry hok, fun k hk => (hroom s l _ k hs hcarry hk).2⟩
    · exact Or.inl ⟨fun k hk => hok (hroom s l _ k hs hcarry hk).1, hok⟩
  · have hlong := Nat.not_le.mp hm
    have hfuel : min (fragmentCount m.length) (2 ^ 16) ≤ m.length := by
      unfold fragmentCount fragmentSize at *
      omega
    rw [sendSplit, if_neg hm]
    exact sendLoop_cases hroom (fun i => lt_fragmentCount hlong) hcarries hfuel (by decide)
      (Nat.zero_add _) hs

/-! ### Receiving -/

variable {recvFrame : Call σ ε OwnedProtocolFrame} {outOfOrder : ε} {oversized : Nat → ε}
  {f : OwnedProtocolFrame}

theorem collect_step {rounds expected : Nat} {acc : List UInt8} (hrecv : recvFrame s = (.ok f, s')) :
    collect recvFrame outOfOrder oversized (rounds + 1) expected acc s =
      if (fragmentIndex f).toNat ≠ expected then (.err outOfOrder, s')
      else if acc.length + f.payload.length > maxReassembledSize then
        (.err (oversized (acc.length + f.payload.length)), s')
      else if fragmentMore f then
        collect recvFrame outOfOrder oversized rounds (expected + 1) (acc ++ f.payload) s'
      else (.ok (acc ++ f.payload), s') := by
  rw [collect, Call.bind_of_ok hrecv, Call.rejectIf_bind]
  split
  · rfl
  · rw [Call.rejectIf_bind]
    split
    · rfl
    · split
      · rfl
      · rfl

theorem recvJoined_step (hrecv : recvFrame s = (.ok f, s')) :
    recvJoined recvFrame outOfOrder oversized s =
      if fragmentMore f then
        collect recvFrame outOfOrder oversized (2 ^ 15 - ((fragmentIndex f).toNat + 1))
          ((fragmentIndex f).toNat + 1) f.payload s'
      else (.ok f.payload, s') := by
  rw [recvJoined, Call.bind_of_ok hrecv]
  cases hmore : fragmentMore f with
  | false =>
    simp only [and_true, Bool.false_eq_true, if_false, ite_self]
    rfl
  | true => simp

section Blocks

variable {w e : Nat}

theorem index_split (j : Nat) : ∃ w e, w % 2 ^ 15 = 0 ∧ w + e = j ∧ j % 2 ^ 15 = e :=
  ⟨j - j % 2 ^ 15, j % 2 ^ 15, by omega, by omega, rfl⟩

section

variable (hw : w % 2 ^ 15 = 0)
include hw

theorem fragmentIndex_block (he : e < 2 ^ 15) :
    (fragmentIndex (fragment m (w + e))).toNat = e := by
  rw [fragmentIndex_fragment]
  omega

variable {acc : List UInt8}

/-- The loop on the fragment whose index it expects. -/
theorem collect_index (he : e < 2 ^ 15) (hrecv : recvFrame s = (.ok (fragment m (w + e)), s')) :
    collect recvFrame outOfOrder oversized (2 ^ 15 - e) e acc s =
      if acc.length + (fragment m (w + e)).payload.length > maxReassembledSize then
        (.err (oversized (acc.length + (fragment m (w + e)).payload.length)), s')
      else if fragmentMore (fragment m (w + e)) then
        collect recvFrame outOfOrder oversized (2 ^ 15 - (e + 1)) (e + 1)
          (acc ++ (fragment m (w + e)).payload) s'
      else (.ok (acc ++ (fragment m (w + e)).payload), s') := by
  have hrounds : 2 ^ 15 - e = (2 ^ 15 - (e + 1)) + 1 := by omega
  rw [hrounds, collect_step hrecv, if_neg (not_not.mpr (fragmentIndex_block hw he))]

/-- A block of fragments that all announce another one is read by the loop. The block starts at
fragment `w + e`, whose index is `e`. -/
theorem collect_block (he : e + k ≤ 2 ^ 15) (hmore : fragmentSize * (w + e + k) < m.length)
    (hsize : acc.length + fragmentSize * k ≤ maxReassembledSize)
    (hs : F.Holds s (fragmentsFrom m (w + e) k ++ l)) :
    ∃ s', F.Holds s' l ∧ collect F.recv outOfOrder oversized (2 ^ 15 - e) e acc s =
      collect F.recv outOfOrder oversized (2 ^ 15 - (e + k)) (e + k)
        (acc ++ (m.drop (fragmentSize * (w + e))).take (fragmentSize * k)) s' := by
  induction k generalizing e acc s with
  | zero =>
    refine ⟨s, hs, ?_⟩
    rw [Nat.mul_zero, List.take_zero, List.append_nil, Nat.add_zero]
  | succ k ih =>
    have hmul : fragmentSize * (k + 1) = fragmentSize * k + fragmentSize := Nat.mul_succ _ _
    have hnext : fragmentSize * (w + e + 1) < m.length :=
      Nat.lt_of_le_of_lt (Nat.mul_le_mul_left _ (by omega)) hmore
    have hlen : (chunk m (w + e)).length = fragmentSize := by
      rw [length_chunk]
      rw [Nat.mul_succ] at hnext
      omega
    rw [fragmentsFrom_succ, List.cons_append] at hs
    obtain ⟨s1, hrecv, hs1⟩ := F.recv_holds hs
    have hfits : ¬ acc.length + (fragment m (w + e)).payload.length > maxReassembledSize := by
      show ¬ acc.length + (chunk m (w + e)).length > maxReassembledSize
      omega
    have hsize' : (acc ++ chunk m (w + e)).length + fragmentSize * k ≤ maxReassembledSize := by
      rw [List.length_append]
      omega
    have hrest : F.Holds s1 (fragmentsFrom m (w + (e + 1)) k ++ l) := hs1
    have hlast : fragmentSize * (w + (e + 1) + k) < m.length := by
      rw [← Nat.add_assoc, Nat.add_assoc (w + e), Nat.add_comm 1]
      exact hmore
    obtain ⟨s2, hs2, hcollect⟩ := ih (by omega) hlast hsize' hrest
    refine ⟨s2, hs2, ?_⟩
    rw [collect_index hw (by omega) hrecv, if_neg hfits, if_pos (fragmentMore_of_lt hnext),
      ← chunk_append_take, ← List.append_assoc, Nat.add_comm k 1, ← Nat.add_assoc e 1 k]
    exact hcollect

/-- The first `k` fragments of such a block, read from the start of a call. -/
theorem recvJoined_block (hk : 0 < k) (he : e + k ≤ 2 ^ 15)
    (hmore : fragmentSize * (w + e + k) < m.length)
    (hsize : fragmentSize * k ≤ maxReassembledSize)
    (hs : F.Holds s (fragmentsFrom m (w + e) k ++ l)) :
    ∃ s', F.Holds s' l ∧ recvJoined F.recv outOfOrder oversized s =
      collect F.recv outOfOrder oversized (2 ^ 15 - (e + k)) (e + k)
        ((m.drop (fragmentSize * (w + e))).take (fragmentSize * k)) s' := by
  obtain ⟨k, rfl⟩ : ∃ i, k = i + 1 := ⟨k - 1, by omega⟩
  have hmul : fragmentSize * (k + 1) = fragmentSize * k + fragmentSize := Nat.mul_succ _ _
  have hnext : fragmentSize * (w + e + 1) < m.length :=
    Nat.lt_of_le_of_lt (Nat.mul_le_mul_left _ (by omega)) hmore
  have hlen := length_chunk_le (m := m) (j := w + e)
  rw [fragmentsFrom_succ, List.cons_append] at hs
  obtain ⟨s1, hrecv, hs1⟩ := F.recv_holds hs
  have hindex := fragmentIndex_block (m := m) hw (by omega : e < 2 ^ 15)
  have hsize' : (chunk m (w + e)).length + fragmentSize * k ≤ maxReassembledSize := by omega
  have hrest : F.Holds s1 (fragmentsFrom m (w + (e + 1)) k ++ l) := hs1
  have hlast : fragmentSize * (w + (e + 1) + k) < m.length := by
    rw [← Nat.add_assoc, Nat.add_assoc (w + e), Nat.add_comm 1]
    exact hmore
  obtain ⟨s2, hs2, hcollect⟩ := collect_block hw (by omega) hlast hsize' hrest
  refine ⟨s2, hs2, ?_⟩
  rw [recvJoined_step hrecv, if_pos (fragmentMore_of_lt hnext), hindex, ← chunk_append_take,
    Nat.add_comm k 1, ← Nat.add_assoc e 1 k]
  exact hcollect

/-- The last fragment ends the loop. -/
theorem collect_last (he : e < 2 ^ 15) (hlast : m.length ≤ fragmentSize * (w + e + 1))
    (hsize : acc.length + (m.length - fragmentSize * (w + e)) ≤ maxReassembledSize)
    (hs : F.Holds s (fragment m (w + e) :: l)) :
    ∃ s', F.Holds s' l ∧ collect F.recv outOfOrder oversized (2 ^ 15 - e) e acc s =
      (.ok (acc ++ m.drop (fragmentSize * (w + e))), s') := by
  obtain ⟨s', hrecv, hs'⟩ := F.recv_holds hs
  have hbytes : (fragment m (w + e)).payload = m.drop (fragmentSize * (w + e)) := chunk_last hlast
  have hfits : ¬ acc.length + (m.drop (fragmentSize * (w + e))).length > maxReassembledSize := by
    rw [List.length_drop]
    exact Nat.not_lt.mpr hsize
  refine ⟨s', hs', ?_⟩
  rw [collect_index hw he hrecv, hbytes, if_neg hfits, if_neg (not_fragmentMore_of_le hlast)]

/-- A fragment that takes the message over the limit ends the loop with an error. -/
theorem collect_oversized (he : e < 2 ^ 15)
    (hsize : maxReassembledSize < acc.length + (chunk m (w + e)).length)
    (hs : F.Holds s (fragment m (w + e) :: l)) :
    ∃ s', F.Holds s' l ∧ collect F.recv outOfOrder oversized (2 ^ 15 - e) e acc s =
      (.err (oversized (acc.length + (chunk m (w + e)).length)), s') := by
  obtain ⟨s', hrecv, hs'⟩ := F.recv_holds hs
  have hover : acc.length + (fragment m (w + e)).payload.length > maxReassembledSize := hsize
  refine ⟨s', hs', ?_⟩
  rw [collect_index hw he hrecv, if_pos hover]
  rfl

end

theorem collect_wrapped {acc : List UInt8} (hs : F.Holds s (f :: l)) :
    ∃ s', F.Holds s' l ∧ collect F.recv outOfOrder oversized (2 ^ 15 - 2 ^ 15) (2 ^ 15) acc s =
      (.err outOfOrder, s') := by
  obtain ⟨s', hrecv, hs'⟩ := F.recv_holds hs
  refine ⟨s', hs', ?_⟩
  rw [Nat.sub_self, collect, Call.bind_of_ok hrecv, Call.fail_apply]

end Blocks

end FragmentsLemmas

open FragmentsLemmas

section Reassembly

variable {σ ε : Type} {F : Fifo σ ε OwnedProtocolFrame} {s : σ} {l : List OwnedProtocolFrame}
  {m : List UInt8} {j k : Nat}

section

variable (outOfOrder : ε) (oversized : Nat → ε)

/-- The rest of a message, from fragment `j` on, is returned when it fits the limit and its indices
do not wrap. -/
theorem recvJoined_returns (hindex : j % 2 ^ 15 + k < 2 ^ 15)
    (hmore : k = 0 ∨ fragmentSize * (j + k) < m.length)
    (hlast : m.length ≤ fragmentSize * (j + k + 1))
    (hsize : m.length ≤ fragmentSize * j + maxReassembledSize)
    (hs : F.Holds s (fragmentsFrom m j (k + 1) ++ l)) :
    ∃ s', F.Holds s' l ∧ recvJoined F.recv outOfOrder oversized s =
      (.ok (m.drop (fragmentSize * j)), s') := by
  rcases Nat.eq_zero_or_pos k with rfl | hk
  · rw [fragmentsFrom_succ, fragmentsFrom_zero] at hs
    obtain ⟨s', hrecv, hs'⟩ := F.recv_holds hs
    have hbytes : (fragment m j).payload = m.drop (fragmentSize * j) := chunk_last hlast
    refine ⟨s', hs', ?_⟩
    rw [recvJoined_step hrecv, if_neg (not_fragmentMore_of_le hlast), hbytes]
  · have hmore := hmore.resolve_left (Nat.ne_of_gt hk)
    have hmul : fragmentSize * (j + k) = fragmentSize * j + fragmentSize * k := Nat.mul_add _ _ _
    rw [fragmentsFrom_append, List.append_assoc] at hs
    obtain ⟨w, e, hw, rfl, he⟩ := index_split j
    rw [he] at hindex
    obtain ⟨s1, hs1, hread⟩ := recvJoined_block hw hk (Nat.le_of_lt hindex) hmore (by omega) hs
    rw [Nat.add_assoc w _ k] at hs1 hlast hmul
    have htotal : ((m.drop (fragmentSize * (w + e))).take (fragmentSize * k)).length +
        (m.length - fragmentSize * (w + (e + k))) ≤ maxReassembledSize := by
      rw [List.length_take, List.length_drop]
      omega
    obtain ⟨s', hs', hend⟩ := collect_last hw hindex hlast htotal hs1
    refine ⟨s', hs', ?_⟩
    rw [hread, hend, hmul, ← List.drop_drop, List.take_append_drop]

/-- A call that starts at fragment `j` reads up to the fragment that takes it over the limit, and
fails. -/
theorem recvJoined_oversized (hk : 0 < k) (hindex : j % 2 ^ 15 + k < 2 ^ 15)
    (hmore : fragmentSize * (j + k) < m.length) (hfits : fragmentSize * k ≤ maxReassembledSize)
    (hsize : maxReassembledSize < fragmentSize * k + (chunk m (j + k)).length)
    (hs : F.Holds s (fragmentsFrom m j (k + 1) ++ l)) :
    ∃ s', F.Holds s' l ∧ recvJoined F.recv outOfOrder oversized s =
      (.err (oversized (fragmentSize * k + (chunk m (j + k)).length)), s') := by
  rw [fragmentsFrom_append, List.append_assoc] at hs
  obtain ⟨w, e, hw, rfl, he⟩ := index_split j
  rw [he] at hindex
  obtain ⟨s1, hs1, hread⟩ := recvJoined_block hw hk (Nat.le_of_lt hindex) hmore hfits hs
  have hread_length : ((m.drop (fragmentSize * (w + e))).take (fragmentSize * k)).length =
      fragmentSize * k := by
    rw [Nat.mul_add] at hmore
    rw [List.length_take, List.length_drop]
    omega
  rw [Nat.add_assoc w e k] at hs1 hsize ⊢
  rw [← hread_length] at hsize
  obtain ⟨s', hs', hend⟩ := collect_oversized hw hindex hsize hs1
  refine ⟨s', hs', ?_⟩
  rw [hread, hend, hread_length]

/-- A call that runs out of indices fails on the fragment after the last one, and reads it. -/
theorem recvJoined_wrapped (hk : 0 < k) (hindex : j % 2 ^ 15 + k = 2 ^ 15)
    (hmore : fragmentSize * (j + k) < m.length) (hfits : fragmentSize * k ≤ maxReassembledSize)
    (hs : F.Holds s (fragmentsFrom m j (k + 1) ++ l)) :
    ∃ s', F.Holds s' l ∧ recvJoined F.recv outOfOrder oversized s = (.err outOfOrder, s') := by
  rw [fragmentsFrom_append, List.append_assoc] at hs
  obtain ⟨w, e, hw, rfl, he⟩ := index_split j
  rw [he] at hindex
  obtain ⟨s1, hs1, hread⟩ := recvJoined_block hw hk (Nat.le_of_eq hindex) hmore hfits hs
  rw [fragmentsFrom_succ, fragmentsFrom_zero] at hs1
  obtain ⟨s', hs', hend⟩ := collect_wrapped hs1
  refine ⟨s', hs', ?_⟩
  rw [hread, hindex, hend]

/-- A message that fits the limit is returned as it was sent. -/
theorem recvJoined_message (hm : m.length ≤ maxReassembledSize)
    (hs : F.Holds s (fragmentsOf m ++ l)) :
    ∃ s', F.Holds s' l ∧ recvJoined F.recv outOfOrder oversized s = (.ok m, s') := by
  obtain ⟨k, hk⟩ : ∃ k, fragmentCount m.length = k + 1 :=
    ⟨fragmentCount m.length - 1, by unfold fragmentCount; omega⟩
  rw [fragmentsOf, hk] at hs
  obtain ⟨hfew, hmore, hlast⟩ : 0 % 2 ^ 15 + k < 2 ^ 15 ∧
      (k = 0 ∨ fragmentSize * (0 + k) < m.length) ∧ m.length ≤ fragmentSize * (0 + k + 1) := by
    unfold fragmentCount maxReassembledSize fragmentSize at *
    omega
  have hreturns := recvJoined_returns outOfOrder oversized hfew hmore hlast (by omega) hs
  rwa [Nat.mul_zero, List.drop_zero] at hreturns

end

end Reassembly

/-! ## Fragmentation as a channel -/

/-- The channel of messages that fragmentation makes of a channel of frames. -/
def fragmented {σ ε : Type} (F : Fifo σ ε OwnedProtocolFrame) (outOfOrder : ε)
    (oversized : Nat → ε) : Fifo σ ε (List UInt8) where
  send := sendSplit F.send
  recv := recvJoined F.recv outOfOrder oversized
  Carries := fun m => m.length ≤ maxReassembledSize ∧ ∀ f ∈ fragmentsOf m, F.Carries f
  Holds := fun s ms =>
    (∀ m ∈ ms, m.length ≤ maxReassembledSize) ∧ F.Holds s (ms.flatMap fragmentsOf)
  send_holds := by
    rintro s ms m ⟨hms, hs⟩ ⟨hm, hcarries⟩ hok
    have hfew := fragmentCount_lt hm
    have hnone : F.Grants (fun _ => 1) fun _ _ => False := fun _ _ _ _ _ _ h => h.elim
    rcases sendSplit_cases hnone (carries_fragment hcarries) hs with ⟨-, hfail⟩ | ⟨-, hsent, -⟩
    · exact absurd hok hfail
    · rw [Nat.min_eq_left (Nat.le_of_lt hfew)] at hsent
      refine ⟨fun m' hm' => ?_, ?_⟩
      · rcases List.mem_append.mp hm' with h | h
        · exact hms m' h
        · rw [List.mem_singleton.mp h]
          exact hm
      · rw [List.flatMap_append, List.flatMap_singleton]
        exact hsent
  recv_holds := by
    rintro s ms m ⟨hms, hs⟩
    obtain ⟨s', hs', hrecv⟩ :=
      recvJoined_message outOfOrder oversized (hms m List.mem_cons_self) hs
    exact ⟨s', hrecv, fun m' hm' => hms m' (List.mem_cons_of_mem _ hm'), hs'⟩

/-- Room for the fragments of a message is room for the message. -/
theorem fragmented_grants {σ ε : Type} {F : Fifo σ ε OwnedProtocolFrame} {Room : σ → Nat → Prop}
    (outOfOrder : ε) (oversized : Nat → ε) (hroom : F.Grants (fun _ => 1) Room) :
    (fragmented F outOfOrder oversized).Grants (fun m => fragmentCount m.length) Room := by
  rintro s ms m n ⟨-, hs⟩ ⟨hm, hcarries⟩ hn
  have hfew := fragmentCount_lt hm
  have hsend := sendSplit_cases hroom (carries_fragment hcarries) hs
  rw [if_pos hfew, Nat.min_eq_left (Nat.le_of_lt hfew)] at hsend
  rcases hsend with ⟨hfull, -⟩ | ⟨hok, -, hleft⟩
  · exact absurd hn (hfull n)
  · exact ⟨hok, hleft n hn⟩

theorem fragmented_total {σ ε : Type} {F : Fifo σ ε OwnedProtocolFrame} (outOfOrder : ε)
    (oversized : Nat → ε) (htotal : F.Total) : (fragmented F outOfOrder oversized).Total :=
  fun s ms m n hs hm _ => fragmented_grants outOfOrder oversized htotal s ms m n hs hm trivial

/-! ## A channel that loses nothing -/

/-- A secure connection that loses nothing, as the message layer sees it. -/
def secureQueue : Fifo (List OwnedProtocolFrame) SecureConnError OwnedProtocolFrame :=
  Fifo.queue (.adapter .closed)

/-- A wire that loses nothing, as the secure layer sees it. -/
def adapterQueue : Fifo (List OwnedProtocolFrame) AdapterError OwnedProtocolFrame :=
  Fifo.queue .closed

/-- A channel of frames that loses nothing, with the error of a closed stream converted. -/
def lossless {ε ε' : Type} (closed : ε') (h : ε' → ε) :
    Fifo (List OwnedProtocolFrame) ε OwnedProtocolFrame :=
  (Fifo.queue closed).mapErr h

theorem lossless_total {ε ε' : Type} (closed : ε') (h : ε' → ε) : (lossless closed h).Total :=
  Fifo.mapErr_grants h (Fifo.queue_total closed)

/-- What a message becomes, up to the overflow of the index. -/
theorem sendSplit_lossless {ε ε' : Type} {closed : ε'} {h : ε' → ε} (m : List UInt8)
    (l : List OwnedProtocolFrame) :
    sendSplit (lossless closed h).send m l =
      (if fragmentCount m.length < 2 ^ 16 then .ok () else .panicked,
        l ++ fragmentsFrom m 0 (min (fragmentCount m.length) (2 ^ 16))) := by
  have hs : (lossless closed h).Holds l l := rfl
  rcases sendSplit_cases (m := m) (lossless_total closed h) (fun _ _ => trivial) hs with
    ⟨hfull, -⟩ | ⟨hout, hholds, -⟩
  · exact absurd trivial (hfull 0)
  · exact Prod.ext hout hholds

end Blackwing.Session

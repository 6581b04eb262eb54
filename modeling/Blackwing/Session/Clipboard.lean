import Blackwing.Protocol.Message
import Blackwing.Session.Fragments

/-!
# Clipboard text end to end

`ProtocolMessage::as_clipboard_event` accepts a text of up to 1 MiB. On its way the text is encoded
twice, as the data of an event and as part of the payload of a message, and each encoding writes a
byte of 24 or more as two bytes. The message layer and the deserializer take messages of up to 4
MiB.

* `length_textMessage_of_le`, `length_textMessage_of_lt`: the size of the message that carries a
  text.
* `clipboard_text_arrives`: a text arrives exactly when that size is within the limit.
-/

namespace Blackwing.Session

open Protocol Cbor FragmentsLemmas

/-! ## Messages over the secure connection -/

section Calls

variable {σ : Type} (C : Ciborium) (sendSecureFrame : OwnedProtocolFrame → Call σ SecureConnError Unit)
  (recvSecureFrame : Call σ SecureConnError OwnedProtocolFrame)

/-- `MessageSession::send_message`. -/
def MessageSession.sendMessage (message : ProtocolMessage) : Call σ WireError Unit := do
  let payload ← Call.ofOutcome ((message.serialize C).mapErr .protocol)
  MessageSession.sendFragmented sendSecureFrame payload

/-- `MessageSession::recv_message`. -/
def MessageSession.recvMessage : Call σ WireError ProtocolMessage := do
  let payload ← MessageSession.recvReassembled recvSecureFrame
  Call.ofOutcome ((ProtocolMessage.deserialize C payload).mapErr .protocol)

/-- `MessageSender::send_message`. -/
def MessageSender.sendMessage (message : ProtocolMessage) : Call σ WireError Unit := do
  let payload ← Call.ofOutcome ((message.serialize C).mapErr .protocol)
  MessageSender.sendFragmented sendSecureFrame payload

/-- `MessageReceiver::recv_message`. -/
def MessageReceiver.recvMessage : Call σ WireError ProtocolMessage := do
  let payload ← MessageReceiver.recvReassembled recvSecureFrame
  Call.ofOutcome ((ProtocolMessage.deserialize C payload).mapErr .protocol)

end Calls

/-! ## The size of a text -/

/-- The number of bytes of a text that are encoded as two bytes. -/
def wideBytes (data : List UInt8) : Nat := data.countP fun b => 24 ≤ b.toNat

/-- The message that carries the text is within the limit: a byte below 24 takes one byte of it, any
other byte four, and names and heads the rest. -/
def TextFits (data : List UInt8) : Prop :=
  data.length + 3 * wideBytes data + 100 + headSize (data.length / 256 % 256) +
    headSize (data.length % 256) ≤ maxReassembledSize

instance (data : List UInt8) : Decidable (TextFits data) := inferInstanceAs (Decidable (_ ≤ _))

/-- The serialized message that carries a text. -/
def textMessage (data : List UInt8) : List UInt8 :=
  ProtocolMessage.codec.encode ⟨.clipboardData, 0, 0, ClipboardEvent.codec.encode ⟨.text, data⟩⟩

/-- A text is sent as a clipboard message and received, and the receiver gets the same text. -/
def ClipboardArrives (C : Ciborium)
    (sendMessage : ProtocolMessage → Call (List OwnedProtocolFrame) WireError Unit)
    (recvMessage : Call (List OwnedProtocolFrame) WireError ProtocolMessage) (data : List UInt8) :
    Prop :=
  ∃ message received, ProtocolMessage.clipboardEvent C ⟨.text, data⟩ = .ok message ∧
    (sendMessage message []).1 = .ok () ∧
    (recvMessage (sendMessage message []).2).1 = .ok received ∧
    received.asClipboardEvent C = some ⟨.text, data⟩

namespace ClipboardLemmas

variable {data : List UInt8}

theorem weight_encode_byte (b : UInt8) :
    weight (Codec.byte.encode b) = if 24 ≤ b.toNat then 4 else 1 := by
  have hall : ∀ n < 2 ^ 8, weight (head 0 n) = if 24 ≤ n then 4 else 1 := by decide +kernel
  exact hall b.toNat b.toNat_lt

theorem wideBytes_cons (b : UInt8) (data : List UInt8) :
    wideBytes (b :: data) = wideBytes data + if 24 ≤ b.toNat then 1 else 0 := by
  simp only [wideBytes, List.countP_cons, decide_eq_true_eq]

theorem weight_flatMap_byte (data : List UInt8) :
    weight (data.flatMap Codec.byte.encode) = data.length + 3 * wideBytes data := by
  induction data with
  | nil => rfl
  | cons b data ih =>
    rw [List.flatMap_cons, weight_append, ih, weight_encode_byte, List.length_cons, wideBytes_cons]
    split
    · omega
    · omega

theorem headSize_of_lt {n : Nat} (h : n < 24) : headSize n = 1 := if_pos h

/-- The head of an array of 64 KiB to 1 MiB, as part of another array. -/
theorem weight_head_array {n : Nat} (hlow : 2 ^ 16 ≤ n) (hhigh : n ≤ 2 ^ 20) :
    weight (head 4 n) = 4 + headSize (n / 256 % 256) + headSize (n % 256) := by
  have hhead : head 4 n = 154 :: toBE 4 n := by
    rw [head, if_neg (by omega), if_neg (by omega), if_neg (by omega), if_pos (by omega)]
    rfl
  have htop : headSize (n / 256 / 256 / 256 % 256) = 1 := headSize_of_lt (by omega)
  have hnext : headSize (n / 256 / 256 % 256) = 1 := headSize_of_lt (by omega)
  have hfirst : headSize (154 : UInt8).toNat = 2 := by decide
  rw [hhead]
  simp only [weight, toBE, toLE, List.reverse_cons, List.reverse_nil, List.nil_append,
    List.cons_append, List.map_cons, List.map_nil, List.sum_cons, List.sum_nil,
    UInt8.toNat_ofNat', Nat.reducePow, hfirst, htop, hnext]
  omega

/-- The event that carries a text: 18 bytes of names and heads, and the array. -/
theorem encode_event (data : List UInt8) :
    ∃ names, names.length = 18 ∧ weight names = 36 ∧
      ClipboardEvent.codec.encode ⟨.text, data⟩ = names ++ Codec.bytes.encode data := by
  refine ⟨head 5 2 ++ (Codec.text.encode (utf8 "format") ++ Codec.text.encode (utf8 "Text") ++
    Codec.text.encode (utf8 "data")), by decide, by decide, ?_⟩
  simp only [List.append_assoc]
  rfl

/-- The message that carries an event: 55 bytes of names, heads and numbers, and the array. -/
theorem length_encode_message (payload : List UInt8) :
    (ProtocolMessage.codec.encode ⟨.clipboardData, 0, 0, payload⟩).length =
      55 + headSize payload.length + weight payload := by
  have hencode : ProtocolMessage.codec.encode ⟨.clipboardData, 0, 0, payload⟩ =
      (head 5 4 ++ (Codec.text.encode (utf8 "message_type") ++
        Codec.text.encode (utf8 "ClipboardData") ++ (Codec.text.encode (utf8 "message_id") ++
          head 0 0 ++ (Codec.text.encode (utf8 "flags") ++ head 0 0 ++
            Codec.text.encode (utf8 "payload"))))) ++ Codec.bytes.encode payload := by
    simp only [List.append_assoc]
    rfl
  have hnames : (head 5 4 ++ (Codec.text.encode (utf8 "message_type") ++
      Codec.text.encode (utf8 "ClipboardData") ++ (Codec.text.encode (utf8 "message_id") ++
        head 0 0 ++ (Codec.text.encode (utf8 "flags") ++ head 0 0 ++
          Codec.text.encode (utf8 "payload"))))).length = 55 := by decide
  rw [hencode, List.length_append, hnames, length_encode_bytes, Nat.add_assoc]

theorem length_encode_event (data : List UInt8) :
    (ClipboardEvent.codec.encode ⟨.text, data⟩).length = 18 + headSize data.length + weight data ∧
      weight (ClipboardEvent.codec.encode ⟨.text, data⟩) =
        36 + weight (head 4 data.length) + (data.length + 3 * wideBytes data) := by
  obtain ⟨names, hlen, hweight, hencode⟩ := encode_event data
  have harray : Codec.bytes.encode data = head 4 data.length ++ data.flatMap Codec.byte.encode := rfl
  rw [hencode, List.length_append, length_encode_bytes, weight_append, harray, weight_append,
    weight_flatMap_byte, hlen, hweight]
  omega

theorem wideBytes_le (data : List UInt8) : wideBytes data ≤ data.length := List.countP_le_length

/-- The message that carries a text of less than 64 KiB is far within the limit. -/
theorem length_textMessage_of_lt (hlow : data.length < 2 ^ 16) :
    (textMessage data).length ≤ 300000 := by
  obtain ⟨-, hweight⟩ := length_encode_event data
  have hwide := wideBytes_le data
  have hhead := weight_le (head 4 data.length)
  have hsize := headSize_le data.length
  have houter := headSize_le (ClipboardEvent.codec.encode ⟨.text, data⟩).length
  rw [length_head] at hhead
  rw [textMessage, length_encode_message, hweight]
  omega

/-- The size of the message that carries a larger text. -/
theorem length_textMessage_of_le (hlow : 2 ^ 16 ≤ data.length) (hhigh : data.length ≤ 2 ^ 20) :
    (textMessage data).length = data.length + 3 * wideBytes data + 100 +
      headSize (data.length / 256 % 256) + headSize (data.length % 256) := by
  obtain ⟨hlength, hweight⟩ := length_encode_event data
  have hmany := le_weight data
  have hfew := weight_le data
  have hsize := headSize_le data.length
  have houter : headSize (ClipboardEvent.codec.encode ⟨.text, data⟩).length = 5 := by
    rw [hlength]
    unfold headSize at hsize ⊢
    rw [if_neg (by omega), if_neg (by omega), if_neg (by omega), if_pos (by omega)]
  rw [textMessage, length_encode_message, houter, hweight, weight_head_array hlow hhigh]
  omega

theorem textMessage_fits_iff (hhigh : data.length ≤ maxClipboardTextLen) :
    (textMessage data).length ≤ maxReassembledSize ↔ TextFits data := by
  have hwide := wideBytes_le data
  rcases Nat.lt_or_ge data.length (2 ^ 16) with hlow | hlow
  · have hsmall := length_textMessage_of_lt hlow
    have hfirst := headSize_le (data.length / 256 % 256)
    have hsecond := headSize_le (data.length % 256)
    unfold TextFits maxReassembledSize
    omega
  · rw [TextFits, length_textMessage_of_le hlow hhigh]

/-- The message never has more than seventy fragments. -/
theorem length_textMessage_le (hhigh : data.length ≤ maxClipboardTextLen) :
    (textMessage data).length ≤ fragmentSize * 70 := by
  have hwide := wideBytes_le data
  have hfirst := headSize_le (data.length / 256 % 256)
  have hsecond := headSize_le (data.length % 256)
  unfold maxClipboardTextLen at hhigh
  unfold fragmentSize
  rcases Nat.lt_or_ge data.length (2 ^ 16) with hlow | hlow
  · have hsmall := length_textMessage_of_lt hlow
    omega
  · rw [length_textMessage_of_le hlow hhigh]
    omega

/-! ### Over the channel -/

variable {ε ε' : Type} {outOfOrder : ε} {oversized : Nat → ε} {closed : ε'} {h : ε' → ε}
  {m : List UInt8}

theorem roundTrip_of_fits (hm : m.length ≤ maxReassembledSize) :
    (sendSplit (lossless closed h).send m []).1 = .ok () ∧
      (recvJoined (lossless closed h).recv outOfOrder oversized
        (sendSplit (lossless closed h).send m []).2).1 = .ok m := by
  have hcount := fragmentCount_lt hm
  have hwire : (lossless closed h).Holds (fragmentsOf m) (fragmentsOf m ++ []) :=
    (List.append_nil _).symm
  obtain ⟨s', -, hrecv⟩ := recvJoined_message outOfOrder oversized hm hwire
  rw [sendSplit_lossless, if_pos hcount, Nat.min_eq_left (Nat.le_of_lt hcount), List.nil_append,
    ← fragmentsOf, hrecv]
  exact ⟨rfl, rfl⟩

theorem rejected_of_oversized (hm : maxReassembledSize < m.length)
    (hlen : m.length ≤ fragmentSize * 70) :
    (sendSplit (lossless closed h).send m []).1 = .ok () ∧
      (recvJoined (lossless closed h).recv outOfOrder oversized
        (sendSplit (lossless closed h).send m []).2).1 = .err (oversized m.length) := by
  have hcount : fragmentCount m.length = 70 := by
    unfold fragmentCount maxReassembledSize fragmentSize at *
    omega
  have hmore : fragmentSize * (0 + 69) < m.length := Nat.lt_of_le_of_lt (by decide) hm
  have hchunk : fragmentSize * 69 + (chunk m (0 + 69)).length = m.length := by
    rw [length_chunk]
    unfold fragmentSize at *
    omega
  have hwire : (lossless closed h).Holds (fragmentsFrom m 0 70) (fragmentsFrom m 0 (69 + 1) ++ []) :=
    (List.append_nil _).symm
  obtain ⟨s', -, hrecv⟩ := recvJoined_oversized outOfOrder oversized (by decide) (by decide) hmore
    (by decide) (hchunk.symm ▸ hm) hwire
  rw [sendSplit_lossless, hcount, if_pos (by decide), Nat.min_eq_left (by decide), List.nil_append,
    hrecv, hchunk]
  exact ⟨rfl, rfl⟩

section Messages

variable {C : Ciborium}

/-- Sending a message is sending its serialization. -/
theorem sendMessage_eq (hC : C.Specified) (message : ProtocolMessage) :
    MessageSession.sendMessage C secureQueue.send message =
      sendSplit (lossless (SecureConnError.adapter .closed) WireError.session).send
        (ProtocolMessage.codec.encode message) := by
  rw [MessageSession.sendMessage, ProtocolMessage.serialize_eq hC]
  rfl

theorem recvMessage_fst (wire : List OwnedProtocolFrame) :
    (MessageSession.recvMessage C secureQueue.recv wire).1 =
      (recvJoined (lossless (SecureConnError.adapter .closed) WireError.session).recv
          .fragmentOutOfOrder .oversizedMessage wire).1 >>= fun payload =>
        (ProtocolMessage.deserialize C payload).mapErr .protocol :=
  Call.bind_ofOutcome_fst _ _ _

theorem length_encode_event_lt (hhigh : data.length ≤ maxClipboardTextLen) :
    (ClipboardEvent.codec.encode ⟨.text, data⟩).length < 2 ^ 64 := by
  have hlength := (length_encode_event data).1
  have hsize := headSize_le data.length
  have hfew := weight_le data
  unfold maxClipboardTextLen at hhigh
  omega

theorem asClipboardEvent_text (hC : C.Specified) (hhigh : data.length ≤ maxClipboardTextLen) :
    ProtocolMessage.asClipboardEvent C
      ⟨.clipboardData, 0, 0, ClipboardEvent.codec.encode ⟨.text, data⟩⟩ = some ⟨.text, data⟩ := by
  have hdata : data.length < 2 ^ 64 := Nat.lt_of_le_of_lt hhigh (by decide)
  rw [ProtocolMessage.asClipboardEvent, if_neg (not_not.mpr rfl),
    hC.clipboardEvent.read ⟨.text, data⟩ hdata]
  exact if_neg (Nat.not_lt.mpr hhigh)

theorem clipboardArrives_iff (hC : C.Specified) (hhigh : data.length ≤ maxClipboardTextLen) :
    ClipboardArrives C
        (MessageSession.sendMessage C secureQueue.send)
        (MessageSession.recvMessage C secureQueue.recv) data ↔
      TextFits data := by
  rw [← textMessage_fits_iff hhigh]
  constructor
  · rintro ⟨message, received, hmessage, -, hrecv, -⟩
    rw [ProtocolMessage.clipboardEvent_eq hC] at hmessage
    cases hmessage
    refine Nat.not_lt.mp fun hover => ?_
    obtain ⟨-, hrejected⟩ := @rejected_of_oversized WireError SecureConnError .fragmentOutOfOrder
      .oversizedMessage (.adapter .closed) .session _ hover (length_textMessage_le hhigh)
    rw [recvMessage_fst, sendMessage_eq hC, ← textMessage, hrejected] at hrecv
    cases hrecv
  · intro hfits
    obtain ⟨hsent, hrecv⟩ := @roundTrip_of_fits WireError SecureConnError .fragmentOutOfOrder
      .oversizedMessage (.adapter .closed) .session _ hfits
    have hdecode := deserializeWith_encode hfits
      (hC.protocolMessage.read ⟨.clipboardData, 0, 0, _⟩ (length_encode_event_lt hhigh))
    refine ⟨_, _, ProtocolMessage.clipboardEvent_eq hC _, ?_, ?_, asClipboardEvent_text hC hhigh⟩
    · rw [sendMessage_eq hC, ← textMessage, hsent]
    · rw [recvMessage_fst, sendMessage_eq hC, ← textMessage, hrecv, Outcome.ok_bind,
        ProtocolMessage.deserialize, hdecode]
      rfl

end Messages

end ClipboardLemmas

open ClipboardLemmas

/-- A clipboard text of at most 1 MiB arrives exactly when the message that carries it is within
4 MiB, over the whole message session and over its halves. -/
theorem clipboard_text_arrives (C : Ciborium) (hC : C.Specified) (data : List UInt8)
    (hdata : data.length ≤ maxClipboardTextLen) :
    (ClipboardArrives C (MessageSession.sendMessage C secureQueue.send)
        (MessageSession.recvMessage C secureQueue.recv) data ↔ TextFits data) ∧
      (ClipboardArrives C (MessageSender.sendMessage C secureQueue.send)
        (MessageReceiver.recvMessage C secureQueue.recv) data ↔ TextFits data) :=
  ⟨clipboardArrives_iff hC hdata, clipboardArrives_iff hC hdata⟩

/-- A short text arrives. -/
theorem clipboard_text_arrives_short :
    let data : List UInt8 := utf8 "Hi"
    ClipboardArrives .canonical (MessageSession.sendMessage .canonical secureQueue.send)
      (MessageSession.recvMessage .canonical secureQueue.recv) data :=
  (clipboard_text_arrives .canonical Ciborium.canonical_specified (utf8 "Hi") (by decide)).1.mpr
    (by decide)

/-- A text of 1,048,576 letters `A`, the largest that `as_clipboard_event` accepts, is sent and
then rejected by `recv_message`. -/
theorem clipboard_text_rejected :
    let data : List UInt8 := List.replicate 1048576 0x41
    data.length ≤ maxClipboardTextLen ∧
      ∃ message, ProtocolMessage.clipboardEvent .canonical ⟨.text, data⟩ = .ok message ∧
        (MessageSession.sendMessage .canonical secureQueue.send message []).1 = .ok () ∧
        (MessageSession.recvMessage .canonical secureQueue.recv
          (MessageSession.sendMessage .canonical secureQueue.send message []).2).1 =
            .err (.oversizedMessage 4194406) := by
  intro data
  have hlen : data.length = 1048576 := List.length_replicate
  have hwide : wideBytes data = 1048576 := by
    rw [wideBytes, List.countP_replicate]
    rfl
  have hhigh : data.length ≤ maxClipboardTextLen := by
    rw [hlen]
    decide
  -- What follows uses only the two numbers.
  clear_value data
  have hsize : (textMessage data).length = 4194406 := by
    rw [length_textMessage_of_le (by omega) (by omega), hlen, hwide]
    decide
  obtain ⟨hsent, hrejected⟩ := @rejected_of_oversized WireError SecureConnError .fragmentOutOfOrder
    .oversizedMessage (.adapter .closed) .session (textMessage data) (by rw [hsize]; decide)
    (length_textMessage_le hhigh)
  refine ⟨hhigh, _, ProtocolMessage.clipboardEvent_eq Ciborium.canonical_specified _, ?_, ?_⟩
  · rw [sendMessage_eq Ciborium.canonical_specified, ← textMessage, hsent]
  · rw [recvMessage_fst, sendMessage_eq Ciborium.canonical_specified, ← textMessage, hrejected,
      hsize]
    rfl

end Blackwing.Session

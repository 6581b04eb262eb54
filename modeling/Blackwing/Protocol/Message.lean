import Blackwing.Lib.Cbor
import Blackwing.Protocol.Encryption

/-!
# Messages and their serialization

`bw-protocol/src/message.rs`, as far as the clipboard uses it, and the serialization of encrypted
frames of `encryption.rs`. Values are written by `ciborium`, which encodes a struct as a map from
field names, an enum by the name of its variant, and a `Vec<u8>` as an array of numbers.

The serializer is a parameter (`Ciborium`), of which only `Ciborium.Specified` is assumed: it writes
that format, and reading inverts writing. `Ciborium.canonical` is an instance.
-/

namespace Blackwing.Protocol

open Cbor

/-! ## Messages -/

/-- `MessageType`. -/
inductive MessageType where
  | ping
  | pong
  | hello
  | goodbye
  | heartbeat
  | data
  | control
  | error
  | inputKeyboard
  | inputMouse
  | clipboardData
  | audioData
  | iceCandidate
  | videoData
deriving DecidableEq, Repr

/-- The name that the variant has in the source. -/
def MessageType.name : MessageType → String
  | ping => "Ping"
  | pong => "Pong"
  | hello => "Hello"
  | goodbye => "Goodbye"
  | heartbeat => "Heartbeat"
  | data => "Data"
  | control => "Control"
  | error => "Error"
  | inputKeyboard => "InputKeyboard"
  | inputMouse => "InputMouse"
  | clipboardData => "ClipboardData"
  | audioData => "AudioData"
  | iceCandidate => "IceCandidate"
  | videoData => "VideoData"

/-- All variants of `MessageType`. -/
def MessageType.all : List MessageType :=
  [ping, pong, hello, goodbye, heartbeat, data, control, error, inputKeyboard, inputMouse,
    clipboardData, audioData, iceCandidate, videoData]

/-- `ProtocolMessage`. -/
structure ProtocolMessage where
  messageType : MessageType
  messageId : UInt32
  flags : UInt16
  payload : List UInt8
deriving DecidableEq

/-- `ClipboardFormat`. -/
inductive ClipboardFormat where
  | text
  | imageRgba8 (width height : UInt64)
deriving DecidableEq

/-- `ClipboardEvent`. -/
structure ClipboardEvent where
  format : ClipboardFormat
  data : List UInt8
deriving DecidableEq

/-! ## Encodings -/

/-- The encoding of `MessageType`: the name of the variant. -/
def MessageType.codec : Codec MessageType :=
  Codec.text.imap (fun t => utf8 t.name) (fun s => all.find? fun t => utf8 t.name = s) fun t => by
    cases t <;> decide

/-- `u16` as a number. -/
def codec16 : Codec UInt16 :=
  Codec.uint.imap UInt16.toNat (fun n => if n < 2 ^ 16 then some (UInt16.ofNat n) else none) fun x => by
    rw [if_pos x.toNat_lt, UInt16.ofNat_toNat]

/-- `u32` as a number. -/
def codec32 : Codec UInt32 :=
  Codec.uint.imap UInt32.toNat (fun n => if n < 2 ^ 32 then some (UInt32.ofNat n) else none) fun x => by
    rw [if_pos x.toNat_lt, UInt32.ofNat_toNat]

/-- `usize` as a number. -/
def codec64 : Codec UInt64 :=
  Codec.uint.imap UInt64.toNat (fun n => if n < 2 ^ 64 then some (UInt64.ofNat n) else none) fun x => by
    rw [if_pos x.toNat_lt, UInt64.ofNat_toNat]

/-- The encoding of `ProtocolMessage`. -/
def ProtocolMessage.codec : Codec ProtocolMessage :=
  Codec.imap
    (.record 4 (.seq (.field (utf8 "message_type") MessageType.codec)
      (.seq (.field (utf8 "message_id") codec32)
        (.seq (.field (utf8 "flags") codec16) (.field (utf8 "payload") .bytes)))))
    (fun m => (m.messageType, m.messageId, m.flags, m.payload))
    (fun p => some ⟨p.1, p.2.1, p.2.2.1, p.2.2.2⟩)
    fun _ => rfl

/-- The encoding of the variant `Text`: its name. -/
def textFormat : Codec Unit :=
  Codec.text.imap (fun _ => utf8 "Text") (fun s => if s = utf8 "Text" then some () else none)
    fun _ => if_pos rfl

/-- The encoding of the variant `ImageRgba8`: a map from its name to its fields. -/
def imageFormat : Codec (UInt64 × UInt64) :=
  .record 1 (.field (utf8 "ImageRgba8")
    (.record 2 (.seq (.field (utf8 "width") codec64) (.field (utf8 "height") codec64))))

/-- The encoding of `ClipboardFormat`. -/
def ClipboardFormat.codec : Codec ClipboardFormat :=
  Codec.imap
    (textFormat.orElse imageFormat fun _ _ => rfl)
    (fun
      | .text => .inl ()
      | .imageRgba8 width height => .inr (width, height))
    (fun
      | .inl () => some .text
      | .inr p => some (.imageRgba8 p.1 p.2))
    fun f => by cases f <;> rfl

/-- The encoding of `ClipboardEvent`. -/
def ClipboardEvent.codec : Codec ClipboardEvent :=
  Codec.imap
    (.record 2 (.seq (.field (utf8 "format") ClipboardFormat.codec) (.field (utf8 "data") .bytes)))
    (fun e => (e.format, e.data)) (fun p => some ⟨p.1, p.2⟩) fun _ => rfl

/-- The encoding of `EncryptedFrame`. -/
def EncryptedFrame.codec : Codec EncryptedFrame :=
  Codec.imap
    (.record 4 (.seq (.field (utf8 "epoch") codec32)
      (.seq (.field (utf8 "nonce") (.fixed 12))
        (.seq (.field (utf8 "ciphertext") .bytes) (.field (utf8 "tag") (.fixed 16))))))
    (fun f => (f.epoch, f.nonce.bytes, f.ciphertext, f.tag))
    (fun p => some ⟨p.1, ⟨p.2.1⟩, p.2.2.1, p.2.2.2⟩)
    fun _ => rfl

/-- `ciborium` at one type, with no account of its errors. -/
structure Serde (α : Type) where
  intoWriter : α → Option (List UInt8)
  fromReader : List UInt8 → Option α

/-- It writes the encoding, which does not fail for a vector as the target, and reads it back if the
length is a `usize`. -/
structure Serde.Follows {α : Type} (S : Serde α) (codec : Codec α) (length : α → Nat) : Prop where
  write : ∀ a, S.intoWriter a = some (codec.encode a)
  read : ∀ a, length a < 2 ^ 64 → S.fromReader (codec.encode a) = some a

/-- `ciborium` at the types it is used at. -/
structure Ciborium where
  encryptedFrame : Serde EncryptedFrame
  protocolMessage : Serde ProtocolMessage
  clipboardEvent : Serde ClipboardEvent

/-- What is assumed of `ciborium`. -/
structure Ciborium.Specified (C : Ciborium) : Prop where
  encryptedFrame : C.encryptedFrame.Follows EncryptedFrame.codec (·.ciphertext.length)
  protocolMessage : C.protocolMessage.Follows ProtocolMessage.codec (·.payload.length)
  clipboardEvent : C.clipboardEvent.Follows ClipboardEvent.codec (·.data.length)

/-- The serializer of a codec. -/
def Serde.ofCodec {α : Type} (codec : Codec α) : Serde α := ⟨fun a => some (codec.encode a), codec.read⟩

/-- The serializers of the codecs. -/
def Ciborium.canonical : Ciborium where
  encryptedFrame := .ofCodec EncryptedFrame.codec
  protocolMessage := .ofCodec ProtocolMessage.codec
  clipboardEvent := .ofCodec ClipboardEvent.codec

/-! ## Serialization -/

/-- `EncryptedFrame::MAX_DESER_SIZE` and `ProtocolMessage::MAX_DESER_SIZE`. -/
def maxDeserSize : Nat := 4 * 1024 * 1024

/-- `ProtocolMessage::MAX_CLIPBOARD_TEXT_LEN`. -/
def maxClipboardTextLen : Nat := 1024 * 1024

/-- `ProtocolMessage::MAX_CLIPBOARD_IMAGE_DIM`. -/
def maxClipboardImageDim : Nat := 4096

/-- `deserialize` of both types, with the decoder of the type. -/
def deserializeWith {α : Type} (fromReader : List UInt8 → Option α) (bytes : List UInt8) :
    Outcome ProtocolError α :=
  if bytes.length > maxDeserSize then .err (.oversizedPayload bytes.length maxDeserSize)
  else .okOr .deserializationError (fromReader bytes)

variable (C : Ciborium)

/-- `EncryptedFrame::serialize`. -/
def EncryptedFrame.serialize (frame : EncryptedFrame) : Outcome ProtocolError (List UInt8) :=
  .okOr .serializationError (C.encryptedFrame.intoWriter frame)

/-- `ProtocolMessage::serialize`. -/
def ProtocolMessage.serialize (message : ProtocolMessage) : Outcome ProtocolError (List UInt8) :=
  .okOr .serializationError (C.protocolMessage.intoWriter message)

/-- `ProtocolMessage::clipboard_event`. -/
def ProtocolMessage.clipboardEvent (event : ClipboardEvent) :
    Outcome ProtocolError ProtocolMessage := do
  let payload ← .okOr .serializationError (C.clipboardEvent.intoWriter event)
  return ⟨.clipboardData, 0, 0, payload⟩

/-- `EncryptedFrame::deserialize`. -/
def EncryptedFrame.deserialize : List UInt8 → Outcome ProtocolError EncryptedFrame :=
  deserializeWith C.encryptedFrame.fromReader

/-- `ProtocolMessage::deserialize`. -/
def ProtocolMessage.deserialize : List UInt8 → Outcome ProtocolError ProtocolMessage :=
  deserializeWith C.protocolMessage.fromReader

/-- `ProtocolMessage::as_clipboard_event`. -/
def ProtocolMessage.asClipboardEvent (message : ProtocolMessage) : Option ClipboardEvent :=
  if message.messageType ≠ .clipboardData then none
  else do
    let event ← C.clipboardEvent.fromReader message.payload
    match event.format with
    | .text => if event.data.length > maxClipboardTextLen then none else some event
    | .imageRgba8 width height =>
      if width.toNat > maxClipboardImageDim ∨ height.toNat > maxClipboardImageDim then none
      else do
        let area ← checkedMul width height
        let expected ← checkedMul area 4
        if expected.toNat = event.data.length then some event else none

theorem MessageType.codec_fits (t : MessageType) : MessageType.codec.Fits t := by
  show (utf8 t.name).length < 2 ^ 64
  cases t <;> decide

theorem ClipboardFormat.codec_fits (f : ClipboardFormat) : ClipboardFormat.codec.Fits f := by
  cases f with
  | text =>
    show (utf8 "Text").length < 2 ^ 64
    decide
  | imageRgba8 width height => exact ⟨width.toNat_lt, height.toNat_lt⟩

theorem Serde.ofCodec_follows {α : Type} {codec : Codec α} {length : α → Nat}
    (h : ∀ a, length a < 2 ^ 64 → codec.Fits a) : (Serde.ofCodec codec).Follows codec length :=
  ⟨fun _ => rfl, fun a ha => codec.read_encode (h a ha)⟩

theorem Ciborium.canonical_specified : Ciborium.canonical.Specified where
  encryptedFrame := Serde.ofCodec_follows fun f hf =>
    ⟨Nat.lt_trans f.epoch.toNat_lt (by decide), Codec.fixed_fits (by decide) _, Codec.bytes_fits hf,
      Codec.fixed_fits (by decide) _⟩
  protocolMessage := Serde.ofCodec_follows fun m hm =>
    ⟨MessageType.codec_fits _, Nat.lt_trans m.messageId.toNat_lt (by decide),
      Nat.lt_trans m.flags.toNat_lt (by decide), Codec.bytes_fits hm⟩
  clipboardEvent := Serde.ofCodec_follows fun e he =>
    ⟨ClipboardFormat.codec_fits _, Codec.bytes_fits he⟩

variable {C}

theorem EncryptedFrame.serialize_eq (hC : C.Specified) (frame : EncryptedFrame) :
    frame.serialize C = .ok (codec.encode frame) := by
  rw [serialize, hC.encryptedFrame.write]
  rfl

theorem ProtocolMessage.serialize_eq (hC : C.Specified) (message : ProtocolMessage) :
    message.serialize C = .ok (codec.encode message) := by
  rw [serialize, hC.protocolMessage.write]
  rfl

theorem ProtocolMessage.clipboardEvent_eq (hC : C.Specified) (event : ClipboardEvent) :
    clipboardEvent C event = .ok ⟨.clipboardData, 0, 0, ClipboardEvent.codec.encode event⟩ := by
  rw [clipboardEvent, hC.clipboardEvent.write]
  rfl

theorem deserializeWith_encode {α : Type} {fromReader : List UInt8 → Option α} {bytes : List UInt8}
    {a : α} (hsize : bytes.length ≤ maxDeserSize) (h : fromReader bytes = some a) :
    deserializeWith fromReader bytes = .ok a := by
  rw [deserializeWith, if_neg (Nat.not_lt.mpr hsize), h]
  rfl

/-- The names, the heads and the numbers of an encrypted frame take at most 128 bytes. -/
theorem length_encode_encryptedFrame_le (f : EncryptedFrame) :
    (EncryptedFrame.codec.encode f).length ≤ 128 + 2 * f.ciphertext.length := by
  have hencode : EncryptedFrame.codec.encode f =
      head 5 4 ++ ((Codec.text.encode (utf8 "epoch") ++ head 0 f.epoch.toNat) ++
        ((Codec.text.encode (utf8 "nonce") ++ Codec.bytes.encode f.nonce.bytes.toList) ++
          ((Codec.text.encode (utf8 "ciphertext") ++ Codec.bytes.encode f.ciphertext) ++
            (Codec.text.encode (utf8 "tag") ++ Codec.bytes.encode f.tag.toList)))) := rfl
  have hepoch : (Codec.text.encode (utf8 "epoch")).length = 6 := by decide
  have hnonce : (Codec.text.encode (utf8 "nonce")).length = 6 := by decide
  have hciphertext : (Codec.text.encode (utf8 "ciphertext")).length = 11 := by decide
  have htag : (Codec.text.encode (utf8 "tag")).length = 4 := by decide
  have hmap : (head 5 4).length = 1 := rfl
  have hnumber := headSize_le f.epoch.toNat
  have hnonces := length_encode_bytes_le f.nonce.bytes.toList
  have hbytes := length_encode_bytes_le f.ciphertext
  have htags := length_encode_bytes_le f.tag.toList
  rw [Bytes.length_toList] at hnonces htags
  rw [hencode]
  simp only [List.length_append, length_head 0, hmap, hepoch, hnonce, hciphertext, htag]
  omega

end Blackwing.Protocol

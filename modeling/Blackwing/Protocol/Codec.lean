import Blackwing.Lib.Bytes
import Blackwing.Lib.Call

/-!
# Frames and their wire coding

The packet header (`header.rs`, `version.rs`), the frame (`frame.rs`) and the
coding of a frame as bytes (`codec.rs`), on a little-endian host.

`PacketHeader` is `repr(C, align(8))` without padding, so its 32 bytes are its
fields in order. `bytemuck::from_bytes` reads a header in place and panics on an
address that is not a multiple of 8; the address of the slice is therefore an
argument of `tryFromBytes` and `decodeFrame`.

* `decodeFrame_encodeFrame`: at an aligned address, decoding the encoding of a
  well-formed frame gives the frame back.
-/

namespace Blackwing.Protocol

/-- `ProtocolError`. -/
inductive ProtocolError where
  | bufferTooSmall
  | invalidMagic
  | invalidVersion (v : UInt16)
  | invalidPayloadLength
  | incompatibleCapabilities
  | invalidHandshake
  | serializationError
  | deserializationError
  | sessionDuplicate
  | sessionNotFound
  | invalidRoute
  | invalidDestination
  | windowFull
  | encryptionError
  | replayDetected
  | oversizedPayload (size max : Nat)
deriving DecidableEq, Repr

/-! ## Versions -/

/-- `ProtocolVersion`. -/
structure ProtocolVersion where
  major : UInt8
  minor : UInt8
deriving DecidableEq, Repr

/-- `CURRENT_VERSION`. -/
def currentVersion : ProtocolVersion := ⟨1, 0⟩

/-- `ProtocolVersion::is_compatible_with`: major versions must be equal. -/
def ProtocolVersion.isCompatibleWith (v other : ProtocolVersion) : Bool := v.major == other.major

/-- `impl From<ProtocolVersion> for u16`. -/
def ProtocolVersion.toU16 (v : ProtocolVersion) : UInt16 := v.major.toUInt16 <<< 8 ||| v.minor.toUInt16

/-- `impl From<u16> for ProtocolVersion`. -/
def ProtocolVersion.ofU16 (val : UInt16) : ProtocolVersion :=
  ⟨(val >>> 8).toUInt8, (val &&& 0xFF).toUInt8⟩

/-! ## Headers -/

/-- `PROTOCOL_MAGIC`, the bytes of `BWPG`. -/
def protocolMagic : Bytes 4 := ⟨[0x42, 0x57, 0x50, 0x47], rfl⟩

/-- `PacketHeader`. -/
structure PacketHeader where
  magic : Bytes 4
  schemaVersion : UInt16
  flags : UInt16
  packetType : UInt16
  payloadLength : UInt16
  sequenceNumber : UInt32
  sessionEpoch : UInt64
  monotonicTimestamp : UInt64
deriving DecidableEq

/-- `size_of::<PacketHeader>()`. -/
def headerSize : Nat := 32

/-- `PacketHeader::as_bytes`. -/
def PacketHeader.asBytes (h : PacketHeader) : List UInt8 :=
  h.magic.toList ++ (toLE 2 h.schemaVersion.toNat ++ (toLE 2 h.flags.toNat ++
    (toLE 2 h.packetType.toNat ++ (toLE 2 h.payloadLength.toNat ++
      (toLE 4 h.sequenceNumber.toNat ++ (toLE 8 h.sessionEpoch.toNat ++
        toLE 8 h.monotonicTimestamp.toNat))))))

/-- `len` bytes from position `start`. -/
def field (start len : Nat) (bytes : List UInt8) : List UInt8 := (bytes.drop start).take len

/-- The header that the first 32 bytes of a slice spell. -/
def PacketHeader.ofBytes (bytes : List UInt8) : PacketHeader where
  magic := (Bytes.ofList? 4 (field 0 4 bytes)).getD (Bytes.fill 4 0)
  schemaVersion := UInt16.ofNat (fromLE (field 4 2 bytes))
  flags := UInt16.ofNat (fromLE (field 6 2 bytes))
  packetType := UInt16.ofNat (fromLE (field 8 2 bytes))
  payloadLength := UInt16.ofNat (fromLE (field 10 2 bytes))
  sequenceNumber := UInt32.ofNat (fromLE (field 12 4 bytes))
  sessionEpoch := UInt64.ofNat (fromLE (field 16 8 bytes))
  monotonicTimestamp := UInt64.ofNat (fromLE (field 24 8 bytes))

/-- `PacketHeader::validate`. -/
def PacketHeader.validate (h : PacketHeader) : Outcome ProtocolError Unit :=
  if h.magic ≠ protocolMagic then .err .invalidMagic
  else if !(ProtocolVersion.ofU16 h.schemaVersion).isCompatibleWith currentVersion then
    .err (.invalidVersion h.schemaVersion)
  else .ok ()

/-- `PacketHeader::try_from_bytes` on a slice at the address `addr`. -/
def PacketHeader.tryFromBytes (addr : Nat) (bytes : List UInt8) :
    Outcome ProtocolError PacketHeader :=
  if bytes.length < headerSize then .err .bufferTooSmall
  else if addr % 8 ≠ 0 then .panicked
  else do
    (PacketHeader.ofBytes bytes).validate
    pure (PacketHeader.ofBytes bytes)

/-! ## Frames -/

/-- `OwnedProtocolFrame`; a borrowed `ProtocolFrame` has the same fields. -/
structure OwnedProtocolFrame where
  header : PacketHeader
  payload : List UInt8
deriving DecidableEq

/-- `encode_frame`. -/
def encodeFrame (frame : OwnedProtocolFrame) : List UInt8 :=
  frame.header.asBytes ++ frame.payload

/-- `decode_frame` on a slice at the address `addr`. -/
def decodeFrame (addr : Nat) (bytes : List UInt8) : Outcome ProtocolError OwnedProtocolFrame :=
  if bytes.length < headerSize then .err .bufferTooSmall
  else do
    let header ← PacketHeader.tryFromBytes addr bytes
    let expectedLen := headerSize + header.payloadLength.toNat
    if bytes.length < expectedLen then .err .bufferTooSmall
    else if bytes.length > expectedLen then .err .invalidPayloadLength
    else pure ⟨header, field headerSize header.payloadLength.toNat bytes⟩

/-- A frame the receiver can decode: a valid header that states the length of
the payload. -/
def OwnedProtocolFrame.WellFormed (f : OwnedProtocolFrame) : Prop :=
  f.header.validate = .ok () ∧ f.header.payloadLength.toNat = f.payload.length

instance (f : OwnedProtocolFrame) : Decidable f.WellFormed :=
  inferInstanceAs (Decidable (_ ∧ _))

/-- A well-formed frame with a one-byte payload. -/
def sampleFrame (payload : UInt8) : OwnedProtocolFrame :=
  ⟨⟨protocolMagic, 0x0100, 0, 1, 1, 0, 0, 0⟩, [payload]⟩

/-! ## Round trip -/

namespace CodecLemmas

theorem length_asBytes (h : PacketHeader) : h.asBytes.length = headerSize := by
  simp [PacketHeader.asBytes, headerSize]

/-- The field at the front of a concatenation. -/
theorem field_front {start len : Nat} {part after : List UInt8} (hs : start = 0)
    (hl : part.length = len) : field start len (part ++ after) = part := by
  unfold field
  rw [hs, List.drop_zero, ← hl, List.take_left]

/-- A field that starts beyond the first part of a concatenation. -/
theorem field_skip {start len : Nat} {part after : List UInt8} (hs : part.length ≤ start) :
    field start len (part ++ after) = field (start - part.length) len after := by
  unfold field
  rw [List.drop_append, List.drop_eq_nil_of_le hs, List.nil_append]

theorem field_last {start len : Nat} {part : List UInt8} (hs : start = 0)
    (hl : part.length = len) : field start len part = part := by
  unfold field
  rw [hs, List.drop_zero, ← hl, List.take_length]

theorem ofNat16_fromLE (x : UInt16) : UInt16.ofNat (fromLE (toLE 2 x.toNat)) = x := by
  rw [fromLE_toLE, Nat.mod_eq_of_lt (show x.toNat < 256 ^ 2 from x.toNat_lt), UInt16.ofNat_toNat]

theorem ofNat32_fromLE (x : UInt32) : UInt32.ofNat (fromLE (toLE 4 x.toNat)) = x := by
  rw [fromLE_toLE, Nat.mod_eq_of_lt (show x.toNat < 256 ^ 4 from x.toNat_lt), UInt32.ofNat_toNat]

theorem ofNat64_fromLE (x : UInt64) : UInt64.ofNat (fromLE (toLE 8 x.toNat)) = x := by
  rw [fromLE_toLE, Nat.mod_eq_of_lt (show x.toNat < 256 ^ 8 from x.toNat_lt), UInt64.ofNat_toNat]

/-- The bytes of a header, followed by anything, spell the header. -/
theorem ofBytes_asBytes (h : PacketHeader) (rest : List UInt8) :
    PacketHeader.ofBytes (h.asBytes ++ rest) = h := by
  -- each field is reached by skipping the fields before it
  have hm : field 0 4 (h.asBytes ++ rest) = h.magic.toList := by
    simp only [PacketHeader.asBytes, List.append_assoc]
    exact field_front rfl h.magic.length_toList
  have hv : field 4 2 (h.asBytes ++ rest) = toLE 2 h.schemaVersion.toNat := by
    simp only [PacketHeader.asBytes, List.append_assoc]
    rw [field_skip (by simp), field_front (by simp) (by simp)]
  have hf : field 6 2 (h.asBytes ++ rest) = toLE 2 h.flags.toNat := by
    simp only [PacketHeader.asBytes, List.append_assoc]
    rw [field_skip (by simp), field_skip (by simp), field_front (by simp) (by simp)]
  have ht : field 8 2 (h.asBytes ++ rest) = toLE 2 h.packetType.toNat := by
    simp only [PacketHeader.asBytes, List.append_assoc]
    rw [field_skip (by simp), field_skip (by simp), field_skip (by simp),
      field_front (by simp) (by simp)]
  have hp : field 10 2 (h.asBytes ++ rest) = toLE 2 h.payloadLength.toNat := by
    simp only [PacketHeader.asBytes, List.append_assoc]
    rw [field_skip (by simp), field_skip (by simp), field_skip (by simp), field_skip (by simp),
      field_front (by simp) (by simp)]
  have hn : field 12 4 (h.asBytes ++ rest) = toLE 4 h.sequenceNumber.toNat := by
    simp only [PacketHeader.asBytes, List.append_assoc]
    rw [field_skip (by simp), field_skip (by simp), field_skip (by simp), field_skip (by simp),
      field_skip (by simp), field_front (by simp) (by simp)]
  have he : field 16 8 (h.asBytes ++ rest) = toLE 8 h.sessionEpoch.toNat := by
    simp only [PacketHeader.asBytes, List.append_assoc]
    rw [field_skip (by simp), field_skip (by simp), field_skip (by simp), field_skip (by simp),
      field_skip (by simp), field_skip (by simp), field_front (by simp) (by simp)]
  have hts : field 24 8 (h.asBytes ++ rest) = toLE 8 h.monotonicTimestamp.toNat := by
    simp only [PacketHeader.asBytes, List.append_assoc]
    rw [field_skip (by simp), field_skip (by simp), field_skip (by simp), field_skip (by simp),
      field_skip (by simp), field_skip (by simp), field_skip (by simp),
      field_front (by simp) (by simp)]
  unfold PacketHeader.ofBytes
  rw [hm, hv, hf, ht, hp, hn, he, hts, Bytes.ofList?_toList]
  simp only [Option.getD_some, ofNat16_fromLE, ofNat32_fromLE, ofNat64_fromLE]

end CodecLemmas

open CodecLemmas

/-- At an aligned address, a well-formed frame survives the wire. -/
theorem decodeFrame_encodeFrame {addr : Nat} (ha : addr % 8 = 0) {f : OwnedProtocolFrame}
    (hw : f.WellFormed) : decodeFrame addr (encodeFrame f) = .ok f := by
  obtain ⟨hv, hl⟩ := hw
  have hof : PacketHeader.ofBytes (encodeFrame f) = f.header := ofBytes_asBytes f.header f.payload
  have hlen : (encodeFrame f).length = headerSize + f.payload.length := by
    rw [encodeFrame, List.length_append, length_asBytes]
  have hpay : field headerSize f.payload.length (encodeFrame f) = f.payload := by
    rw [encodeFrame, field_skip (by rw [length_asBytes]), field_last (by rw [length_asBytes]; rfl) rfl]
  have htry : PacketHeader.tryFromBytes addr (encodeFrame f) = .ok f.header := by
    unfold PacketHeader.tryFromBytes
    rw [if_neg (by omega), if_neg (by omega), hof, hv]
    rfl
  unfold decodeFrame
  rw [if_neg (by omega), htry]
  simp only [Outcome.ok_bind]
  rw [hl, if_neg (by omega), if_neg (by omega), hpay]
  rfl

end Blackwing.Protocol

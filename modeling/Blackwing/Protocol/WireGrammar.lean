import Blackwing.Protocol.Codec

/-!
# What the frame decoder accepts

`decode_frame` of `codec.rs` read as a parser of byte strings.

1. `decodeFrame_eq_ok_iff`: at an aligned address the decoder accepts exactly the
   encodings of frames with a valid header that states the length of the payload,
   and returns the frame that was encoded. One frame has one encoding, and every
   byte of an accepted string is part of it.
2. `total_iff_short_or_aligned`: at other addresses it is not a parser of byte
   strings at all. `bytemuck::from_bytes` panics on every slice of 32 bytes or
   more that does not start at a multiple of 8, so that the same bytes are decoded
   at one address and end the thread at another.
-/

namespace Blackwing.Protocol

namespace GrammarLemmas

open CodecLemmas

variable {bytes : List UInt8}

/-- Two fields that follow each other are one field. -/
theorem field_append {start mid len len' : Nat} (hm : mid = start + len) :
    field start len bytes ++ field mid len' bytes = field start (len + len') bytes := by
  unfold field
  rw [hm, List.take_add, List.drop_drop]

theorem length_field {start len : Nat} (h : start + len ≤ bytes.length) :
    (field start len bytes).length = len := by
  unfold field
  rw [List.length_take, List.length_drop]
  omega

/-- A field read as a number of its own width is written back as it was. -/
theorem toLE_field {start len modulus : Nat} (hm : modulus = 256 ^ len)
    (h : start + len ≤ bytes.length) :
    toLE len (fromLE (field start len bytes) % modulus) = field start len bytes := by
  have hlen := length_field h
  have hlt := fromLE_lt (field start len bytes)
  rw [hlen, ← hm] at hlt
  rw [Nat.mod_eq_of_lt hlt, toLE_fromLE hlen]

/-- The header read from a slice is spelled by the first 32 bytes of the slice. -/
theorem asBytes_ofBytes (h : headerSize ≤ bytes.length) :
    (PacketHeader.ofBytes bytes).asBytes = field 0 headerSize bytes := by
  unfold headerSize at h ⊢
  have hmagic : ((Bytes.ofList? 4 (field 0 4 bytes)).getD (Bytes.fill 4 0)).toList =
      field 0 4 bytes := by
    obtain ⟨magic, hsome⟩ := Option.isSome_iff_exists.mp
      (Bytes.ofList?_isSome.mpr (length_field (show 0 + 4 ≤ bytes.length by omega)))
    rw [hsome, Option.getD_some, Bytes.ofList?_eq_some.mp hsome]
  unfold PacketHeader.asBytes PacketHeader.ofBytes
  simp only [hmagic, UInt16.toNat_ofNat', UInt32.toNat_ofNat', UInt64.toNat_ofNat']
  rw [toLE_field (by rfl) (by omega), toLE_field (by rfl) (by omega), toLE_field (by rfl) (by omega),
    toLE_field (by rfl) (by omega), toLE_field (by rfl) (by omega), toLE_field (by rfl) (by omega),
    toLE_field (by rfl) (by omega)]
  -- the fields are adjacent; they are joined from the last one on
  rw [field_append rfl, field_append rfl, field_append rfl, field_append rfl, field_append rfl,
    field_append rfl, field_append rfl]

theorem validate_eq_ok_iff (h : PacketHeader) :
    h.validate = .ok () ↔ h.magic = protocolMagic ∧
      (ProtocolVersion.ofU16 h.schemaVersion).isCompatibleWith currentVersion = true := by
  unfold PacketHeader.validate
  split
  · next hm => exact ⟨(nomatch ·), fun hok => absurd hok.1 hm⟩
  · next hm =>
    split
    · next hv => exact ⟨(nomatch ·), fun hok => by simp [hok.2] at hv⟩
    · next hv => exact ⟨fun _ => ⟨not_not.mp hm, by simpa using hv⟩, fun _ => rfl⟩

theorem validate_ne_panicked (h : PacketHeader) : h.validate ≠ .panicked := by
  unfold PacketHeader.validate
  split
  · exact nofun
  · split
    · exact nofun
    · exact nofun

/-- What an accepted slice holds: a valid header and, after it, the payload to
its last byte. -/
theorem decodeFrame_ok {addr : Nat} {f : OwnedProtocolFrame} (h : decodeFrame addr bytes = .ok f) :
    headerSize ≤ bytes.length ∧ f.header = PacketHeader.ofBytes bytes ∧
      f.header.validate = .ok () ∧ bytes.length = headerSize + f.header.payloadLength.toNat ∧
      f.payload = field headerSize f.header.payloadLength.toNat bytes := by
  unfold decodeFrame at h
  split at h
  · exact nomatch h
  next hlen =>
  obtain ⟨header, htry, h⟩ := Outcome.bind_eq_ok.mp h
  unfold PacketHeader.tryFromBytes at htry
  rw [if_neg hlen] at htry
  split at htry
  · exact nomatch htry
  obtain ⟨_, hvalid, hheader⟩ := Outcome.bind_eq_ok.mp htry
  cases hheader
  dsimp only at h
  split at h
  · exact nomatch h
  split at h
  · exact nomatch h
  cases h
  exact ⟨by omega, rfl, hvalid, by dsimp only; omega, rfl⟩

theorem encodeFrame_of_decodeFrame {addr : Nat} {f : OwnedProtocolFrame}
    (h : decodeFrame addr bytes = .ok f) : encodeFrame f = bytes := by
  obtain ⟨hlen, hheader, -, hsize, hpayload⟩ := decodeFrame_ok h
  rw [encodeFrame, hpayload, hheader, asBytes_ofBytes hlen, ← hheader, field_append (by omega)]
  unfold field
  rw [List.drop_zero, ← hsize, List.take_length]

end GrammarLemmas

open GrammarLemmas

/-- The exact grammar: an aligned slice is accepted as the frame `f` if and only
if it is the encoding of `f` and `f` is well formed. -/
theorem decodeFrame_eq_ok_iff {addr : Nat} (ha : addr % 8 = 0) (bytes : List UInt8)
    (f : OwnedProtocolFrame) :
    decodeFrame addr bytes = .ok f ↔
      f.header.magic = protocolMagic ∧
      (ProtocolVersion.ofU16 f.header.schemaVersion).isCompatibleWith currentVersion = true ∧
      f.header.payloadLength.toNat = f.payload.length ∧ bytes = encodeFrame f := by
  constructor
  · intro h
    obtain ⟨-, -, hvalid, hsize, hpayload⟩ := decodeFrame_ok h
    obtain ⟨hmagic, hversion⟩ := (validate_eq_ok_iff f.header).mp hvalid
    refine ⟨hmagic, hversion, ?_, (encodeFrame_of_decodeFrame h).symm⟩
    rw [hpayload, length_field (by omega)]
  · rintro ⟨hmagic, hversion, hpayload, rfl⟩
    exact decodeFrame_encodeFrame ha ⟨(validate_eq_ok_iff f.header).mpr ⟨hmagic, hversion⟩, hpayload⟩

theorem decodeFrame_eq_ok_iff_sample :
    decodeFrame 16 (encodeFrame (sampleFrame 7)) = .ok (sampleFrame 7) :=
  (decodeFrame_eq_ok_iff (by decide) _ _).mpr (by decide)

/-! ## Addresses -/

namespace GrammarLemmas

variable {addr : Nat} {bytes : List UInt8}

theorem tryFromBytes_of_aligned (ha : addr % 8 = 0) (bytes : List UInt8) :
    PacketHeader.tryFromBytes addr bytes = PacketHeader.tryFromBytes 0 bytes := by
  simp [PacketHeader.tryFromBytes, ha]

theorem decodeFrame_of_aligned (ha : addr % 8 = 0) (bytes : List UInt8) :
    decodeFrame addr bytes = decodeFrame 0 bytes := by
  simp only [decodeFrame, tryFromBytes_of_aligned ha]

theorem tryFromBytes_of_short (h : bytes.length < headerSize) :
    PacketHeader.tryFromBytes addr bytes = .err .bufferTooSmall := if_pos h

theorem decodeFrame_of_short (h : bytes.length < headerSize) :
    decodeFrame addr bytes = .err .bufferTooSmall := if_pos h

theorem tryFromBytes_of_misaligned (ha : addr % 8 ≠ 0) (h : ¬ bytes.length < headerSize) :
    PacketHeader.tryFromBytes addr bytes = .panicked := by
  unfold PacketHeader.tryFromBytes
  rw [if_neg h, if_pos ha]

theorem tryFromBytes_ne_panicked (ha : addr % 8 = 0) (bytes : List UInt8) :
    PacketHeader.tryFromBytes addr bytes ≠ .panicked := by
  unfold PacketHeader.tryFromBytes
  split
  · exact nofun
  rw [if_neg (not_not.mpr ha)]
  cases hv : (PacketHeader.ofBytes bytes).validate with
  | ok u => exact nofun
  | err e => exact nofun
  | panicked => exact absurd hv (validate_ne_panicked _)

theorem decodeFrame_ne_panicked (ha : addr % 8 = 0) (bytes : List UInt8) :
    decodeFrame addr bytes ≠ .panicked := by
  unfold decodeFrame
  split
  · exact nofun
  cases htry : PacketHeader.tryFromBytes addr bytes with
  | ok header =>
    rw [Outcome.ok_bind]
    dsimp only
    split
    · exact nofun
    · split
      · exact nofun
      · exact nofun
  | err e => exact nofun
  | panicked => exact absurd htry (tryFromBytes_ne_panicked ha bytes)

end GrammarLemmas

/-- Reading the same bytes at two addresses gives the same results, none of them
a panic, if and only if the bytes are fewer than a header or both addresses are
multiples of 8. -/
theorem total_iff_short_or_aligned (addr addr' : Nat) (bytes : List UInt8) :
    (PacketHeader.tryFromBytes addr bytes ≠ .panicked ∧ decodeFrame addr bytes ≠ .panicked ∧
      PacketHeader.tryFromBytes addr' bytes = PacketHeader.tryFromBytes addr bytes ∧
      decodeFrame addr' bytes = decodeFrame addr bytes) ↔
    bytes.length < headerSize ∨ (addr % 8 = 0 ∧ addr' % 8 = 0) := by
  constructor
  · rintro ⟨hok, -, hsame, -⟩
    by_contra hcond
    obtain ⟨hlong, hunaligned⟩ := not_or.mp hcond
    have ha : addr % 8 = 0 := by
      by_contra ha
      exact hok (tryFromBytes_of_misaligned ha hlong)
    have ha' : addr' % 8 ≠ 0 := fun ha' => hunaligned ⟨ha, ha'⟩
    exact hok (hsame ▸ tryFromBytes_of_misaligned ha' hlong)
  · rintro (hshort | ⟨ha, ha'⟩)
    · rw [tryFromBytes_of_short hshort, tryFromBytes_of_short hshort, decodeFrame_of_short hshort,
        decodeFrame_of_short hshort]
      exact ⟨nofun, nofun, rfl, rfl⟩
    · refine ⟨tryFromBytes_ne_panicked ha bytes, decodeFrame_ne_panicked ha bytes, ?_, ?_⟩
      · rw [tryFromBytes_of_aligned ha, tryFromBytes_of_aligned ha']
      · rw [decodeFrame_of_aligned ha, decodeFrame_of_aligned ha']

/-- A valid frame received behind one byte of another message: accepted at an
aligned address, a panic at the next one. -/
theorem decodeFrame_panics_misaligned :
    decodeFrame 16 (encodeFrame (sampleFrame 7)) = .ok (sampleFrame 7) ∧
      PacketHeader.tryFromBytes 17 (encodeFrame (sampleFrame 7)) = .panicked ∧
      decodeFrame 17 (encodeFrame (sampleFrame 7)) = .panicked := by
  decide +kernel

end Blackwing.Protocol

import Blackwing.Lib.Bytes
import Blackwing.Encoder.H264

/-!
# Encoded frames as bytes

`EncodedFrame::to_bytes` and `from_bytes` of `bw-encoder/src/lib.rs`. The writer puts
the fields one after the other, 38 bytes in all, and then the payload. The reader takes
each field from its own offset, and its first check asks for 42 bytes.

* `fields_of_toBytes`: every read finds the field that was written.
* `fromBytes_toBytes_iff`: the reader gives the frame back exactly if the payload fills
  up the four bytes that the first check asks for beyond the header.
-/

namespace Blackwing.Encoder

/-- The byte of a frame type. -/
def FrameType.code : FrameType → UInt8
  | .iFrame => 1
  | .pFrame => 2
  | .unknown => 0

/-- The frame type of a byte. -/
def FrameType.ofCode (b : UInt8) : FrameType :=
  if b = 1 then .iFrame else if b = 2 then .pFrame else .unknown

/-- The byte of a codec. -/
def VideoCodec.code : VideoCodec → UInt8
  | .h264 => 1
  | .unknown => 0

/-- The codec of a byte. -/
def VideoCodec.ofCode (b : UInt8) : VideoCodec := if b = 1 then .h264 else .unknown

theorem FrameType.ofCode_code (t : FrameType) : ofCode t.code = t := by cases t <;> rfl

theorem VideoCodec.ofCode_code (c : VideoCodec) : ofCode c.code = c := by cases c <;> rfl

/-- A big-endian `u64` field: the slice, its conversion to an array, the number. -/
def readU64 (data : List UInt8) (start : Nat) (name : String) : Outcome String UInt64 := do
  let part ← .slice data start (start + 8)
  let bytes ← .okOr ("slice error: " ++ name) (Bytes.ofList? 8 part)
  pure (u64FromBE bytes.toList)

@[inherit_doc readU64]
def readU32 (data : List UInt8) (start : Nat) (name : String) : Outcome String UInt32 := do
  let part ← .slice data start (start + 4)
  let bytes ← .okOr ("slice error: " ++ name) (Bytes.ofList? 4 part)
  pure (u32FromBE bytes.toList)

namespace EncodedFrame

/-- `EncodedFrame::to_bytes`. -/
def toBytes (f : EncodedFrame) : List UInt8 :=
  (beBytes64 f.sessionId).toList ++ ((beBytes64 f.sequence).toList ++
    ((beBytes64 f.timestampUs).toList ++ ([f.frameType.code] ++ ((beBytes32 f.width).toList ++
      ((beBytes32 f.height).toList ++ ([f.codec.code] ++
        ((beBytes32 (UInt32.ofNat f.payload.length)).toList ++ f.payload)))))))

/-- `from_bytes`: the check of a payload of more than four bytes. -/
def checkStartCode (data : List UInt8) : Outcome String Unit := do
  let p ← .slice data 38 data.length
  let p0 ← .index p 0
  let p1 ← .index p 1
  let p2 ← .index p 2
  let p3 ← .index p 3
  if ¬ (p0 = 0 ∧ p1 = 0 ∧ ((p2 = 0 ∧ p3 = 1) ∨ p2 = 1)) then .err "Malformed H.264 NAL unit"
  else .ok ()

/-- `EncodedFrame::from_bytes`. -/
def fromBytes (data : List UInt8) : Outcome String EncodedFrame :=
  if data.length < 42 then .err "Payload too short to contain header"
  else do
    let sessionId ← readU64 data 0 "session_id"
    let sequence ← readU64 data 8 "sequence"
    let timestampUs ← readU64 data 16 "timestamp_us"
    let frameType ← .index data 24
    let width ← readU32 data 25 "width"
    let height ← readU32 data 29 "height"
    let codec ← .index data 33
    if VideoCodec.ofCode codec = .unknown then .err "Unknown codec rejected"
    else do
      let payloadLen ← readU32 data 34 "payload_len"
      if data.length < 38 + payloadLen.toNat then .err "Truncated payload"
      else if data.length > 38 + payloadLen.toNat then .err "Trailing garbage in payload"
      else do
        if 4 < payloadLen then checkStartCode data else .ok ()
        let payload ← .slice data 38 (38 + payloadLen.toNat)
        pure
          { sessionId
            sequence
            timestampUs
            frameType := FrameType.ofCode frameType
            width
            height
            codec := VideoCodec.ofCode codec
            payload }

/-- The payload begins with an H.264 start code. -/
def StartsWithCode (payload : List UInt8) : Prop :=
  [0, 0, 1] <+: payload ∨ [0, 0, 0, 1] <+: payload

/-! ## Reading what was written -/

variable {data part rest : List UInt8} {start n : Nat}

theorem drop_next (h : data.drop start = part ++ rest) (hn : start + part.length = n) :
    data.drop n = rest := by
  rw [← hn, ← List.drop_drop, h, List.drop_left]

theorem readU64_of_drop {x : UInt64} {name : String} (hstart : start ≤ data.length)
    (h : data.drop start = (beBytes64 x).toList ++ rest) : readU64 data start name = .ok x := by
  unfold readU64
  rw [Outcome.slice_eq_ok_of_drop h hstart (by simp), Outcome.ok_bind, Bytes.ofList?_toList]
  simp [Outcome.okOr]

theorem readU32_of_drop {x : UInt32} {name : String} (hstart : start ≤ data.length)
    (h : data.drop start = (beBytes32 x).toList ++ rest) : readU32 data start name = .ok x := by
  unfold readU32
  rw [Outcome.slice_eq_ok_of_drop h hstart (by simp), Outcome.ok_bind, Bytes.ofList?_toList]
  simp [Outcome.okOr]

theorem index_of_drop {b : UInt8} (h : data.drop start = [b] ++ rest) :
    (Outcome.index data start : Outcome String UInt8) = .ok b := by
  rw [Outcome.index_eq_ok, ← Nat.add_zero start, ← List.getElem?_drop, h]
  rfl

theorem length_toBytes (f : EncodedFrame) : f.toBytes.length = 38 + f.payload.length := by
  simp [toBytes]
  omega

/-- Every field is where the reader looks for it. -/
theorem fields_of_toBytes (f : EncodedFrame) :
    readU64 f.toBytes 0 "session_id" = .ok f.sessionId ∧
    readU64 f.toBytes 8 "sequence" = .ok f.sequence ∧
    readU64 f.toBytes 16 "timestamp_us" = .ok f.timestampUs ∧
    (Outcome.index f.toBytes 24 : Outcome String UInt8) = .ok f.frameType.code ∧
    readU32 f.toBytes 25 "width" = .ok f.width ∧
    readU32 f.toBytes 29 "height" = .ok f.height ∧
    (Outcome.index f.toBytes 33 : Outcome String UInt8) = .ok f.codec.code ∧
    readU32 f.toBytes 34 "payload_len" = .ok (UInt32.ofNat f.payload.length) ∧
    f.toBytes.drop 38 = f.payload := by
  have hlen := f.length_toBytes
  have h0 : f.toBytes.drop 0 = f.toBytes := rfl
  rw [toBytes] at h0
  have h8 := drop_next (n := 8) h0 (by simp)
  have h16 := drop_next (n := 16) h8 (by simp)
  have h24 := drop_next (n := 24) h16 (by simp)
  have h25 := drop_next (n := 25) h24 (by simp)
  have h29 := drop_next (n := 29) h25 (by simp)
  have h33 := drop_next (n := 33) h29 (by simp)
  have h34 := drop_next (n := 34) h33 (by simp)
  exact ⟨readU64_of_drop (by omega) h0, readU64_of_drop (by omega) h8,
    readU64_of_drop (by omega) h16, index_of_drop h24, readU32_of_drop (by omega) h25,
    readU32_of_drop (by omega) h29, index_of_drop h33, readU32_of_drop (by omega) h34,
    drop_next h34 (by simp)⟩

/-- A payload of more than four bytes passes the check exactly if it begins with a start code. -/
theorem checkStartCode_eq_ok_iff (f : EncodedFrame) (hlong : 4 < f.payload.length) :
    checkStartCode f.toBytes = .ok () ↔ StartsWithCode f.payload := by
  have hlen := f.length_toBytes
  obtain ⟨-, -, -, -, -, -, -, -, hdrop⟩ := f.fields_of_toBytes
  rw [← List.append_nil f.payload] at hdrop
  unfold checkStartCode
  rw [Outcome.slice_eq_ok_of_drop hdrop (by omega) (by omega), Outcome.ok_bind]
  match hp : f.payload, hlong with
  | p0 :: p1 :: p2 :: p3 :: more, _ =>
    simp only [Outcome.index, List.getElem?_cons_zero, List.getElem?_cons_succ, Outcome.ok_bind,
      StartsWithCode, List.cons_prefix_cons, List.nil_prefix, and_true]
    split
    · next hcode =>
      refine iff_of_false nofun fun hstart => hcode ?_
      rcases hstart with ⟨h0, h1, h2⟩ | ⟨h0, h1, h2, h3⟩
      · exact ⟨h0.symm, h1.symm, Or.inr h2.symm⟩
      · exact ⟨h0.symm, h1.symm, Or.inl ⟨h2.symm, h3.symm⟩⟩
    · next hcode =>
      obtain ⟨h0, h1, h2 | h2⟩ := not_not.mp hcode
      · exact iff_of_true rfl (Or.inr ⟨h0.symm, h1.symm, h2.1.symm, h2.2.symm⟩)
      · exact iff_of_true rfl (Or.inl ⟨h0.symm, h1.symm, h2.symm⟩)

/-- What the reader makes of a written frame whose payload is long enough for the first check. -/
theorem fromBytes_toBytes (f : EncodedFrame) (hcodec : f.codec = .h264)
    (hsize : f.payload.length < 2 ^ 32) (hmin : 4 ≤ f.payload.length)
    (hpayload : f.payload.length ≤ 4 ∨ StartsWithCode f.payload) :
    fromBytes f.toBytes = .ok f := by
  have hlen := f.length_toBytes
  have hword : (UInt32.ofNat f.payload.length).toNat = f.payload.length :=
    UInt32.toNat_ofNat_of_lt' hsize
  obtain ⟨hsession, hsequence, htimestamp, htype, hwidth, hheight, hcode, hlength, hdrop⟩ :=
    f.fields_of_toBytes
  have hslice : (Outcome.slice f.toBytes 38 (38 + f.payload.length) : Outcome String (List UInt8)) =
      .ok f.payload :=
    Outcome.slice_eq_ok_of_drop (hdrop.trans (List.append_nil _).symm) (by omega) rfl
  unfold fromBytes
  rw [if_neg (by omega), hsession, hsequence, htimestamp, htype, hwidth, hheight, hcode]
  simp only [Outcome.ok_bind, VideoCodec.ofCode_code, FrameType.ofCode_code]
  rw [if_neg (by rw [hcodec]; exact nofun), hlength, Outcome.ok_bind, hword, if_neg (by omega),
    if_neg (by omega), hslice]
  split
  · next hlong =>
    rw [UInt32.lt_iff_toNat_lt, hword] at hlong
    have hcode := hpayload.resolve_left (Nat.not_le.mpr hlong)
    rw [(f.checkStartCode_eq_ok_iff hlong).mpr hcode]
    rfl
  · rfl

/-- For every frame that the sender writes, in the codec and with a payload as the reader wants
them: the reader gives it back if and only if the payload has at least four bytes. -/
theorem fromBytes_toBytes_iff (f : EncodedFrame) (hcodec : f.codec = .h264)
    (hsize : f.payload.length < 2 ^ 32)
    (hpayload : f.payload.length ≤ 4 ∨ StartsWithCode f.payload) :
    fromBytes f.toBytes = .ok f ↔ 4 ≤ f.payload.length := by
  constructor
  · intro hok
    by_contra hshort
    have hlen := f.length_toBytes
    unfold fromBytes at hok
    rw [if_pos (by omega)] at hok
    exact nomatch hok
  · intro hmin
    exact fromBytes_toBytes f hcodec hsize hmin hpayload

/-- A frame with this payload. -/
def sample (payload : List UInt8) : EncodedFrame where
  sessionId := 7
  sequence := 1
  timestampUs := 1000
  frameType := .iFrame
  width := 640
  height := 480
  codec := .h264
  payload

theorem fromBytes_toBytes_iff_idr :
    fromBytes (sample [0, 0, 0, 1, 0x65, 9]).toBytes = .ok (sample [0, 0, 0, 1, 0x65, 9]) :=
  (fromBytes_toBytes_iff (sample [0, 0, 0, 1, 0x65, 9]) rfl (by decide)
    (Or.inr (Or.inr (by decide)))).mpr (by decide)

/-- Frames with a payload of three bytes, a bare start code, or without one are refused. -/
theorem short_payload_refused :
    fromBytes (sample [0, 0, 1]).toBytes = .err "Payload too short to contain header" ∧
      fromBytes (sample []).toBytes = .err "Payload too short to contain header" := by
  decide +kernel

end EncodedFrame

end Blackwing.Encoder

import Blackwing.Lib.Scan
import Blackwing.Lib.Wp

/-!
# The OpenH264 backend

`bw-encoder/src/h264.rs`: a captured frame is converted from BGRA to planar YUV, handed
to the encoder of the `openh264` crate, and the bitstream is scanned for an IDR picture.
`force_keyframe` and the keyframe interval ask the encoder for an intra frame.

The crate is a parameter (`OpenH264`): an encoder is a state, and what a call does may
depend on an input that stands for everything the backend does not see. `Specified` is
what is assumed of it. An index out of bounds and an overflowing `+` or `*` are panics.

* `bgraToYuv420p`, `basicYuvSource`: the conversion and the three planes.
* `isIdr`: the scan. It finds only IDR NAL units (`isIdr_sound`).
* `OpenH264Backend`: `start`, `encodeFrame`, `forceKeyframe`, `stop`.
* `IntraNext`: whatever the backend encodes next is an IDR picture.
* `prepare_wp`, `encodePrepared_cases`: what the two halves of `encode_frame` can do.
-/

namespace Blackwing.Encoder

/-! ## Frames -/

/-- `bw_capture::Frame`, as far as the encoder sees it. -/
structure Frame where
  width : UInt32
  height : UInt32
  /-- Bytes per row. The backend does not read it. -/
  stride : UInt32
  timestampUs : UInt64
  buffer : List UInt8
  isRefresh : Bool
deriving DecidableEq

inductive FrameType where
  | iFrame
  | pFrame
  | unknown
deriving DecidableEq

inductive VideoCodec where
  | h264
  | unknown
deriving DecidableEq

structure EncodedFrame where
  sessionId : UInt64
  sequence : UInt64
  timestampUs : UInt64
  frameType : FrameType
  width : UInt32
  height : UInt32
  codec : VideoCodec
  payload : List UInt8
deriving DecidableEq

structure EncoderConfig where
  targetBitrate : UInt32
  framerate : UInt32
  keyframeInterval : UInt32
deriving DecidableEq

/-- `EncoderConfig::default`. -/
def EncoderConfig.default : EncoderConfig where
  targetBitrate := 5000000
  framerate := 60
  keyframeInterval := 120

inductive EncoderError where
  | initFailed (reason : String)
  | encodeFailed (reason : String)
  | stopped
deriving DecidableEq

/-! ## Color conversion -/

/-- The three bytes of a pixel in a BGRA buffer. -/
structure Pixel where
  b : Int
  g : Int
  r : Int
deriving DecidableEq

/-- The reads of the pixel at an offset of the buffer. -/
def readPixel (bgra : List UInt8) (i : Nat) : Outcome EncoderError Pixel := do
  let b ← .index bgra i
  let g ← .index bgra (i + 1)
  let r ← .index bgra (i + 2)
  pure ⟨b.toNat, g.toNat, r.toNat⟩

/-- `as u8` of an `i32`. -/
def asU8 (n : Int) : UInt8 := UInt8.ofNat (n % 256).toNat

/-- The luma of a pixel, before the cast. -/
def Pixel.luma (p : Pixel) : Int := (77 * p.r + 150 * p.g + 29 * p.b + 128) >>> (8 : Nat)

/-- The rounded average of four channel values. -/
def average (a b c d : Int) : Int := (a + b + c + d + 2).tdiv 4

/-- The average pixel of a block. -/
def blockAverage (p00 p01 p10 p11 : Pixel) : Pixel where
  b := average p00.b p01.b p10.b p11.b
  g := average p00.g p01.g p10.g p11.g
  r := average p00.r p01.r p10.r p11.r

/-- The two chroma values of an averaged pixel, before the cast. -/
def Pixel.chromaU (p : Pixel) : Int := (-43 * p.r - 85 * p.g + 128 * p.b + 32768) >>> (8 : Nat)

@[inherit_doc Pixel.chromaU]
def Pixel.chromaV (p : Pixel) : Int := (128 * p.r - 107 * p.g - 21 * p.b + 32768) >>> (8 : Nat)

/-- One pass of the inner loop: a block of two by two pixels. -/
def convertBlock (bgra : List UInt8) (w uOffset vOffset : Nat) (yuv : List UInt8)
    (block : Nat × Nat) : Outcome EncoderError (List UInt8) := do
  let (row, col) := block
  let yRow0 := row * w
  let yRow1 := (row + 1) * w
  let uvRow := row / 2 * (w / 2)
  let i00 := (yRow0 + col) * 4
  let i10 := (yRow1 + col) * 4
  let p00 ← readPixel bgra i00
  let p01 ← readPixel bgra (i00 + 4)
  let p10 ← readPixel bgra i10
  let p11 ← readPixel bgra (i10 + 4)
  let yuv ← .store yuv (yRow0 + col) (asU8 p00.luma)
  let yuv ← .store yuv (yRow0 + col + 1) (asU8 p01.luma)
  let yuv ← .store yuv (yRow1 + col) (asU8 p10.luma)
  let yuv ← .store yuv (yRow1 + col + 1) (asU8 p11.luma)
  let avg := blockAverage p00 p01 p10 p11
  let uvIdx := uvRow + col / 2
  let yuv ← .store yuv (uOffset + uvIdx) (asU8 avg.chromaU)
  .store yuv (vOffset + uvIdx) (asU8 avg.chromaV)

/-- `(0..n).step_by(2)`. -/
def evens (n : Nat) : List Nat := (List.range ((n + 1) / 2)).map (2 * ·)

/-- The upper left corners of the blocks, in the order of the two loops. -/
def blocks (w h : Nat) : List (Nat × Nat) :=
  (evens h).flatMap fun row => (evens w).map fun col => (row, col)

/-- `bgra_to_yuv420p`. A product that fits `u32` leaves no room for an overflow of the indices,
which are `usize`. -/
def bgraToYuv420p (bgra : List UInt8) (width height : UInt32) :
    Outcome EncoderError (List UInt8) := do
  let area ← .mul32 width height
  let ySize := area.toNat
  let uvSize := ySize / 4
  (blocks width.toNat height.toNat).foldlM
    (convertBlock bgra width.toNat ySize (ySize + uvSize)) (List.replicate (ySize + uvSize * 2) 0)

/-- `BasicYuvSource`. Its strides are the width and half of it. -/
structure YuvSource where
  width : Nat
  height : Nat
  y : List UInt8
  u : List UInt8
  v : List UInt8
deriving DecidableEq

/-- The slices of the three planes. -/
def basicYuvSource (width height : UInt32) (yuv : List UInt8) :
    Outcome EncoderError YuvSource := do
  let area ← .mul32 width height
  let y ← .slice yuv 0 area.toNat
  let uEnd ← .add32 area (area / 4)
  let u ← .slice yuv area.toNat uEnd.toNat
  let v ← .slice yuv uEnd.toNat yuv.length
  pure ⟨width.toNat, height.toNat, y, u, v⟩

/-! ## IDR pictures -/

/-- The type of the NAL unit whose header is at a position. -/
def nalType (payload : List UInt8) (i : Nat) : UInt8 := payload.getD i 0 &&& 0x1F

/-- The bitstream has a NAL unit of type 5 behind a start code. -/
def IsIdr (payload : List UInt8) : Prop :=
  ∃ i, OccursAt [0, 0, 1] payload i ∧ i + 3 < payload.length ∧ nalType payload (i + 3) = 5

/-- One pass of the scan. -/
def idrAt (payload : List UInt8) (i : Nat) : Bool :=
  if OccursAt [0, 0, 0, 1] payload i then nalType payload (i + 4) = 5
  else if OccursAt [0, 0, 1] payload i then nalType payload (i + 3) = 5
  else false

/-- The scan of `encode_frame` for an IDR picture. -/
def isIdr (payload : List UInt8) : Bool :=
  (List.range (payload.length - 4)).any (idrAt payload)

/-- What the scan finds is an IDR picture. -/
theorem isIdr_sound {payload : List UInt8} (h : isIdr payload = true) : IsIdr payload := by
  obtain ⟨i, hi, hat⟩ := List.any_eq_true.mp h
  have hlt : i + 4 < payload.length := Nat.add_lt_of_lt_sub (List.mem_range.mp hi)
  unfold idrAt at hat
  split at hat
  · next hcode =>
    -- a start code of four bytes ends with one of three
    have hcode' := (@occursAt_append _ payload i [0] [0, 0, 1]).mp hcode
    exact ⟨i + 1, hcode'.2, hlt, of_decide_eq_true hat⟩
  · split at hat
    · next hcode => exact ⟨i, hcode, Nat.lt_of_succ_lt hlt, of_decide_eq_true hat⟩
    · exact absurd hat Bool.false_ne_true

/-! ## The crate -/

/-- The encoder of the `openh264` crate. -/
structure OpenH264 where
  State : Type
  Oracle : Type
  /-- `Encoder::new`. -/
  create : Oracle → Outcome String State
  forceIntraFrame : State → State
  /-- `encode` and the bytes of the bitstream. -/
  encode : Oracle → YuvSource → State → Outcome String (List UInt8) × State

variable {L : OpenH264}

/-- Whatever this encoder encodes next is an IDR picture. -/
def OpenH264.IntraNext (L : OpenH264) (e : L.State) : Prop :=
  ∀ ω source payload, (L.encode ω source e).1 = .ok payload → IsIdr payload

/-- What is assumed of the crate. That the scan misses no IDR picture is not needed: a missed one
only makes the next one come early. -/
structure OpenH264.Specified (L : OpenH264) : Prop where
  created : ∀ {ω e}, L.create ω = .ok e → L.IntraNext e
  forced : ∀ e, L.IntraNext (L.forceIntraFrame e)
  /-- A failed encode changes nothing. -/
  failed : ∀ {ω source e reason},
    (L.encode ω source e).1 = .err reason → (L.encode ω source e).2 = e

/-! ## The backend -/

structure OpenH264Backend (L : OpenH264) where
  encoder : Option L.State
  width : UInt32
  height : UInt32
  config : EncoderConfig
  framesSinceIdr : UInt32

/-- The size check of `encode_frame`. -/
def Frame.hasPixels (frame : Frame) : Bool :=
  match (checkedMul frame.width.toUInt64 frame.height.toUInt64).bind (checkedMul · 4) with
  | some n => n.toNat ≤ frame.buffer.length
  | none => false

namespace OpenH264Backend

/-- `OpenH264Backend::new`. -/
def new : OpenH264Backend L where
  encoder := none
  width := 0
  height := 0
  config := .default
  framesSinceIdr := 0

def start (ω : L.Oracle) (width height : UInt32) (config : EncoderConfig) :
    Call (OpenH264Backend L) EncoderError Unit := do
  let encoder ← Call.ofOutcome ((L.create ω).mapErr .initFailed)
  Call.update fun _ =>
    { encoder := some encoder, width, height, config, framesSinceIdr := 0 }

/-- `encode_frame`: the restart at a new resolution. -/
def ensureStarted (ω : L.Oracle) (frame : Frame) : Call (OpenH264Backend L) EncoderError Unit :=
  fun b =>
    if b.encoder.isNone ∨ frame.width ≠ b.width ∨ frame.height ≠ b.height then
      start ω frame.width frame.height b.config b
    else (.ok (), b)

/-- `encode_frame`: the intra frame at the end of the keyframe interval. -/
def forceAtInterval : Call (OpenH264Backend L) EncoderError Unit := fun b =>
  if 0 < b.config.keyframeInterval ∧ b.config.keyframeInterval ≤ b.framesSinceIdr then
    match b.encoder with
    | some e => (.ok (), { b with encoder := some (L.forceIntraFrame e) })
    | none => (.err .stopped, b)
  else (.ok (), b)

/-- `encode_frame`, before the conversion. -/
def prepare (ω : L.Oracle) (frame : Frame) : Call (OpenH264Backend L) EncoderError Unit := do
  Call.rejectIf (frame.hasPixels = false)
    (.encodeFailed "frame has no pixel data (empty capture frame)")
  ensureStarted ω frame
  forceAtInterval

/-- The call of `encode`. -/
def encodeYuv (ω : L.Oracle) (source : YuvSource) (encoder : L.State) :
    Call (OpenH264Backend L) EncoderError (List UInt8) := fun b =>
  ((L.encode ω source encoder).1.mapErr .encodeFailed,
    { b with encoder := some (L.encode ω source encoder).2 })

/-- The counter of frames since an IDR picture. -/
def countFrame (idr : Bool) : Call (OpenH264Backend L) EncoderError Unit := fun b =>
  if idr then (.ok (), { b with framesSinceIdr := 0 })
  else
    match Outcome.add32 b.framesSinceIdr 1 with
    | .ok n => (.ok (), { b with framesSinceIdr := n })
    | .err e => (.err e, b)
    | .panicked => (.panicked, b)

/-- `encode_frame`, from the conversion on. -/
def encodePrepared (ω : L.Oracle) (frame : Frame) (sequence : UInt64) :
    Call (OpenH264Backend L) EncoderError EncodedFrame := do
  let b ← Call.getState
  let encoder ← Call.ofOutcome (.okOr .stopped b.encoder)
  let yuv ← Call.ofOutcome (bgraToYuv420p frame.buffer frame.width frame.height)
  let source ← Call.ofOutcome (basicYuvSource b.width b.height yuv)
  let payload ← encodeYuv ω source encoder
  countFrame (isIdr payload)
  pure
    { sessionId := 0
      sequence
      timestampUs := frame.timestampUs
      frameType := if isIdr payload then .iFrame else .pFrame
      width := b.width
      height := b.height
      codec := .h264
      payload }

def encodeFrame (ω : L.Oracle) (frame : Frame) (sequence : UInt64) :
    Call (OpenH264Backend L) EncoderError EncodedFrame := do
  prepare ω frame
  encodePrepared ω frame sequence

def forceKeyframe (b : OpenH264Backend L) : OpenH264Backend L :=
  { b with encoder := b.encoder.map L.forceIntraFrame, framesSinceIdr := 0 }

def stop (b : OpenH264Backend L) : OpenH264Backend L := { b with encoder := none }

/-! ### What a call can do -/

/-- `encode_frame`, from the call of the encoder on. -/
def encodeSource (ω : L.Oracle) (frame : Frame) (sequence : UInt64) (source : YuvSource)
    (encoder : L.State) : Call (OpenH264Backend L) EncoderError EncodedFrame := do
  let b ← Call.getState
  let payload ← encodeYuv ω source encoder
  countFrame (isIdr payload)
  pure
    { sessionId := 0
      sequence
      timestampUs := frame.timestampUs
      frameType := if isIdr payload then .iFrame else .pFrame
      width := b.width
      height := b.height
      codec := .h264
      payload }

theorem prepare_of_pixels {frame : Frame} (h : frame.hasPixels = true) (ω : L.Oracle)
    (b : OpenH264Backend L) :
    prepare ω frame b = (ensureStarted ω frame >>= fun _ => forceAtInterval) b := by
  rw [prepare, Call.rejectIf_bind, if_neg (Bool.not_eq_false _ ▸ h)]

/-- The second half of `encode_frame`, on a frame that is converted. -/
theorem encodePrepared_of_source {ω : L.Oracle} {frame : Frame} {sequence : UInt64}
    {b : OpenH264Backend L} {e : L.State} {yuv : List UInt8} {source : YuvSource}
    (hencoder : b.encoder = some e)
    (hyuv : bgraToYuv420p frame.buffer frame.width frame.height = .ok yuv)
    (hsource : basicYuvSource b.width b.height yuv = .ok source) :
    encodePrepared ω frame sequence b = encodeSource ω frame sequence source e b := by
  rw [encodePrepared, Call.getState_bind, hencoder, Outcome.okOr, Call.ofOutcome_ok_bind, hyuv,
    Call.ofOutcome_ok_bind, hsource, Call.ofOutcome_ok_bind]
  rfl

/-- Whatever the backend encodes next is an IDR picture. -/
def IntraNext (b : OpenH264Backend L) : Prop := ∀ e, b.encoder = some e → L.IntraNext e

/-- A counter below the keyframe interval. -/
def WithinInterval (b : OpenH264Backend L) : Prop :=
  0 < b.config.keyframeInterval → b.framesSinceIdr < b.config.keyframeInterval

/-- The backend is as before, or it encodes an IDR picture next. -/
structure Kept (b b' : OpenH264Backend L) : Prop where
  config : b'.config = b.config
  next : b'.IntraNext ∨ b' = b

theorem Kept.refl (b : OpenH264Backend L) : Kept b b := ⟨rfl, Or.inr rfl⟩

/-- What `encode_frame` can do: it encodes an IDR picture; it encodes another picture, which it does
only when none is due; it fails; or it panics. -/
inductive Encoding (b : OpenH264Backend L) (sequence : UInt64) :
    Outcome EncoderError EncodedFrame × OpenH264Backend L → Prop
  | idr (f : EncodedFrame) (b' : OpenH264Backend L) (config : b'.config = b.config)
      (numbered : f.sequence = sequence) (key : IsIdr f.payload) : Encoding b sequence (.ok f, b')
  | inter (f : EncodedFrame) (b' : OpenH264Backend L) (config : b'.config = b.config)
      (numbered : f.sequence = sequence) (key : ¬ IsIdr f.payload) (notDue : ¬ b.IntraNext)
      (within : b.WithinInterval) (counted : b'.framesSinceIdr.toNat = b.framesSinceIdr.toNat + 1) :
      Encoding b sequence (.ok f, b')
  | failed (e : EncoderError) (b' : OpenH264Backend L) (kept : Kept b b') :
      Encoding b sequence (.err e, b')
  | panicked (b' : OpenH264Backend L) : Encoding b sequence (.panicked, b')

variable {ω : L.Oracle} {frame : Frame} {sequence : UInt64} {b : OpenH264Backend L}

section

variable (hL : L.Specified)
include hL

theorem start_wp {width height : UInt32} {config : EncoderConfig} :
    (start ω width height config).wp (fun _ b' => b'.config = config ∧ b'.IntraNext) (· = b) b := by
  rw [start, Call.wp_bind, Call.wp_ofOutcome]
  refine ⟨fun encoder hcreate => ⟨rfl, fun e he => ?_⟩, fun _ => rfl⟩
  cases he
  exact hL.created (Outcome.mapErr_eq_ok.mp hcreate)

theorem forceKeyframe_intraNext (b : OpenH264Backend L) :
    b.forceKeyframe.IntraNext := by
  intro e he
  obtain ⟨e', -, rfl⟩ := Option.map_eq_some_iff.mp he
  exact hL.forced e'

theorem ensureStarted_wp :
    (ensureStarted ω frame).wp (fun _ b' => Kept b b') (Kept b) b := by
  unfold ensureStarted Call.wp
  dsimp only
  split_ifs
  · have h := @start_wp L ω b hL frame.width frame.height b.config
    unfold Call.wp at h
    split at h
    · exact ⟨h.1, Or.inl h.2⟩
    · exact h ▸ Kept.refl b
    · exact h ▸ Kept.refl b
  · exact Kept.refl b

theorem forceAtInterval_wp :
    (forceAtInterval : Call (OpenH264Backend L) EncoderError Unit).wp
      (fun _ b' => b'.config = b.config ∧ (b'.IntraNext ∨ b' = b ∧ b.WithinInterval)) (· = b) b := by
  unfold forceAtInterval Call.wp
  dsimp only
  split_ifs with hdue
  · cases b.encoder with
    | none => exact rfl
    | some e =>
      refine ⟨rfl, Or.inl fun e' he => ?_⟩
      cases he
      exact hL.forced e
  · exact ⟨rfl, Or.inr ⟨rfl, fun hpos => UInt32.not_le.mp fun hle => hdue ⟨hpos, hle⟩⟩⟩

/-- Before the conversion, an IDR picture is asked for where one is due. -/
theorem prepare_wp :
    (prepare ω frame).wp
      (fun _ b' => b'.config = b.config ∧ (b'.IntraNext ∨ b' = b ∧ b.WithinInterval))
      (Kept b) b := by
  rw [prepare, Call.wp_bind, Call.wp_rejectIf]
  refine ⟨fun _ => Kept.refl b, fun _ => ?_⟩
  rw [Call.wp_bind]
  refine Call.wp_mono (fun _ b₁ hstarted => ?_) (fun _ h => h) (ensureStarted_wp hL)
  have hforce := @forceAtInterval_wp L b₁ hL
  refine Call.wp_mono (fun _ b₂ hforced => ?_) (fun b₂ h => ?_) hforce
  · refine ⟨hforced.1.trans hstarted.config, ?_⟩
    rcases hforced.2 with hn | ⟨rfl, hwithin⟩
    · exact Or.inl hn
    · exact hstarted.next.imp id fun h => ⟨h, h ▸ hwithin⟩
  · rw [h]
    exact hstarted

end

/-- A frame that is counted is an IDR picture or adds to the counter. -/
theorem countFrame_cases (idr : Bool) (b : OpenH264Backend L) :
    (∃ n, countFrame idr b = (.ok (), { b with framesSinceIdr := n }) ∧
      (idr = false → n.toNat = b.framesSinceIdr.toNat + 1)) ∨
    countFrame idr b = (.panicked, b) := by
  unfold countFrame
  cases idr with
  | true => exact Or.inl ⟨0, if_pos rfl, fun h => nomatch h⟩
  | false =>
    rw [if_neg Bool.false_ne_true]
    rcases Outcome.add32_cases (ε := EncoderError) b.framesSinceIdr 1 with ⟨n, hn, hadd⟩ | ⟨-, hadd⟩
    · rw [hadd]
      exact Or.inl ⟨n, rfl, fun _ => hn⟩
    · rw [hadd]
      exact Or.inr rfl

/-- From the conversion on, only a call of the encoder that returns changes the backend. -/
theorem encodePrepared_cases (hL : L.Specified) (ω : L.Oracle) (frame : Frame) (sequence : UInt64)
    (b : OpenH264Backend L) :
    (∃ f b', encodePrepared ω frame sequence b = (.ok f, b') ∧ b'.config = b.config ∧
      f.sequence = sequence ∧ (b.IntraNext → IsIdr f.payload) ∧
      (¬ IsIdr f.payload → b'.framesSinceIdr.toNat = b.framesSinceIdr.toNat + 1)) ∨
    (∃ e, encodePrepared ω frame sequence b = (.err e, b)) ∨
    ∃ b', encodePrepared ω frame sequence b = (.panicked, b') := by
  rw [encodePrepared, Call.getState_bind]
  cases hencoder : b.encoder with
  | none => exact Or.inr (Or.inl ⟨_, rfl⟩)
  | some encoder =>
    rw [Outcome.okOr, Call.ofOutcome_ok_bind]
    cases bgraToYuv420p frame.buffer frame.width frame.height with
    | err e => exact Or.inr (Or.inl ⟨e, rfl⟩)
    | panicked => exact Or.inr (Or.inr ⟨b, rfl⟩)
    | ok yuv =>
      rw [Call.ofOutcome_ok_bind]
      cases basicYuvSource b.width b.height yuv with
      | err e => exact Or.inr (Or.inl ⟨e, rfl⟩)
      | panicked => exact Or.inr (Or.inr ⟨b, rfl⟩)
      | ok source =>
        rw [Call.ofOutcome_ok_bind]
        cases hencode : (L.encode ω source encoder).1 with
        | err reason =>
          -- a failed call of the encoder leaves the encoder that was there
          have hsame : encodeYuv ω source encoder b = (.err (.encodeFailed reason), b) := by
            rw [encodeYuv, hencode, hL.failed hencode, ← hencoder]
            rfl
          exact Or.inr (Or.inl ⟨_, Call.bind_of_err hsame _⟩)
        | panicked =>
          have hpanic : (encodeYuv ω source encoder b).1 = .panicked := by
            rw [encodeYuv, hencode]
            rfl
          exact Or.inr (Or.inr ⟨_, Call.bind_of_panicked (Prod.ext hpanic rfl) _⟩)
        | ok payload =>
          have hok : encodeYuv ω source encoder b =
              (.ok payload, { b with encoder := some (L.encode ω source encoder).2 }) := by
            rw [encodeYuv, hencode]
            rfl
          rw [Call.bind_of_ok hok]
          rcases countFrame_cases (isIdr payload)
              { b with encoder := some (L.encode ω source encoder).2 } with
            ⟨n, hcount, hcounted⟩ | hcount
          · rw [Call.bind_of_ok hcount]
            refine Or.inl ⟨_, _, rfl, rfl, rfl, fun hnext => hnext _ hencoder _ _ _ hencode,
              fun hno => hcounted (Bool.eq_false_iff.mpr fun hidr => hno (isIdr_sound hidr))⟩
          · exact Or.inr (Or.inr ⟨_, Call.bind_of_panicked hcount _⟩)

/-- What `encode_frame` can do. -/
theorem encodeFrame_cases (hL : L.Specified) (ω : L.Oracle) (frame : Frame) (sequence : UInt64)
    (b : OpenH264Backend L) : Encoding b sequence (encodeFrame ω frame sequence b) := by
  have hprepare := @prepare_wp L ω frame b hL
  unfold Call.wp at hprepare
  rw [encodeFrame]
  rcases hx : prepare ω frame b with ⟨_ | e | _, b₁⟩
  · rw [hx] at hprepare
    obtain ⟨hconfig₁, hnext⟩ := hprepare
    rw [Call.bind_of_ok hx]
    rcases encodePrepared_cases hL ω frame sequence b₁ with
      ⟨f, b', h, hconfig, hnumbered, hdue, hcounted⟩ | ⟨e, h⟩ | ⟨b', h⟩
    · rw [h]
      by_cases hidr : IsIdr f.payload
      · exact .idr f b' (hconfig.trans hconfig₁) hnumbered hidr
      · -- no IDR picture was due, so the backend was left as it was
        rcases hnext with hnext | ⟨rfl, hwithin⟩
        · exact absurd (hdue hnext) hidr
        · exact .inter f b' hconfig hnumbered hidr (fun h => hidr (hdue h)) hwithin (hcounted hidr)
    · rw [h]
      exact .failed e b₁ ⟨hconfig₁, hnext.imp id And.left⟩
    · rw [h]
      exact .panicked b'
  · rw [hx] at hprepare
    rw [Call.bind_of_err hx]
    exact .failed e b₁ hprepare
  · rw [Call.bind_of_panicked hx]
    exact .panicked b₁

end OpenH264Backend

end Blackwing.Encoder

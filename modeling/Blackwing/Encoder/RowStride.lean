import Blackwing.Encoder.Conversion
import Blackwing.Encoder.Pipeline

/-!
# Captured rows and the luma plane

The capture side stores a row every `stride` bytes, and `stride` may be larger than `4 * width`.
`encode_frame` does not read it: the conversion takes the rows to follow each other without a gap.
So the luma plane that the encoder gets is the picture of the frame only where the two readings of
the buffer have the same luma, and for all buffers of a shape only if its rows have no padding.

What the encoder gets is read from a log: `OpenH264.recorded` is the crate with a list of the
pictures it was given.

1. `encodeFrame_unrecorded`: the log changes nothing else.
2. `passed_eq`: the one picture that a call passes to the encoder.
3. `luma_plane_iff`: when its luma plane shows the frame.
-/

namespace Blackwing.Encoder

variable {L : OpenH264}

/-! ## A crate with a log -/

/-- The crate with a log of the pictures that an encoder was given, oldest first. -/
abbrev OpenH264.recorded (L : OpenH264) : OpenH264 where
  State := L.State × List YuvSource
  Oracle := L.Oracle
  create ω := do
    let e ← L.create ω
    pure (e, [])
  forceIntraFrame e := (L.forceIntraFrame e.1, e.2)
  encode ω source e :=
    ((L.encode ω source e.1).1, (L.encode ω source e.1).2, e.2 ++ [source])

namespace OpenH264Backend

/-- The log of the encoder that is running. -/
def given (b : OpenH264Backend L.recorded) : List YuvSource :=
  match b.encoder with
  | some e => e.2
  | none => []

/-- The backend without the log. -/
def unrecorded (b : OpenH264Backend L.recorded) : OpenH264Backend L where
  encoder := b.encoder.map Prod.fst
  width := b.width
  height := b.height
  config := b.config
  framesSinceIdr := b.framesSinceIdr

/-- `encode_frame` starts a new encoder for the frame. -/
def Restarts (b : OpenH264Backend L) (frame : Frame) : Prop :=
  b.encoder.isNone ∨ frame.width ≠ b.width ∨ frame.height ≠ b.height

instance (b : OpenH264Backend L) (frame : Frame) : Decidable (b.Restarts frame) :=
  inferInstanceAs (Decidable (_ ∨ _))

/-- There is an encoder for the frame: it is running, or it can be started. -/
def Ready (ω : L.Oracle) (frame : Frame) (b : OpenH264Backend L.recorded) : Prop :=
  b.Restarts frame → ∃ e, L.create ω = .ok e

/-- An encoder with the log is running at the size of the frame. -/
structure RunsAt (frame : Frame) (log : List YuvSource) (b : OpenH264Backend L.recorded) :
    Prop where
  encoder : ∃ e, b.encoder = some (e, log)
  width : b.width = frame.width
  height : b.height = frame.height

/-- The pictures that a call of `encode_frame` passes to the encoder. A new encoder has an empty
log. -/
def passed (ω : L.Oracle) (frame : Frame) (sequence : UInt64) (b : OpenH264Backend L.recorded) :
    List YuvSource :=
  (encodeFrame (L := L.recorded) ω frame sequence b).2.given.drop
    (if b.Restarts frame then 0 else b.given.length)

end OpenH264Backend

/-! ## The frame and its picture -/

/-- A captured frame: its rows start every `stride` bytes. -/
structure Frame.Captured (frame : Frame) : Prop where
  even_width : frame.width.toNat % 2 = 0
  even_height : frame.height.toNat % 2 = 0
  two_le_width : 2 ≤ frame.width.toNat
  two_le_height : 2 ≤ frame.height.toNat
  row : 4 * frame.width.toNat ≤ frame.stride.toNat
  fits : frame.stride.toNat * frame.height.toNat < 2 ^ 32
  length : frame.buffer.length = frame.stride.toNat * frame.height.toNat

/-- The luma plane of a picture has at `(x, y)` the luma of the pixel that the frame stores
there. -/
def ShowsLuma (frame : Frame) (source : YuvSource) : Prop :=
  ∀ x < frame.width.toNat, ∀ y < frame.height.toNat,
    (source.y[y * frame.width.toNat + x]?).map UInt8.toNat =
      some (lumaAt frame.buffer (y * frame.stride.toNat + 4 * x))

/-- A call passes one picture to the encoder, and its luma plane shows the frame. -/
def PassesLuma (ω : L.Oracle) (frame : Frame) (sequence : UInt64)
    (b : OpenH264Backend L.recorded) : Prop :=
  ∃ source, b.passed ω frame sequence = [source] ∧ ShowsLuma frame source

/-- The two readings of the buffer, without gaps and with rows every `stride` bytes, have the same
luma everywhere. -/
def SameLuma (frame : Frame) : Prop :=
  ∀ x < frame.width.toNat, ∀ y < frame.height.toNat,
    lumaAt frame.buffer ((y * frame.width.toNat + x) * 4) =
      lumaAt frame.buffer (y * frame.stride.toNat + 4 * x)

namespace OpenH264Backend

/-! ## The log changes nothing -/

variable {ω : L.Oracle} {frame : Frame} {sequence : UInt64} {b : OpenH264Backend L.recorded}

theorem start_unrecorded (width height : UInt32) (config : EncoderConfig) :
    Call.Follows unrecorded (start (L := L) ω width height config)
      (start (L := L.recorded) ω width height config) b := by
  unfold Call.Follows start OpenH264.recorded
  dsimp only
  cases L.create ω with
  | ok e => rfl
  | err e => rfl
  | panicked => rfl

theorem ensureStarted_unrecorded :
    Call.Follows unrecorded (ensureStarted (L := L) ω frame)
      (ensureStarted (L := L.recorded) ω frame) b := by
  have hstart := @start_unrecorded L ω b frame.width frame.height b.config
  have hnone : b.unrecorded.encoder.isNone = b.encoder.isNone := Option.isNone_map
  unfold Call.Follows ensureStarted at *
  rw [hnone]
  by_cases h : b.encoder.isNone ∨ frame.width ≠ b.width ∨ frame.height ≠ b.height
  · rw [if_pos h]
    exact (if_pos h).trans hstart
  · rw [if_neg h]
    exact if_neg h

theorem forceAtInterval_unrecorded :
    Call.Follows unrecorded (forceAtInterval (L := L)) (forceAtInterval (L := L.recorded)) b := by
  obtain ⟨encoder, width, height, config, framesSinceIdr⟩ := b
  unfold Call.Follows forceAtInterval unrecorded
  dsimp only
  split
  · cases encoder with
    | none => rfl
    | some e => rfl
  · rfl

theorem prepare_unrecorded :
    Call.Follows unrecorded (prepare (L := L) ω frame) (prepare (L := L.recorded) ω frame) b :=
  Call.follows_bind Call.follows_rejectIf fun _ _ _ =>
    Call.follows_bind ensureStarted_unrecorded fun _ _ _ => forceAtInterval_unrecorded

theorem countFrame_unrecorded (idr : Bool) :
    Call.Follows unrecorded (countFrame (L := L) idr) (countFrame (L := L.recorded) idr) b := by
  obtain ⟨encoder, width, height, config, framesSinceIdr⟩ := b
  unfold Call.Follows countFrame unrecorded
  dsimp only
  cases idr with
  | true => rfl
  | false => cases Outcome.add32 (ε := EncoderError) framesSinceIdr 1 <;> rfl

theorem encodePrepared_unrecorded :
    Call.Follows unrecorded (encodePrepared (L := L) ω frame sequence)
      (encodePrepared (L := L.recorded) ω frame sequence) b := by
  obtain ⟨encoder, width, height, config, framesSinceIdr⟩ := b
  cases encoder with
  | none => rfl
  | some e =>
    refine Call.follows_getState_both (Call.follows_ok_bind ?_)
    refine Call.follows_bind (Call.follows_ofOutcome _) fun yuv _ _ => ?_
    refine Call.follows_bind (Call.follows_ofOutcome _) fun source _ _ => ?_
    have hencode : ∀ b, Call.Follows unrecorded (encodeYuv (L := L) ω source e.1)
        (encodeYuv (L := L.recorded) ω source e) b := fun _ => rfl
    exact Call.follows_bind (hencode _) fun payload _ _ =>
      Call.follows_bind (countFrame_unrecorded _) fun _ _ _ => rfl

/-- Without the log, a call does what it does with it. -/
theorem encodeFrame_unrecorded :
    Call.Follows unrecorded (encodeFrame (L := L) ω frame sequence)
      (encodeFrame (L := L.recorded) ω frame sequence) b :=
  Call.follows_bind prepare_unrecorded fun _ _ _ => encodePrepared_unrecorded

/-! ## Before the conversion -/

section

variable {b : OpenH264Backend L}

theorem start_eq (ω : L.Oracle) (width height : UInt32) (config : EncoderConfig)
    (b : OpenH264Backend L) :
    start ω width height config b =
      match L.create ω with
      | .ok e => (.ok (), ⟨some e, width, height, config, 0⟩)
      | .err e => (.err (.initFailed e), b)
      | .panicked => (.panicked, b) := by
  unfold start
  cases L.create ω <;> rfl

theorem ensureStarted_of_restarts (h : b.Restarts frame) (ω : L.Oracle) :
    ensureStarted ω frame b = start ω frame.width frame.height b.config b := if_pos h

theorem ensureStarted_of_created (h : b.Restarts frame) {e : L.State} (hcreate : L.create ω = .ok e) :
    ensureStarted ω frame b = (.ok (), ⟨some e, frame.width, frame.height, b.config, 0⟩) := by
  rw [ensureStarted_of_restarts h, start_eq, hcreate]

theorem ensureStarted_of_running (h : ¬ b.Restarts frame) (ω : L.Oracle) :
    ensureStarted ω frame b = (.ok (), b) := if_neg h

theorem not_restarts_iff :
    ¬ b.Restarts frame ↔
      (∃ e, b.encoder = some e) ∧ b.width = frame.width ∧ b.height = frame.height := by
  rw [Restarts, not_or, not_or, not_not, not_not, Option.isNone_iff_eq_none, ← ne_eq,
    Option.ne_none_iff_exists', @eq_comm _ frame.width, @eq_comm _ frame.height]

theorem prepare_of_no_pixels (h : frame.hasPixels = false) (ω : L.Oracle) (b : OpenH264Backend L) :
    prepare ω frame b =
      (.err (.encodeFailed "frame has no pixel data (empty capture frame)"), b) := by
  rw [prepare, Call.rejectIf_bind, if_pos h]

end

/-! ## The picture that a call passes -/

/-- The log that the encoder has when the conversion starts. -/
def logBefore (frame : Frame) (b : OpenH264Backend L.recorded) : List YuvSource :=
  if b.Restarts frame then [] else b.given

theorem ensureStarted_runsAt (hready : b.Ready ω frame) :
    ∃ b₁, ensureStarted (L := L.recorded) ω frame b = (.ok (), b₁) ∧
      b₁.RunsAt frame (b.logBefore frame) := by
  unfold logBefore
  by_cases hrestarts : b.Restarts frame
  · obtain ⟨e, hcreate⟩ := hready hrestarts
    rw [if_pos hrestarts]
    have hcreate' : L.recorded.create ω = .ok (e, []) := by
      show (L.create ω >>= fun e => pure (e, [])) = _
      rw [hcreate]
      rfl
    exact ⟨_, ensureStarted_of_created hrestarts hcreate', ⟨e, rfl⟩, rfl, rfl⟩
  · obtain ⟨⟨e, hencoder⟩, hwidth, hheight⟩ := not_restarts_iff.mp hrestarts
    rw [if_neg hrestarts, given, hencoder]
    exact ⟨b, ensureStarted_of_running hrestarts ω, ⟨e.1, hencoder⟩, hwidth, hheight⟩

theorem forceAtInterval_runsAt {log : List YuvSource} (h : b.RunsAt frame log) :
    ∃ b₁, forceAtInterval (L := L.recorded) b = (.ok (), b₁) ∧ b₁.RunsAt frame log := by
  obtain ⟨e, hencoder⟩ := h.encoder
  unfold forceAtInterval
  split
  · rw [hencoder]
    exact ⟨_, rfl, ⟨_, rfl⟩, h.width, h.height⟩
  · exact ⟨b, rfl, h⟩

theorem prepare_runsAt (hpixels : frame.hasPixels = true) (hready : b.Ready ω frame) :
    ∃ b₁, prepare (L := L.recorded) ω frame b = (.ok (), b₁) ∧
      b₁.RunsAt frame (b.logBefore frame) := by
  obtain ⟨b₁, hstarted, hruns₁⟩ := ensureStarted_runsAt hready
  obtain ⟨b₂, hforced, hruns₂⟩ := forceAtInterval_runsAt hruns₁
  refine ⟨b₂, ?_, hruns₂⟩
  rw [prepare_of_pixels hpixels, Call.bind_of_ok hstarted]
  exact hforced

/-- The encoder after a call: it was given the picture, whatever the call then returns. -/
theorem encodePrepared_encoder {L : OpenH264} {ω : L.Oracle} {b : OpenH264Backend L} {e : L.State}
    {yuv : List UInt8} {source : YuvSource} (hencoder : b.encoder = some e)
    (hyuv : bgraToYuv420p frame.buffer frame.width frame.height = .ok yuv)
    (hsource : basicYuvSource b.width b.height yuv = .ok source) :
    (encodePrepared ω frame sequence b).2.encoder = some (L.encode ω source e).2 := by
  let E : OpenH264Backend L → Prop := fun b' => b'.encoder = some (L.encode ω source e).2
  have hcount : ∀ idr b', E b' → E (countFrame idr b').2 := by
    intro idr b' h
    unfold countFrame
    cases idr with
    | true => exact h
    | false => cases Outcome.add32 (ε := EncoderError) b'.framesSinceIdr 1 <;> exact h
  rw [encodePrepared_of_source hencoder hyuv hsource, encodeSource, Call.getState_bind]
  exact Call.holds_bind (E := E) rfl fun payload b' h =>
    Call.holds_bind (E := E) (hcount _ b' h) fun _ _ h => h

/-- The picture that the conversion makes of a frame. -/
def picture (frame : Frame) : YuvSource where
  width := frame.width.toNat
  height := frame.height.toNat
  y := (converted frame.buffer frame.width.toNat frame.height.toNat).take
    (frame.width.toNat * frame.height.toNat)
  u := ((converted frame.buffer frame.width.toNat frame.height.toNat).drop
    (frame.width.toNat * frame.height.toNat)).take (frame.width.toNat * frame.height.toNat / 4)
  v := (converted frame.buffer frame.width.toNat frame.height.toNat).drop
    (frame.width.toNat * frame.height.toNat + frame.width.toNat * frame.height.toNat / 4)

theorem area_le (h : frame.Captured) :
    4 * (frame.width.toNat * frame.height.toNat) ≤ frame.stride.toNat * frame.height.toNat := by
  rw [← Nat.mul_assoc]
  exact Nat.mul_le_mul_right _ h.row

theorem hasPixels_iff (frame : Frame) :
    frame.hasPixels = true ↔ frame.width.toNat * frame.height.toNat * 4 < 2 ^ 64 ∧
      frame.width.toNat * frame.height.toNat * 4 ≤ frame.buffer.length := by
  have hsmall : frame.width.toNat * frame.height.toNat < 2 ^ 64 :=
    Nat.lt_of_lt_of_eq (Nat.mul_lt_mul'' frame.width.toNat_lt frame.height.toNat_lt) rfl
  have harea : (frame.width.toUInt64 * frame.height.toUInt64).toNat =
      frame.width.toNat * frame.height.toNat := by
    rw [UInt64.toNat_mul, UInt32.toNat_toUInt64, UInt32.toNat_toUInt64, Nat.mod_eq_of_lt hsmall]
  have hfirst : checkedMul frame.width.toUInt64 frame.height.toUInt64 =
      some (frame.width.toUInt64 * frame.height.toUInt64) :=
    if_pos (by rwa [UInt32.toNat_toUInt64, UInt32.toNat_toUInt64])
  have hfour : (4 : UInt64).toNat = 4 := rfl
  rw [Frame.hasPixels, hfirst, Option.bind_some, checkedMul, harea, hfour]
  by_cases hbytes : frame.width.toNat * frame.height.toNat * 4 < 2 ^ 64
  · have hmul : (frame.width.toUInt64 * frame.height.toUInt64 * 4).toNat =
        frame.width.toNat * frame.height.toNat * 4 := by
      rw [UInt64.toNat_mul, harea, hfour, Nat.mod_eq_of_lt hbytes]
    rw [if_pos hbytes]
    dsimp only
    rw [hmul, decide_eq_true_iff]
    exact (and_iff_right hbytes).symm
  · rw [if_neg hbytes]
    exact iff_of_false Bool.false_ne_true fun h => hbytes h.1

theorem hasPixels_of_captured (h : frame.Captured) : frame.hasPixels = true := by
  have hle := area_le h
  have hfits := h.fits
  refine (hasPixels_iff frame).mpr ⟨by omega, ?_⟩
  rw [h.length, Nat.mul_comm]
  exact hle

/-- A call passes the picture that is made of the frame to the encoder. -/
theorem passed_of_picture {yuv : List UInt8} {source : YuvSource} (hpixels : frame.hasPixels = true)
    (hready : b.Ready ω frame)
    (hyuv : bgraToYuv420p frame.buffer frame.width frame.height = .ok yuv)
    (hsource : basicYuvSource frame.width frame.height yuv = .ok source) :
    b.passed ω frame sequence = [source] := by
  obtain ⟨b₁, hprepare, hruns⟩ := prepare_runsAt hpixels hready
  obtain ⟨e, hencoder⟩ := hruns.encoder
  rw [← hruns.width, ← hruns.height] at hsource
  have hafter := @encodePrepared_encoder frame sequence L.recorded ω b₁ _ _ _ hencoder hyuv hsource
  have hgiven : (encodeFrame (L := L.recorded) ω frame sequence b).2.given =
      b.logBefore frame ++ [source] := by
    rw [encodeFrame, Call.bind_of_ok hprepare, given, hafter]
  rw [passed, hgiven, logBefore]
  split
  · rfl
  · exact List.drop_left

/-- A call on a captured frame passes the converted picture to the encoder. -/
theorem passed_eq (hcaptured : frame.Captured) (hready : b.Ready ω frame) :
    b.passed ω frame sequence = [picture frame] := by
  have hle := area_le hcaptured
  have hfits := hcaptured.fits
  exact passed_of_picture (hasPixels_of_captured hcaptured) hready
    (bgraToYuv420p_eq hcaptured.even_width hcaptured.even_height (by omega)
      (hcaptured.length ▸ hle))
    (basicYuvSource_eq (by omega) length_converted)

end OpenH264Backend

/-! ## The two readings of the buffer -/

variable {frame : Frame}

open OpenH264Backend

/-- The luma plane of the picture is the reading without gaps. -/
theorem showsLuma_picture_iff (h : frame.Captured) :
    ShowsLuma frame (picture frame) ↔ SameLuma frame := by
  have hplane : ∀ x < frame.width.toNat, ∀ y < frame.height.toNat,
      ((picture frame).y[y * frame.width.toNat + x]?).map UInt8.toNat =
        some (lumaAt frame.buffer ((y * frame.width.toNat + x) * 4)) := by
    intro x hx y hy
    rw [picture, List.getElem?_take_of_lt (index_lt hx hy),
      getElem?_luma h.even_width h.even_height hx hy, Option.map_some, toNat_asU8_luma]
  constructor
  · intro hshows x hx y hy
    exact Option.some.inj ((hplane x hx y hy).symm.trans (hshows x hx y hy))
  · intro hsame x hx y hy
    rw [hplane x hx y hy, hsame x hx y hy]

theorem sameLuma_of_tight (h : frame.stride.toNat = 4 * frame.width.toNat) : SameLuma frame := by
  intro x _ y _
  have hoffset : (y * frame.width.toNat + x) * 4 = y * frame.stride.toNat + 4 * x := by
    rw [h, Nat.add_mul, Nat.mul_left_comm y 4, Nat.mul_comm _ 4, Nat.mul_comm x 4]
  rw [hoffset]

/-- A black buffer with one blue byte. -/
theorem getD_blueAt {n i : Nat} (hi : i < n) (j : Nat) :
    ((List.replicate n (0 : UInt8)).set i 255).getD j 0 = if i = j then 255 else 0 := by
  rw [List.getD_eq_getElem?_getD, List.getElem?_set]
  split
  · rw [List.length_replicate, if_pos hi]
    rfl
  · rw [List.getElem?_replicate]
    split <;> rfl

/-- Rows with padding: a blue pixel where the second row would start without it. -/
theorem exists_not_sameLuma (h : frame.Captured)
    (hpadded : 4 * frame.width.toNat < frame.stride.toNat) :
    ∃ buffer : List UInt8, buffer.length = frame.buffer.length ∧
      ¬ SameLuma { frame with buffer } := by
  have hwidth := h.two_le_width
  have hheight : 0 < frame.height.toNat := Nat.lt_of_lt_of_le Nat.two_pos h.two_le_height
  have hlt : 4 * frame.width.toNat < frame.buffer.length := by
    rw [h.length]
    exact Nat.lt_of_lt_of_le hpadded (Nat.le_mul_of_pos_right _ hheight)
  refine ⟨(List.replicate frame.buffer.length 0).set (4 * frame.width.toNat) 255, ?_,
    fun hsame => ?_⟩
  · rw [List.length_set, List.length_replicate]
  · have htight : lumaAt ((List.replicate frame.buffer.length 0).set (4 * frame.width.toNat) 255)
        ((1 * frame.width.toNat + 0) * 4) = 29 := by
      rw [lumaAt, getD_blueAt hlt, getD_blueAt hlt, getD_blueAt hlt, if_neg (by omega),
        if_neg (by omega), if_pos (by omega)]
      rfl
    have hpadding : lumaAt ((List.replicate frame.buffer.length 0).set (4 * frame.width.toNat) 255)
        (1 * frame.stride.toNat + 4 * 0) = 0 := by
      rw [lumaAt, getD_blueAt hlt, getD_blueAt hlt, getD_blueAt hlt, if_neg (by omega),
        if_neg (by omega), if_neg (by omega)]
      rfl
    have hpixel := hsame 0 (Nat.lt_of_lt_of_le Nat.two_pos hwidth) 1 h.two_le_height
    exact absurd (htight.symm.trans (hpixel.trans hpadding)) (by decide)

/-- The luma plane that a call passes to the encoder shows the frame exactly if the two readings
agree; for all buffers of a shape, exactly if the rows have no padding. -/
theorem luma_plane_iff (ω : L.Oracle) (frame : Frame) (sequence : UInt64)
    (b : OpenH264Backend L.recorded) (hcaptured : frame.Captured) (hready : b.Ready ω frame) :
    (PassesLuma ω frame sequence b ↔ SameLuma frame) ∧
      ((∀ buffer : List UInt8, buffer.length = frame.buffer.length →
          PassesLuma ω { frame with buffer } sequence b) ↔
        frame.stride.toNat = 4 * frame.width.toNat) := by
  have hframe : ∀ frame' : Frame, frame'.Captured → b.Ready ω frame' →
      (PassesLuma ω frame' sequence b ↔ SameLuma frame') := by
    intro frame' hcaptured' hready'
    unfold PassesLuma
    rw [passed_eq hcaptured' hready', ← showsLuma_picture_iff hcaptured']
    constructor
    · rintro ⟨source, heq, hshows⟩
      rwa [List.singleton_inj.mp heq]
    · intro hshows
      exact ⟨picture frame', rfl, hshows⟩
  have hshape : ∀ buffer : List UInt8, buffer.length = frame.buffer.length →
      ({ frame with buffer } : Frame).Captured := fun buffer hlen =>
    { hcaptured with length := hlen.trans hcaptured.length }
  refine ⟨hframe frame hcaptured hready, ?_⟩
  constructor
  · intro hall
    by_contra hne
    obtain ⟨buffer, hlen, hdiffers⟩ := exists_not_sameLuma hcaptured
      (Nat.lt_of_le_of_ne hcaptured.row (Ne.symm hne))
    exact hdiffers ((hframe _ (hshape buffer hlen) hready).mp (hall buffer hlen))
  · intro htight buffer hlen
    exact (hframe _ (hshape buffer hlen) hready).mpr (sameLuma_of_tight htight)

/-- A frame of two by two pixels with rows of `stride` bytes, whose second row is white. -/
def whiteRow (stride : UInt32) : Frame where
  width := 2
  height := 2
  stride
  timestampUs := 0
  buffer := List.replicate stride.toNat 0 ++ List.replicate stride.toNat 255
  isRefresh := false

theorem luma_plane_iff_tight :
    (whiteRow 8).Captured ∧ PassesLuma (L := .plain) false (whiteRow 8) 0 .new :=
  have hcaptured : (whiteRow 8).Captured := by constructor <;> decide
  ⟨hcaptured, (luma_plane_iff (L := .plain) false (whiteRow 8) 0 .new hcaptured
    fun _ => ⟨true, rfl⟩).1.mpr (sameLuma_of_tight rfl)⟩

/-- With twelve bytes to a row, the encoder gets a black pixel where the frame has a white one. -/
theorem padded_row_misread :
    (whiteRow 12).Captured ∧
    ((OpenH264Backend.new (L := OpenH264.plain.recorded)).passed false (whiteRow 12) 0).map
        YuvSource.y = [[0, 0, 0, 255]] ∧
    lumaAt (whiteRow 12).buffer (1 * 12 + 4 * 0) = 255 ∧
    ¬ PassesLuma (L := .plain) false (whiteRow 12) 0 .new := by
  have hpassed : ((OpenH264Backend.new (L := OpenH264.plain.recorded)).passed false
      (whiteRow 12) 0).map YuvSource.y = [[0, 0, 0, 255]] := by decide +kernel
  refine ⟨by constructor <;> decide, hpassed, by decide, ?_⟩
  rintro ⟨source, heq, hshows⟩
  rw [heq, List.map_singleton, List.singleton_inj] at hpassed
  have hpixel := hshows 0 (by decide) 1 (by decide)
  rw [hpassed] at hpixel
  exact absurd hpixel (by decide)

end Blackwing.Encoder

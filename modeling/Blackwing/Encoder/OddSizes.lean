import Blackwing.Encoder.RowStride
import Mathlib.Algebra.Ring.Parity
import Mathlib.Tactic.Ring

/-!
# Frames of odd sizes

The size check of `encode_frame` asks for `4 * width * height` bytes and does not look at the parity
of the sizes. The conversion takes the frame apart into blocks of two by two pixels. At an odd width
or height the last blocks reach past the frame: their reads need a longer buffer, and their stores
must stay within the planes, whose sizes are rounded down.

* `BlockFits.mono`: when the last block fits, all do.
* `ConversionFits`: the sizes and buffer lengths for which it does.
* `reaches_encoder_iff`: these are the frames for which a call does not panic before it reaches the
  encoder.
-/

namespace Blackwing.Encoder

/-! ## The last block -/

/-- The conversion of a `w` by `h` frame stays within its vectors, for a buffer of `len` bytes. -/
def ConversionFits (w h len : Nat) : Prop :=
  w = 0 ∨ h = 0 ∨ (w % 2 = 0 ∧ h % 2 = 0) ∨
    (w % 2 = 1 ∧ h % 2 = 0 ∧ 4 ≤ h ∧ 4 * (w * h) + 3 ≤ len) ∨
    (w % 2 = 1 ∧ h % 2 = 1 ∧ w + 4 ≤ h ∧ 4 * (w * h + w) + 3 ≤ len)

instance (w h len : Nat) : Decidable (ConversionFits w h len) :=
  inferInstanceAs (Decidable (_ ∨ _))

variable {bgra : List UInt8} {w h : Nat}

/-- The three places of a block that lie furthest out. -/
theorem blockFits_iff {n row col : Nat} :
    BlockFits bgra w (w * h) (w * h + w * h / 4) n (row, col) ↔
      ((row + 1) * w + col) * 4 + 6 < bgra.length ∧ (row + 1) * w + col + 1 < n ∧
        w * h + w * h / 4 + (row / 2 * (w / 2) + col / 2) < n := by
  have hrow : (row + 1) * w = row * w + w := Nat.succ_mul row w
  simp only [BlockFits, blockStores, List.forall_mem_cons, List.not_mem_nil, false_implies,
    implies_true, and_true]
  constructor
  · rintro ⟨hread, -, -, -, hluma, -, hchroma⟩
    exact ⟨hread, hluma, hchroma⟩
  · rintro ⟨hread, hluma, hchroma⟩
    exact ⟨hread, by omega, by omega, by omega, hluma, by omega, hchroma⟩

/-- A block fits when one below it and to its right does. -/
theorem BlockFits.mono {n row col row' col' : Nat} (hrow : row ≤ row') (hcol : col ≤ col')
    (hfits : BlockFits bgra w (w * h) (w * h + w * h / 4) n (row', col')) :
    BlockFits bgra w (w * h) (w * h + w * h / 4) n (row, col) := by
  have hluma : (row + 1) * w ≤ (row' + 1) * w := Nat.mul_le_mul_right w (Nat.succ_le_succ hrow)
  have hchroma : row / 2 * (w / 2) ≤ row' / 2 * (w / 2) :=
    Nat.mul_le_mul_right _ (Nat.div_le_div_right hrow)
  have hcol' : col / 2 ≤ col' / 2 := Nat.div_le_div_right hcol
  rw [blockFits_iff] at hfits ⊢
  omega

/-- The last block fits: the four cases of odd and even sizes. -/
theorem lastFits_iff (hw : 0 < w) (hh : 0 < h) (hlen : 4 * (w * h) ≤ bgra.length) :
    BlockFits bgra w (w * h) (w * h + w * h / 4) (w * h + w * h / 4 * 2)
        (2 * ((h - 1) / 2), 2 * ((w - 1) / 2)) ↔
      ConversionFits w h bgra.length := by
  rw [blockFits_iff, ConversionFits]
  -- the last block is the `k`-th from the top and the `m`-th from the left, counted from 0
  obtain ⟨m, hm⟩ : ∃ m, (w - 1) / 2 = m := ⟨_, rfl⟩
  obtain ⟨k, hk⟩ : ∃ k, (h - 1) / 2 = k := ⟨_, rfl⟩
  rw [hm, hk, Nat.mul_div_cancel_left k Nat.two_pos, Nat.mul_div_cancel_left m Nat.two_pos]
  rcases Nat.mod_two_eq_zero_or_one w with hw2 | hw2
  · obtain rfl : w = 2 * m + 2 := by omega
    have hhalf : (2 * m + 2) / 2 = m + 1 := by omega
    have hchroma : k * (m + 1) = m * k + k := by ring
    rcases Nat.mod_two_eq_zero_or_one h with hh2 | hh2
    · obtain rfl : h = 2 * k + 2 := by omega
      have harea : (2 * m + 2) * (2 * k + 2) = 4 * (m * k + k + m + 1) := by ring
      have hluma : (2 * k + 1) * (2 * m + 2) = 4 * (m * k) + 4 * k + 2 * m + 2 := by ring
      rw [harea] at hlen
      rw [hhalf, hchroma, hluma, harea]
      omega
    · -- the last row of blocks has more chroma values than are left
      obtain rfl : h = 2 * k + 1 := by omega
      have harea : (2 * m + 2) * (2 * k + 1) = 4 * (m * k) + 4 * k + 2 * m + 2 := by ring
      rw [hhalf, hchroma, harea]
      omega
  · obtain rfl : w = 2 * m + 1 := by omega
    have hhalf : (2 * m + 1) / 2 = m := by omega
    have hchroma : k * m = m * k := Nat.mul_comm k m
    rcases Nat.mod_two_eq_zero_or_one h with hh2 | hh2
    · obtain rfl : h = 2 * k + 2 := by omega
      have harea : (2 * m + 1) * (2 * k + 2) = 4 * (m * k) + 4 * m + 2 * k + 2 := by ring
      have hluma : (2 * k + 1) * (2 * m + 1) = 4 * (m * k) + 2 * k + 2 * m + 1 := by ring
      rw [harea] at hlen
      rw [hhalf, hchroma, hluma, harea]
      omega
    · obtain rfl : h = 2 * k + 1 := by omega
      have harea : (2 * m + 1) * (2 * k + 1) = 4 * (m * k) + 2 * k + 2 * m + 1 := by ring
      have hluma : (2 * k + 1) * (2 * m + 1) = 4 * (m * k) + 2 * k + 2 * m + 1 := by ring
      rw [hhalf, hchroma, hluma, harea]
      omega

/-- All blocks fit exactly if the last one does. -/
theorem allFit_iff (hlen : 4 * (w * h) ≤ bgra.length) :
    (∀ block ∈ blocks w h,
        BlockFits bgra w (w * h) (w * h + w * h / 4) (w * h + w * h / 4 * 2) block) ↔
      ConversionFits w h bgra.length := by
  rcases Nat.eq_zero_or_pos w with rfl | hw
  · refine iff_of_true (fun block hblock => ?_) (Or.inl rfl)
    exact absurd (mem_blocks.mp hblock).2.2 (Nat.not_lt_zero _)
  rcases Nat.eq_zero_or_pos h with rfl | hh
  · refine iff_of_true (fun block hblock => ?_) (Or.inr (Or.inl rfl))
    exact absurd (mem_blocks.mp hblock).1.2 (Nat.not_lt_zero _)
  rw [← lastFits_iff hw hh hlen]
  constructor
  · intro hall
    exact hall _ (mem_blocks.mpr ⟨⟨Nat.mul_mod_right 2 _, by omega⟩, Nat.mul_mod_right 2 _, by omega⟩)
  · rintro hlast ⟨row, col⟩ hblock
    obtain ⟨⟨hrow2, hrow⟩, hcol2, hcol⟩ := mem_blocks.mp hblock
    exact hlast.mono (by omega) (by omega)

/-! ## The picture of a frame -/

/-- The conversion and the slices of the planes do not panic. -/
structure Frame.Convertible (frame : Frame) : Prop where
  area : frame.width.toNat * frame.height.toNat +
    frame.width.toNat * frame.height.toNat / 4 < 2 ^ 32
  fits : ConversionFits frame.width.toNat frame.height.toNat frame.buffer.length

instance (frame : Frame) : Decidable frame.Convertible :=
  decidable_of_iff (_ ∧ _) ⟨fun h => ⟨h.1, h.2⟩, fun h => ⟨h.area, h.fits⟩⟩

open OpenH264Backend

variable {frame : Frame}

/-- The end of the second plane does not fit `u32`. -/
theorem basicYuvSource_panics {width height : UInt32} {yuv : List UInt8}
    (harea : width.toNat * height.toNat < 2 ^ 32)
    (hend : 2 ^ 32 ≤ width.toNat * height.toNat + width.toNat * height.toNat / 4)
    (hyuv : yuv.length = width.toNat * height.toNat + width.toNat * height.toNat / 4 * 2) :
    basicYuvSource width height yuv = .panicked := by
  obtain ⟨hmul, htoNat⟩ := Outcome.mul32_of_lt (ε := EncoderError) harea
  have hquarter : (width * height / 4).toNat = width.toNat * height.toNat / 4 := by
    rw [UInt32.toNat_div, htoNat]
    rfl
  have hadd : (Outcome.add32 (width * height) (width * height / 4) : Outcome EncoderError UInt32) =
      .panicked := if_neg (by rw [htoNat, hquarter]; exact Nat.not_lt.mpr hend)
  rw [basicYuvSource, hmul, Outcome.ok_bind, hadd, htoNat, Outcome.slice,
    if_pos ⟨Nat.zero_le _, hyuv ▸ Nat.le_add_right _ _⟩]
  rfl

/-- The conversion and the slices make the picture of a frame, or panic. -/
theorem pictureOf_eq
    (hlen : 4 * (frame.width.toNat * frame.height.toNat) ≤ frame.buffer.length) :
    (do
      let yuv ← bgraToYuv420p frame.buffer frame.width frame.height
      basicYuvSource frame.width frame.height yuv) =
      if frame.Convertible then .ok (picture frame) else .panicked := by
  by_cases harea : frame.width.toNat * frame.height.toNat < 2 ^ 32
  · rw [bgraToYuv420p_eq_with, bgraToYuv420pWith_eq (fun n => List.length_replicate) harea]
    dsimp only
    simp only [allFit_iff hlen]
    by_cases hfits : ConversionFits frame.width.toNat frame.height.toNat frame.buffer.length
    · rw [if_pos hfits, Outcome.ok_bind]
      show basicYuvSource _ _ (converted frame.buffer frame.width.toNat frame.height.toNat) = _
      by_cases hend : frame.width.toNat * frame.height.toNat +
          frame.width.toNat * frame.height.toNat / 4 < 2 ^ 32
      · rw [if_pos ⟨hend, hfits⟩]
        exact basicYuvSource_eq hend length_converted
      · rw [if_neg fun h => hend h.area]
        exact basicYuvSource_panics harea (Nat.not_lt.mp hend) length_converted
    · rw [if_neg hfits, if_neg fun h => hfits h.fits]
      rfl
  · rw [bgraToYuv420p, Outcome.mul32, if_neg harea, if_neg fun h => harea ?_]
    · rfl
    · exact Nat.lt_of_le_of_lt (Nat.le_add_right _ _) h.area

/-! ## The call -/

variable {L : OpenH264} {ω : L.Oracle} {sequence : UInt64}

/-- A call on a frame that cannot be converted panics at the conversion. -/
theorem encodePrepared_panics {b : OpenH264Backend L} {e : L.State} (hencoder : b.encoder = some e)
    (hwidth : b.width = frame.width) (hheight : b.height = frame.height)
    (hlen : 4 * (frame.width.toNat * frame.height.toNat) ≤ frame.buffer.length)
    (hframe : ¬ frame.Convertible) :
    encodePrepared ω frame sequence b = (.panicked, b) := by
  have hpicture := pictureOf_eq hlen
  rw [if_neg hframe] at hpicture
  rw [encodePrepared, Call.getState_bind, hencoder, Outcome.okOr, Call.ofOutcome_ok_bind, hwidth,
    hheight]
  cases hyuv : bgraToYuv420p frame.buffer frame.width frame.height with
  | ok yuv =>
    rw [hyuv, Outcome.ok_bind] at hpicture
    rw [Call.ofOutcome_ok_bind, hpicture]
    rfl
  | err e => rw [hyuv] at hpicture; cases hpicture
  | panicked => rfl

theorem prepare_of_not_created {b : OpenH264Backend L} (hpixels : frame.hasPixels = true)
    (hrestarts : b.Restarts frame) {e : String} (hcreate : L.create ω = .err e) :
    prepare ω frame b = (.err (.initFailed e), b) := by
  have hstart : ensureStarted ω frame b = (.err (.initFailed e), b) := by
    rw [ensureStarted_of_restarts hrestarts, start_eq, hcreate]
  rw [prepare_of_pixels hpixels, Call.bind_of_err hstart]

/-- The call panics before the encoder is given a picture. -/
def PanicsBeforeEncode (ω : L.Oracle) (frame : Frame) (sequence : UInt64)
    (b : OpenH264Backend L.recorded) : Prop :=
  (encodeFrame (L := L.recorded) ω frame sequence b).1 = .panicked ∧ b.passed ω frame sequence = []

variable {b : OpenH264Backend L.recorded}

/-- An encoder that cannot be created ends the call with an error. -/
theorem encodeFrame_of_not_created (hpixels : frame.hasPixels = true) (hrestarts : b.Restarts frame)
    {e : String} (hcreate : L.create ω = .err e) :
    (encodeFrame (L := L.recorded) ω frame sequence b).1 = .err (.initFailed e) := by
  have hcreate' : L.recorded.create ω = .err e := by
    show (L.create ω >>= fun e => pure (e, [])) = _
    rw [hcreate]
    rfl
  rw [encodeFrame, Call.bind_of_err (prepare_of_not_created hpixels hrestarts hcreate')]

/-- With an encoder, a frame that cannot be converted is not passed to it. -/
theorem panicsBeforeEncode_of_not_convertible (hpixels : frame.hasPixels = true)
    (hready : b.Ready ω frame)
    (hlen : 4 * (frame.width.toNat * frame.height.toNat) ≤ frame.buffer.length)
    (hframe : ¬ frame.Convertible) : PanicsBeforeEncode ω frame sequence b := by
  obtain ⟨b₁, hprepare, hruns⟩ := prepare_runsAt hpixels hready
  obtain ⟨e, hencoder⟩ := hruns.encoder
  have hcall : encodeFrame (L := L.recorded) ω frame sequence b = (.panicked, b₁) := by
    rw [encodeFrame, Call.bind_of_ok hprepare]
    exact encodePrepared_panics hencoder hruns.width hruns.height hlen hframe
  refine ⟨by rw [hcall], ?_⟩
  have hgiven : b₁.given = b.logBefore frame := by rw [given, hencoder]
  rw [passed, hcall, hgiven, logBefore]
  split
  · rfl
  · exact List.drop_length

/-- Whatever the backend and the crate: a call on a frame that passes the size check does not panic
before it reaches the encoder, exactly if the sizes are such that the conversion fits, or it has no
encoder to call. -/
theorem reaches_encoder_iff (ω : L.Oracle) (frame : Frame) (sequence : UInt64)
    (b : OpenH264Backend L.recorded)
    (harea : frame.width.toNat * frame.height.toNat < 2 ^ 30)
    (hlen : 4 * (frame.width.toNat * frame.height.toNat) ≤ frame.buffer.length)
    (hcreate : L.create ω ≠ .panicked) :
    ¬ PanicsBeforeEncode ω frame sequence b ↔
      ConversionFits frame.width.toNat frame.height.toNat frame.buffer.length ∨
        b.Restarts frame ∧ ∃ e, L.create ω = .err e := by
  have hpixels : frame.hasPixels = true := (hasPixels_iff frame).mpr ⟨by omega, by omega⟩
  have hconvertible : frame.Convertible ↔
      ConversionFits frame.width.toNat frame.height.toNat frame.buffer.length :=
    ⟨Frame.Convertible.fits, fun h => ⟨by omega, h⟩⟩
  by_cases hfailed : b.Restarts frame ∧ ∃ e, L.create ω = .err e
  · obtain ⟨hrestarts, e, he⟩ := hfailed
    refine iff_of_true (fun hpanics => ?_) (Or.inr ⟨hrestarts, e, he⟩)
    cases (encodeFrame_of_not_created hpixels hrestarts he).symm.trans hpanics.1
  · have hready : b.Ready ω frame := by
      intro hrestarts
      cases he : L.create ω with
      | ok e => exact ⟨e, rfl⟩
      | err e => exact absurd ⟨hrestarts, e, he⟩ hfailed
      | panicked => exact absurd he hcreate
    rw [or_iff_left hfailed, ← hconvertible]
    constructor
    · exact fun hno => not_not.mp fun hframe =>
        hno (panicsBeforeEncode_of_not_convertible hpixels hready hlen hframe)
    · intro hframe hpanics
      have hpicture := pictureOf_eq hlen
      rw [if_pos hframe, Outcome.bind_eq_ok] at hpicture
      obtain ⟨yuv, hyuv, hsource⟩ := hpicture
      cases (passed_of_picture hpixels hready hyuv hsource).symm.trans hpanics.2

/-- A gray frame of a width and a height, with a buffer of `len` bytes. -/
def Frame.gray (width height : UInt32) (len : Nat) : Frame where
  width
  height
  stride := 4 * width
  timestampUs := 0
  buffer := List.replicate len 128
  isRefresh := false

/-- Three by four pixels, in a buffer with three more bytes. -/
theorem reaches_encoder_iff_three_by_four :
    ¬ PanicsBeforeEncode (L := .plain) false (Frame.gray 3 4 51) 0 .new :=
  (reaches_encoder_iff (L := .plain) false (Frame.gray 3 4 51) 0 .new (by decide) (by decide)
    nofun).mpr (Or.inl (by decide))

/-- Three by two pixels, in a buffer of their size: the last block reads a pixel behind it. -/
theorem three_by_two_panics :
    (Frame.gray 3 2 24).hasPixels = true ∧
      PanicsBeforeEncode (L := .plain) false (Frame.gray 3 2 24) 0 .new :=
  ⟨by decide, by decide +kernel, by decide +kernel⟩

end Blackwing.Encoder

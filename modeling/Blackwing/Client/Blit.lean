import Blackwing.Lib.Stores
import Mathlib.Data.List.GetD

/-!
# Scaling a decoded frame

`blit_rgb_to_frame` (`bw-client/src/main.rs`) draws a decoded image into the pixel buffer of the
window. It clears the buffer and then copies pixel by pixel. A pixel whose offsets fail a bounds
test would be skipped and stay black. For an image and a buffer of the right size this never
happens, whatever the two sizes are.

The products of sizes and coordinates are natural numbers here. In the source they are `usize`.

* `nearestPixel_eq`: a pass stores the four bytes of its pixel.
* `ShowsScaled`: every pixel of the buffer is the one of the image that it falls on.
* `blit_scales`: this is what the buffer is after the call, whatever it was before.
-/

namespace Blackwing.Client

/-! ## The blit -/

/-- `DecodedImage`. -/
structure DecodedImage where
  width : UInt32
  height : UInt32
  rgb : List UInt8

/-- `ScaleMode`. -/
inductive ScaleMode where
  | nearestNeighbor
  | bilinear

/-- `BlitContext`. -/
structure BlitContext where
  rgb : List UInt8
  srcW : Nat
  srcH : Nat
  srcStride : Nat
  dstW : Nat
  dstH : Nat
  dstStride : Nat
  xScale : Float32
  yScale : Float32
  srcMaxX : Float32
  srcMaxY : Float32

/-- `f32::clamp`. It panics unless `min <= max`, and keeps a NaN. -/
def clampF32 (x min max : Float32) : Outcome Empty Float32 :=
  if min ≤ max then .ok (if x < min then min else if x > max then max else x) else .panicked

namespace BlitContext

/-- `BlitContext::new`. -/
def new (rgb : List UInt8) (srcW srcH dstW dstH : Nat) : BlitContext where
  rgb := rgb
  srcW := srcW
  srcH := srcH
  srcStride := srcW * 3
  dstW := dstW
  dstH := dstH
  dstStride := dstW * 4
  xScale := .ofNat srcW / .ofNat dstW
  yScale := .ofNat srcH / .ofNat dstH
  srcMaxX := .ofNat (srcW - 1)
  srcMaxY := .ofNat (srcH - 1)

/-- A pass of the inner loop of `blit_nearest`. -/
def nearestPixel (ctx : BlitContext) (dstY : Nat) (frame : List UInt8) (dstX : Nat) :
    Outcome Empty (List UInt8) :=
  let srcY := dstY * ctx.srcH / ctx.dstH
  let srcRow := srcY * ctx.srcStride
  let dstRow := dstY * ctx.dstStride
  let srcX := dstX * ctx.srcW / ctx.dstW
  let si := srcRow + srcX * 3
  let di := dstRow + dstX * 4
  if si + 3 ≤ ctx.rgb.length ∧ di + 4 ≤ frame.length then do
    let frame ← .store frame di (← .index ctx.rgb si)
    let frame ← .store frame (di + 1) (← .index ctx.rgb (si + 1))
    let frame ← .store frame (di + 2) (← .index ctx.rgb (si + 2))
    .store frame (di + 3) 0xFF
  else pure frame

/-- `blit_nearest`. -/
def blitNearest (ctx : BlitContext) (frame : List UInt8) : Outcome Empty (List UInt8) :=
  (List.range ctx.dstH).foldlM
    (fun frame dstY => (List.range ctx.dstW).foldlM (ctx.nearestPixel dstY) frame) frame

/-- A source coordinate of `blit_bilinear`: the two pixels next to it, and the distance from the
first. -/
def sourceCoordinate (dst : Nat) (scale srcMax : Float32) (size : Nat) :
    Outcome Empty (Nat × Nat × Float32) := do
  let clamped ← clampF32 ((.ofNat dst + 0.5) * scale - 0.5) 0 srcMax
  let s0 := clamped.toUInt64.toNat
  return (s0, min (s0 + 1) (size - 1), clamped - .ofNat s0)

/-- The blend of four bytes, as a byte. -/
def blend (w00 w10 w01 w11 : Float32) (b00 b10 b01 b11 : UInt8) : Outcome Empty UInt8 := do
  let v := w00 * .ofNat b00.toNat + w10 * .ofNat b10.toNat + w01 * .ofNat b01.toNat +
    w11 * .ofNat b11.toNat
  return (← clampF32 v.round 0 255).toUInt8

/-- The inner loop of `blit_bilinear`, over the columns that are left. It ends at the first column
that is out of bounds. -/
def bilinearRow (ctx : BlitContext) (dstRow row0 row1 : Nat) (fy : Float32) :
    List Nat → List UInt8 → Outcome Empty (List UInt8)
  | [], frame => pure frame
  | dstX :: columns, frame => do
    let di := dstRow + dstX * 4
    if di + 4 > frame.length then pure frame
    else do
      let (sx0, sx1, fx) ← sourceCoordinate dstX ctx.xScale ctx.srcMaxX ctx.srcW
      let p00 := row0 + sx0 * 3
      let p10 := row0 + sx1 * 3
      let p01 := row1 + sx0 * 3
      let p11 := row1 + sx1 * 3
      if p11 + 3 > ctx.rgb.length then pure frame
      else do
        let frame ← [0, 1, 2].foldlM (fun frame c => do
          let v ← blend ((1 - fx) * (1 - fy)) (fx * (1 - fy)) ((1 - fx) * fy) (fx * fy)
            (← .index ctx.rgb (p00 + c)) (← .index ctx.rgb (p10 + c))
            (← .index ctx.rgb (p01 + c)) (← .index ctx.rgb (p11 + c))
          .store frame (di + c) v) frame
        let frame ← .store frame (di + 3) 0xFF
        bilinearRow ctx dstRow row0 row1 fy columns frame

/-- `blit_bilinear`. -/
def blitBilinear (ctx : BlitContext) (frame : List UInt8) : Outcome Empty (List UInt8) :=
  if ctx.srcW = ctx.dstW ∧ ctx.srcH = ctx.dstH then ctx.blitNearest frame
  else (List.range ctx.dstH).foldlM (fun frame dstY => do
    let (sy0, sy1, fy) ← sourceCoordinate dstY ctx.yScale ctx.srcMaxY ctx.srcH
    bilinearRow ctx (dstY * ctx.dstStride) (sy0 * ctx.srcStride) (sy1 * ctx.srcStride) fy
      (List.range ctx.dstW) frame) frame

end BlitContext

/-- `blit_rgb_to_frame`. -/
def blitRgbToFrame (frame : List UInt8) (image : DecodedImage) (winW winH : UInt32)
    (mode : ScaleMode) : Outcome Empty (List UInt8) :=
  let frame := List.replicate frame.length 0
  if image.rgb.isEmpty ∨ image.width = 0 ∨ image.height = 0 then pure frame
  else
    let ctx := BlitContext.new image.rgb image.width.toNat image.height.toNat winW.toNat winH.toNat
    match mode with
    | .nearestNeighbor => ctx.blitNearest frame
    | .bilinear => ctx.blitBilinear frame

/-! ## What the buffer shows -/

/-- Every pixel `(x, y)` of the buffer has the colors of the pixel of the image at
`(x * w / W, y * h / H)`, and is opaque. -/
structure ShowsScaled (rgb : List UInt8) (w h W H : Nat) (frame : List UInt8) : Prop where
  length_eq : frame.length = 4 * (W * H)
  color : ∀ x < W, ∀ y < H, ∀ c < 3,
    frame[(y * W + x) * 4 + c]? = rgb[(y * h / H * w + x * w / W) * 3 + c]?
  alpha : ∀ x < W, ∀ y < H, frame[(y * W + x) * 4 + 3]? = some 255

namespace BlitLemmas

variable {rgb : List UInt8} {w h W H : Nat}

/-- The value that a pass stores in the byte `c` of its pixel. -/
def pixelByte (rgb : List UInt8) (w h W H x y c : Nat) : UInt8 :=
  if c < 3 then rgb.getD ((y * h / H * w + x * w / W) * 3 + c) 0 else 0xFF

/-- The stores of a pass. -/
def pixelStores (rgb : List UInt8) (w h W H y x : Nat) : List (Nat × UInt8) :=
  (List.range 4).map fun c => ((y * W + x) * 4 + c, pixelByte rgb w h W H x y c)

theorem pixel_le {W H x y : Nat} (hx : x < W) (hy : y < H) (n : Nat) :
    (y * W + x) * n + n ≤ n * (W * H) := by
  calc (y * W + x) * n + n = n * (y * W + x + 1) := by rw [← Nat.succ_mul, Nat.mul_comm]
    _ ≤ n * (W * H) := Nat.mul_le_mul_left _ (index_lt hx hy)

/-- The coordinate that a pixel falls on is in the image. -/
theorem scaled_lt {y H h : Nat} (hy : y < H) (hh : 0 < h) : y * h / H < h := by
  rw [Nat.div_lt_iff_lt_mul (Nat.zero_lt_of_lt hy), Nat.mul_comm h H]
  exact Nat.mul_lt_mul_of_pos_right hy hh

section

variable (hw : 0 < w) (hh : 0 < h) (hrgb : rgb.length = 3 * (w * h)) {x y : Nat} (hx : x < W)
  (hy : y < H)

include hw hh hrgb hx hy in
/-- A color byte that is stored is one of the image. -/
theorem color_eq {c : Nat} (hc : c < 3) :
    rgb[(y * h / H * w + x * w / W) * 3 + c]? = some (pixelByte rgb w h W H x y c) := by
  have hsrc := pixel_le (scaled_lt hx hw) (scaled_lt hy hh) 3
  have hlt : (y * h / H * w + x * w / W) * 3 + c < rgb.length := by omega
  rw [pixelByte, if_pos hc, List.getD_eq_getElem _ _ hlt, List.getElem?_eq_getElem hlt]

include hx hy in
theorem pixelStores_lt {cell : Nat × UInt8} (hcell : cell ∈ pixelStores rgb w h W H y x) :
    cell.1 < 4 * (W * H) := by
  obtain ⟨c, hc, rfl⟩ := List.mem_map.mp hcell
  calc (y * W + x) * 4 + c < (y * W + x) * 4 + 4 := Nat.add_lt_add_left (List.mem_range.mp hc) _
    _ ≤ 4 * (W * H) := pixel_le hx hy 4

include hw hh hrgb hx hy in
/-- No test fails: a pass stores the four bytes of its pixel. -/
theorem nearestPixel_eq {frame : List UInt8} (hframe : frame.length = 4 * (W * H)) :
    (BlitContext.new rgb w h W H).nearestPixel y frame x =
      .ok (Memory.list.putAll (pixelStores rgb w h W H y x) frame) := by
  have hsrc := pixel_le (scaled_lt hx hw) (scaled_lt hy hh) 3
  have hdst := pixel_le hx hy 4
  have hsi : y * h / H * (w * 3) + x * w / W * 3 = (y * h / H * w + x * w / W) * 3 := by
    rw [Nat.add_mul, Nat.mul_assoc]
  have hdi : y * (W * 4) + x * 4 = (y * W + x) * 4 := by
    rw [Nat.add_mul, Nat.mul_assoc]
  have hindex : ∀ c < 3, (Outcome.index rgb ((y * h / H * w + x * w / W) * 3 + c) :
      Outcome Empty UInt8) = .ok (pixelByte rgb w h W H x y c) := fun c hc =>
    Outcome.index_eq_ok.mpr (color_eq hw hh hrgb hx hy hc)
  have hlt : ∀ cell ∈ pixelStores rgb w h W H y x, cell.1 < frame.length := fun cell hcell => by
    rw [hframe]
    exact pixelStores_lt hx hy hcell
  have hstores := (Memory.foldlM_store (M := .list) (ε := Empty) _ frame).trans (if_pos hlt)
  rw [← hstores]
  simp only [BlitContext.nearestPixel, BlitContext.new, hsi, hdi]
  rw [if_pos ⟨by omega, by omega⟩, hindex 1 (by decide), hindex 2 (by decide),
    ← Nat.add_zero ((y * h / H * w + x * w / W) * 3), hindex 0 (by decide)]
  have hbytes : List.range 4 = [0, 1, 2, 3] := rfl
  simp only [pixelStores, hbytes, List.map_cons, List.map_nil, List.foldlM_cons, List.foldlM_nil,
    Outcome.bind_pure]
  rfl

end

/-! ## The loops -/

/-- The stores of all passes. -/
def imageStores (rgb : List UInt8) (w h W H : Nat) : List (Nat × UInt8) :=
  (List.range H).flatMap fun y => (List.range W).flatMap (pixelStores rgb w h W H y)

theorem blitNearest_eq (hw : 0 < w) (hh : 0 < h) (hrgb : rgb.length = 3 * (w * h))
    {frame : List UInt8} (hframe : frame.length = 4 * (W * H)) :
    (BlitContext.new rgb w h W H).blitNearest frame =
      .ok (storeAll (imageStores rgb w h W H) frame) := by
  refine Memory.foldlM_stores (M := .list) hframe fun y hy frame hframe => ?_
  refine Memory.foldlM_stores (M := .list) hframe fun x hx frame hframe => ?_
  exact nearestPixel_eq hw hh hrgb (List.mem_range.mp hx) (List.mem_range.mp hy) hframe

theorem mem_imageStores {cell : Nat × UInt8} :
    cell ∈ imageStores rgb w h W H ↔ ∃ y < H, ∃ x < W, ∃ c < 4,
      cell = ((y * W + x) * 4 + c, pixelByte rgb w h W H x y c) := by
  simp only [imageStores, pixelStores, List.mem_flatMap, List.mem_map, List.mem_range, eq_comm]

/-- Two pixels have no byte in common. -/
theorem pixel_inj {x x' y y' c c' : Nat} (hx : x < W) (hx' : x' < W) (hc : c < 4) (hc' : c' < 4)
    (h : (y * W + x) * 4 + c = (y' * W + x') * 4 + c') : x = x' ∧ y = y' ∧ c = c' := by
  have hrow : ∀ x y : Nat, x < W → (y * W + x) / W = y := fun x y hx => by
    rw [Nat.mul_comm, Nat.mul_add_div (Nat.zero_lt_of_lt hx), Nat.div_eq_of_lt hx, Nat.add_zero]
  have hpixel : y * W + x = y' * W + x' := by omega
  have hy : y = y' := by rw [← hrow x y hx, hpixel, hrow x' y' hx']
  subst hy
  exact ⟨Nat.add_left_cancel hpixel, rfl, by omega⟩

theorem getElem?_imageStores {frame : List UInt8} (hframe : frame.length = 4 * (W * H))
    {x y c : Nat} (hx : x < W) (hy : y < H) (hc : c < 4) :
    (storeAll (imageStores rgb w h W H) frame)[(y * W + x) * 4 + c]? =
      some (pixelByte rgb w h W H x y c) := by
  have hdst := pixel_le hx hy 4
  refine getElem?_storeAll (by omega) ⟨_, mem_imageStores.mpr ⟨y, hy, x, hx, c, hc, rfl⟩, rfl⟩ ?_
  intro cell hcell heq
  obtain ⟨y', -, x', hx', c', hc', rfl⟩ := mem_imageStores.mp hcell
  obtain ⟨rfl, rfl, rfl⟩ := pixel_inj hx' hx hc' hc heq
  rfl

theorem showsScaled_imageStores (hw : 0 < w) (hh : 0 < h) (hrgb : rgb.length = 3 * (w * h))
    {frame : List UInt8} (hframe : frame.length = 4 * (W * H)) :
    ShowsScaled rgb w h W H (storeAll (imageStores rgb w h W H) frame) where
  length_eq := by rw [length_storeAll, hframe]
  color x hx y hy c hc := by
    rw [getElem?_imageStores hframe hx hy (by omega), color_eq hw hh hrgb hx hy hc]
  alpha x hx y hy := getElem?_imageStores hframe hx hy (by omega)

end BlitLemmas

open BlitLemmas

/-- The call scales the image into the buffer, whatever the buffer held. If the sizes are equal,
bilinear scaling is the same. -/
theorem blit_scales (image : DecodedImage) (winW winH : UInt32) (hw : 1 ≤ image.width)
    (hh : 1 ≤ image.height)
    (hrgb : image.rgb.length = 3 * (image.width.toNat * image.height.toNat)) :
    ∃ out, ShowsScaled image.rgb image.width.toNat image.height.toNat winW.toNat winH.toNat out ∧
      ∀ frame : List UInt8, frame.length = 4 * (winW.toNat * winH.toNat) →
        blitRgbToFrame frame image winW winH .nearestNeighbor = .ok out ∧
        (image.width = winW → image.height = winH →
          blitRgbToFrame frame image winW winH .bilinear = .ok out) := by
  have hw' : 0 < image.width.toNat := UInt32.le_iff_toNat_le.mp hw
  have hh' : 0 < image.height.toNat := UInt32.le_iff_toNat_le.mp hh
  have hdrawn : ¬(image.rgb.isEmpty ∨ image.width = 0 ∨ image.height = 0) := by
    rintro (hempty | hzero | hzero)
    · rw [List.isEmpty_iff_length_eq_zero, hrgb] at hempty
      have hpixels := Nat.mul_ne_zero (Nat.ne_of_gt hw') (Nat.ne_of_gt hh')
      exact absurd hempty (Nat.mul_ne_zero (by decide) hpixels)
    · rw [hzero] at hw'
      exact absurd hw' (by decide)
    · rw [hzero] at hh'
      exact absurd hh' (by decide)
  have hzeros : (List.replicate (4 * (winW.toNat * winH.toNat)) (0 : UInt8)).length =
      4 * (winW.toNat * winH.toNat) := List.length_replicate
  refine ⟨_, showsScaled_imageStores hw' hh' hrgb hzeros, fun frame hframe => ⟨?_, ?_⟩⟩
  · rw [blitRgbToFrame, if_neg hdrawn, hframe]
    exact blitNearest_eq hw' hh' hrgb hzeros
  · rintro rfl rfl
    rw [blitRgbToFrame, if_neg hdrawn, hframe]
    show BlitContext.blitBilinear _ _ = _
    rw [BlitContext.blitBilinear, if_pos ⟨rfl, rfl⟩]
    exact blitNearest_eq hw' hh' hrgb hzeros

/-- Two pixels in a window of four by two. -/
theorem blit_scales_up :
    ∃ out, ShowsScaled [1, 2, 3, 4, 5, 6] 2 1 4 2 out ∧
      ∀ frame : List UInt8, frame.length = 4 * (4 * 2) →
        blitRgbToFrame frame ⟨2, 1, [1, 2, 3, 4, 5, 6]⟩ 4 2 .nearestNeighbor = .ok out := by
  obtain ⟨out, hshows, hout⟩ :=
    blit_scales ⟨2, 1, [1, 2, 3, 4, 5, 6]⟩ 4 2 (by decide) (by decide) rfl
  exact ⟨out, hshows, fun frame hframe => (hout frame hframe).1⟩

end Blackwing.Client

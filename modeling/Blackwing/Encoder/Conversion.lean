import Blackwing.Encoder.H264
import Blackwing.Lib.Stores

/-!
# What the color conversion computes

`bgra_to_yuv420p` reads its buffer as rows of `4 * width` bytes, without gaps. For an even width and
height its passes only store, and what they leave in the luma plane is the luma of the pixels in
that order.

* `convertBlockWith_eq`: a pass is six stores, or it panics.
* `bgraToYuv420p_eq`: the conversion does not panic, and is the stores of all blocks.
* `getElem?_luma`: the luma plane.
* `basicYuvSource_eq`: the slices of the three planes.
-/

namespace Blackwing.Encoder

/-- The pixel at an offset of the buffer. -/
def pixelAt (bgra : List UInt8) (i : Nat) : Pixel where
  b := (bgra.getD i 0).toNat
  g := (bgra.getD (i + 1) 0).toNat
  r := (bgra.getD (i + 2) 0).toNat

/-- The luma of the pixel at an offset of the buffer, as a number. -/
def lumaAt (bgra : List UInt8) (i : Nat) : Nat :=
  (77 * (bgra.getD (i + 2) 0).toNat + 150 * (bgra.getD (i + 1) 0).toNat +
    29 * (bgra.getD i 0).toNat + 128) >>> 8

/-- The stores of one pass of the inner loop. -/
def blockStores (bgra : List UInt8) (w uOffset vOffset : Nat) (block : Nat × Nat) :
    List (Nat × UInt8) :=
  let (row, col) := block
  let p00 := pixelAt bgra ((row * w + col) * 4)
  let p01 := pixelAt bgra ((row * w + col) * 4 + 4)
  let p10 := pixelAt bgra (((row + 1) * w + col) * 4)
  let p11 := pixelAt bgra (((row + 1) * w + col) * 4 + 4)
  let avg := blockAverage p00 p01 p10 p11
  let uvIdx := row / 2 * (w / 2) + col / 2
  [(row * w + col, asU8 p00.luma), (row * w + col + 1, asU8 p01.luma),
    ((row + 1) * w + col, asU8 p10.luma), ((row + 1) * w + col + 1, asU8 p11.luma),
    (uOffset + uvIdx, asU8 avg.chromaU), (vOffset + uvIdx, asU8 avg.chromaV)]

/-! ## Pixels -/

theorem readPixel_eq {bgra : List UInt8} {i : Nat} (h : i + 2 < bgra.length) :
    readPixel bgra i = .ok (pixelAt bgra i) := by
  have hread : ∀ j, j < bgra.length →
      (Outcome.index bgra j : Outcome EncoderError UInt8) = .ok (bgra.getD j 0) := by
    intro j hj
    rw [Outcome.index_eq_ok, List.getD_eq_getElem?_getD, List.getElem?_eq_getElem hj]
    rfl
  rw [readPixel, hread i (by omega), hread (i + 1) (by omega), hread (i + 2) h]
  rfl

theorem readPixel_panics {bgra : List UInt8} {i : Nat} (h : bgra.length ≤ i + 2) :
    readPixel bgra i = .panicked := by
  rw [readPixel, Outcome.index, Outcome.index, Outcome.index, List.getElem?_eq_none h]
  cases bgra[i]? with
  | none => rfl
  | some b =>
    cases bgra[i + 1]? with
    | none => rfl
    | some g => rfl

theorem readPixel_cases (bgra : List UInt8) (i : Nat) :
    readPixel bgra i = .ok (pixelAt bgra i) ∨ readPixel bgra i = .panicked :=
  (Nat.lt_or_ge (i + 2) bgra.length).imp readPixel_eq readPixel_panics

theorem toNat_asU8 {n : Nat} (h : n < 256) : (asU8 n).toNat = n := by
  rw [asU8, Int.emod_eq_of_lt (Int.natCast_nonneg n) (by omega), Int.toNat_natCast]
  exact UInt8.toNat_ofNat_of_lt h

theorem lumaAt_lt (bgra : List UInt8) (i : Nat) : lumaAt bgra i < 256 := by
  have hb := (bgra.getD i 0).toNat_lt
  have hg := (bgra.getD (i + 1) 0).toNat_lt
  have hr := (bgra.getD (i + 2) 0).toNat_lt
  rw [lumaAt, Nat.shiftRight_eq_div_pow]
  omega

theorem luma_pixelAt (bgra : List UInt8) (i : Nat) : (pixelAt bgra i).luma = lumaAt bgra i := by
  have hshift : (pixelAt bgra i).luma = (77 * ((bgra.getD (i + 2) 0).toNat : Int) +
      150 * (bgra.getD (i + 1) 0).toNat + 29 * (bgra.getD i 0).toNat + 128) >>> (8 : Nat) := rfl
  rw [hshift, lumaAt, Int.shiftRight_eq_div_pow, Nat.shiftRight_eq_div_pow]
  omega

/-- The cast of a luma loses nothing. -/
theorem toNat_asU8_luma (bgra : List UInt8) (i : Nat) :
    (asU8 (pixelAt bgra i).luma).toNat = lumaAt bgra i := by
  rw [luma_pixelAt, toNat_asU8 (lumaAt_lt bgra i)]

/-! ## Blocks -/

theorem mem_evens {n i : Nat} : i ∈ evens n ↔ i % 2 = 0 ∧ i < n := by
  unfold evens
  rw [List.mem_map]
  constructor
  · rintro ⟨k, hk, rfl⟩
    rw [List.mem_range] at hk
    omega
  · rintro ⟨heven, hlt⟩
    exact ⟨i / 2, List.mem_range.mpr (by omega), by omega⟩

theorem mem_blocks {w h row col : Nat} :
    (row, col) ∈ blocks w h ↔ (row % 2 = 0 ∧ row < h) ∧ col % 2 = 0 ∧ col < w := by
  rw [blocks, List.mem_flatMap]
  constructor
  · rintro ⟨row', hrow, hmem⟩
    obtain ⟨col', hcol, heq⟩ := List.mem_map.mp hmem
    cases heq
    exact ⟨mem_evens.mp hrow, mem_evens.mp hcol⟩
  · rintro ⟨hrow, hcol⟩
    exact ⟨row, mem_evens.mpr hrow, List.mem_map_of_mem (mem_evens.mpr hcol)⟩

theorem area_div_four {w h : Nat} (hw : w % 2 = 0) (hh : h % 2 = 0) :
    w * h / 4 = w / 2 * (h / 2) := by
  obtain ⟨m, rfl⟩ := Nat.dvd_of_mod_eq_zero hw
  obtain ⟨k, rfl⟩ := Nat.dvd_of_mod_eq_zero hh
  rw [Nat.mul_div_cancel_left m Nat.two_pos, Nat.mul_div_cancel_left k Nat.two_pos,
    Nat.mul_mul_mul_comm]
  exact Nat.mul_div_cancel_left (m * k) (by decide)

variable {bgra : List UInt8} {w h : Nat}

/-- `convertBlock` on a memory that may keep more than the planes. -/
def convertBlockWith {β : Type} (M : Memory β UInt8) (bgra : List UInt8) (w uOffset vOffset : Nat)
    (yuv : β) (block : Nat × Nat) : Outcome EncoderError β := do
  let (row, col) := block
  let yRow0 := row * w
  let yRow1 := (row + 1) * w
  let uvRow := row / 2 * (w / 2)
  let i00 := (yRow0 + col) * 4
  let i10 := (yRow1 + col) * 4
  let p00 ← readPixel bgra i00
  let p01 ← readPixel bgra (i00 + 4)
  let p10 ← readPixel bgra i10
  let p11 ← readPixel bgra (i10 + 4)
  let yuv ← M.store yuv (yRow0 + col) (asU8 p00.luma)
  let yuv ← M.store yuv (yRow0 + col + 1) (asU8 p01.luma)
  let yuv ← M.store yuv (yRow1 + col) (asU8 p10.luma)
  let yuv ← M.store yuv (yRow1 + col + 1) (asU8 p11.luma)
  let avg := blockAverage p00 p01 p10 p11
  let uvIdx := uvRow + col / 2
  let yuv ← M.store yuv (uOffset + uvIdx) (asU8 avg.chromaU)
  M.store yuv (vOffset + uvIdx) (asU8 avg.chromaV)

/-- The reads of a pass are within the buffer and its stores within `n` bytes. The last byte that is
read is the red one of the lower right pixel. -/
def BlockFits (bgra : List UInt8) (w uOffset vOffset n : Nat) (block : Nat × Nat) : Prop :=
  ((block.1 + 1) * w + block.2) * 4 + 6 < bgra.length ∧
    ∀ cell ∈ blockStores bgra w uOffset vOffset block, cell.1 < n

instance (bgra : List UInt8) (w uOffset vOffset n : Nat) :
    DecidablePred (BlockFits bgra w uOffset vOffset n) :=
  fun _ => inferInstanceAs (Decidable (_ ∧ _))

/-- A pass on a block is its stores, or it panics. -/
theorem convertBlockWith_eq {β : Type} {M : Memory β UInt8} {uOffset vOffset n : Nat} {yuv : β}
    (hyuv : (M.values yuv).length = n) (block : Nat × Nat) :
    convertBlockWith M bgra w uOffset vOffset yuv block =
      if BlockFits bgra w uOffset vOffset n block then
        .ok (M.putAll (blockStores bgra w uOffset vOffset block) yuv)
      else .panicked := by
  obtain ⟨row, col⟩ := block
  have hrow : (row + 1) * w = row * w + w := Nat.succ_mul row w
  rw [convertBlockWith]
  dsimp only
  by_cases hread : ((row + 1) * w + col) * 4 + 6 < bgra.length
  · have hstores := Memory.foldlM_store (ε := EncoderError) (M := M)
      (blockStores bgra w uOffset vOffset (row, col)) yuv
    rw [hyuv] at hstores
    rw [readPixel_eq (by omega), Outcome.ok_bind, readPixel_eq (by omega), Outcome.ok_bind,
      readPixel_eq (by omega), Outcome.ok_bind, readPixel_eq hread, Outcome.ok_bind]
    simp only [BlockFits, hread, true_and]
    rw [← hstores]
    simp only [blockStores, List.foldlM_cons, List.foldlM_nil, Outcome.bind_pure]
  · rw [if_neg fun h => hread h.1, readPixel_panics (i := ((row + 1) * w + col) * 4 + 4) (by omega)]
    -- the last read panics, if none before it does
    rcases readPixel_cases bgra ((row * w + col) * 4) with h00 | h00 <;>
      rcases readPixel_cases bgra ((row * w + col) * 4 + 4) with h01 | h01 <;>
      rcases readPixel_cases bgra (((row + 1) * w + col) * 4) with h10 | h10 <;>
      simp only [h00, h01, h10, Outcome.ok_bind, Outcome.panicked_bind]

/-- The blocks of an even width and height fit. -/
theorem blockFits_of_even (hw : w % 2 = 0) (hh : h % 2 = 0) (hlen : 4 * (w * h) ≤ bgra.length)
    {block : Nat × Nat} (hblock : block ∈ blocks w h) :
    BlockFits bgra w (w * h) (w * h + w * h / 4) (w * h + w * h / 4 * 2) block := by
  obtain ⟨row, col⟩ := block
  obtain ⟨⟨hrow2, hrow⟩, hcol2, hcol⟩ := mem_blocks.mp hblock
  have h00 : row * w + col + 1 < w * h := index_lt (x := col + 1) (by omega) hrow
  have h10 : (row + 1) * w + col + 1 < w * h :=
    index_lt (x := col + 1) (y := row + 1) (by omega) (by omega)
  have huv : row / 2 * (w / 2) + col / 2 < w * h / 4 := by
    rw [area_div_four hw hh]
    exact index_lt (by omega) (by omega)
  refine ⟨by dsimp only; omega, ?_⟩
  simp only [blockStores, List.forall_mem_cons]
  refine ⟨by omega, by omega, by omega, by omega, by omega, by omega, ?_⟩
  exact fun _ hmem => absurd hmem List.not_mem_nil

/-- All the stores of the conversion. -/
def conversionStores (bgra : List UInt8) (w h : Nat) : List (Nat × UInt8) :=
  (blocks w h).flatMap (blockStores bgra w (w * h) (w * h + w * h / 4))

/-- What the conversion returns. -/
def converted (bgra : List UInt8) (w h : Nat) : List UInt8 :=
  storeAll (conversionStores bgra w h) (List.replicate (w * h + w * h / 4 * 2) 0)

theorem length_converted : (converted bgra w h).length = w * h + w * h / 4 * 2 := by
  rw [converted, length_storeAll, List.length_replicate]

/-- `bgra_to_yuv420p` on a memory that may keep more than the planes. -/
def bgraToYuv420pWith {β : Type} (M : Memory β UInt8) (zeros : Nat → β) (bgra : List UInt8)
    (width height : UInt32) : Outcome EncoderError β := do
  let area ← .mul32 width height
  let ySize := area.toNat
  let uvSize := ySize / 4
  (blocks width.toNat height.toNat).foldlM
    (convertBlockWith M bgra width.toNat ySize (ySize + uvSize)) (zeros (ySize + uvSize * 2))

/-- On the planes alone it is the function of the source. -/
theorem bgraToYuv420p_eq_with :
    bgraToYuv420p = bgraToYuv420pWith .list (List.replicate · 0) := rfl

/-- The conversion is the stores of all blocks, or it panics. -/
theorem bgraToYuv420pWith_eq {β : Type} {M : Memory β UInt8} {zeros : Nat → β} {width height : UInt32}
    (hzeros : ∀ n, (M.values (zeros n)).length = n)
    (harea : width.toNat * height.toNat < 2 ^ 32) :
    bgraToYuv420pWith M zeros bgra width height =
      let w := width.toNat
      let h := height.toNat
      if ∀ block ∈ blocks w h,
          BlockFits bgra w (w * h) (w * h + w * h / 4) (w * h + w * h / 4 * 2) block then
        .ok (M.putAll (conversionStores bgra w h) (zeros (w * h + w * h / 4 * 2)))
      else .panicked := by
  obtain ⟨hmul, htoNat⟩ := Outcome.mul32_of_lt (ε := EncoderError) harea
  rw [bgraToYuv420pWith, hmul, Outcome.ok_bind]
  dsimp only
  rw [htoNat]
  exact Memory.foldlM_passes (hzeros _) fun block _ yuv hyuv => convertBlockWith_eq hyuv block

/-- The conversion of an even width and height does not panic. -/
theorem bgraToYuv420p_eq {width height : UInt32} (hw : width.toNat % 2 = 0)
    (hh : height.toNat % 2 = 0) (harea : width.toNat * height.toNat < 2 ^ 32)
    (hlen : 4 * (width.toNat * height.toNat) ≤ bgra.length) :
    bgraToYuv420p bgra width height = .ok (converted bgra width.toNat height.toNat) := by
  rw [bgraToYuv420p_eq_with, bgraToYuv420pWith_eq (fun n => List.length_replicate) harea,
    if_pos fun block hblock => blockFits_of_even hw hh hlen hblock]
  rfl

/-- A store into the luma plane is the luma of the pixel at four times its position. -/
theorem luma_store {cell : Nat × UInt8} (hcell : cell ∈ conversionStores bgra w h)
    (hlt : cell.1 < w * h) : cell.2 = asU8 (pixelAt bgra (cell.1 * 4)).luma := by
  obtain ⟨⟨row, col⟩, hblock, hmem⟩ := List.mem_flatMap.mp hcell
  simp only [blockStores, List.mem_cons, List.not_mem_nil, or_false] at hmem
  rcases hmem with rfl | rfl | rfl | rfl | rfl | rfl
  · rfl
  · rw [Nat.add_mul _ 1 4]
  · rfl
  · rw [Nat.add_mul _ 1 4]
  · exact absurd hlt (Nat.not_lt.mpr (Nat.le_add_right _ _))
  · exact absurd hlt (Nat.not_lt.mpr (by omega))

/-- Every place of the luma plane is stored to. -/
theorem luma_stored (hw : w % 2 = 0) (hh : h % 2 = 0) {x y : Nat} (hx : x < w) (hy : y < h) :
    ∃ cell ∈ conversionStores bgra w h, cell.1 = y * w + x := by
  have hblock : (y / 2 * 2, x / 2 * 2) ∈ blocks w h :=
    mem_blocks.mpr ⟨⟨Nat.mul_mod_left _ 2, by omega⟩, Nat.mul_mod_left _ 2, by omega⟩
  -- the place is one of the four of its block
  have hcell : ∃ cell ∈ blockStores bgra w (w * h) (w * h + w * h / 4) (y / 2 * 2, x / 2 * 2),
      cell.1 = y * w + x := by
    have hrow : y = y / 2 * 2 ∨ y = y / 2 * 2 + 1 := by omega
    have hcol : x = x / 2 * 2 ∨ x = x / 2 * 2 + 1 := by omega
    simp only [blockStores, List.mem_cons, exists_eq_or_imp]
    rcases hrow with hrow | hrow <;> rcases hcol with hcol | hcol
    · exact Or.inl (by rw [← hrow, ← hcol])
    · exact Or.inr (Or.inl (by rw [← hrow, Nat.add_assoc, ← hcol]))
    · exact Or.inr (Or.inr (Or.inl (by rw [← hrow, ← hcol])))
    · exact Or.inr (Or.inr (Or.inr (Or.inl (by rw [← hrow, Nat.add_assoc, ← hcol]))))
  obtain ⟨cell, hmem, heq⟩ := hcell
  exact ⟨cell, List.mem_flatMap.mpr ⟨_, hblock, hmem⟩, heq⟩

/-- The luma plane of the conversion. -/
theorem getElem?_luma (hw : w % 2 = 0) (hh : h % 2 = 0) {x y : Nat} (hx : x < w) (hy : y < h) :
    (converted bgra w h)[y * w + x]? = some (asU8 (pixelAt bgra ((y * w + x) * 4)).luma) := by
  have hlt := index_lt hx hy
  refine getElem?_storeAll ?_ (luma_stored hw hh hx hy) fun cell hcell heq => ?_
  · rw [List.length_replicate]
    exact Nat.lt_of_lt_of_le hlt (Nat.le_add_right _ _)
  · rw [← heq]
    exact luma_store hcell (heq ▸ hlt)

/-- The slices of the planes: nothing overflows, and they cut the conversion at the ends of its
planes. -/
theorem basicYuvSource_eq {width height : UInt32} {yuv : List UInt8}
    (harea : width.toNat * height.toNat + width.toNat * height.toNat / 4 < 2 ^ 32)
    (hyuv : yuv.length =
      width.toNat * height.toNat + width.toNat * height.toNat / 4 * 2) :
    basicYuvSource width height yuv = .ok
      { width := width.toNat
        height := height.toNat
        y := yuv.take (width.toNat * height.toNat)
        u := (yuv.drop (width.toNat * height.toNat)).take (width.toNat * height.toNat / 4)
        v := yuv.drop (width.toNat * height.toNat + width.toNat * height.toNat / 4) } := by
  obtain ⟨hmul, htoNat⟩ := Outcome.mul32_of_lt (ε := EncoderError)
    (Nat.lt_of_le_of_lt (Nat.le_add_right _ _) harea)
  generalize width.toNat * height.toNat = area at harea hyuv htoNat
  have hquarter : (width * height / 4).toNat = area / 4 := by
    rw [UInt32.toNat_div, htoNat]
    rfl
  have hadd : (Outcome.add32 (width * height) (width * height / 4) : Outcome EncoderError UInt32) =
      .ok (width * height + width * height / 4) :=
    if_pos (by rw [htoNat, hquarter]; exact harea)
  have hend : (width * height + width * height / 4).toNat = area + area / 4 :=
    (Outcome.add32_eq_ok.mp hadd).trans (by rw [htoNat, hquarter])
  rw [basicYuvSource, hmul, Outcome.ok_bind, htoNat, hadd]
  simp only [Outcome.ok_bind, hend]
  rw [Outcome.slice, if_pos ⟨Nat.zero_le _, by omega⟩, Outcome.ok_bind, Outcome.slice,
    if_pos ⟨Nat.le_add_right _ _, by omega⟩, Outcome.ok_bind, Outcome.slice,
    if_pos ⟨by omega, Nat.le_refl _⟩, Outcome.ok_bind, List.drop_zero, Nat.sub_zero,
    Nat.add_sub_cancel_left, ← List.length_drop, List.take_length]
  rfl

end Blackwing.Encoder

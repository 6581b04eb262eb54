import Blackwing.Encoder.Conversion
import Mathlib.Data.List.Perm.Subperm

/-!
# The three planes of the conversion

The luma plane and the two chroma planes share one vector. For an even width and height the
conversion stores to each of its bytes exactly once, and what it stores is the value of the formula
before the cast to `u8`.

The stores are read from a record: `bgraToYuv420pRecorded` is the conversion on a memory that keeps
the list of its stores.

* `stored_once`: the positions of the stores are the positions of the vector.
* `ShowsPixels`: what the planes hold, in terms of the pixels of the buffer.
* `planes_written_once`: both, for every buffer.
-/

namespace Blackwing.Encoder

/-- The conversion, with a record of its stores. -/
def bgraToYuv420pRecorded (bgra : List UInt8) (width height : UInt32) :
    Outcome EncoderError (List UInt8 × List (Nat × UInt8)) :=
  bgraToYuv420pWith .recorded (fun n => (List.replicate n 0, [])) bgra width height

/-! ## What the planes show -/

/-- A channel of the pixel `(x, y)` of a buffer without gaps: 0 is blue, 1 green and 2 red. -/
def channelAt (bgra : List UInt8) (w channel x y : Nat) : Int :=
  (bgra.getD (4 * (y * w + x) + channel) 0).toNat

/-- The rounded average of a channel over the block whose upper left pixel is `(x, y)`. -/
def averageAt (bgra : List UInt8) (w channel x y : Nat) : Int :=
  (channelAt bgra w channel x y + channelAt bgra w channel (x + 1) y +
    channelAt bgra w channel x (y + 1) + channelAt bgra w channel (x + 1) (y + 1) + 2) / 4

/-- The byte at a position, as a number. -/
def valueAt (yuv : List UInt8) (i : Nat) : Option Int := (yuv[i]?).map fun b => (b.toNat : Int)

/-- The planes hold the values of the formulas. A byte is a number from 0 to 255, so no value is cut
by its cast. -/
structure ShowsPixels (bgra : List UInt8) (w h : Nat) (yuv : List UInt8) : Prop where
  luma : ∀ x < w, ∀ y < h, valueAt yuv (y * w + x) =
    some ((77 * channelAt bgra w 2 x y + 150 * channelAt bgra w 1 x y +
      29 * channelAt bgra w 0 x y + 128) >>> (8 : Nat))
  chromaU : ∀ x < w, ∀ y < h, valueAt yuv (w * h + (y / 2 * (w / 2) + x / 2)) =
    some ((-43 * averageAt bgra w 2 (x / 2 * 2) (y / 2 * 2) -
      85 * averageAt bgra w 1 (x / 2 * 2) (y / 2 * 2) +
      128 * averageAt bgra w 0 (x / 2 * 2) (y / 2 * 2) + 32768) >>> (8 : Nat))
  chromaV : ∀ x < w, ∀ y < h, valueAt yuv (w * h + w * h / 4 + (y / 2 * (w / 2) + x / 2)) =
    some ((128 * averageAt bgra w 2 (x / 2 * 2) (y / 2 * 2) -
      107 * averageAt bgra w 1 (x / 2 * 2) (y / 2 * 2) -
      21 * averageAt bgra w 0 (x / 2 * 2) (y / 2 * 2) + 32768) >>> (8 : Nat))

variable {bgra : List UInt8} {w h : Nat}

/-! ## Each byte once -/

section

variable (hw : w % 2 = 0) (hh : h % 2 = 0)
include hw hh

theorem length_blocks : (blocks w h).length = w * h / 4 := by
  have hevens : ∀ n, n % 2 = 0 → (evens n).length = n / 2 := by
    intro n hn
    rw [evens, List.length_map, List.length_range]
    omega
  rw [blocks, List.length_flatMap]
  simp only [List.length_map, hevens w hw, List.map_const', List.sum_replicate_nat, hevens h hh]
  rw [area_div_four hw hh, Nat.mul_comm]

theorem area_eq : w * h = 4 * (w * h / 4) := by
  have hdvd : 2 * 2 ∣ w * h :=
    Nat.mul_dvd_mul (Nat.dvd_of_mod_eq_zero hw) (Nat.dvd_of_mod_eq_zero hh)
  exact (Nat.mul_div_cancel' hdvd).symm

theorem length_conversionStores :
    (conversionStores bgra w h).length = w * h + w * h / 4 * 2 := by
  have hfour := area_eq hw hh
  have hsix : ∀ block, (blockStores bgra w (w * h) (w * h + w * h / 4) block).length = 6 :=
    fun _ => rfl
  rw [conversionStores, List.length_flatMap]
  simp only [hsix, List.map_const', List.sum_replicate_nat, length_blocks hw hh]
  omega

theorem block_mem {x y : Nat} (hx : x < w) (hy : y < h) :
    (y / 2 * 2, x / 2 * 2) ∈ blocks w h :=
  mem_blocks.mpr ⟨⟨Nat.mul_mod_left _ 2, by omega⟩, Nat.mul_mod_left _ 2, by omega⟩

end

/-- The average pixel of the block that `(x, y)` is in. -/
def blockPixel (bgra : List UInt8) (w x y : Nat) : Pixel :=
  blockAverage (pixelAt bgra ((y / 2 * 2 * w + x / 2 * 2) * 4))
    (pixelAt bgra ((y / 2 * 2 * w + x / 2 * 2) * 4 + 4))
    (pixelAt bgra (((y / 2 * 2 + 1) * w + x / 2 * 2) * 4))
    (pixelAt bgra (((y / 2 * 2 + 1) * w + x / 2 * 2) * 4 + 4))

section

variable (hw : w % 2 = 0) (hh : h % 2 = 0)
include hw hh

/-- The chroma planes are stored to at the place of every pixel. -/
theorem chroma_stored {x y : Nat} (hx : x < w) (hy : y < h) :
    (w * h + (y / 2 * (w / 2) + x / 2), asU8 (blockPixel bgra w x y).chromaU) ∈
        conversionStores bgra w h ∧
      (w * h + w * h / 4 + (y / 2 * (w / 2) + x / 2), asU8 (blockPixel bgra w x y).chromaV) ∈
        conversionStores bgra w h := by
  have hstores : ∀ cell ∈ blockStores bgra w (w * h) (w * h + w * h / 4) (y / 2 * 2, x / 2 * 2),
      cell ∈ conversionStores bgra w h :=
    fun cell hcell => List.mem_flatMap.mpr ⟨_, block_mem hw hh hx hy, hcell⟩
  simp only [blockStores, List.forall_mem_cons, Nat.mul_div_cancel _ Nat.two_pos] at hstores
  exact ⟨hstores.2.2.2.2.1, hstores.2.2.2.2.2.1⟩

theorem luma_position {i : Nat} (hi : i < w * h) :
    i ∈ (conversionStores bgra w h).map Prod.fst := by
  obtain ⟨x, hx, y, hy, rfl⟩ := exists_place hi
  obtain ⟨cell, hcell, heq⟩ := @luma_stored bgra w h hw hh x y hx hy
  exact List.mem_map.mpr ⟨cell, hcell, heq⟩

theorem chroma_position {j : Nat} (hj : j < w * h / 4) :
    w * h + j ∈ (conversionStores bgra w h).map Prod.fst ∧
      w * h + w * h / 4 + j ∈ (conversionStores bgra w h).map Prod.fst := by
  rw [area_div_four hw hh] at hj
  obtain ⟨x, hx, y, hy, rfl⟩ := exists_place hj
  obtain ⟨hu, hv⟩ := @chroma_stored bgra w h hw hh (2 * x) (2 * y) (by omega) (by omega)
  rw [Nat.mul_div_cancel_left _ Nat.two_pos, Nat.mul_div_cancel_left _ Nat.two_pos] at hu hv
  exact ⟨List.mem_map.mpr ⟨_, hu, rfl⟩, List.mem_map.mpr ⟨_, hv, rfl⟩⟩

/-- The stores are at the positions of the vector, each once. -/
theorem stored_once :
    ((conversionStores bgra w h).map Prod.fst).Perm (List.range (w * h + w * h / 4 * 2)) := by
  have hsub : List.range (w * h + w * h / 4 * 2) ⊆ (conversionStores bgra w h).map Prod.fst := by
    intro i hi
    rw [List.mem_range] at hi
    rcases Nat.lt_or_ge i (w * h) with hluma | hi1
    · exact luma_position hw hh hluma
    · rcases Nat.lt_or_ge i (w * h + w * h / 4) with hu | hi2
      · have hmem := (@chroma_position bgra w h hw hh (i - w * h) (by omega)).1
        rwa [Nat.add_sub_cancel' hi1] at hmem
      · have hmem := (@chroma_position bgra w h hw hh (i - (w * h + w * h / 4)) (by omega)).2
        rwa [Nat.add_sub_cancel' hi2] at hmem
  have hlength : ((conversionStores bgra w h).map Prod.fst).length =
      (List.range (w * h + w * h / 4 * 2)).length := by
    rw [List.length_map, length_conversionStores hw hh, List.length_range]
  exact ((List.subperm_of_subset List.nodup_range hsub).perm_of_length_le
    (Nat.le_of_eq hlength)).symm

end

/-! ## Values -/

/-- A pixel of bytes. -/
structure Pixel.Bytes (p : Pixel) : Prop where
  b : 0 ≤ p.b ∧ p.b ≤ 255
  g : 0 ≤ p.g ∧ p.g ≤ 255
  r : 0 ≤ p.r ∧ p.r ≤ 255

theorem bytes_pixelAt (bgra : List UInt8) (i : Nat) : (pixelAt bgra i).Bytes := by
  have hbyte : ∀ b : UInt8, 0 ≤ (b.toNat : Int) ∧ (b.toNat : Int) ≤ 255 := by
    intro b
    have := b.toNat_lt
    omega
  exact ⟨hbyte _, hbyte _, hbyte _⟩

theorem average_eq {a b c d : Int} (ha : 0 ≤ a) (hb : 0 ≤ b) (hc : 0 ≤ c) (hd : 0 ≤ d) :
    average a b c d = (a + b + c + d + 2) / 4 :=
  Int.tdiv_eq_ediv_of_nonneg (by omega)

theorem bytes_blockAverage {p00 p01 p10 p11 : Pixel} (h00 : p00.Bytes) (h01 : p01.Bytes)
    (h10 : p10.Bytes) (h11 : p11.Bytes) : (blockAverage p00 p01 p10 p11).Bytes := by
  have hbyte : ∀ a b c d : Int, 0 ≤ a ∧ a ≤ 255 → 0 ≤ b ∧ b ≤ 255 → 0 ≤ c ∧ c ≤ 255 →
      0 ≤ d ∧ d ≤ 255 → 0 ≤ average a b c d ∧ average a b c d ≤ 255 := by
    intro a b c d ha hb hc hd
    rw [average_eq ha.1 hb.1 hc.1 hd.1]
    omega
  exact ⟨hbyte _ _ _ _ h00.b h01.b h10.b h11.b, hbyte _ _ _ _ h00.g h01.g h10.g h11.g,
    hbyte _ _ _ _ h00.r h01.r h10.r h11.r⟩

theorem toNat_asU8_of_byte {n : Int} (hn : 0 ≤ n ∧ n ≤ 255) : ((asU8 n).toNat : Int) = n := by
  obtain ⟨k, rfl⟩ := Int.eq_ofNat_of_zero_le hn.1
  rw [toNat_asU8 (by omega)]

/-- The values of a pixel of bytes are bytes before the cast. -/
theorem luma_byte {p : Pixel} (h : p.Bytes) : 0 ≤ p.luma ∧ p.luma ≤ 255 := by
  have hshift : p.luma = (77 * p.r + 150 * p.g + 29 * p.b + 128) >>> (8 : Nat) := rfl
  obtain ⟨hb, hg, hr⟩ := h
  rw [hshift, Int.shiftRight_eq_div_pow]
  omega

@[inherit_doc luma_byte]
theorem chromaU_byte {p : Pixel} (h : p.Bytes) : 0 ≤ p.chromaU ∧ p.chromaU ≤ 255 := by
  have hshift : p.chromaU = (-43 * p.r - 85 * p.g + 128 * p.b + 32768) >>> (8 : Nat) := rfl
  obtain ⟨hb, hg, hr⟩ := h
  rw [hshift, Int.shiftRight_eq_div_pow]
  omega

@[inherit_doc luma_byte]
theorem chromaV_byte {p : Pixel} (h : p.Bytes) : 0 ≤ p.chromaV ∧ p.chromaV ≤ 255 := by
  have hshift : p.chromaV = (128 * p.r - 107 * p.g - 21 * p.b + 32768) >>> (8 : Nat) := rfl
  obtain ⟨hb, hg, hr⟩ := h
  rw [hshift, Int.shiftRight_eq_div_pow]
  omega

section

variable (bgra : List UInt8) (w : Nat) (x : Nat) (y : Nat)

theorem pixelAt_eq :
    pixelAt bgra ((y * w + x) * 4) =
      ⟨channelAt bgra w 0 x y, channelAt bgra w 1 x y, channelAt bgra w 2 x y⟩ := by
  rw [Nat.mul_comm]
  rfl

theorem blockPixel_eq :
    blockPixel bgra w x y =
      ⟨averageAt bgra w 0 (x / 2 * 2) (y / 2 * 2), averageAt bgra w 1 (x / 2 * 2) (y / 2 * 2),
        averageAt bgra w 2 (x / 2 * 2) (y / 2 * 2)⟩ := by
  have hnext : ∀ i x, (i + x) * 4 + 4 = (i + (x + 1)) * 4 := by omega
  have hpos : ∀ channel x y, 0 ≤ channelAt bgra w channel x y := fun _ _ _ => Int.natCast_nonneg _
  rw [blockPixel, hnext, hnext, pixelAt_eq, pixelAt_eq, pixelAt_eq, pixelAt_eq, blockAverage]
  dsimp only
  rw [average_eq (hpos _ _ _) (hpos _ _ _) (hpos _ _ _) (hpos _ _ _),
    average_eq (hpos _ _ _) (hpos _ _ _) (hpos _ _ _) (hpos _ _ _),
    average_eq (hpos _ _ _) (hpos _ _ _) (hpos _ _ _) (hpos _ _ _)]
  rfl

theorem bytes_blockPixel : (blockPixel bgra w x y).Bytes :=
  bytes_blockAverage (bytes_pixelAt _ _) (bytes_pixelAt _ _) (bytes_pixelAt _ _) (bytes_pixelAt _ _)

end

/-- What is stored once is there afterwards. -/
theorem valueAt_converted (hw : w % 2 = 0) (hh : h % 2 = 0) {i : Nat} {n : Int}
    (hmem : (i, asU8 n) ∈ conversionStores bgra w h) (hn : 0 ≤ n ∧ n ≤ 255) :
    valueAt (converted bgra w h) i = some n := by
  have honce := @stored_once bgra w h hw hh
  have hi : i < w * h + w * h / 4 * 2 := by
    rw [← List.mem_range, ← honce.mem_iff]
    exact List.mem_map.mpr ⟨_, hmem, rfl⟩
  have hget := getElem?_storeAll_of_nodup (honce.nodup_iff.mpr List.nodup_range) hmem
    (l := List.replicate (w * h + w * h / 4 * 2) 0) (by rwa [List.length_replicate])
  rw [valueAt, converted, hget, Option.map_some, toNat_asU8_of_byte hn]

theorem showsPixels_converted (hw : w % 2 = 0) (hh : h % 2 = 0) :
    ShowsPixels bgra w h (converted bgra w h) := by
  refine ⟨fun x hx y hy => ?_, fun x hx y hy => ?_, fun x hx y hy => ?_⟩
  · rw [valueAt, getElem?_luma hw hh hx hy, Option.map_some,
      toNat_asU8_of_byte (luma_byte (bytes_pixelAt _ _)), pixelAt_eq]
    rfl
  · rw [valueAt_converted hw hh (chroma_stored hw hh hx hy).1
      (chromaU_byte (bytes_blockPixel _ _ _ _)), blockPixel_eq]
    rfl
  · rw [valueAt_converted hw hh (chroma_stored hw hh hx hy).2
      (chromaV_byte (bytes_blockPixel _ _ _ _)), blockPixel_eq]
    rfl

/-- For an even width and height, the conversion stores to every byte of its result exactly once,
and leaves in the planes the values of the formulas. -/
theorem planes_written_once (bgra : List UInt8) (width height : UInt32)
    (hw : width.toNat % 2 = 0) (hh : height.toNat % 2 = 0)
    (harea : width.toNat * height.toNat < 2 ^ 30)
    (hlen : 4 * (width.toNat * height.toNat) ≤ bgra.length) :
    ∃ yuv stores, bgraToYuv420p bgra width height = .ok yuv ∧
      bgraToYuv420pRecorded bgra width height = .ok (yuv, stores) ∧
      yuv.length = 3 * width.toNat * height.toNat / 2 ∧
      (stores.map Prod.fst).Perm (List.range yuv.length) ∧
      ShowsPixels bgra width.toNat height.toNat yuv := by
  refine ⟨converted bgra width.toNat height.toNat, conversionStores bgra width.toNat height.toNat,
    bgraToYuv420p_eq hw hh (by omega) hlen, ?_, ?_, ?_, showsPixels_converted hw hh⟩
  · rw [bgraToYuv420pRecorded, bgraToYuv420pWith_eq (fun n => List.length_replicate) (by omega)]
    dsimp only
    rw [if_pos fun block hblock => blockFits_of_even hw hh hlen hblock, Memory.putAll_recorded]
    rfl
  · have hfour := area_eq hw hh
    rw [length_converted, Nat.mul_assoc]
    omega
  · rw [length_converted]
    exact stored_once hw hh

/-- A blue and a red pixel over a green and a white one. -/
theorem planes_written_once_two_by_two :
    let bgra : List UInt8 := [255, 0, 0, 255, 0, 0, 255, 255, 0, 255, 0, 255, 255, 255, 255, 255]
    bgraToYuv420p bgra 2 2 = .ok [29, 77, 149, 255, 128, 128] ∧
      ∃ yuv stores, bgraToYuv420p bgra 2 2 = .ok yuv ∧
        bgraToYuv420pRecorded bgra 2 2 = .ok (yuv, stores) ∧ yuv.length = 3 * 2 * 2 / 2 ∧
        (stores.map Prod.fst).Perm (List.range yuv.length) ∧ ShowsPixels bgra 2 2 yuv :=
  ⟨by decide +kernel, planes_written_once _ 2 2 rfl rfl (by decide) (by decide)⟩

end Blackwing.Encoder

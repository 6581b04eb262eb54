import Blackwing.Lib.Stores

/-!
# The cursor overlay

`composite_cursor` (`bw-server/src/lib.rs`) draws a crosshair into a frame buffer. It inverts the
colors of the pixels, so a pixel that is visited twice would be left as it was, and drawing the same
crosshair again removes it.

The drawing is modelled on any memory that holds the buffer. `compositeCursor` has the buffer alone
and `compositeCursorRecorded` a record of the stores too.

* `armPass_updates`, `composite_updates`: the drawing does nothing but invert bytes in place.
* `nodup_positions`, `mem_positions`: it inverts the color bytes of the crosshair in the frame, each
  once.
* `crosshair_inverted_once`: what the buffer and the record are, and that a second call restores the
  buffer.
-/

namespace Blackwing.Server

/-! ## The drawing -/

/-- `b ^= 0xFF`. -/
def invert (b : UInt8) : UInt8 := b ^^^ 0xFF

/-- `size as i32`. -/
def asI32 (size : UInt32) : Int := if size.toNat < 2 ^ 31 then size.toNat else size.toNat - 2 ^ 32

/-- `cursor.clamp(0, size as i32 - 1) as u32`. An overflow of the subtraction panics, and so does
`clamp` for an empty range. -/
def clampToFrame (cursor : Int32) (size : UInt32) : Outcome Empty UInt32 :=
  let max := asI32 size - 1
  if max < 0 then .panicked
  else if cursor.toInt < 0 then .ok 0
  else if cursor.toInt > max then .ok (.ofNat max.toNat)
  else .ok (.ofNat cursor.toInt.toNat)

section

variable {β : Type} (M : Memory β UInt8) (stride width height : UInt32)

/-- `xor_bgra_pixel`. -/
def xorBgraPixel (x y : UInt32) (b : β) : Outcome Empty β :=
  if x ≥ width ∨ y ≥ height then pure b
  else do
    let offset := (← Outcome.add32 (← .mul32 y stride) (← .mul32 x 4)).toNat
    if offset + 3 < (M.values b).length then do
      let b ← M.update invert b offset
      let b ← M.update invert b (offset + 1)
      M.update invert b (offset + 2)
    else pure b

/-- The pixel `i` before the coordinate `c`. -/
def drawBefore (draw : UInt32 → β → Outcome Empty β) (c i : UInt32) (b : β) : Outcome Empty β :=
  if c ≥ i then do draw (← .sub32 c i) b else pure b

/-- The pixel `i` behind the coordinate `c`. -/
def drawBehind (draw : UInt32 → β → Outcome Empty β) (size c i : UInt32) (b : β) :
    Outcome Empty β := do
  if (← Outcome.add32 c i) < size then draw (← .add32 c i) b else pure b

/-- A pass over the two arms of a line, along the coordinate `c`. -/
def armPass (draw : UInt32 → β → Outcome Empty β) (size c : UInt32) (b : β) (i : UInt32) :
    Outcome Empty β :=
  drawBefore draw c i b >>= drawBehind draw size c i

/-- The range `1..=arm`. -/
def arms : List UInt32 := [1, 2, 3, 4, 5, 6]

/-- `composite_cursor`, on a memory that holds the buffer. -/
def compositeCursorWith (cursorX cursorY : Int32) (cursorVisible : Bool) (b : β) :
    Outcome Empty β :=
  if !cursorVisible || (M.values b).isEmpty then pure b
  else do
    let cx ← clampToFrame cursorX width
    let cy ← clampToFrame cursorY height
    let b ← arms.foldlM (armPass (fun x => xorBgraPixel M stride width height x cy) width cx) b
    let b ← arms.foldlM (armPass (fun y => xorBgraPixel M stride width height cx y) height cy) b
    xorBgraPixel M stride width height cx cy b

end

/-- `composite_cursor`. -/
def compositeCursor (buffer : List UInt8) (stride width height : UInt32) (cursorX cursorY : Int32)
    (cursorVisible : Bool) : Outcome Empty (List UInt8) :=
  compositeCursorWith .list stride width height cursorX cursorY cursorVisible buffer

/-- `composite_cursor`, with a record of its stores. -/
def compositeCursorRecorded (buffer : List UInt8) (stride width height : UInt32)
    (cursorX cursorY : Int32) (cursorVisible : Bool) :
    Outcome Empty (List UInt8 × List (Nat × UInt8)) :=
  compositeCursorWith .recorded stride width height cursorX cursorY cursorVisible (buffer, [])

/-! ## The crosshair -/

/-- A frame as the capture has it: rows of `stride` bytes with at least `4 * width` each, in a
buffer of at least `height` rows. -/
structure FrameShape (stride width height : UInt32) (length : Nat) : Prop where
  width_pos : 1 ≤ width.toNat
  width_lt : width.toNat < 2 ^ 31
  height_pos : 1 ≤ height.toNat
  height_lt : height.toNat < 2 ^ 31
  row : 4 * width.toNat ≤ stride.toNat
  size : stride.toNat * height.toNat < 2 ^ 32
  length_ge : stride.toNat * height.toNat ≤ length

/-- The coordinate of a cursor, clamped to `0 .. size - 1`. -/
def clamped (cursor : Int32) (size : Nat) : Nat := (min (max cursor.toInt 0) (size - 1)).toNat

/-- The pixel is on the plus of arms of 6 around `(cx, cy)`. -/
def InCrosshair (cx cy x y : Nat) : Prop :=
  y = cy ∧ x ≤ cx + 6 ∧ cx ≤ x + 6 ∨ x = cx ∧ y ≤ cy + 6 ∧ cy ≤ y + 6

/-- The byte at `k` is blue, green or red of a pixel of the frame on the plus around `(cx, cy)`. The
pixel is in the row `k / stride`. -/
def Crossed (stride width height cx cy k : Nat) : Prop :=
  k / stride < height ∧ k % stride / 4 < width ∧ k % stride % 4 < 3 ∧
    InCrosshair cx cy (k % stride / 4) (k / stride)

instance (cx cy x y : Nat) : Decidable (InCrosshair cx cy x y) := inferInstanceAs (Decidable (_ ∨ _))

instance (stride width height cx cy k : Nat) : Decidable (Crossed stride width height cx cy k) :=
  inferInstanceAs (Decidable (_ ∧ _))

/-- The buffer with the crosshair around `(cx, cy)`. -/
def withCrosshair (buffer : List UInt8) (stride width height cx cy : Nat) : List UInt8 :=
  buffer.mapIdx fun k b => if Crossed stride width height cx cy k then invert b else b

namespace CrosshairLemmas

variable {β : Type} {M : Memory β UInt8} {stride width height : UInt32} {n : Nat}

/-! ## The drawing inverts bytes in place -/

/-- The color bytes of a pixel of the frame. -/
def colorBytes (stride width height : Nat) (x y : Int) : List Nat :=
  if 0 ≤ x ∧ x < width ∧ 0 ≤ y ∧ y < height then
    [y.toNat * stride + x.toNat * 4, y.toNat * stride + x.toNat * 4 + 1,
      y.toNat * stride + x.toNat * 4 + 2]
  else []

/-- A pixel of the frame ends before the buffer does. -/
theorem pixel_lt (h : FrameShape stride width height n) {x y : Nat} (hx : x < width.toNat)
    (hy : y < height.toNat) : y * stride.toNat + x * 4 + 3 < stride.toNat * height.toNat := by
  have hrow := h.row
  rw [Nat.add_assoc]
  exact index_lt (by omega) hy

theorem colorBytes_of_in {stride width height : Nat} {x y : Nat} (hx : x < width) (hy : y < height) :
    colorBytes stride width height x y =
      [y * stride + x * 4, y * stride + x * 4 + 1, y * stride + x * 4 + 2] :=
  if_pos (by omega)

theorem colorBytes_of_out {stride width height : Nat} {x y : Int}
    (h : x < 0 ∨ width ≤ x ∨ y < 0 ∨ height ≤ y) : colorBytes stride width height x y = [] :=
  if_neg (by omega)

/-- The offset of a pixel of the frame does not overflow. -/
theorem offset_eq (h : FrameShape stride width height n) {x y : UInt32}
    (hx : x.toNat < width.toNat) (hy : y.toNat < height.toNat) :
    ∃ row column offset : UInt32, Outcome.mul32 y stride = (.ok row : Outcome Empty UInt32) ∧
      Outcome.mul32 x 4 = (.ok column : Outcome Empty UInt32) ∧
      Outcome.add32 row column = (.ok offset : Outcome Empty UInt32) ∧
      offset.toNat = y.toNat * stride.toNat + x.toNat * 4 := by
  have hend := Nat.lt_trans (pixel_lt h hx hy) h.size
  have hcolumnLt : x.toNat * (4 : UInt32).toNat < 2 ^ 32 := by
    show x.toNat * 4 < 2 ^ 32
    omega
  obtain ⟨hrow, hrow'⟩ := Outcome.mul32_of_lt (ε := Empty) (a := y) (b := stride) (by omega)
  obtain ⟨hcolumn, hcolumn'⟩ := Outcome.mul32_of_lt (ε := Empty) hcolumnLt
  have hsumLt : (y * stride).toNat + (x * 4).toNat < 2 ^ 32 := by
    rw [hrow', hcolumn']
    show y.toNat * stride.toNat + x.toNat * 4 < 2 ^ 32
    omega
  obtain ⟨hsum, hsum'⟩ := Outcome.add32_of_lt (ε := Empty) hsumLt
  refine ⟨_, _, _, hrow, hcolumn, hsum, ?_⟩
  rw [hsum', hrow', hcolumn']
  rfl

theorem xorBgraPixel_updates (h : FrameShape stride width height n) (x y : UInt32) :
    M.Updates invert n (xorBgraPixel M stride width height x y)
      (colorBytes stride.toNat width.toNat height.toNat x.toNat y.toNat) := by
  intro b hb
  rw [xorBgraPixel]
  by_cases hin : x.toNat < width.toNat ∧ y.toNat < height.toNat
  · obtain ⟨hx, hy⟩ := hin
    obtain ⟨row, column, offset, hrow, hcolumn, hsum, hoffset⟩ := offset_eq h hx hy
    have hroom := Nat.lt_of_lt_of_le (pixel_lt h hx hy) h.length_ge
    have hnot : ¬ (x ≥ width ∨ y ≥ height) := by
      simp only [ge_iff_le, UInt32.le_iff_toNat_le]
      omega
    rw [if_neg hnot, colorBytes_of_in hx hy, hrow, Outcome.ok_bind, hcolumn, Outcome.ok_bind, hsum,
      Outcome.ok_bind, hoffset, hb, if_pos hroom]
    simp only [List.foldlM_cons, List.foldlM_nil, Outcome.bind_pure]
  · have hout : x ≥ width ∨ y ≥ height := by
      simp only [ge_iff_le, UInt32.le_iff_toNat_le]
      omega
    rw [if_pos hout, colorBytes_of_out (by omega)]
    rfl

theorem arms_le {i : UInt32} (hi : i ∈ arms) : i.toNat ≤ 6 := by
  have hall : arms.all (fun i => decide (i.toNat ≤ 6)) = true := by decide
  exact of_decide_eq_true (List.all_eq_true.mp hall i hi)

section

variable {draw : UInt32 → β → Outcome Empty β} {g : Int → List Nat} {size c i : UInt32}
  (hdraw : ∀ x : UInt32, M.Updates invert n (draw x) (g x.toNat))
  (hout : ∀ x : Int, x < 0 ∨ size.toNat ≤ x → g x = [])

include hdraw hout in
theorem drawBefore_updates : M.Updates invert n (drawBefore draw c i) (g (c.toNat - i.toNat)) := by
  intro b hb
  rw [drawBefore]
  by_cases hle : i.toNat ≤ c.toNat
  · obtain ⟨d, hd, hsum⟩ := Outcome.sub32_of_le (ε := Empty) hle
    have hcoord : (c.toNat : Int) - i.toNat = d.toNat := by omega
    rw [if_pos (UInt32.le_iff_toNat_le.mpr hle), hd, Outcome.ok_bind, hcoord]
    exact hdraw d b hb
  · rw [if_neg (fun h => hle (UInt32.le_iff_toNat_le.mp h)), hout _ (Or.inl (by omega))]
    rfl

include hdraw hout in
theorem drawBehind_updates (hc : c.toNat + i.toNat < 2 ^ 32) :
    M.Updates invert n (drawBehind draw size c i) (g (c.toNat + i.toNat)) := by
  intro b hb
  obtain ⟨hsum, hsum'⟩ := Outcome.add32_of_lt (ε := Empty) hc
  have hcoord : (c.toNat : Int) + i.toNat = (c + i).toNat := by omega
  rw [drawBehind, hsum, Outcome.ok_bind, Outcome.ok_bind, hcoord]
  split_ifs with hlt
  · exact hdraw (c + i) b hb
  · rw [UInt32.lt_iff_toNat_lt] at hlt
    rw [hout _ (Or.inr (by omega))]
    rfl

include hdraw hout in
/-- A pass over two arms, when drawing at a coordinate updates the positions `g`, which are none
outside of the frame. -/
theorem armPass_updates (hc : c.toNat + i.toNat < 2 ^ 32) :
    M.Updates invert n (armPass draw size c · i)
      (g (c.toNat - i.toNat) ++ g (c.toNat + i.toNat)) :=
  (drawBefore_updates hdraw hout).append (drawBehind_updates hdraw hout hc)

variable (size c) in
include hdraw hout in
theorem arms_updates (hc : c.toNat + 6 < 2 ^ 32) :
    M.Updates invert n (arms.foldlM (armPass draw size c))
      (arms.flatMap fun i => g (c.toNat - i.toNat) ++ g (c.toNat + i.toNat)) := by
  refine Memory.Updates.foldlM fun i hi => armPass_updates hdraw hout ?_
  exact Nat.lt_of_le_of_lt (Nat.add_le_add_left (arms_le hi) _) hc

end

/-- The bytes in the order in which they are inverted. -/
def positions (stride width height : Nat) (cx cy : Int) : List Nat :=
  (arms.flatMap fun i => colorBytes stride width height (cx - i.toNat) cy ++
      colorBytes stride width height (cx + i.toNat) cy) ++
    ((arms.flatMap fun i => colorBytes stride width height cx (cy - i.toNat) ++
        colorBytes stride width height cx (cy + i.toNat)) ++
      colorBytes stride width height cx cy)

theorem clampToFrame_eq (cursor : Int32) {size : UInt32} (hpos : 1 ≤ size.toNat)
    (hlt : size.toNat < 2 ^ 31) :
    ∃ c, clampToFrame cursor size = .ok c ∧ c.toNat = clamped cursor size.toNat ∧
      c.toNat < size.toNat := by
  have hmax : asI32 size = size.toNat := if_pos hlt
  rw [clampToFrame, hmax]
  have hmaxPos : ¬ (size.toNat : Int) - 1 < 0 := by omega
  simp only [hmaxPos, if_false]
  split_ifs with hneg hbig
  · refine ⟨0, rfl, ?_, hpos⟩
    show 0 = clamped cursor size.toNat
    rw [clamped]
    omega
  · refine ⟨_, rfl, ?_⟩
    rw [clamped, UInt32.toNat_ofNat']
    omega
  · refine ⟨_, rfl, ?_⟩
    rw [clamped, UInt32.toNat_ofNat']
    omega

theorem composite_updates (h : FrameShape stride width height n) (cursorX cursorY : Int32) :
    M.Updates invert n (compositeCursorWith M stride width height cursorX cursorY true)
      (positions stride.toNat width.toNat height.toNat (clamped cursorX width.toNat)
        (clamped cursorY height.toNat)) := by
  obtain ⟨cx, hcx, hcx', hcxLt⟩ := clampToFrame_eq cursorX h.width_pos h.width_lt
  obtain ⟨cy, hcy, hcy', hcyLt⟩ := clampToFrame_eq cursorY h.height_pos h.height_lt
  have hwidth := h.width_lt
  have hheight := h.height_lt
  have hxor := fun x y => xorBgraPixel_updates (M := M) h x y
  have hhorizontal := arms_updates width cx (fun x => hxor x cy)
    (g := fun x => colorBytes stride.toNat width.toNat height.toNat x cy.toNat)
    (fun x hx => colorBytes_of_out (by omega)) (by omega)
  have hvertical := arms_updates height cy (fun y => hxor cx y)
    (g := fun y => colorBytes stride.toNat width.toNat height.toNat cx.toNat y)
    (fun y hy => colorBytes_of_out (by omega)) (by omega)
  have hall := hhorizontal.append (hvertical.append (hxor cx cy))
  intro b hb
  have hempty : (M.values b).isEmpty = false := by
    have hpos := Nat.mul_pos (Nat.lt_of_lt_of_le (by omega : 0 < 4 * width.toNat) h.row) h.height_pos
    have hlength := h.length_ge
    rw [List.isEmpty_eq_false_iff, ← List.length_pos_iff]
    omega
  rw [← hcx', ← hcy', positions, ← hall b hb, compositeCursorWith, hempty, if_neg (by simp), hcx,
    Outcome.ok_bind, hcy, Outcome.ok_bind]

/-! ## Each color byte once -/

/-- The way from the center to the pixels of the crosshair, in the order of the drawing. -/
def crosshair : List (Int × Int) :=
  (arms.flatMap fun i => [(-(i.toNat : Int), 0), ((i.toNat : Int), 0)]) ++
    ((arms.flatMap fun i => [(0, -(i.toNat : Int)), (0, (i.toNat : Int))]) ++ [(0, 0)])

theorem positions_eq (stride width height : Nat) (cx cy : Int) :
    positions stride width height cx cy =
      crosshair.flatMap fun d => colorBytes stride width height (cx + d.1) (cy + d.2) := by
  simp only [positions, crosshair, List.flatMap_append, List.flatMap_assoc, List.flatMap_cons,
    List.flatMap_nil, List.append_nil, Int.add_zero, Int.sub_eq_add_neg]

theorem nodup_crosshair : crosshair.Nodup := by decide

theorem mem_crosshair (x y : Int) :
    (x, y) ∈ crosshair ↔ y = 0 ∧ -6 ≤ x ∧ x ≤ 6 ∨ x = 0 ∧ -6 ≤ y ∧ y ≤ 6 := by
  constructor
  · have hall : ∀ d ∈ crosshair, d.2 = 0 ∧ -6 ≤ d.1 ∧ d.1 ≤ 6 ∨ d.1 = 0 ∧ -6 ≤ d.2 ∧ d.2 ≤ 6 := by
      decide
    exact hall (x, y)
  · have hhorizontal : ∀ n : Nat, n < 13 → ((n : Int) - 6, 0) ∈ crosshair := by decide
    have hvertical : ∀ n : Nat, n < 13 → (0, (n : Int) - 6) ∈ crosshair := by decide
    rintro (⟨rfl, hx⟩ | ⟨rfl, hy⟩)
    · have h := hhorizontal (x + 6).toNat (by omega)
      rwa [show ((x + 6).toNat : Int) - 6 = x by omega] at h
    · have h := hvertical (y + 6).toNat (by omega)
      rwa [show ((y + 6).toNat : Int) - 6 = y by omega] at h

/-- A byte is a color byte of the pixel in its row and column. -/
theorem mem_colorBytes {stride width height k : Nat} {x y : Int} (hrow : 4 * width ≤ stride) :
    k ∈ colorBytes stride width height x y ↔
      (0 ≤ x ∧ x < width ∧ 0 ≤ y ∧ y < height) ∧
        y = (k / stride : Nat) ∧ x = (k % stride / 4 : Nat) ∧ k % stride % 4 < 3 := by
  by_cases hin : 0 ≤ x ∧ x < width ∧ 0 ≤ y ∧ y < height
  · rw [colorBytes, if_pos hin, and_iff_right hin]
    obtain ⟨x, rfl⟩ := Int.eq_ofNat_of_zero_le hin.1
    obtain ⟨y, rfl⟩ := Int.eq_ofNat_of_zero_le hin.2.2.1
    have hstride : 0 < stride := by omega
    have hsplit := Nat.div_add_mod k stride
    have hmod := Nat.mod_lt k hstride
    simp only [List.mem_cons, List.not_mem_nil, or_false, Int.toNat_natCast, Int.natCast_inj]
    constructor
    · intro hk
      obtain ⟨c, hc, rfl⟩ : ∃ c < 3, k = x * 4 + c + y * stride := ⟨k - (x * 4 + y * stride), by omega⟩
      rw [Nat.add_mul_div_right _ _ hstride, Nat.add_mul_mod_self_right, Nat.mod_eq_of_lt (by omega),
        Nat.div_eq_of_lt (by omega)]
      omega
    · rintro ⟨rfl, rfl, hcolor⟩
      rw [Nat.mul_comm] at hsplit
      omega
  · rw [colorBytes, if_neg hin]
    exact iff_of_false List.not_mem_nil fun h => hin h.1

theorem nodup_positions {stride width height : Nat} (hrow : 4 * width ≤ stride) (cx cy : Int) :
    (positions stride width height cx cy).Nodup := by
  rw [positions_eq, List.nodup_flatMap]
  refine ⟨fun d _ => ?_, nodup_crosshair.imp fun {d d'} hne => ?_⟩
  · rw [colorBytes]
    split_ifs <;> simp
  · intro k hk hk'
    rw [mem_colorBytes hrow] at hk hk'
    exact hne (Prod.ext (by omega) (by omega))

theorem mem_positions {stride width height : Nat} (hrow : 4 * width ≤ stride) (cx cy k : Nat) :
    k ∈ positions stride width height cx cy ↔ Crossed stride width height cx cy k := by
  rw [positions_eq, List.mem_flatMap, Crossed, InCrosshair]
  constructor
  · rintro ⟨⟨dx, dy⟩, hd, hk⟩
    rw [mem_crosshair] at hd
    rw [mem_colorBytes hrow] at hk
    generalize k / stride = row, k % stride = column at hk ⊢
    omega
  · intro hk
    refine ⟨((k % stride / 4 : Nat) - cx, (k / stride : Nat) - cy), ?_, ?_⟩
    · rw [mem_crosshair]
      generalize k / stride = row, k % stride = column at hk ⊢
      omega
    · rw [mem_colorBytes hrow]
      generalize k / stride = row, k % stride = column at hk ⊢
      omega

/-! ## The whole call -/

variable (cursorX cursorY : Int32)

theorem positions_lt (h : FrameShape stride width height n) {cx cy k : Nat}
    (hk : k ∈ positions stride.toNat width.toNat height.toNat cx cy) : k < n := by
  rw [mem_positions h.row] at hk
  have hstride : 0 < stride.toNat := by
    have := h.width_pos
    have := h.row
    omega
  have hlt := (Nat.div_lt_iff_lt_mul hstride).mp hk.1
  rw [Nat.mul_comm] at hlt
  exact Nat.lt_of_lt_of_le hlt h.length_ge

/-- The stores of a call. -/
theorem composite_eq {b : β} (h : FrameShape stride width height (M.values b).length) :
    compositeCursorWith M stride width height cursorX cursorY true b =
      .ok (M.putAll (Memory.updates invert (M.values b)
        (positions stride.toNat width.toNat height.toNat (clamped cursorX width.toNat)
          (clamped cursorY height.toNat))) b) := by
  rw [composite_updates h cursorX cursorY b rfl]
  exact Memory.foldlM_update (nodup_positions h.row _ _) fun k hk => positions_lt h hk

section

variable {buffer : List UInt8} (h : FrameShape stride width height buffer.length)
include h

/-- What the stores leave. -/
theorem storeAll_eq (cx cy : Nat) :
    storeAll (Memory.updates invert buffer
        (positions stride.toNat width.toNat height.toNat cx cy)) buffer =
      withCrosshair buffer stride.toNat width.toNat height.toNat cx cy := by
  rw [Memory.storeAll_updates (nodup_positions h.row _ _) fun k hk => positions_lt h hk]
  simp only [mem_positions h.row]
  rfl

theorem compositeCursor_eq :
    compositeCursor buffer stride width height cursorX cursorY true =
      .ok (withCrosshair buffer stride.toNat width.toNat height.toNat
        (clamped cursorX width.toNat) (clamped cursorY height.toNat)) := by
  rw [← storeAll_eq h]
  exact composite_eq (M := .list) cursorX cursorY h

theorem compositeCursorRecorded_eq :
    compositeCursorRecorded buffer stride width height cursorX cursorY true =
      .ok (withCrosshair buffer stride.toNat width.toNat height.toNat
          (clamped cursorX width.toNat) (clamped cursorY height.toNat),
        Memory.updates invert buffer (positions stride.toNat width.toNat height.toNat
          (clamped cursorX width.toNat) (clamped cursorY height.toNat))) := by
  have hcall := composite_eq (M := .recorded) (b := (buffer, [])) cursorX cursorY h
  rw [Memory.putAll_recorded, List.nil_append] at hcall
  rw [← storeAll_eq h]
  exact hcall

end

theorem length_withCrosshair (buffer : List UInt8) (stride width height cx cy : Nat) :
    (withCrosshair buffer stride width height cx cy).length = buffer.length := List.length_mapIdx

theorem invert_invert (b : UInt8) : invert (invert b) = b := by
  rw [invert, invert, UInt8.xor_assoc, UInt8.xor_self, UInt8.xor_zero]

/-- The same crosshair twice is none. -/
theorem withCrosshair_twice (buffer : List UInt8) (stride width height cx cy : Nat) :
    withCrosshair (withCrosshair buffer stride width height cx cy) stride width height cx cy =
      buffer := by
  refine List.ext_getElem? fun k => ?_
  rw [withCrosshair, withCrosshair, List.getElem?_mapIdx, List.getElem?_mapIdx, Option.map_map]
  cases buffer[k]? with
  | none => rfl
  | some b =>
    by_cases hk : Crossed stride width height cx cy k
    · simp [hk, invert_invert]
    · simp [hk]

end CrosshairLemmas

open CrosshairLemmas

/-- With a visible cursor, a call inverts the color bytes of the pixels on the plus around the
clamped position that are in the frame, stores to each of them once and to no other byte, and a
second call restores the buffer. -/
theorem crosshair_inverted_once (buffer : List UInt8) (stride width height : UInt32)
    (cursorX cursorY : Int32) (h : FrameShape stride width height buffer.length) :
    ∃ out stores, compositeCursor buffer stride width height cursorX cursorY true = .ok out ∧
      compositeCursorRecorded buffer stride width height cursorX cursorY true = .ok (out, stores) ∧
      out = withCrosshair buffer stride.toNat width.toNat height.toNat
        (clamped cursorX width.toNat) (clamped cursorY height.toNat) ∧
      (stores.map Prod.fst).Nodup ∧
      (∀ k, k ∈ stores.map Prod.fst ↔
        Crossed stride.toNat width.toNat height.toNat (clamped cursorX width.toNat)
          (clamped cursorY height.toNat) k) ∧
      compositeCursor out stride width height cursorX cursorY true = .ok buffer := by
  refine ⟨_, _, compositeCursor_eq cursorX cursorY h, compositeCursorRecorded_eq cursorX cursorY h,
    rfl, ?_, fun k => ?_, ?_⟩
  · rw [Memory.map_fst_updates fun k hk => positions_lt h hk]
    exact nodup_positions h.row _ _
  · rw [Memory.map_fst_updates fun k hk => positions_lt h hk, mem_positions h.row]
  · rw [compositeCursor_eq cursorX cursorY (by rwa [length_withCrosshair]), withCrosshair_twice]

/-- A black frame of three pixels by two, with four bytes of padding a row and the cursor at the top
of the middle column: the first row and the pixel below the cursor are inverted, apart from the
alpha bytes and the padding. -/
theorem crosshair_inverted_once_arms :
    FrameShape 16 3 2 32 ∧
      ∃ out stores, compositeCursor (List.replicate 32 0) 16 3 2 1 0 true = .ok out ∧
        compositeCursorRecorded (List.replicate 32 0) 16 3 2 1 0 true = .ok (out, stores) ∧
        out = [255, 255, 255, 0, 255, 255, 255, 0, 255, 255, 255, 0, 0, 0, 0, 0,
          0, 0, 0, 0, 255, 255, 255, 0, 0, 0, 0, 0, 0, 0, 0, 0] ∧
        (stores.map Prod.fst).Nodup ∧
        compositeCursor out 16 3 2 1 0 true = .ok (List.replicate 32 0) := by
  have hshape : FrameShape 16 3 2 32 := by
    constructor <;> decide
  obtain ⟨out, stores, hout, hrecorded, hcross, hnodup, -, hback⟩ :=
    crosshair_inverted_once (List.replicate 32 0) 16 3 2 1 0 hshape
  exact ⟨hshape, out, stores, hout, hrecorded, hcross.trans (by decide +kernel), hnodup, hback⟩

end Blackwing.Server

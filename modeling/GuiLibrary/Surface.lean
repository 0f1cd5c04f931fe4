import GuiLibrary.Geometry
import Mathlib.Tactic.Linarith
import Mathlib.Tactic.Ring
import Mathlib.Algebra.Order.Group.Int

/-!
# Colours and drawing surfaces

A surface of the hardware layer is a size, the byte positions of its colour channels, and a buffer
of 32-bit pixels ordered by lines. This file models `ei_map_rgba` and `ei_fill` of `ei_draw.c`
on such buffers, the polygons of `ei_draw_more.c` that frames and buttons are painted with, and
the encoding of a creation number as a pick colour in `ei_widget_create`.

The polygon filler `ei_draw_polygon` and the floating-point positions of the points of an arc are
outside the repository; they are the fields of `Raster`.

## Main definitions

* `Color`, `ChannelIndices`, `Surface`, `Surface.pixel`.
* `eiMapRgba`, `colorOf`, `eiFill`, `eiRoundedFrameAll`, `eiDrawPolygon`, `pickColorOf`.

## Main results

* `colorOf_eiMapRgba`, `eiMapRgba_inj`: the bytes of a pixel determine the colour channels.
* `pickColorOf_eq_iff`: pick colours repeat with period `2 ^ 24`.
* `pixel_eiFill`, `pixel_eiDrawPolygon`: which pixels are written.
-/

namespace GuiLibrary

/-! ### Colours -/

/-- `ei_color_t`: a colour with transparency, one byte for each channel. -/
structure Color where
  red : BitVec 8
  green : BitVec 8
  blue : BitVec 8
  alpha : BitVec 8
deriving DecidableEq, Repr

/-- `ei_default_background_color`. -/
def eiDefaultBackgroundColor : Color := ⟨0xA0, 0xA0, 0xA0, 0xff⟩

/-- `ei_font_default_color`. -/
def eiFontDefaultColor : Color := ⟨0x00, 0x00, 0x00, 0xff⟩

/-- The byte positions of the channels that `hw_surface_get_channel_indices` can return: distinct
positions in a four-byte pixel, and `-1` for the alpha channel of a surface without one. -/
structure ChannelIndices where
  ir : ℤ
  ig : ℤ
  ib : ℤ
  ia : ℤ
  ir_mem : 0 ≤ ir ∧ ir ≤ 3
  ig_mem : 0 ≤ ig ∧ ig ≤ 3
  ib_mem : 0 ≤ ib ∧ ib ≤ 3
  rgb_ne : ir ≠ ig ∧ ir ≠ ib ∧ ig ≠ ib
  ia_mem : ia = -1 ∨ (0 ≤ ia ∧ ia ≤ 3) ∧ ia ≠ ir ∧ ia ≠ ig ∧ ia ≠ ib

/-- A drawing surface: `buffer i` is the pixel at distance `i` from the pixel `(0, 0)`. -/
structure Surface where
  size : Size
  channels : ChannelIndices
  buffer : ℤ → BitVec 32

/-- The pixel of a surface at a point. -/
def Surface.pixel (surface : Surface) (p : Point) : BitVec 32 :=
  surface.buffer (p.x + p.y * surface.size.width)

/-- A black surface of the given size, without alpha channel. -/
def sampleSurface (size : Size) : Surface where
  size := size
  channels :=
    { ir := 0
      ig := 1
      ib := 2
      ia := -1
      ir_mem := by decide
      ig_mem := by decide
      ib_mem := by decide
      rgb_ne := by decide
      ia_mem := by decide }
  buffer := fun _ => 0

/-- `ei_map_rgba`: a colour as a pixel of a surface. -/
def eiMapRgba (surface : Surface) (color : Color) : BitVec 32 :=
  let channels := surface.channels
  (color.red.setWidth 32 <<< (8 * channels.ir).toNat) +
    (color.green.setWidth 32 <<< (8 * channels.ig).toNat) +
    (color.blue.setWidth 32 <<< (8 * channels.ib).toNat) +
    (if channels.ia = -1 then 0 else color.alpha.setWidth 32 <<< (8 * channels.ia).toNat)

/-- `(pixel >> (8 * i)) & 0xff`. A shift by a negative count, for a missing alpha channel, is
undefined; here it reads the lowest byte. -/
def byteAt (pixel : BitVec 32) (i : ℤ) : BitVec 8 := (pixel >>> (8 * i).toNat).setWidth 8

/-- A pixel decomposed into its channels. -/
def colorOf (channels : ChannelIndices) (pixel : BitVec 32) : Color :=
  ⟨byteAt pixel channels.ir, byteAt pixel channels.ig, byteAt pixel channels.ib,
    byteAt pixel channels.ia⟩

section Bytes

variable {i j : ℤ}

theorem byteAt_shiftLeft (c : BitVec 8) (hi : 0 ≤ i ∧ i ≤ 3) (hj : 0 ≤ j ∧ j ≤ 3) :
    byteAt (c.setWidth 32 <<< (8 * j).toNat) i = if i = j then c else 0 := by
  have hcases : ∀ i : ℤ, 0 ≤ i ∧ i ≤ 3 → i = 0 ∨ i = 1 ∨ i = 2 ∨ i = 3 := fun i hi => by omega
  have hc := c.isLt
  rw [byteAt, ← BitVec.toNat_inj]
  rcases hcases i hi with rfl | rfl | rfl | rfl <;>
    rcases hcases j hj with rfl | rfl | rfl | rfl <;>
    simp [BitVec.toNat_ushiftRight, Nat.shiftRight_eq_div_pow, Nat.shiftLeft_eq] <;> omega

/-- Bytes at different positions do not overlap. -/
theorem shiftLeft_and_shiftLeft (c d : BitVec 8) (hi : 0 ≤ i) (hj : 0 ≤ j) (hij : i ≠ j) :
    (c.setWidth 32 <<< (8 * i).toNat) &&& (d.setWidth 32 <<< (8 * j).toNat) = 0 := by
  apply BitVec.eq_of_getLsbD_eq
  intro k hk
  rw [BitVec.getLsbD_and, BitVec.getLsbD_shiftLeft, BitVec.getLsbD_shiftLeft,
    BitVec.getLsbD_setWidth, BitVec.getLsbD_setWidth]
  by_cases hbyte : 8 * i ≤ k ∧ k < 8 * i + 8
  · have hj : (k : ℤ) < 8 * j ∨ 8 * j + 8 ≤ k := by omega
    rcases hj with hlt | hle
    · simp [show k < (8 * j).toNat by omega]
    · simp [BitVec.getLsbD_of_ge d (k - (8 * j).toNat) (by omega)]
  · by_cases hlt : (k : ℤ) < 8 * i
    · simp [show k < (8 * i).toNat by omega]
    · simp [BitVec.getLsbD_of_ge c (k - (8 * i).toNat) (by omega)]

theorem byteAt_add {v v' : BitVec 32} (i : ℤ) (h : v &&& v' = 0) :
    byteAt (v + v') i = byteAt v i ||| byteAt v' i := by
  rw [BitVec.add_eq_or_of_and_eq_zero _ _ h, byteAt, byteAt, byteAt,
    BitVec.ushiftRight_or_distrib, BitVec.setWidth_or]

theorem add_and_eq_zero {u v v' : BitVec 32} (huv : u &&& v = 0) (h : u &&& v' = 0)
    (h' : v &&& v' = 0) : (u + v) &&& v' = 0 := by
  rw [BitVec.add_eq_or_of_and_eq_zero _ _ huv, BitVec.and_or_distrib_right, h, h']
  rfl

/-- Each byte of a mapped colour is the channel at its position. -/
theorem byteAt_eiMapRgba (surface : Surface) (c : Color) (hi : 0 ≤ i ∧ i ≤ 3) :
    byteAt (eiMapRgba surface c) i =
      (if i = surface.channels.ir then c.red else 0) |||
        (if i = surface.channels.ig then c.green else 0) |||
        (if i = surface.channels.ib then c.blue else 0) |||
        (if i = surface.channels.ia then c.alpha else 0) := by
  obtain ⟨hrg, hrb, hgb⟩ := surface.channels.rgb_ne
  have hr := surface.channels.ir_mem
  have hg := surface.channels.ig_mem
  have hb := surface.channels.ib_mem
  have hred_green := shiftLeft_and_shiftLeft c.red c.green hr.1 hg.1 hrg
  have hrgb := add_and_eq_zero hred_green (shiftLeft_and_shiftLeft c.red c.blue hr.1 hb.1 hrb)
    (shiftLeft_and_shiftLeft c.green c.blue hg.1 hb.1 hgb)
  have hbytes : byteAt (c.red.setWidth 32 <<< (8 * surface.channels.ir).toNat +
      c.green.setWidth 32 <<< (8 * surface.channels.ig).toNat +
      c.blue.setWidth 32 <<< (8 * surface.channels.ib).toNat) i =
      (if i = surface.channels.ir then c.red else 0) |||
        (if i = surface.channels.ig then c.green else 0) |||
        (if i = surface.channels.ib then c.blue else 0) := by
    rw [byteAt_add i hrgb, byteAt_add i hred_green, byteAt_shiftLeft _ hi hr,
      byteAt_shiftLeft _ hi hg, byteAt_shiftLeft _ hi hb]
  rw [eiMapRgba]
  rcases surface.channels.ia_mem with ha | ⟨ha, har, hag, hab⟩
  · have hia : i ≠ surface.channels.ia := by omega
    rw [if_pos ha, show ∀ v : BitVec 32, v + 0 = v from BitVec.add_zero, hbytes, if_neg hia]
    exact BitVec.or_zero.symm
  · have halpha := add_and_eq_zero hrgb (add_and_eq_zero hred_green
      (shiftLeft_and_shiftLeft c.red c.alpha hr.1 ha.1 (Ne.symm har))
      (shiftLeft_and_shiftLeft c.green c.alpha hg.1 ha.1 (Ne.symm hag)))
      (shiftLeft_and_shiftLeft c.blue c.alpha hb.1 ha.1 (Ne.symm hab))
    rw [if_neg (by omega), byteAt_add i halpha, hbytes, byteAt_shiftLeft _ hi ha]

end Bytes

/-- **A pixel decomposed into its channels gives back the mapped colour.** -/
theorem colorOf_eiMapRgba (surface : Surface) (c : Color) :
    (colorOf surface.channels (eiMapRgba surface c)).red = c.red ∧
      (colorOf surface.channels (eiMapRgba surface c)).green = c.green ∧
      (colorOf surface.channels (eiMapRgba surface c)).blue = c.blue ∧
      (surface.channels.ia ≠ -1 →
        (colorOf surface.channels (eiMapRgba surface c)).alpha = c.alpha) := by
  obtain ⟨hrg, hrb, hgb⟩ := surface.channels.rgb_ne
  have ha := surface.channels.ia_mem
  have hr := surface.channels.ir_mem
  have hg := surface.channels.ig_mem
  have hb := surface.channels.ib_mem
  refine ⟨?_, ?_, ?_, fun hne => ?_⟩
  · rw [colorOf, byteAt_eiMapRgba surface c hr, if_pos rfl, if_neg hrg, if_neg hrb,
      if_neg (by omega)]
    simp
  · rw [colorOf, byteAt_eiMapRgba surface c hg, if_neg (Ne.symm hrg), if_pos rfl, if_neg hgb,
      if_neg (by omega)]
    simp
  · rw [colorOf, byteAt_eiMapRgba surface c hb, if_neg (Ne.symm hrb), if_neg (Ne.symm hgb),
      if_pos rfl, if_neg (by omega)]
    simp
  · obtain ⟨hia, har, hag, hab⟩ := ha.resolve_left hne
    rw [colorOf, byteAt_eiMapRgba surface c hia, if_neg har, if_neg hag, if_neg hab, if_pos rfl]
    simp

/-- **The bytes of a pixel determine the colour channels**, for every layout of the channels. -/
theorem eiMapRgba_inj (surface : Surface) {c d : Color} (ha : c.alpha = d.alpha) :
    eiMapRgba surface c = eiMapRgba surface d ↔ c = d := by
  refine ⟨fun h => ?_, fun h => h ▸ rfl⟩
  obtain ⟨hr, hg, hb, -⟩ := colorOf_eiMapRgba surface c
  obtain ⟨hr', hg', hb', -⟩ := colorOf_eiMapRgba surface d
  rw [h] at hr hg hb
  obtain ⟨r, g, b, a⟩ := c
  obtain ⟨r', g', b', a'⟩ := d
  rw [Color.mk.injEq]
  exact ⟨hr.symm.trans hr', hg.symm.trans hg', hb.symm.trans hb', ha⟩

/-- The pixel of a colour depends only on the channels of the surface. -/
theorem eiMapRgba_congr {surface surface' : Surface} (h : surface.channels = surface'.channels)
    (color : Color) : eiMapRgba surface color = eiMapRgba surface' color := by
  rw [eiMapRgba, eiMapRgba, h]

/-- The pick colour that `ei_widget_create` computes from the creation number of a widget: its
low three bytes, the higher ones only while the rest of the number is positive. -/
def pickColorOf (pickId : BitVec 32) : Color :=
  let red := (pickId &&& 255).setWidth 8
  let tempWidId := pickId >>> 8
  if tempWidId > 0 then
    let green := (tempWidId &&& 255).setWidth 8
    let tempWidId := tempWidId >>> 8
    if tempWidId > 0 then ⟨red, green, (tempWidId &&& 255).setWidth 8, 255⟩
    else ⟨red, green, 0, 255⟩
  else ⟨red, 0, 0, 255⟩

/-- The skipped bytes of a pick colour are zero anyway. -/
theorem pickColorOf_eq (i : BitVec 32) :
    pickColorOf i = ⟨BitVec.ofNat 8 i.toNat, BitVec.ofNat 8 (i.toNat / 256),
      BitVec.ofNat 8 (i.toNat / 65536), 255⟩ := by
  have hand : ∀ n : BitVec 32, (n &&& 255).setWidth 8 = BitVec.ofNat 8 n.toNat := fun n => by
    apply BitVec.eq_of_toNat_eq
    rw [BitVec.toNat_setWidth, BitVec.toNat_and, BitVec.toNat_ofNat,
      show (255 : BitVec 32).toNat = 2 ^ 8 - 1 from rfl, Nat.and_two_pow_sub_one_eq_mod]
    omega
  have hzero : ∀ n : ℕ, n = 0 → (0 : BitVec 8) = BitVec.ofNat 8 n := by
    rintro _ rfl
    rfl
  have hdiv : i.toNat / 256 / 256 = i.toNat / 65536 := by omega
  have hnil : (0 : BitVec 32).toNat = 0 := rfl
  simp only [pickColorOf, hand, BitVec.toNat_ushiftRight, Nat.shiftRight_eq_div_pow,
    gt_iff_lt, BitVec.lt_def, hnil, Nat.reducePow, hdiv]
  split_ifs with h₁ h₂
  · rfl
  · rw [← hzero (i.toNat / 65536) (by omega)]
  · rw [← hzero (i.toNat / 65536) (by omega), ← hzero (i.toNat / 256) (by omega)]

/-- **Pick colours repeat with period `2 ^ 24`.** -/
theorem pickColorOf_eq_iff {i j : BitVec 32} :
    pickColorOf i = pickColorOf j ↔ i.toNat % 2 ^ 24 = j.toNat % 2 ^ 24 := by
  simp only [pickColorOf_eq, Color.mk.injEq, and_true, ← BitVec.toNat_inj, BitVec.toNat_ofNat]
  omega

@[simp] theorem alpha_pickColorOf (i : BitVec 32) : (pickColorOf i).alpha = 255 := by
  rw [pickColorOf_eq]

/-! ### Filling a surface -/

/-- The inner loop of `ei_fill`: writes `n` pixels from `pixelPtr` on. -/
def fillRow (intColor : BitVec 32) : ℕ → ℤ → (ℤ → BitVec 32) → ℤ → BitVec 32
  | 0, _, buffer => buffer
  | n + 1, pixelPtr, buffer =>
      fillRow intColor n (pixelPtr + 1) (Function.update buffer pixelPtr intColor)

/-- The outer loop of `ei_fill`: `m` lines of `n` pixels, skipping `skip` pixels after each. -/
def fillRows (intColor : BitVec 32) (n : ℕ) (skip : ℤ) : ℕ → ℤ → (ℤ → BitVec 32) → ℤ → BitVec 32
  | 0, _, buffer => buffer
  | m + 1, pixelPtr, buffer =>
      fillRows intColor n skip m (pixelPtr + n + skip) (fillRow intColor n pixelPtr buffer)

/-- `ei_fill`: fills the clipper, or the whole surface when it is `NULL`. -/
def eiFill (surface : Surface) (color : Color) (clipper : Option Rect) : Surface :=
  let intColor := eiMapRgba surface color
  { surface with
    buffer := match clipper with
      | some clipper =>
          fillRows intColor clipper.size.width.toNat (surface.size.width - clipper.size.width)
            clipper.size.height.toNat
            (clipper.topLeft.x + clipper.topLeft.y * surface.size.width) surface.buffer
      | none =>
          fillRows intColor surface.size.width.toNat 0 surface.size.height.toNat 0
            surface.buffer }

theorem fillRow_apply (intColor : BitVec 32) : (n : ℕ) → (ptr : ℤ) → (buffer : ℤ → BitVec 32) →
    (i : ℤ) → fillRow intColor n ptr buffer i =
      if ptr ≤ i ∧ i < ptr + n then intColor else buffer i
  | 0, ptr, buffer, i => by
      rw [fillRow, if_neg (by omega)]
  | n + 1, ptr, buffer, i => by
      rw [fillRow, fillRow_apply intColor n]
      by_cases hi : i = ptr
      · subst hi
        rw [if_neg (by omega), Function.update_self, if_pos (by omega)]
      · rw [Function.update_of_ne hi]
        exact if_congr (by omega) rfl rfl

theorem fillRows_apply (intColor : BitVec 32) (n : ℕ) (skip : ℤ) : (m : ℕ) → (ptr : ℤ) →
    (buffer : ℤ → BitVec 32) → (i : ℤ) → fillRows intColor n skip m ptr buffer i =
      if ∃ k < m, ptr + k * (n + skip) ≤ i ∧ i < ptr + k * (n + skip) + n then intColor
      else buffer i
  | 0, ptr, buffer, i => by simp [fillRows]
  | m + 1, ptr, buffer, i => by
      rw [fillRows, fillRows_apply intColor n skip m, fillRow_apply]
      have hshift : ∀ k : ℕ, ptr + n + skip + k * (n + skip) = ptr + (k + 1 : ℕ) * (n + skip) := by
        intro k
        push_cast
        ring
      by_cases hrow : ptr ≤ i ∧ i < ptr + n
      · have hk : ∃ k < m + 1, ptr + (k : ℕ) * (n + skip : ℤ) ≤ i ∧
            i < ptr + (k : ℕ) * (n + skip : ℤ) + n := ⟨0, by omega, by simpa using hrow⟩
        rw [if_pos hrow, if_pos hk, ite_self]
      · rw [if_neg hrow]
        refine if_congr ⟨?_, ?_⟩ rfl rfl
        · rintro ⟨k, hk, h⟩
          rw [hshift] at h
          exact ⟨k + 1, by omega, h⟩
        · rintro ⟨k, hk, h⟩
          rcases k with _ | k
          · exact absurd (by simpa using h) hrow
          · exact ⟨k, by omega, by rw [hshift]; exact h⟩

/-- Two pixels of lines of width `w` are at the same distance only on the same line. -/
theorem line_eq_of_between {a b x w s t : ℤ} (ha : 0 ≤ a) (hb : b ≤ w) (hx : 0 ≤ x) (hxw : x < w)
    (h₁ : a + t * w ≤ x + s * w) (h₂ : x + s * w < b + t * w) : s = t := by
  rcases lt_trichotomy s t with hlt | heq | hgt
  · nlinarith
  · exact heq
  · nlinarith

/-- **Filling a clipper inside the surface writes exactly its pixels.** -/
theorem pixel_eiFill (surface : Surface) (color : Color) {clipper : Rect}
    (hc : clipper.InWindow surface.size) {p : Point} (hp : p ∈ Rect.ofSize surface.size) :
    (eiFill surface color (some clipper)).pixel p =
      if p ∈ clipper then eiMapRgba surface color else surface.pixel p := by
  obtain ⟨⟨hx, hxw⟩, hy, hyh⟩ := hc
  obtain ⟨⟨hpx, hpw⟩, hpy, hph⟩ := hp
  simp only [Rect.ofSize, zero_add] at hpx hpw hpy hph
  simp only [Surface.pixel, eiFill, fillRows_apply]
  refine if_congr ⟨?_, fun h => ?_⟩ rfl rfl
  · rintro ⟨k, hk, h₁, h₂⟩
    have hw : 0 < clipper.size.width := by omega
    rw [Int.toNat_of_nonneg hw.le] at h₁ h₂
    have hrow : p.y = clipper.topLeft.y + k := by
      refine line_eq_of_between hx hxw hpx hpw ?_ ?_ <;> linarith
    rw [hrow] at h₁ h₂
    refine Rect.mem_iff.mpr ⟨⟨?_, ?_⟩, ?_, ?_⟩
    · linarith
    · linarith
    · omega
    · omega
  · obtain ⟨⟨h₁, h₂⟩, h₃, h₄⟩ := h
    have hrow : ((p.y - clipper.topLeft.y).toNat : ℤ) = p.y - clipper.topLeft.y := by omega
    refine ⟨(p.y - clipper.topLeft.y).toNat, by omega, ?_, ?_⟩ <;>
    · rw [Int.toNat_of_nonneg (by omega : 0 ≤ clipper.size.width), hrow]
      linarith

@[simp] theorem size_eiFill (surface : Surface) (color : Color) (clipper : Option Rect) :
    (eiFill surface color clipper).size = surface.size := rfl

@[simp] theorem channels_eiFill (surface : Surface) (color : Color) (clipper : Option Rect) :
    (eiFill surface color clipper).channels = surface.channels := rfl

/-! ### Polygons -/

/-- What the polygons need from outside the repository: the floating-point calculation of the
points of an arc, angles being counted in eighths of a turn, the pixels that the polygon filler
paints for a list of points, and how it blends a translucent colour. -/
class Raster where
  /-- The number of points of an arc, `point_nb` in `ei_arc_points`. -/
  arcPointNb : (radius : ℤ) → (begAngle endAngle : ℕ) → ℤ
  /-- The point of an arc after so many steps of the angle, `get_point`. -/
  arcPoint : (center : Point) → (radius : ℤ) → (begAngle endAngle : ℕ) → (step : ℕ) → Point
  /-- Whether `ei_draw_polygon` fills a pixel, its clipper aside. -/
  polygonPixel : List Point → Point → Bool
  /-- What `ei_draw_polygon` makes of a pixel that it fills with a colour that is not opaque. -/
  polygonBlend : ChannelIndices → Color → BitVec 32 → BitVec 32

/-- Arcs of radius zero, polygons that are rectangles, and colours that show nothing unless they are
opaque. -/
@[reducible] def sampleRaster : Raster where
  arcPointNb radius begAngle endAngle := radius * (endAngle - begAngle) / 2
  arcPoint center _ _ _ _ := center
  polygonPixel points p := points.any (·.x ≤ p.x) && points.any (p.x < ·.x) &&
    points.any (·.y ≤ p.y) && points.any (p.y < ·.y)
  polygonBlend _ _ pixel := pixel

variable [Raster]

/-- `ei_arc_points`: the points of an arc, the empty list being `NULL`. -/
def eiArcPoints (center : Point) (radius : ℤ) (begAngle endAngle : ℕ) (clockwise : Bool) :
    List Point :=
  if clockwise && endAngle ≤ begAngle then []
  else if !clockwise && endAngle ≥ begAngle then []
  else Raster.arcPoint center radius begAngle endAngle 0 ::
    (List.range ((Raster.arcPointNb radius begAngle endAngle).toNat - 1)).map fun i =>
      Raster.arcPoint center radius begAngle endAngle (i + 1)

/-- `ei_rounded_frame_all`: the outline of a rectangle with rounded corners, `NULL` when the
radius is too large for it. -/
def eiRoundedFrameAll (rect : Rect) (r : ℤ) : List Point :=
  let h := (min rect.size.height rect.size.width).tdiv 2
  if h ≤ r then []
  else
    let x := rect.topLeft.x + r
    let y := rect.topLeft.y + r
    let x' := x + (rect.size.width - 2 * r)
    let y' := y + (rect.size.height - 2 * r)
    eiArcPoints ⟨x, y⟩ r 4 6 true ++ eiArcPoints ⟨x', y⟩ r 6 8 true ++
      eiArcPoints ⟨x', y'⟩ r 0 2 true ++
      eiArcPoints ⟨x' - (rect.size.width - 2 * r), y'⟩ r 2 4 true

/-- What `ei_draw_polygon` makes of a pixel that it fills: an opaque colour replaces it, another one
is blended. -/
def fillPixel (surface : Surface) (color : Color) (pixel : BitVec 32) : BitVec 32 :=
  if color.alpha = 255 then eiMapRgba surface color
  else Raster.polygonBlend surface.channels color pixel

theorem fillPixel_of_alpha_eq (surface : Surface) {color : Color} (h : color.alpha = 255)
    (pixel : BitVec 32) : fillPixel surface color pixel = eiMapRgba surface color := if_pos h

theorem fillPixel_congr {surface surface' : Surface} (h : surface.channels = surface'.channels) :
    fillPixel surface = fillPixel surface' := by
  funext color pixel
  rw [fillPixel, fillPixel, eiMapRgba_congr h, h]

/-- `ei_draw_polygon`: the pixels of the polygon in the clipper and in the surface are filled;
`NULL` draws nothing. -/
def eiDrawPolygon (surface : Surface) (firstPoint : List Point) (color : Color) (clipper : Rect) :
    Surface :=
  let width := surface.size.width
  { surface with
    buffer := fun i =>
      let p : Point := ⟨i % width, i / width⟩
      if firstPoint ≠ [] ∧ Raster.polygonPixel firstPoint p ∧ p ∈ clipper ∧
          p ∈ Rect.ofSize surface.size
      then fillPixel surface color (surface.buffer i) else surface.buffer i }

/-- **The polygon filler writes exactly the pixels of the polygon in the clipper.** -/
theorem pixel_eiDrawPolygon (surface : Surface) (firstPoint : List Point) (color : Color)
    (clipper : Rect) {p : Point} (hp : p ∈ Rect.ofSize surface.size) :
    (eiDrawPolygon surface firstPoint color clipper).pixel p =
      if firstPoint ≠ [] ∧ Raster.polygonPixel firstPoint p ∧ p ∈ clipper then
        fillPixel surface color (surface.pixel p)
      else surface.pixel p := by
  obtain ⟨⟨hpx, hpw⟩, -, -⟩ := id hp
  simp only [Rect.ofSize, zero_add] at hpx hpw
  have hmod : (p.x + p.y * surface.size.width) % surface.size.width = p.x := by
    rw [Int.add_mul_emod_self_right, Int.emod_eq_of_lt hpx hpw]
  have hdiv : (p.x + p.y * surface.size.width) / surface.size.width = p.y := by
    rw [Int.add_mul_ediv_right _ _ (by omega), Int.ediv_eq_zero_of_lt hpx hpw, zero_add]
  simp only [Surface.pixel, eiDrawPolygon, hmod, hdiv, hp, and_true]

@[simp] theorem size_eiDrawPolygon (surface : Surface) (firstPoint : List Point) (color : Color)
    (clipper : Rect) : (eiDrawPolygon surface firstPoint color clipper).size = surface.size := rfl

@[simp] theorem channels_eiDrawPolygon (surface : Surface) (firstPoint : List Point)
    (color : Color) (clipper : Rect) :
    (eiDrawPolygon surface firstPoint color clipper).channels = surface.channels := rfl

end GuiLibrary

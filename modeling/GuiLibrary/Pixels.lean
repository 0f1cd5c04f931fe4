import GuiLibrary.Primitives

/-!
# The pixels that the primitives write

The loops of `ei_fill` and `ei_copy_surface` advance pointers through one or two buffers and skip
what is left of a line after each line of the rectangle. This file says what they do to the pixels
of the surface: which ones are written, and from which pixel of the source. The colours survive the
passage from one order of the channels to another, and the counts of the shifts that take a pixel
apart are those of a machine word unless the source has no alpha channel.

## Main definitions

* `CutClipper`: the clippers of `ei_fill`.
* `shiftCounts`, `OpaqueCopy`.

## Main results

* `pixel_eiFill_cut`: filling.
* `pixel_eiCopySurface`, `pixel_eiDrawText`: copying, and drawing a text.
* `colorOf_eiMapRgba`, `opaqueCopy_iff`: copying without blending.
-/

namespace GuiLibrary

/-! ### Filling -/

/-- What is cut at a rectangle inside the window lies inside the window. -/
theorem inWindow_getEiRectIntersection {r inner : Rect} {window : Size}
    (h : inner.InWindow window) : (getEiRectIntersection r inner).InWindow window := by
  rw [getEiRectIntersection_comm]
  exact inWindow_intersection h r

/-- No clipper, or any rectangle cut at a rectangle inside the surface. -/
def CutClipper (size : Size) (clipper : Option Rect) : Prop :=
  ∀ c, clipper = some c → ∃ rect inner, inner.InWindow size ∧
    (c = getEiRectIntersection rect inner ∨ c = getEiRectIntersection inner rect)

/-- Without a clipper the whole surface is filled. -/
theorem eiFill_none (surface : Surface) (color : Color) :
    eiFill surface color none = eiFill surface color (some (Rect.ofSize surface.size)) := by
  simp only [eiFill, Rect.ofSize, sub_self, zero_mul, add_zero]

/-- **`ei_fill` writes exactly the pixels of its clipper**, whatever the signs of its sides. -/
theorem pixel_eiFill_cut (surface : Surface) (color : Color) {clipper : Option Rect}
    (hclipper : CutClipper surface.size clipper) {p : Point}
    (hp : p ∈ Rect.ofSize surface.size) :
    (eiFill surface color clipper).pixel p =
      if ∀ c, clipper = some c → p ∈ c then eiMapRgba surface color else surface.pixel p := by
  cases clipper with
  | none =>
    rw [eiFill_none, pixel_eiFill surface color (Rect.inWindow_ofSize _) hp, if_pos hp,
      if_pos (by simp)]
  | some c =>
    obtain ⟨rect, inner, hinner, hc⟩ := hclipper c rfl
    have hin : c.InWindow surface.size := by
      rcases hc with rfl | rfl
      · exact inWindow_getEiRectIntersection hinner
      · exact inWindow_intersection hinner rect
    rw [pixel_eiFill surface color hin hp]
    simp only [Option.some.injEq, forall_eq']

/-- A clipper of negative width: no pixel is written. -/
theorem pixel_eiFill_cut_apart :
    (eiFill (sampleSurface ⟨8, 8⟩) eiDefaultBackgroundColor
        (some (getEiRectIntersection ⟨⟨6, 6⟩, ⟨4, 4⟩⟩ ⟨⟨0, 0⟩, ⟨2, 8⟩⟩))).pixel ⟨7, 7⟩ =
      if ∀ c, some (getEiRectIntersection ⟨⟨6, 6⟩, ⟨4, 4⟩⟩ ⟨⟨0, 0⟩, ⟨2, 8⟩⟩) = some c →
          (⟨7, 7⟩ : Point) ∈ c then
        eiMapRgba (sampleSurface ⟨8, 8⟩) eiDefaultBackgroundColor
      else (sampleSurface ⟨8, 8⟩).pixel ⟨7, 7⟩ :=
  pixel_eiFill_cut (sampleSurface ⟨8, 8⟩) eiDefaultBackgroundColor
    (fun c hc => ⟨⟨⟨6, 6⟩, ⟨4, 4⟩⟩, ⟨⟨0, 0⟩, ⟨2, 8⟩⟩, by decide,
      Or.inl (Option.some.inj hc).symm⟩) (by decide)

/-! ### Copying -/

section Copy

variable {pixel : BitVec 32 → BitVec 32 → BitVec 32} {source : ℤ → BitVec 32}

/-- The pixel at the position `x` of the line `k` comes from the pixel at that position of that
line of the source. -/
theorem copyRows_line {n : ℕ} {srcSkip dstSkip : ℤ} (hskip : 0 ≤ dstSkip) {x : ℤ} (hx : 0 ≤ x)
    (hxn : x < n) : (m : ℕ) → (srcPtr dstPtr : ℤ) → (buffer : ℤ → BitVec 32) → (k : ℕ) → k < m →
    copyRows pixel source n srcSkip dstSkip m srcPtr dstPtr buffer
        (dstPtr + k * (n + dstSkip) + x) =
      pixel (source (srcPtr + k * (n + srcSkip) + x)) (buffer (dstPtr + k * (n + dstSkip) + x))
  | 0, _, _, _, _, hk => absurd hk (Nat.not_lt_zero _)
  | m + 1, srcPtr, dstPtr, buffer, 0, _ => by
      -- The lines below come later in the buffer.
      have hlater : dstPtr + x ∉ blockPtrs n dstSkip m (dstPtr + n + dstSkip) := by
        rw [mem_blockPtrs]
        rintro ⟨k, -, h, -⟩
        have hk : (0 : ℤ) ≤ k * (n + dstSkip) := by positivity
        omega
      simp only [Nat.cast_zero, zero_mul, add_zero]
      rw [copyRows, copyRows_of_notMem m _ _ _ hlater, copyRow_apply, if_pos (by omega),
        add_sub_cancel_left]
  | m + 1, srcPtr, dstPtr, buffer, k + 1, hk => by
      have hnext : ∀ ptr skip : ℤ, ptr + (k + 1 : ℕ) * (n + skip) + x =
          ptr + n + skip + k * (n + skip) + x := by
        intro ptr skip
        push_cast
        ring
      have hlater : ¬ dstPtr + n + dstSkip + k * (n + dstSkip) + x < dstPtr + n := by
        have hk : (0 : ℤ) ≤ k * (n + dstSkip) := by positivity
        omega
      rw [copyRows, hnext, hnext, copyRows_line hskip hx hxn m _ _ _ k (by omega), copyRow_apply,
        if_neg fun h => hlater h.2]

end Copy

/-- A missing rectangle stands for the whole surface. -/
theorem eiCopySurface_getD (destination source : Surface) (dstRect srcRect : Option Rect)
    (alpha : Bool) : eiCopySurface destination dstRect source srcRect alpha =
      eiCopySurface destination (some (dstRect.getD (Rect.ofSize destination.size))) source
        (some (srcRect.getD (Rect.ofSize source.size))) alpha := rfl

@[simp] theorem size_eiCopySurface (destination source : Surface) (dstRect srcRect : Option Rect)
    (alpha : Bool) :
    (eiCopySurface destination dstRect source srcRect alpha).2.size = destination.size := by
  simp only [eiCopySurface]
  split_ifs <;> rfl

@[simp] theorem channels_eiCopySurface (destination source : Surface)
    (dstRect srcRect : Option Rect) (alpha : Bool) :
    (eiCopySurface destination dstRect source srcRect alpha).2.channels = destination.channels := by
  simp only [eiCopySurface]
  split_ifs <;> rfl

/-- **A copy of a rectangle moves it without distortion**: a pixel of the destination is combined
with the pixel at the same place of the source. -/
theorem pixel_eiCopySurface (destination source : Surface) (alpha : Bool) {dstRect srcRect : Rect}
    (hdst : dstRect.InWindow destination.size) (hsize : dstRect.size = srcRect.size) {p : Point}
    (hp : p ∈ Rect.ofSize destination.size) :
    (eiCopySurface destination (some dstRect) source (some srcRect) alpha).2.pixel p =
      if p ∈ dstRect then
        copyPixel destination source alpha (source.pixel
          ⟨srcRect.topLeft.x + (p.x - dstRect.topLeft.x),
            srcRect.topLeft.y + (p.y - dstRect.topLeft.y)⟩) (destination.pixel p)
      else destination.pixel p := by
  by_cases hmem : p ∈ dstRect
  · rw [if_pos hmem]
    obtain ⟨⟨h₁, h₂⟩, h₃, h₄⟩ := Rect.mem_iff.mp hmem
    have hw : ((dstRect.size.width.toNat : ℕ) : ℤ) = dstRect.size.width :=
      Int.toNat_of_nonneg (by omega)
    have hskip : 0 ≤ destination.size.width - dstRect.size.width := by
      have := hdst.1
      omega
    have hk : ((p.y - dstRect.topLeft.y).toNat : ℤ) = p.y - dstRect.topLeft.y :=
      Int.toNat_of_nonneg (by omega)
    have hline := @copyRows_line (copyPixel destination source alpha) source.buffer
      dstRect.size.width.toNat (source.size.width - dstRect.size.width) _ hskip
      (p.x - dstRect.topLeft.x) (by omega) (by omega) dstRect.size.height.toNat
      (srcRect.topLeft.x + srcRect.topLeft.y * source.size.width)
      (dstRect.topLeft.x + dstRect.topLeft.y * destination.size.width) destination.buffer
      (p.y - dstRect.topLeft.y).toNat (by omega)
    have hdstPtr : dstRect.topLeft.x + dstRect.topLeft.y * destination.size.width +
        (p.y - dstRect.topLeft.y) * (dstRect.size.width +
          (destination.size.width - dstRect.size.width)) + (p.x - dstRect.topLeft.x) =
        p.x + p.y * destination.size.width := by ring
    have hsrcPtr : srcRect.topLeft.x + srcRect.topLeft.y * source.size.width +
        (p.y - dstRect.topLeft.y) * (dstRect.size.width +
          (source.size.width - dstRect.size.width)) + (p.x - dstRect.topLeft.x) =
        srcRect.topLeft.x + (p.x - dstRect.topLeft.x) +
          (srcRect.topLeft.y + (p.y - dstRect.topLeft.y)) * source.size.width := by ring
    rw [hk, hw, hdstPtr, hsrcPtr] at hline
    simp only [eiCopySurface, Option.getD_some, ← hsize, ne_eq, not_true_eq_false, or_self,
      if_false, Surface.pixel]
    exact hline
  · rw [if_neg hmem]
    have hi : p.index destination.size ∉ rectPtrs destination.size dstRect := fun hi =>
      hmem ((index_mem_rectPtrs hp fun y hy => hdst.mem_ofSize hy).mp hi)
    rw [Surface.pixel, size_eiCopySurface]
    exact buffer_eiCopySurface_of_notMem destination source alpha hi

/-- Copying rectangles of different sizes fails. -/
theorem eiCopySurface_of_ne (destination source : Surface) (alpha : Bool) {dstRect srcRect : Rect}
    (hsize : dstRect.size ≠ srcRect.size) :
    eiCopySurface destination (some dstRect) source (some srcRect) alpha = (1, destination) := by
  have hne : dstRect.size.width ≠ srcRect.size.width ∨
      dstRect.size.height ≠ srcRect.size.height := by
    by_contra h
    rw [not_or, not_not, not_not] at h
    obtain ⟨⟨x, y⟩, ⟨w, h'⟩⟩ := dstRect
    obtain ⟨⟨x', y'⟩, ⟨w', h''⟩⟩ := srcRect
    obtain ⟨rfl, rfl⟩ := h
    exact hsize rfl
  simp only [eiCopySurface, Option.getD_some]
  rw [if_pos hne]

theorem eiCopySurface_fst (destination source : Surface) (alpha : Bool) {dstRect srcRect : Rect}
    (hsize : dstRect.size = srcRect.size) :
    (eiCopySurface destination (some dstRect) source (some srcRect) alpha).1 = 0 := by
  simp only [eiCopySurface, Option.getD_some, hsize, ne_eq, not_true_eq_false, or_self, if_false]

/-! ### Copying without blending -/

section Opaque

/-- The counts of the shifts that take a pixel apart in `ei_copy_surface`. -/
def splitShiftCounts (channels : ChannelIndices) : List ℤ :=
  [8 * channels.ir, 8 * channels.ig, 8 * channels.ib, 8 * channels.ia]

/-- The counts of the shifts in `ei_map_rgba`, which tests for a missing alpha channel. -/
def mapShiftCounts (channels : ChannelIndices) : List ℤ :=
  [8 * channels.ir, 8 * channels.ig, 8 * channels.ib] ++
    if channels.ia = -1 then [] else [8 * channels.ia]

/-- The counts of the shifts that `ei_copy_surface` makes without blending: the same ones for each
pixel of the rectangle, none when the sizes differ. -/
def shiftCounts (destination source : Surface) (dstRect srcRect : Rect) : List ℤ :=
  if dstRect.size ≠ srcRect.size then []
  else (rectPtrs source.size srcRect).flatMap fun _ =>
    splitShiftCounts source.channels ++ mapShiftCounts destination.channels

/-- A pixel of one surface shows the colour of a pixel of another one, with its alpha channel where
both surfaces have one. -/
def SameColor (destination source : Surface) (dstPixel srcPixel : BitVec 32) : Prop :=
  (colorOf destination.channels dstPixel).red = (colorOf source.channels srcPixel).red ∧
    (colorOf destination.channels dstPixel).green = (colorOf source.channels srcPixel).green ∧
    (colorOf destination.channels dstPixel).blue = (colorOf source.channels srcPixel).blue ∧
    (destination.channels.ia ≠ -1 → source.channels.ia ≠ -1 →
      (colorOf destination.channels dstPixel).alpha = (colorOf source.channels srcPixel).alpha)

/-- What is expected of a copy without blending: its result, the shifts that it makes, and the
pixels of the destination after it. -/
structure OpaqueCopy (destination source : Surface) (dstRect srcRect : Rect)
    (result : ℤ × Surface) : Prop where
  failure : dstRect.size ≠ srcRect.size → result = (1, destination)
  success : dstRect.size = srcRect.size → result.1 = 0
  shifts : ∀ k ∈ shiftCounts destination source dstRect srcRect, 0 ≤ k ∧ k ≤ 31
  inside : dstRect.size = srcRect.size → ∀ p ∈ dstRect,
    SameColor destination source (result.2.pixel p) (source.pixel
      ⟨srcRect.topLeft.x + (p.x - dstRect.topLeft.x),
        srcRect.topLeft.y + (p.y - dstRect.topLeft.y)⟩)
  outside : ∀ p ∈ Rect.ofSize destination.size, p ∉ dstRect →
    result.2.pixel p = destination.pixel p

variable {destination source : Surface}

theorem sameColor_copyPixel (srcPixel dstPixel : BitVec 32) :
    SameColor destination source (copyPixel destination source false srcPixel dstPixel)
      srcPixel := by
  obtain ⟨hr, hg, hb, ha⟩ := colorOf_eiMapRgba destination (colorOf source.channels srcPixel)
  exact ⟨hr, hg, hb, fun hne _ => ha hne⟩

/-- The shifts of `ei_map_rgba` are shifts in a word. -/
theorem mapShiftCounts_bounds (channels : ChannelIndices) :
    ∀ k ∈ mapShiftCounts channels, 0 ≤ k ∧ k ≤ 31 := by
  obtain ⟨ir, ig, ib, ia, hr, hg, hb, -, ha⟩ := channels
  intro k hk
  simp only [mapShiftCounts, List.mem_append, List.mem_cons, List.not_mem_nil, or_false] at hk
  split_ifs at hk with hne
  · simp only [List.not_mem_nil, or_false] at hk
    omega
  · simp only [List.mem_singleton] at hk
    omega

/-- The shifts that take a pixel apart are shifts in a word exactly when there is an alpha
channel. -/
theorem splitShiftCounts_bounds_iff (channels : ChannelIndices) :
    (∀ k ∈ splitShiftCounts channels, 0 ≤ k ∧ k ≤ 31) ↔ channels.ia ≠ -1 := by
  obtain ⟨ir, ig, ib, ia, hr, hg, hb, -, ha⟩ := channels
  simp only [splitShiftCounts, List.forall_mem_cons, List.not_mem_nil, false_imp_iff,
    implies_true, and_true]
  omega

/-- The shifts of a copy are shifts in a word exactly when the sizes differ, there is no pixel to
copy, or the source has an alpha channel. -/
theorem shiftCounts_bounds_iff {dstRect srcRect : Rect} :
    (∀ k ∈ shiftCounts destination source dstRect srcRect, 0 ≤ k ∧ k ≤ 31) ↔
      dstRect.size ≠ srcRect.size ∨ (∀ p, p ∉ srcRect) ∨ source.channels.ia ≠ -1 := by
  rw [shiftCounts]
  split_ifs with hsize
  · simp [hsize]
  simp only [hsize, List.mem_flatMap, false_or, List.mem_append]
  constructor
  · intro h
    refine or_iff_not_imp_left.mpr fun hne => ?_
    obtain ⟨p, hp⟩ := not_forall_not.mp hne
    have hi : p.index source.size ∈ rectPtrs source.size srcRect := mem_rectPtrs.mpr ⟨p, hp, rfl⟩
    exact (splitShiftCounts_bounds_iff _).mp fun k hk => h k ⟨_, hi, Or.inl hk⟩
  · rintro (hempty | halpha) k ⟨i, hi, hk⟩
    · obtain ⟨p, hp, -⟩ := mem_rectPtrs.mp hi
      exact absurd hp (hempty p)
    · rcases hk with hk | hk
      · exact (splitShiftCounts_bounds_iff _).mpr halpha k hk
      · exact mapShiftCounts_bounds _ k hk

/-- **A copy without blending does what is expected of it exactly when** the sizes differ, there is
no pixel to copy, or the source has an alpha channel. -/
theorem opaqueCopy_iff {dstRect srcRect : Option Rect}
    (hdst : ∀ r, dstRect = some r → r.InWindow destination.size) :
    OpaqueCopy destination source (dstRect.getD (Rect.ofSize destination.size))
        (srcRect.getD (Rect.ofSize source.size))
        (eiCopySurface destination dstRect source srcRect false) ↔
      (dstRect.getD (Rect.ofSize destination.size)).size ≠
          (srcRect.getD (Rect.ofSize source.size)).size ∨
        (∀ p, p ∉ srcRect.getD (Rect.ofSize source.size)) ∨ source.channels.ia ≠ -1 := by
  have hin : (dstRect.getD (Rect.ofSize destination.size)).InWindow destination.size := by
    cases dstRect with
    | none => exact Rect.inWindow_ofSize _
    | some r => exact hdst r rfl
  rw [eiCopySurface_getD, ← @shiftCounts_bounds_iff destination source]
  refine ⟨OpaqueCopy.shifts, fun hshifts => ?_⟩
  refine ⟨eiCopySurface_of_ne destination source false,
    eiCopySurface_fst destination source false, hshifts, fun hsize p hp => ?_,
    fun p hp hnot => ?_⟩
  · rw [pixel_eiCopySurface destination source false hin hsize (hin.mem_ofSize hp), if_pos hp]
    exact sameColor_copyPixel _ _
  · by_cases hsize : (dstRect.getD (Rect.ofSize destination.size)).size =
        (srcRect.getD (Rect.ofSize source.size)).size
    · rw [pixel_eiCopySurface destination source false hin hsize hp, if_neg hnot]
    · rw [eiCopySurface_of_ne destination source false hsize]

/-- A black surface of the given size, with an alpha channel. -/
def sampleAlphaSurface (size : Size) : Surface where
  size := size
  channels :=
    { ir := 2
      ig := 1
      ib := 0
      ia := 3
      ir_mem := (sampleSurface size).channels.ib_mem
      ig_mem := (sampleSurface size).channels.ig_mem
      ib_mem := (sampleSurface size).channels.ir_mem
      rgb_ne := by decide
      ia_mem := by decide }
  buffer := fun _ => 0

/-- From a surface with an alpha channel to a surface without one. -/
theorem opaqueCopy_iff_sample :
    OpaqueCopy (sampleSurface ⟨4, 4⟩) (sampleAlphaSurface ⟨2, 2⟩) ⟨⟨1, 1⟩, ⟨2, 2⟩⟩
        (Rect.ofSize ⟨2, 2⟩) (eiCopySurface (sampleSurface ⟨4, 4⟩) (some ⟨⟨1, 1⟩, ⟨2, 2⟩⟩)
          (sampleAlphaSurface ⟨2, 2⟩) none false) :=
  (@opaqueCopy_iff (sampleSurface ⟨4, 4⟩) (sampleAlphaSurface ⟨2, 2⟩) (some ⟨⟨1, 1⟩, ⟨2, 2⟩⟩) none
    fun r hr => Option.some.inj hr ▸ by decide).mpr (Or.inr (Or.inr (by decide)))

/-- Copying one pixel of a surface without an alpha channel shifts it by a negative count. -/
theorem not_opaqueCopy_sample :
    ¬ OpaqueCopy (sampleSurface ⟨1, 1⟩) (sampleSurface ⟨1, 1⟩) (Rect.ofSize ⟨1, 1⟩)
      (Rect.ofSize ⟨1, 1⟩)
      (eiCopySurface (sampleSurface ⟨1, 1⟩) none (sampleSurface ⟨1, 1⟩) none false) := by
  intro h
  have hmem : -8 ∈ shiftCounts (sampleSurface ⟨1, 1⟩) (sampleSurface ⟨1, 1⟩) (Rect.ofSize ⟨1, 1⟩)
      (Rect.ofSize ⟨1, 1⟩) := by decide
  exact absurd (h.shifts (-8) hmem).1 (by decide)

end Opaque

/-! ### Texts -/

section Text

variable [Raster] [TextRendering]

/-- **A text is clipped without being shifted**: the pixels of the clipper that lie in the text
are blended with the pixels of the text at the same places. -/
theorem pixel_eiDrawText (surface : Surface) (whereAt : Point) (text : Text) (font : Font)
    (color : Color) {clipper : Rect} (hclipper : clipper.InWindow surface.size) {p : Point}
    (hp : p ∈ Rect.ofSize surface.size) :
    ((eiDrawText whereAt text font color clipper).run surface).pixel p =
      if p ∈ clipper ∧
          p ∈ (⟨whereAt, (TextRendering.hwTextCreateSurface text font color).size⟩ : Rect) then
        copyPixel surface (TextRendering.hwTextCreateSurface text font color) true
          ((TextRendering.hwTextCreateSurface text font color).pixel
            ⟨p.x - whereAt.x, p.y - whereAt.y⟩) (surface.pixel p)
      else surface.pixel p := by
  set txtSurface := TextRendering.hwTextCreateSurface text font color
  set dstRect := getEiRectIntersection ⟨whereAt, txtSurface.size⟩ clipper with hdstRect
  have hdst : dstRect.InWindow surface.size := inWindow_getEiRectIntersection hclipper
  -- The corner of the intersection is not above or to the left of the corner of the text.
  have hx : max 0 (dstRect.topLeft.x - whereAt.x) = dstRect.topLeft.x - whereAt.x := by
    simp only [hdstRect, getEiRectIntersection]
    omega
  have hy : max 0 (dstRect.topLeft.y - whereAt.y) = dstRect.topLeft.y - whereAt.y := by
    simp only [hdstRect, getEiRectIntersection]
    omega
  have hrun : (eiDrawText whereAt text font color clipper).run surface =
      (eiCopySurface surface (some dstRect) txtSurface (some ⟨⟨dstRect.topLeft.x - whereAt.x,
        dstRect.topLeft.y - whereAt.y⟩, dstRect.size⟩) true).2 := by
    rw [← hx, ← hy]
    rfl
  have hplace : ∀ a b c : ℤ, a - b + (c - a) = c - b := fun a b c => by ring
  rw [hrun, pixel_eiCopySurface surface txtSurface true hdst (by rfl) hp]
  simp only [hplace]
  refine if_congr ?_ rfl rfl
  rw [hdstRect, mem_getEiRectIntersection, and_comm]

end Text

section Sample

attribute [local instance] sampleRaster

/-- Texts are black, eight pixels for each character. -/
@[reducible] def sampleTextWithAlpha : TextRendering where
  hwTextCreateSurface text _ _ := sampleAlphaSurface ⟨8 * text.length, 16⟩

attribute [local instance] sampleTextWithAlpha

/-- A text that leaves the clipper on the left. -/
theorem pixel_eiDrawText_sample :
    ((eiDrawText ⟨-5, 2⟩ [65, 66] 0 eiFontDefaultColor ⟨⟨0, 0⟩, ⟨20, 10⟩⟩).run
        (sampleSurface ⟨32, 32⟩)).pixel ⟨3, 4⟩ =
      if (⟨3, 4⟩ : Point) ∈ (⟨⟨0, 0⟩, ⟨20, 10⟩⟩ : Rect) ∧
          (⟨3, 4⟩ : Point) ∈ (⟨⟨-5, 2⟩, ⟨16, 16⟩⟩ : Rect) then
        copyPixel (sampleSurface ⟨32, 32⟩) (sampleAlphaSurface ⟨16, 16⟩) true
          ((sampleAlphaSurface ⟨16, 16⟩).pixel ⟨3 - -5, 4 - 2⟩)
          ((sampleSurface ⟨32, 32⟩).pixel ⟨3, 4⟩)
      else (sampleSurface ⟨32, 32⟩).pixel ⟨3, 4⟩ :=
  @pixel_eiDrawText _ _ (sampleSurface ⟨32, 32⟩) ⟨-5, 2⟩ [65, 66] 0 eiFontDefaultColor
    ⟨⟨0, 0⟩, ⟨20, 10⟩⟩ (by decide) _ (by decide)

end Sample

end GuiLibrary

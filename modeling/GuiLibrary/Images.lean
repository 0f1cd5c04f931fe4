import GuiLibrary.Confinement
import GuiLibrary.Pixels

/-!
# The pixels of an image

An image is drawn by one copy: its anchored rectangle is cut at a clipper, and a rectangle of the
same size is taken from the image. The corner of the latter is always the corner of the part that
is shown, so a clipper that cuts the image on the left or at the top shifts it. Without a border
the clipper is the location of the widget, whatever clipper the drawing function is given.

A copy is described by the addresses that it reads and writes. This tells where the pixels come
from, which two surfaces that happen to look alike do not.

## Main definitions

* `copiedPtrs`: the addresses of a copy.
* `imageClip`, `ImageClipped`: an image that is clipped without being shifted.

## Main results

* `mem_copiedPtrs`.
* `imageClipped_iff`.
-/

namespace GuiLibrary

/-! ### The addresses of a copy -/

/-- The addresses that `ei_copy_surface` reads and writes, in this order. -/
def copiedPtrs (destination source : Surface) (dstRect srcRect : Rect) : List (ℤ × ℤ) :=
  if dstRect.size = srcRect.size then
    (rectPtrs source.size srcRect).zip (rectPtrs destination.size dstRect)
  else []

/-- The position that lies in relation to `target` as `p` does to `origin`. -/
def Point.moved (p origin target : Point) : Point :=
  ⟨target.x + (p.x - origin.x), target.y + (p.y - origin.y)⟩

theorem Point.origin_moved (origin target : Point) : origin.moved origin target = target := by
  simp only [Point.moved, sub_self, add_zero]

theorem Point.moved_inj {p q origin target : Point}
    (h : p.moved origin target = q.moved origin target) : p = q := by
  obtain ⟨px, py⟩ := p
  obtain ⟨qx, qy⟩ := q
  simp only [Point.moved, Point.mk.injEq] at h ⊢
  omega

/-- Two blocks of the same shape: the positions are the same in both. -/
theorem mem_zip_blockPtrs {n : ℕ} {srcSkip dstSkip j i : ℤ} : (m : ℕ) → (srcPtr dstPtr : ℤ) →
    ((j, i) ∈ (blockPtrs n srcSkip m srcPtr).zip (blockPtrs n dstSkip m dstPtr) ↔
      ∃ k < m, ∃ x < n, j = srcPtr + k * (n + srcSkip) + x ∧ i = dstPtr + k * (n + dstSkip) + x)
  | 0, _, _ => by simp [blockPtrs]
  | m + 1, srcPtr, dstPtr => by
      have hnext : ∀ (ptr skip : ℤ) (k x : ℕ), ptr + n + skip + k * (n + skip) + x =
          ptr + (k + 1 : ℕ) * (n + skip) + x := by
        intro ptr skip k x
        push_cast
        ring
      rw [blockPtrs, blockPtrs, List.zip_append (by simp), List.mem_append, List.zip_map',
        List.mem_map, mem_zip_blockPtrs m]
      simp only [hnext]
      constructor
      · rintro (⟨x, hx, h⟩ | ⟨k, hk, x, hx, h⟩)
        · obtain ⟨rfl, rfl⟩ := Prod.mk.inj h
          exact ⟨0, by omega, x, List.mem_range.mp hx, by simp, by simp⟩
        · exact ⟨k + 1, by omega, x, hx, h⟩
      · rintro ⟨k, hk, x, hx, h⟩
        rcases k with _ | k
        · refine Or.inl ⟨x, List.mem_range.mpr hx, ?_⟩
          rw [h.1, h.2]
          simp
        · exact Or.inr ⟨k, by omega, x, hx, h⟩

/-- **A copy reads, for each pixel of the one rectangle, the pixel at the same place of the
other.** -/
theorem mem_copiedPtrs {destination source : Surface} {dstRect srcRect : Rect}
    (hsize : dstRect.size = srcRect.size) {j i : ℤ} :
    (j, i) ∈ copiedPtrs destination source dstRect srcRect ↔
      ∃ p ∈ dstRect, j = (p.moved dstRect.topLeft srcRect.topLeft).index source.size ∧
        i = p.index destination.size := by
  rw [copiedPtrs, if_pos hsize, rectPtrs, rectPtrs, ← hsize, mem_zip_blockPtrs]
  simp only [Point.index, Point.moved, Rect.mem_iff]
  constructor
  · rintro ⟨k, hk, x, hx, rfl, rfl⟩
    refine ⟨⟨dstRect.topLeft.x + x, dstRect.topLeft.y + k⟩, ⟨⟨?_, ?_⟩, ?_, ?_⟩, ?_, ?_⟩
    · exact Int.le_add_of_nonneg_right (Int.natCast_nonneg x)
    · exact Int.add_lt_add_left (by omega) _
    · exact Int.le_add_of_nonneg_right (Int.natCast_nonneg k)
    · exact Int.add_lt_add_left (by omega) _
    all_goals
      rw [Int.toNat_of_nonneg (by omega : 0 ≤ dstRect.size.width)]
      ring
  · rintro ⟨p, ⟨⟨h₁, h₂⟩, h₃, h₄⟩, rfl, rfl⟩
    have hrow : ((p.y - dstRect.topLeft.y).toNat : ℤ) = p.y - dstRect.topLeft.y := by omega
    have hcol : ((p.x - dstRect.topLeft.x).toNat : ℤ) = p.x - dstRect.topLeft.x := by omega
    refine ⟨(p.y - dstRect.topLeft.y).toNat, by omega, (p.x - dstRect.topLeft.x).toNat, by omega,
      ?_, ?_⟩
    all_goals
      rw [Int.toNat_of_nonneg (by omega : 0 ≤ dstRect.size.width), hrow, hcol]
      ring

theorem mem_copiedPtrs_size {destination source : Surface} (dstRect : Rect) (corner : Point)
    {j i : ℤ} : (j, i) ∈ copiedPtrs destination source dstRect ⟨corner, dstRect.size⟩ ↔
      ∃ p ∈ dstRect, j = (p.moved dstRect.topLeft corner).index source.size ∧
        i = p.index destination.size :=
  @mem_copiedPtrs _ _ dstRect ⟨corner, dstRect.size⟩ rfl _ _

/-! ### The part of a rectangle that is cut out -/

section Cut

variable {area cut : Rect}

/-- A cut that keeps the corner of the rectangle keeps it as the corner. -/
theorem topLeft_of_mem (h : area.topLeft ∈ cut) :
    (getEiRectIntersection area cut).topLeft = area.topLeft := by
  obtain ⟨⟨h₁, -⟩, h₂, -⟩ := h
  simp only [getEiRectIntersection, max_eq_left h₁, max_eq_left h₂]

theorem topLeft_mem {r : Rect} {p : Point} (h : p ∈ r) : r.topLeft ∈ r := by
  obtain ⟨⟨h₁, h₂⟩, h₃, h₄⟩ := h
  exact Rect.mem_iff.mpr ⟨⟨le_refl _, by omega⟩, le_refl _, by omega⟩

/-- The address of the corner of a part is that of the corner of the rectangle only if the two are
the same. -/
theorem topLeft_eq_of_index {window : Size} (hwindow : 0 < window.width)
    (h : (getEiRectIntersection area cut).topLeft.index window = area.topLeft.index window) :
    (getEiRectIntersection area cut).topLeft = area.topLeft := by
  obtain ⟨⟨x, y⟩, size⟩ := area
  simp only [getEiRectIntersection, Point.index, Point.mk.injEq] at h ⊢
  have hx : x ≤ max x cut.topLeft.x := le_max_left _ _
  have hy : y ≤ max y cut.topLeft.y := le_max_left _ _
  have hrow : max y cut.topLeft.y = y := by nlinarith
  rw [hrow] at h ⊢
  exact ⟨by omega, rfl⟩

end Cut

/-- **When a cut shows the right part.** The part of a rectangle of an image that one clipper cuts
out, read from the corner `corner` of the image on, is the part that another clipper should cut
out, read at the same places, exactly when the two have the same pixels of the rectangle, and either
none of them or the one in the corner. -/
theorem cut_iff {window image : Size} {area cut clip : Rect} {corner : Point}
    (hclip : ∀ p ∈ clip, p ∈ Rect.ofSize window)
    (himage : ∀ p ∈ area, p.moved area.topLeft corner ∈ Rect.ofSize image) :
    (∀ j i : ℤ, (∃ p ∈ getEiRectIntersection area cut,
        j = (p.moved (getEiRectIntersection area cut).topLeft corner).index image ∧
          i = p.index window) ↔
      ∃ p ∈ area, p ∈ clip ∧ j = (p.moved area.topLeft corner).index image ∧
        i = p.index window) ↔
      (∀ p ∈ area, p ∈ cut ↔ p ∈ clip) ∧ ((∀ p ∈ area, p ∉ cut) ∨ area.topLeft ∈ cut) := by
  have hinj : ∀ p ∈ area, ∀ q ∈ area, (p.moved area.topLeft corner).index image =
      (q.moved area.topLeft corner).index image → p = q := fun p hp q hq h =>
    Point.moved_inj (index_inj (himage p hp) (himage q hq) h)
  constructor
  · intro h
    by_cases hempty : ∀ p ∈ area, p ∉ cut
    · refine ⟨fun p hp => ⟨fun hcut => absurd hcut (hempty p hp), fun hpclip => ?_⟩, Or.inl hempty⟩
      obtain ⟨q, hq, -⟩ := (h _ _).mpr ⟨p, hp, hpclip, rfl, rfl⟩
      obtain ⟨hq, hqcut⟩ := mem_getEiRectIntersection.mp hq
      exact absurd hqcut (hempty q hq)
    -- The first pixel that is shown is that of the corner of the image.
    · obtain ⟨p, hp⟩ := not_forall.mp hempty
      obtain ⟨hp, hcut⟩ := Classical.not_imp.mp hp
      have hcorner := topLeft_mem (mem_getEiRectIntersection.mpr ⟨hp, not_not.mp hcut⟩)
      have harea := topLeft_mem hp
      obtain ⟨q, hq, hqclip, hsrc, hdst⟩ := (h _ _).mp ⟨_, hcorner, rfl, rfl⟩
      have hq' : area.topLeft = q := by
        refine hinj _ harea _ hq ?_
        rw [← hsrc, Point.origin_moved, Point.origin_moved]
      subst hq'
      have hwidth : 0 < window.width := by
        have := hclip _ hqclip
        simp only [Rect.mem_iff, Rect.ofSize] at this
        omega
      have htop := topLeft_eq_of_index hwidth hdst
      rw [htop] at h hcorner
      refine ⟨fun p hp => ⟨fun hpcut => ?_, fun hpclip => ?_⟩,
        Or.inr (mem_getEiRectIntersection.mp hcorner).2⟩
      · obtain ⟨q, hq, hqclip, hsrc, -⟩ :=
          (h _ _).mp ⟨p, mem_getEiRectIntersection.mpr ⟨hp, hpcut⟩, rfl, rfl⟩
        exact hinj p hp q hq hsrc ▸ hqclip
      · obtain ⟨q, hq, hsrc, -⟩ := (h _ _).mpr ⟨p, hp, hpclip, rfl, rfl⟩
        obtain ⟨hq, hqcut⟩ := mem_getEiRectIntersection.mp hq
        exact hinj p hp q hq hsrc ▸ hqcut
  · rintro ⟨hsame, hshown⟩ j i
    rcases hshown with hempty | hcorner
    · constructor
      · rintro ⟨p, hp, -⟩
        obtain ⟨hp, hcut⟩ := mem_getEiRectIntersection.mp hp
        exact absurd hcut (hempty p hp)
      · rintro ⟨p, hp, hpclip, -⟩
        exact absurd ((hsame p hp).mpr hpclip) (hempty p hp)
    · rw [topLeft_of_mem hcorner]
      simp only [mem_getEiRectIntersection, and_assoc]
      exact exists_congr fun p => and_congr_right fun hp => and_congr_left fun _ => hsame p hp

/-! ### The image of a frame or of a button -/

/-- The rectangle of an image, where its anchor puts it. -/
def imageArea (w : Widget) (a : FrameAttrs) (img : Surface) : Rect :=
  ⟨anchorPoint a.imgAnchor w.content (shownSize img a.imgRect), shownSize img a.imgRect⟩

/-- The corner of the part of an image that is shown. -/
def imageCorner (a : FrameAttrs) : Point := a.imgRect.elim ⟨0, 0⟩ Rect.topLeft

/-- The clipper of an image: it shows in the content area, or in the whole location of the widget
when there is no border. -/
def imageClip (w : Widget) (a : FrameAttrs) (clipper : Rect) : Rect :=
  getEiRectIntersection clipper (if a.borderWidth ≠ 0 then w.content else w.screenLocation)

/-- An image that is clipped without being shifted: the last call of the drawing is one copy of the
image, which writes exactly the pixels of the area that lie in the clipper, each from the pixel at
the same place of the image. -/
def ImageClipped (surface : Surface) (d : Drawing) (img : Surface) (corner : Point)
    (area clip : Rect) : Prop :=
  ∃ dstRect srcRect, d.surface.getLast? = some (.copy dstRect img srcRect false) ∧
    ∀ j i : ℤ, (j, i) ∈ copiedPtrs surface img dstRect srcRect ↔
      ∃ p ∈ area, p ∈ clip ∧ j = (p.moved area.topLeft corner).index img.size ∧
        i = p.index surface.size

section Part

variable {w : Widget} {K : Rect} {a : FrameAttrs} {img : Surface}

/-- The part of the image that is shown lies in the image. -/
theorem moved_mem_image (hrect : ∀ r, a.imgRect = some r → r.InWindow img.size) {q : Point}
    (hq : q ∈ imageArea w a img) :
    q.moved (imageArea w a img).topLeft (imageCorner a) ∈ Rect.ofSize img.size := by
  cases hr : a.imgRect with
  | none =>
    simp only [Rect.mem_iff, imageArea, imageCorner, shownSize, hr, Option.elim_none, Point.moved,
      Rect.ofSize] at hq ⊢
    omega
  | some r =>
    have hin := hrect r hr
    simp only [Rect.mem_iff, imageArea, imageCorner, shownSize, hr, Option.elim_some, Point.moved,
      Rect.ofSize, Rect.InWindow] at hq hin ⊢
    omega

/-- The code and the clipper of the image agree on the pixels in the clipper of the drawing. -/
theorem mem_finalClipper_iff {q : Point} :
    (q ∈ finalClipper w a K ↔ q ∈ imageClip w a K) ↔ (q ∈ finalClipper w a K → q ∈ K) := by
  rw [finalClipper, imageClip]
  split_ifs with hb <;> simp only [mem_getEiRectIntersection] <;> tauto

end Part

section Classes

variable [Hardware] [Raster] [TextRendering] {s : AppState} {p : Ptr} {w : Widget} {K : Rect}
  {d : Drawing} {a : FrameAttrs} {img : Surface}

/-- The label is drawn last. -/
theorem surface_drawing (hd : drawing s p w K = some d) (ha : w.attrs.labelled = some a) :
    ∃ body, d.surface = body ++ drawLabel s p w a (finalClipper w a K) := by
  cases hattrs : w.attrs with
  | frame b =>
    rw [hattrs, Attrs.labelled, Option.some.injEq] at ha
    rw [drawing, hattrs, Option.some.injEq] at hd
    subst ha hd
    exact ⟨_, rfl⟩
  | button b =>
    rw [hattrs, Attrs.labelled, Option.some.injEq] at ha
    simp only [drawing, hattrs, Option.bind_eq_bind, Option.bind_eq_some_iff,
      Option.some.injEq] at hd
    obtain ⟨borderClipper, -, hd⟩ := hd
    subst ha hd
    exact ⟨_, rfl⟩
  | toplevel b => simp [hattrs, Attrs.labelled] at ha

/-- The last call of a drawing that shows an image. -/
theorem getLast_surface_drawing (hd : drawing s p w K = some d) (ha : w.attrs.labelled = some a)
    (htext : a.text = none) (himg : a.img = some img)
    (hpressed : ¬ (s.buttonPressed = some p ∧ s.pressingOver = true)) :
    d.surface.getLast? =
      some (.copy (getEiRectIntersection (imageArea w a img) (finalClipper w a K)) img
        ⟨imageCorner a, (getEiRectIntersection (imageArea w a img) (finalClipper w a K)).size⟩
        false) := by
  obtain ⟨body, hbody⟩ := surface_drawing hd ha
  have hcorner : (a.imgRect.map Rect.topLeft).getD ⟨0, 0⟩ = imageCorner a := by
    cases hrect : a.imgRect <;> simp [imageCorner, hrect]
  simp only [hbody, drawLabel, htext, himg, labelPoint, if_neg hpressed, hcorner,
    List.getLast?_append, List.getLast?_singleton, Option.some_or]
  rfl

/-- **When an image is clipped without being shifted.** The clipper that the code uses,
`final_clipper`, has no pixel of the image's area outside the clipper of the drawing, and it has
either no pixel of this area or the one in its corner. -/
theorem imageClipped_iff (hd : drawing s p w K = some d) (ha : w.attrs.labelled = some a)
    (htext : a.text = none) (himg : a.img = some img)
    (hrect : ∀ r, a.imgRect = some r → r.InWindow img.size)
    (hpressed : ¬ (s.buttonPressed = some p ∧ s.pressingOver = true))
    (hK : K.InWindow s.rootSurface.size) :
    ImageClipped s.rootSurface d img (imageCorner a) (imageArea w a img) (imageClip w a K) ↔
      (∀ q ∈ imageArea w a img, q ∈ finalClipper w a K → q ∈ K) ∧
        ((∀ q ∈ imageArea w a img, q ∉ finalClipper w a K) ∨
          (imageArea w a img).topLeft ∈ finalClipper w a K) := by
  have hclip : ∀ q ∈ imageClip w a K, q ∈ Rect.ofSize s.rootSurface.size := fun q hq =>
    hK.mem_ofSize (mem_getEiRectIntersection.mp hq).1
  have himage : ∀ q ∈ imageArea w a img, q.moved (imageArea w a img).topLeft (imageCorner a) ∈
      Rect.ofSize img.size := fun q hq => moved_mem_image hrect hq
  have hcut := @cut_iff _ _ _ (finalClipper w a K) _ _ hclip himage
  simp only [mem_finalClipper_iff] at hcut
  rw [← hcut, ImageClipped, getLast_surface_drawing hd ha htext himg hpressed]
  constructor
  · rintro ⟨dstRect, srcRect, hlast, h⟩ j i
    simp only [Option.some.injEq, Primitive.copy.injEq, true_and, and_true] at hlast
    obtain ⟨rfl, rfl⟩ := hlast
    rw [← h]
    exact (mem_copiedPtrs_size _ _).symm
  · intro h
    exact ⟨_, _, rfl, fun j i => (mem_copiedPtrs_size _ _).trans (h j i)⟩

end Classes

section Sample

attribute [local instance] sampleHardware sampleRaster sampleTextRendering

/-- The image of `imageArgs`, in a frame at (10, 20). -/
structure ShowsImage (s : AppState) (w : Widget) (a : FrameAttrs) (img : Surface) : Prop where
  widget : s.widgets 1 = some w
  attrs : w.attrs = .frame a
  text : a.text = none
  shown : a.img = some img
  imgRect : a.imgRect = none
  area : imageArea w a img = ⟨⟨10, 20⟩, ⟨2, 2⟩⟩
  content : w.content = ⟨⟨10, 20⟩, ⟨100, 50⟩⟩
  screenLocation : w.screenLocation = ⟨⟨10, 20⟩, ⟨100, 50⟩⟩

/-- Whether the first widget shows the image, as a computation. -/
def showsImage (s : AppState) (borderWidth : ℤ) : Option Bool := do
  let w ← s.widgets 1
  match w.attrs with
  | .frame a =>
      let img ← a.img
      some (decide (a.text = none ∧ a.imgRect = none ∧ a.borderWidth = borderWidth ∧
        imageArea w a img = ⟨⟨10, 20⟩, ⟨2, 2⟩⟩ ∧ w.content = ⟨⟨10, 20⟩, ⟨100, 50⟩⟩ ∧
        w.screenLocation = ⟨⟨10, 20⟩, ⟨100, 50⟩⟩))
  | .button _ | .toplevel _ => none

theorem exists_showsImage {s : AppState} {borderWidth : ℤ}
    (h : showsImage s borderWidth = some true) :
    ∃ w a img, ShowsImage s w a img ∧ a.borderWidth = borderWidth := by
  simp only [showsImage, Option.bind_eq_bind, Option.bind_eq_some_iff] at h
  obtain ⟨w, hw, h⟩ := h
  split at h
  · next a ha =>
    obtain ⟨img, himg, h⟩ := Option.bind_eq_some_iff.mp h
    rw [Option.some.injEq, decide_eq_true_eq] at h
    obtain ⟨htext, hrect, hborder, harea, hcontent, hloc⟩ := h
    exact ⟨w, a, img, ⟨hw, ha, htext, himg, hrect, harea, hcontent, hloc⟩, hborder⟩
  · simp at h
  · simp at h

/-- Drawn in the whole window, the image of the placed frame is shown whole. -/
theorem imageClipped_iff_whole : ∃ w a img d, sampleImage.widgets 1 = some w ∧
    drawing sampleImage 1 w (Rect.ofSize ⟨640, 480⟩) = some d ∧
    ImageClipped sampleImage.rootSurface d img (imageCorner a) (imageArea w a img)
      (imageClip w a (Rect.ofSize ⟨640, 480⟩)) := by
  obtain ⟨w, a, img, h, hb⟩ := @exists_showsImage sampleImage 0 (by with_unfolding_all rfl)
  have hd : drawing sampleImage 1 w (Rect.ofSize ⟨640, 480⟩) = some (drawframebuttonclasses
      sampleImage 1 w a 0 (Rect.ofSize ⟨640, 480⟩) (Rect.ofSize ⟨640, 480⟩)) := by
    rw [drawing, h.attrs]
  have hfinal : finalClipper w a (Rect.ofSize ⟨640, 480⟩) = ⟨⟨10, 20⟩, ⟨100, 50⟩⟩ := by
    rw [finalClipper, if_neg (not_not.mpr hb), h.screenLocation]
  refine ⟨w, a, img, _, h.widget, hd, (imageClipped_iff hd (by rw [h.attrs]; rfl) h.text h.shown
    (by simp [h.imgRect]) (by decide +kernel) ?_).mpr ?_⟩
  · rw [sampleImage_displayed.rootSurface]
    decide
  · rw [hfinal, h.area]
    refine ⟨fun q hq _ => ?_, Or.inr (by decide)⟩
    simp only [Rect.mem_iff, Rect.ofSize] at hq ⊢
    omega

theorem isSome_eiFrameConfigure_framedImage :
    (eiFrameConfigure samplePlaced 1 { imageArgs with borderWidth := some 1 }).isSome := by
  with_unfolding_all rfl

/-- The placed frame shows the image, with a border of one pixel. -/
def sampleFramedImage : AppState :=
  (eiFrameConfigure samplePlaced 1 { imageArgs with borderWidth := some 1 }).get
    isSome_eiFrameConfigure_framedImage

/-- A clipper that cuts the image on the left: the column that is left shows the first column of the
image. -/
theorem not_imageClipped_left : ∃ w a img d, sampleFramedImage.widgets 1 = some w ∧
    w.attrs = .frame a ∧ a.text = none ∧ a.img = some img ∧ a.imgRect = none ∧
    sampleFramedImage.buttonPressed = none ∧
    (⟨⟨11, 20⟩, ⟨50, 50⟩⟩ : Rect).InWindow sampleFramedImage.rootSurface.size ∧
    drawing sampleFramedImage 1 w ⟨⟨11, 20⟩, ⟨50, 50⟩⟩ = some d ∧
    ¬ ImageClipped sampleFramedImage.rootSurface d img (imageCorner a) (imageArea w a img)
      (imageClip w a ⟨⟨11, 20⟩, ⟨50, 50⟩⟩) := by
  obtain ⟨w, a, img, h, hb⟩ := @exists_showsImage sampleFramedImage 1 (by with_unfolding_all rfl)
  have hpressed : sampleFramedImage.buttonPressed = none := by with_unfolding_all rfl
  have hd : drawing sampleFramedImage 1 w ⟨⟨11, 20⟩, ⟨50, 50⟩⟩ = some (drawframebuttonclasses
      sampleFramedImage 1 w a 0 ⟨⟨11, 20⟩, ⟨50, 50⟩⟩ ⟨⟨11, 20⟩, ⟨50, 50⟩⟩) := by
    rw [drawing, h.attrs]
  have hfinal : finalClipper w a ⟨⟨11, 20⟩, ⟨50, 50⟩⟩ = ⟨⟨11, 20⟩, ⟨50, 50⟩⟩ := by
    rw [finalClipper, if_pos (by rw [hb]; decide), h.content]
    rfl
  refine ⟨w, a, img, _, h.widget, h.attrs, h.text, h.shown, h.imgRect, hpressed,
    by decide +kernel, hd, ?_⟩
  rintro ⟨dstRect, srcRect, hlast, hptrs⟩
  rw [getLast_surface_drawing hd (by rw [h.attrs]; rfl) h.text h.shown (by simp [hpressed]), hfinal,
    h.area] at hlast
  simp only [Option.some.injEq, Primitive.copy.injEq, true_and, and_true] at hlast
  obtain ⟨rfl, rfl⟩ := hlast
  -- The pixel (11, 20) is taken from the pixel (0, 0) of the image.
  have hin : (⟨⟨10, 20⟩, ⟨2, 2⟩⟩ : Rect).InWindow sampleFramedImage.rootSurface.size := by
    decide +kernel
  obtain ⟨q, hq, -, hsrc, hdst⟩ := (hptrs _ _).mp ((mem_copiedPtrs_size _ _).mpr
    ⟨⟨11, 20⟩, by decide, rfl, rfl⟩)
  obtain rfl := index_inj (hin.mem_ofSize (by decide)) (hin.mem_ofSize (h.area ▸ hq)) hdst
  rw [h.area] at hsrc
  simp only [Point.moved, Point.index, getEiRectIntersection, max_self, sub_self, add_zero,
    add_left_inj] at hsrc
  omega

end Sample

end GuiLibrary

import GuiLibrary.Confinement

/-!
# Pixel accesses inside the surfaces

The loops over pixels check no bounds, so a redraw is safe only if the rectangles that it computes
are. The addresses of a rectangle all lie in a surface exactly when those of its four corners do.
What a drawing function passes on from its clipper lies in the surface; what it does not cut at its
clipper may not: the content area that replaces the clipper of a quit button, the location of a
widget without border, where its label is cut, and the part of an image that is read.

## Main definitions

* `InBuffer`, `CornersIn`, `Primitive.InBounds`, `Drawing.InBounds`.
* `SafeDrawing`: the condition on one drawing.
* `Redraws`: the calls of a redraw with one clipper.

## Main results

* `forall_inBuffer_iff`, `drawing_inBounds_iff`.
* `redraw_inBounds_iff`.
-/

namespace GuiLibrary

open Cells

/-! ### Addresses -/

/-- The address of a pixel of the buffer of a surface. -/
def InBuffer (size : Size) (i : ℤ) : Prop := 0 ≤ i ∧ i < size.width * size.height

/-- The rectangle has no pixel. -/
def Rect.Empty (r : Rect) : Prop := r.size.width ≤ 0 ∨ r.size.height ≤ 0

instance (r : Rect) : Decidable r.Empty := inferInstanceAs (Decidable (_ ∨ _))

theorem Rect.empty_iff {r : Rect} : r.Empty ↔ ∀ x, x ∉ r := by
  constructor
  · intro h x hx
    simp only [Rect.Empty, Rect.mem_iff] at *
    omega
  · intro h
    have := h r.topLeft
    simp only [Rect.Empty, Rect.mem_iff] at *
    omega

/-- The pixels in the corners of a rectangle. -/
def Rect.corners (r : Rect) : List Point :=
  let right := r.topLeft.x + r.size.width - 1
  let bottom := r.topLeft.y + r.size.height - 1
  [r.topLeft, ⟨right, r.topLeft.y⟩, ⟨r.topLeft.x, bottom⟩, ⟨right, bottom⟩]

/-- The rectangle has no pixel, or the addresses of its corners lie in the surface. -/
def CornersIn (size : Size) (r : Rect) : Prop :=
  r.Empty ∨ ∀ corner ∈ r.corners, InBuffer size (corner.index size)

theorem inBuffer_index {size : Size} {x : Point} (hx : x ∈ Rect.ofSize size) :
    InBuffer size (x.index size) := by
  obtain ⟨⟨h₁, h₂⟩, h₃, h₄⟩ := hx
  simp only [Rect.ofSize, zero_add] at h₁ h₂ h₃ h₄
  constructor
  · exact add_nonneg h₁ (mul_nonneg h₃ (by omega))
  · simp only [Point.index]
    nlinarith

/-- **All the addresses of a rectangle lie in the surface exactly when those of its corners do.** -/
theorem forall_inBuffer_iff {size : Size} {r : Rect} :
    (∀ i ∈ rectPtrs size r, InBuffer size i) ↔ CornersIn size r := by
  simp only [mem_rectPtrs, forall_exists_index, and_imp, forall_apply_eq_imp_iff₂]
  constructor
  · intro h
    by_cases hempty : r.Empty
    · exact Or.inl hempty
    · refine Or.inr fun corner hcorner => h corner ?_
      simp only [Rect.Empty, not_or, not_le] at hempty
      simp only [Rect.corners, List.mem_cons, List.not_mem_nil, or_false] at hcorner
      rcases hcorner with rfl | rfl | rfl | rfl <;> simp only [Rect.mem_iff] <;> omega
  · rintro (hempty | h) x hx
    · exact absurd hx (Rect.empty_iff.mp hempty x)
    · obtain ⟨⟨h₁, h₂⟩, h₃, h₄⟩ := hx
      simp only [Rect.corners, List.forall_mem_cons, InBuffer, Point.index] at h
      obtain ⟨⟨hlt, -⟩, ⟨-, hrt⟩, ⟨hlb, -⟩, ⟨-, hrb⟩, -⟩ := h
      -- The address is linear in the line, so one of the two edge lines bounds it on each side.
      simp only [InBuffer, Point.index]
      rcases le_total 0 size.width with hw | hw
      · have hy₁ := mul_le_mul_of_nonneg_right h₃ hw
        have hy₂ := mul_le_mul_of_nonneg_right (Int.le_sub_one_of_lt h₄) hw
        constructor <;> linarith
      · have hy₁ := mul_le_mul_of_nonpos_right h₃ hw
        have hy₂ := mul_le_mul_of_nonpos_right (Int.le_sub_one_of_lt h₄) hw
        constructor <;> linarith

theorem cornersIn_of_subset {size : Size} {r K : Rect} (hK : K.InWindow size)
    (hr : ∀ x ∈ r, x ∈ K) : CornersIn size r := by
  rw [← forall_inBuffer_iff]
  intro i hi
  obtain ⟨x, hx, rfl⟩ := mem_rectPtrs.mp hi
  exact inBuffer_index (hK.mem_ofSize (hr x hx))

/-! ### The accesses of a drawing -/

/-- The pixels that a call writes lie in the surface and those that it reads in its source; the
clipper of a polygon has no pixel or lies inside the surface. -/
def Primitive.InBounds (size : Size) : Primitive → Prop
  | .polygon _ _ clipper => clipper.Empty ∨ clipper.InWindow size
  | .fill _ clipper => ∀ i ∈ rectPtrs size clipper, InBuffer size i
  | .copy dstRect source srcRect _ => dstRect.size = srcRect.size →
      (∀ i ∈ rectPtrs size dstRect, InBuffer size i) ∧
        ∀ i ∈ rectPtrs source.size srcRect, InBuffer source.size i

/-- All the calls of a drawing are in bounds. -/
def Drawing.InBounds (d : Drawing) (s : AppState) : Prop :=
  (∀ primitive ∈ d.surface, primitive.InBounds s.rootSurface.size) ∧
    ∀ primitive ∈ d.pickSurface, primitive.InBounds s.pickSurface.size

section Classes

variable [Hardware] [Raster] [TextRendering]

/-- The part of an image that is read for a destination of this size. -/
def imagePart (a : FrameAttrs) (size : Size) : Rect :=
  ⟨(a.imgRect.map Rect.topLeft).getD ⟨0, 0⟩, size⟩

/-- A label without border is cut at the location of the widget, and the part of an image that is
shown lies in the image. -/
def FrameAttrs.SafeLabel (a : FrameAttrs) (s : AppState) (p : Ptr) (w : Widget) (clipper : Rect) :
    Prop :=
  ∀ label, labelRect s p w a = some label →
    (a.borderWidth = 0 →
      CornersIn s.rootSurface.size (getEiRectIntersection label w.screenLocation)) ∧
    ∀ img, a.text = none → a.img = some img →
      CornersIn img.size (imagePart a (getEiRectIntersection label (finalClipper w a clipper)).size)

/-- A quit button is cut at the content area of the parent of its toplevel: this area has no pixel
or lies inside the surface. -/
def ButtonAttrs.SafeBorder (a : ButtonAttrs) (s : AppState) (w : Widget) : Prop :=
  a.noClipping → ∃ parent pw grandparent gw, w.parent = some parent ∧ s.widgets parent = some pw ∧
    pw.parent = some grandparent ∧ s.widgets grandparent = some gw ∧
      (gw.content.Empty ∨ gw.content.InWindow s.rootSurface.size)

/-- The condition under which drawing a widget inside a clipper is in bounds. -/
def SafeDrawing (s : AppState) (p : Ptr) (w : Widget) (clipper : Rect) : Prop :=
  match w.attrs with
  | .frame a => a.SafeLabel s p w clipper
  | .button a => a.SafeBorder s w ∧ a.toFrameAttrs.SafeLabel s p w clipper
  | .toplevel _ => True

/-! ### One drawing -/

section Bounds

variable {s : AppState} {p : Ptr} {w : Widget} {K : Rect}

omit [Hardware] [Raster] in
/-- A text reads the part of its own surface that it shows. -/
theorem inBounds_eiDrawText {size : Size} {whereAt : Point} {text : Text} {font : Font}
    {color : Color} {clipper : Rect} : (eiDrawText whereAt text font color clipper).InBounds size ↔
      CornersIn size (getEiRectIntersection
        ⟨whereAt, (TextRendering.hwTextCreateSurface text font color).size⟩ clipper) := by
  rw [← forall_inBuffer_iff]
  simp only [eiDrawText, Primitive.InBounds, true_imp_iff, and_iff_left_iff_imp]
  intro _ i hi
  obtain ⟨x, hx, rfl⟩ := mem_rectPtrs.mp hi
  refine inBuffer_index ?_
  simp only [Rect.mem_iff, getEiRectIntersection, Rect.ofSize] at hx ⊢
  omega

omit [Raster] in
/-- The label of a frame or of a button, cut at a clipper. -/
theorem inBounds_drawLabel {size : Size} {a : FrameAttrs} {clip : Rect} :
    (∀ primitive ∈ drawLabel s p w a clip, primitive.InBounds size) ↔
      ∀ label, labelRect s p w a = some label → CornersIn size (getEiRectIntersection label clip) ∧
        ∀ img, a.text = none → a.img = some img →
          CornersIn img.size (imagePart a (getEiRectIntersection label clip).size) := by
  cases htext : a.text with
  | some text =>
    simp only [drawLabel, labelRect, htext, List.forall_mem_singleton, inBounds_eiDrawText,
      Option.some.injEq, forall_eq', reduceCtorEq, false_imp_iff, implies_true, and_true]
  | none =>
    cases himg : a.img with
    | none => simp only [drawLabel, labelRect, htext, himg, List.not_mem_nil, reduceCtorEq,
        false_imp_iff, implies_true]
    | some img =>
      simp only [drawLabel, labelRect, htext, himg, List.forall_mem_singleton, Primitive.InBounds,
        forall_inBuffer_iff, Option.some.injEq, forall_eq', true_imp_iff, imagePart]

/-- A frame or a button, with its own clipper for the border. -/
theorem inBounds_drawframebuttonclasses (hsize : s.pickSurface.size = s.rootSurface.size)
    (hK : K.InWindow s.rootSurface.size) {a : FrameAttrs} {cornerRadius : ℤ} {g : Rect} :
    (drawframebuttonclasses s p w a cornerRadius g K).InBounds s ↔
      (g.Empty ∨ g.InWindow s.rootSurface.size) ∧ a.SafeLabel s p w K := by
  have hinner : (getEiRectIntersection K w.content).InWindow s.rootSurface.size := by
    simp only [Rect.InWindow, getEiRectIntersection] at hK ⊢
    omega
  have hbody : (∀ primitive ∈ drawBody w a cornerRadius g K,
      primitive.InBounds s.rootSurface.size) ↔ g.Empty ∨ g.InWindow s.rootSurface.size := by
    rw [drawBody]
    split_ifs with hb
    · have hfinal : finalClipper w a K = getEiRectIntersection K w.content := if_pos hb
      simp only [List.forall_mem_cons, List.not_mem_nil, false_imp_iff, implies_true, and_true,
        Primitive.InBounds, hfinal, hinner, or_true, and_self]
    · simp only [List.forall_mem_singleton, Primitive.InBounds]
  have hpick : (∀ primitive ∈ (drawframebuttonclasses s p w a cornerRadius g K).pickSurface,
      primitive.InBounds s.pickSurface.size) ↔ g.Empty ∨ g.InWindow s.rootSurface.size := by
    simp only [drawframebuttonclasses, List.forall_mem_singleton, Primitive.InBounds, hsize]
  have hlabel : (∀ primitive ∈ drawLabel s p w a (finalClipper w a K),
      primitive.InBounds s.rootSurface.size) ↔ a.SafeLabel s p w K := by
    rw [inBounds_drawLabel, FrameAttrs.SafeLabel]
    refine forall₂_congr fun label _ => and_congr_left fun _ => ?_
    by_cases hb : a.borderWidth = 0
    · have hfinal : finalClipper w a K = w.screenLocation := if_neg (not_not.mpr hb)
      rw [hfinal]
      exact ⟨fun h _ => h, fun h => h hb⟩
    · -- With a border, the label is cut at the clipper.
      have hfinal : finalClipper w a K = getEiRectIntersection K w.content := if_pos hb
      refine iff_of_true ?_ fun h => absurd h hb
      rw [hfinal]
      exact cornersIn_of_subset hinner fun x hx => (mem_getEiRectIntersection.mp hx).2
  rw [Drawing.InBounds, surface_drawframebuttonclasses, List.forall_mem_append, hbody, hpick,
    hlabel]
  tauto

/-- **A drawing is in bounds exactly when it meets the condition.** -/
theorem drawing_inBounds_iff (hsize : s.pickSurface.size = s.rootSurface.size)
    (hK : K.InWindow s.rootSurface.size) :
    (∃ d, drawing s p w K = some d ∧ d.InBounds s) ↔ SafeDrawing s p w K := by
  rw [SafeDrawing]
  cases ha : w.attrs with
  | frame a =>
    simp only [drawing, ha, Option.some.injEq, exists_eq_left',
      inBounds_drawframebuttonclasses hsize hK, hK, or_true, true_and]
  | button a =>
    show _ ↔ a.SafeBorder s w ∧ a.toFrameAttrs.SafeLabel s p w K
    by_cases hno : a.noClipping
    · have hborder : (∃ g, borderClipper s w K = some g ∧
          (g.Empty ∨ g.InWindow s.rootSurface.size)) ↔ a.SafeBorder s w := by
        simp only [borderClipper, ha, hno, if_true, Option.bind_eq_bind, Option.bind_eq_some_iff,
          Option.some.injEq, ButtonAttrs.SafeBorder, true_imp_iff]
        constructor
        · rintro ⟨g, ⟨parent, hparent, pw, hpw, grandparent, hgp, gw, hgw, rfl⟩, hg⟩
          exact ⟨parent, pw, grandparent, gw, hparent, hpw, hgp, hgw, hg⟩
        · rintro ⟨parent, pw, grandparent, gw, hparent, hpw, hgp, hgw, hg⟩
          exact ⟨_, ⟨parent, hparent, pw, hpw, grandparent, hgp, gw, hgw, rfl⟩, hg⟩
      rw [← hborder]
      simp only [drawing, ha, Option.bind_eq_bind, Option.bind_eq_some_iff, Option.some.injEq]
      constructor
      · rintro ⟨d, ⟨g, hg, rfl⟩, hd⟩
        rw [inBounds_drawframebuttonclasses hsize hK] at hd
        exact ⟨⟨g, hg, hd.1⟩, hd.2⟩
      · rintro ⟨⟨g, hg, hin⟩, hlabel⟩
        exact ⟨_, ⟨g, hg, rfl⟩, (inBounds_drawframebuttonclasses hsize hK).mpr ⟨hin, hlabel⟩⟩
    · have hborder : borderClipper s w K = some K := by
        simp only [borderClipper, ha, hno, Bool.false_eq_true, if_false]
      have hsafe : a.SafeBorder s w := fun h => absurd h hno
      simp only [drawing, ha, hborder, Option.bind_eq_bind, Option.bind_some, Option.some.injEq,
        exists_eq_left', inBounds_drawframebuttonclasses hsize hK, hK, or_true, true_and, hsafe]
  | toplevel a =>
    simp only [drawing, ha, Option.some.injEq, exists_eq_left', iff_true]
    have hall : ∀ {r : Rect}, (∀ x ∈ r, x ∈ K) → CornersIn s.rootSurface.size r :=
      fun hr => cornersIn_of_subset hK hr
    refine ⟨fun primitive hmem => ?_, ?_⟩
    · simp only [drawtoplevel, List.mem_append, List.mem_cons, List.not_mem_nil, or_false] at hmem
      rcases hmem with (rfl | rfl) | hmem
      · exact forall_inBuffer_iff.mpr (hall intersection_subset)
      · exact forall_inBuffer_iff.mpr (hall intersection_subset)
      · cases ht : a.title with
        | none => simp [ht] at hmem
        | some text =>
          simp only [ht, Option.elim_some, List.mem_singleton] at hmem
          subst hmem
          exact inBounds_eiDrawText.mpr (hall fun x hx =>
            (mem_getEiRectIntersection.mp (mem_getEiRectIntersection.mp hx).2).1)
    · simp only [drawtoplevel, List.forall_mem_singleton, Primitive.InBounds, hsize]
      exact forall_inBuffer_iff.mpr (hall intersection_subset)

end Bounds

/-! ### A redraw -/

/-- The calls of a redraw with one clipper: the root, then what is below it. -/
def Redraws (drawfunc : DrawFunc) (s : AppState) (c : Clipper) (s' : AppState) (q : Ptr)
    (K : Rect) : Prop :=
  ∃ root, s.rootWidget = some root ∧
    (s' = s ∧ q = root ∧ c.read s = some K ∨
      ∃ C s₁, c.read s = some C ∧ drawfunc s root C = some s₁ ∧
        DrawsBelow drawfunc s₁ root c s' q K)

omit [Hardware] [Raster] [TextRendering] in
/-- Every call of a redraw is in a state like the first one, with a clipper in the window. -/
theorem Redraws.displayed {drawfunc : DrawFunc} (hdraw : KeepsSizes drawfunc) {window : Size}
    {s s' : AppState} {c : Clipper} {q : Ptr} {K : Rect} (hs : Displayed window s)
    (hc : c.InWindow window) (h : Redraws drawfunc s c s' q K) :
    Displayed window s' ∧ K.InWindow window := by
  obtain ⟨root, -, ⟨rfl, -, hK⟩ | ⟨C, s₁, -, h₁, L, u, -, -, hu, hcall⟩⟩ := h
  · exact ⟨hs, hc.read hs hK⟩
  · have hs₁ := (hs.draw hdraw h₁ root).displayed
    have hconfined := hcall.confined hdraw hs₁ (fun x hx => childOf_childrenHead hs₁.wellFormed
      (AppState.nodes_of_widgets hu) hx) hc
    exact ⟨hconfined.traversed.displayed, hconfined.inWindow⟩

/-- **Every pixel access of a redraw is inside its surface exactly when every drawing meets the
condition**, for every tree of widgets and every clipper in the window. -/
theorem redraw_inBounds_iff {window : Size} {s : AppState} {c : Clipper} (hs : Displayed window s)
    (hc : c.InWindow window) :
    (∀ s' q K w, Redraws drawfuncOf s c s' q K → s'.widgets q = some w →
      ∃ d, drawing s' q w K = some d ∧ d.InBounds s') ↔
    ∀ s' q K w, Redraws drawfuncOf s c s' q K → s'.widgets q = some w → SafeDrawing s' q w K := by
  refine forall₄_congr fun s' q K w => forall₂_congr fun hcall _ => ?_
  obtain ⟨hs', hK⟩ := hcall.displayed drawfuncOf_keepsSizes hs hc
  exact drawing_inBounds_iff (hs'.pickSurface.trans hs'.rootSurface.symm)
    (hs'.rootSurface.symm ▸ hK)

end Classes

/-! ### An image rectangle kept from a larger image -/

section Sample

attribute [local instance] sampleHardware sampleRaster sampleTextRendering

/-- The root shows an image of ten by ten pixels with its rectangle, then one of two by two pixels
without a new rectangle. -/
def configureStale : Option AppState := do
  let s ← eiFrameConfigure (sampleApp ⟨640, 480⟩) 0
    { img := some (some (sampleSurface ⟨10, 10⟩))
      imgRect := some (some ⟨⟨0, 0⟩, ⟨10, 10⟩⟩) }
  eiFrameConfigure s 0 { img := some (some (sampleSurface ⟨2, 2⟩)) }

theorem isSome_configureStale : configureStale.isSome := rfl

/-- The state after `configureStale`. -/
def sampleStale : AppState := configureStale.get isSome_configureStale

theorem sampleStale_displayed : Displayed ⟨640, 480⟩ sampleStale := by
  have h : configureStale = some sampleStale := (Option.some_get _).symm
  simp only [configureStale, Option.bind_eq_bind, Option.bind_eq_some_iff] at h
  obtain ⟨s, h₁, h₂⟩ := h
  have hs := (sampleApp_started ⟨640, 480⟩).wellFormed.congr (skeleton_eiFrameConfigure h₁)
  exact ⟨hs.congr (skeleton_eiFrameConfigure h₂), .of_map (r := 0) rfl rfl, by decide +kernel,
    rfl, rfl⟩

/-- A full redraw reads ten lines of the small image. -/
theorem sampleStale_not_inBounds : Displayed ⟨640, 480⟩ sampleStale ∧ ∃ w,
    sampleStale.widgets 0 = some w ∧
    Redraws drawfuncOf sampleStale (.rect (Rect.ofSize ⟨640, 480⟩)) sampleStale 0
      (Rect.ofSize ⟨640, 480⟩) ∧
    ¬ ∃ d, drawing sampleStale 0 w (Rect.ofSize ⟨640, 480⟩) = some d ∧ d.InBounds sampleStale := by
  have hs := sampleStale_displayed
  have hroot : sampleStale.rootWidget = some 0 := rfl
  have hframe : ((sampleStale.widgets 0).bind fun w =>
      match w.attrs with
      | .frame a => some (decide (labelRect sampleStale 0 w a = some ⟨⟨315, 235⟩, ⟨10, 10⟩⟩ ∧
          a.text = none ∧ a.img.map Surface.size = some ⟨2, 2⟩ ∧
          imagePart a (getEiRectIntersection ⟨⟨315, 235⟩, ⟨10, 10⟩⟩
            (finalClipper w a (Rect.ofSize ⟨640, 480⟩))).size = ⟨⟨0, 0⟩, ⟨10, 10⟩⟩))
      | .button _ | .toplevel _ => none) = some true := by
    rfl
  obtain ⟨w, hw, h⟩ := Option.bind_eq_some_iff.mp hframe
  refine ⟨hs, w, hw, ⟨0, hroot, Or.inl ⟨rfl, rfl, rfl⟩⟩, fun hin => ?_⟩
  rw [drawing_inBounds_iff (hs.pickSurface.trans hs.rootSurface.symm)
    (hs.rootSurface.symm ▸ by decide), SafeDrawing] at hin
  split at h
  · next a ha =>
    rw [Option.some.injEq, decide_eq_true_eq] at h
    obtain ⟨hlabel, htext, himg, hpart⟩ := h
    obtain ⟨img, himg, hsize⟩ := Option.map_eq_some_iff.mp himg
    rw [ha] at hin
    have hcorners := (hin _ hlabel).2 img htext himg
    rw [hpart, hsize] at hcorners
    rcases hcorners with hempty | hcorners
    · exact absurd hempty (by decide)
    · exact absurd (hcorners ⟨9, 9⟩ (by decide)).2 (by decide)
  · simp at h
  · simp at h

/-- The condition for the redraw of the root and of nothing else. -/
theorem redraw_inBounds_iff_root :
    (∀ s' q K w, Redraws drawfuncOf sampleStale (.rect (Rect.ofSize ⟨640, 480⟩)) s' q K →
      s'.widgets q = some w → ∃ d, drawing s' q w K = some d ∧ d.InBounds s') ↔
    ∀ s' q K w, Redraws drawfuncOf sampleStale (.rect (Rect.ofSize ⟨640, 480⟩)) s' q K →
      s'.widgets q = some w → SafeDrawing s' q w K :=
  redraw_inBounds_iff sampleStale_displayed
    (show (Rect.ofSize ⟨640, 480⟩).InWindow ⟨640, 480⟩ by decide)

end Sample

end GuiLibrary

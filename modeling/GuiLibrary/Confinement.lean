import GuiLibrary.HitTesting
import GuiLibrary.Traversal

/-!
# Drawing inside the clipper

A drawing function is confined to a region when it changes no pixel outside of it, whatever the
surfaces contain. Frames with a border, buttons with a border and toplevels are confined to their
clipper. Without a border, the text or the image of a frame or of a button is cut at the location of
the widget only, and the drawing is confined exactly when that part of the label is.

In `ei_draw_widget_children` the clipper lies in the content area of every widget that the descent
has come through, so the same condition decides whether a drawing leaves the content area of an
ancestor.

## Main definitions

* `DrawsWithin`: a drawing changes nothing outside a region.
* `labelRect`, `LabelWithin`: the condition on the label.

## Main results

* `drawsWithin_iff`: one drawing.
* `drawing_confined_iff`: one drawing, and the drawings of a traversal.
-/

namespace GuiLibrary

open Cells

/-- The state with other pixels on the two surfaces. -/
def AppState.withBuffers (s : AppState) (rootBuffer pickBuffer : ℤ → BitVec 32) : AppState :=
  { s with
    rootSurface := { s.rootSurface with buffer := rootBuffer }
    pickSurface := { s.pickSurface with buffer := pickBuffer } }

/-- The two surfaces have the same pixels outside the region. -/
def SameOutside (region : Rect) (surface surface' : Surface) : Prop :=
  ∀ x ∈ Rect.ofSize surface.size, x ∉ region → surface'.pixel x = surface.pixel x

section Classes

variable [Hardware] [Raster] [TextRendering]

/-- Whatever the two surfaces contain, drawing the widget changes no pixel of them outside the
region. -/
def DrawsWithin (s : AppState) (p : Ptr) (clipper region : Rect) : Prop :=
  ∀ rootBuffer pickBuffer s',
    drawfuncOf (s.withBuffers rootBuffer pickBuffer) p clipper = some s' →
      SameOutside region { s.rootSurface with buffer := rootBuffer } s'.rootSurface ∧
        SameOutside region { s.pickSurface with buffer := pickBuffer } s'.pickSurface

/-- The rectangle of the text or of the image, before it is cut. -/
def labelRect (s : AppState) (p : Ptr) (w : Widget) (a : FrameAttrs) : Option Rect :=
  match a.text, a.img with
  | some text, _ =>
      some ⟨labelPoint s p w a.textAnchor (Hardware.hwTextComputeSize text a.textFont),
        (TextRendering.hwTextCreateSurface text a.textFont a.textColor).size⟩
  | none, some img =>
      some ⟨labelPoint s p w a.imgAnchor (shownSize img a.imgRect), shownSize img a.imgRect⟩
  | none, none => none

/-- The pixels of the surface at the addresses of the rectangle lie in the region. -/
def AddressesWithin (size : Size) (rect region : Rect) : Prop :=
  ∀ x ∈ rect, ∀ y ∈ Rect.ofSize size, y.index size = x.index size → y ∈ region

/-- There is a border, or the part of the label in the location of the widget lies in the region. -/
def FrameAttrs.LabelWithin (a : FrameAttrs) (s : AppState) (p : Ptr) (w : Widget) (region : Rect) :
    Prop :=
  a.borderWidth = 0 → ∀ label, labelRect s p w a = some label →
    AddressesWithin s.rootSurface.size (getEiRectIntersection label w.screenLocation) region

/-- The condition under which drawing a widget stays in a region that contains the clipper. -/
def LabelWithin (s : AppState) (p : Ptr) (w : Widget) (region : Rect) : Prop :=
  match w.attrs with
  | .frame a => a.LabelWithin s p w region
  | .button a => a.toFrameAttrs.LabelWithin s p w region
  | .toplevel _ => True

/-! ### The primitives of the classes -/

omit [Raster] in
/-- A label is one copy into the part of its rectangle that lies in the clipper. -/
theorem drawLabel_of_labelRect {s : AppState} {p : Ptr} {w : Widget} {a : FrameAttrs}
    {label : Rect} (h : labelRect s p w a = some label) (clip : Rect) : ∃ source srcRect alpha,
      (getEiRectIntersection label clip).size = srcRect.size ∧ drawLabel s p w a clip =
        [.copy (getEiRectIntersection label clip) source srcRect alpha] := by
  cases htext : a.text with
  | some text =>
    simp only [labelRect, htext, Option.some.injEq] at h
    subst h
    simp only [drawLabel, htext]
    refine ⟨_, _, _, ?_, rfl⟩
    rfl
  | none =>
    cases himg : a.img with
    | some img =>
      simp only [labelRect, htext, himg, Option.some.injEq] at h
      subst h
      simp only [drawLabel, htext, himg]
      refine ⟨_, _, _, ?_, rfl⟩
      rfl
    | none => simp [labelRect, htext, himg] at h

omit [Raster] in
theorem drawLabel_of_none {s : AppState} {p : Ptr} {w : Widget} {a : FrameAttrs}
    (h : labelRect s p w a = none) (clip : Rect) : drawLabel s p w a clip = [] := by
  cases htext : a.text with
  | some text => simp [labelRect, htext] at h
  | none =>
    cases himg : a.img with
    | some img => simp [labelRect, htext, himg] at h
    | none => simp only [drawLabel, htext, himg]

/-- The polygons of a frame or of a button, without its label. -/
def drawBody (w : Widget) (a : FrameAttrs) (cornerRadius : ℤ) (borderClipper clipper : Rect) :
    List Primitive :=
  if a.borderWidth ≠ 0 then
    [.polygon (eiRoundedFrameHigh w.screenLocation cornerRadius) (reliefColors a.relief a.color).1
        borderClipper,
      .polygon (eiRoundedFrameLow w.screenLocation cornerRadius) (reliefColors a.relief a.color).2
        borderClipper,
      .polygon (eiRoundedFrameAll (finalClipper w a clipper) cornerRadius) a.color
        (finalClipper w a clipper)]
  else [.polygon (eiRoundedFrameAll w.screenLocation 0) a.color borderClipper]

theorem surface_drawframebuttonclasses (s : AppState) (p : Ptr) (w : Widget) (a : FrameAttrs)
    (cornerRadius : ℤ) (borderClipper clipper : Rect) :
    (drawframebuttonclasses s p w a cornerRadius borderClipper clipper).surface =
      drawBody w a cornerRadius borderClipper clipper ++
        drawLabel s p w a (finalClipper w a clipper) := rfl

omit [Hardware] [TextRendering] in
/-- The polygons are cut at the clippers. -/
theorem area_drawBody {w : Widget} {a : FrameAttrs} {cornerRadius : ℤ} {K clipper : Rect}
    {primitive : Primitive} (h : primitive ∈ drawBody w a cornerRadius K clipper) :
    primitive.area = K ∨ a.borderWidth ≠ 0 ∧
      primitive.area = getEiRectIntersection clipper w.content := by
  rw [drawBody] at h
  split_ifs at h with hb
  · simp only [List.mem_cons, List.not_mem_nil, or_false] at h
    rcases h with rfl | rfl | rfl
    · exact Or.inl rfl
    · exact Or.inl rfl
    · refine Or.inr ⟨hb, ?_⟩
      rw [Primitive.area, finalClipper, if_pos hb]
  · obtain rfl := List.mem_singleton.mp h
    exact Or.inl rfl

/-! ### One drawing -/

section Regions

variable {s : AppState} {p : Ptr} {w : Widget} {K region : Rect}

omit [Hardware] [TextRendering] in
/-- Primitives whose areas lie in the region change nothing outside of it. -/
theorem sameOutside_runPrimitives {primitives : List Primitive} {surface : Surface}
    (h : ∀ primitive ∈ primitives, AddressesWithin surface.size primitive.area region) :
    SameOutside region surface (runPrimitives primitives surface) := by
  intro x hx hregion
  rw [Surface.pixel, Surface.pixel, size_runPrimitives]
  refine buffer_runPrimitives_of_notMem primitives surface fun primitive hmem hi => hregion ?_
  obtain ⟨y, hy, hindex⟩ := mem_rectPtrs.mp hi
  exact h primitive hmem y hy x hx hindex.symm

omit [Hardware] [Raster] [TextRendering] in
/-- A part of a rectangle inside the surface lies in a region that contains the rectangle. -/
theorem addressesWithin_of_subset {size : Size} {r : Rect} (hK : K.InWindow size)
    (hr : ∀ x ∈ r, x ∈ K) (hregion : ∀ x ∈ K, x ∈ region) : AddressesWithin size r region := by
  intro x hx y hy hindex
  rw [index_inj hy (hK.mem_ofSize (hr x hx)) hindex]
  exact hregion x (hr x hx)

omit [Hardware] [Raster] [TextRendering] in
theorem intersection_subset {r₁ r₂ : Rect} : ∀ x ∈ getEiRectIntersection r₁ r₂, x ∈ r₁ :=
  fun _ hx => (mem_getEiRectIntersection.mp hx).1

theorem SameOutside.of_label {a : FrameAttrs} {cornerRadius : ℤ}
    (hK : K.InWindow s.rootSurface.size) (hregion : ∀ x ∈ K, x ∈ region)
    (h : a.LabelWithin s p w region) (buffer : ℤ → BitVec 32) :
    SameOutside region { s.rootSurface with buffer := buffer }
      (runPrimitives (drawframebuttonclasses s p w a cornerRadius K K).surface
        { s.rootSurface with buffer := buffer }) := by
  refine sameOutside_runPrimitives fun primitive hmem => ?_
  rw [surface_drawframebuttonclasses, List.mem_append] at hmem
  rcases hmem with hmem | hmem
  · rcases area_drawBody hmem with harea | ⟨-, harea⟩
    · exact harea ▸ addressesWithin_of_subset hK (fun _ hx => hx) hregion
    · exact harea ▸ addressesWithin_of_subset hK intersection_subset hregion
  · cases hlabel : labelRect s p w a with
    | none => simp [drawLabel_of_none hlabel] at hmem
    | some label =>
      obtain ⟨source, srcRect, alpha, -, heq⟩ :=
        drawLabel_of_labelRect hlabel (finalClipper w a K)
      rw [heq, List.mem_singleton] at hmem
      subst hmem
      by_cases hb : a.borderWidth = 0
      · have hfinal : finalClipper w a K = w.screenLocation := if_neg (not_not.mpr hb)
        rw [hfinal]
        exact h hb label hlabel
      · have hfinal : finalClipper w a K = getEiRectIntersection K w.content := if_pos hb
        rw [hfinal]
        exact addressesWithin_of_subset hK (fun x hx => (mem_getEiRectIntersection.mp
          (mem_getEiRectIntersection.mp hx).2).1) hregion

/-- The copy of a label changes some content of the surface at every address that it writes. -/
theorem FrameAttrs.labelWithin_of_sameOutside {a : FrameAttrs} {cornerRadius : ℤ}
    (hK : K.InWindow s.rootSurface.size) (hregion : ∀ x ∈ K, x ∈ region)
    (h : ∀ buffer, SameOutside region { s.rootSurface with buffer := buffer }
      (runPrimitives (drawframebuttonclasses s p w a cornerRadius K K).surface
        { s.rootSurface with buffer := buffer })) : a.LabelWithin s p w region := by
  intro hb label hlabel x hx y hy hindex
  by_contra hout
  obtain ⟨v, hv, hr, hg, hblue⟩ := exists_sparePixel s.rootSurface.channels
  obtain ⟨source, srcRect, alpha, hsize, heq⟩ :=
    drawLabel_of_labelRect hlabel (finalClipper w a K)
  have hfinal : finalClipper w a K = w.screenLocation := if_neg (not_not.mpr hb)
  -- The polygons stay in the clipper: at this pixel the copy finds the original content.
  let body := drawBody w a cornerRadius K K
  let surfaceOf (v : BitVec 32) : Surface := { s.rootSurface with buffer := fun _ => v }
  have hbody : ∀ v, (runPrimitives body (surfaceOf v)).buffer (y.index s.rootSurface.size) = v := by
    intro v
    refine buffer_runPrimitives_of_notMem body (surfaceOf v) fun primitive hmem hi => ?_
    obtain ⟨z, hz, hzy⟩ := mem_rectPtrs.mp hi
    have hwithin : AddressesWithin s.rootSurface.size primitive.area region := by
      rcases area_drawBody hmem with harea | ⟨hne, -⟩
      · exact harea ▸ addressesWithin_of_subset hK (fun _ hx => hx) hregion
      · exact absurd hb hne
    exact hout (hwithin z hz y hy hzy.symm)
  have hpixel : ∀ v, (Primitive.run (runPrimitives body (surfaceOf v))
      (.copy (getEiRectIntersection label w.screenLocation) source srcRect alpha)).buffer
        (y.index s.rootSurface.size) = v := by
    intro v
    have hsame := h (fun _ => v) y hy hout
    rw [Surface.pixel, Surface.pixel, size_runPrimitives, surface_drawframebuttonclasses, heq,
      runPrimitives, List.foldl_append, hfinal] at hsame
    exact hsame
  have hcopy := buffer_eiCopySurface_congr (runPrimitives body (surfaceOf v))
    (runPrimitives body (surfaceOf 0)) source alpha (i := y.index s.rootSurface.size)
    (by rw [size_runPrimitives, size_runPrimitives])
    (by rw [channels_runPrimitives, channels_runPrimitives]) (hfinal ▸ hsize)
    (by rw [size_runPrimitives]; exact mem_rectPtrs.mpr ⟨x, hx, hindex.symm⟩) fun u => by
      rw [hbody, hbody]
      refine copyPixel_spare _ source alpha ?_ ?_ ?_ u <;>
        rw [channels_runPrimitives] <;> assumption
  exact hv ((hpixel v).symm.trans (hcopy.trans (hpixel 0)))

/-- What drawing a widget does to the surfaces. -/
theorem drawsWithin_iff_of_drawing (hp : s.widgets p = some w) {d : Drawing}
    (hd : drawing s p w K = some d) : DrawsWithin s p K region ↔
      (∀ buffer, SameOutside region { s.rootSurface with buffer := buffer }
        (runPrimitives d.surface { s.rootSurface with buffer := buffer })) ∧
      ∀ buffer, SameOutside region { s.pickSurface with buffer := buffer }
        (runPrimitives d.pickSurface { s.pickSurface with buffer := buffer }) := by
  have hrun : ∀ rootBuffer pickBuffer,
      drawfuncOf (s.withBuffers rootBuffer pickBuffer) p K = some
        { s.withBuffers rootBuffer pickBuffer with
          rootSurface := runPrimitives d.surface { s.rootSurface with buffer := rootBuffer }
          pickSurface := runPrimitives d.pickSurface
            { s.pickSurface with buffer := pickBuffer } } := by
    intro rootBuffer pickBuffer
    have hp' : (s.withBuffers rootBuffer pickBuffer).widgets p = some w := hp
    -- The drawing functions do not read the surfaces.
    have hd' : drawing (s.withBuffers rootBuffer pickBuffer) p w K = some d := hd
    simp only [drawfuncOf, hp', hd', Option.bind_eq_bind, Option.bind_some]
    rfl
  constructor
  · intro h
    exact ⟨fun buffer => (h buffer buffer _ (hrun buffer buffer)).1,
      fun buffer => (h buffer buffer _ (hrun buffer buffer)).2⟩
  · rintro ⟨hroot, hpick⟩ rootBuffer pickBuffer s' hs'
    obtain rfl := Option.some.inj ((hrun rootBuffer pickBuffer).symm.trans hs')
    exact ⟨hroot rootBuffer, hpick pickBuffer⟩

/-- **A drawing stays in a region that contains its clipper exactly when its label does.** -/
theorem drawsWithin_iff (hsize : s.pickSurface.size = s.rootSurface.size)
    (hp : s.widgets p = some w) (hclip : w.Clipped) (hK : K.InWindow s.rootSurface.size)
    (hregion : ∀ x ∈ K, x ∈ region) : DrawsWithin s p K region ↔ LabelWithin s p w region := by
  have hsub : ∀ {r : Rect}, (∀ x ∈ r, x ∈ K) → AddressesWithin s.rootSurface.size r region :=
    fun hr => addressesWithin_of_subset hK hr hregion
  have hpolygon : ∀ (points : List Point) (color : Color) (buffer : ℤ → BitVec 32),
      SameOutside region { s.pickSurface with buffer := buffer } (runPrimitives
        [.polygon points color K] { s.pickSurface with buffer := buffer }) := by
    intro points color buffer
    refine sameOutside_runPrimitives fun primitive hmem => ?_
    obtain rfl := List.mem_singleton.mp hmem
    exact hsize ▸ hsub fun _ hx => hx
  rw [drawsWithin_iff_of_drawing hp (drawing_of_clipped hclip K), LabelWithin]
  cases ha : w.attrs with
  | frame a =>
    refine ⟨fun h => FrameAttrs.labelWithin_of_sameOutside hK hregion h.1,
      fun h => ⟨fun buffer => ?_,
      fun buffer => hpolygon _ _ buffer⟩⟩
    exact SameOutside.of_label hK hregion h buffer
  | button a =>
    refine ⟨fun h => FrameAttrs.labelWithin_of_sameOutside hK hregion h.1,
      fun h => ⟨fun buffer => ?_,
      fun buffer => hpolygon _ _ buffer⟩⟩
    exact SameOutside.of_label hK hregion h buffer
  | toplevel a =>
    refine iff_of_true ⟨fun buffer => ?_, fun buffer => ?_⟩ trivial
    · refine sameOutside_runPrimitives fun primitive hmem => hsub fun x hx => ?_
      -- Both fills and the title are cut at the clipper.
      simp only [drawtoplevel, List.mem_append, List.mem_cons, List.not_mem_nil, or_false] at hmem
      rcases hmem with (rfl | rfl) | hmem
      · exact (mem_getEiRectIntersection.mp hx).1
      · exact (mem_getEiRectIntersection.mp hx).1
      · cases ht : a.title with
        | none => simp [ht] at hmem
        | some text =>
          simp only [ht, Option.elim_some, List.mem_singleton] at hmem
          subst hmem
          exact (mem_getEiRectIntersection.mp (mem_getEiRectIntersection.mp hx).2).1
    · refine sameOutside_runPrimitives fun primitive hmem => ?_
      simp only [drawtoplevel, List.mem_singleton] at hmem
      subst hmem
      exact hsize ▸ hsub intersection_subset

end Regions

/-! ### The drawings of a traversal -/

/-- **Drawing is confined to the clipper exactly when there is a border, or when the label is**: the
text or the image of a frame or of a button without border is cut at the location of the widget
only. In a traversal of what is below `o`, from a clipper in the window, the same condition on the
content area of an ancestor, which lies below `o` or contains the window, decides whether a drawing
leaves this area. -/
theorem drawing_confined_iff {window : Size} {s : AppState} (hs : Displayed window s) :
    (∀ p w K, s.widgets p = some w → w.Clipped → K.InWindow window →
      (DrawsWithin s p K K ↔ LabelWithin s p w K)) ∧
    ∀ o c s' q K w a v, c.InWindow window → DrawsBelow drawfuncOf s o c s' q K →
      s'.widgets q = some w → w.Clipped → s.Below q a → s'.widgets a = some v →
        s.Below a o ∨ (∀ x ∈ Rect.ofSize window, x ∈ v.content) →
          (DrawsWithin s' q K v.content ↔ LabelWithin s' q w v.content) := by
  refine ⟨fun p w K hp hclip hK => ?_, fun o c s' q K w a v hc hcall hq hclip hqa hv hao => ?_⟩
  · exact drawsWithin_iff (hs.pickSurface.trans hs.rootSurface.symm) hp hclip
      (hs.rootSurface.symm ▸ hK) fun _ hx => hx
  · obtain ⟨L, u, -, -, hu, hcall⟩ := hcall
    have hconfined := hcall.confined drawfuncOf_keepsSizes hs
      (fun x hx => childOf_childrenHead hs.wellFormed (AppState.nodes_of_widgets hu) hx) hc
    have hs' := hconfined.traversed.displayed
    refine drawsWithin_iff (hs'.pickSurface.trans hs'.rootSurface.symm) hq hclip
      (hs'.rootSurface.symm ▸ hconfined.inWindow) fun x hx => ?_
    rcases hao with hao | hwindow
    · obtain ⟨v', hv', hcontent⟩ := hconfined.contents a hqa hao
      obtain rfl := Option.some.inj (hv.symm.trans hv')
      exact hcontent x hx
    · exact hwindow x (hconfined.inWindow.mem_ofSize hx)

end Classes

/-! ### A frame without border that shows an image -/

section Sample

attribute [local instance] sampleHardware sampleRaster

/-- Texts are black rectangles. -/
@[reducible] def sampleTextRendering : TextRendering where
  hwTextCreateSurface text font _ := sampleSurface (Hardware.hwTextComputeSize text font)

attribute [local instance] sampleTextRendering

/-- An image of two by two pixels, in the corner of the frame. -/
def imageArgs : LabelArgs where
  img := some (some (sampleSurface ⟨2, 2⟩))
  imgAnchor := some .northwest

theorem isSome_eiFrameConfigure_image : (eiFrameConfigure samplePlaced 1 imageArgs).isSome := by
  with_unfolding_all rfl

/-- The placed frame, at (10, 20), shows the image. -/
def sampleImage : AppState :=
  (eiFrameConfigure samplePlaced 1 imageArgs).get isSome_eiFrameConfigure_image

theorem sampleImage_displayed : Displayed ⟨640, 480⟩ sampleImage := by
  have hskel := skeleton_eiFrameConfigure (Option.some_get isSome_eiFrameConfigure_image).symm
  have hwindow : sampleImage.HasWindow ⟨640, 480⟩ :=
    .of_map (r := 0) (by with_unfolding_all rfl) (by with_unfolding_all rfl)
  exact ⟨samplePlaced_invariant.1.congr hskel, hwindow, by decide +kernel,
    by with_unfolding_all rfl, by with_unfolding_all rfl⟩

theorem sampleImage_frame : ∃ w a, sampleImage.widgets 1 = some w ∧ w.attrs = .frame a ∧
    a.borderWidth = 0 ∧ w.screenLocation = ⟨⟨10, 20⟩, ⟨100, 50⟩⟩ ∧
    labelRect sampleImage 1 w a = some ⟨⟨10, 20⟩, ⟨2, 2⟩⟩ := by
  have h : ((sampleImage.widgets 1).bind fun w =>
      match w.attrs with
      | .frame a => some (decide (a.borderWidth = 0 ∧
          w.screenLocation = ⟨⟨10, 20⟩, ⟨100, 50⟩⟩ ∧
          labelRect sampleImage 1 w a = some ⟨⟨10, 20⟩, ⟨2, 2⟩⟩))
      | .button _ | .toplevel _ => none) = some true := by
    with_unfolding_all rfl
  obtain ⟨w, hw, h⟩ := Option.bind_eq_some_iff.mp h
  split at h
  · next a ha =>
    rw [Option.some.injEq, decide_eq_true_eq] at h
    exact ⟨w, a, hw, ha, h⟩
  · simp at h
  · simp at h

/-- Drawn with a clipper in the corner of the window, the frame changes a pixel of its image, which
is not in the clipper. -/
theorem sampleImage_not_confined : Displayed ⟨640, 480⟩ sampleImage ∧
    (∃ w, sampleImage.widgets 1 = some w ∧ w.wclass = .frame) ∧
    (⟨⟨0, 0⟩, ⟨5, 5⟩⟩ : Rect).InWindow ⟨640, 480⟩ ∧
    ¬ DrawsWithin sampleImage 1 ⟨⟨0, 0⟩, ⟨5, 5⟩⟩ ⟨⟨0, 0⟩, ⟨5, 5⟩⟩ := by
  have hs := sampleImage_displayed
  obtain ⟨w, a, hw, ha, hb, hloc, hlabel⟩ := sampleImage_frame
  refine ⟨hs, ⟨w, hw, by rw [Widget.wclass, ha]; rfl⟩, by decide, fun h => ?_⟩
  rw [drawsWithin_iff (hs.pickSurface.trans hs.rootSurface.symm) hw
    (fun b hbutton => by simp [ha] at hbutton) (hs.rootSurface.symm ▸ by decide) fun _ hx => hx,
    LabelWithin, ha] at h
  have hmem := h hb _ hlabel ⟨10, 20⟩ (by rw [hloc]; decide) ⟨10, 20⟩
    (by rw [hs.rootSurface]; decide) rfl
  exact absurd hmem (by decide)

/-- With the whole window as clipper, the frame is confined; so is the call of the traversal. -/
theorem drawing_confined_iff_image : ∃ w s' v, sampleImage.widgets 1 = some w ∧
    (DrawsWithin sampleImage 1 (Rect.ofSize ⟨640, 480⟩) (Rect.ofSize ⟨640, 480⟩) ↔
      LabelWithin sampleImage 1 w (Rect.ofSize ⟨640, 480⟩)) ∧
    runplacer sampleImage 1 = some s' ∧ s'.widgets 0 = some v ∧
    (DrawsWithin s' 1 (Rect.ofSize ⟨640, 480⟩) v.content ↔ LabelWithin s' 1 w v.content) := by
  have hs := sampleImage_displayed
  obtain ⟨w, a, hw, ha, -, -, -⟩ := sampleImage_frame
  have hclip : w.Clipped := fun b hbutton => by simp [ha] at hbutton
  have hroot : (sampleImage.widgets 0).map (fun v => (v.content, v.childrenHead)) =
      some (Rect.ofSize ⟨640, 480⟩, some 1) := by with_unfolding_all rfl
  obtain ⟨v, hv, hcontent⟩ := Option.map_eq_some_iff.mp hroot
  obtain ⟨hcontent, hhead⟩ := Prod.mk.inj hcontent
  have hlinks : (sampleImage.nodes 1).map Node.parent = some (some 0) ∧
      (sampleImage.widgets 1).map (fun w => w.geomParams.isSome) = some true := by decide +kernel
  obtain ⟨n, hn, hparent⟩ := Option.map_eq_some_iff.mp hlinks.1
  have hwparent : w.parent = some 0 := by
    rw [AppState.nodes_of_widgets hw, Option.some.injEq] at hn
    rw [← hparent, ← hn]
    rfl
  rw [hw, Option.map_some, Option.some.injEq] at hlinks
  have htarget : ((sampleImage.widgets 1).bind fun w => (sampleImage.widgets 0).map fun v =>
      decide (w.target v.content = w.screenLocation)) = some true := by with_unfolding_all rfl
  rw [hw, Option.bind_some, hv, Option.map_some, Option.some.injEq, decide_eq_true_eq] at htarget
  have hrun : runplacer sampleImage 1 = some sampleImage :=
    runplacerWith_self hw hwparent hv htarget
  have hnext : sampleImage.nextWidget = 2 := by with_unfolding_all rfl
  have hcall : DrawsBelow drawfuncOf sampleImage 0 (.rect (Rect.ofSize ⟨640, 480⟩)) sampleImage 1
      (Rect.ofSize ⟨640, 480⟩) := by
    refine ⟨_, v, rfl, by decide, hv, ?_⟩
    rw [hhead, hnext]
    exact .here hw hlinks.2 hrun rfl
  have hwindow : (Rect.ofSize ⟨640, 480⟩).InWindow ⟨640, 480⟩ := by decide
  refine ⟨w, sampleImage, v, hw, (drawing_confined_iff hs).1 1 w _ hw hclip hwindow, hrun, hv,
    (drawing_confined_iff hs).2 0 (.rect _) _ 1 _ w 0 v hwindow hcall hw hclip
      (.single ⟨n, hn, hparent⟩) hv (Or.inr ?_)⟩
  rw [hcontent]
  exact fun _ hx => hx

end Sample

end GuiLibrary

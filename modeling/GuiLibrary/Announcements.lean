import GuiLibrary.Contents
import GuiLibrary.Cuts

/-!
# What a step announces

A step of the program may move, recolour, map, unmap, create and destroy widgets. It announces its
changes at a pixel when the pixel is invalidated afterwards unless the widgets that show there are
the same as before, and stand in the same order. A step that announces its changes leaves the scene
alone at every pixel that is not invalidated.

For this a widget must show in its painted extent only, and may not be a button with `no_clipping`
there, whose drawing depends on its grandparent.

## Main definitions

* `AppState.view`: what the scene reads of a widget.
* `InsideAt`: the widgets show in their extents only.
* `Announces`.

## Main results

* `Announces.picture_eq`: outside of the invalidated rectangles the scene stays.
* `insideAt_of_neat`: when widgets show in their extents only.
-/

namespace GuiLibrary

open Cells Pictures

/-! ### Views -/

/-- What the scene reads of a widget. -/
def AppState.view (s : AppState) (q : Ptr) :
    Option ((Option Ptr × Bool × Rect × ContentRect × Attrs) × Color × Bool) :=
  (s.widgets q).map fun w =>
    (w.look, w.pickColor, decide (s.buttonPressed = some q ∧ s.pressingOver))

section View

variable {s s' : AppState} {q : Ptr} {w w' : Widget} {x : Point}

theorem exists_of_view (h : s'.view q = s.view q) (hw : s.widgets q = some w) :
    ∃ w', s'.widgets q = some w' ∧ w'.look = w.look ∧ w'.pickColor = w.pickColor ∧
      ((s'.buttonPressed = some q ∧ s'.pressingOver) ↔
        (s.buttonPressed = some q ∧ s.pressingOver)) := by
  rw [AppState.view, AppState.view, hw, Option.map_some, Option.map_eq_some_iff] at h
  obtain ⟨w', hw', h⟩ := h
  simp only [Prod.mk.injEq, decide_eq_decide] at h
  exact ⟨w', hw', h⟩

theorem widgets_eq_none_of_view (h : s'.view q = s.view q) :
    s'.widgets q = none ↔ s.widgets q = none := by
  rw [← Option.map_eq_none_iff (f := fun w => (w.look, w.pickColor,
    decide (s'.buttonPressed = some q ∧ s'.pressingOver)))]
  exact (Eq.congr_left h).trans Option.map_eq_none_iff

theorem Widget.content_of_look (h : w'.look = w.look) : w'.content = w.content := by
  simp only [Widget.look, Prod.mk.injEq] at h
  rw [content, content, h.2.2.1, h.2.2.2.1]

theorem Widget.extent_of_look (h : w'.look = w.look) : w'.extent = w.extent :=
  extent_of_outline (outline_of_look h)

theorem isMapped_of_view (h : s'.view q = s.view q) :
    IsMapped (s'.widgets q) ↔ IsMapped (s.widgets q) := by
  cases hw : s.widgets q with
  | none => rw [(widgets_eq_none_of_view h).mpr hw]
  | some w =>
    obtain ⟨w', hw', hlook, -⟩ := exists_of_view h hw
    simp only [Widget.look, Prod.mk.injEq] at hlook
    rw [hw', isMapped_some, isMapped_some, hlook.2.1]

theorem exists_of_isMapped (h : IsMapped (s.widgets q)) :
    ∃ w, s.widgets q = some w ∧ w.geomParams.isSome := by
  cases hq : s.widgets q with
  | none => simp [hq, IsMapped] at h
  | some w => exact ⟨w, rfl, isMapped_some.mp (hq ▸ h)⟩

theorem inExtentOf_of_view (h : s'.view q = s.view q) :
    InExtentOf (s'.widgets q) x ↔ InExtentOf (s.widgets q) x := by
  cases hw : s.widgets q with
  | none => rw [(widgets_eq_none_of_view h).mpr hw]
  | some w =>
    obtain ⟨w', hw', hlook, -⟩ := exists_of_view h hw
    have hextent := Widget.extent_of_look hlook
    simp only [Widget.look, Prod.mk.injEq] at hlook
    simp only [InExtentOf, hw', Option.some.injEq, exists_eq_left', hlook.2.1, hextent]

variable [Hardware] [Raster] [TextRendering]

/-- The drawing of a widget that is clipped reads its view. -/
theorem drawing_eq_of_look (hlook : w'.look = w.look) (hcolor : w'.pickColor = w.pickColor)
    (hshift : (s'.buttonPressed = some q ∧ s'.pressingOver) ↔
      (s.buttonPressed = some q ∧ s.pressingOver))
    (hclip : w.Clipped) (K : Rect) : drawing s' q w' K = drawing s q w K := by
  have hcontent := Widget.content_of_look hlook
  simp only [Widget.look, Prod.mk.injEq] at hlook
  obtain ⟨-, -, hlocation, -, hattrs⟩ := hlook
  have hpoint : ∀ anchor size, labelPoint s' q w' anchor size = labelPoint s q w anchor size := by
    intro anchor size
    simp only [labelPoint, hcontent, hattrs, hshift]
  have hlabel : ∀ a K, drawLabel s' q w' a K = drawLabel s q w a K := by
    intro a K
    simp only [drawLabel, hpoint]
  rw [drawing_of_clipped hclip, drawing_of_clipped (w := w') (fun a ha => hclip a (hattrs ▸ ha)),
    hattrs]
  cases w.attrs with
  | frame a | button a =>
    simp only [drawframebuttonclasses, finalClipper, hcontent, hlocation, hcolor, hlabel]
  | toplevel a => simp only [drawtoplevel, hcontent, hcolor]

end View

section Classes

variable [Hardware] [Raster] [TextRendering] {s s' : AppState} {window : Size} {x : Point}
  {π : Plane} {q root : Ptr} {w : Widget}

/-- **The widgets show in their extents only**: at the pixel, a mapped widget whose extent does not
contain it has nothing on either plane, and no content area; and one whose extent does is not a
button with `no_clipping`. -/
structure InsideAt (s : AppState) (x : Point) : Prop where
  outside : ∀ q w, s.widgets q = some w → w.geomParams.isSome → x ∉ w.extent →
    Untouched s q w x ∧ x ∉ w.content
  clipped : ∀ q w, s.widgets q = some w → w.geomParams.isSome → x ∈ w.extent → w.Clipped

theorem Untouched.callEffect_eq (h : Untouched s q w x) (hq : s.widgets q = some w) (K : Rect)
    (π : Plane) : callEffect s π (q, K) x = id := by
  by_cases hd : (drawingOf s (q, K)).isSome
  · cases π with
    | root => exact h.callEffect_root hq hd
    | pick => exact h.callEffect_pick hq hd
  · rw [Option.not_isSome_iff_eq_none] at hd
    rw [callEffect, hd]
    rfl

/-- A widget whose extent does not contain the pixel is blank there. -/
theorem InsideAt.blank (h : InsideAt s x) (hroot : s.rootWidget ≠ some q)
    (hx : ¬ InExtentOf (s.widgets q) x) : (s.scene window π).Blank x q := by
  intro hshown
  obtain ⟨w, hq, hg⟩ := exists_of_isMapped (hshown.resolve_left hroot)
  obtain ⟨huntouched, hcontent⟩ := h.outside q w hq hg fun hxe => hx ⟨w, hq, hg, hxe⟩
  refine ⟨huntouched.callEffect_eq hq _ π, ?_⟩
  rintro ⟨v, hv, hxv⟩
  rw [← Option.some.inj (hq.symm.trans hv)] at hxv
  exact hcontent hxv

/-- A widget with the same view that is clipped shows the same. -/
theorem sameAt_of_view (hroot : s'.rootWidget = s.rootWidget)
    (hsurfaces : s'.surfaceOf π = s.surfaceOf π) (hview : s'.view q = s.view q)
    (hclip : ∀ w, s.widgets q = some w → w.Clipped) :
    Scene.SameAt (s.scene window π) (s'.scene window π) x q := by
  refine ⟨?_, ?_, ?_⟩
  · simp only [AppState.scene, hroot, isMapped_of_view hview]
  · cases hq : s.widgets q with
    | none =>
      simp only [AppState.scene, Set.mem_ofPred_eq, hq, (widgets_eq_none_of_view hview).mpr hq]
    | some w =>
      obtain ⟨w', hq', hlook, -⟩ := exists_of_view hview hq
      simp only [AppState.scene, Set.mem_ofPred_eq, hq, hq', Option.some.injEq, exists_eq_left',
        Widget.content_of_look hlook]
  · have hdrawing : drawingOf s' (q, Rect.ofSize window) = drawingOf s (q, Rect.ofSize window) := by
      cases hq : s.widgets q with
      | none =>
        simp only [drawingOf, hq, (widgets_eq_none_of_view hview).mpr hq, Option.bind_eq_bind,
          Option.bind_none]
      | some w =>
        obtain ⟨w', hq', hlook, hcolor, hshift⟩ := exists_of_view hview hq
        simp only [drawingOf, hq, hq', Option.bind_eq_bind, Option.bind_some,
          drawing_eq_of_look hlook hcolor hshift (hclip w hq)]
    simp only [AppState.scene, callEffect, hdrawing, hsurfaces]

/-! ### Announced changes -/

/-- **The step from `s` to `s'` announces its changes at the pixel.** The surfaces and the root stay
as they are; the pixel stays invalidated if it was; a widget that changes, or that is not one of the
widgets to `keep`, does not show there unless the pixel is invalidated; and the widgets to keep
stand in the same order. -/
structure Announces (x : Point) (keep : Ptr → Prop) [DecidablePred keep] (s s' : AppState) :
    Prop where
  surfaces : ∀ π, s'.surfaceOf π = s.surfaceOf π
  rootWidget : s'.rootWidget = s.rootWidget
  root : ∀ r, s.rootWidget = some r → keep r ∧ s'.view r = s.view r
  damage : Covered s.invalidatedRects x → Covered s'.invalidatedRects x
  changed : ∀ q, s.Live q → keep q → s'.view q ≠ s.view q →
    InExtentOf (s.widgets q) x ∨ InExtentOf (s'.widgets q) x → Covered s'.invalidatedRects x
  dropped : ∀ q, ¬ keep q → InExtentOf (s.widgets q) x ∨ InExtentOf (s'.widgets q) x →
    Covered s'.invalidatedRects x
  forest : ∀ root r r' f f', s.widgets root = some r → s'.widgets root = some r' →
    Represents nodeLinks s.nodes root r.childrenHead f →
    Represents nodeLinks s'.nodes root r'.childrenHead f' → f'.prune keep = f.prune keep

/-- **Where the changes are announced and the pixel is not invalidated, the scene stays.** -/
theorem Announces.picture_eq {keep : Ptr → Prop} [DecidablePred keep] {r r' : Widget}
    {f f' : Forest Ptr} (h : Announces x keep s s') (hin : InsideAt s x) (hin' : InsideAt s' x)
    (hroot : s.rootWidget = some root) (hr : s.widgets root = some r) (hclip : r.Clipped)
    (hr' : s'.widgets root = some r')
    (hf : Represents nodeLinks s.nodes root r.childrenHead f)
    (hf' : Represents nodeLinks s'.nodes root r'.childrenHead f')
    (hcov : ¬ Covered s'.invalidatedRects x) (π : Plane) :
    (s'.scene window π).picture x (.cons root f' .nil) =
      (s.scene window π).picture x (.cons root f .nil) := by
  obtain ⟨hkeep, hview⟩ := h.root root hroot
  have hblank : ∀ q, s.rootWidget ≠ some q →
      (InExtentOf (s.widgets q) x ∨ InExtentOf (s'.widgets q) x → Covered s'.invalidatedRects x) →
      (s.scene window π).Blank x q ∧ (s'.scene window π).Blank x q := by
    intro q hne hcovered
    exact ⟨hin.blank hne fun hx => hcov (hcovered (Or.inl hx)),
      hin'.blank (h.rootWidget ▸ hne) fun hx => hcov (hcovered (Or.inr hx))⟩
  have hdropped : ∀ q, ¬ keep q →
      (s.scene window π).Blank x q ∧ (s'.scene window π).Blank x q := fun q hq =>
    hblank q (fun hroot' => hq (h.root q hroot').1) (h.dropped q hq)
  have hlive : ∀ q ∈ (Forest.cons root f .nil).nodes, s.Live q := by
    intro q hq
    rw [Forest.nodes_cons, Forest.nodes_nil, List.append_nil, List.mem_cons] at hq
    rcases hq with rfl | hq
    · exact AppState.live_iff.mpr ⟨r, hr⟩
    · exact hf.live q hq
  have hprune : (Forest.cons root f' .nil).prune keep = (Forest.cons root f .nil).prune keep := by
    simp only [Forest.prune, if_pos hkeep, h.forest root r r' f f' hr hr' hf hf']
  refine Scene.picture_eq hprune (fun q _ hq => (hdropped q hq).1)
    (fun q _ hq => (hdropped q hq).2) fun q hq hkq => ?_
  by_cases hqroot : s.rootWidget = some q
  · obtain rfl := Option.some.inj (hroot.symm.trans hqroot)
    exact Or.inl (sameAt_of_view h.rootWidget (h.surfaces π) hview fun v hv => by
      rwa [← Option.some.inj (hr.symm.trans hv)])
  · by_cases hsame : s'.view q = s.view q
    · by_cases hx : InExtentOf (s.widgets q) x
      · refine Or.inl (sameAt_of_view h.rootWidget (h.surfaces π) hsame fun v hv => ?_)
        obtain ⟨w, hw, hg, hxw⟩ := hx
        obtain rfl := Option.some.inj (hw.symm.trans hv)
        exact hin.clipped q w hw hg hxw
      · exact Or.inr ⟨hin.blank hqroot hx, hin'.blank (h.rootWidget ▸ hqroot)
          fun hx' => hx ((inExtentOf_of_view hsame).mp hx')⟩
    · exact Or.inr (hblank q hqroot (h.changed q (hlive q hq) hkq hsame))

/-! ### Widgets that show in their extents -/

/-- What is assumed of the polygon filler: the outlines of a rectangle with rounded corners, and
their halves, fill nothing outside of it. -/
def Raster.StaysInside : Prop :=
  ∀ (rect : Rect) (r : ℤ) (points : List Point) (x : Point), 0 ≤ r →
    points = eiRoundedFrameAll rect r ∨ points = eiRoundedFrameHigh rect r ∨
      points = eiRoundedFrameLow rect r → Filled points x → x ∈ rect

/-- The content area of the widget is where its location and its border put it, the border is not
negative, and the widget is not a button with `no_clipping`. -/
structure Widget.Neat (w : Widget) : Prop where
  agrees : w.Agrees
  clipped : w.Clipped
  border : ∀ a, w.attrs.labelled = some a → 0 ≤ a.borderWidth
  toplevel : ∀ a, w.attrs = .toplevel a → 0 ≤ a.borderWidth
  corners : 0 ≤ cornerRadiusOf w

namespace Widget.Neat

omit [Hardware] [Raster] [TextRendering] in
theorem content_subset (h : w.Neat) (hx : x ∈ w.content) : x ∈ w.extent := by
  obtain ⟨hagrees, -, hborder, htop, -⟩ := h
  simp only [Widget.Agrees, Widget.extent] at hagrees ⊢
  cases ha : w.attrs with
  | frame a | button a =>
    have hb := hborder _ (by rw [ha]; rfl)
    simp only [ha] at hagrees ⊢
    simp only [hagrees, insetRect, Rect.mem_iff] at hx ⊢
    omega
  | toplevel a =>
    have hb := htop a ha
    simp only [ha] at hagrees ⊢
    rw [hagrees.2]
    simp only [hagrees.1, toplevelContent, toplevelDrawRect, Rect.mem_iff, defaultTopbarHeight]
      at hx ⊢
    omega

omit [Hardware] [Raster] [TextRendering] in
theorem extent_of_labelled {a : FrameAttrs} (ha : w.attrs.labelled = some a) :
    w.extent = w.screenLocation := by
  cases hattrs : w.attrs with
  | frame | button => rw [Widget.extent, hattrs]
  | toplevel b => simp [hattrs, Attrs.labelled] at ha

omit [Hardware] [Raster] [TextRendering] in
/-- The final clipper lies in the extent. -/
theorem finalClipper_subset (h : w.Neat) {a : FrameAttrs} (ha : w.attrs.labelled = some a)
    {K : Rect} (hx : x ∈ finalClipper w a K) : x ∈ w.extent := by
  rw [finalClipper] at hx
  split_ifs at hx
  · exact h.content_subset (mem_getEiRectIntersection.mp hx).2
  · rwa [extent_of_labelled ha]

theorem untouched (h : w.Neat) (hraster : Raster.StaysInside) (hx : x ∉ w.extent) :
    Untouched s q w x := by
  refine ⟨fun K l hpaints => hx ?_, fun hin => hx ?_⟩
  · cases l with
    | toplevel =>
      obtain ⟨b, hb, -, hdraw | hcontent⟩ := hpaints
      · cases ha : w.attrs with
        | frame | button => simp [ha, Attrs.toplevelAttrs] at hb
        | toplevel b' =>
          simp only [ha, Attrs.toplevelAttrs, Option.some.injEq] at hb
          rw [Widget.extent, ha]
          exact hb ▸ hdraw
      · exact h.content_subset hcontent
    | border =>
      obtain ⟨a, border, ha, -, -, polygon, hpolygon, hfilled⟩ := hpaints
      rw [extent_of_labelled ha]
      rw [borderPolygons] at hpolygon
      split_ifs at hpolygon
      · simp only [List.mem_cons, List.not_mem_nil, or_false] at hpolygon
        rcases hpolygon with rfl | rfl
        · exact hraster _ _ _ x h.corners (Or.inr (Or.inl rfl)) hfilled
        · exact hraster _ _ _ x h.corners (Or.inr (Or.inr rfl)) hfilled
      · obtain rfl := List.mem_singleton.mp hpolygon
        exact hraster _ _ _ x (le_refl 0) (Or.inl rfl) hfilled
    | face =>
      obtain ⟨a, ha, -, -, hin⟩ := hpaints
      exact h.finalClipper_subset ha hin
    | label =>
      obtain ⟨a, label, ha, -, -, hin⟩ := hpaints
      exact h.finalClipper_subset ha hin
  · cases ha : w.attrs with
    | frame a | button a =>
      rw [InExtent, ha] at hin
      rw [Widget.extent, ha]
      exact hraster _ _ _ x h.corners (Or.inl rfl) hin
    | toplevel a =>
      rw [InExtent, ha] at hin
      rw [Widget.extent, ha]
      exact hin

end Widget.Neat

/-- **Neat widgets show in their extents only.** -/
theorem insideAt_of_neat (hraster : Raster.StaysInside)
    (h : ∀ q w, s.widgets q = some w → w.geomParams.isSome → w.Neat) (x : Point) :
    InsideAt s x where
  outside q w hq hg hx := ⟨(h q w hq hg).untouched hraster hx,
    fun hc => hx ((h q w hq hg).content_subset hc)⟩
  clipped q w hq hg _ := (h q w hq hg).clipped

end Classes

/-- The filler of squares stays inside. -/
theorem staysInside_square : squareRaster.StaysInside := by
  intro rect r points x hr hpoints hfilled
  by_cases hlt : r < rect.halfSide
  · exact (@polygonPixel_outline_square rect r x hr hlt points hpoints).mp hfilled.2
  · -- There is no outline when the radius is too large.
    rw [Rect.halfSide, not_lt] at hlt
    refine absurd ?_ hfilled.1
    rcases hpoints with rfl | rfl | rfl
    · simp only [eiRoundedFrameAll, if_pos hlt]
    · simp only [eiRoundedFrameHigh, if_pos hlt]
    · simp only [eiRoundedFrameLow, if_pos hlt]

end GuiLibrary

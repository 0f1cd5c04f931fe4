import GuiLibrary.FullDraw
import GuiLibrary.Visibility

/-!
# The quit button of a toplevel

The quit button stands in the title bar, above the content area of its toplevel. Its flag
`no_clipping` has it painted in the content area of the grandparent instead of the clipper that
comes down to it. But it is called from its toplevel like any child: when the part of the root's
content area that lies in the content area of the toplevel has a negative side, the descent stops
there, and the button is not painted at all, also where the title bar is still in the window.

The extent of the button is what its own polygons fill: the halves of its border and its face on the
root surface, its outline on the pick surface. Nothing is assumed of the polygon filler.

## Main definitions

* `QuitButton`: the quit button of a closable toplevel in the root.
* `InScreenExtent`: the extent on the root surface.
* `PaintedBy`, `ShownExactly`: the button is painted on its extent in the content area of the root.

## Main results

* `runCalls_drawfuncOf`: the calls of a full draw run the primitives of their drawings.
* `exists_initialDraw`: a full draw completes.
* `quitButton_shown_iff`.
-/

namespace GuiLibrary

open Cells

/-! ### The drawings of a full draw -/

section Classes

variable [Hardware] [Raster] [TextRendering]

/-- What the drawing function calls for a widget and its clipper. -/
def drawingOf (s : AppState) (call : Ptr × Rect) : Option Drawing := do
  let w ← s.widgets call.1
  drawing s call.1 w call.2

/-- The drawing functions do not read the surfaces. -/
theorem drawingOf_onlySurfaces {s s₁ : AppState} (h : OnlySurfaces s s₁) (call : Ptr × Rect) :
    drawingOf s₁ call = drawingOf s call := by
  rw [h]
  rfl

/-- The surfaces after some drawings. -/
def AppState.drawn (s : AppState) (drawings : List Drawing) : AppState :=
  { s with
    rootSurface := runPrimitives (drawings.flatMap Drawing.surface) s.rootSurface
    pickSurface := runPrimitives (drawings.flatMap Drawing.pickSurface) s.pickSurface }

/-- **The calls of a full draw run the primitives of their drawings**, on both surfaces; the
drawings are those of the state before the draw. -/
theorem runCalls_drawfuncOf {s : AppState} : (calls : List (Ptr × Rect)) → {s₁ : AppState} →
    OnlySurfaces s s₁ →
      runCalls drawfuncOf calls s₁ = (calls.mapM (drawingOf s)).map s₁.drawn
  | [], _, _ => rfl
  | call :: calls, s₁, hs₁ => by
      have hcall : drawfuncOf s₁ call.1 call.2 = (drawingOf s call).map fun d => s₁.drawn [d] := by
        rw [← drawingOf_onlySurfaces hs₁]
        simp only [drawfuncOf, drawingOf, AppState.drawn, List.flatMap_singleton,
          Option.bind_eq_bind]
        cases s₁.widgets call.1 with
        | none => rfl
        | some w =>
          simp only [Option.bind_some]
          cases drawing s₁ call.1 w call.2 <;> rfl
      rw [runCalls_cons, hcall, List.mapM_cons]
      cases hd : drawingOf s call with
      | none => rfl
      | some d =>
        have hs₂ : OnlySurfaces s (s₁.drawn [d]) := hs₁.trans rfl
        simp only [Option.map_some, Option.bind_some, runCalls_drawfuncOf calls hs₂,
          Option.bind_eq_bind]
        cases calls.mapM (drawingOf s) with
        | none => rfl
        | some ds => simp [AppState.drawn, runPrimitives]

/-- Every button with `no_clipping` has a grandparent: `setdefaultstoplevel` sets the flag, on a
child of a toplevel. -/
def HasGrandparents (s : AppState) : Prop :=
  ∀ p w b, s.widgets p = some w → w.attrs = .button b → b.noClipping = true →
    ∃ o ow g, w.parent = some o ∧ s.widgets o = some ow ∧ ow.parent = some g

/-- A widget can be drawn with any clipper. -/
theorem isSome_drawing {s : AppState} (hs : WellFormed s) (hflags : HasGrandparents s) {p : Ptr}
    {w : Widget} (hp : s.widgets p = some w) (K : Rect) : (drawing s p w K).isSome := by
  cases ha : w.attrs with
  | frame a => simp [drawing, ha]
  | toplevel a => simp [drawing, ha]
  | button b =>
    by_cases hno : b.noClipping = true
    · obtain ⟨o, ow, g, ho, how, hg⟩ := hflags p w b hp ha hno
      obtain ⟨n, hn⟩ := hs.linked.parent_live o g ⟨ow.node, AppState.nodes_of_widgets how, hg⟩
      obtain ⟨gw, hgw, -⟩ := AppState.nodes_eq_some.mp hn
      simp [drawing, ha, borderClipper, hno, ho, how, hg, hgw]
    · simp [drawing, ha, borderClipper, hno]

theorem isSome_mapM {calls : List (Ptr × Rect)} {s : AppState}
    (h : ∀ call ∈ calls, (drawingOf s call).isSome) : (calls.mapM (drawingOf s)).isSome := by
  induction calls with
  | nil => rfl
  | cons call calls ih =>
    obtain ⟨d, hd⟩ := Option.isSome_iff_exists.mp (h call List.mem_cons_self)
    obtain ⟨ds, hds⟩ := Option.isSome_iff_exists.mp
      (ih fun c hc => h c (List.mem_cons_of_mem call hc))
    simp [List.mapM_cons, hd, hds]

/-- **A full draw completes** when every button with `no_clipping` has a grandparent. -/
theorem exists_initialDraw {s : AppState} (hs : WellFormed s) (hup : UpToDate s) {root : Ptr}
    {r : Widget} {f : Forest Ptr} (hroot : s.rootWidget = some root)
    (hr : s.widgets root = some r) (hf : Represents nodeLinks s.nodes root r.childrenHead f)
    (hflags : HasGrandparents s) :
    ∃ ds, (fullCalls s.widgets root r f).mapM (drawingOf s) = some ds ∧
      initialDrawWith drawfuncOf s = some (s.drawn ds) := by
  have hsome : ((fullCalls s.widgets root r f).mapM (drawingOf s)).isSome := by
    refine isSome_mapM fun call hcall => ?_
    obtain ⟨w, hw⟩ := ((mem_fullCalls_iff hs hroot hr hf).mp hcall).exists_widget
    rw [drawingOf, hw]
    exact isSome_drawing hs hflags hw call.2
  obtain ⟨ds, hds⟩ := Option.isSome_iff_exists.mp hsome
  refine ⟨ds, hds, ?_⟩
  rw [initialDrawWith_eq drawfuncOf_drawsOnly hs hup hroot hr hf,
    runCalls_drawfuncOf _ (OnlySurfaces.refl s), hds, Option.map_some]

/-- Some call of the widget paints the pixel, on one of the surfaces. -/
def PaintedBy (s : AppState) (calls : List (Ptr × Rect)) (q : Ptr)
    (surface : Drawing → List Primitive) (x : Point) : Prop :=
  ∃ K d, (q, K) ∈ calls ∧ drawingOf s (q, K) = some d ∧ Painted (surface d) x

end Classes

/-! ### The quit button -/

/-- The quit button `q` of a closable toplevel `t` of the root, as `setdefaultstoplevel` makes it:
all three are shown. -/
structure QuitButton (s : AppState) (root t q : Ptr) (r tw w : Widget) : Prop where
  rootWidget : s.rootWidget = some root
  root_live : s.widgets root = some r
  toplevel : s.widgets t = some tw
  closable : ∃ a, tw.attrs = .toplevel a ∧ a.closable = true
  toplevel_parent : tw.parent = some root
  toplevel_mapped : tw.geomParams.isSome
  button : s.widgets q = some w
  flagged : ∃ b, w.attrs = .button b ∧ b.isQuitButton = true ∧ b.noClipping = true ∧
    b.borderWidth = kDefaultButtonBorderWidth ∧ b.cornerRadius = 1
  button_parent : w.parent = some t
  button_mapped : w.geomParams.isSome

section Called

variable {s : AppState} {root t q : Ptr} {r tw w : Widget} {K : Rect}

/-- Only the root is called as the root. -/
theorem called_root (hs : WellFormed s) (hroot : s.rootWidget = some root)
    (hr : s.widgets root = some r) (h : Called s root root K) : K = r.content := by
  cases h with
  | root hr' => rw [Option.some.inj (hr.symm.trans hr')]
  | child _ _ hq hparent => exact absurd hroot (hs.rootWidget_ne hq hparent)

/-- A widget with a parent is called below its parent. -/
theorem called_child (hs : WellFormed s) (hroot : s.rootWidget = some root) {p : Ptr}
    {v : Widget} (hp : s.widgets p = some v) (hq : s.widgets q = some w)
    (hparent : w.parent = some p) (hmapped : w.geomParams.isSome) :
    Called s root q K ↔ ∃ K', Called s root p K' ∧ K = getEiRectIntersection K' v.content ∧
      ¬ K.Negative := by
  constructor
  · intro h
    cases h with
    | root hr' => exact absurd hroot (hs.rootWidget_ne hq hparent)
    | @child p' _ K' v' w' h hp' hq' hparent' _ hsize =>
      obtain rfl := Option.some.inj (hq.symm.trans hq')
      obtain rfl := Option.some.inj (hparent.symm.trans hparent')
      obtain rfl := Option.some.inj (hp.symm.trans hp')
      exact ⟨K', h, rfl, hsize⟩
  · rintro ⟨K', h, rfl, hsize⟩
    exact .child h hp hq hparent hmapped hsize

/-- **The quit button is called** with the part of the content area of the root that lies in the
content area of its toplevel, unless this part has a negative side. -/
theorem called_quitButton (hs : WellFormed s) (h : QuitButton s root t q r tw w) :
    Called s root q K ↔ K = getEiRectIntersection r.content tw.content ∧ ¬ K.Negative := by
  have hself : getEiRectIntersection r.content r.content = r.content := by
    simp [getEiRectIntersection]
  rw [called_child hs h.rootWidget h.toplevel h.button h.button_parent h.button_mapped]
  constructor
  · rintro ⟨K', hK', rfl, hneg⟩
    rw [called_child hs h.rootWidget h.root_live h.toplevel h.toplevel_parent
      h.toplevel_mapped] at hK'
    obtain ⟨K'', hK'', rfl, -⟩ := hK'
    obtain rfl := called_root hs h.rootWidget h.root_live hK''
    rw [hself] at hneg ⊢
    exact ⟨rfl, hneg⟩
  · rintro ⟨rfl, hneg⟩
    refine ⟨r.content, ?_, rfl, hneg⟩
    have hr : ¬ r.content.Negative := fun h => hneg (h.intersection tw.content)
    exact (called_child hs h.rootWidget h.root_live h.toplevel h.toplevel_parent
      h.toplevel_mapped).mpr ⟨r.content, .root h.root_live, hself.symm, hr⟩

end Called

section Shown

variable [Hardware] [Raster] [TextRendering] {s : AppState} {root t q : Ptr} {r tw w : Widget}
  {f : Forest Ptr} {K : Rect} {x : Point}

/-- What the polygons of a button with a border fill on the root surface: the two halves of the
border and the face, which lies in the rectangle that the clipper leaves of its content area. -/
def InScreenExtent (w : Widget) (face : Rect) (x : Point) : Prop :=
  (Filled (eiRoundedFrameHigh w.screenLocation (cornerRadiusOf w)) x ∨
      Filled (eiRoundedFrameLow w.screenLocation (cornerRadiusOf w)) x) ∨
    Filled (eiRoundedFrameAll face (cornerRadiusOf w)) x ∧ x ∈ face

/-- What the content areas of the root and of the toplevel leave of the content area of the quit
button. In the title bar it has no pixel. -/
def quitFace (r tw w : Widget) : Rect :=
  getEiRectIntersection (getEiRectIntersection r.content tw.content) w.content

/-- A full draw runs its calls, and those for the quit button paint it, on each surface, on exactly
the part of its extent in the content area of the root. -/
structure ShownExactly (s : AppState) (root q : Ptr) (r tw w : Widget) (f : Forest Ptr) :
    Prop where
  calls : initialDrawWith drawfuncOf s = runCalls drawfuncOf (fullCalls s.widgets root r f) s
  surface : ∀ x ∈ Rect.ofSize s.rootSurface.size,
    PaintedBy s (fullCalls s.widgets root r f) q Drawing.surface x ↔
      InScreenExtent w (quitFace r tw w) x ∧ x ∈ r.content
  pickSurface : ∀ x ∈ Rect.ofSize s.rootSurface.size,
    PaintedBy s (fullCalls s.widgets root r f) q Drawing.pickSurface x ↔
      InExtent w x ∧ x ∈ r.content

/-- The drawing of the quit button: its border is cut at the content area of the root. -/
theorem exists_drawing_quitButton (h : QuitButton s root t q r tw w) :
    ∃ b : ButtonAttrs, w.attrs = .button b ∧ b.borderWidth = kDefaultButtonBorderWidth ∧
      b.cornerRadius = 1 ∧ drawingOf s (q, K) =
        some (drawframebuttonclasses s q w b.toFrameAttrs b.cornerRadius r.content K) := by
  obtain ⟨b, hb, -, hno, hborder, hradius⟩ := h.flagged
  refine ⟨b, hb, hborder, hradius, ?_⟩
  simp only [drawingOf, h.button, drawing, hb, borderClipper, hno, if_true, h.button_parent,
    h.toplevel, h.toplevel_parent, h.root_live, Option.bind_eq_bind, Option.bind_some]

/-- A call of the quit button paints its extents in the content area of the root. -/
theorem painted_quitButton (h : QuitButton s root t q r tw w) {d : Drawing}
    (hd : drawingOf s (q, getEiRectIntersection r.content tw.content) = some d) :
    (Painted d.surface x ↔ InScreenExtent w (quitFace r tw w) x ∧ x ∈ r.content) ∧
      (Painted d.pickSurface x ↔ InExtent w x ∧ x ∈ r.content) := by
  obtain ⟨b, hb, hborder, -, hd'⟩ := @exists_drawing_quitButton _ _ _ _ _ _ _ _ _ _
    (getEiRectIntersection r.content tw.content) h
  obtain rfl := Option.some.inj (hd'.symm.trans hd)
  have hr : b.cornerRadius = cornerRadiusOf w := by simp only [cornerRadiusOf, hb]
  have hbordered : b.toFrameAttrs.borderWidth ≠ 0 := by
    rw [hborder]
    decide
  have hface : x ∈ quitFace r tw w → x ∈ r.content := fun hx =>
    (mem_getEiRectIntersection.mp (mem_getEiRectIntersection.mp hx).1).1
  rw [painted_surface_bordered hbordered, painted_pickSurface, hr, InExtent, hb]
  simp only [InScreenExtent, Filled, pickPoints, eiRoundedFrameHigh_ne_nil,
    eiRoundedFrameLow_ne_nil, eiRoundedFrameAll_ne_nil]
  rw [quitFace] at hface ⊢
  constructor
  · constructor
    · rintro (⟨hlt, hhalf, hx⟩ | ⟨hlt, hfill, hx⟩)
      · exact ⟨Or.inl (hhalf.imp (⟨hlt, ·⟩) (⟨hlt, ·⟩)), hx⟩
      · exact ⟨Or.inr ⟨⟨hlt, hfill⟩, hx⟩, hface hx⟩
    · rintro ⟨(⟨hlt, hfill⟩ | ⟨hlt, hfill⟩) | ⟨⟨hlt, hfill⟩, hxf⟩, hx⟩
      · exact Or.inl ⟨hlt, Or.inl hfill, hx⟩
      · exact Or.inl ⟨hlt, Or.inr hfill, hx⟩
      · exact Or.inr ⟨hlt, hfill, hxf⟩
  · rw [and_assoc]

/-- **When the quit button is painted.** A full draw paints it, on each surface, on exactly the part
of its extent in the content area of the root, if and only if no part of the extents is in view, or
the content areas of the root and of the toplevel have an intersection without negative side. -/
theorem quitButton_shown_iff (hs : WellFormed s) (hup : UpToDate s)
    (h : QuitButton s root t q r tw w)
    (hf : Represents nodeLinks s.nodes root r.childrenHead f) :
    ShownExactly s root q r tw w f ↔
      ¬ (getEiRectIntersection r.content tw.content).Negative ∨
        ∀ x ∈ Rect.ofSize s.rootSurface.size, x ∈ r.content →
          ¬ InScreenExtent w (quitFace r tw w) x ∧ ¬ InExtent w x := by
  have hcall : ∀ K, (q, K) ∈ fullCalls s.widgets root r f ↔
      K = getEiRectIntersection r.content tw.content ∧ ¬ K.Negative := fun K =>
    (mem_fullCalls_iff hs h.rootWidget h.root_live hf).trans (called_quitButton hs h)
  have hdraw := initialDrawWith_eq drawfuncOf_drawsOnly hs hup h.rootWidget h.root_live hf
  by_cases hneg : (getEiRectIntersection r.content tw.content).Negative
  · -- The button is not called.
    have hnone : ∀ surface x,
        ¬ PaintedBy s (fullCalls s.widgets root r f) q surface x := by
      rintro surface x ⟨K, d, hmem, -⟩
      obtain ⟨rfl, hK⟩ := (hcall K).mp hmem
      exact hK hneg
    constructor
    · exact fun hshown => Or.inr fun x hx hxr =>
        ⟨fun hext => hnone _ x ((hshown.surface x hx).mpr ⟨hext, hxr⟩),
          fun hext => hnone _ x ((hshown.pickSurface x hx).mpr ⟨hext, hxr⟩)⟩
    · intro hout
      have hout := hout.resolve_left (not_not.mpr hneg)
      exact ⟨hdraw, fun x hx => iff_of_false (hnone _ x) fun hext => (hout x hx hext.2).1 hext.1,
        fun x hx => iff_of_false (hnone _ x) fun hext => (hout x hx hext.2).2 hext.1⟩
  · -- It is called once.
    refine iff_of_true ?_ (Or.inl hneg)
    obtain ⟨b, -, -, -, hd⟩ := @exists_drawing_quitButton _ _ _ _ _ _ _ _ _ _
      (getEiRectIntersection r.content tw.content) h
    have hpainted : ∀ surface x, PaintedBy s (fullCalls s.widgets root r f) q surface x ↔
        Painted (surface (drawframebuttonclasses s q w b.toFrameAttrs b.cornerRadius r.content
          (getEiRectIntersection r.content tw.content))) x := by
      intro surface x
      constructor
      · rintro ⟨K, d, hmem, hd', hp⟩
        obtain ⟨rfl, -⟩ := (hcall K).mp hmem
        rwa [Option.some.inj (hd.symm.trans hd')]
      · exact fun hp => ⟨_, _, (hcall _).mpr ⟨rfl, hneg⟩, hd, hp⟩
    exact ⟨hdraw, fun x _ => (hpainted _ x).trans (painted_quitButton h hd).1,
      fun x _ => (hpainted _ x).trans (painted_quitButton h hd).2⟩

end Shown

/-! ### A toplevel in the window, and one below it -/

section Sample

attribute [local instance] sampleHardware sampleTextRendering

/-- Whether the locations are up to date, as a computation. -/
def isUpToDate (s : AppState) : Bool :=
  (List.range s.nextWidget).all fun q => (s.widgets q).all fun w => w.parent.all fun o =>
    (s.widgets o).all fun pw => decide (w.target pw.content = w.screenLocation)

theorem upToDate_of_isUpToDate {s : AppState} (hs : WellFormed s) (h : isUpToDate s = true) :
    UpToDate s := by
  intro q w o pw hw _ ho hpw
  have hlt := hs.lt_nextWidget (AppState.live_iff.mpr ⟨w, hw⟩)
  have hq := List.all_eq_true.mp h q (List.mem_range.mpr hlt)
  simpa [hw, ho, hpw] using hq

/-- The toplevel of the application, placed at a height. -/
def createTop (y : ℤ) : Option AppState :=
  eiPlace sampleToplevel 1
    { x := some 10
      y := some y
      width := some 200
      height := some 150 }

/-- Whether the widgets are a toplevel of the root with its quit button, as a computation. -/
def isPlacedTop (s : AppState) (content location : Rect) : Option Bool := do
  let r ← s.widgets 0
  let tw ← s.widgets 1
  let w ← s.widgets 3
  match tw.attrs, w.attrs with
  | .toplevel a, .button b =>
      some (decide (s.rootWidget = some 0 ∧ a.closable = true ∧ tw.parent = some 0 ∧
        tw.geomParams.isSome ∧ b.isQuitButton = true ∧ b.noClipping = true ∧
        b.borderWidth = 4 ∧ b.cornerRadius = 1 ∧ w.parent = some 1 ∧ w.geomParams.isSome ∧
        s.rootSurface.size = ⟨640, 480⟩ ∧
        r.content = Rect.ofSize ⟨640, 480⟩ ∧ tw.content = content ∧ w.screenLocation = location))
  | _, _ => none

/-- The toplevel of the application with its quit button, placed. -/
structure PlacedTop (s : AppState) (r tw w : Widget) (content location : Rect) : Prop where
  wellFormed : WellFormed s
  upToDate : UpToDate s
  quitButton : QuitButton s 0 1 3 r tw w
  size : s.rootSurface.size = ⟨640, 480⟩
  rootContent : r.content = Rect.ofSize ⟨640, 480⟩
  content : tw.content = content
  screenLocation : w.screenLocation = location

theorem exists_placedTop {y : ℤ} {content location : Rect}
    (h : ((createTop y).bind fun s =>
      (isPlacedTop s content location).map fun b => b && isUpToDate s) = some true) :
    ∃ s r tw w, createTop y = some s ∧ PlacedTop s r tw w content location := by
  obtain ⟨s, hs, h⟩ := Option.bind_eq_some_iff.mp h
  obtain ⟨b, hb, h⟩ := Option.map_eq_some_iff.mp h
  rw [Bool.and_eq_true] at h
  obtain ⟨rfl, hup⟩ := h
  have hwf : WellFormed s := sampleToplevel_wellFormed.congr (skeleton_eiPlace hs)
  simp only [isPlacedTop, Option.bind_eq_bind, Option.bind_eq_some_iff] at hb
  obtain ⟨r, hr, tw, htw, w, hw, hb⟩ := hb
  split at hb
  · next a b ha hbt =>
    rw [Option.some.injEq, decide_eq_true_eq] at hb
    obtain ⟨hroot, hclosable, htp, htm, hquit, hno, hborder, hradius, hwp, hwm, hsize, hrc, htc,
      hloc⟩ := hb
    refine ⟨s, r, tw, w, hs, hwf, upToDate_of_isUpToDate hwf hup,
      ⟨hroot, hr, htw, ⟨a, ha, hclosable⟩, htp, htm, hw, ⟨b, hbt, hquit, hno, hborder, hradius⟩,
        hwp, hwm⟩, hsize, hrc, htc, hloc⟩
  · simp at hb

/-- The quit button of a toplevel in the window is painted, whatever the polygon filler. -/
theorem quitButton_shown_iff_top : ∃ s r tw w f, createTop 100 = some s ∧
    QuitButton s 0 1 3 r tw w ∧ Represents nodeLinks s.nodes 0 r.childrenHead f ∧
    ∀ [Raster], ShownExactly s 0 3 r tw w f := by
  obtain ⟨s, r, tw, w, hs, h⟩ :=
    @exists_placedTop 100 ⟨⟨14, 130⟩, ⟨200, 150⟩⟩ ⟨⟨20, 109⟩, ⟨10, 10⟩⟩ (by with_unfolding_all rfl)
  obtain ⟨f, hf⟩ := h.wellFormed.linked.exists_represents
    (AppState.nodes_of_widgets h.quitButton.root_live)
  refine ⟨s, r, tw, w, f, hs, h.quitButton, hf,
    (quitButton_shown_iff h.wellFormed h.upToDate h.quitButton hf).mpr (Or.inl ?_)⟩
  rw [h.rootContent, h.content]
  decide

/-- A toplevel at the bottom of the window: the content area lies below the window, the title bar
with the quit button in it. The button is not painted, whatever the polygon filler, unless its
outline fills nothing. -/
theorem not_quitButton_shown_below : ∃ s r tw w f, createTop 460 = some s ∧ WellFormed s ∧
    UpToDate s ∧ QuitButton s 0 1 3 r tw w ∧
    Represents nodeLinks s.nodes 0 r.childrenHead f ∧
    (∀ [Raster], InExtent w ⟨25, 474⟩ → ¬ ShownExactly s 0 3 r tw w f) ∧
    ¬ @ShownExactly _ squareRaster _ s 0 3 r tw w f := by
  obtain ⟨s, r, tw, w, hs, h⟩ :=
    @exists_placedTop 460 ⟨⟨14, 490⟩, ⟨200, 150⟩⟩ ⟨⟨20, 469⟩, ⟨10, 10⟩⟩ (by with_unfolding_all rfl)
  obtain ⟨f, hf⟩ := h.wellFormed.linked.exists_represents
    (AppState.nodes_of_widgets h.quitButton.root_live)
  have hx : (⟨25, 474⟩ : Point) ∈ Rect.ofSize s.rootSurface.size := by
    rw [h.size]
    decide
  have hnot : ∀ [Raster], InExtent w ⟨25, 474⟩ → ¬ ShownExactly s 0 3 r tw w f := by
    intro _ hext hshown
    -- The descent stops at the toplevel.
    obtain ⟨K, d, hmem, -⟩ := (hshown.pickSurface ⟨25, 474⟩ hx).mpr
      ⟨hext, by rw [h.rootContent]; decide⟩
    obtain ⟨rfl, hneg⟩ := (called_quitButton h.wellFormed h.quitButton).mp
      ((mem_fullCalls_iff h.wellFormed h.quitButton.rootWidget h.quitButton.root_live hf).mp hmem)
    rw [h.rootContent, h.content] at hneg
    exact hneg (by decide)
  have hext : @InExtent squareRaster w ⟨25, 474⟩ := by
    let _ := squareRaster
    obtain ⟨b, hb, -, -, -, hradius⟩ := h.quitButton.flagged
    simp only [InExtent, hb, pickPoints, cornerRadiusOf, hradius, h.screenLocation,
      eiRoundedFrameAll_ne_nil]
    exact ⟨by decide, (polygonPixel_eiRoundedFrameAll_square (by decide) (by decide)).mpr
      (by decide)⟩
  exact ⟨s, r, tw, w, f, hs, h.wellFormed, h.upToDate, h.quitButton, hf, hnot,
    @hnot squareRaster hext⟩

end Sample

end GuiLibrary

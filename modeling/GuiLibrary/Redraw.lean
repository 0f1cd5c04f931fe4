import GuiLibrary.Dispatch

/-!
# Drawing the widgets

`ei_draw_widget_children` runs the placer on each mapped child of a widget, draws it, and goes on
to its children with the part of the clipper that lies in its content area; a clipper of negative
size ends the descent. The main loop calls it once for each invalidated rectangle, through a
pointer into the list that the placer may extend, or merge into its last element, meanwhile. The
functions that draw a single widget are a parameter of the traversal.

`drawPick` is the part of the drawing functions of the three classes that writes the pick surface.

## Main definitions

* `Clipper`, `eiDrawWidgetChildren`, `redrawLoop`, `redraw`.
* `OnlySurfaces`, `DrawsOnly`.
* `pickPoints`, `drawPick`, `initialDraw`.

## Main results

* `drawSiblings_keeps`, `redrawLoop_keeps`: what a pass keeps.
-/

namespace GuiLibrary

open Cells

/-- A `parent_clipper` argument: a pointer to an invalidated rectangle, or to a rectangle that
nothing else changes. -/
inductive Clipper where
  | invalidated (i : ℕ)
  | rect (r : Rect)

/-- `*parent_clipper`. -/
def Clipper.read (s : AppState) : Clipper → Option Rect
  | .invalidated i => s.invalidatedRects[i]?
  | .rect r => some r

/-- The drawing function of a widget: its class draws it inside a clipper. -/
abbrev DrawFunc := AppState → Ptr → Rect → Option AppState

section Traversal

variable (drawfunc : DrawFunc)

/-- `ei_draw_widget_children`, with its loop as an argument. -/
def drawChildrenWith (siblings : AppState → Clipper → Option Ptr → Option AppState)
    (s : AppState) (widget : Ptr) (parentClipper : Clipper) : Option AppState := do
  let clipper ← parentClipper.read s
  if clipper.size.width < 0 ∨ clipper.size.height < 0 then some s
  else
    let w ← s.widgets widget
    siblings s parentClipper w.childrenHead

/-- The body of the loop of `ei_draw_widget_children`, for a mapped child. -/
def drawMapped (siblings : AppState → Clipper → Option Ptr → Option AppState)
    (s : AppState) (currentDraw : Ptr) (parentClipper : Clipper) : Option AppState := do
  let s ← runplacer s currentDraw
  let clipper ← parentClipper.read s
  let s ← drawfunc s currentDraw clipper
  let clipper ← parentClipper.read s
  let w ← s.widgets currentDraw
  drawChildrenWith siblings s currentDraw (.rect (getEiRectIntersection clipper w.content))

/-- The loop of `ei_draw_widget_children`. -/
def drawSiblings : ℕ → AppState → Clipper → Option Ptr → Option AppState
  | _, s, _, none => some s
  | 0, _, _, some _ => none
  | fuel + 1, s, parentClipper, some currentDraw => do
      let w ← s.widgets currentDraw
      let s ← (if w.geomParams.isSome then
        drawMapped drawfunc (drawSiblings fuel) s currentDraw parentClipper else some s)
      let w ← s.widgets currentDraw
      drawSiblings fuel s parentClipper w.nextSibling

/-- `ei_draw_widget_children`. -/
def eiDrawWidgetChildren (s : AppState) (widget : Ptr) (parentClipper : Clipper) :
    Option AppState :=
  drawChildrenWith (drawSiblings drawfunc s.nextWidget) s widget parentClipper

/-- The loop of `ei_app_run` over the invalidated rectangles, from the one at index `i` on. -/
def redrawLoop : ℕ → AppState → ℕ → Option AppState
  | 0, _, _ => none
  | fuel + 1, s, i =>
      match s.invalidatedRects[i]? with
      | none => some s
      | some rect => do
          let root ← s.rootWidget
          let s ← drawfunc s root rect
          let s ← eiDrawWidgetChildren drawfunc s root (.invalidated i)
          redrawLoop fuel s (i + 1)

/-- The redraw of `ei_app_run`: when the loop over the rectangles is over, the list is freed. -/
def redraw (fuel : ℕ) (s : AppState) : Option AppState := do
  let s ← redrawLoop drawfunc fuel s 0
  some { s with invalidatedRects := [] }

end Traversal

/-! ### Drawing functions -/

/-- The state `s'` is `s` with other surfaces. -/
def OnlySurfaces (s s' : AppState) : Prop :=
  s' = { s with rootSurface := s'.rootSurface, pickSurface := s'.pickSurface }

/-- The drawing function writes surfaces only. -/
def DrawsOnly (drawfunc : DrawFunc) : Prop :=
  ∀ s p clipper s', drawfunc s p clipper = some s' → OnlySurfaces s s'

namespace OnlySurfaces

variable {s s₁ s₂ : AppState}

theorem refl (s : AppState) : OnlySurfaces s s := rfl

theorem trans (h₁ : OnlySurfaces s s₁) (h₂ : OnlySurfaces s₁ s₂) : OnlySurfaces s s₂ := by
  rw [OnlySurfaces] at *
  rw [h₂, h₁]

theorem widgets_eq (h : OnlySurfaces s s₁) : s₁.widgets = s.widgets := by rw [h]

theorem nodes_eq (h : OnlySurfaces s s₁) : s₁.nodes = s.nodes := by
  rw [h]
  rfl

theorem rootWidget_eq (h : OnlySurfaces s s₁) : s₁.rootWidget = s.rootWidget := by rw [h]

theorem wellFormed (h : OnlySurfaces s s₁) (hs : WellFormed s) : WellFormed s₁ :=
  hs.of_links (fun q => by rw [h.nodes_eq]) (by rw [h]) h.rootWidget_eq

end OnlySurfaces

/-! ### What a pass keeps -/

section Keeps

variable {drawfunc : DrawFunc} {R : AppState → AppState → Prop} (hrefl : ∀ s, R s s)
  (htrans : ∀ {s s₁ s₂}, R s s₁ → R s₁ s₂ → R s s₂)
  (hplacer : ∀ {s s' p}, runplacer s p = some s' → R s s')
  (hdraw : ∀ {s s' p clipper}, drawfunc s p clipper = some s' → R s s')

include hrefl

theorem drawChildrenWith_keeps {siblings : AppState → Clipper → Option Ptr → Option AppState}
    (hsiblings : ∀ {s s' clipper h}, siblings s clipper h = some s' → R s s') {s s' : AppState}
    {p : Ptr} {clipper : Clipper} (h : drawChildrenWith siblings s p clipper = some s') :
    R s s' := by
  obtain ⟨c, -, h⟩ := Option.bind_eq_some_iff.mp h
  split_ifs at h
  · exact Option.some.inj h ▸ hrefl s
  · obtain ⟨w, -, h⟩ := Option.bind_eq_some_iff.mp h
    exact hsiblings h

include htrans hplacer hdraw

/-- **What the placer and the drawing function keep, the loop over the siblings keeps.** -/
theorem drawSiblings_keeps (fuel : ℕ) : ∀ {s s' : AppState} {clipper : Clipper} {h : Option Ptr},
    drawSiblings drawfunc fuel s clipper h = some s' → R s s' := by
  induction fuel with
  | zero =>
    intro s s' clipper h hrun
    cases h with
    | none => exact Option.some.inj hrun ▸ hrefl s
    | some p => simp [drawSiblings] at hrun
  | succ fuel ih =>
    intro s s' clipper h hrun
    cases h with
    | none => exact Option.some.inj hrun ▸ hrefl s
    | some p =>
      simp only [drawSiblings, Option.bind_eq_bind, Option.bind_eq_some_iff] at hrun
      obtain ⟨w, -, s₁, h₁, w₁, -, hrun⟩ := hrun
      refine htrans ?_ (ih hrun)
      split_ifs at h₁
      · simp only [drawMapped, Option.bind_eq_bind, Option.bind_eq_some_iff] at h₁
        obtain ⟨s₂, h₂, c₂, -, s₃, h₃, c₃, -, w₃, -, h₁⟩ := h₁
        exact htrans (htrans (hplacer h₂) (hdraw h₃)) (drawChildrenWith_keeps hrefl ih h₁)
      · exact Option.some.inj h₁ ▸ hrefl s

theorem eiDrawWidgetChildren_keeps {s s' : AppState} {p : Ptr} {clipper : Clipper}
    (h : eiDrawWidgetChildren drawfunc s p clipper = some s') : R s s' :=
  drawChildrenWith_keeps hrefl (drawSiblings_keeps hrefl htrans hplacer hdraw _) h

theorem redrawLoop_keeps (fuel : ℕ) : ∀ {s s' : AppState} {i : ℕ},
    redrawLoop drawfunc fuel s i = some s' → R s s' := by
  induction fuel with
  | zero =>
    intro s s' i h
    simp [redrawLoop] at h
  | succ fuel ih =>
    intro s s' i h
    rw [redrawLoop] at h
    split at h
    · exact Option.some.inj h ▸ hrefl s
    · simp only [Option.bind_eq_bind, Option.bind_eq_some_iff] at h
      obtain ⟨root, -, s₁, h₁, s₂, h₂, h⟩ := h
      exact htrans (htrans (hdraw h₁)
        (eiDrawWidgetChildren_keeps hrefl htrans hplacer hdraw h₂)) (ih h)

end Keeps

/-! ### The pick surface -/

section Pick

variable [Raster]

/-- The corner radius that `drawframebuttonclasses` uses. -/
def cornerRadiusOf (w : Widget) : ℤ :=
  match w.attrs with
  | .button a => a.cornerRadius
  | .frame _ | .toplevel _ => 0

/-- `pick_pts` in `drawframebuttonclasses`. -/
def pickPoints (w : Widget) : List Point := eiRoundedFrameAll w.screenLocation (cornerRadiusOf w)

/-- `border_clipper` in `drawframebuttonclasses`: a quit button is cut by the content area of the
parent of its toplevel. -/
def borderClipper (s : AppState) (w : Widget) (clipper : Rect) : Option Rect :=
  match w.attrs with
  | .button a =>
      if a.noClipping then do
        let parent ← w.parent
        let p ← s.widgets parent
        let grandparent ← p.parent
        let g ← s.widgets grandparent
        some g.content
      else some clipper
  | .frame _ | .toplevel _ => some clipper

/-- What the drawing function of the class of a widget writes on the pick surface. -/
def drawPick : DrawFunc := fun s p clipper => do
  let w ← s.widgets p
  match w.attrs with
  | .toplevel a =>
      let allClipper := getEiRectIntersection clipper a.drawRect
      some { s with pickSurface := eiFill s.pickSurface w.pickColor (some allClipper) }
  | .frame _ | .button _ => do
      let clipper ← borderClipper s w clipper
      some { s with
        pickSurface := eiDrawPolygon s.pickSurface (pickPoints w) w.pickColor clipper }

theorem drawPick_drawsOnly : DrawsOnly drawPick := by
  intro s p clipper s' h
  obtain ⟨w, -, h⟩ := Option.bind_eq_some_iff.mp h
  split at h
  · exact Option.some.inj h ▸ rfl
  · obtain ⟨c, -, h⟩ := Option.bind_eq_some_iff.mp h
    exact Option.some.inj h ▸ rfl
  · obtain ⟨c, -, h⟩ := Option.bind_eq_some_iff.mp h
    exact Option.some.inj h ▸ rfl

/-- `initialDraw`, on the pick surface: the root, then its children, from the content area of the
root. -/
def initialDraw (s : AppState) : Option AppState := do
  let root ← s.rootWidget
  let r ← s.widgets root
  let s ← drawPick s root r.content
  eiDrawWidgetChildren drawPick s root (.rect r.content)

end Pick

end GuiLibrary

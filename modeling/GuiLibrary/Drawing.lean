import GuiLibrary.Primitives
import GuiLibrary.Redraw

/-!
# Drawing a widget

`drawframebuttonclasses` draws frames and buttons: two halves of the relief and the face on top of
them, or one polygon when there is no border, then the text or the image. It chooses among three
clippers: the one that it is given, the content area of the grandparent for a quit button, and, for
the face and the label, the intersection with the content area, or the whole location of the widget
when there is no border. `drawtoplevel` fills the painted rectangle and the content area.

## Main definitions

* `eiRoundedFrameHigh`, `eiRoundedFrameLow`, `darkenColor`, `lightenColor`, `anchorPoint`.
* `drawframebuttonclasses`, `drawtoplevel`, `drawing`, `drawfuncOf`.
* `Widget.Clipped`: the widgets other than buttons with `no_clipping`.

## Main results

* `drawfuncOf_drawsOnly`.
* `drawing_of_clipped`: the drawing of a widget that is clipped.
-/

namespace GuiLibrary

open Cells

/-! ### Reliefs -/

section Points

variable [Raster]

/-- `ei_rounded_frame_high`: the upper left half of a rectangle with rounded corners. -/
def eiRoundedFrameHigh (rect : Rect) (r : ℤ) : List Point :=
  let h := (min rect.size.height rect.size.width).tdiv 2
  let x := rect.topLeft.x
  let y := rect.topLeft.y
  let w := rect.size.width
  let bottom := y + r + (rect.size.height - 2 * r)
  if h ≤ r then []
  else
    [⟨x, y + r⟩, ⟨x, bottom⟩] ++ eiArcPoints ⟨x + r, bottom⟩ r 4 3 false ++
      [⟨x + r + (h - r), bottom - (h - r)⟩, ⟨x + w - h, y + h⟩] ++
      eiArcPoints ⟨x + w - h + (h - r), y + h - (h - r)⟩ r 7 6 false ++
      [⟨x + w - h + (h - r), y⟩, ⟨x + r, y⟩] ++ eiArcPoints ⟨x + r, y + r⟩ r 6 4 false

/-- `ei_rounded_frame_low`: the lower right half. -/
def eiRoundedFrameLow (rect : Rect) (r : ℤ) : List Point :=
  let h := (min rect.size.height rect.size.width).tdiv 2
  let x := rect.topLeft.x
  let y := rect.topLeft.y
  let w := rect.size.width
  let height := rect.size.height
  let top := y + height - r - (height - 2 * r)
  if h ≤ r then []
  else
    [⟨x + w, y + height - r⟩, ⟨x + w, top⟩] ++ eiArcPoints ⟨x + w - r, top⟩ r 8 7 false ++
      [⟨x + w - r - (h - r), top + (h - r)⟩, ⟨x + h, y + height - h⟩] ++
      eiArcPoints ⟨x + h - (h - r), y + height - h + (h - r)⟩ r 3 2 false ++
      [⟨x + h - (h - r), y + height - h + (h - r) + r⟩,
        ⟨x + w - r, y + height - h + (h - r) + r⟩] ++
      eiArcPoints ⟨x + w - r, y + height - h + (h - r)⟩ r 2 0 false

end Points

/-- `darken_color`. The floating-point products are exact where they are integers. -/
def darkenColor (color : Color) : Color :=
  let darken (c : BitVec 8) := BitVec.ofNat 8 (c.toNat * 8 / 10)
  ⟨darken color.red, darken color.green, darken color.blue, color.alpha⟩

/-- `lighten_color`. -/
def lightenColor (color : Color) : Color :=
  let lighten (c : BitVec 8) := BitVec.ofNat 8 (min 255 ((c.toNat + 50) * 12 / 10))
  ⟨lighten color.red, lighten color.green, lighten color.blue, color.alpha⟩

/-- `top_color` and `bottom_color` in `drawframebuttonclasses`. -/
def reliefColors (relief : Relief) (color : Color) : Color × Color :=
  match relief with
  | .none => (darkenColor color, darkenColor color)
  | .raised => (lightenColor color, darkenColor color)
  | .sunken => (darkenColor color, lightenColor color)

/-- The colours of a relief are as opaque as the colour of the widget. -/
theorem alpha_reliefColors (relief : Relief) (color : Color) :
    (reliefColors relief color).1.alpha = color.alpha ∧
      (reliefColors relief color).2.alpha = color.alpha := by
  cases relief <;> exact ⟨rfl, rfl⟩

/-- A frame without border and with an opaque colour: it hides what is below it. -/
structure FrameAttrs.Backdrop (a : FrameAttrs) : Prop where
  borderWidth : a.borderWidth = 0
  alpha : a.color.alpha = 255

/-! ### Labels -/

/-- The place of a label of a given size in the content area, `where` in
`drawframebuttonclasses`. -/
def anchorPoint (anchor : Anchor) (content : Rect) (size : Size) : Point :=
  let sx := content.topLeft.x
  let sy := content.topLeft.y
  let sw := content.size.width
  let sh := content.size.height
  match anchor with
  | .none | .center =>
      ⟨sx + (sw - size.width).tdiv 2, sy + (sh - size.height).tdiv 2⟩
  | .north => ⟨sx + (sw - size.width).tdiv 2, sy⟩
  | .northeast => ⟨sx + sw - size.width, sy⟩
  | .east => ⟨sx + sw - size.width, sy + (sh - size.height).tdiv 2⟩
  | .southeast => ⟨sx + sw - size.width, sy + sh - size.height⟩
  | .south => ⟨sx + (sw - size.width).tdiv 2, sy + sh - size.height⟩
  | .southwest => ⟨sx, sy + sh - size.height⟩
  | .west => ⟨sx, sy + (sh - size.height).tdiv 2⟩
  | .northwest => ⟨sx, sy⟩

/-- `where += border_width * 0.65`, converted back to an integer. -/
def pressedOffset (whereAt : Point) (borderWidth : ℤ) : Point :=
  ⟨(100 * whereAt.x + 65 * borderWidth).tdiv 100, (100 * whereAt.y + 65 * borderWidth).tdiv 100⟩

/-- `*widget_button->border_width`. The record of a frame has its relief at that place. -/
def borderWidthAsButton : Attrs → ℤ
  | .frame a =>
      match a.relief with
      | .none => 0
      | .raised => 1
      | .sunken => 2
  | .button a => a.borderWidth
  | .toplevel a => a.borderWidth

/-- Where a label of a given size goes: a pressed button shifts it. -/
def labelPoint (s : AppState) (p : Ptr) (w : Widget) (anchor : Anchor) (size : Size) : Point :=
  let whereAt := anchorPoint anchor w.content size
  if s.buttonPressed = some p ∧ s.pressingOver then
    pressedOffset whereAt (borderWidthAsButton w.attrs)
  else whereAt

/-- The size of the part of an image that is shown. -/
def shownSize (img : Surface) (imgRect : Option Rect) : Size :=
  imgRect.elim img.size Rect.size

/-- A button without `no_clipping`, a frame or a toplevel. -/
def Widget.Clipped (w : Widget) : Prop := ∀ a, w.attrs = .button a → a.noClipping = false

section Classes

variable [Hardware] [Raster] [TextRendering]

/-- The text or the image in `drawframebuttonclasses`. -/
def drawLabel (s : AppState) (p : Ptr) (w : Widget) (a : FrameAttrs) (finalClipper : Rect) :
    List Primitive :=
  match a.text, a.img with
  | some text, _ =>
      let whereAt := labelPoint s p w a.textAnchor (Hardware.hwTextComputeSize text a.textFont)
      [eiDrawText whereAt text a.textFont a.textColor finalClipper]
  | none, some img =>
      let size := shownSize img a.imgRect
      let dstRect := getEiRectIntersection ⟨labelPoint s p w a.imgAnchor size, size⟩ finalClipper
      [.copy dstRect img ⟨(a.imgRect.map Rect.topLeft).getD ⟨0, 0⟩, dstRect.size⟩ false]
  | none, none => []

/-- `final_clipper` in `drawframebuttonclasses`. -/
def finalClipper (w : Widget) (a : FrameAttrs) (clipper : Rect) : Rect :=
  if a.borderWidth ≠ 0 then getEiRectIntersection clipper w.content else w.screenLocation

/-- `drawframebuttonclasses`, for the attributes that frames and buttons share. -/
def drawframebuttonclasses (s : AppState) (p : Ptr) (w : Widget) (a : FrameAttrs)
    (cornerRadius : ℤ) (borderClipper clipper : Rect) : Drawing :=
  let finalClipper := finalClipper w a clipper
  let (topColor, bottomColor) := reliefColors a.relief a.color
  let body : List Primitive :=
    if a.borderWidth ≠ 0 then
      [.polygon (eiRoundedFrameHigh w.screenLocation cornerRadius) topColor borderClipper,
        .polygon (eiRoundedFrameLow w.screenLocation cornerRadius) bottomColor borderClipper,
        .polygon (eiRoundedFrameAll finalClipper cornerRadius) a.color finalClipper]
    else [.polygon (eiRoundedFrameAll w.screenLocation 0) a.color borderClipper]
  { surface := body ++ drawLabel s p w a finalClipper
    pickSurface :=
      [.polygon (eiRoundedFrameAll w.screenLocation cornerRadius) w.pickColor borderClipper] }

/-- `drawtoplevel`. -/
def drawtoplevel (w : Widget) (a : ToplevelAttrs) (clipper : Rect) : Drawing :=
  let allClipper := getEiRectIntersection clipper a.drawRect
  let contentClipper := getEiRectIntersection clipper w.content
  let title := a.title.elim [] fun text =>
    [eiDrawText ⟨a.drawRect.topLeft.x + 25 + a.borderWidth, a.drawRect.topLeft.y⟩ text
      Hardware.eiDefaultFont ⟨255, 255, 255, 255⟩ allClipper]
  { surface := [.fill ⟨50, 50, 50, 255⟩ allClipper, .fill a.backgroundColor contentClipper] ++ title
    pickSurface := [.fill w.pickColor allClipper] }

/-- What the drawing function of the class of a widget calls. -/
def drawing (s : AppState) (p : Ptr) (w : Widget) (clipper : Rect) : Option Drawing :=
  match w.attrs with
  | .frame a => some (drawframebuttonclasses s p w a 0 clipper clipper)
  | .button a => do
      let borderClipper ← borderClipper s w clipper
      some (drawframebuttonclasses s p w a.toFrameAttrs a.cornerRadius borderClipper clipper)
  | .toplevel a => some (drawtoplevel w a clipper)

/-- Without `no_clipping`, the border is cut at the clipper as well. -/
theorem drawing_of_clipped {s : AppState} {p : Ptr} {w : Widget} (hclip : w.Clipped) (K : Rect) :
    drawing s p w K = some (match w.attrs with
      | .frame a => drawframebuttonclasses s p w a 0 K K
      | .button a => drawframebuttonclasses s p w a.toFrameAttrs a.cornerRadius K K
      | .toplevel a => drawtoplevel w a K) := by
  cases ha : w.attrs with
  | frame a => simp only [drawing, ha]
  | button a =>
    simp only [drawing, ha, borderClipper, hclip a ha, Bool.false_eq_true, if_false,
      Option.bind_eq_bind, Option.bind_some]
  | toplevel a => simp only [drawing, ha]

/-- The drawing function of the class of a widget, on both surfaces. -/
def drawfuncOf : DrawFunc := fun s p clipper => do
  let w ← s.widgets p
  let d ← drawing s p w clipper
  some { s with
    rootSurface := runPrimitives d.surface s.rootSurface
    pickSurface := runPrimitives d.pickSurface s.pickSurface }

theorem drawfuncOf_drawsOnly : DrawsOnly drawfuncOf := by
  intro s p clipper s' h
  simp only [drawfuncOf, Option.bind_eq_bind, Option.bind_eq_some_iff, Option.some.injEq] at h
  obtain ⟨w, -, d, -, rfl⟩ := h
  rfl

end Classes

end GuiLibrary

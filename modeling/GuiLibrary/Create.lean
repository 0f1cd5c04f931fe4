import GuiLibrary.Configure
import GuiLibrary.Event

/-!
# Creating widgets

`ei_widget_create` allocates a widget, numbers it, links it into the children list of its parent,
and calls the `setdefaultsfunc` of its class. In a resizable toplevel a new child goes before the
resize button, which stays last; the search for that button follows a null pointer when there is
none. `setdefaultstoplevel` creates, configures, places and binds the resize button and the quit
button of a toplevel.

The attribute values of the `setdefaultsfunc`s are part of the allocated widget: nothing reads them
between the allocation and the call.

## Main definitions

* `newWidget`, `insertChild`, `setdefaultstoplevel`, `eiWidgetCreate`.
* `eiAppCreate`: the state in which the main loop starts.

## Main results

* `insertChild_keeps`: what writing links keeps, linking a new child keeps.
-/

namespace GuiLibrary

open Cells

/-! ### Writing the fields of a widget -/

namespace Widget

/-- Writing `widget->next_sibling`. -/
def setNextSibling (w : Widget) (q : Option Ptr) : Widget := { w with nextSibling := q }

/-- Writing `widget->children_head`. -/
def setChildrenHead (w : Widget) (q : Option Ptr) : Widget := { w with childrenHead := q }

/-- Writing `widget->children_tail`. -/
def setChildrenTail (w : Widget) (q : Option Ptr) : Widget := { w with childrenTail := q }

/-- A widget without its links to children and siblings. -/
def body (w : Widget) : Widget :=
  { w with childrenHead := none, childrenTail := none, nextSibling := none }

/-- The flags that are set on the resize button of a toplevel after it is configured. -/
def setResizeButton (w : Widget) : Widget :=
  match w.attrs with
  | .button a => { w with attrs := .button { a with isResizeButton := true } }
  | .frame _ | .toplevel _ => w

/-- The flags that are set on the quit button of a toplevel after it is configured. -/
def setQuitButton (w : Widget) : Widget :=
  match w.attrs with
  | .button a => { w with attrs := .button { a with noClipping := true, isQuitButton := true } }
  | .frame _ | .toplevel _ => w

/-- `!strcmp(widget->wclass->name, "button") && widget->is_resize_button`. -/
def isResizeButton (w : Widget) : Bool :=
  match w.attrs with
  | .button a => a.isResizeButton
  | .frame _ | .toplevel _ => false

/-- `!strcmp(widget->wclass->name, "button") && widget->is_quit_button`. -/
def isQuitButton (w : Widget) : Bool :=
  match w.attrs with
  | .button a => a.isQuitButton
  | .frame _ | .toplevel _ => false

end Widget

namespace AppState

/-- Writes fields of the widget at an address. -/
def modifyWidget (s : AppState) (p : Ptr) (f : Widget → Widget) : Option AppState :=
  (s.widgets p).map fun w => s.setWidget p (f w)

/-- Allocates a widget, at an address that is never reused. -/
def allocWidget (s : AppState) (w : Widget) : AppState :=
  { s with
    widgets := Function.update s.widgets s.nextWidget (some w)
    nextWidget := s.nextWidget + 1
    widId := s.widId + 1 }

@[simp] theorem widgets_allocWidget_self (s : AppState) (w : Widget) :
    (s.allocWidget w).widgets s.nextWidget = some w := Function.update_self ..

theorem widgets_allocWidget_of_ne (s : AppState) (w : Widget) {q : Ptr} (h : q ≠ s.nextWidget) :
    (s.allocWidget w).widgets q = s.widgets q := Function.update_of_ne h ..

end AppState

/-! ### The defaults of the classes -/

section Defaults

variable [Hardware]

/-- `k_default_button_border_width`. -/
def kDefaultButtonBorderWidth : ℤ := 4

/-- `k_default_button_corner_radius`. -/
def kDefaultButtonCornerRadius : ℤ := 10

/-- The attributes that `setdefaultsframe` sets. -/
def setdefaultsframe : FrameAttrs where
  borderWidth := 0
  relief := .none
  color := eiDefaultBackgroundColor
  text := none
  textFont := Hardware.eiDefaultFont
  textColor := eiFontDefaultColor
  textAnchor := .center
  img := none
  imgRect := none
  imgAnchor := .center

/-- The attributes that `setdefaultsbutton` sets. -/
def setdefaultsbutton : ButtonAttrs where
  borderWidth := kDefaultButtonBorderWidth
  relief := .raised
  color := eiDefaultBackgroundColor
  text := none
  textFont := Hardware.eiDefaultFont
  textColor := eiFontDefaultColor
  textAnchor := .center
  img := none
  imgRect := none
  imgAnchor := .center
  cornerRadius := kDefaultButtonCornerRadius
  callback := none
  userParam := none
  noClipping := false
  isQuitButton := false
  isResizeButton := false

/-- The attributes that `setdefaultstoplevel` sets; the painted rectangle is allocated and not yet
written. -/
def defaultToplevelAttrs : ToplevelAttrs where
  backgroundColor := eiDefaultBackgroundColor
  drawRect := Hardware.mallocRect
  title := some "Toplevel".toUTF8.toList
  titleFont := Hardware.eiDefaultFont
  borderWidth := 4
  closable := true
  resizable := .both
  minSize := ⟨160, 120⟩

/-- The default attributes of a class. -/
def defaultAttrs : WidgetClass → Attrs
  | .frame => .frame setdefaultsframe
  | .button => .button setdefaultsbutton
  | .toplevel => .toplevel defaultToplevelAttrs

/-- A widget as `ei_widget_create` allocates it, with the default attributes of its class. -/
def newWidget (widId : BitVec 32) (c : WidgetClass) (parent : Option Ptr)
    (destructor : Option ℕ) : Widget where
  pickId := widId
  pickColor := pickColorOf widId
  destructor := destructor
  parent := parent
  childrenHead := none
  childrenTail := none
  nextSibling := none
  geomParams := none
  requestedSize := ⟨0, 0⟩
  screenLocation := eiRectZero
  contentRect := .screenLocation
  attrs := defaultAttrs c

end Defaults

/-! ### Linking a new widget -/

/-- The loop that finds the first resize button after `penultimate`. -/
def findResizeButton (widgets : Ptr → Option Widget) : ℕ → Ptr → Option Ptr → Option (Ptr × Ptr)
  | _, _, none => none
  | 0, _, some _ => none
  | fuel + 1, penultimate, some ultimate => do
      let u ← widgets ultimate
      if u.isResizeButton then some (penultimate, ultimate)
      else
        let w ← widgets penultimate
        let penultimate ← w.nextSibling
        let w ← widgets penultimate
        findResizeButton widgets fuel penultimate w.nextSibling

/-- Links the new widget at the tail of the children of its parent. -/
def placeAtTail (s : AppState) (parent wid : Ptr) : Option AppState := do
  let p ← s.widgets parent
  let s ← p.childrenTail.elim (some s) fun tail => s.modifyWidget tail (·.setNextSibling wid)
  let s ← s.modifyWidget parent (·.setChildrenTail wid)
  let s ← s.modifyWidget wid (·.setNextSibling none)
  s.modifyWidget parent fun p => p.setChildrenHead (p.childrenHead.orElse fun _ => some wid)

/-- Links the new widget before the last child of a resizable toplevel, which has at least one. -/
def insertBeforeLast (s : AppState) (parent wid head : Ptr) (tail : Option Ptr) :
    Option AppState := do
  let h ← s.widgets head
  match h.nextSibling with
  | none =>
      let s ← s.modifyWidget parent (·.setChildrenHead wid)
      s.modifyWidget wid (·.setNextSibling head)
  | some ultimate =>
      let (penultimate, ultimate) ← findResizeButton s.widgets s.nextWidget head ultimate
      let u ← s.widgets ultimate
      if u.nextSibling = none ∧ tail = some ultimate then
        let s ← s.modifyWidget penultimate (·.setNextSibling wid)
        s.modifyWidget wid (·.setNextSibling tail)
      else placeAtTail s parent wid

/-- The part of `ei_widget_create` that links the new widget into the children of its parent. -/
def insertChild (s : AppState) (parent wid : Ptr) : Option AppState := do
  let p ← s.widgets parent
  match p.attrs, p.childrenHead with
  | .toplevel a, some head =>
      if a.resizable ≠ .none then insertBeforeLast s parent wid head p.childrenTail
      else placeAtTail s parent wid
  | _, _ => placeAtTail s parent wid

/-! ### What linking keeps -/

section Keeps

variable {R : AppState → AppState → Prop} (htrans : ∀ {s s₁ s₂}, R s s₁ → R s₁ s₂ → R s s₂)
  (hlinks : ∀ {s s' p f}, s.modifyWidget p f = some s' → (∀ w, (f w).body = w.body) → R s s')
  {s s' : AppState} {parent wid : Ptr}

include htrans hlinks

theorem placeAtTail_keeps (h : placeAtTail s parent wid = some s') : R s s' := by
  simp only [placeAtTail, Option.bind_eq_bind, Option.bind_eq_some_iff] at h
  obtain ⟨pw, -, s₁, h₁, s₂, h₂, s₃, h₃, h₄⟩ := h
  have hrest : R s₁ s' := htrans (htrans (hlinks h₂ fun _ => rfl) (hlinks h₃ fun _ => rfl))
    (hlinks h₄ fun _ => rfl)
  cases ht : pw.childrenTail with
  | none =>
    rw [ht, Option.elim_none, Option.some.injEq] at h₁
    exact h₁ ▸ hrest
  | some tail =>
    rw [ht, Option.elim_some] at h₁
    exact htrans (hlinks h₁ fun _ => rfl) hrest

/-- **What writing links keeps, linking a new child keeps.** -/
theorem insertChild_keeps (h : insertChild s parent wid = some s') : R s s' := by
  simp only [insertChild, Option.bind_eq_bind, Option.bind_eq_some_iff] at h
  obtain ⟨pw, -, h⟩ := h
  split at h
  · split_ifs at h
    · simp only [insertBeforeLast, Option.bind_eq_bind, Option.bind_eq_some_iff] at h
      obtain ⟨hw, -, h⟩ := h
      split at h
      · obtain ⟨s₁, h₁, h₂⟩ := Option.bind_eq_some_iff.mp h
        exact htrans (hlinks h₁ fun _ => rfl) (hlinks h₂ fun _ => rfl)
      · simp only [Option.bind_eq_some_iff, Prod.exists] at h
        obtain ⟨_, _, -, u, -, h⟩ := h
        split_ifs at h
        · obtain ⟨s₁, h₁, h₂⟩ := Option.bind_eq_some_iff.mp h
          exact htrans (hlinks h₁ fun _ => rfl) (hlinks h₂ fun _ => rfl)
        · exact placeAtTail_keeps (R := R) htrans hlinks h
    · exact placeAtTail_keeps (R := R) htrans hlinks h
  · exact placeAtTail_keeps (R := R) htrans hlinks h

end Keeps

/-! ### Creating -/

section Create

variable [Hardware]

/-- `ei_widget_create`, with the `setdefaultsfunc` of the class as an argument. -/
def eiWidgetCreateWith (setdefaultsfunc : AppState → Ptr → Option AppState) (s : AppState)
    (className : WidgetClass) (parent : Option Ptr) (destructor : Option ℕ) :
    Option (AppState × Ptr) := do
  let wid := s.nextWidget
  let s := s.allocWidget (newWidget s.widId className parent destructor)
  let s ← parent.elim (some s) fun parent => insertChild s parent wid
  let s ← setdefaultsfunc s wid
  some (s, wid)

/-- A hidden button of a toplevel: created, configured, flagged, placed and bound. -/
def createHiddenButton (s : AppState) (toplevel : Ptr) (config : ButtonArgs)
    (setFlags : Widget → Widget) (place : PlaceArgs) (callback : Callback) : Option AppState := do
  let (s, button) ← eiWidgetCreateWith (fun s _ => some s) s .button (some toplevel) none
  let s ← eiButtonConfigure s button config
  let s ← s.modifyWidget button setFlags
  let s ← eiPlace s button place
  eiBind s .mouseButtondown (some button) none callback none

/-- The configuration of the resize button. -/
def resizeButtonConfig : ButtonArgs where
  requestedSize := some ⟨20, 20⟩
  color := some eiDefaultBackgroundColor
  cornerRadius := some 0
  relief := some .none

/-- The placement of the resize button: the bottom right corner. -/
def resizeButtonPlace : PlaceArgs where
  anchor := some .southeast
  x := some 0
  y := some 0
  relX := some 1
  relY := some 1

/-- The configuration of the quit button. -/
def quitButtonConfig : ButtonArgs where
  requestedSize := some ⟨10, 10⟩
  color := some ⟨0xFF, 0, 0, 0xFF⟩
  cornerRadius := some 1
  relief := some .raised

/-- The placement of the quit button: in the top bar. -/
def quitButtonPlace : PlaceArgs where
  x := some 6
  y := some (-defaultTopbarHeight + 9)

/-- The part of `setdefaultstoplevel` after the default attributes, with which a toplevel is
resizable and closable. -/
def setdefaultstoplevel (s : AppState) (widget : Ptr) : Option AppState := do
  let s ← createHiddenButton s widget resizeButtonConfig Widget.setResizeButton
    resizeButtonPlace .begResize
  let s ← eiBind s .mouseButtondown (some widget) none .begMove none
  createHiddenButton s widget quitButtonConfig Widget.setQuitButton quitButtonPlace
    .quitToplevelEvent

/-- `wclass->setdefaultsfunc`, the attributes apart. -/
def setdefaultsfunc : WidgetClass → AppState → Ptr → Option AppState
  | .frame, s, _ => some s
  | .button, s, _ => some s
  | .toplevel, s, widget => setdefaultstoplevel s widget

/-- `ei_widget_create`. -/
def eiWidgetCreate (s : AppState) (className : WidgetClass) (parent : Option Ptr)
    (destructor : Option ℕ) : Option (AppState × Ptr) :=
  eiWidgetCreateWith (setdefaultsfunc className) s className parent destructor

/-! ### Starting the application -/

/-- The global variables before `ei_app_create`. -/
def initialState (rootSurface pickSurface : Surface) : AppState where
  widgets := fun _ => none
  nextWidget := 0
  widId := 0
  rootWidget := none
  binds := fun _ => none
  nextBind := 0
  topEventBind := none
  invalidatedRects := []
  buttonPressed := none
  pressingOver := false
  resizingToplevel := none
  movingToplevel := none
  offsetptr := (0, 0)
  rootSurface := rootSurface
  pickSurface := pickSurface
  log := []

/-- The tag `"button"`. -/
def tagButton : Tag := ⟨0, "button"⟩

/-- The tag `"all"`. -/
def tagAll : Tag := ⟨1, "all"⟩

/-- The bindings that `ei_app_create` makes: a type of event, a tag and a callback each. -/
def appBindings : List (EventType × Tag × Callback) :=
  [(.mouseButtondown, tagButton, .eiHandleButtonDown),
    (.mouseButtonup, tagAll, .eiHandleButtonUp),
    (.mouseMove, tagAll, .eiHandleButtonMove),
    (.mouseButtonup, tagAll, .endResize),
    (.mouseMove, tagAll, .resize),
    (.mouseButtonup, tagAll, .endMove),
    (.mouseMove, tagAll, .move)]

/-- `ei_app_create`, given the surfaces that the hardware layer returns for the window and for
picking. -/
def eiAppCreate (mainWindowSize : Size) (rootSurface pickSurface : Surface) :
    Option AppState := do
  let (s, root) ← eiWidgetCreate (initialState rootSurface pickSurface) .frame none none
  let s := { s with rootWidget := some root }
  let s ← eiFrameConfigure s root
    { requestedSize := some mainWindowSize, color := some eiDefaultBackgroundColor }
  let s ← s.modifyWidget root (·.setScreenLocation (Rect.ofSize mainWindowSize))
  appBindings.foldlM (fun s b => eiBind s b.1 none (some b.2.1) b.2.2 none) s

end Create

end GuiLibrary

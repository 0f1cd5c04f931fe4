import GuiLibrary.Destroy

/-!
# The handlers of the library and the dispatch of events

The main loop finds out what is under the mouse by the pick surface: a widget is under the mouse
when the pixel there is the pixel of its pick colour, and a search of the tree from the root finds
the picked widget. The handlers animate the pressed button, drag and resize a toplevel, and destroy
a toplevel whose quit button is clicked; they share their state in the global variables
`button_pressed`, `resizing_toplevel` and `moving_toplevel`.

The loop over the bindings reads the link of a record after its callback has returned. Callbacks of
the programmer are a parameter.

## Main definitions

* `searchSiblings`, `eiWidgetPickRec`, `eiWidgetPick`, `findPickedInChildren`, `isUnderMouse`,
  `findPickedTaggedWidget`, `findUnlocalisedTaggedWidget`.
* `eiHandleButtonDown`, `eiHandleButtonUp`, `eiHandleButtonMove`, `quitToplevelEvent`, `begResize`,
  `resize`, `endResize`, `begMove`, `move`, `endMove`.
* `runCallback`, `runBinding`, `dispatchLoop`, `dispatch`.
-/

namespace GuiLibrary

open Cells

/-! ### Searching the tree -/

section Search

variable (widgets : Ptr → Option Widget) (found : Widget → Bool)

/-- The searches of the tree: the given widget if it matches, else the first match among its
children, whose search is an argument. The outer `none` is a search that follows an invalid
pointer. -/
def searchFrom (children : Option Ptr → Option (Option Ptr)) (parent : Ptr) :
    Option (Option Ptr) := do
  let w ← widgets parent
  if found w then some (some parent) else children w.childrenHead

/-- The loop of the searches over the children. -/
def searchSiblings : ℕ → Option Ptr → Option (Option Ptr)
  | _, none => some none
  | 0, some _ => none
  | fuel + 1, some currTest => do
      let ret ← searchFrom widgets found (searchSiblings fuel) currTest
      match ret with
      | some r => some (some r)
      | none =>
          let w ← widgets currTest
          searchSiblings fuel w.nextSibling

end Search

namespace AppState

/-- The search of the tree below a widget, the widget included. -/
def search (s : AppState) (found : Widget → Bool) (parent : Ptr) : Option (Option Ptr) :=
  searchFrom s.widgets found (searchSiblings s.widgets found s.nextWidget) parent

end AppState

/-- `ei_widget_pick_rec`. -/
def eiWidgetPickRec (s : AppState) (parent : Ptr) (pickColor : BitVec 32)
    (pickSurface : Surface) : Option (Option Ptr) :=
  s.search (fun w => pickColor = eiMapRgba pickSurface w.pickColor) parent

/-- `ei_widget_pick`. -/
def eiWidgetPick (s : AppState) (mouse : Point) : Option (Option Ptr) := do
  let root ← s.rootWidget
  eiWidgetPickRec s root (s.pickSurface.pixel mouse) s.pickSurface

/-- `find_picked_in_children`. -/
def findPickedInChildren (s : AppState) (parent : Ptr) (pickColor : BitVec 32)
    (pickSurface : Surface) : Option (Option Ptr) :=
  s.search (fun w => pickColor = eiMapRgba pickSurface w.pickColor) parent

/-- `is_under_mouse`. -/
def isUnderMouse (s : AppState) (widget : Ptr) (mousePos : Point) : Option Bool := do
  let w ← s.widgets widget
  some (s.pickSurface.pixel mousePos = eiMapRgba s.pickSurface w.pickColor)

/-- The tag designates every widget, or those of the class. -/
def Tag.designates (tag : Tag) (w : Widget) : Bool :=
  tag.text = "all" || tag.text = w.wclass.name

/-- `find_picked_tagged_widget`. -/
def findPickedTaggedWidget (s : AppState) (mousePos : Point) (tag : Tag) :
    Option (Option Ptr) := do
  let root ← s.rootWidget
  let found ← findPickedInChildren s root (s.pickSurface.pixel mousePos) s.pickSurface
  match found with
  | none => some none
  | some p =>
      let w ← s.widgets p
      some (if tag.designates w then some p else none)

/-- `find_unlocalised_tagged_widget`. -/
def findUnlocalisedTaggedWidget (s : AppState) (parent : Ptr) (tag : Tag) :
    Option (Option Ptr) :=
  s.search tag.designates parent

/-! ### The handlers -/

/-- A callback of the programmer. -/
abbrev UserCallback := AppState → Option Ptr → Event → Option ℕ → Option (AppState × Bool)

/-- Writes attributes of a button. -/
def modifyButton (s : AppState) (p : Ptr) (f : ButtonAttrs → ButtonAttrs) : Option AppState := do
  let w ← s.widgets p
  match w.attrs with
  | .button a => some (s.setWidget p { w with attrs := .button (f a) })
  | .frame _ | .toplevel _ => none

/-- Shows a button pressed or not: its relief, the global `pressing_over`, and the invalidated
location. -/
def showButton (s : AppState) (p : Ptr) (relief : Relief) (pressingOver : Bool) :
    Option AppState := do
  let s ← modifyButton { s with pressingOver := pressingOver } p ({ · with relief := relief })
  invalidateLocation s p

/-- `ei_handle_button_down`. -/
def eiHandleButtonDown (s : AppState) (event : Event) : Option (AppState × Bool) :=
  if event.type ≠ .mouseButtondown ∨ event.button ≠ .left then some (s, false)
  else do
    let picked ← eiWidgetPick s event.mouse
    match picked with
    | none => some (s, false)
    | some button => do
        let s ← showButton { s with buttonPressed := some button } button .sunken true
        some (s, false)

/-- `ei_handle_button_up`. -/
def eiHandleButtonUp (user : ℕ → UserCallback) (s : AppState) (event : Event) :
    Option (AppState × Bool) :=
  if event.type ≠ .mouseButtonup ∨ event.button ≠ .left then some (s, false)
  else do
    let picked ← eiWidgetPick s event.mouse
    let oldButtonPressed := s.buttonPressed
    let s := { s with buttonPressed := none }
    match picked with
    | none => some (s, false)
    | some button =>
        if oldButtonPressed ≠ some button then some (s, false)
        else do
          let s ← showButton s button .raised false
          let w ← s.widgets button
          match w.attrs with
          | .button a =>
              match a.callback with
              | none => some (s, false)
              | some callback => do
                  let (s, _) ← user callback s (some button) event a.userParam.join
                  some (s, false)
          | .frame _ | .toplevel _ => none

/-- `ei_handle_button_move`. -/
def eiHandleButtonMove (s : AppState) (event : Event) : Option (AppState × Bool) :=
  match s.buttonPressed with
  | none => some (s, false)
  | some button =>
      if event.type ≠ .mouseMove then some (s, false)
      else do
        let picked ← eiWidgetPick s event.mouse
        let w ← s.widgets button
        match w.attrs with
        | .button a =>
            if picked ≠ some button ∧ a.relief = .sunken then do
              let s ← showButton s button .raised false
              some (s, false)
            else if picked = some button ∧ a.relief = .raised then do
              let s ← showButton s button .sunken true
              some (s, false)
            else some (s, false)
        | .frame _ | .toplevel _ => none

/-- The toplevel a hidden button belongs to. -/
def toplevelOf (s : AppState) (button : Option Ptr) : Option (Ptr × Widget × ToplevelAttrs) := do
  let button ← button
  let b ← s.widgets button
  let toplevel ← b.parent
  let t ← s.widgets toplevel
  match t.attrs with
  | .toplevel a => some (toplevel, t, a)
  | .frame _ | .button _ => none

/-- `quit_toplevel_event`. -/
def quitToplevelEvent (s : AppState) (wQuitbutton : Option Ptr) : Option (AppState × Bool) := do
  let (toplevel, _, a) ← toplevelOf s wQuitbutton
  let (s, rect) ← eiAppInvalidateRect s a.drawRect
  let s ← modifyToplevel s toplevel ({ · with drawRect := rect })
  if a.closable then do
    let s ← eiWidgetDestroy s toplevel
    some (s, true)
  else some (s, false)

/-- The size that `resize` gives to one side: accepted when it is at least the minimum. -/
def acceptSize (newSize minSize requested : ℤ) : ℤ × ℤ × Bool :=
  if newSize ≥ minSize then (newSize, newSize, true) else (requested, requested, false)

/-- The sizes that `resize` computes along the resizable axes: the new size for `ei_place`, the new
requested size, and whether to redraw. -/
def resizedSize (resizable : AxisSet) (size minSize requested : Size) : Size × Size × Bool :=
  let w := acceptSize size.width minSize.width requested.width
  let h := acceptSize size.height minSize.height requested.height
  match resizable with
  | .both => (⟨w.1, h.1⟩, ⟨w.2.1, h.2.1⟩, w.2.2 || h.2.2)
  | .x => (⟨w.1, size.height⟩, ⟨w.2.1, requested.height⟩, w.2.2)
  | .y => (⟨size.width, h.1⟩, ⟨requested.width, h.2.1⟩, h.2.2)
  | .none => (size, requested, false)

/-- `resize`. The offsets are unsigned and wrap around. -/
def resize (s : AppState) (event : Event) : Option (AppState × Bool) :=
  match s.resizingToplevel with
  | none => some (s, false)
  | some toplevel => do
      let t ← s.widgets toplevel
      match t.attrs with
      | .toplevel a =>
          let corner := t.screenLocation.topLeft
          let nWidth := (BitVec.ofInt 32 (event.mouse.x - corner.x) + s.offsetptr.1).toInt
          let nHeight := (BitVec.ofInt 32 (event.mouse.y - corner.y) + s.offsetptr.2).toInt
          let (size, requested, redraw) :=
            resizedSize a.resizable ⟨nWidth, nHeight⟩ a.minSize t.requestedSize
          let s := s.setWidget toplevel { t with requestedSize := requested }
          if redraw then do
            let s ← eiPlace s toplevel
              { width := some size.width
                height := some size.height
                relWidth := some 0
                relHeight := some 0 }
            some (s, false)
          else some (s, false)
      | .frame _ | .button _ => none

/-- `end_resize`. -/
def endResize (s : AppState) : Option (AppState × Bool) :=
  some ({ s with resizingToplevel := none }, false)

/-- `beg_resize`. -/
def begResize (s : AppState) (wResizebutton : Option Ptr) (event : Event) :
    Option (AppState × Bool) :=
  if event.type ≠ .mouseButtondown ∨ event.button ≠ .left then some (s, false)
  else do
    let (toplevel, _, a) ← toplevelOf s wResizebutton
    if a.resizable = .none then some (s, false)
    else do
      let button ← wResizebutton
      let b ← s.widgets button
      let sl := b.screenLocation
      some ({ s with
        resizingToplevel := some toplevel
        offsetptr :=
          (BitVec.ofInt 32 (sl.topLeft.x + sl.size.width - event.mouse.x - a.borderWidth),
            BitVec.ofInt 32
              (sl.topLeft.y + sl.size.height - event.mouse.y - defaultTopbarHeight)) }, true)

/-- `move`. The new position is computed unsigned and read as a signed number by `ei_place`. -/
def move (s : AppState) (event : Event) : Option (AppState × Bool) :=
  match s.movingToplevel with
  | none => some (s, false)
  | some toplevel => do
      let t ← s.widgets toplevel
      let parent ← t.parent
      let p ← s.widgets parent
      let nX := BitVec.ofInt 32 event.mouse.x - s.offsetptr.1 -
        BitVec.ofInt 32 p.content.topLeft.x
      let nY := BitVec.ofInt 32 event.mouse.y - s.offsetptr.2 -
        BitVec.ofInt 32 p.content.topLeft.y
      let s ← eiPlace s toplevel
        { anchor := some .northwest
          x := some nX.toInt
          y := some nY.toInt
          relX := some 0
          relY := some 0 }
      some (s, false)

/-- `end_move`. -/
def endMove (s : AppState) : Option (AppState × Bool) :=
  some ({ s with movingToplevel := none }, false)

/-- `beg_move`. -/
def begMove (s : AppState) (wToplevel : Option Ptr) (event : Event) :
    Option (AppState × Bool) := do
  let toplevel ← wToplevel
  let t ← s.widgets toplevel
  let corner := t.screenLocation.topLeft
  if event.mouse.y > corner.y + defaultTopbarHeight then some (s, false)
  else some ({ s with
    offsetptr :=
      (BitVec.ofInt 32 (event.mouse.x - corner.x), BitVec.ofInt 32 (event.mouse.y - corner.y))
    movingToplevel := some toplevel }, false)

/-! ### The main loop -/

section Loop

variable (user : ℕ → UserCallback)

/-- The call of a callback. -/
def runCallback (callback : Callback) (s : AppState) (widget : Option Ptr) (event : Event)
    (userParam : Option ℕ) : Option (AppState × Bool) :=
  match callback with
  | .eiHandleButtonDown => eiHandleButtonDown s event
  | .eiHandleButtonUp => eiHandleButtonUp user s event
  | .eiHandleButtonMove => eiHandleButtonMove s event
  | .begResize => begResize s widget event
  | .resize => resize s event
  | .endResize => endResize s
  | .begMove => begMove s widget event
  | .move => move s event
  | .endMove => endMove s
  | .quitToplevelEvent => quitToplevelEvent s widget
  | .user id => user id s widget event userParam

/-- Whether a binding of the type of the event applies: its widget is under the mouse, or a widget
with its tag is found; an event without position only needs a widget with the tag. -/
def Binding.applies (s : AppState) (event : Event) (b : Binding) : Option Bool :=
  match b.widget, b.tag with
  | some widget, _ => if b.pickable then isUnderMouse s widget event.mouse else some true
  | none, some tag => do
      let toCallback ←
        (if b.pickable then findPickedTaggedWidget s event.mouse tag
        else s.rootWidget.bind (findUnlocalisedTaggedWidget s · tag))
      some toCallback.isSome
  | none, none => some false

section Applies

variable {s : AppState} {event : Event} {tag : Tag} {b : Binding}

/-- A binding to a tag applies to a widget that is picked when the tag designates it. -/
theorem applies_of_picked (hwidget : b.widget = none) (htag : b.tag = some tag)
    (hpickable : b.pickable = true) {p : Ptr} {w : Widget}
    (hpick : eiWidgetPick s event.mouse = some (some p)) (hw : s.widgets p = some w) :
    b.applies s event = some (tag.designates w) := by
  obtain ⟨root, hroot, hpick⟩ := Option.bind_eq_some_iff.mp hpick
  have hfound : findPickedInChildren s root (s.pickSurface.pixel event.mouse) s.pickSurface =
      some (some p) := hpick
  simp only [Binding.applies, hwidget, htag, hpickable, if_true, findPickedTaggedWidget, hroot,
    hfound, hw, Option.bind_eq_bind, Option.bind_some]
  cases tag.designates w <;> rfl

/-- A binding of a mouse event to a tag only applies when some widget is picked. -/
theorem exists_picked_of_applies (hwidget : b.widget = none) (htag : b.tag = some tag)
    (hpickable : b.pickable = true) (h : b.applies s event = some true) :
    ∃ p, eiWidgetPick s event.mouse = some (some p) := by
  simp only [Binding.applies, hwidget, htag, hpickable, if_true, findPickedTaggedWidget,
    Option.bind_eq_bind, Option.bind_eq_some_iff] at h
  obtain ⟨found, ⟨root, hroot, picked, hpick, hfound⟩, h⟩ := h
  cases picked with
  | none =>
    obtain rfl := Option.some.inj hfound
    simp at h
  | some p => exact ⟨p, Option.bind_eq_some_iff.mpr ⟨root, hroot, hpick⟩⟩

end Applies

/-- The body of the loop over the bindings. A callback gets the widget it is bound to, also when
it is bound to a tag. -/
def runBinding (s : AppState) (event : Event) (b : Binding) : Option (AppState × Bool) :=
  if b.eventtype = event.type then do
    let applies ← b.applies s event
    if applies then runCallback user b.callback s b.widget event b.userParam
    else some (s, false)
  else some (s, false)

variable {user} in
/-- The body of the loop runs the callback of a binding that applies, or nothing. -/
theorem runBinding_runs {s s' : AppState} {event : Event} {b : Binding} {processed : Bool}
    (h : runBinding user s event b = some (s', processed)) :
    b.eventtype = event.type ∧ b.applies s event = some true ∧
        runCallback user b.callback s b.widget event b.userParam = some (s', processed) ∨
      ¬ (b.eventtype = event.type ∧ b.applies s event = some true) ∧ s' = s ∧
        processed = false := by
  rw [runBinding] at h
  split_ifs at h with htype
  · obtain ⟨applies, happlies, h⟩ := Option.bind_eq_some_iff.mp h
    split_ifs at h with htrue
    · exact Or.inl ⟨htype, by rw [happlies, htrue], h⟩
    · obtain ⟨rfl, rfl⟩ := Prod.mk.inj (Option.some.inj h)
      refine Or.inr ⟨fun hboth => htrue ?_, rfl, rfl⟩
      exact Option.some.inj (happlies.symm.trans hboth.2)
  · obtain ⟨rfl, rfl⟩ := Prod.mk.inj (Option.some.inj h)
    exact Or.inr ⟨fun hboth => htype hboth.1, rfl, rfl⟩

/-- The loop over the bindings for one event. -/
def dispatchLoop : ℕ → AppState → Event → Option Ptr → Option AppState
  | _, s, _, none => some s
  | 0, _, _, some _ => none
  | fuel + 1, s, event, some currentBind => do
      let b ← s.binds currentBind
      let (s, processed) ← runBinding user s event b.toBinding
      -- The link is read when the callback has returned.
      let b ← s.binds currentBind
      if processed then some s else dispatchLoop fuel s event b.next

/-- One round of the main loop, the redraw apart. Callbacks may bind events, so the number of
bindings that are visited has no bound that is known in advance. -/
def dispatch (fuel : ℕ) (s : AppState) (event : Event) : Option AppState :=
  dispatchLoop user fuel s event s.topEventBind

end Loop

end GuiLibrary

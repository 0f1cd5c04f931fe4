import GuiLibrary.Invalidation
import Mathlib.Tactic.SplitIfs

/-!
# The placer and the geometry notifications

`runplacer` computes the location of a widget from its parameters and the content area of its
parent; when the location changes it notifies the class of the widget, whose `geomnotifyfunc`
assigns the content area, runs the placer on the mapped children, and invalidates a rectangle of
the widget through a pointer, so that `ei_app_invalidate_rect` cuts that rectangle in place.

The recursion of the program goes down the children and along the siblings at once.
`runSiblings` is that recursion with a bound on its depth; the functions on a single widget take
it as an argument. Of a widget they write the location, the content area and the painted rectangle
of a toplevel, and nothing else.

## Main definitions

* `placerRect`, `runplacer`, `geomnotifyframe`, `geomnotifybutton`, `geomnotifytoplevel`.
* `Widget.unlocated`.

## Main results

* `runplacer_keeps`: what these writes keep, the placer keeps.
* `skeleton_runplacer`: the placer keeps the skeleton.
-/

namespace GuiLibrary

open Cells

/-! ### The location of a widget -/

/-- The conversion of a number to an integer, towards zero. -/
def truncate (q : ℚ) : ℤ := q.num.tdiv q.den

/-- The anchor moves the corner of a rectangle of the given size. -/
def anchored (anchor : Anchor) (x y width height : ℤ) : Rect :=
  match anchor with
  | .center => ⟨⟨x - width.tdiv 2, y - height.tdiv 2⟩, ⟨width, height⟩⟩
  | .north => ⟨⟨x - width.tdiv 2, y⟩, ⟨width, height⟩⟩
  | .northeast => ⟨⟨x - width, y⟩, ⟨width, height⟩⟩
  | .east => ⟨⟨x - width, y - height.tdiv 2⟩, ⟨width, height⟩⟩
  | .southeast => ⟨⟨x - width, y - height⟩, ⟨width, height⟩⟩
  | .south => ⟨⟨x - width.tdiv 2, y - height⟩, ⟨width, height⟩⟩
  | .southwest => ⟨⟨x, y - height⟩, ⟨width, height⟩⟩
  | .west => ⟨⟨x, y - height.tdiv 2⟩, ⟨width, height⟩⟩
  | .northwest | .none => ⟨⟨x, y⟩, ⟨width, height⟩⟩

/-- The formula of `runplacer`: the location given by placer parameters, a requested size, and the
content area of the parent. -/
def placerRect (params : PlacerParam) (requestedSize : Size) (parentSl : Rect) : Rect :=
  let x := truncate (parentSl.size.width * params.relX + params.x + parentSl.topLeft.x)
  let y := truncate (parentSl.size.height * params.relY + params.y + parentSl.topLeft.y)
  let height := truncate (parentSl.size.height * params.relHeight + params.height)
  let height := if height = 0 then requestedSize.height else height
  let width := truncate (parentSl.size.width * params.relWidth + params.width)
  let width := if width = 0 then requestedSize.width else width
  anchored params.anchor x y width height

/-! ### The content areas -/

/-- `default_topbar_height`. -/
def defaultTopbarHeight : ℤ := 30

/-- A rectangle without a border on each side. -/
def insetRect (rect : Rect) (borderWidth : ℤ) : Rect :=
  ⟨⟨rect.topLeft.x + borderWidth, rect.topLeft.y + borderWidth⟩,
    ⟨rect.size.width - 2 * borderWidth, rect.size.height - 2 * borderWidth⟩⟩

/-- The content area that `geomnotifytoplevel` assigns. -/
def toplevelContent (screenLocation : Rect) (borderWidth : ℤ) : Rect :=
  ⟨⟨screenLocation.topLeft.x + borderWidth, screenLocation.topLeft.y + defaultTopbarHeight⟩,
    screenLocation.size⟩

/-- The painted rectangle that `geomnotifytoplevel` assigns. -/
def toplevelDrawRect (screenLocation : Rect) (borderWidth : ℤ) : Rect :=
  ⟨screenLocation.topLeft,
    ⟨screenLocation.size.width + 2 * borderWidth,
      screenLocation.size.height + borderWidth + defaultTopbarHeight⟩⟩

namespace Widget

/-- The first lines of the `geomnotifyfunc`s: the new content area. A frame without border keeps
the rectangle it has. -/
def notified (w : Widget) : Widget :=
  match w.attrs with
  | .frame a =>
      if a.borderWidth ≠ 0 then
        { w with contentRect := .own (insetRect w.screenLocation a.borderWidth) }
      else w
  | .button a =>
      if a.borderWidth ≠ 0 then
        { w with contentRect := .own (insetRect w.screenLocation a.borderWidth) }
      else { w with contentRect := .screenLocation }
  | .toplevel a =>
      { w with
        contentRect := .own (toplevelContent w.screenLocation a.borderWidth)
        attrs := .toplevel { a with drawRect := toplevelDrawRect w.screenLocation a.borderWidth } }

/-- The rectangle that the `geomnotifyfunc`s invalidate: through a pointer for frames and
buttons, a copy for toplevels. -/
def damage (w : Widget) : Rect :=
  match w.attrs with
  | .frame _ => w.screenLocation
  | .button _ => w.content
  | .toplevel a => extendRect a.drawRect

/-- The widget after `ei_app_invalidate_rect` has written through that pointer. -/
def writeDamage (w : Widget) (rect : Rect) : Widget :=
  match w.attrs with
  | .frame _ => w.setScreenLocation rect
  | .button _ => w.setContent rect
  | .toplevel _ => w

end Widget

/-! ### The functions of the library -/

section Functions

variable (kids : AppState → Option Ptr → Option AppState)

/-- The body that the three `geomnotifyfunc`s share, with the run of the placer on the children
as an argument. -/
def geomnotify (assign : Widget → Widget) (damage : Widget → Rect)
    (write : Widget → Rect → Widget) (s : AppState) (p : Ptr) : Option AppState := do
  let w ← s.widgets p
  let s ← kids (s.setWidget p (assign w)) w.childrenHead
  let w ← s.widgets p
  let (s, rect) ← eiAppInvalidateRect s (damage w)
  some (s.setWidget p (write w rect))

/-- `geomnotifyframe`. -/
def geomnotifyframe : AppState → Ptr → Option AppState :=
  geomnotify kids Widget.notified Widget.screenLocation Widget.setScreenLocation

/-- `geomnotifybutton`. -/
def geomnotifybutton : AppState → Ptr → Option AppState :=
  geomnotify kids Widget.notified Widget.content Widget.setContent

/-- `geomnotifytoplevel`. -/
def geomnotifytoplevel : AppState → Ptr → Option AppState :=
  geomnotify kids Widget.notified Widget.damage fun w _ => w

/-- `widget->wclass->geomnotifyfunc`. -/
def geomnotifyfunc : WidgetClass → AppState → Ptr → Option AppState
  | .frame => geomnotifyframe kids
  | .button => geomnotifybutton kids
  | .toplevel => geomnotifytoplevel kids

/-- `runplacer`, with the run of the placer on the children as an argument. -/
def runplacerWith (s : AppState) (p : Ptr) : Option AppState := do
  let w ← s.widgets p
  match w.geomParams with
  | none => some s
  | some params =>
    let parent ← w.parent
    let parentWidget ← s.widgets parent
    let screenLocation := placerRect params w.requestedSize parentWidget.content
    let s := s.setWidget p (w.setScreenLocation screenLocation)
    if screenLocation = w.screenLocation then some s
    else
      let (s, _) ← eiAppInvalidateRect s (extendRect w.screenLocation)
      geomnotifyfunc kids w.wclass s p

/-- `if(sibling->geom_params) sibling->geom_params->manager->runfunc(sibling)`: the placer is the
only geometry manager of the library. -/
def runMapped (s : AppState) (w : Widget) (sibling : Ptr) : Option AppState :=
  if w.geomParams.isSome then runplacerWith kids s sibling else some s

end Functions

/-- The loop of the `geomnotifyfunc`s on the children: runs the placer on the mapped ones. -/
def runSiblings : ℕ → AppState → Option Ptr → Option AppState
  | _, s, none => some s
  | 0, _, some _ => none
  | fuel + 1, s, some sibling => do
      let w ← s.widgets sibling
      let s ← runMapped (runSiblings fuel) s w sibling
      let w ← s.widgets sibling
      runSiblings fuel s w.nextSibling

/-- `runplacer`. The placer visits every widget at most once, so the number of widgets ever
created bounds its recursion. -/
def runplacer (s : AppState) (p : Ptr) : Option AppState :=
  runplacerWith (runSiblings s.nextWidget) s p

/-! ### What the placer keeps -/

/-- The attributes without the painted rectangle of a toplevel. -/
def Attrs.undrawn : Attrs → Attrs
  | frame a => .frame a
  | button a => .button a
  | toplevel a => .toplevel { a with drawRect := eiRectZero }

theorem Attrs.nodeClass_undrawn (attrs : Attrs) : attrs.undrawn.nodeClass = attrs.nodeClass := by
  cases attrs <;> rfl

namespace Widget

/-- The widget without what the placer writes. -/
def unlocated (w : Widget) : Widget :=
  { w with
    screenLocation := eiRectZero
    contentRect := .screenLocation
    attrs := w.attrs.undrawn }

theorem node_of_unlocated {w w' : Widget} (h : w'.unlocated = w.unlocated) : w'.node = w.node := by
  have hnode : ∀ w : Widget, w.unlocated.node = w.node := fun w => by
    simp only [node, unlocated, Attrs.nodeClass_undrawn]
  rw [← hnode w', h, hnode w]

theorem unlocated_setContent (w : Widget) (rect : Rect) :
    (w.setContent rect).unlocated = w.unlocated := by
  rw [setContent]
  split <;> rfl

theorem unlocated_notified (w : Widget) : w.notified.unlocated = w.unlocated := by
  obtain ⟨_, _, _, _, _, _, _, _, _, _, _, attrs⟩ := w
  cases attrs with
  | frame a =>
    simp only [notified]
    split <;> rfl
  | button a =>
    simp only [notified]
    split <;> rfl
  | toplevel a => rfl

@[simp] theorem node_notified (w : Widget) : w.notified.node = w.node :=
  node_of_unlocated w.unlocated_notified

@[simp] theorem node_writeDamage (w : Widget) (rect : Rect) :
    (w.writeDamage rect).node = w.node := by
  rw [writeDamage]
  split
  · rfl
  · exact node_of_unlocated (w.unlocated_setContent rect)
  · rfl

end Widget

section Keeps

variable {R : AppState → AppState → Prop} (hrefl : ∀ s, R s s)
  (htrans : ∀ {s s₁ s₂}, R s s₁ → R s₁ s₂ → R s s₂)
  (hinvalidate : ∀ {s s' r r'}, eiAppInvalidateRect s r = some (s', r') → R s s')
  (hwrite : ∀ {s p w w'}, s.widgets p = some w → w'.unlocated = w.unlocated →
    R s (s.setWidget p w'))
  {kids : AppState → Option Ptr → Option AppState}

section

include htrans hinvalidate hwrite

theorem geomnotify_keeps (hkids : ∀ s h s', kids s h = some s' → R s s')
    {assign : Widget → Widget} {damage : Widget → Rect} {write : Widget → Rect → Widget}
    (hassign : ∀ w, (assign w).unlocated = w.unlocated)
    (hdamage : ∀ w r, (write w r).unlocated = w.unlocated) {s s' : AppState} {p : Ptr}
    (h : geomnotify kids assign damage write s p = some s') : R s s' := by
  simp only [geomnotify, Option.bind_eq_bind, Option.bind_eq_some_iff, Prod.exists,
    Option.some.injEq] at h
  obtain ⟨w, hw, s₁, h₁, w₁, hw₁, s₂, rect, h₂, rfl⟩ := h
  have hw₂ : s₂.widgets p = some w₁ := (eiAppInvalidateRect_frame h₂).1 ▸ hw₁
  exact htrans (htrans (hwrite hw (hassign w)) (hkids _ _ _ h₁))
    (htrans (hinvalidate h₂) (hwrite hw₂ (hdamage w₁ rect)))

theorem geomnotifyfunc_keeps (hkids : ∀ s h s', kids s h = some s' → R s s') {c : WidgetClass}
    {s s' : AppState} {p : Ptr} (h : geomnotifyfunc kids c s p = some s') : R s s' := by
  cases c with
  | frame =>
    refine geomnotify_keeps (R := R) htrans hinvalidate hwrite hkids ?_ ?_ h
    · exact Widget.unlocated_notified
    · exact fun _ _ => rfl
  | button =>
    refine geomnotify_keeps (R := R) htrans hinvalidate hwrite hkids ?_ ?_ h
    · exact Widget.unlocated_notified
    · exact Widget.unlocated_setContent
  | toplevel =>
    have h : geomnotify kids Widget.notified Widget.damage (fun w _ => w) s p = some s' := h
    refine geomnotify_keeps (R := R) htrans hinvalidate hwrite hkids ?_ ?_ h
    · exact Widget.unlocated_notified
    · exact fun _ _ => rfl

end

include hrefl htrans hinvalidate hwrite

theorem runplacerWith_keeps (hkids : ∀ s h s', kids s h = some s' → R s s') {s s' : AppState}
    {p : Ptr} (h : runplacerWith kids s p = some s') : R s s' := by
  simp only [runplacerWith, Option.bind_eq_bind, Option.bind_eq_some_iff] at h
  obtain ⟨w, hw, h⟩ := h
  cases hp : w.geomParams with
  | none =>
    rw [hp] at h
    exact Option.some.inj h ▸ hrefl s
  | some params =>
    simp only [hp, Option.bind_eq_some_iff] at h
    obtain ⟨o, -, pw, -, h⟩ := h
    have hset : ∀ r, R s (s.setWidget p (w.setScreenLocation r)) := fun r => hwrite hw rfl
    split_ifs at h
    · exact Option.some.inj h ▸ hset _
    · rw [Option.bind_eq_some_iff] at h
      obtain ⟨⟨s₁, r⟩, h₁, h₂⟩ := h
      exact htrans (hset _) (htrans (hinvalidate h₁)
        (geomnotifyfunc_keeps (R := R) htrans hinvalidate hwrite hkids h₂))

theorem runMapped_keeps (hkids : ∀ s h s', kids s h = some s' → R s s') {s s' : AppState}
    {w : Widget} {p : Ptr} (h : runMapped kids s w p = some s') : R s s' := by
  rw [runMapped] at h
  split_ifs at h
  · exact runplacerWith_keeps hrefl htrans hinvalidate hwrite hkids h
  · exact Option.some.inj h ▸ hrefl s

/-- By induction on the depth of the recursion. -/
theorem runSiblings_keeps : (fuel : ℕ) → (s : AppState) → (h : Option Ptr) → (s' : AppState) →
    runSiblings fuel s h = some s' → R s s'
  | _, s, none, s', hs => by
      rw [runSiblings, Option.some.injEq] at hs
      exact hs ▸ hrefl s
  | 0, _, some _, _, hs => by simp [runSiblings] at hs
  | fuel + 1, s, some p, s', hs => by
      simp only [runSiblings, Option.bind_eq_bind, Option.bind_eq_some_iff] at hs
      obtain ⟨w, hw, s₁, h₁, w₁, hw₁, h₂⟩ := hs
      exact htrans (runMapped_keeps hrefl htrans hinvalidate hwrite (runSiblings_keeps fuel) h₁)
        (runSiblings_keeps fuel _ _ _ h₂)

/-- **What its writes keep, the placer keeps.** -/
theorem runplacer_keeps {s s' : AppState} {p : Ptr} (h : runplacer s p = some s') : R s s' :=
  runplacerWith_keeps hrefl htrans hinvalidate hwrite
    (runSiblings_keeps hrefl htrans hinvalidate hwrite _) h

end Keeps

theorem skeleton_runplacerWith {fuel : ℕ} {s s' : AppState} {p : Ptr}
    (h : runplacerWith (runSiblings fuel) s p = some s') : s'.skeleton = s.skeleton := by
  let R : AppState → AppState → Prop := fun s s' => s'.skeleton = s.skeleton
  have htrans : ∀ {s s₁ s₂}, R s s₁ → R s₁ s₂ → R s s₂ := fun h₁ h₂ => h₂.trans h₁
  have hinvalidate : ∀ {s s' r r'}, eiAppInvalidateRect s r = some (s', r') → R s s' :=
    fun h => (eiAppInvalidateRect_frame h).2
  have hwrite : ∀ {s p w w'}, s.widgets p = some w → w'.unlocated = w.unlocated →
      R s (s.setWidget p w') := fun hw h =>
    AppState.skeleton_setWidget hw (Widget.node_of_unlocated h)
  exact runplacerWith_keeps (R := R) (fun _ => rfl) htrans hinvalidate hwrite
    (runSiblings_keeps (R := R) (fun _ => rfl) htrans hinvalidate hwrite fuel) h

/-- **The placer keeps the skeleton.** -/
theorem skeleton_runplacer {s s' : AppState} {p : Ptr} (h : runplacer s p = some s') :
    s'.skeleton = s.skeleton :=
  skeleton_runplacerWith h

end GuiLibrary

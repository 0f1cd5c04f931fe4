import GuiLibrary.Create

/-!
# Destroying widgets

`ei_widget_destroy` unbinds the events of a widget, calls its destructor, destroys its descendants
with `ei_widget_destroy_recurs`, unlinks it from its parent and releases it. The recursive function
is called on the first child of a widget and walks the whole chain of siblings; it calls the
destructor of the widget it is given, before the loop.

`ei_toplevel_configure` destroys the quit button or the resize button of a toplevel that must lose
it, after having unlinked the button by itself.

## Main definitions

* `eiWidgetDestroyRecurs`, `eiWidgetDestroy`.
* `ToplevelArgs`, `withdrawButton`, `eiToplevelConfigure`.

## Main results

* `destroySiblings_keeps`, `eiWidgetDestroy_keeps`, `withdrawButton_keeps`: what the steps of a
  destruction keep, the destruction keeps.
-/

namespace GuiLibrary

open Cells

/-! ### Destroying -/

/-- `if(widget->destructor) widget->destructor(widget)`. -/
def callDestructor (s : AppState) (w : Widget) (p : Ptr) : AppState :=
  w.destructor.elim s fun d => s.record (.destructor d p)

/-- The end of the life of a widget: it is unmapped, its class releases its attributes, and it is
freed. -/
def releaseWidget (s : AppState) (p : Ptr) : Option AppState :=
  (eiGeometrymanagerUnmap s p).map fun s => (s.record (.release p)).freeWidget p

/-- `ei_widget_destroy_recurs`, with its loop as an argument. -/
def destroyRecursWith (siblings : AppState → Option Ptr → Option AppState) (s : AppState)
    (p : Ptr) : Option AppState := do
  let w ← s.widgets p
  siblings (callDestructor s w p) (some p)

/-- The loop of `ei_widget_destroy_recurs`. -/
def destroySiblings : ℕ → AppState → Option Ptr → Option AppState
  | _, s, none => some s
  | 0, _, some _ => none
  | fuel + 1, s, some currentFree => do
      let w ← s.widgets currentFree
      let next := w.nextSibling
      let s ← w.childrenHead.elim (some s) (destroyRecursWith (destroySiblings fuel) s)
      let s ← releaseWidget s currentFree
      destroySiblings fuel s next

/-- `ei_widget_destroy_recurs`. -/
def eiWidgetDestroyRecurs (s : AppState) (p : Ptr) : Option AppState :=
  destroyRecursWith (destroySiblings s.nextWidget) s p

/-- The loop that looks for a widget among its siblings: the sibling before it, and the widget
itself if it is found. -/
def findChild (widgets : Ptr → Option Widget) (widget : Ptr) :
    ℕ → Option Ptr → Option Ptr → Option (Option Ptr × Option Ptr)
  | _, lastChild, none => some (lastChild, none)
  | 0, _, some _ => none
  | fuel + 1, lastChild, some currChild =>
      if currChild = widget then some (lastChild, some currChild)
      else do
        let w ← widgets currChild
        findChild widgets widget fuel (some currChild) w.nextSibling

/-- The unlinking of a widget from the children list of its parent. -/
def unlinkChild (s : AppState) (parent widget : Ptr) : Option AppState := do
  let p ← s.widgets parent
  let (lastChild, currChild) ← findChild s.widgets widget s.nextWidget none p.childrenHead
  match lastChild with
  | none =>
      if p.childrenTail = currChild then
        s.modifyWidget parent fun p => (p.setChildrenTail none).setChildrenHead none
      else do
        let w ← s.widgets widget
        s.modifyWidget parent (·.setChildrenHead w.nextSibling)
  | some last =>
      if currChild = p.childrenTail then do
        let s ← s.modifyWidget last (·.setNextSibling none)
        s.modifyWidget parent (·.setChildrenTail last)
      else do
        let c ← currChild
        let w ← s.widgets c
        s.modifyWidget last (·.setNextSibling w.nextSibling)

/-- `ei_widget_destroy`. -/
def eiWidgetDestroy (s : AppState) (p : Ptr) : Option AppState := do
  let w ← s.widgets p
  let s ← invalidateLocation s p
  let s ← destroyEventBindedToWidget s p
  let s := callDestructor s w p
  let s ← w.childrenHead.elim (some s) (eiWidgetDestroyRecurs s)
  let s ← w.parent.elim (some s) fun parent => unlinkChild s parent p
  releaseWidget s p

/-! ### Configuring a toplevel -/

/-- The arguments of `ei_toplevel_configure`, each of which may be `NULL`. -/
structure ToplevelArgs where
  requestedSize : Option Size := none
  color : Option Color := none
  borderWidth : Option ℤ := none
  title : Option (Option Text) := none
  closable : Option Bool := none
  resizable : Option AxisSet := none
  minSize : Option (Option Size) := none

/-- The loop that stops before the first child that is such a button, or at the last child. -/
def findBefore (widgets : Ptr → Option Widget) (isButton : Widget → Bool) : ℕ → Ptr → Option Ptr
  | 0, _ => none
  | fuel + 1, curr => do
      let w ← widgets curr
      match w.nextSibling with
      | none => some curr
      | some next =>
          let n ← widgets next
          if isButton n then some curr else findBefore widgets isButton fuel next

/-- The withdrawal of the quit button, or of the resize button, from the children of a toplevel:
the button is unlinked, then destroyed. The first child is read whether there is one or not. -/
def withdrawButton (isButton : Widget → Bool) (s : AppState) (toplevel : Ptr) :
    Option AppState := do
  let t ← s.widgets toplevel
  let curr ← t.childrenHead
  let c ← s.widgets curr
  if isButton c then do
    let s ← s.modifyWidget toplevel fun t =>
      let t := t.setChildrenHead c.nextSibling
      if t.childrenTail = some curr then t.setChildrenTail none else t
    eiWidgetDestroy s curr
  else do
    let before ← findBefore s.widgets isButton s.nextWidget curr
    let b ← s.widgets before
    match b.nextSibling with
    | none => some s
    | some button => do
        let n ← s.widgets button
        let s ← match n.nextSibling with
          | some next => s.modifyWidget before (·.setNextSibling (some next))
          | none => s.modifyWidget toplevel (·.setChildrenTail before)
        eiWidgetDestroy s button

/-- Writes attributes of a toplevel. -/
def modifyToplevel (s : AppState) (p : Ptr) (f : ToplevelAttrs → ToplevelAttrs) :
    Option AppState := do
  let w ← s.widgets p
  match w.attrs with
  | .toplevel a => some (s.setWidget p { w with attrs := .toplevel (f a) })
  | .frame _ | .button _ => none

/-- `ei_toplevel_configure`. -/
def eiToplevelConfigure (s : AppState) (p : Ptr) (args : ToplevelArgs) : Option AppState := do
  let s ← s.modifyWidget p fun w =>
    { w with requestedSize := args.requestedSize.getD ⟨320, 240⟩ }
  let s ← modifyToplevel s p fun a => { a with
    backgroundColor := args.color.getD a.backgroundColor
    borderWidth := args.borderWidth.getD a.borderWidth
    title := args.title.getD a.title }
  let s ← args.closable.elim (some s) fun closable => do
    let s ← modifyToplevel s p ({ · with closable := closable })
    bif closable then some s else withdrawButton Widget.isQuitButton s p
  let s ← args.resizable.elim (some s) fun resizable => do
    let s ← modifyToplevel s p ({ · with resizable := resizable })
    bif resizable = .none then withdrawButton Widget.isResizeButton s p else some s
  let s ← args.minSize.elim (some s) fun minSize => do
    let minSize ← minSize
    modifyToplevel s p ({ · with minSize := minSize })
  refresh s p

/-! ### What destroying keeps -/

section Keeps

variable {R : AppState → AppState → Prop} (hrefl : ∀ s, R s s)
  (htrans : ∀ {s s₁ s₂}, R s s₁ → R s₁ s₂ → R s s₂) (hrecord : ∀ s e, R s (s.record e))
  (hlinks : ∀ {s s' p f}, s.modifyWidget p f = some s' → (∀ w, (f w).body = w.body) → R s s')
  (hrelease : ∀ {s s' p}, releaseWidget s p = some s' → R s s')

section

include hrefl hrecord

theorem callDestructor_keeps (s : AppState) (w : Widget) (p : Ptr) :
    R s (callDestructor s w p) := by
  rw [callDestructor]
  cases w.destructor with
  | none => exact hrefl s
  | some d => exact hrecord s _

include htrans

/-- `ei_widget_destroy_recurs` on the first child, if there is one. -/
theorem destroyChildren_keeps {siblings : AppState → Option Ptr → Option AppState}
    (hsiblings : ∀ s h s', siblings s h = some s' → R s s') {s s' : AppState}
    {head : Option Ptr} (h : head.elim (some s) (destroyRecursWith siblings s) = some s') :
    R s s' := by
  cases head with
  | none => exact Option.some.inj h ▸ hrefl s
  | some c =>
    obtain ⟨w, -, h⟩ := Option.bind_eq_some_iff.mp h
    exact htrans (callDestructor_keeps hrefl hrecord s w c) (hsiblings _ _ _ h)

include hrelease

/-- By induction on the depth of the recursion. -/
theorem destroySiblings_keeps : ∀ (fuel : ℕ) (s : AppState) (h : Option Ptr) (s' : AppState),
    destroySiblings fuel s h = some s' → R s s' := by
  intro fuel
  induction fuel with
  | zero =>
    intro s h s' hrun
    cases h with
    | none => exact Option.some.inj hrun ▸ hrefl s
    | some p => simp [destroySiblings] at hrun
  | succ fuel ih =>
    intro s h s' hrun
    cases h with
    | none => exact Option.some.inj hrun ▸ hrefl s
    | some p =>
      simp only [destroySiblings, Option.bind_eq_bind, Option.bind_eq_some_iff] at hrun
      obtain ⟨w, -, s₁, h₁, s₂, h₂, h₃⟩ := hrun
      have hkids := destroyChildren_keeps hrefl htrans hrecord ih h₁
      exact htrans (htrans hkids (hrelease h₂)) (ih _ _ _ h₃)

end

section

include htrans hlinks

theorem unlinkChild_keeps {s s' : AppState} {parent p : Ptr}
    (h : unlinkChild s parent p = some s') : R s s' := by
  simp only [unlinkChild, Option.bind_eq_bind, Option.bind_eq_some_iff, Prod.exists] at h
  obtain ⟨w, -, lastChild, currChild, -, h⟩ := h
  cases lastChild with
  | none =>
    dsimp only at h
    split_ifs at h
    · exact hlinks h fun _ => rfl
    · obtain ⟨v, -, h⟩ := Option.bind_eq_some_iff.mp h
      exact hlinks h fun _ => rfl
  | some last =>
    dsimp only at h
    split_ifs at h
    · obtain ⟨s₁, h₁, h₂⟩ := Option.bind_eq_some_iff.mp h
      exact htrans (hlinks h₁ fun _ => rfl) (hlinks h₂ fun _ => rfl)
    · obtain ⟨c, -, h⟩ := Option.bind_eq_some_iff.mp h
      obtain ⟨v, -, h⟩ := Option.bind_eq_some_iff.mp h
      exact hlinks h fun _ => rfl

include hrefl

/-- The unlinking of a widget from its parent, if it has one. -/
theorem unlinkFromParent_keeps {s s' : AppState} {parent : Option Ptr} {p : Ptr}
    (h : parent.elim (some s) (fun parent => unlinkChild s parent p) = some s') : R s s' := by
  cases parent with
  | none => exact Option.some.inj h ▸ hrefl s
  | some parent => exact unlinkChild_keeps (R := R) htrans hlinks h

end

section

include hrefl htrans hrecord hlinks hrelease

/-- **What the steps of a destruction keep, the destruction keeps.** -/
theorem eiWidgetDestroy_keeps {s s' : AppState} {p : Ptr}
    (hlocation : ∀ {s s'}, invalidateLocation s p = some s' → R s s')
    (hbinds : ∀ {s s'}, destroyEventBindedToWidget s p = some s' → R s s')
    (h : eiWidgetDestroy s p = some s') : R s s' := by
  simp only [eiWidgetDestroy, Option.bind_eq_bind, Option.bind_eq_some_iff] at h
  obtain ⟨w, -, s₁, h₁, s₂, h₂, s₃, h₃, s₄, h₄, h₅⟩ := h
  have hcall := callDestructor_keeps hrefl hrecord s₂ w p
  have hkids := destroyChildren_keeps hrefl htrans hrecord
    (destroySiblings_keeps hrefl htrans hrecord hrelease _) h₃
  have hunlink := unlinkFromParent_keeps hrefl htrans hlinks h₄
  exact htrans (htrans (htrans (htrans (htrans (hlocation h₁) (hbinds h₂)) hcall) hkids) hunlink)
    (hrelease h₅)

end

include hrefl htrans hlinks

/-- Withdrawing a button writes links and destroys the button. -/
theorem withdrawButton_keeps {isButton : Widget → Bool}
    {s s' : AppState} {t : Ptr} (hdestroy : ∀ {s s' p}, eiWidgetDestroy s p = some s' → R s s')
    (h : withdrawButton isButton s t = some s') : R s s' := by
  simp only [withdrawButton, Option.bind_eq_bind, Option.bind_eq_some_iff] at h
  obtain ⟨v, -, curr, -, c, -, h⟩ := h
  split_ifs at h
  · obtain ⟨s₁, h₁, h₂⟩ := Option.bind_eq_some_iff.mp h
    exact htrans (hlinks h₁ fun w => by split_ifs <;> rfl) (hdestroy h₂)
  · simp only [Option.bind_eq_some_iff] at h
    obtain ⟨before, -, b, -, h⟩ := h
    cases hnext : b.nextSibling with
    | none =>
      rw [hnext] at h
      exact Option.some.inj h ▸ hrefl s
    | some button =>
      rw [hnext] at h
      obtain ⟨n, -, h⟩ := Option.bind_eq_some_iff.mp h
      cases hn : n.nextSibling with
      | none =>
        rw [hn] at h
        obtain ⟨s₁, h₁, h₂⟩ := Option.bind_eq_some_iff.mp h
        exact htrans (hlinks h₁ fun _ => rfl) (hdestroy h₂)
      | some next =>
        rw [hn] at h
        obtain ⟨s₁, h₁, h₂⟩ := Option.bind_eq_some_iff.mp h
        exact htrans (hlinks h₁ fun _ => rfl) (hdestroy h₂)

end Keeps

end GuiLibrary

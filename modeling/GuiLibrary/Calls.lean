import GuiLibrary.BindingTargets
import GuiLibrary.Data.Trace
import GuiLibrary.Decorations
import GuiLibrary.Settings

/-!
# The calls of a program

A program creates, configures, places and destroys widgets, binds its own callbacks and lets the
library draw. `LibraryCall` lists these calls with their arguments. Every call that completes keeps
the widgets a tree and the bindings a list, leaves the variables of the handlers alone, and leaves
the settings of all widgets alone but for those that it configures or creates.

## Main definitions

* `LibraryCall`, `LibraryCall.run`, `LibraryCall.Sets`.

## Main results

* `BindInvariant.call`, `Retains.call`.
-/

namespace GuiLibrary

open Cells

/-- A call of a program to the library. The programmer binds and unbinds callbacks of his own. -/
inductive LibraryCall
  | create (c : WidgetClass) (parent : Ptr) (destructor : Option ℕ)
  | destroy (p : Ptr)
  | place (p : Ptr) (args : PlaceArgs)
  | unmap (p : Ptr)
  | frameConfigure (p : Ptr) (args : LabelArgs)
  | buttonConfigure (p : Ptr) (args : ButtonArgs)
  | toplevelConfigure (p : Ptr) (args : ToplevelArgs)
  | bind (eventtype : EventType) (widget : Option Ptr) (tag : Option Tag) (callback : ℕ)
      (userParam : Option ℕ)
  | unbind (eventtype : EventType) (widget : Option Ptr) (tag : Option Tag) (callback : ℕ)
      (userParam : Option ℕ)
  | initialDraw
  | redraw (drawfunc : {f : DrawFunc // DrawsOnly f}) (fuel : ℕ)

section Calls

variable [Hardware] [Raster] {s s' : AppState}

/-- What the call does. The parent of a new widget must be allocated. -/
def LibraryCall.run : LibraryCall → AppState → Option AppState
  | create c parent destructor, s => do
      let _ ← s.widgets parent
      (eiWidgetCreate s c (some parent) destructor).map Prod.fst
  | destroy p, s => eiWidgetDestroy s p
  | place p args, s => eiPlace s p args
  | unmap p, s => eiGeometrymanagerUnmap s p
  | frameConfigure p args, s => eiFrameConfigure s p args
  | buttonConfigure p args, s => eiButtonConfigure s p args
  | toplevelConfigure p args, s => eiToplevelConfigure s p args
  | bind eventtype widget tag callback userParam, s =>
      eiBind s eventtype widget tag (.user callback) userParam
  | unbind eventtype widget tag callback userParam, s =>
      eiUnbind s eventtype widget tag (.user callback) userParam
  | initialDraw, s => GuiLibrary.initialDraw s
  | redraw drawfunc fuel, s => GuiLibrary.redraw drawfunc fuel s

/-- The call may change the settings of the widget: it configures or creates it. -/
def LibraryCall.Sets (s : AppState) (p : Ptr) : LibraryCall → Prop
  | frameConfigure q _ | buttonConfigure q _ | toplevelConfigure q _ => p = q
  | create _ _ _ => s.nextWidget ≤ p
  | destroy _ | place _ _ | unmap _ | bind _ _ _ _ _ | unbind _ _ _ _ _ | initialDraw
  | redraw _ _ => False

theorem LibraryCall.created {c : WidgetClass} {parent : Ptr} {d : Option ℕ}
    (h : (create c parent d).run s = some s') :
    s.Live parent ∧ ∃ wid, eiWidgetCreate s c (some parent) d = some (s', wid) := by
  obtain ⟨w, hw, h⟩ := Option.bind_eq_some_iff.mp h
  obtain ⟨⟨s₁, wid⟩, h₁, rfl⟩ := Option.map_eq_some_iff.mp h
  exact ⟨AppState.live_iff.mpr ⟨w, hw⟩, wid, h₁⟩

omit [Hardware] [Raster] in
theorem BindInvariant.of_skeleton (h : BindInvariant s) (hskel : s'.skeleton = s.skeleton) :
    BindInvariant s' :=
  ⟨h.wellFormed.congr hskel, h.bindings.imp fun _ hl => hl.congr hskel⟩

omit [Hardware] [Raster] in
theorem BindInvariant.sameTree (h : BindInvariant s) (htree : SameTree s s') :
    BindInvariant s' :=
  ⟨htree.wellFormed h.wellFormed, h.bindings.imp fun _ hl => htree.hasBindings hl⟩

omit [Raster] in
theorem Started.bindInvariant {size : Size} {pickSurface : Surface}
    (h : Started s size pickSurface) : BindInvariant s :=
  ⟨h.wellFormed, h.bindings.imp fun _ hl => hl.1⟩

omit [Hardware] [Raster] in
theorem SameTree.onlySurfaces (h : OnlySurfaces s s') : SameTree s s' := by
  rw [h]
  exact ⟨fun _ => rfl, rfl, rfl, rfl, rfl, rfl⟩

omit [Hardware] in
theorem SameTree.initialDraw (h : GuiLibrary.initialDraw s = some s') : SameTree s s' := by
  simp only [GuiLibrary.initialDraw, Option.bind_eq_bind, Option.bind_eq_some_iff] at h
  obtain ⟨root, -, r, -, s₁, h₁, h⟩ := h
  exact (onlySurfaces (drawPick_drawsOnly _ _ _ _ h₁)).trans
    (eiDrawWidgetChildren_keeps .refl .trans (fun h => .of_skeleton (skeleton_runplacer h))
      (fun h => .onlySurfaces (drawPick_drawsOnly _ _ _ _ h)) h)

omit [Hardware] [Raster] in
theorem SameTree.redraw {drawfunc : DrawFunc} (hdraw : DrawsOnly drawfunc) {fuel : ℕ}
    (h : GuiLibrary.redraw drawfunc fuel s = some s') : SameTree s s' := by
  obtain ⟨s₁, h₁, h⟩ := Option.bind_eq_some_iff.mp h
  have hloop : SameTree s s₁ := redrawLoop_keeps .refl .trans
    (fun h => .of_skeleton (skeleton_runplacer h)) (fun h => .onlySurfaces (hdraw _ _ _ _ h)) _ h₁
  exact Option.some.inj h ▸ hloop.trans ⟨fun _ => rfl, rfl, rfl, rfl, rfl, rfl⟩

/-- **A call keeps the tree of the widgets and the list of the bindings.** -/
theorem BindInvariant.call {c : LibraryCall} (h : BindInvariant s) (hrun : c.run s = some s') :
    BindInvariant s' := by
  obtain ⟨l, hl⟩ := h.bindings
  cases c with
  | create cls parent d =>
    obtain ⟨hparent, wid, hcreate⟩ := LibraryCall.created hrun
    obtain ⟨hc, -⟩ := eiWidgetCreate_created h.wellFormed hparent hcreate
    obtain ⟨l', hl', -⟩ := hc.bindings l hl
    exact ⟨hc.grown.wellFormed, _, hl'⟩
  | destroy p =>
    obtain ⟨-, hd, hl'⟩ := eiWidgetDestroy_of_eq_some h.wellFormed hl hrun
    exact ⟨hd.wellFormed h.wellFormed, _, hl'⟩
  | place p args => exact h.of_skeleton (skeleton_eiPlace hrun)
  | unmap p => exact h.of_skeleton (skeleton_eiGeometrymanagerUnmap hrun)
  | frameConfigure p args => exact h.of_skeleton (skeleton_eiFrameConfigure hrun)
  | buttonConfigure p args =>
    have hrun : eiButtonConfigure s p args = some s' := hrun
    rw [eiButtonConfigure_eq] at hrun
    obtain ⟨s₁, h₁, hrun⟩ := Option.bind_eq_some_iff.mp hrun
    obtain ⟨w, a, label, -, -, ha⟩ := buttonAssign_assigned h₁
    have hs₁ : BindInvariant s₁ := ha.eq ▸ h.sameTree (.of_setWidget ha.old ha.links)
    exact hs₁.of_skeleton (skeleton_refresh hrun)
  | toplevelConfigure p args =>
    have hrun : eiToplevelConfigure s p args = some s' := hrun
    rw [eiToplevelConfigure_eq] at hrun
    obtain ⟨s₁, h₁, hrun⟩ := Option.bind_eq_some_iff.mp hrun
    obtain ⟨⟨hs₁, hl₁⟩, -⟩ := toplevelAssign_keeps h.wellFormed hl h₁
    exact BindInvariant.of_skeleton ⟨hs₁, hl₁⟩ (skeleton_refresh hrun)
  | bind eventtype widget tag callback userParam =>
    by_cases hvalid : widget.isSome = tag.isSome
    · obtain rfl : s = s' := by
        cases widget <;> cases tag <;> simp [LibraryCall.run, eiBind] at hvalid hrun <;> exact hrun
      exact h
    · obtain ⟨s₁, h₁, hl', ho⟩ := hl.eiBind eventtype widget tag (.user callback) userParam hvalid
      obtain rfl := Option.some.inj (h₁.symm.trans hrun)
      exact ⟨h.wellFormed.of_onlyBinds ho, _, hl'⟩
  | unbind eventtype widget tag callback userParam =>
    obtain ⟨s₁, h₁, hl', ho⟩ := hl.eiUnbind eventtype widget tag (.user callback) userParam
    obtain rfl := Option.some.inj (h₁.symm.trans hrun)
    exact ⟨h.wellFormed.of_onlyBinds ho, _, hl'⟩
  | initialDraw => exact h.sameTree (.initialDraw hrun)
  | redraw drawfunc fuel => exact h.sameTree (.redraw drawfunc.property hrun)

/-- **A call leaves the variables of the handlers alone**, and the settings of all widgets that it
neither configures nor creates. -/
theorem Retains.call {c : LibraryCall} (hs : WellFormed s) (hrun : c.run s = some s') :
    Retains (fun p => ¬ c.Sets s p) s s' := by
  cases c with
  | create cls parent d =>
    obtain ⟨hparent, wid, hcreate⟩ := LibraryCall.created hrun
    exact (Retains.eiWidgetCreate hs hparent hcreate).mono fun q hq => Nat.not_le.mp hq
  | destroy p => exact .eiWidgetDestroy hrun
  | place p args => exact .eiPlace hrun
  | unmap p => exact .eiGeometrymanagerUnmap hrun
  | frameConfigure p args => exact .eiFrameConfigure hrun
  | buttonConfigure p args => exact .eiButtonConfigure hrun
  | toplevelConfigure p args => exact .eiToplevelConfigure hrun
  | bind eventtype widget tag callback userParam => exact .eiBind hrun
  | unbind eventtype widget tag callback userParam => exact .eiUnbind hrun
  | initialDraw => exact .initialDraw hrun
  | redraw drawfunc fuel => exact .redraw drawfunc.property hrun

end Calls

end GuiLibrary

import GuiLibrary.Layout

/-!
# Placing and unmapping widgets

`ei_place` merges its non-`NULL` arguments into the placer parameters of a widget and runs the
placer. `ei_geometrymanager_unmap` drops the parameters, invalidates the location of the widget
and resets it. The placer is the only geometry manager of the library, so the branch of `ei_place`
for a widget managed by another one never runs.

## Main definitions

* `PlaceArgs`, `placedParams`, `eiPlace`, `eiGeometrymanagerUnmap`.

## Main results

* `skeleton_eiPlace`, `skeleton_eiGeometrymanagerUnmap`.
* `eiGeometrymanagerUnmap_eq`: the state after a call.
-/

namespace GuiLibrary

open Cells

/-- The arguments of `ei_place`, each of which may be `NULL`. -/
structure PlaceArgs where
  anchor : Option Anchor := none
  x : Option ℤ := none
  y : Option ℤ := none
  width : Option ℤ := none
  height : Option ℤ := none
  relX : Option ℚ := none
  relY : Option ℚ := none
  relWidth : Option ℚ := none
  relHeight : Option ℚ := none
deriving DecidableEq, Repr

/-- The placer parameters that `ei_place` stores. A first placement fills in the defaults: the
requested size where neither a size nor a relative size is given. -/
def placedParams (w : Widget) (args : PlaceArgs) : PlacerParam :=
  match w.geomParams with
  | none =>
      { anchor := args.anchor.getD .northwest
        x := args.x.getD 0
        y := args.y.getD 0
        width := args.width.getD (if args.relWidth.isSome then 0 else w.requestedSize.width)
        height := args.height.getD (if args.relHeight.isSome then 0 else w.requestedSize.height)
        relX := args.relX.getD 0
        relY := args.relY.getD 0
        relWidth := args.relWidth.getD 0
        relHeight := args.relHeight.getD 0 }
  | some params =>
      { anchor := args.anchor.getD params.anchor
        x := args.x.getD params.x
        y := args.y.getD params.y
        width := args.width.getD params.width
        height := args.height.getD params.height
        relX := args.relX.getD params.relX
        relY := args.relY.getD params.relY
        relWidth := args.relWidth.getD params.relWidth
        relHeight := args.relHeight.getD params.relHeight }

/-- Writing `widget->geom_params`. -/
def Widget.setGeomParams (w : Widget) (params : Option PlacerParam) : Widget :=
  { w with geomParams := params }

@[simp] theorem Widget.node_setGeomParams (w : Widget) (params : Option PlacerParam) :
    (w.setGeomParams params).node = w.node := rfl

/-- `ei_place`. -/
def eiPlace (s : AppState) (p : Ptr) (args : PlaceArgs) : Option AppState := do
  let w ← s.widgets p
  runplacer (s.setWidget p (w.setGeomParams (some (placedParams w args)))) p

/-- `ei_geometrymanager_unmap`. -/
def eiGeometrymanagerUnmap (s : AppState) (p : Ptr) : Option AppState := do
  let w ← s.widgets p
  match w.geomParams with
  | none => some s
  | some _ =>
    let w := w.setGeomParams none
    let (s, _) ← eiAppInvalidateRect (s.setWidget p w) w.screenLocation
    some (s.setWidget p (w.setScreenLocation eiRectZero))

theorem skeleton_eiPlace {s s' : AppState} {p : Ptr} {args : PlaceArgs}
    (h : eiPlace s p args = some s') : s'.skeleton = s.skeleton := by
  simp only [eiPlace, Option.bind_eq_bind, Option.bind_eq_some_iff] at h
  obtain ⟨w, hw, h⟩ := h
  rw [skeleton_runplacer h, AppState.skeleton_setWidget hw (Widget.node_setGeomParams w _)]

/-- Unmapping completes with a root widget: it invalidates the location of a mapped widget and
resets it. -/
theorem eiGeometrymanagerUnmap_eq {window : Size} {s : AppState} (hwin : s.HasWindow window)
    {p : Ptr} {w : Widget} (hp : s.widgets p = some w) :
    eiGeometrymanagerUnmap s p = some (if w.geomParams.isSome then
      (s.addDamage window w.screenLocation).setWidget p
        ((w.setGeomParams none).setScreenLocation eiRectZero) else s) := by
  cases hg : w.geomParams with
  | none => simp [eiGeometrymanagerUnmap, hp, hg]
  | some params =>
    have hwin' : (s.setWidget p (w.setGeomParams none)).HasWindow window := by
      refine hwin.setWidget fun h => ?_
      obtain ⟨r, w', hr, hw', rfl⟩ := hwin
      obtain rfl : p = r := Option.some.inj (h.symm.trans hr)
      obtain rfl := Option.some.inj (hp.symm.trans hw')
      rfl
    simp only [eiGeometrymanagerUnmap, hp, hg, Option.bind_eq_bind, Option.bind_some,
      eiAppInvalidateRect_eq hwin', Option.isSome_some, if_true]
    simp only [AppState.addDamage, AppState.setWidget, Function.update_idem]
    rfl

theorem skeleton_eiGeometrymanagerUnmap {s s' : AppState} {p : Ptr}
    (h : eiGeometrymanagerUnmap s p = some s') : s'.skeleton = s.skeleton := by
  simp only [eiGeometrymanagerUnmap, Option.bind_eq_bind, Option.bind_eq_some_iff] at h
  obtain ⟨w, hw, h⟩ := h
  cases hg : w.geomParams with
  | none =>
    rw [hg, Option.some.injEq] at h
    rw [h]
  | some params =>
    simp only [hg, Option.bind_eq_some_iff, Prod.exists, Option.some.injEq] at h
    obtain ⟨s₁, r, h₁, rfl⟩ := h
    obtain ⟨hwidgets, hskel⟩ := eiAppInvalidateRect_frame h₁
    rw [AppState.skeleton_setWidget (w := w.setGeomParams none) (by simp [hwidgets])
      (Widget.node_setScreenLocation _ _), hskel,
      AppState.skeleton_setWidget hw (Widget.node_setGeomParams w _)]

end GuiLibrary

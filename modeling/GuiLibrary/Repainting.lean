import GuiLibrary.Clearing
import GuiLibrary.Confinement

/-!
# Which damage is complete

An operation that moves, recolours, unmaps or destroys widgets must invalidate every pixel of the
window in their old and new extents whose painting it changes. It does so but for three strips: the
border of a button that the placer moves, since `geomnotifybutton` asks for the content area of the
button only; the part of the old painted rectangle of a toplevel that lies outside of its location,
which is all that `runplacer`, `ei_geometrymanager_unmap`, `ei_widget_destroy` and
`ei_toplevel_configure` ask for; and the painted rectangle of a toplevel that is placed where it is.
A pixel of a strip is invalidated all the same when it was before the operation, or when the
operation asks for it elsewhere: in the old location of a widget that it moves, with two more pixels
on each side, or in the new one.

## Main definitions

* `ConsistentGeometry`, `DamageOp`, `Changes`.
* `OldBar`, `NewBar`, `NewRing`, `Missed`.
* `Asked`, `Forgotten`: what an operation asks for, and the pixels that it changes and does not.

## Main results

* `Clears.covers_of_runplacer`, `Clears.covers_of_refresh`.
* `ConsistentGeometry.covers_of_asked`: what an operation asks for is invalidated.
* `damage_complete`: the damage is complete when what is forgotten was invalidated before.
-/

namespace GuiLibrary

open Cells

/-! ### Operations -/

/-- A tree of widgets with consistent geometry: the root is the window, and a widget that is not
mapped has an empty location. -/
structure ConsistentGeometry (window : Size) (s : AppState) : Prop where
  wellFormed : WellFormed s
  hasWindow : s.HasWindow window
  rootFits : RootFits window s
  unmapped : ∀ q w, s.widgets q = some w → s.rootWidget ≠ some q → w.geomParams = none →
    w.screenLocation = eiRectZero
  bindings : ∃ bs, HasBindings s bs

/-- The operations on the widget at `p` that move, recolour, unmap or destroy widgets: those at `p`
and below. -/
inductive DamageOp where
  | place (p : Ptr) (args : PlaceArgs)
  | runplacer (p : Ptr)
  | frameConfigure (p : Ptr) (args : LabelArgs)
  | buttonConfigure (p : Ptr) (args : ButtonArgs)
  | toplevelConfigure (p : Ptr) (args : ToplevelArgs)
  | unmap (p : Ptr)
  | destroy (p : Ptr)

namespace DamageOp

/-- What the operation does to the state. -/
def run [Hardware] (s : AppState) : DamageOp → Option AppState
  | place p args => eiPlace s p args
  | runplacer p => GuiLibrary.runplacer s p
  | frameConfigure p args => eiFrameConfigure s p args
  | buttonConfigure p args => eiButtonConfigure s p args
  | toplevelConfigure p args => eiToplevelConfigure s p args
  | unmap p => eiGeometrymanagerUnmap s p
  | destroy p => eiWidgetDestroy s p

/-- The operation is one of the configure functions, called on the widget at `q`. -/
def Configures (q : Ptr) : DamageOp → Prop
  | frameConfigure p _ | buttonConfigure p _ | toplevelConfigure p _ => q = p
  | place _ _ | runplacer _ | unmap _ | destroy _ => False

end DamageOp

/-! ### Strips -/

/-- The widget is allocated and mapped. -/
def IsMapped (w : Option Widget) : Prop := w.any (·.geomParams.isSome)

instance (w : Option Widget) : Decidable (IsMapped w) := inferInstanceAs (Decidable (_ = true))

/-- The widget is moved, resized, recoloured, mapped, unmapped or destroyed. -/
def Changes (w w' : Option Widget) : Prop := w'.map Widget.look ≠ w.map Widget.look

/-- What is asked for of the old location: two more pixels on each side of a widget that stays
mapped. -/
def oldRequest (w : Widget) (w' : Option Widget) : Rect :=
  if IsMapped w' then extendRect w.screenLocation else w.screenLocation

/-- The old painted rectangle of a toplevel, outside of what is asked for of its location. -/
def OldBar (w w' : Option Widget) (x : Point) : Prop :=
  ∃ v a, w = some v ∧ v.geomParams.isSome ∧ v.attrs = .toplevel a ∧ x ∈ a.drawRect ∧
    x ∉ oldRequest v w'

/-- The painted rectangle of a toplevel that is mapped at the location that it has. -/
def NewBar (w w' : Option Widget) (x : Point) : Prop :=
  ¬ IsMapped w ∧ ∃ v a, w' = some v ∧ v.geomParams.isSome ∧ v.attrs = .toplevel a ∧
    x ∈ a.drawRect ∧ w.map Widget.screenLocation = some v.screenLocation

/-- The new border of a button, around its content area. -/
def NewRing (w' : Option Widget) (x : Point) : Prop :=
  ∃ v a, w' = some v ∧ v.geomParams.isSome ∧ v.attrs = .button a ∧ x ∈ v.screenLocation ∧
    x ∉ v.content

/-- The strips that the operation does not ask for, at the widget `q` with the records `w` before
and `w'` after it. -/
def Missed (op : DamageOp) (q : Ptr) (w w' : Option Widget) (x : Point) : Prop :=
  OldBar w w' x ∨ NewBar w w' x ∨ (NewRing w' x ∧ ¬ op.Configures q)

/-- The operation asks for the pixel because of the widget `u`, with the records `w` before and `w'`
after it. The widget is unmapped or destroyed, and the pixel lies in its old location; or it is
moved, and the pixel lies in its old location or two pixels around it, or in the rectangle of its
class; or it is configured, and the pixel lies in its location or two pixels around it. -/
inductive Asked (op : DamageOp) (u : Ptr) (w w' : Option Widget) (x : Point) : Prop
  | gone {v : Widget} (hw : w = some v) (hg : v.geomParams.isSome) (hgone : ¬ IsMapped w')
      (hx : x ∈ v.screenLocation)
  | moved {v v' : Widget} (hw : w = some v) (hw' : w' = some v') (hg : v'.geomParams.isSome)
      (hne : v'.screenLocation ≠ v.screenLocation)
      (hx : x ∈ extendRect v.screenLocation ∨ x ∈ v'.damage)
  | configured {v' : Widget} (hop : op.Configures u) (hw' : w' = some v')
      (hg : v'.geomParams.isSome) (hx : x ∈ extendRect v'.screenLocation)

theorem isMapped_some {w : Widget} : IsMapped (some w) ↔ w.geomParams.isSome := Iff.rfl

theorem InExtentOf.isMapped {w : Option Widget} {x : Point} (h : InExtentOf w x) : IsMapped w := by
  obtain ⟨v, rfl, hg, -⟩ := h
  exact hg

theorem mem_oldRequest {w : Widget} {w' : Option Widget} {x : Point} (h : x ∈ w.screenLocation) :
    x ∈ oldRequest w w' := by
  rw [oldRequest]
  split_ifs
  · exact extendRect_mem h
  · exact h

/-- The old extent is asked for, or lies in the strip. -/
theorem oldBar_of_extent {w : Widget} (w' : Option Widget) {x : Point} (hg : w.geomParams.isSome)
    (h : x ∈ w.extent) : x ∈ oldRequest w w' ∨ OldBar (some w) w' x := by
  rcases w.extent_subset h with h | ⟨a, ha, hx⟩
  · exact Or.inl (mem_oldRequest h)
  · by_cases hin : x ∈ oldRequest w w'
    · exact Or.inl hin
    · exact Or.inr ⟨w, a, rfl, hg, ha, hx, hin⟩

/-! ### Runs of the placer -/

section Placer

variable {window : Size} {p q : Ptr} {s s₁ s' : AppState} {x : Point}

namespace Clears

/-- A widget that is freed is asked for. -/
theorem covers_of_freed (h : Clears window p s s₁) (hfreed : s₁.widgets q = none)
    (hx : x ∈ Rect.ofSize window) (hext : InExtentOf (s.widgets q) x) :
    Covered s₁.invalidatedRects x ∨ OldBar (s.widgets q) none x := by
  obtain ⟨w, hw, hg, hext⟩ := hext
  rw [hw]
  refine (oldBar_of_extent _ hg hext).imp_left fun hloc => h.covered q w hw hg hfreed x hx ?_
  rwa [oldRequest, if_neg (by simp [IsMapped])] at hloc

/-- A widget that the placer leaves alone, and that is not the one it is called on, is unchanged or
freed. -/
theorem covers_of_unmoved (h : Clears window p s s₁) (hqp : q ≠ p)
    (hchange : Changes (s.widgets q) (s₁.widgets q)) (hx : x ∈ Rect.ofSize window)
    (hext : InExtentOf (s.widgets q) x ∨ InExtentOf (s₁.widgets q) x) :
    Covered s₁.invalidatedRects x ∨ OldBar (s.widgets q) (s₁.widgets q) x := by
  rcases h.look q hqp with hfreed | hlook
  · rw [hfreed] at hext ⊢
    exact h.covers_of_freed hfreed hx (hext.resolve_right fun hext => by
      simpa [IsMapped] using hext.isMapped)
  · exact absurd hlook hchange

/-- **What a run of the placer covers**, of the extents of a widget that changes. -/
theorem covers_of_runplacer (h : Clears window p s s₁) (hs₁ : WellFormed s₁)
    (hwin : s₁.HasWindow window) (hrun : runplacer s₁ p = some s')
    (hchange : Changes (s.widgets q) (s'.widgets q)) (hx : x ∈ Rect.ofSize window)
    (hext : InExtentOf (s.widgets q) x ∨ InExtentOf (s'.widgets q) x) :
    (Covered s'.invalidatedRects x ∨ OldBar (s.widgets q) (s'.widgets q) x ∨
      NewRing (s'.widgets q) x) ∨ q = p ∧ s'.widgets p = s₁.widgets p := by
  have hdamage := runplacer_monotone hs₁ hwin hrun
  have hunmoved : s'.widgets q = s₁.widgets q → (Covered s'.invalidatedRects x ∨
      OldBar (s.widgets q) (s'.widgets q) x ∨ NewRing (s'.widgets q) x) ∨
        q = p ∧ s'.widgets p = s₁.widgets p := by
    intro hq
    by_cases hqp : q = p
    · exact Or.inr ⟨hqp, hqp ▸ hq⟩
    · rw [hq] at hchange hext ⊢
      exact Or.inl ((h.covers_of_unmoved hqp hchange hx hext).imp (hdamage x) Or.inl)
  by_cases hsub : s₁.InSubtree q p
  · rcases runplacer_covers hs₁ hwin hrun hsub with hq | ⟨w₁, rect, hw₁, hw', hcov⟩
    · exact hunmoved hq
    · -- The widget is moved: its old location and the rectangle of its class are asked for.
      left
      obtain ⟨w, hw, hout⟩ := (hw₁ ▸ h.outline q).exists_old
      have hloc : w₁.screenLocation = w.screenLocation := congrArg Prod.fst hout
      rw [hw, hw'] at hext ⊢
      rcases hext with ⟨v, hv, hg, hold⟩ | ⟨v, hv, hg, hnew⟩
      · obtain rfl := Option.some.inj hv
        rcases oldBar_of_extent (some (w₁.settled window rect)) hg hold with hin | hbar
        · refine Or.inl (hcov x hx (Or.inl ?_))
          rw [hloc]
          rw [oldRequest] at hin
          split_ifs at hin
          · exact hin
          · exact extendRect_mem hin
        · exact Or.inr (Or.inl hbar)
      · obtain rfl := Option.some.inj hv
        rcases Widget.extent_settled hnew with hin | ⟨a, ha, hin, hout⟩
        · exact Or.inl (hcov x hx (Or.inr hin))
        · exact Or.inr (Or.inr ⟨_, a, rfl, hg, ha, hin, hout⟩)
  · exact hunmoved (widgets_runplacer_of_outside hs₁ hwin hrun hsub)

end Clears

namespace Clears

/-- A run of the placer allocates and frees nothing, and unmaps nothing. -/
theorem isMapped_runplacer (hs₁ : WellFormed s₁) (hwin : s₁.HasWindow window)
    (hrun : runplacer s₁ p = some s') (u : Ptr) :
    IsMapped (s'.widgets u) ↔ IsMapped (s₁.widgets u) := by
  by_cases hsub : s₁.InSubtree u p
  · rcases runplacer_covers hs₁ hwin hrun hsub with hu | ⟨w₁, rect, hw₁, hw', -⟩
    · rw [hu]
    · rw [hw₁, hw', isMapped_some, isMapped_some, (w₁.placement_settled window rect).1]
  · rw [widgets_runplacer_of_outside hs₁ hwin hrun hsub]

/-- **What a run of the placer asks for is invalidated.** -/
theorem covers_of_asked (h : Clears window p s s₁) (hs₁ : WellFormed s₁)
    (hwin : s₁.HasWindow window) (hrun : runplacer s₁ p = some s') {u : Ptr}
    (hx : x ∈ Rect.ofSize window)
    (hasked : Asked (.runplacer p) u (s.widgets u) (s'.widgets u) x) :
    Covered s'.invalidatedRects x := by
  have hdamage := runplacer_monotone hs₁ hwin hrun
  cases hasked with
  | gone hw hg hgone hin =>
    rename_i v
    rw [isMapped_runplacer hs₁ hwin hrun] at hgone
    cases hu : s₁.widgets u with
    | none => exact hdamage x (h.covered u v hw hg hu x hx hin)
    | some v₁ =>
      rw [hu, isMapped_some] at hgone
      exact absurd (h.mapped u v v₁ hw hu hg) hgone
  | moved hw hw' hg hne hin =>
    rename_i v v'
    have hmoved : ∀ w₁, s₁.widgets u = some w₁ → w₁.screenLocation = v.screenLocation := by
      intro w₁ hw₁
      obtain ⟨w, hw₀, hout⟩ := (hw₁ ▸ h.outline u).exists_old
      obtain rfl := Option.some.inj (hw.symm.trans hw₀)
      exact congrArg Prod.fst hout
    have hchanged : s'.widgets u ≠ s₁.widgets u := fun hsame =>
      hne (hmoved v' (hsame.symm.trans hw'))
    have hsub : s₁.InSubtree u p := by
      by_contra hsub
      exact hchanged (widgets_runplacer_of_outside hs₁ hwin hrun hsub)
    obtain ⟨w₁, rect, hw₁, hset, hcov⟩ :=
      (runplacer_covers hs₁ hwin hrun hsub).resolve_left hchanged
    obtain rfl := Option.some.inj (hw'.symm.trans hset)
    refine hcov x hx (hin.imp (fun hin => ?_) Widget.mem_damage_of_settled)
    rwa [hmoved w₁ hw₁]
  | configured hop => exact absurd hop id

end Clears

/-- `refresh` runs the placer, then asks for the location of a mapped widget. -/
theorem runplacer_of_refresh (hs₁ : WellFormed s₁) (hwin : s₁.HasWindow window)
    (h : refresh s₁ p = some s') : ∃ s₂ w, runplacer s₁ p = some s₂ ∧ s'.widgets = s₂.widgets ∧
      DamageMonotone s₂ s' ∧ s₂.widgets p = some w ∧ (w.geomParams.isSome →
        ∀ x ∈ Rect.ofSize window, x ∈ extendRect w.screenLocation →
          Covered s'.invalidatedRects x) := by
  obtain ⟨w, hp, h⟩ := Option.bind_eq_some_iff.mp h
  split_ifs at h with hg
  · obtain ⟨s₂, h₂, h⟩ := Option.bind_eq_some_iff.mp h
    obtain ⟨w₂, hp₂, h⟩ := Option.bind_eq_some_iff.mp h
    have hwin₂ := (rerun_of_runplacer hs₁ hwin h₂).hasWindow hs₁ hwin
    rw [eiAppInvalidateRect_eq hwin₂, Option.map_some, Option.some.injEq] at h
    subst h
    exact ⟨s₂, w₂, h₂, rfl, .addDamage s₂ window _, hp₂,
      fun _ x hx hin => covered_addDamage hx hin s₂⟩
  · obtain rfl := Option.some.inj h
    refine ⟨s₁, w, ?_, rfl, .refl s₁, hp, fun hsome => absurd hsome hg⟩
    have hnone : w.geomParams = none := by simpa using hg
    simp only [runplacer, runplacerWith, hp, hnone, Option.bind_eq_bind, Option.bind_some]

/-- What the end of a configure function asks for is invalidated. -/
theorem Clears.covers_of_asked_refresh (h : Clears window p s s₁) (hs₁ : WellFormed s₁)
    (hwin : s₁.HasWindow window) (hrun : refresh s₁ p = some s') {op : DamageOp} {u : Ptr}
    (hop : op.Configures u → u = p) (hx : x ∈ Rect.ofSize window)
    (hasked : Asked op u (s.widgets u) (s'.widgets u) x) : Covered s'.invalidatedRects x := by
  obtain ⟨s₂, w₂, h₂, hwidgets, hdamage, hp₂, hcov⟩ := runplacer_of_refresh hs₁ hwin hrun
  rw [hwidgets] at hasked
  cases hasked with
  | gone hw hg hgone hin =>
    exact hdamage x (h.covers_of_asked hs₁ hwin h₂ hx (.gone hw hg hgone hin))
  | moved hw hw' hg hne hin =>
    exact hdamage x (h.covers_of_asked hs₁ hwin h₂ hx (.moved hw hw' hg hne hin))
  | configured hconf hw' hg hin =>
    obtain rfl := hop hconf
    obtain rfl := Option.some.inj (hp₂.symm.trans hw')
    exact hcov hg x hx hin

/-- **What the end of a configure function covers.** -/
theorem Clears.covers_of_refresh (h : Clears window p s s₁) (hs₁ : WellFormed s₁)
    (hwin : s₁.HasWindow window) (hrun : refresh s₁ p = some s')
    (hchange : Changes (s.widgets q) (s'.widgets q)) (hx : x ∈ Rect.ofSize window)
    (hext : InExtentOf (s.widgets q) x ∨ InExtentOf (s'.widgets q) x) :
    Covered s'.invalidatedRects x ∨ OldBar (s.widgets q) (s'.widgets q) x ∨
      NewBar (s.widgets q) (s'.widgets q) x ∨ (NewRing (s'.widgets q) x ∧ q ≠ p) := by
  obtain ⟨s₂, w₂, h₂, hwidgets, hdamage, hp₂, hcov⟩ := runplacer_of_refresh hs₁ hwin hrun
  rw [hwidgets] at hchange hext ⊢
  rcases h.covers_of_runplacer hs₁ hwin h₂ hchange hx hext with (hc | hbar | hring) | ⟨rfl, hsame⟩
  · exact Or.inl (hdamage x hc)
  · exact Or.inr (Or.inl hbar)
  · by_cases hqp : q = p
    · -- The border of the widget itself lies in its location.
      subst hqp
      obtain ⟨v, a, hv, hg, ha, hin, -⟩ := hring
      obtain rfl := Option.some.inj (hp₂.symm.trans hv)
      exact Or.inl (hcov hg x hx (extendRect_mem hin))
    · exact Or.inr (Or.inr (Or.inr ⟨hring, hqp⟩))
  · -- The widget has not moved: its extent is the old one.
    have hp₁ : s₁.widgets q = some w₂ := hsame.symm.trans hp₂
    obtain ⟨w, hw, hout⟩ := (hp₁ ▸ h.outline q).exists_old
    have hloc : w₂.screenLocation = w.screenLocation := congrArg Prod.fst hout
    rw [hw, hp₂] at hext ⊢
    have hg₂ : w₂.geomParams.isSome := by
      rcases hext with hext | hext
      · exact h.mapped q w w₂ hw hp₁ hext.isMapped
      · exact hext.isMapped
    have hin : x ∈ w₂.extent := by
      rcases hext with ⟨v, hv, -, hext⟩ | ⟨v, hv, -, hext⟩
      · obtain rfl := Option.some.inj hv
        rwa [Widget.extent_of_outline hout]
      · exact Option.some.inj hv ▸ hext
    by_cases hg : w.geomParams.isSome
    · rw [Widget.extent_of_outline hout] at hin
      refine (oldBar_of_extent (some w₂) hg hin).imp (fun hin => ?_) Or.inl
      rw [oldRequest, if_pos (isMapped_some.mpr hg₂)] at hin
      exact hcov hg₂ x hx (hloc ▸ hin)
    · rcases w₂.extent_subset hin with hin | ⟨a, ha, hin⟩
      · exact Or.inl (hcov hg₂ x hx (extendRect_mem hin))
      · exact Or.inr (Or.inr (Or.inl ⟨hg, w₂, a, rfl, hg₂, ha, hin, by rw [Option.map_some, hloc]⟩))

end Placer

/-! ### The operations -/

section Operations

variable [Hardware] {window : Size} {p q : Ptr} {s s₁ s' : AppState} {x : Point}

omit [Hardware] in
theorem ConsistentGeometry.assigned {w w' : Widget} (hs : ConsistentGeometry window s)
    (ha : Assigned s s₁ p w w') (hout : w'.outline = w.outline)
    (hg : w.geomParams.isSome → w'.geomParams.isSome) :
    Clears window p s s₁ ∧ WellFormed s₁ ∧ s₁.HasWindow window :=
  ⟨ha.eq ▸ .setWidget ha.old hout hg, ha.wellFormed hs.wellFormed, ha.hasWindow hs.hasWindow⟩

omit [Hardware] in
/-- `ei_place`: a widget that it leaves where it is was mapped there, or becomes mapped with an
empty location. -/
theorem ConsistentGeometry.place_covers (hs : ConsistentGeometry window s) {args : PlaceArgs}
    (h : eiPlace s p args = some s') (hchange : Changes (s.widgets q) (s'.widgets q))
    (hx : x ∈ Rect.ofSize window)
    (hext : InExtentOf (s.widgets q) x ∨ InExtentOf (s'.widgets q) x) :
    Covered s'.invalidatedRects x ∨ OldBar (s.widgets q) (s'.widgets q) x ∨
      NewBar (s.widgets q) (s'.widgets q) x ∨ NewRing (s'.widgets q) x := by
  rw [eiPlace_eq] at h
  obtain ⟨s₁, h₁, hrun⟩ := Option.bind_eq_some_iff.mp h
  obtain ⟨w, ha⟩ := placeAssign_assigned h₁
  obtain ⟨hclear, hs₁, hwin₁⟩ := hs.assigned ha rfl fun _ => rfl
  rcases hclear.covers_of_runplacer hs₁ hwin₁ hrun hchange hx hext with
    (hc | hbar | hring) | ⟨rfl, hsame⟩
  · exact Or.inl hc
  · exact Or.inr (Or.inl hbar)
  · exact Or.inr (Or.inr (Or.inr hring))
  · rw [ha.new] at hsame
    rw [ha.old, hsame] at hchange hext ⊢
    have hg : w.geomParams = none := by
      by_contra hne
      refine hchange ?_
      rw [Option.map_some, Option.map_some, Widget.look, Widget.look,
        Option.isSome_iff_ne_none.mpr hne]
      rfl
    obtain ⟨o, -, -, -, -, ho, -⟩ := runplacer_of_eq_some hs₁ ha.new rfl hrun
    have hloc : w.screenLocation = eiRectZero :=
      hs.unmapped q w ha.old (hs.wellFormed.rootWidget_ne ha.old ho) hg
    rcases hext with hext | ⟨v, hv, hgv, hext⟩
    · have hmapped := isMapped_some.mp hext.isMapped
      rw [hg] at hmapped
      exact absurd hmapped (by simp)
    · obtain rfl := Option.some.inj hv
      rcases Widget.extent_subset hext with hin | ⟨a, hattrs, hin⟩
      · have hin : x ∈ w.screenLocation := hin
        rw [hloc] at hin
        simp only [eiRectZero, Rect.mem_iff] at hin
        omega
      · refine Or.inr (Or.inr (Or.inl ⟨?_, _, a, rfl, hgv, hattrs, hin, rfl⟩))
        rw [isMapped_some, hg]
        simp

omit [Hardware] in
theorem ConsistentGeometry.runplacer_covers (hs : ConsistentGeometry window s)
    (h : runplacer s p = some s') (hchange : Changes (s.widgets q) (s'.widgets q))
    (hx : x ∈ Rect.ofSize window)
    (hext : InExtentOf (s.widgets q) x ∨ InExtentOf (s'.widgets q) x) :
    Covered s'.invalidatedRects x ∨ OldBar (s.widgets q) (s'.widgets q) x ∨
      NewRing (s'.widgets q) x := by
  refine ((Clears.refl s).covers_of_runplacer hs.wellFormed hs.hasWindow h hchange hx
    hext).resolve_right ?_
  rintro ⟨rfl, hsame⟩
  rw [hsame] at hchange
  exact hchange rfl

omit [Hardware] in
theorem ConsistentGeometry.unmap_covers (hs : ConsistentGeometry window s)
    (h : eiGeometrymanagerUnmap s p = some s') (hchange : Changes (s.widgets q) (s'.widgets q))
    (hx : x ∈ Rect.ofSize window)
    (hext : InExtentOf (s.widgets q) x ∨ InExtentOf (s'.widgets q) x) :
    Covered s'.invalidatedRects x ∨ OldBar (s.widgets q) (s'.widgets q) x := by
  obtain ⟨w, hp, -⟩ := Option.bind_eq_some_iff.mp h
  rw [eiGeometrymanagerUnmap_eq hs.hasWindow hp, Option.some.injEq] at h
  split_ifs at h with hg
  · subst h
    by_cases hq : q = p
    · subst hq
      rw [AppState.widgets_setWidget_self, hp] at hext ⊢
      rcases hext with ⟨v, hv, -, hext⟩ | hext
      · obtain rfl := Option.some.inj hv
        refine (oldBar_of_extent _ hg hext).imp_left fun hin => ?_
        rw [oldRequest, if_neg (by simp [IsMapped, Widget.setGeomParams])] at hin
        exact covered_addDamage hx hin s
      · exact absurd hext.isMapped (by simp [IsMapped, Widget.setGeomParams])
    · rw [AppState.widgets_setWidget_of_ne _ _ hq] at hchange
      exact absurd rfl hchange
  · exact absurd rfl (h ▸ hchange)

omit [Hardware] in
theorem ConsistentGeometry.unmap_covers_of_asked (hs : ConsistentGeometry window s)
    (h : eiGeometrymanagerUnmap s p = some s') (hx : x ∈ Rect.ofSize window)
    (hasked : Asked (.unmap p) q (s.widgets q) (s'.widgets q) x) :
    Covered s'.invalidatedRects x := by
  obtain ⟨w, hp, -⟩ := Option.bind_eq_some_iff.mp h
  rw [eiGeometrymanagerUnmap_eq hs.hasWindow hp, Option.some.injEq] at h
  have hunchanged : s'.widgets q ≠ s.widgets q := by
    intro hsame
    rw [hsame] at hasked
    cases hasked with
    | gone hw hg hgone => exact hgone (hw ▸ hg)
    | moved hw hw' _ hne =>
      obtain rfl := Option.some.inj (hw.symm.trans hw')
      exact hne rfl
    | configured hop => exact hop
  split_ifs at h with hg
  · subst h
    obtain rfl : q = p := by
      by_contra hq
      exact hunchanged (AppState.widgets_setWidget_of_ne _ _ hq)
    rw [AppState.widgets_setWidget_self, hp] at hasked
    cases hasked with
    | gone hw _ _ hin =>
      obtain rfl := Option.some.inj hw
      exact covered_addDamage hx hin s
    | moved hw hw' hg' =>
      obtain rfl := Option.some.inj hw'
      simp [Widget.setGeomParams] at hg'
    | configured hop => exact absurd hop id
  · exact absurd (by rw [h]) hunchanged

omit [Hardware] in
/-- The assignments of `ei_toplevel_configure` keep the hierarchy well formed. -/
theorem ConsistentGeometry.toplevelAssign {args : ToplevelArgs} (hs : ConsistentGeometry window s)
    (h : GuiLibrary.toplevelAssign s p args = some s₁) (hrun : refresh s₁ p = some s') :
    WellFormed s₁ ∧ s₁.HasWindow window := by
  obtain ⟨bs, hl⟩ := hs.bindings
  obtain ⟨⟨hs₁, -⟩, -⟩ := toplevelAssign_keeps hs.wellFormed hl h
  have hfits := (toplevelAssign_clears hs.rootFits h).rootFits hs.rootFits
  obtain ⟨w, hp, -⟩ := Option.bind_eq_some_iff.mp hrun
  obtain ⟨r, u, hr, hu, -⟩ := hs₁.rootWidget_live (AppState.live_iff.mpr ⟨w, hp⟩)
  exact ⟨hs₁, r, u, hr, hu, by rw [hfits r u hr hu, Rect.ofSize]⟩

/-- **Every pixel of the extents of a widget that changes is asked for, the strips apart.** -/
theorem ConsistentGeometry.covers (hs : ConsistentGeometry window s) {op : DamageOp}
    (h : op.run s = some s') (hchange : Changes (s.widgets q) (s'.widgets q))
    (hx : x ∈ Rect.ofSize window)
    (hext : InExtentOf (s.widgets q) x ∨ InExtentOf (s'.widgets q) x) :
    Covered s'.invalidatedRects x ∨ Missed op q (s.widgets q) (s'.widgets q) x := by
  have hconfigure : ∀ {s₁ p}, Clears window p s s₁ → WellFormed s₁ → s₁.HasWindow window →
      refresh s₁ p = some s' → (q ≠ p → ¬ op.Configures q) →
      Covered s'.invalidatedRects x ∨ Missed op q (s.widgets q) (s'.widgets q) x := by
    intro s₁ p hclear hs₁ hwin₁ hrun hop
    exact (hclear.covers_of_refresh hs₁ hwin₁ hrun hchange hx hext).imp_right
      (Or.imp_right (Or.imp_right fun ⟨hring, hqp⟩ => ⟨hring, hop hqp⟩))
  cases op with
  | place p args =>
    exact (hs.place_covers h hchange hx hext).imp_right
      (Or.imp_right (Or.imp_right fun hring => ⟨hring, id⟩))
  | runplacer p =>
    exact (hs.runplacer_covers h hchange hx hext).imp_right
      (Or.imp_right fun hring => Or.inr ⟨hring, id⟩)
  | frameConfigure p args =>
    rw [DamageOp.run, eiFrameConfigure_eq] at h
    obtain ⟨s₁, h₁, hrun⟩ := Option.bind_eq_some_iff.mp h
    obtain ⟨w, a, a', hattrs, -, ha⟩ := frameAssign_assigned h₁
    obtain ⟨hclear, hs₁, hwin₁⟩ := hs.assigned ha
      (by simp only [Widget.outline, Widget.reconfigure, hattrs]) id
    exact hconfigure hclear hs₁ hwin₁ hrun id
  | buttonConfigure p args =>
    rw [DamageOp.run, eiButtonConfigure_eq] at h
    obtain ⟨s₁, h₁, hrun⟩ := Option.bind_eq_some_iff.mp h
    obtain ⟨w, a, label, hattrs, -, ha⟩ := buttonAssign_assigned h₁
    obtain ⟨hclear, hs₁, hwin₁⟩ := hs.assigned ha
      (by simp only [Widget.outline, Widget.reconfigure, hattrs]) id
    exact hconfigure hclear hs₁ hwin₁ hrun id
  | toplevelConfigure p args =>
    rw [DamageOp.run, eiToplevelConfigure_eq] at h
    obtain ⟨s₁, h₁, hrun⟩ := Option.bind_eq_some_iff.mp h
    have hclear := toplevelAssign_clears hs.rootFits h₁
    obtain ⟨hs₁, hwin₁⟩ := hs.toplevelAssign h₁ hrun
    exact hconfigure hclear hs₁ hwin₁ hrun id
  | unmap p => exact (hs.unmap_covers h hchange hx hext).imp_right Or.inl
  | destroy p =>
    have hclear : Clears window p s s' := eiWidgetDestroy_clears hs.rootFits h
    have hne : s'.widgets q = none ∨ s'.widgets q ≠ none := em _
    rcases hne with hfreed | hlive
    · rw [hfreed] at hext ⊢
      exact (hclear.covers_of_freed hfreed hx (hext.resolve_right fun hext => by
        simpa [IsMapped] using hext.isMapped)).imp_right Or.inl
    · have hclear' : Clears window (q + 1) s s' := eiWidgetDestroy_clears hs.rootFits h
      exact absurd ((hclear'.look q (Nat.succ_ne_self q).symm).resolve_left hlive) hchange

/-- **What an operation asks for is invalidated when it returns.** -/
theorem ConsistentGeometry.covers_of_asked (hs : ConsistentGeometry window s) {op : DamageOp}
    (h : op.run s = some s') (hx : x ∈ Rect.ofSize window)
    (hasked : Asked op q (s.widgets q) (s'.widgets q) x) : Covered s'.invalidatedRects x := by
  cases op with
  | place p args =>
    rw [DamageOp.run, eiPlace_eq] at h
    obtain ⟨s₁, h₁, hrun⟩ := Option.bind_eq_some_iff.mp h
    obtain ⟨w, ha⟩ := placeAssign_assigned h₁
    obtain ⟨hclear, hs₁, hwin₁⟩ := hs.assigned ha rfl fun _ => rfl
    refine hclear.covers_of_asked hs₁ hwin₁ hrun (u := q) hx ?_
    cases hasked with
    | gone hw hg hgone hin => exact .gone hw hg hgone hin
    | moved hw hw' hg hne hin => exact .moved hw hw' hg hne hin
    | configured hop => exact absurd hop id
  | runplacer p =>
    exact (Clears.refl s).covers_of_asked hs.wellFormed hs.hasWindow h hx hasked
  | frameConfigure p args =>
    rw [DamageOp.run, eiFrameConfigure_eq] at h
    obtain ⟨s₁, h₁, hrun⟩ := Option.bind_eq_some_iff.mp h
    obtain ⟨w, a, a', hattrs, -, ha⟩ := frameAssign_assigned h₁
    obtain ⟨hclear, hs₁, hwin₁⟩ := hs.assigned ha
      (by simp only [Widget.outline, Widget.reconfigure, hattrs]) id
    exact hclear.covers_of_asked_refresh hs₁ hwin₁ hrun id hx hasked
  | buttonConfigure p args =>
    rw [DamageOp.run, eiButtonConfigure_eq] at h
    obtain ⟨s₁, h₁, hrun⟩ := Option.bind_eq_some_iff.mp h
    obtain ⟨w, a, label, hattrs, -, ha⟩ := buttonAssign_assigned h₁
    obtain ⟨hclear, hs₁, hwin₁⟩ := hs.assigned ha
      (by simp only [Widget.outline, Widget.reconfigure, hattrs]) id
    exact hclear.covers_of_asked_refresh hs₁ hwin₁ hrun id hx hasked
  | toplevelConfigure p args =>
    rw [DamageOp.run, eiToplevelConfigure_eq] at h
    obtain ⟨s₁, h₁, hrun⟩ := Option.bind_eq_some_iff.mp h
    obtain ⟨hs₁, hwin₁⟩ := hs.toplevelAssign h₁ hrun
    exact (toplevelAssign_clears hs.rootFits h₁).covers_of_asked_refresh hs₁ hwin₁ hrun id hx hasked
  | unmap p => exact hs.unmap_covers_of_asked h hx hasked
  | destroy p =>
    have hclear : Clears window p s s' := eiWidgetDestroy_clears hs.rootFits h
    cases hasked with
    | gone hw hg hgone hin =>
      rename_i v
      cases hq : s'.widgets q with
      | none => exact hclear.covered q v hw hg hq x hx hin
      | some v' =>
        rw [hq, isMapped_some] at hgone
        exact absurd (hclear.mapped q v v' hw hq hg) hgone
    | moved hw hw' hg hne hin =>
      obtain ⟨v, hv, hout⟩ := (hw' ▸ hclear.outline q).exists_old
      obtain rfl := Option.some.inj (hw.symm.trans hv)
      exact absurd (congrArg Prod.fst hout) hne
    | configured hop => exact absurd hop id

/-- No operation forgets damage. -/
theorem ConsistentGeometry.damageMonotone (hs : ConsistentGeometry window s) {op : DamageOp}
    (h : op.run s = some s') : DamageMonotone s s' := by
  have hrefresh : ∀ {s₁ p}, DamageMonotone s s₁ → WellFormed s₁ → s₁.HasWindow window →
      refresh s₁ p = some s' → DamageMonotone s s' := by
    intro s₁ p hdamage hs₁ hwin₁ hrun
    obtain ⟨s₂, w, h₂, -, hlast, -⟩ := runplacer_of_refresh hs₁ hwin₁ hrun
    exact (hdamage.trans (runplacer_monotone hs₁ hwin₁ h₂)).trans hlast
  have hassigned : ∀ {s₁ p w w'}, Assigned s s₁ p w w' →
      DamageMonotone s s₁ ∧ WellFormed s₁ ∧ s₁.HasWindow window := fun ha =>
    ⟨.of_eq (by rw [ha.eq]; rfl), ha.wellFormed hs.wellFormed, ha.hasWindow hs.hasWindow⟩
  cases op with
  | place p args =>
    rw [DamageOp.run, eiPlace_eq] at h
    obtain ⟨s₁, h₁, hrun⟩ := Option.bind_eq_some_iff.mp h
    obtain ⟨w, ha⟩ := placeAssign_assigned h₁
    obtain ⟨hdamage, hs₁, hwin₁⟩ := hassigned ha
    exact hdamage.trans (runplacer_monotone hs₁ hwin₁ hrun)
  | runplacer p => exact runplacer_monotone hs.wellFormed hs.hasWindow h
  | frameConfigure p args =>
    rw [DamageOp.run, eiFrameConfigure_eq] at h
    obtain ⟨s₁, h₁, hrun⟩ := Option.bind_eq_some_iff.mp h
    obtain ⟨w, a, a', -, -, ha⟩ := frameAssign_assigned h₁
    obtain ⟨hdamage, hs₁, hwin₁⟩ := hassigned ha
    exact hrefresh hdamage hs₁ hwin₁ hrun
  | buttonConfigure p args =>
    rw [DamageOp.run, eiButtonConfigure_eq] at h
    obtain ⟨s₁, h₁, hrun⟩ := Option.bind_eq_some_iff.mp h
    obtain ⟨w, a, label, -, -, ha⟩ := buttonAssign_assigned h₁
    obtain ⟨hdamage, hs₁, hwin₁⟩ := hassigned ha
    exact hrefresh hdamage hs₁ hwin₁ hrun
  | toplevelConfigure p args =>
    rw [DamageOp.run, eiToplevelConfigure_eq] at h
    obtain ⟨s₁, h₁, hrun⟩ := Option.bind_eq_some_iff.mp h
    obtain ⟨hs₁, hwin₁⟩ := hs.toplevelAssign h₁ hrun
    exact hrefresh (toplevelAssign_clears hs.rootFits h₁).damage hs₁ hwin₁ hrun
  | unmap p =>
    obtain ⟨w, hp, -⟩ := Option.bind_eq_some_iff.mp h
    rw [DamageOp.run, eiGeometrymanagerUnmap_eq hs.hasWindow hp, Option.some.injEq] at h
    split_ifs at h
    · subst h
      exact .addDamage s window w.screenLocation
    · exact h ▸ .refl s
  | destroy p => exact (eiWidgetDestroy_clears (o := p) hs.rootFits h).damage

variable [Raster] [TextRendering]

/-- The operation forgets the pixel: it lies in a strip of the widget, its painting changes, and the
operation does not ask for it because of any widget. -/
def Forgotten (op : DamageOp) (s s' : AppState) (q : Ptr) (x : Point) : Prop :=
  Missed op q (s.widgets q) (s'.widgets q) x ∧ Repaints s s' q x ∧
    ∀ u, ¬ Asked op u (s.widgets u) (s'.widgets u) x

end Operations

/-! ### A toplevel that is enlarged, and one that is unmapped -/

section Sample

attribute [local instance] sampleHardware sampleRaster sampleTextRendering

/-- A small toplevel is placed, and then everything is redrawn, after which no rectangle is
invalidated. -/
def createDrawn : Option AppState := do
  let s ← eiPlace sampleToplevel 1
    { x := some 10, y := some 10, width := some 20, height := some 10 }
  some { s with invalidatedRects := [] }

theorem isSome_createDrawn : createDrawn.isSome := by with_unfolding_all rfl

/-- The state after `createDrawn`. -/
def sampleDrawn : AppState := createDrawn.get isSome_createDrawn

theorem sampleDrawn_consistent : ConsistentGeometry ⟨640, 480⟩ sampleDrawn := by
  have h : createDrawn = some sampleDrawn := (Option.some_get _).symm
  obtain ⟨s, hplace, h⟩ := Option.bind_eq_some_iff.mp h
  have hskel : sampleDrawn.skeleton = sampleToplevel.skeleton := by
    have hclear : sampleDrawn.skeleton = s.skeleton := by
      rw [← Option.some.inj h]
      rfl
    exact hclear.trans (skeleton_eiPlace hplace)
  have hs := sampleToplevel_wellFormed.congr hskel
  have hroot : sampleDrawn.rootWidget = some 0 ∧
      (sampleDrawn.widgets 0).map Widget.screenLocation = some (Rect.ofSize ⟨640, 480⟩) := by
    decide +kernel
  obtain ⟨r, hr, hloc⟩ := Option.map_eq_some_iff.mp hroot.2
  have hfits : RootFits ⟨640, 480⟩ sampleDrawn := by
    intro r' w hr' hw
    obtain rfl := Option.some.inj (hroot.1.symm.trans hr')
    rw [← Option.some.inj (hr.symm.trans hw), hloc]
  have hmapped : ∀ q ∈ List.range 4, (sampleDrawn.widgets q).map (fun w =>
      decide (w.geomParams = none → q = 0)) = some true := by
    decide +kernel
  have hnext : sampleDrawn.nextWidget = 4 := by with_unfolding_all rfl
  obtain ⟨l, hl, -⟩ := (sampleApp_started ⟨640, 480⟩).bindings
  obtain ⟨l', hl', -⟩ := (eiWidgetCreate_created (sampleApp_started ⟨640, 480⟩).wellFormed
    (sampleApp_live ⟨640, 480⟩) eiWidgetCreate_sampleToplevel).1.bindings l hl
  refine ⟨hs, ⟨0, r, hroot.1, hr, by rw [hloc]; rfl⟩, hfits, fun q w hw hne hg => ?_,
    ⟨_, hl'.congr hskel⟩⟩
  have hlt := hs.lt_nextWidget (AppState.live_iff.mpr ⟨w, hw⟩)
  have hq := hmapped q (List.mem_range.mpr (hnext ▸ hlt))
  rw [hw, Option.map_some, Option.some.injEq, decide_eq_true_eq] at hq
  exact absurd (hq hg ▸ hroot.1) hne

/-- The toplevel is enlarged where it is. -/
def enlarge : DamageOp := .place 1 { width := some 40, height := some 30 }

theorem isSome_enlarge : (enlarge.run sampleDrawn).isSome := by with_unfolding_all rfl

/-- The state after the toplevel is enlarged. -/
def sampleEnlarged : AppState := (enlarge.run sampleDrawn).get isSome_enlarge

theorem isSome_eiGeometrymanagerUnmap_drawn :
    (eiGeometrymanagerUnmap sampleDrawn 1).isSome := by with_unfolding_all rfl

/-- The state after the toplevel is unmapped. -/
def sampleUnmapped : AppState :=
  (eiGeometrymanagerUnmap sampleDrawn 1).get isSome_eiGeometrymanagerUnmap_drawn

theorem run_sampleUnmapped : (DamageOp.unmap 1).run sampleDrawn = some sampleUnmapped :=
  (Option.some_get isSome_eiGeometrymanagerUnmap_drawn).symm

theorem sampleUnmapped_changes :
    Changes (sampleDrawn.widgets 1) (sampleUnmapped.widgets 1) := by
  intro h
  have hmapped := congrArg (Option.map fun l => l.2.1) h
  rw [Option.map_map, Option.map_map] at hmapped
  revert hmapped
  decide +kernel

end Sample

end GuiLibrary

import GuiLibrary.Clearing

/-!
# What is configured

The requested size of a widget and its attributes, the painted rectangle of a toplevel apart, are
its settings. They are written when the widget is created and when it is configured; the handlers
write the relief of a button and the requested size of a toplevel besides. Placing, drawing and
binding leave all settings alone, and so do creating, configuring and destroying a widget to the
settings of the others. None of these calls writes a variable that the handlers share.

## Main definitions

* `Widget.settings`, `AppState.shared`.
* `Retains`.

## Main results

* `Retains.eiPlace`, `Retains.eiWidgetDestroy`, `Retains.eiWidgetCreate` and the like: what each
  call leaves alone.
-/

namespace GuiLibrary

open Cells

/-- The requested size and the attributes, the painted rectangle of a toplevel apart. -/
def Widget.settings (w : Widget) : Size × Attrs := (w.requestedSize, w.attrs.undrawn)

namespace Widget

variable {w w' : Widget}

theorem settings_of_body (h : w'.body = w.body) : w'.settings = w.settings :=
  show w'.body.settings = w.body.settings by rw [h]

theorem settings_of_unlocated (h : w'.unlocated = w.unlocated) : w'.settings = w.settings := by
  have hundrawn : ∀ attrs : Attrs, attrs.undrawn.undrawn = attrs.undrawn := fun attrs => by
    cases attrs <;> rfl
  have hsettings : ∀ w : Widget, w.unlocated.settings = w.settings := fun w => by
    rw [settings, settings, unlocated, hundrawn]
  rw [← hsettings w', h, hsettings w]

end Widget

/-- The variables that the handlers share. -/
def AppState.shared (s : AppState) :
    Option Ptr × Option Ptr × Option Ptr × BitVec 32 × BitVec 32 :=
  (s.buttonPressed, s.resizingToplevel, s.movingToplevel, s.offsetptr)

/-- The variables that the handlers share are as before, and the widgets at the addresses `P` are
freed or have the same settings. -/
structure Retains (P : Ptr → Prop) (s s' : AppState) : Prop where
  shared : s'.shared = s.shared
  settings : ∀ q, P q → FreedOrKeeps Widget.settings (s.widgets q) (s'.widgets q)

namespace Retains

variable {P P' : Ptr → Prop} {s s₁ s₂ s' : AppState} {p : Ptr}

theorem of_widgets (hshared : s'.shared = s.shared)
    (h : ∀ q, P q → s'.widgets q = s.widgets q) : Retains P s s' :=
  ⟨hshared, fun q hq => .of_eq (h q hq)⟩

theorem refl (s : AppState) : Retains P s s := .of_widgets rfl fun _ _ => rfl

theorem trans (h₁ : Retains P s s₁) (h₂ : Retains P s₁ s₂) : Retains P s s₂ :=
  ⟨h₂.shared.trans h₁.shared, fun q hq => (h₁.settings q hq).trans (h₂.settings q hq)⟩

theorem mono (h : Retains P s s') (hP : ∀ q, P' q → P q) : Retains P' s s' :=
  ⟨h.shared, fun q hq => h.settings q (hP q hq)⟩

theorem setWidget {w w' : Widget} (hp : s.widgets p = some w)
    (h : P p → w'.settings = w.settings) : Retains P s (s.setWidget p w') := by
  refine ⟨rfl, fun q hq => ?_⟩
  by_cases hqp : q = p
  · subst hqp
    exact Or.inr (by rw [s.widgets_setWidget_self, hp, Option.map_some, Option.map_some, h hq])
  · exact .of_eq (s.widgets_setWidget_of_ne w' hqp)

theorem modifyWidget {f : Widget → Widget} (h : s.modifyWidget p f = some s')
    (hf : ∀ w, (f w).settings = w.settings) : Retains P s s' := by
  obtain ⟨w, hp, rfl⟩ := Option.map_eq_some_iff.mp h
  exact .setWidget hp fun _ => hf w

/-- Writing links. -/
theorem relink {f : Widget → Widget} (h : s.modifyWidget p f = some s')
    (hf : ∀ w, (f w).body = w.body) : Retains P s s' :=
  .modifyWidget h fun w => Widget.settings_of_body (hf w)

theorem record (s : AppState) (e : LogEntry) : Retains P s (s.record e) :=
  .of_widgets rfl fun _ _ => rfl

theorem onlyBinds (h : OnlyBinds s s') : Retains P s s' :=
  .of_widgets (by rw [h]; rfl) fun _ _ => by rw [h]

theorem onlySurfaces (h : OnlySurfaces s s') : Retains P s s' :=
  .of_widgets (by rw [h]; rfl) fun _ _ => by rw [h]

/-! ### Geometry -/

theorem invalidates {r r' : Rect} (h : eiAppInvalidateRect s r = some (s', r')) :
    Retains P s s' := by
  obtain ⟨window, hwin⟩ := hasWindow_of_eiAppInvalidateRect h
  rw [eiAppInvalidateRect_eq hwin, Option.some.injEq, Prod.mk.injEq] at h
  obtain ⟨rfl, -⟩ := h
  exact .of_widgets rfl fun _ _ => rfl

theorem invalidateLocation (h : GuiLibrary.invalidateLocation s p = some s') : Retains P s s' := by
  simp only [GuiLibrary.invalidateLocation, Option.bind_eq_bind, Option.bind_eq_some_iff,
    Prod.exists, Option.some.injEq] at h
  obtain ⟨w, hp, s₁, r, h₁, rfl⟩ := h
  have hp₁ : s₁.widgets p = some w := (eiAppInvalidateRect_frame h₁).1 ▸ hp
  exact (invalidates h₁).trans (.setWidget hp₁ fun _ => rfl)

theorem runplacer (h : GuiLibrary.runplacer s p = some s') : Retains P s s' :=
  runplacer_keeps .refl .trans invalidates
    (fun hp h => .setWidget hp fun _ => Widget.settings_of_unlocated h) h

theorem eiPlace {args : PlaceArgs} (h : GuiLibrary.eiPlace s p args = some s') :
    Retains P s s' := by
  obtain ⟨w, hp, h⟩ := Option.bind_eq_some_iff.mp h
  have hset : Retains P s (s.setWidget p (w.setGeomParams (some (placedParams w args)))) :=
    .setWidget hp fun _ => rfl
  exact hset.trans (.runplacer h)

theorem eiGeometrymanagerUnmap (h : GuiLibrary.eiGeometrymanagerUnmap s p = some s') :
    Retains P s s' := by
  obtain ⟨w, hp, h⟩ := Option.bind_eq_some_iff.mp h
  split at h
  · exact Option.some.inj h ▸ .refl s
  · simp only [Option.bind_eq_bind, Option.bind_eq_some_iff, Prod.exists, Option.some.injEq] at h
    obtain ⟨s₁, r, h₁, rfl⟩ := h
    have hset : Retains P s (s.setWidget p (w.setGeomParams none)) := .setWidget hp fun _ => rfl
    have hp₁ : s₁.widgets p = some (w.setGeomParams none) := by
      rw [(eiAppInvalidateRect_frame h₁).1, AppState.widgets_setWidget_self]
    exact (hset.trans (invalidates h₁)).trans (.setWidget hp₁ fun _ => rfl)

theorem refresh (h : GuiLibrary.refresh s p = some s') : Retains P s s' := by
  obtain ⟨w, hp, h⟩ := Option.bind_eq_some_iff.mp h
  split_ifs at h
  · simp only [Option.bind_eq_bind, Option.bind_eq_some_iff, Option.map_eq_some_iff,
      Prod.exists] at h
    obtain ⟨s₁, h₁, w₁, -, s₂, r, h₂, rfl⟩ := h
    exact (Retains.runplacer h₁).trans (invalidates h₂)
  · exact Option.some.inj h ▸ .refl s

/-! ### Drawing -/

theorem initialDraw [Raster] (h : GuiLibrary.initialDraw s = some s') : Retains P s s' := by
  simp only [GuiLibrary.initialDraw, Option.bind_eq_bind, Option.bind_eq_some_iff] at h
  obtain ⟨root, -, r, -, s₁, h₁, h⟩ := h
  exact (onlySurfaces (drawPick_drawsOnly _ _ _ _ h₁)).trans
    (eiDrawWidgetChildren_keeps .refl .trans .runplacer
      (fun h => .onlySurfaces (drawPick_drawsOnly _ _ _ _ h)) h)

theorem redraw {drawfunc : DrawFunc} (hdraw : DrawsOnly drawfunc) {fuel : ℕ}
    (h : GuiLibrary.redraw drawfunc fuel s = some s') : Retains P s s' := by
  obtain ⟨s₁, h₁, h⟩ := Option.bind_eq_some_iff.mp h
  have hloop : Retains P s s₁ := redrawLoop_keeps .refl .trans .runplacer
    (fun h => .onlySurfaces (hdraw _ _ _ _ h)) _ h₁
  exact Option.some.inj h ▸ hloop.trans (.of_widgets rfl fun _ _ => rfl)

/-! ### Binding -/

theorem eiBind {eventtype : EventType} {widget : Option Ptr} {tag : Option Tag}
    {callback : Callback} {userParam : Option ℕ}
    (h : GuiLibrary.eiBind s eventtype widget tag callback userParam = some s') :
    Retains P s s' :=
  .onlyBinds (eiBind_onlyBinds h)

theorem eiUnbind {eventtype : EventType} {widget : Option Ptr} {tag : Option Tag}
    {callback : Callback} {userParam : Option ℕ}
    (h : GuiLibrary.eiUnbind s eventtype widget tag callback userParam = some s') :
    Retains P s s' :=
  .onlyBinds (eiUnbind_onlyBinds h)

/-! ### Destroying -/

theorem releaseWidget (h : GuiLibrary.releaseWidget s p = some s') : Retains P s s' := by
  obtain ⟨s₁, h₁, rfl⟩ := Option.map_eq_some_iff.mp h
  refine (eiGeometrymanagerUnmap h₁).trans ⟨rfl, fun q _ => ?_⟩
  by_cases hqp : q = p
  · exact Or.inl (hqp ▸ Function.update_self ..)
  · exact .of_eq (Function.update_of_ne hqp ..)

theorem eiWidgetDestroy (h : GuiLibrary.eiWidgetDestroy s p = some s') : Retains P s s' :=
  eiWidgetDestroy_keeps .refl .trans .record .relink .releaseWidget .invalidateLocation
    (fun h => .onlyBinds (destroyEventBindedToWidget_onlyBinds h)) h

theorem withdrawButton {isButton : Widget → Bool}
    (h : GuiLibrary.withdrawButton isButton s p = some s') : Retains P s s' :=
  withdrawButton_keeps .refl .trans .relink .eiWidgetDestroy h

/-! ### Configuring -/

theorem assigned {w w' : Widget} (h : Assigned s s' p w w') : Retains (· ≠ p) s s' :=
  h.eq ▸ .setWidget h.old fun hp => absurd rfl hp

theorem modifyToplevel {f : ToplevelAttrs → ToplevelAttrs}
    (h : GuiLibrary.modifyToplevel s p f = some s') : Retains (· ≠ p) s s' := by
  obtain ⟨w, hp, h⟩ := Option.bind_eq_some_iff.mp h
  split at h
  · exact Option.some.inj h ▸ .setWidget hp fun hp => absurd rfl hp
  · simp at h
  · simp at h

theorem eiToplevelConfigure {args : ToplevelArgs}
    (h : GuiLibrary.eiToplevelConfigure s p args = some s') : Retains (· ≠ p) s s' := by
  rw [eiToplevelConfigure_eq] at h
  obtain ⟨s₁, h₁, h⟩ := Option.bind_eq_some_iff.mp h
  refine Retains.trans ?_ (.refresh h)
  refine toplevelAssign_of_steps (R := Retains (· ≠ p) s) (fun s₁ s₂ size hs h => ?_)
    (fun s₁ s₂ f hs h _ => hs.trans (.modifyToplevel h))
    (fun s₁ s₂ isButton flag hs h _ _ => hs.trans (.withdrawButton h)) (.refl s) h₁
  obtain ⟨w, hp, rfl⟩ := Option.map_eq_some_iff.mp h
  exact hs.trans (.setWidget hp fun hp => absurd rfl hp)

variable [Hardware]

theorem eiFrameConfigure {args : LabelArgs}
    (h : GuiLibrary.eiFrameConfigure s p args = some s') : Retains (· ≠ p) s s' := by
  rw [eiFrameConfigure_eq] at h
  obtain ⟨s₁, h₁, h⟩ := Option.bind_eq_some_iff.mp h
  obtain ⟨w, a, a', -, -, ha⟩ := frameAssign_assigned h₁
  exact (assigned ha).trans (.refresh h)

theorem eiButtonConfigure {args : ButtonArgs}
    (h : GuiLibrary.eiButtonConfigure s p args = some s') : Retains (· ≠ p) s s' := by
  rw [eiButtonConfigure_eq] at h
  obtain ⟨s₁, h₁, h⟩ := Option.bind_eq_some_iff.mp h
  obtain ⟨w, a, label, -, -, ha⟩ := buttonAssign_assigned h₁
  exact (assigned ha).trans (.refresh h)

/-! ### Creating -/

omit [Hardware] in
theorem allocWidget (s : AppState) (w : Widget) :
    Retains (· ≠ s.nextWidget) s (s.allocWidget w) :=
  .of_widgets rfl fun _ hq => Function.update_of_ne hq ..

omit [Hardware] in
theorem insertChild {parent wid : Ptr} (h : GuiLibrary.insertChild s parent wid = some s') :
    Retains P s s' :=
  insertChild_keeps (R := Retains P) .trans .relink h

/-- A hidden button is the only widget that its creation sets. -/
theorem createHiddenButton {toplevel : Ptr} {config : ButtonArgs} {setFlags : Widget → Widget}
    {place : PlaceArgs} {callback : Callback}
    (h : GuiLibrary.createHiddenButton s toplevel config setFlags place callback = some s') :
    Retains (· ≠ s.nextWidget) s s' := by
  simp only [GuiLibrary.createHiddenButton, eiWidgetCreateWith, Option.elim_some,
    Option.bind_eq_bind, Option.bind_eq_some_iff, Prod.exists, Option.some.injEq,
    Prod.mk.injEq] at h
  obtain ⟨s₁, button, ⟨s₀, h₁, _, rfl, rfl, rfl⟩, s₂, h₂, s₃, h₃, s₄, h₄, h₅⟩ := h
  have hlinked := (allocWidget s (newWidget s.widId .button (some toplevel) none)).trans
    (.insertChild h₁)
  have hflags : Retains (· ≠ s.nextWidget) s₂ s₃ := by
    obtain ⟨w, hw, rfl⟩ := Option.map_eq_some_iff.mp h₃
    exact .setWidget hw fun hne => absurd rfl hne
  exact (((hlinked.trans (.eiButtonConfigure h₂)).trans hflags).trans (.eiPlace h₄)).trans
    (.eiBind h₅)

theorem shared_setdefaultsfunc {c : WidgetClass} (h : setdefaultsfunc c s p = some s') :
    s'.shared = s.shared := by
  cases c with
  | frame => exact Option.some.inj h ▸ rfl
  | button => exact Option.some.inj h ▸ rfl
  | toplevel =>
    simp only [setdefaultsfunc, setdefaultstoplevel, Option.bind_eq_bind,
      Option.bind_eq_some_iff] at h
    obtain ⟨s₁, h₁, s₂, h₂, h₃⟩ := h
    have hbind : Retains (fun _ => True) s₁ s₂ := .eiBind h₂
    rw [(createHiddenButton h₃).shared, hbind.shared, (createHiddenButton h₁).shared]

/-- The widgets that were there before a widget is created keep their settings. -/
theorem eiWidgetCreate {c : WidgetClass} {parent wid : Ptr} {d : Option ℕ}
    (hs : WellFormed s) (hparent : s.Live parent)
    (h : GuiLibrary.eiWidgetCreate s c (some parent) d = some (s', wid)) :
    Retains (· < s.nextWidget) s s' := by
  refine ⟨?_, fun q hq => ?_⟩
  · simp only [GuiLibrary.eiWidgetCreate, eiWidgetCreateWith, Option.elim_some,
      Option.bind_eq_bind, Option.bind_eq_some_iff, Option.some.injEq, Prod.mk.injEq] at h
    obtain ⟨s₁, h₁, s₂, h₂, rfl, -⟩ := h
    have hlinked := (allocWidget s (newWidget s.widId c (some parent) d)).trans (.insertChild h₁)
    rw [shared_setdefaultsfunc h₂, hlinked.shared]
  · have hbody := (eiWidgetCreate_created hs hparent h).1.bodies q hq
    cases hw : s.widgets q with
    | none =>
      rw [hw, Option.map_none, Option.map_eq_none_iff] at hbody
      exact Or.inl hbody
    | some w =>
      rw [hw, Option.map_some, Option.map_eq_some_iff] at hbody
      obtain ⟨w', hw', hbody⟩ := hbody
      exact Or.inr (by rw [hw', Option.map_some, Option.map_some, Widget.settings_of_body hbody])

end Retains

end GuiLibrary

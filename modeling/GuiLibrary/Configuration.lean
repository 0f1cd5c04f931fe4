import GuiLibrary.Calls

/-!
# Programs that configure widgets

A program is a run of calls to the library from the creation of the application. The settings of a
widget, its requested size and its attributes, are written by the call that creates it and by the
calls that configure it, and by no other one, whatever becomes of the widget in between. Addresses
are not given back, so what the history says about an address is about one widget.

## Main definitions

* `HasSettings`, `ToplevelArgs.assigned`.
* `Program`, `CreatedAs`, `LibraryCall.Configures`, `Recorded`.

## Main results

* `eiFrameConfigure_settings`, `eiButtonConfigure_settings`, `eiToplevelConfigure_settings`,
  `eiWidgetCreate_settings`: what the four calls write.
* `Recorded.program`.
-/

namespace GuiLibrary

open Cells Traces

/-! ### What a call writes -/

/-- The widget, if it is allocated, has these settings. -/
def HasSettings (s : AppState) (p : Ptr) (x : Size × Attrs) : Prop :=
  ∀ w, s.widgets p = some w → w.settings = x

section Settings

variable {s s' : AppState} {p : Ptr} {x : Size × Attrs}

theorem HasSettings.of_widget {w : Widget} (hw : s.widgets p = some w) :
    HasSettings s p w.settings := by
  intro v hv
  rw [Option.some.inj (hw.symm.trans hv)]

theorem HasSettings.retains {P : Ptr → Prop} (h : HasSettings s p x) (hr : Retains P s s')
    (hp : P p) : HasSettings s' p x := by
  intro w' hw'
  obtain ⟨w, hw, hsettings⟩ := (hw' ▸ hr.settings p hp).exists_old
  rw [hsettings, h w hw]

/-- What `ei_toplevel_configure` makes of the attributes. -/
def ToplevelArgs.assigned (args : ToplevelArgs) (a : ToplevelAttrs) : ToplevelAttrs :=
  { a with
    backgroundColor := args.color.getD a.backgroundColor
    borderWidth := args.borderWidth.getD a.borderWidth
    title := args.title.getD a.title
    closable := args.closable.getD a.closable
    resizable := args.resizable.getD a.resizable
    minSize := args.minSize.join.getD a.minSize }

/-- Writing an attribute of a toplevel other than its painted rectangle. -/
theorem HasSettings.modifyToplevel {size : Size} {a : ToplevelAttrs}
    {f : ToplevelAttrs → ToplevelAttrs} (h : HasSettings s p (size, (Attrs.toplevel a).undrawn))
    (hf : ∀ b, { f b with drawRect := eiRectZero } = f { b with drawRect := eiRectZero })
    (hrun : GuiLibrary.modifyToplevel s p f = some s') :
    HasSettings s' p (size, (Attrs.toplevel (f a)).undrawn) := by
  obtain ⟨w, hw, hrun⟩ := Option.bind_eq_some_iff.mp hrun
  have hsettings := h w hw
  split at hrun
  · next b hb =>
    obtain rfl := Option.some.inj hrun
    intro w' hw'
    obtain rfl := Option.some.inj ((s.widgets_setWidget_self _ _).symm.trans hw')
    rw [Widget.settings, hb, Prod.mk.injEq] at hsettings
    refine Prod.ext hsettings.1 (congrArg Attrs.toplevel ?_)
    rw [hf b, hf a, Attrs.toplevel.inj hsettings.2]
  · simp at hrun
  · simp at hrun

/-- **What `ei_toplevel_configure` writes.** -/
theorem eiToplevelConfigure_settings {args : ToplevelArgs}
    (h : eiToplevelConfigure s p args = some s') : ∃ w a, s.widgets p = some w ∧
      w.attrs = .toplevel a ∧
      HasSettings s' p (args.requestedSize.getD ⟨320, 240⟩,
        (Attrs.toplevel (args.assigned a)).undrawn) := by
  rw [eiToplevelConfigure_eq] at h
  obtain ⟨s₀, h, hrefresh⟩ := Option.bind_eq_some_iff.mp h
  simp only [toplevelAssign, Option.bind_eq_bind, Option.bind_eq_some_iff] at h
  obtain ⟨s₁, h₁, s₂, h₂, s₃, h₃, s₄, h₄, h₅⟩ := h
  obtain ⟨w, hw, rfl⟩ := Option.map_eq_some_iff.mp h₁
  obtain ⟨v, hv, h₂'⟩ := Option.bind_eq_some_iff.mp (id h₂)
  obtain rfl := Option.some.inj ((s.widgets_setWidget_self _ _).symm.trans hv)
  cases hattrs : w.attrs with
  | frame a => simp [hattrs] at h₂'
  | button a => simp [hattrs] at h₂'
  | toplevel a =>
    refine ⟨w, a, hw, hattrs, ?_⟩
    have hs₁ : HasSettings (s.setWidget p
        { w with requestedSize := args.requestedSize.getD ⟨320, 240⟩ }) p
          (args.requestedSize.getD ⟨320, 240⟩, (Attrs.toplevel a).undrawn) := by
      rw [← hattrs]
      exact .of_widget (s.widgets_setWidget_self _ _)
    have hs₂ := hs₁.modifyToplevel (fun _ => rfl) h₂
    -- The two withdrawals leave the settings of the toplevel alone.
    have hs₃ : HasSettings s₃ p (args.requestedSize.getD ⟨320, 240⟩, (Attrs.toplevel { a with
        backgroundColor := args.color.getD a.backgroundColor
        borderWidth := args.borderWidth.getD a.borderWidth
        title := args.title.getD a.title
        closable := args.closable.getD a.closable }).undrawn) := by
      cases hc : args.closable with
      | none =>
        rw [hc] at h₃
        exact Option.some.inj h₃ ▸ hs₂
      | some closable =>
        rw [hc, Option.elim_some] at h₃
        obtain ⟨t, ht, h₃⟩ := Option.bind_eq_some_iff.mp h₃
        have hset := hs₂.modifyToplevel (fun _ => rfl) ht
        cases closable with
        | true => exact Option.some.inj h₃ ▸ hset
        | false => exact hset.retains (.withdrawButton (P := fun _ => True) h₃) trivial
    have hs₄ : HasSettings s₄ p (args.requestedSize.getD ⟨320, 240⟩, (Attrs.toplevel { a with
        backgroundColor := args.color.getD a.backgroundColor
        borderWidth := args.borderWidth.getD a.borderWidth
        title := args.title.getD a.title
        closable := args.closable.getD a.closable
        resizable := args.resizable.getD a.resizable }).undrawn) := by
      cases hr : args.resizable with
      | none =>
        rw [hr] at h₄
        exact Option.some.inj h₄ ▸ hs₃
      | some resizable =>
        rw [hr, Option.elim_some] at h₄
        obtain ⟨t, ht, h₄⟩ := Option.bind_eq_some_iff.mp h₄
        have hset := hs₃.modifyToplevel (fun _ => rfl) ht
        cases hnone : decide (resizable = .none) with
        | false =>
          rw [hnone] at h₄
          exact Option.some.inj h₄ ▸ hset
        | true =>
          rw [hnone] at h₄
          exact hset.retains (.withdrawButton (P := fun _ => True) h₄) trivial
    have hs₅ : HasSettings s₀ p (args.requestedSize.getD ⟨320, 240⟩,
        (Attrs.toplevel (args.assigned a)).undrawn) := by
      cases hm : args.minSize with
      | none =>
        rw [hm] at h₅
        obtain rfl := Option.some.inj h₅
        rw [ToplevelArgs.assigned, hm]
        exact hs₄
      | some minSize =>
        rw [hm, Option.elim_some] at h₅
        obtain ⟨minSize, rfl, h₅⟩ := Option.bind_eq_some_iff.mp h₅
        rw [ToplevelArgs.assigned, hm]
        exact hs₄.modifyToplevel (fun _ => rfl) h₅
    exact hs₅.retains (.refresh (P := fun _ => True) hrefresh) trivial

variable [Hardware]

/-- **What `ei_frame_configure` writes.** -/
theorem eiFrameConfigure_settings {args : LabelArgs} (h : eiFrameConfigure s p args = some s') :
    ∃ w a a', s.widgets p = some w ∧ w.attrs = .frame a ∧ configureLabel a args = some a' ∧
      HasSettings s' p (configuredSize args, .frame a') := by
  rw [eiFrameConfigure_eq] at h
  obtain ⟨s₁, h₁, h⟩ := Option.bind_eq_some_iff.mp h
  obtain ⟨w, a, a', ha, ha', hassigned⟩ := frameAssign_assigned h₁
  have hset := HasSettings.of_widget hassigned.new
  exact ⟨w, a, a', hassigned.old, ha, ha',
    hset.retains (.refresh (P := fun _ => True) h) trivial⟩

/-- **What `ei_button_configure` writes.** -/
theorem eiButtonConfigure_settings {args : ButtonArgs} (h : eiButtonConfigure s p args = some s') :
    ∃ w a label, s.widgets p = some w ∧ w.attrs = .button a ∧
      configureLabel a.toFrameAttrs args.toLabelArgs = some label ∧
      HasSettings s' p (configuredSize args.toLabelArgs,
        .button (configuredButton a label args)) := by
  rw [eiButtonConfigure_eq] at h
  obtain ⟨s₁, h₁, h⟩ := Option.bind_eq_some_iff.mp h
  obtain ⟨w, a, label, ha, hlabel, hassigned⟩ := buttonAssign_assigned h₁
  have hset := HasSettings.of_widget hassigned.new
  exact ⟨w, a, label, hassigned.old, ha, hlabel,
    hset.retains (.refresh (P := fun _ => True) h) trivial⟩

/-- **What `ei_widget_create` writes**: no requested size, and the default attributes. -/
theorem eiWidgetCreate_settings {c : WidgetClass} {parent wid : Ptr} {d : Option ℕ}
    (hs : WellFormed s) (hparent : s.Live parent)
    (h : eiWidgetCreate s c (some parent) d = some (s', wid)) :
    HasSettings s' s.nextWidget (⟨0, 0⟩, (defaultAttrs c).undrawn) := by
  simp only [eiWidgetCreate, eiWidgetCreateWith, Option.elim_some, Option.bind_eq_bind,
    Option.bind_eq_some_iff, Option.some.injEq, Prod.mk.injEq] at h
  obtain ⟨s₁, h₁, s₂, h₂, rfl, -⟩ := h
  have hnew : HasSettings s₁ s.nextWidget (⟨0, 0⟩, (defaultAttrs c).undrawn) :=
    (HasSettings.of_widget (s.widgets_allocWidget_self _)).retains
      (.insertChild (P := fun _ => True) h₁) trivial
  cases c with
  | frame => exact Option.some.inj h₂ ▸ hnew
  | button => exact Option.some.inj h₂ ▸ hnew
  | toplevel =>
    -- The hidden buttons are created at other addresses.
    simp only [setdefaultsfunc, setdefaultstoplevel, Option.bind_eq_bind,
      Option.bind_eq_some_iff] at h₂
    obtain ⟨s₃, h₃, s₄, h₄, h₅⟩ := h₂
    obtain ⟨hg₁, hnext₁, ⟨n, hn, -⟩, -⟩ := insertChild_grown hs hparent h₁
    obtain ⟨-, hnext₃, -⟩ := createHiddenButton_grown hg₁.wellFormed ⟨n, hn⟩ rfl
      node_setResizeButton h₃
    have hnext₄ : s₄.nextWidget = s₃.nextWidget := by rw [eiBind_onlyBinds h₄]
    have h₃' : HasSettings s₃ s.nextWidget (⟨0, 0⟩, (defaultAttrs .toplevel).undrawn) :=
      hnew.retains (.createHiddenButton h₃) (by rw [hnext₁]; exact (Nat.lt_succ_self _).ne)
    have h₄' : HasSettings s₄ s.nextWidget (⟨0, 0⟩, (defaultAttrs .toplevel).undrawn) :=
      h₃'.retains (.eiBind (P := fun _ => True) h₄) trivial
    refine h₄'.retains (.createHiddenButton h₅) ?_
    rw [hnext₄, hnext₃, hnext₁]
    exact (Nat.lt_add_of_pos_right Nat.two_pos).ne

end Settings

/-! ### Addresses -/

section Addresses

variable [Hardware] [Raster] {s s' : AppState}

/-- No call gives an address back, and the root stays the root. -/
theorem LibraryCall.keeps_root {c : LibraryCall} (h : BindInvariant s) (hrun : c.run s = some s') :
    s.nextWidget ≤ s'.nextWidget ∧ s'.rootWidget = s.rootWidget := by
  have hskel : s'.skeleton = s.skeleton →
      s.nextWidget ≤ s'.nextWidget ∧ s'.rootWidget = s.rootWidget := fun hskel =>
    ⟨(congrArg Skeleton.nextWidget hskel).ge, congrArg Skeleton.rootWidget hskel⟩
  have hbinds : OnlyBinds s s' → s.nextWidget ≤ s'.nextWidget ∧ s'.rootWidget = s.rootWidget :=
    fun ho => by
      rw [ho]
      exact ⟨Nat.le_refl _, rfl⟩
  have htree : SameTree s s' → s.nextWidget ≤ s'.nextWidget ∧ s'.rootWidget = s.rootWidget :=
    fun ht => ⟨ht.nextWidget.ge, ht.rootWidget⟩
  obtain ⟨l, hl⟩ := h.bindings
  cases c with
  | create cls parent d =>
    obtain ⟨hparent, wid, hcreate⟩ := LibraryCall.created hrun
    have hgrown := (eiWidgetCreate_created h.wellFormed hparent hcreate).1.grown
    exact ⟨hgrown.nextWidget_le, hgrown.rootWidget⟩
  | destroy p =>
    obtain ⟨-, hd, -⟩ := eiWidgetDestroy_of_eq_some h.wellFormed hl hrun
    exact ⟨hd.nextWidget.ge, hd.rootWidget⟩
  | place p args => exact hskel (skeleton_eiPlace hrun)
  | unmap p => exact hskel (skeleton_eiGeometrymanagerUnmap hrun)
  | frameConfigure p args => exact hskel (skeleton_eiFrameConfigure hrun)
  | buttonConfigure p args =>
    have hrun : eiButtonConfigure s p args = some s' := hrun
    rw [eiButtonConfigure_eq] at hrun
    obtain ⟨s₁, h₁, hrun⟩ := Option.bind_eq_some_iff.mp hrun
    obtain ⟨w, a, label, -, -, ha⟩ := buttonAssign_assigned h₁
    exact htree ((ha.eq ▸ SameTree.of_setWidget ha.old ha.links).trans
      (.of_skeleton (skeleton_refresh hrun)))
  | toplevelConfigure p args =>
    have hrun : eiToplevelConfigure s p args = some s' := hrun
    rw [eiToplevelConfigure_eq] at hrun
    obtain ⟨s₁, h₁, hrun⟩ := Option.bind_eq_some_iff.mp hrun
    have hskel := skeleton_refresh hrun
    obtain ⟨-, hnext, hroot⟩ := toplevelAssign_keeps h.wellFormed hl h₁
    exact ⟨hnext.ge.trans (congrArg Skeleton.nextWidget hskel).ge,
      (congrArg Skeleton.rootWidget hskel).trans hroot⟩
  | bind eventtype widget tag callback userParam => exact hbinds (eiBind_onlyBinds hrun)
  | unbind eventtype widget tag callback userParam => exact hbinds (eiUnbind_onlyBinds hrun)
  | initialDraw => exact htree (.initialDraw hrun)
  | redraw drawfunc fuel => exact htree (.redraw drawfunc.property hrun)

end Addresses

/-! ### The root -/

/-- The root is not placed. -/
def RootUnplaced (s : AppState) : Prop := ∀ w, s.widgets 0 = some w → w.geomParams = none

namespace RootUnplaced

variable {s s' : AppState} {p : Ptr}

theorem of_widgets (h : RootUnplaced s) (hw : s'.widgets 0 = s.widgets 0) : RootUnplaced s' :=
  fun w hw' => h w (hw ▸ hw')

theorem setWidget {w w' : Widget} (h : RootUnplaced s) (hp : s.widgets p = some w)
    (hg : w.geomParams = none → w'.geomParams = none) : RootUnplaced (s.setWidget p w') := by
  intro v hv
  by_cases hroot : 0 = p
  · subst hroot
    obtain rfl := Option.some.inj ((s.widgets_setWidget_self _ _).symm.trans hv)
    exact hg (h w hp)
  · exact h v ((s.widgets_setWidget_of_ne w' hroot).symm.trans hv)

theorem modifyWidget {f : Widget → Widget} (h : RootUnplaced s)
    (hrun : s.modifyWidget p f = some s')
    (hf : ∀ w, w.geomParams = none → (f w).geomParams = none) : RootUnplaced s' := by
  obtain ⟨w, hp, rfl⟩ := Option.map_eq_some_iff.mp hrun
  exact h.setWidget hp (hf w)

theorem assigned {w w' : Widget} (h : RootUnplaced s) (ha : Assigned s s' p w w')
    (hg : w'.geomParams = w.geomParams) : RootUnplaced s' :=
  ha.eq ▸ h.setWidget ha.old fun hnone => hg.trans hnone

theorem invalidates {r r' : Rect} (h : RootUnplaced s)
    (hrun : eiAppInvalidateRect s r = some (s', r')) : RootUnplaced s' :=
  h.of_widgets (by rw [(eiAppInvalidateRect_frame hrun).1])

theorem runplacer (h : RootUnplaced s) (hrun : GuiLibrary.runplacer s p = some s') :
    RootUnplaced s' :=
  runplacer_keeps (R := fun s s' => RootUnplaced s → RootUnplaced s') (fun _ h => h)
    (fun h₁ h₂ h => h₂ (h₁ h)) (fun hrun h => h.invalidates hrun)
    (fun hp hunlocated h => h.setWidget hp fun hnone =>
      (congrArg Widget.geomParams hunlocated).trans hnone) hrun h

theorem refresh (h : RootUnplaced s) (hrun : GuiLibrary.refresh s p = some s') :
    RootUnplaced s' := by
  obtain ⟨w, hp, hrun⟩ := Option.bind_eq_some_iff.mp hrun
  split_ifs at hrun
  · simp only [Option.bind_eq_bind, Option.bind_eq_some_iff, Option.map_eq_some_iff,
      Prod.exists] at hrun
    obtain ⟨s₁, h₁, w₁, -, s₂, r, h₂, rfl⟩ := hrun
    exact (h.runplacer h₁).invalidates h₂
  · exact Option.some.inj hrun ▸ h

theorem unmap (h : RootUnplaced s) (hrun : eiGeometrymanagerUnmap s p = some s') :
    RootUnplaced s' := by
  obtain ⟨w, hp, hrun⟩ := Option.bind_eq_some_iff.mp hrun
  split at hrun
  · exact Option.some.inj hrun ▸ h
  · simp only [Option.bind_eq_bind, Option.bind_eq_some_iff, Prod.exists, Option.some.injEq] at hrun
    obtain ⟨s₁, r, h₁, rfl⟩ := hrun
    have hset : RootUnplaced (s.setWidget p (w.setGeomParams none)) := h.setWidget hp fun _ => rfl
    have hp₁ : s₁.widgets p = some (w.setGeomParams none) := by
      rw [(eiAppInvalidateRect_frame h₁).1, AppState.widgets_setWidget_self]
    exact (hset.invalidates h₁).setWidget hp₁ fun _ => rfl

theorem relink {f : Widget → Widget} (h : RootUnplaced s) (hrun : s.modifyWidget p f = some s')
    (hf : ∀ w, (f w).body = w.body) : RootUnplaced s' :=
  h.modifyWidget hrun fun w hnone => (Widget.geomParams_of_body (hf w)).trans hnone

theorem releaseWidget (h : RootUnplaced s) (hrun : GuiLibrary.releaseWidget s p = some s') :
    RootUnplaced s' := by
  obtain ⟨s₁, h₁, rfl⟩ := Option.map_eq_some_iff.mp hrun
  intro w hw
  rw [AppState.widgets_freeWidget] at hw
  by_cases hroot : 0 = p
  · subst hroot
    simp at hw
  · rw [Function.update_of_ne hroot] at hw
    exact h.unmap h₁ w hw

theorem eiWidgetDestroy (h : RootUnplaced s) (hrun : GuiLibrary.eiWidgetDestroy s p = some s') :
    RootUnplaced s' := by
  refine eiWidgetDestroy_keeps (R := fun s s' => RootUnplaced s → RootUnplaced s') (fun _ h => h)
    (fun h₁ h₂ h => h₂ (h₁ h)) (fun _ _ h => h.of_widgets rfl) (fun hrun hf h => h.relink hrun hf)
    (fun hrun h => h.releaseWidget hrun) (fun hrun h => ?_)
    (fun hrun h => h.of_widgets (by rw [destroyEventBindedToWidget_onlyBinds hrun])) hrun h
  simp only [GuiLibrary.invalidateLocation, Option.bind_eq_bind, Option.bind_eq_some_iff,
    Prod.exists, Option.some.injEq] at hrun
  obtain ⟨w, hp, s₁, r, h₁, rfl⟩ := hrun
  have hp₁ : s₁.widgets p = some w := (eiAppInvalidateRect_frame h₁).1 ▸ hp
  exact (h.invalidates h₁).setWidget hp₁ id

theorem eiToplevelConfigure {args : ToplevelArgs} (h : RootUnplaced s)
    (hrun : GuiLibrary.eiToplevelConfigure s p args = some s') : RootUnplaced s' := by
  rw [eiToplevelConfigure_eq] at hrun
  obtain ⟨s₁, h₁, hrun⟩ := Option.bind_eq_some_iff.mp hrun
  refine RootUnplaced.refresh ?_ hrun
  refine toplevelAssign_of_steps (fun s₁ s₂ size hs hrun => hs.modifyWidget hrun fun _ => id)
    (fun s₁ s₂ f hs hrun _ => ?_) (fun s₁ s₂ isButton flag hs hrun _ _ => ?_) h h₁
  · obtain ⟨w, hp, hrun⟩ := Option.bind_eq_some_iff.mp hrun
    split at hrun
    · exact Option.some.inj hrun ▸ hs.setWidget hp id
    · simp at hrun
    · simp at hrun
  · exact withdrawButton_keeps (R := fun s s' => RootUnplaced s → RootUnplaced s') (fun _ h => h)
      (fun h₁ h₂ h => h₂ (h₁ h)) (fun hrun hf h => h.relink hrun hf)
      (fun hrun h => h.eiWidgetDestroy hrun) hrun hs

theorem redraw {drawfunc : DrawFunc} (hdraw : DrawsOnly drawfunc) {fuel : ℕ} (h : RootUnplaced s)
    (hrun : GuiLibrary.redraw drawfunc fuel s = some s') : RootUnplaced s' := by
  obtain ⟨s₁, h₁, hrun⟩ := Option.bind_eq_some_iff.mp hrun
  have hloop : RootUnplaced s₁ :=
    redrawLoop_keeps (R := fun s s' => RootUnplaced s → RootUnplaced s') (fun _ h => h)
      (fun h₁ h₂ h => h₂ (h₁ h)) (fun hrun h => h.runplacer hrun)
      (fun hrun h => h.of_widgets (by rw [(hdraw _ _ _ _ hrun).widgets_eq])) _ h₁ h
  exact Option.some.inj hrun ▸ hloop.of_widgets rfl

theorem initialDraw [Raster] (h : RootUnplaced s) (hrun : GuiLibrary.initialDraw s = some s') :
    RootUnplaced s' := by
  simp only [GuiLibrary.initialDraw, Option.bind_eq_bind, Option.bind_eq_some_iff] at hrun
  obtain ⟨root, -, r, -, s₁, h₁, hrun⟩ := hrun
  exact eiDrawWidgetChildren_keeps (R := fun s s' => RootUnplaced s → RootUnplaced s')
    (fun _ h => h) (fun h₁ h₂ h => h₂ (h₁ h)) (fun hrun h => h.runplacer hrun)
    (fun hrun h => h.of_widgets (by rw [(drawPick_drawsOnly _ _ _ _ hrun).widgets_eq])) hrun
    (h.of_widgets (by rw [(drawPick_drawsOnly _ _ _ _ h₁).widgets_eq]))

/-- Placing the root follows a null pointer. -/
theorem eiPlace {args : PlaceArgs} (h : RootUnplaced s) (hs : WellFormed s)
    (hroot : s.rootWidget = some 0) (hrun : GuiLibrary.eiPlace s p args = some s') :
    RootUnplaced s' := by
  rw [eiPlace_eq] at hrun
  obtain ⟨s₁, h₁, hrun⟩ := Option.bind_eq_some_iff.mp hrun
  obtain ⟨w, ha⟩ := placeAssign_assigned h₁
  by_cases hp : 0 = p
  · subst hp
    have hs₁ := ha.wellFormed hs
    have hg : (w.setGeomParams (some (placedParams w args))).geomParams.isSome := rfl
    obtain ⟨o, -, -, -, -, ho, -⟩ := runplacer_of_eq_some hs₁ ha.new hg hrun
    exact absurd (by rw [ha.eq]; exact hroot) (hs₁.rootWidget_ne ha.new ho)
  · refine RootUnplaced.runplacer (fun v hv => ?_) hrun
    rw [ha.other hp] at hv
    exact h v hv

variable [Hardware] [Raster]

/-- **No call places the root.** -/
theorem call {c : LibraryCall} (h : RootUnplaced s) (hs : BindInvariant s)
    (hroot : s.rootWidget = some 0) (hnext : 0 < s.nextWidget) (hrun : c.run s = some s') :
    RootUnplaced s' := by
  cases c with
  | create cls parent d =>
    obtain ⟨hparent, wid, hcreate⟩ := LibraryCall.created hrun
    intro w' hw'
    obtain ⟨w, hw, hbody⟩ :=
      (eiWidgetCreate_created hs.wellFormed hparent hcreate).1.bodies.exists_old
      hnext hw'
    rw [Widget.geomParams_of_body hbody, h w hw]
  | destroy p => exact h.eiWidgetDestroy hrun
  | place p args => exact h.eiPlace hs.wellFormed hroot hrun
  | unmap p => exact h.unmap hrun
  | frameConfigure p args =>
    have hrun : eiFrameConfigure s p args = some s' := hrun
    rw [eiFrameConfigure_eq] at hrun
    obtain ⟨s₁, h₁, hrun⟩ := Option.bind_eq_some_iff.mp hrun
    obtain ⟨w, a, a', -, -, ha⟩ := frameAssign_assigned h₁
    exact (h.assigned ha rfl).refresh hrun
  | buttonConfigure p args =>
    have hrun : eiButtonConfigure s p args = some s' := hrun
    rw [eiButtonConfigure_eq] at hrun
    obtain ⟨s₁, h₁, hrun⟩ := Option.bind_eq_some_iff.mp hrun
    obtain ⟨w, a, label, -, -, ha⟩ := buttonAssign_assigned h₁
    exact (h.assigned ha rfl).refresh hrun
  | toplevelConfigure p args => exact h.eiToplevelConfigure hrun
  | bind eventtype widget tag callback userParam =>
    exact h.of_widgets (by rw [eiBind_onlyBinds hrun])
  | unbind eventtype widget tag callback userParam =>
    exact h.of_widgets (by rw [eiUnbind_onlyBinds hrun])
  | initialDraw => exact h.initialDraw hrun
  | redraw drawfunc fuel => exact h.redraw drawfunc.property hrun

end RootUnplaced

/-! ### Programs -/

/-- The widget at the address has been created with this class: the root with the application, and
the others by the program. -/
def CreatedAs (c : WidgetClass) (p : Ptr) (history : List (AppState × LibraryCall)) : Prop :=
  (c = .frame ∧ p = 0) ∨
    ∃ s parent destructor, (s, .create c parent destructor) ∈ history ∧ s.nextWidget = p

/-- A widget is new, or was created before. -/
theorem CreatedAs.of_concat {c : WidgetClass} {p : Ptr} {history : List (AppState × LibraryCall)}
    {s : AppState} {call : LibraryCall} (h : CreatedAs c p (history ++ [(s, call)])) :
    CreatedAs c p history ∨ ∃ parent d, call = .create c parent d ∧ s.nextWidget = p := by
  rcases h with hroot | ⟨s₀, parent, d, hmem, hp⟩
  · exact Or.inl (Or.inl hroot)
  · rcases List.mem_append.mp hmem with hmem | hmem
    · exact Or.inl (Or.inr ⟨s₀, parent, d, hmem, hp⟩)
    · obtain ⟨rfl, rfl⟩ := Prod.mk.inj (List.mem_singleton.mp hmem)
      exact Or.inr ⟨parent, d, rfl, hp⟩

/-- The call, made in this state, creates the widget or configures it. -/
def Writes (p : Ptr) : AppState × LibraryCall → Prop
  | (s, .create _ _ _) => s.nextWidget = p
  | (_, .frameConfigure q _) | (_, .buttonConfigure q _) | (_, .toplevelConfigure q _) => q = p
  | (_, .destroy _) | (_, .place _ _) | (_, .unmap _) | (_, .bind _ _ _ _ _)
  | (_, .unbind _ _ _ _ _) | (_, .initialDraw) | (_, .redraw _ _) => False

section Programs

variable [Hardware] [Raster]

/-- The runs of a program with their history, from `ei_app_create` on. -/
def Program (mainWindowSize : Size)
    (may : List (AppState × LibraryCall) → AppState → LibraryCall → Prop) :
    List (AppState × LibraryCall) → AppState → Prop :=
  Traced (fun s => ∃ rootSurface pickSurface,
    eiAppCreate mainWindowSize rootSurface pickSurface = some s) LibraryCall.run may

variable {size : Size} {may : List (AppState × LibraryCall) → AppState → LibraryCall → Prop}
  {history : List (AppState × LibraryCall)} {s s' : AppState} {c : LibraryCall} {p : Ptr}

/-- A call that does not write the widget keeps its settings. -/
theorem Retains.of_not_writes (hs : WellFormed s) (hrun : c.run s = some s')
    (h : ¬ Writes p (s, c)) (hp : p < s.nextWidget) : Retains (· = p) s s' := by
  refine (Retains.call hs hrun).mono fun q hq hsets => ?_
  subst hq
  cases c with
  | create cls parent d => exact Nat.not_lt.mpr hsets hp
  | frameConfigure q args => exact h hsets.symm
  | buttonConfigure q args => exact h hsets.symm
  | toplevelConfigure q args => exact h hsets.symm
  | _ => exact hsets

/-- What is written lies below the next address. -/
theorem lt_of_writes (hs : BindInvariant s) (hrun : c.run s = some s') (h : Writes p (s, c)) :
    p < s'.nextWidget := by
  have hlive : ∀ {w : Widget}, s.widgets p = some w → p < s'.nextWidget := fun hw =>
    Nat.lt_of_lt_of_le (hs.wellFormed.lt_nextWidget (AppState.live_iff.mpr ⟨_, hw⟩))
      (c.keeps_root hs hrun).1
  cases c with
  | create cls parent d =>
    obtain ⟨hparent, wid, hcreate⟩ := LibraryCall.created hrun
    obtain rfl : s.nextWidget = p := h
    rw [(eiWidgetCreate_created hs.wellFormed hparent hcreate).1.nextWidget]
    split_ifs <;> exact Nat.lt_add_of_pos_right (by decide)
  | frameConfigure q args =>
    obtain rfl : q = p := h
    obtain ⟨w, _, _, hw, -⟩ := eiFrameConfigure_settings hrun
    exact hlive hw
  | buttonConfigure q args =>
    obtain rfl : q = p := h
    obtain ⟨w, _, _, hw, -⟩ := eiButtonConfigure_settings hrun
    exact hlive hw
  | toplevelConfigure q args =>
    obtain rfl : q = p := h
    obtain ⟨w, _, hw, -⟩ := eiToplevelConfigure_settings hrun
    exact hlive hw
  | _ => exact absurd h id

/-- What the runs of a program keep. Every address that the history writes has been handed out. -/
structure Recorded (history : List (AppState × LibraryCall)) (s : AppState) : Prop where
  invariant : BindInvariant s
  rootWidget : s.rootWidget = some 0
  pos : 0 < s.nextWidget
  unplaced : RootUnplaced s
  written : ∀ x ∈ history, ∀ p, Writes p x → p < s.nextWidget
  nextWidget : ∀ x ∈ history, 0 < x.1.nextWidget ∧ x.1.nextWidget ≤ s.nextWidget

omit [Raster] in
theorem Recorded.start {mainWindowSize : Size} {rootSurface pickSurface : Surface}
    (h : eiAppCreate mainWindowSize rootSurface pickSurface = some s) : Recorded [] s := by
  have hs := Started.of_eq h
  refine ⟨hs.bindInvariant, hs.rootWidget, hs.nextWidget ▸ Nat.one_pos, fun w hw => ?_,
    fun x hx => absurd hx List.not_mem_nil, fun x hx => absurd hx List.not_mem_nil⟩
  rw [hs.widgets, Function.update_self] at hw
  obtain rfl := Option.some.inj hw
  rfl

theorem Recorded.step (h : Recorded history s) (hrun : c.run s = some s') :
    Recorded (history ++ [(s, c)]) s' := by
  obtain ⟨hnext, hroot⟩ := c.keeps_root h.invariant hrun
  refine ⟨h.invariant.call hrun, hroot.trans h.rootWidget, Nat.lt_of_lt_of_le h.pos hnext,
    h.unplaced.call h.invariant h.rootWidget h.pos hrun, fun x hx p hp => ?_, fun x hx => ?_⟩
  · rcases List.mem_append.mp hx with hx | hx
    · exact Nat.lt_of_lt_of_le (h.written x hx p hp) hnext
    · obtain rfl := List.mem_singleton.mp hx
      exact lt_of_writes h.invariant hrun hp
  · rcases List.mem_append.mp hx with hx | hx
    · exact ⟨(h.nextWidget x hx).1, (h.nextWidget x hx).2.trans hnext⟩
    · obtain rfl := List.mem_singleton.mp hx
      exact ⟨h.pos, hnext⟩

omit [Hardware] [Raster] in
theorem Recorded.lt_of_createdAs (h : Recorded history s) {cls : WidgetClass}
    (hc : CreatedAs cls p history) : p < s.nextWidget := by
  rcases hc with ⟨-, rfl⟩ | ⟨s₀, parent, d, hmem, hp⟩
  · exact h.pos
  · exact h.written _ hmem p hp

omit [Hardware] [Raster] in
/-- Nothing has written the next address. -/
theorem Recorded.not_writes_nextWidget (h : Recorded history s) :
    ∀ x ∈ history, ¬ Writes s.nextWidget x := fun x hx hwrites =>
  Nat.lt_irrefl _ (h.written x hx _ hwrites)

/-- **What a run of a program keeps.** -/
theorem Recorded.program (h : Program size may history s) : Recorded history s :=
  h.invariant (fun _ ⟨_, _, h⟩ => .start h) fun _ _ _ _ h _ hrun => h.step hrun

end Programs

/-! ### A program with a frame -/

section Sample

attribute [local instance] sampleHardware sampleRaster

theorem isSome_eiWidgetCreate_label :
    (eiWidgetCreate (sampleApp ⟨640, 480⟩) .frame (some 0) none).isSome := by
  rfl

/-- An application with a frame in the root, at address 1. -/
def sampleLabel : AppState :=
  ((eiWidgetCreate (sampleApp ⟨640, 480⟩) .frame (some 0) none).get
    isSome_eiWidgetCreate_label).1

/-- The program that has created the frame. -/
def labelHistory : List (AppState × LibraryCall) :=
  [(sampleApp ⟨640, 480⟩, .create .frame 0 none)]

theorem labelHistory_program
    {may : List (AppState × LibraryCall) → AppState → LibraryCall → Prop}
    (hmay : may [] (sampleApp ⟨640, 480⟩) (.create .frame 0 none)) :
    Program ⟨640, 480⟩ may labelHistory sampleLabel := by
  refine .step (.start ⟨_, _, eiAppCreate_sampleApp ⟨640, 480⟩⟩) hmay ?_
  obtain ⟨w, hw⟩ := AppState.live_iff.mp (sampleApp_live ⟨640, 480⟩)
  have hcreate : (eiWidgetCreate (sampleApp ⟨640, 480⟩) .frame (some 0) none).map Prod.fst =
      some sampleLabel := by
    rw [← Option.some_get isSome_eiWidgetCreate_label]
    rfl
  rw [LibraryCall.run, hw]
  exact hcreate

end Sample

end GuiLibrary

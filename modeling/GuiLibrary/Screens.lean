import GuiLibrary.Additions
import GuiLibrary.Presses

/-!
# Screens

A screen is what every state of a run is, in which each operation meets its condition: the widgets
are where they should be, the root is a frame without border that covers the window, a widget that
is not mapped has an empty location, and whatever is invalidated lies in the window.

## Main definitions

* `RestsUnmapped`: what is not mapped has an empty location.
* `DisplayOp`, `DisplayOp.run`, `DisplayOp.Allowed`: the operations of a run.
* `Screen`, `ScreenStep`.

## Main results

* `LayoutInvariant.destroy`: what is left after a destruction is where it should be.
* `Screen.step`: every operation that meets its condition keeps the screen.
-/

namespace GuiLibrary

open Cells Pictures

/-! ### Empty locations -/

/-- A widget that is not mapped has an empty location, the root apart. -/
def RestsUnmapped (s : AppState) : Prop :=
  ∀ q w, s.widgets q = some w → s.rootWidget ≠ some q → w.geomParams = none →
    w.screenLocation = eiRectZero

section Rests

variable {window : Size} {s s₁ s' : AppState} {p : Ptr} {w w' : Widget}

/-- A run of the placer leaves alone what is not mapped. -/
theorem Rerun.unmapped (h : Rerun window s s' p) {q : Ptr} (hw : s'.widgets q = some w)
    (hg : w.geomParams = none) : s.widgets q = some w := by
  obtain ⟨v, -, ⟨-, rfl⟩ | ⟨o, pw, m', rects, -, -, rfl, hrelaid⟩⟩ := h
  · exact hw
  · have hw : m' q = some w := hw
    rcases hrelaid.rerun_or_same q with hsame | ⟨L, hrerun⟩
    · exact hsame.symm.trans hw
    · rw [hw, eq_comm, Option.map_eq_some_iff] at hrerun
      obtain ⟨u, hu, rfl⟩ := hrerun
      rw [Widget.geomParams_rerun] at hg
      rw [Widget.rerun_of_eq (by rw [Widget.target, hg]), hu]

/-- A mapped widget stays mapped in a run of the placer. -/
theorem Rerun.mapped (h : Rerun window s s' p) {q : Ptr} (hw : s.widgets q = some w)
    (hg : w.geomParams.isSome) : ∃ w', s'.widgets q = some w' ∧ w'.geomParams.isSome := by
  have hlive : (s'.nodes q).isSome := by
    rw [AppState.nodes_eq_of_skeleton h.skeleton_eq, AppState.nodes_of_widgets hw]
    rfl
  obtain ⟨n, hn⟩ := Option.isSome_iff_exists.mp hlive
  obtain ⟨w', hw', -⟩ := AppState.nodes_eq_some.mp hn
  refine ⟨w', hw', Option.isSome_iff_ne_none.mpr fun hnone => ?_⟩
  rw [Option.some.inj (hw.symm.trans (h.unmapped hw' hnone)), hnone] at hg
  simp at hg

namespace RestsUnmapped

theorem assigned (h : RestsUnmapped s) (ha : Assigned s s₁ p w w')
    (hg : w'.geomParams = none → w.geomParams = none) (hrun : Rerun window s₁ s' p) :
    RestsUnmapped s' := by
  intro q v hv hroot hnone
  have hv := hrun.unmapped hv hnone
  have hroot : s.rootWidget ≠ some q := by
    rw [hrun.rootWidget_eq, ha.eq] at hroot
    exact hroot
  by_cases hq : q = p
  · subst hq
    obtain rfl := Option.some.inj (ha.new.symm.trans hv)
    rw [ha.screenLocation]
    exact h q w ha.old hroot (hg hnone)
  · exact h q v ((ha.other hq).symm.trans hv) hroot hnone

theorem unmap (h : RestsUnmapped s) (hwin : s.HasWindow window)
    (hrun : eiGeometrymanagerUnmap s p = some s') : RestsUnmapped s' := by
  obtain ⟨w, hp, -⟩ := Option.bind_eq_some_iff.mp hrun
  rw [eiGeometrymanagerUnmap_eq hwin hp, Option.some.injEq] at hrun
  split_ifs at hrun
  · subst hrun
    intro q v hv hroot hnone
    by_cases hq : q = p
    · subst hq
      obtain rfl := Option.some.inj ((AppState.widgets_setWidget_self _ _ _).symm.trans hv)
      rfl
    · rw [AppState.widgets_setWidget_of_ne _ _ hq] at hv
      exact h q v hv hroot hnone
  · exact hrun ▸ h

theorem destroy (h : RestsUnmapped s) (hfits : RootFits window s)
    (hrun : eiWidgetDestroy s p = some s') : RestsUnmapped s' := by
  intro q v hv hroot hnone
  have hclear : Clears window (q + 1) s s' := eiWidgetDestroy_clears hfits hrun
  obtain ⟨u, hu, hlook⟩ := (hv ▸ hclear.look q (Nat.succ_ne_self q).symm).exists_old
  simp only [Widget.look, Prod.mk.injEq] at hlook
  have hgu : u.geomParams = none := by
    have := hlook.2.1
    rw [hnone] at this
    simpa using this.symm
  rw [hlook.2.2.1]
  exact h q u hu (hclear.rootWidget ▸ hroot) hgu

end RestsUnmapped

variable [Hardware] {c : WidgetClass} {parent wid : Ptr} {d : Option ℕ}

/-- A hidden button is mapped. -/
theorem mapped_createHiddenButton {t : Ptr} {config : ButtonArgs} {setFlags : Widget → Widget}
    {place : PlaceArgs} {callback : Callback} (hs : WellFormed s) (hwin : s.HasWindow window)
    (ht : s.Live t) (hflags : ∀ w, (setFlags w).node.links = w.node.links)
    (h : createHiddenButton s t config setFlags place callback = some s') :
    ∃ w, s'.widgets s.nextWidget = some w ∧ w.geomParams.isSome := by
  obtain ⟨s₁, s₃, s₄, -, -, -, -, hwf₃, hwin₃, h₄, hbinds⟩ :=
    exists_of_createHiddenButton hs hwin ht hflags h
  rw [eiPlace_eq] at h₄
  obtain ⟨s₅, h₅, hrun⟩ := Option.bind_eq_some_iff.mp h₄
  obtain ⟨w, ha⟩ := placeAssign_assigned h₅
  have hrerun := rerun_of_runplacer (ha.wellFormed hwf₃) (ha.hasWindow hwin₃) hrun
  obtain ⟨w', hw', hg'⟩ := hrerun.mapped ha.new rfl
  exact ⟨w', by rw [hbinds]; exact hw', hg'⟩

/-- **The records that are created**: the new widget has its defaults, and the hidden buttons of a
toplevel are mapped. -/
theorem created_records (hs : WellFormed s) (hwin : s.HasWindow window) (hparent : s.Live parent)
    (hrun : eiWidgetCreate s c (some parent) d = some (s', wid)) :
    (∃ w, s'.widgets s.nextWidget = some w ∧
      w.body = (newWidget s.widId c (some parent) d).body) ∧
    (c = .toplevel → ∀ q, q = s.nextWidget + 1 ∨ q = s.nextWidget + 2 →
      ∃ w, s'.widgets q = some w ∧ w.geomParams.isSome) := by
  simp only [eiWidgetCreate, eiWidgetCreateWith, Option.elim_some, Option.bind_eq_bind,
    Option.bind_eq_some_iff, Option.some.injEq, Prod.mk.injEq] at hrun
  obtain ⟨s₁, h₁, s₂, h₂, rfl, -⟩ := hrun
  obtain ⟨hgrown, hnext, ⟨n, hn, -⟩, hold, ⟨w, hw, hbody⟩, -⟩ := insertChild_grown hs hparent h₁
  cases c with
  | frame | button =>
    obtain rfl := Option.some.inj h₂
    exact ⟨⟨w, hw, hbody⟩, fun hne => by simp at hne⟩
  | toplevel =>
    have hwin₁ := hold.hasWindow hs hgrown.rootWidget hwin
    simp only [setdefaultsfunc, setdefaultstoplevel, Option.bind_eq_bind,
      Option.bind_eq_some_iff] at h₂
    obtain ⟨s₃, h₃, s₄, h₄, h₅⟩ := h₂
    obtain ⟨hgrown₃, hnext₃, -, hold₃, -⟩ := createHiddenButton_grown hgrown.wellFormed
      ⟨n, hn⟩ rfl node_setResizeButton h₃
    have hwin₃ := hold₃.hasWindow hgrown.wellFormed hgrown₃.rootWidget hwin₁
    have honly : OnlyBinds s₃ s₄ := eiBind_onlyBinds h₄
    have hwf₄ : WellFormed s₄ := (hgrown₃.onlyBinds honly).wellFormed
    have hwin₄ : s₄.HasWindow window := by rw [honly]; exact hwin₃
    obtain ⟨n₃, hn₃, -⟩ := hgrown₃.kept _ n hn
    have hlive₄ : s₄.Live s.nextWidget := ⟨n₃, by rw [honly]; exact hn₃⟩
    have hnext₄ : s₄.nextWidget = s.nextWidget + 2 := by
      rw [show s₄.nextWidget = s₃.nextWidget by rw [honly], hnext₃, hnext]
    obtain ⟨-, -, -, hold₅, -⟩ := createHiddenButton_grown hwf₄ hlive₄ rfl node_setQuitButton h₅
    obtain ⟨b, hb, hgb⟩ := mapped_createHiddenButton hgrown.wellFormed hwin₁ ⟨n, hn⟩
      links_setResizeButton h₃
    obtain ⟨b', hb', hgb'⟩ := mapped_createHiddenButton hwf₄ hwin₄ hlive₄ links_setQuitButton h₅
    -- The records that are there before the last button keep their bodies.
    have hlater : ∀ q v, q < s.nextWidget + 2 → s₃.widgets q = some v →
        ∃ v', s₂.widgets q = some v' ∧ v'.body = v.body := by
      intro q v hq hv
      have hq₄ : s₄.widgets q = some v := by rw [honly]; exact hv
      have hbody := hold₅ q (hnext₄ ▸ hq)
      rwa [hq₄, Option.map_some, Option.map_eq_some_iff] at hbody
    refine ⟨?_, fun _ q hq => ?_⟩
    · have hbody₃ := hold₃ s.nextWidget (hnext ▸ Nat.lt_succ_self _)
      rw [hw, Option.map_some, Option.map_eq_some_iff] at hbody₃
      obtain ⟨v, hv, hbv⟩ := hbody₃
      obtain ⟨v', hv', hbv'⟩ := hlater _ v (Nat.lt_add_of_pos_right (by decide)) hv
      exact ⟨v', hv', hbv'.trans (hbv.trans hbody)⟩
    · rcases hq with rfl | rfl
      · obtain ⟨v', hv', hbv'⟩ := hlater _ b (Nat.lt_succ_self _) (hnext ▸ hb)
        exact ⟨v', hv', by rwa [Widget.geomParams_of_body hbv']⟩
      · exact ⟨b', hnext₄ ▸ hb', hgb'⟩

/-- What is created is mapped or has an empty location. -/
theorem RestsUnmapped.create (h : RestsUnmapped s) (hs : WellFormed s)
    (hwin : s.HasWindow window) (hparent : s.Live parent)
    (hrun : eiWidgetCreate s c (some parent) d = some (s', wid)) : RestsUnmapped s' := by
  obtain ⟨hc, -⟩ := eiWidgetCreate_created hs hparent hrun
  obtain ⟨⟨u, hu, hbody⟩, hhidden⟩ := created_records hs hwin hparent hrun
  have hzero : u.screenLocation = eiRectZero := Widget.screenLocation_of_body hbody
  intro q w hw hroot hnone
  by_cases hlt : q < s.nextWidget
  · obtain ⟨v, hv, hbody⟩ := hc.bodies.exists_old hlt hw
    rw [Widget.screenLocation_of_body hbody]
    exact h q v hv (hc.grown.rootWidget ▸ hroot) (Widget.geomParams_of_body hbody ▸ hnone)
  · by_cases hq : q = s.nextWidget
    · subst hq
      rw [← Option.some.inj (hu.symm.trans hw), hzero]
    · -- A hidden button is mapped.
      have hbound := hc.grown.wellFormed.lt_nextWidget (AppState.live_iff.mpr ⟨w, hw⟩)
      rw [hc.nextWidget] at hbound
      obtain ⟨k, rfl⟩ := Nat.exists_eq_add_of_lt
        (Nat.lt_of_le_of_ne (Nat.le_of_not_lt hlt) (Ne.symm hq))
      have hlast : c = .toplevel ∧ (s.nextWidget + k + 1 = s.nextWidget + 1 ∨
          s.nextWidget + k + 1 = s.nextWidget + 2) := by
        split_ifs at hbound with hcls
        · have hk : k + 1 < 3 := Nat.lt_of_add_lt_add_left hbound
          have hcases : k = 0 ∨ k = 1 := by omega
          exact ⟨hcls, hcases.imp (fun h => by rw [h]) fun h => by rw [h]⟩
        · have hk : k + 1 < 1 := Nat.lt_of_add_lt_add_left hbound
          omega
      obtain ⟨v, hv, hg⟩ := hhidden hlast.1 _ hlast.2
      rw [← Option.some.inj (hw.symm.trans hv), hnone] at hg
      simp at hg

end Rests

/-! ### What a destruction leaves -/

section Destroy

variable {window : Size} {s s' : AppState} {p : Ptr}

/-- A destruction frees widgets, and keeps the others but for their links. -/
theorem bodies_eiWidgetDestroy (h : eiWidgetDestroy s p = some s') {q : Ptr} (hq : q ≠ p) :
    FreedOrKeeps Widget.body (s.widgets q) (s'.widgets q) := by
  refine eiWidgetDestroy_keeps
    (R := fun s s' => FreedOrKeeps Widget.body (s.widgets q) (s'.widgets q))
    (fun s => .of_eq rfl) .trans (fun s e => .of_eq rfl) (fun hmodify hbody => ?_)
    (fun hrelease => ?_) (fun hlocation => ?_) (fun hbinds => ?_) h
  · rename_i s₁ s₂ o f
    obtain ⟨w, hw, rfl⟩ := Option.map_eq_some_iff.mp hmodify
    by_cases hqo : q = o
    · subst hqo
      refine Or.inr ?_
      rw [AppState.widgets_setWidget_self, hw, Option.map_some, Option.map_some, hbody w]
    · exact .of_eq (AppState.widgets_setWidget_of_ne _ _ hqo)
  · rename_i s₁ s₂ o
    obtain ⟨s₃, h₃, rfl⟩ := Option.map_eq_some_iff.mp hrelease
    by_cases hqo : q = o
    · subst hqo
      exact Or.inl (Function.update_self ..)
    · refine .of_eq ((Function.update_of_ne hqo ..).trans ?_)
      obtain ⟨w, hw, h₃⟩ := Option.bind_eq_some_iff.mp h₃
      split at h₃
      · rw [← Option.some.inj h₃]
        rfl
      · simp only [Option.bind_eq_bind, Option.bind_eq_some_iff, Prod.exists,
          Option.some.injEq] at h₃
        obtain ⟨s₄, rect, h₄, rfl⟩ := h₃
        refine (AppState.widgets_setWidget_of_ne _ _ hqo).trans ?_
        rw [(eiAppInvalidateRect_frame h₄).1, AppState.widgets_setWidget_of_ne _ _ hqo]
  · simp only [invalidateLocation, Option.bind_eq_bind, Option.bind_eq_some_iff, Prod.exists,
      Option.some.injEq] at hlocation
    obtain ⟨w, hw, s₃, rect, h₃, rfl⟩ := hlocation
    refine .of_eq ((AppState.widgets_setWidget_of_ne _ _ hq).trans ?_)
    rw [(eiAppInvalidateRect_frame h₃).1]
  · have honly := destroyEventBindedToWidget_onlyBinds hbinds
    exact .of_eq (by rw [honly])

/-- What is left after a destruction is where it should be. -/
theorem LayoutInvariant.destroy (h : LayoutInvariant window s) {bs : List (Ptr × Binding)}
    (hl : HasBindings s bs) (hroot : s.rootWidget ≠ some p)
    (hrun : eiWidgetDestroy s p = some s') : LayoutInvariant window s' := by
  obtain ⟨-, hd, -⟩ := eiWidgetDestroy_of_eq_some h.wellFormed hl hrun
  have hold : ∀ {q w'}, s'.widgets q = some w' → ∃ w, s.widgets q = some w ∧ w'.body = w.body := by
    intro q w' hw'
    have hqp : q ≠ p := by
      rintro rfl
      have hdead := hd.pruned.dead q (Or.inl rfl)
      rw [AppState.nodes_of_widgets hw'] at hdead
      simp at hdead
    exact (hw' ▸ bodies_eiWidgetDestroy hrun hqp).exists_old
  refine ⟨hd.wellFormed h.wellFormed, ?_, fun r w' hr hw' => ?_,
    fun q w' o pw' hw' ho hpo hmap => ?_⟩
  · obtain ⟨r, w, hr, hw, hsize⟩ := h.hasWindow
    obtain ⟨n, hn, -⟩ := hd.pruned.kept r w.node (AppState.nodes_of_widgets hw) fun hsub =>
      hsub.elim (fun hrp => hroot (hrp ▸ hr)) (root_top h.wellFormed hr hw p)
    obtain ⟨w', hw', -⟩ := AppState.nodes_eq_some.mp hn
    obtain ⟨v, hv, hbody⟩ := hold hw'
    obtain rfl := Option.some.inj (hw.symm.trans hv)
    exact ⟨r, w', hd.rootWidget.trans hr, hw', by rw [Widget.screenLocation_of_body hbody, hsize]⟩
  · obtain ⟨w, hw, hbody⟩ := hold hw'
    rw [Widget.geomParams_of_body hbody, show w'.contentRect = w.contentRect from
      show w'.body.contentRect = w.body.contentRect by rw [hbody]]
    exact h.root r w (hd.rootWidget ▸ hr) hw
  · obtain ⟨w, hw, hbody⟩ := hold hw'
    obtain ⟨pw, hpw, hpbody⟩ := hold hpo
    rw [Widget.target_of_body hbody, Widget.content_of_body hpbody,
      Widget.screenLocation_of_body hbody]
    exact h.located q w o pw hw (Widget.parent_of_body hbody ▸ ho) hpw
      (hmap.imp (fun hr => hd.rootWidget ▸ hr)
        fun hsome => Widget.geomParams_of_body hpbody ▸ hsome)

end Destroy

/-! ### Operations -/

/-- What happens between two redraws, and a redraw. -/
inductive DisplayOp where
  | widget (op : DamageOp)
  | create (c : WidgetClass) (parent : Ptr) (destructor : Option ℕ)
  | destroy (p : Ptr)
  | invalidate (rect : Rect)
  | buttonDown (event : Event)
  | buttonUp (event : Event)
  | buttonMove (event : Event)
  | redraw (fuel : ℕ)

/-- The root stays a frame without border and with an opaque colour. -/
def KeepsPlainRoot (s : AppState) : DamageOp → Prop
  | .frameConfigure p args => s.rootWidget = some p →
      args.borderWidth.getD 0 = 0 ∧ ∀ color, args.color = some color → color.alpha = 255
  | _ => True

/-- The condition on the placer: what it moves stays in the window, and what it does not move has a
content area that is left as it is. -/
def DamageOp.Keeps [Hardware] (window : Size) (s : AppState) : DamageOp → Prop
  | place p args => ∀ s₁, placeAssign s p args = some s₁ →
      PlacerKeeps window s₁ p (PlaceStable s p)
  | frameConfigure p args => ∀ s₁, frameAssign s p args = some s₁ →
      PlacerKeeps window s₁ p (BorderStable s p args.borderWidth)
  | buttonConfigure p args => ∀ s₁, buttonAssign s p args = some s₁ →
      PlacerKeeps window s₁ p (BorderStable s p args.borderWidth)
  | unmap _ => True
  | runplacer _ | toplevelConfigure _ _ | destroy _ => False

/-- A configuration without a border and with an opaque colour keeps a backdrop. -/
theorem FrameAttrs.Backdrop.configureLabel {a a' : FrameAttrs} {args : LabelArgs} (h : a.Backdrop)
    (hborder : args.borderWidth.getD 0 = 0)
    (hcolor : ∀ color, args.color = some color → color.alpha = 255)
    (ha : GuiLibrary.configureLabel a args = some a') : a'.Backdrop := by
  rw [GuiLibrary.configureLabel] at ha
  obtain ⟨b, hb, ha⟩ := Option.bind_eq_some_iff.mp ha
  rw [← Option.some.inj ha, configureTextImg_writes hb]
  constructor
  · show args.borderWidth.getD a.borderWidth = 0
    cases hwidth : args.borderWidth with
    | none => exact h.borderWidth
    | some border => rwa [hwidth] at hborder
  · show (args.color.getD a.color).alpha = 255
    cases hnew : args.color with
    | none => exact h.alpha
    | some color => exact hcolor color hnew

theorem DamageOp.plain_of_keeps [Hardware] {window : Size} {s : AppState} {op : DamageOp}
    (h : op.Keeps window s) : op.Plain := by
  cases op with
  | place | frameConfigure | buttonConfigure | unmap => trivial
  | runplacer | toplevelConfigure | destroy => exact h

theorem exists_of_map_fst {α β : Type*} {result : Option (α × β)} {a : α}
    (h : result.map Prod.fst = some a) : ∃ b, result = some (a, b) := by
  obtain ⟨⟨a', b⟩, heq, rfl⟩ := Option.map_eq_some_iff.mp h
  exact ⟨b, heq⟩

section Classes

variable [Hardware] [Raster] [TextRendering]

namespace DisplayOp

/-- What the operation does to the state. -/
def run (s : AppState) : DisplayOp → Option AppState
  | widget op => op.run s
  | create c parent destructor => (eiWidgetCreate s c (some parent) destructor).map Prod.fst
  | destroy p => eiWidgetDestroy s p
  | invalidate rect => (eiAppInvalidateRect s rect).map Prod.fst
  | buttonDown event => (eiHandleButtonDown s event).map Prod.fst
  | buttonUp event => (eiHandleButtonUp noCallback s event).map Prod.fst
  | buttonMove event => (eiHandleButtonMove s event).map Prod.fst
  | redraw fuel => GuiLibrary.redraw drawfuncOf fuel s

/-- The condition on an operation: what the placer moves and what the mouse shows pressed or not
lies in the window, a parent is alive, and the root is kept. -/
def Allowed (window : Size) (s : AppState) : DisplayOp → Prop
  | widget op => op.Keeps window s ∧ KeepsPlainRoot s op
  | create _ parent _ => s.Live parent
  | destroy p => s.rootWidget ≠ some p
  | invalidate _ => True
  | buttonDown event => PressKeeps window s (GoesDown s event)
  | buttonUp event => PressKeeps window s (GoesUp s event)
  | buttonMove event => PressKeeps window s (TurnsRelief s event)
  | redraw fuel => s.invalidatedRects.length < fuel

end DisplayOp

/-- The state `s'` comes from `s` by an operation that meets its condition. -/
def ScreenStep (window : Size) (s s' : AppState) : Prop :=
  ∃ op : DisplayOp, op.Allowed window s ∧ op.run s = some s'

/-! ### Screens -/

/-- **What every state of a run is**: the mapped widgets are where they should be, the root is a
frame without border that covers the window in opaque colours, both surfaces are as large as the
window, and the invalidated rectangles lie in it. -/
structure Screen (window : Size) (s : AppState) : Prop where
  layout : LayoutInvariant window s
  bindings : ∃ bs, HasBindings s bs
  root : ∃ root r a, s.rootWidget = some root ∧ s.widgets root = some r ∧
    r.screenLocation = Rect.ofSize window ∧ r.attrs = .frame a ∧ a.Backdrop
  rootPick : ∀ root r, s.rootWidget = some root → s.widgets root = some r → r.pickColor.alpha = 255
  unmapped : RestsUnmapped s
  pressed : ∀ q, s.buttonPressed = some q → s.rootWidget ≠ some q
  sizes : ∀ π, (s.surfaceOf π).size = window
  rects : RectsFit window s

namespace Screen

variable {window : Size} {s s₁ s' : AppState} {p : Ptr}

omit [Hardware] [Raster] [TextRendering] in
theorem rootFits (h : Screen window s) : RootFits window s := by
  obtain ⟨root, r, a, hroot, hr, hloc, -⟩ := h.root
  intro r' w hr' hw
  obtain rfl := Option.some.inj (hroot.symm.trans hr')
  rw [← Option.some.inj (hr.symm.trans hw), hloc]

omit [Hardware] [Raster] [TextRendering] in
theorem consistent (h : Screen window s) : ConsistentGeometry window s :=
  ⟨h.layout.wellFormed, h.layout.hasWindow, h.rootFits, h.unmapped, h.bindings⟩

omit [Hardware] [Raster] [TextRendering] in
/-- The window with its widgets. -/
theorem exists_stage (h : Screen window s) (hsides : 0 < (Rect.ofSize window).halfSide) :
    ∃ root r f, Stage window s root r f := by
  obtain ⟨root, r, a, hroot, hr, hloc, ha, hb⟩ := h.root
  obtain ⟨f, hf⟩ := h.layout.wellFormed.exists_forest hr
  have hcontent : r.content = Rect.ofSize window := by
    rw [Widget.content, (h.layout.root root r hroot hr).2, hloc]
  exact ⟨root, r, f, h.layout.wellFormed, h.layout.located.upToDate, hroot, hr, hf, ⟨a, ha, hb⟩,
    h.rootPick root r hroot hr, hloc, hcontent, h.sizes, hsides⟩

omit [Hardware] [Raster] [TextRendering] in
/-- The root keeps its pick colour. -/
theorem rootPick_of (h : Screen window s) (hroot : s'.rootWidget = s.rootWidget)
    (hcolor : ∀ q, s.rootWidget = some q →
      FreedOrKeeps Widget.pickColor (s.widgets q) (s'.widgets q)) :
    ∀ root r, s'.rootWidget = some root → s'.widgets root = some r → r.pickColor.alpha = 255 := by
  intro root r hr hw
  rw [hroot] at hr
  obtain ⟨w, hold, heq⟩ := (hw ▸ hcolor root hr).exists_old
  rw [heq]
  exact h.rootPick root w hr hold

omit [Hardware] [Raster] [TextRendering] in
theorem pickColor_of_bodies {w w' : Option Widget} (h : FreedOrKeeps Widget.body w w') :
    FreedOrKeeps Widget.pickColor w w' :=
  h.imp_right fun hbody => by
    have hpick := congrArg (Option.map Widget.pickColor) hbody
    rwa [Option.map_map, Option.map_map] at hpick

omit [Hardware] [Raster] [TextRendering] in
/-- A step that keeps the screen, its tree and its root keeps what does not depend on geometry. -/
theorem of_update (h : Screen window s) (hlayout : LayoutInvariant window s')
    (hupdate : Update window s s') (hunmapped : RestsUnmapped s')
    (hroot : ∀ r w, s.rootWidget = some r → s.widgets r = some w → ∃ w' a, s'.widgets r = some w' ∧
      w'.screenLocation = w.screenLocation ∧ w'.attrs = .frame a ∧ a.Backdrop) :
    Screen window s' := by
  obtain ⟨bs, hl⟩ := h.bindings
  obtain ⟨root, r, a, hr, hw, hloc, -⟩ := h.root
  obtain ⟨r', a', hw', hloc', ha', hb'⟩ := hroot root r hr hw
  exact ⟨hlayout, ⟨bs, hupdate.tree.hasBindings hl⟩,
    ⟨root, r', a', hupdate.screen.rootWidget.trans hr,
      hw', hloc'.trans hloc, ha', hb'⟩,
    h.rootPick_of hupdate.screen.rootWidget fun q _ => Or.inr (hupdate.pickColor q), hunmapped,
    fun q hq => by
      rw [hupdate.screen.rootWidget]
      exact h.pressed q (hupdate.screen.buttonPressed ▸ hq),
    fun π => by rw [hupdate.screen.surfaces, h.sizes], hupdate.rects h.rects⟩

omit [Hardware] [Raster] [TextRendering] in
/-- The root after a record is assigned and the placer has run. -/
theorem root_of_relaid (h : Screen window s) {w w' : Widget} (ha : Assigned s s₁ p w w')
    (hrun : Rerun window s₁ s' p)
    (hplain : s.rootWidget = some p → ∃ a, w'.attrs = .frame a ∧ a.Backdrop) :
    ∀ r v, s.rootWidget = some r → s.widgets r = some v → ∃ v' a, s'.widgets r = some v' ∧
      v'.screenLocation = v.screenLocation ∧ v'.attrs = .frame a ∧ a.Backdrop := by
  intro r v hr hv
  have hr₁ : s₁.rootWidget = some r := by
    rw [ha.eq]
    exact hr
  rw [hrun.root_eq (ha.wellFormed h.layout.wellFormed) hr₁]
  by_cases hrp : r = p
  · subst hrp
    obtain rfl := Option.some.inj (ha.old.symm.trans hv)
    obtain ⟨a, hattrs, hb⟩ := hplain hr
    exact ⟨w', a, ha.new, ha.screenLocation, hattrs, hb⟩
  · obtain ⟨root, r', a, hroot, hr', -, hattrs, hb⟩ := h.root
    obtain rfl := Option.some.inj (hr.symm.trans hroot)
    obtain rfl := Option.some.inj (hv.symm.trans hr')
    exact ⟨v, a, (ha.other hrp).trans hv, rfl, hattrs, hb⟩

theorem place (h : Screen window s) {args : PlaceArgs}
    (hkeeps : (DamageOp.place p args).Keeps window s) (hrun : eiPlace s p args = some s') :
    Screen window s' := by
  have hs := h.layout.wellFormed
  have hwin := h.layout.hasWindow
  have hlayout := h.layout.step drawfuncOf_drawsOnly (.place hkeeps hrun)
  have hupdate := Update.eiPlace hs hwin hrun
  rw [eiPlace_eq] at hrun
  obtain ⟨s₁, h₁, hrun⟩ := Option.bind_eq_some_iff.mp hrun
  obtain ⟨w, ha⟩ := placeAssign_assigned h₁
  have hs₁ := ha.wellFormed hs
  have hrerun := rerun_of_runplacer hs₁ (ha.hasWindow hwin) hrun
  refine h.of_update hlayout hupdate (h.unmapped.assigned ha
    (fun hg => absurd hg (by simp [Widget.setGeomParams])) hrerun)
    (h.root_of_relaid ha hrerun fun hr => ?_)
  -- The root is not placed.
  obtain ⟨o, -, -, -, -, ho, -⟩ := runplacer_of_eq_some hs₁ ha.new rfl hrun
  exact absurd hr (hs.rootWidget_ne ha.old ho)

theorem frameConfigure (h : Screen window s) {args : LabelArgs}
    (hkeeps : (DamageOp.frameConfigure p args).Keeps window s)
    (hplain : KeepsPlainRoot s (.frameConfigure p args))
    (hrun : eiFrameConfigure s p args = some s') : Screen window s' := by
  have hs := h.layout.wellFormed
  have hwin := h.layout.hasWindow
  have hlayout := h.layout.step drawfuncOf_drawsOnly (.frameConfigure hkeeps hrun)
  have hupdate := Update.eiFrameConfigure hs hwin hrun
  rw [eiFrameConfigure_eq] at hrun
  obtain ⟨s₁, h₁, hrun⟩ := Option.bind_eq_some_iff.mp hrun
  obtain ⟨w, a, a', hattrs, ha', ha⟩ := frameAssign_assigned h₁
  have hrerun := rerun_of_refresh (ha.wellFormed hs) (ha.hasWindow hwin) hrun
  refine h.of_update hlayout hupdate (h.unmapped.assigned ha id hrerun)
    (h.root_of_relaid ha hrerun fun hr => ⟨a', rfl, ?_⟩)
  obtain ⟨root, r, b, hroot, hr', -, hb, hbackdrop⟩ := h.root
  obtain rfl := Option.some.inj (hr.symm.trans hroot)
  rw [← Option.some.inj (ha.old.symm.trans hr'), hattrs, Attrs.frame.injEq] at hb
  subst hb
  exact hbackdrop.configureLabel (hplain hr).1 (hplain hr).2 ha'

theorem buttonConfigure (h : Screen window s) {args : ButtonArgs}
    (hkeeps : (DamageOp.buttonConfigure p args).Keeps window s)
    (hrun : eiButtonConfigure s p args = some s') : Screen window s' := by
  have hs := h.layout.wellFormed
  have hwin := h.layout.hasWindow
  have hlayout := h.layout.step drawfuncOf_drawsOnly (.buttonConfigure hkeeps hrun)
  have hupdate := Update.eiButtonConfigure hs hwin hrun
  rw [eiButtonConfigure_eq] at hrun
  obtain ⟨s₁, h₁, hrun⟩ := Option.bind_eq_some_iff.mp hrun
  obtain ⟨w, a, label, hattrs, -, ha⟩ := buttonAssign_assigned h₁
  have hrerun := rerun_of_refresh (ha.wellFormed hs) (ha.hasWindow hwin) hrun
  refine h.of_update hlayout hupdate (h.unmapped.assigned ha id hrerun)
    (h.root_of_relaid ha hrerun fun hr => ?_)
  -- The root is no button.
  obtain ⟨root, r, b, hroot, hr', -, hb, -⟩ := h.root
  obtain rfl := Option.some.inj (hr.symm.trans hroot)
  rw [← Option.some.inj (ha.old.symm.trans hr'), hattrs] at hb
  simp at hb

omit [Hardware] [Raster] [TextRendering] in
theorem unmap (h : Screen window s) (hrun : eiGeometrymanagerUnmap s p = some s') :
    Screen window s' := by
  have hwin := h.layout.hasWindow
  have hlayout := h.layout.unmap hrun
  have hupdate := Update.eiGeometrymanagerUnmap hwin hrun
  refine h.of_update hlayout hupdate (h.unmapped.unmap hwin hrun) fun r w hr hw => ?_
  obtain ⟨root, r', a, hroot, hr', -, hattrs, hb⟩ := h.root
  obtain rfl := Option.some.inj (hr.symm.trans hroot)
  obtain rfl := Option.some.inj (hw.symm.trans hr')
  obtain ⟨v, hp, -⟩ := Option.bind_eq_some_iff.mp hrun
  rw [eiGeometrymanagerUnmap_eq hwin hp, Option.some.injEq] at hrun
  -- The root is not managed, so it is another widget that is unmapped.
  have hsame : s'.widgets r = s.widgets r := by
    subst hrun
    split_ifs with hg
    · refine AppState.widgets_setWidget_of_ne _ _ fun hrp => ?_
      subst hrp
      rw [(h.layout.root r v hr hp).1] at hg
      simp at hg
    · rfl
  exact ⟨w, a, hsame.trans hw, rfl, hattrs, hb⟩

/-- The operations on a widget. -/
theorem widget (h : Screen window s) {op : DamageOp} (hkeeps : op.Keeps window s)
    (hplain : KeepsPlainRoot s op) (hrun : op.run s = some s') : Screen window s' := by
  cases op with
  | place => exact h.place hkeeps hrun
  | frameConfigure => exact h.frameConfigure hkeeps hplain hrun
  | buttonConfigure => exact h.buttonConfigure hkeeps hrun
  | unmap => exact h.unmap hrun
  | runplacer | toplevelConfigure | destroy => exact absurd hkeeps id

omit [Raster] [TextRendering] in
theorem create {c : WidgetClass} {parent wid : Ptr} {d : Option ℕ} (h : Screen window s)
    (hparent : s.Live parent) (hrun : eiWidgetCreate s c (some parent) d = some (s', wid)) :
    Screen window s' := by
  have hs := h.layout.wellFormed
  have hwin := h.layout.hasWindow
  obtain ⟨hc, -⟩ := eiWidgetCreate_created hs hparent hrun
  have hadd := additions_create hs hwin hparent hrun
  obtain ⟨bs, hl⟩ := h.bindings
  obtain ⟨bs', hl', -⟩ := hc.bindings bs hl
  refine ⟨h.layout.create hc, ⟨_, hl'⟩, ?_,
    h.rootPick_of hc.grown.rootWidget fun q hq =>
      pickColor_of_bodies (Or.inr (hc.bodies q (hs.rootWidget_lt q hq))),
    h.unmapped.create hs hwin hparent hrun, fun q hq => ?_,
    fun π => by rw [hadd.screen.surfaces, h.sizes], hadd.rects h.rects⟩
  · obtain ⟨root, r, a, hroot, hr, hloc, ha, hb⟩ := h.root
    have hbody := hc.bodies root (hs.rootWidget_lt root hroot)
    rw [hr, Option.map_some, Option.map_eq_some_iff] at hbody
    obtain ⟨r', hr', hbody⟩ := hbody
    exact ⟨root, r', a, hc.grown.rootWidget.trans hroot, hr',
      (Widget.screenLocation_of_body hbody).trans hloc, (Widget.attrs_of_body hbody).trans ha, hb⟩
  · rw [hc.grown.rootWidget]
    exact h.pressed q (hc.grown.buttonPressed ▸ hq)

omit [Hardware] [Raster] [TextRendering] in
theorem destroy (h : Screen window s) (hroot : s.rootWidget ≠ some p)
    (hrun : eiWidgetDestroy s p = some s') : Screen window s' := by
  have hs := h.layout.wellFormed
  obtain ⟨bs, hl⟩ := h.bindings
  obtain ⟨-, hd, hl'⟩ := eiWidgetDestroy_of_eq_some hs hl hrun
  have hscreen := KeepsScreen.onlyCells hd.onlyCells
  refine ⟨h.layout.destroy hl hroot hrun, ⟨_, hl'⟩, ?_,
    h.rootPick_of hd.rootWidget fun q hq =>
      pickColor_of_bodies (bodies_eiWidgetDestroy hrun fun hqp => hroot (hqp ▸ hq)),
    h.unmapped.destroy h.rootFits hrun, fun q hq => ?_,
    fun π => by rw [hscreen.surfaces, h.sizes], h.rects.destroy h.rootFits hrun⟩
  · obtain ⟨root, r, a, hroot', hr, hloc, ha, hb⟩ := h.root
    have hrp : root ≠ p := fun hrp => hroot (hrp ▸ hroot')
    obtain ⟨n, hn, -⟩ := hd.pruned.kept root r.node (AppState.nodes_of_widgets hr) fun hsub =>
      hsub.elim hrp (root_top hs hroot' hr p)
    obtain ⟨r', hr', -⟩ := AppState.nodes_eq_some.mp hn
    obtain ⟨v, hv, hbody⟩ := (hr' ▸ bodies_eiWidgetDestroy hrun hrp).exists_old
    obtain rfl := Option.some.inj (hr.symm.trans hv)
    exact ⟨root, r', a, hd.rootWidget.trans hroot', hr',
      (Widget.screenLocation_of_body hbody).trans hloc, (Widget.attrs_of_body hbody).trans ha, hb⟩
  · rw [hd.rootWidget]
    exact h.pressed q (hd.buttonPressed ▸ hq)

omit [Hardware] [Raster] [TextRendering] in
theorem addDamage (h : Screen window s) (rect : Rect) :
    Screen window (s.addDamage window rect) := by
  obtain ⟨bs, hl⟩ := h.bindings
  exact ⟨h.layout.congr (h.layout.wellFormed.congr rfl) rfl fun _ => rfl,
    ⟨bs, hl.of_binds rfl rfl rfl⟩, h.root, h.rootPick, h.unmapped, h.pressed, h.sizes,
    h.rects.addDamage rect⟩

omit [Hardware] [Raster] [TextRendering] in
/-- Other rectangles in the window are invalidated. -/
theorem withDamage (h : Screen window s) {rects : List Rect}
    (hrects : ∀ C ∈ rects, C.InWindow window) :
    Screen window { s with invalidatedRects := rects } := by
  obtain ⟨bs, hl⟩ := h.bindings
  exact ⟨h.layout.congr (h.layout.wellFormed.of_links (fun _ => rfl) rfl rfl) rfl fun _ => rfl,
    ⟨bs, hl.of_binds rfl rfl rfl⟩, h.root, h.rootPick, h.unmapped, h.pressed,
    fun π => by rw [← h.sizes π]; cases π <;> rfl, hrects⟩

omit [Hardware] [Raster] [TextRendering] in
theorem clearDamage (h : Screen window s) : Screen window { s with invalidatedRects := [] } :=
  h.withDamage (by simp)

omit [Hardware] [Raster] [TextRendering] in
/-- The handlers of the mouse. -/
theorem press (h : Screen window s) {event : Event} {shown : Ptr → Prop}
    (hkeeps : PressKeeps window s shown) (hlayout : LayoutInvariant window s')
    (hstep : PressStep s event shown s') : Screen window s' := by
  obtain ⟨bs, hl⟩ := h.bindings
  rcases hstep.shows with ⟨pressed, rfl, hcase⟩ | ⟨p, pressed, relief, b, hshow, hshown, -, hset, -⟩
  · refine ⟨hlayout, ⟨bs, hl.of_binds rfl rfl rfl⟩, h.root, h.rootPick, h.unmapped,
      fun q hq => ?_, h.sizes, h.rects⟩
    rcases hcase with rfl | ⟨rfl, -⟩
    · exact h.pressed q hq
    · simp at hq
  · obtain ⟨w, a, hw, ha, rfl⟩ := showButton_spec h.layout.hasWindow
      (fun w a => hkeeps p w a hshown) rfl hshow
    have hroot : s.rootWidget ≠ some p := fun hr => by
      obtain ⟨root, r, a', hroot, hr', -, ha', -⟩ := h.root
      obtain rfl := Option.some.inj (hr.symm.trans hroot)
      rw [← Option.some.inj (hw.symm.trans hr'), ha] at ha'
      simp at ha'
    refine ⟨hlayout, ⟨bs, hl.of_binds rfl rfl rfl⟩, ?_, h.rootPick_of rfl fun q hq => ?_,
      fun q v hv hne hg => ?_, fun q hq => ?_, h.sizes, h.rects.addDamage w.screenLocation⟩
    · obtain ⟨root, r, a', hroot', hr', hloc, ha', hb⟩ := h.root
      have hrp : root ≠ p := fun hrp => hroot (hrp ▸ hroot')
      exact ⟨root, r, a', hroot', (Function.update_of_ne hrp ..).trans hr', hloc, ha', hb⟩
    · have hqp : q ≠ p := fun hqp => hroot (hqp ▸ hq)
      exact .of_eq (Function.update_of_ne hqp ..)
    · have hv : Function.update s.widgets p _ q = some v := hv
      by_cases hq : q = p
      · subst hq
        rw [Function.update_self, Option.some.injEq] at hv
        subst hv
        exact h.unmapped q w hw hne hg
      · rw [Function.update_of_ne hq] at hv
        exact h.unmapped q v hv hne hg
    · rcases hset with rfl | rfl
      · simp at hq
      · obtain rfl := Option.some.inj hq
        exact hroot

omit [Hardware] [Raster] [TextRendering] in
/-- Drawing. -/
theorem onlySurfaces (h : Screen window s) (ho : OnlySurfaces s s')
    (hsizes : ∀ π, (s'.surfaceOf π).size = (s.surfaceOf π).size) : Screen window s' := by
  obtain ⟨bs, hl⟩ := h.bindings
  have hlayout := h.layout.onlySurfaces ho
  rw [ho] at hlayout ⊢
  refine ⟨hlayout, ⟨bs, hl.of_binds rfl rfl rfl⟩, h.root, h.rootPick, h.unmapped, h.pressed,
    fun π => ?_, h.rects⟩
  rw [← h.sizes π, ← hsizes π]
  cases π <;> rfl

end Screen

/-! ### Drawing keeps the sizes -/

/-- Both surfaces keep their sizes. -/
def SameSizes (s s' : AppState) : Prop := ∀ π, (s'.surfaceOf π).size = (s.surfaceOf π).size

section SameSizes

variable {window : Size} {s s₁ s' : AppState} {p : Ptr}

omit [Hardware] [Raster] [TextRendering] in
theorem SameSizes.refl (s : AppState) : SameSizes s s := fun _ => rfl

omit [Hardware] [Raster] [TextRendering] in
theorem SameSizes.trans (h₁ : SameSizes s s₁) (h₂ : SameSizes s₁ s') : SameSizes s s' :=
  fun π => (h₂ π).trans (h₁ π)

omit [Hardware] [Raster] [TextRendering] in
theorem SameSizes.runplacer (h : GuiLibrary.runplacer s p = some s') : SameSizes s s' := by
  refine runplacer_keeps (R := SameSizes) .refl .trans (fun hinvalidate => ?_) (fun _ _ => ?_) h
  · obtain ⟨window, hwin⟩ := hasWindow_of_eiAppInvalidateRect hinvalidate
    rw [eiAppInvalidateRect_eq hwin, Option.some.injEq, Prod.mk.injEq] at hinvalidate
    rw [← hinvalidate.1]
    exact fun π => by cases π <;> rfl
  · exact fun π => by cases π <;> rfl

theorem SameSizes.drawfuncOf {clipper : Rect} (h : GuiLibrary.drawfuncOf s p clipper = some s') :
    SameSizes s s' := by
  simp only [GuiLibrary.drawfuncOf, Option.bind_eq_bind, Option.bind_eq_some_iff,
    Option.some.injEq] at h
  obtain ⟨w, -, d, -, rfl⟩ := h
  intro π
  cases π <;> exact size_runPrimitives _ _

/-- A redraw empties the list and draws. -/
theorem Screen.redraw {fuel : ℕ} (h : Screen window s)
    (hrun : GuiLibrary.redraw GuiLibrary.drawfuncOf fuel s = some s') : Screen window s' := by
  obtain ⟨s₁, h₁, hrun⟩ := Option.bind_eq_some_iff.mp hrun
  obtain rfl := Option.some.inj hrun
  have hsizes : SameSizes s s₁ :=
    redrawLoop_keeps (R := SameSizes) .refl .trans .runplacer .drawfuncOf fuel h₁
  exact (h.onlySurfaces (redrawLoop_onlySurfaces drawfuncOf_drawsOnly fuel h.layout h₁)
    hsizes).clearDamage

end SameSizes

/-- **Every operation that meets its condition keeps the screen.** -/
theorem Screen.step {window : Size} {s s' : AppState} (h : Screen window s)
    (hstep : ScreenStep window s s') : Screen window s' := by
  obtain ⟨op, hallowed, hrun⟩ := hstep
  cases op with
  | widget op => exact h.widget hallowed.1 hallowed.2 hrun
  | create c parent destructor =>
    obtain ⟨wid, hrun⟩ := exists_of_map_fst hrun
    exact h.create hallowed hrun
  | destroy p => exact h.destroy hallowed hrun
  | invalidate rect =>
    obtain ⟨rect', hrun⟩ := exists_of_map_fst hrun
    rw [eiAppInvalidateRect_eq h.layout.hasWindow, Option.some.injEq, Prod.mk.injEq] at hrun
    exact hrun.1 ▸ h.addDamage rect
  | buttonDown event =>
    obtain ⟨processed, hrun⟩ := exists_of_map_fst hrun
    exact h.press hallowed (h.layout.buttonDown hallowed hrun) (pressStep_of_buttonDown hrun)
  | buttonUp event =>
    obtain ⟨processed, hrun⟩ := exists_of_map_fst hrun
    exact h.press hallowed (h.layout.buttonUp hallowed hrun) (pressStep_of_buttonUp hrun)
  | buttonMove event =>
    obtain ⟨processed, hrun⟩ := exists_of_map_fst hrun
    exact h.press hallowed (h.layout.buttonMove hallowed hrun) (pressStep_of_buttonMove hrun)
  | redraw fuel => exact h.redraw hrun

end Classes

end GuiLibrary

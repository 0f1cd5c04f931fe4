import GuiLibrary.Creation
import GuiLibrary.Destroy

/-!
# Assigning, then running the placer

`ei_place` and the configure functions write the record of one widget, then run the placer on it.
`placeAssign`, `frameAssign`, `buttonAssign` and `toplevelAssign` are their first halves; `Rerun` is
what the second half does to the state it is given.

## Main definitions

* `placeAssign`, `frameAssign`, `buttonAssign`, `toplevelAssign`.
* `Assigned`, `Rerun`.

## Main results

* `eiPlace_eq`, `eiFrameConfigure_eq`, `eiButtonConfigure_eq`, `eiToplevelConfigure_eq`.
* `rerun_of_runplacer`, `rerun_of_refresh`.
-/

namespace GuiLibrary

open Cells

/-! ### The first halves -/

section Assign

/-- What `ei_place` assigns before it runs the placer. -/
def placeAssign (s : AppState) (p : Ptr) (args : PlaceArgs) : Option AppState := do
  let w ← s.widgets p
  some (s.setWidget p (w.setGeomParams (some (placedParams w args))))

theorem eiPlace_eq (s : AppState) (p : Ptr) (args : PlaceArgs) :
    eiPlace s p args = (placeAssign s p args).bind (runplacer · p) := by
  cases hp : s.widgets p <;> simp [eiPlace, placeAssign, hp]

variable [Hardware]

/-- What `ei_frame_configure` assigns before it runs the placer. -/
def frameAssign (s : AppState) (p : Ptr) (args : LabelArgs) : Option AppState := do
  let w ← s.widgets p
  match w.attrs with
  | .frame a =>
      let a ← configureLabel a args
      some (s.setWidget p (w.reconfigure (configuredSize args)
        (configuredContent w args.borderWidth) (.frame a)))
  | .button _ | .toplevel _ => none

theorem eiFrameConfigure_eq (s : AppState) (p : Ptr) (args : LabelArgs) :
    eiFrameConfigure s p args = (frameAssign s p args).bind (refresh · p) := by
  cases hp : s.widgets p with
  | none => simp [eiFrameConfigure, frameAssign, hp]
  | some w =>
    simp only [eiFrameConfigure, frameAssign, hp, Option.bind_eq_bind, Option.bind_some]
    cases w.attrs with
    | frame a => simp only [Option.bind_assoc, Option.bind_some]
    | button a => rfl
    | toplevel a => rfl

/-- The attributes that `ei_button_configure` assigns, once those it shares with
`ei_frame_configure` are known. -/
def configuredButton (a : ButtonAttrs) (label : FrameAttrs) (args : ButtonArgs) : ButtonAttrs :=
  { label with
    cornerRadius := args.cornerRadius.getD a.cornerRadius
    callback := args.callback.orElse fun _ => a.callback
    userParam := args.userParam.orElse fun _ => a.userParam
    noClipping := false
    isQuitButton := false
    isResizeButton := false }

/-- What `ei_button_configure` assigns before it runs the placer. -/
def buttonAssign (s : AppState) (p : Ptr) (args : ButtonArgs) : Option AppState := do
  let w ← s.widgets p
  match w.attrs with
  | .button a =>
      let label ← configureButtonLabel a.toFrameAttrs args.toLabelArgs
      some (s.setWidget p (w.reconfigure (configuredSize args.toLabelArgs)
        (configuredContent w args.borderWidth) (.button (configuredButton a label args))))
  | .frame _ | .toplevel _ => none

theorem eiButtonConfigure_eq (s : AppState) (p : Ptr) (args : ButtonArgs) :
    eiButtonConfigure s p args = (buttonAssign s p args).bind (refresh · p) := by
  cases hp : s.widgets p with
  | none => simp [eiButtonConfigure, buttonAssign, hp]
  | some w =>
    simp only [eiButtonConfigure, buttonAssign, hp, Option.bind_eq_bind, Option.bind_some]
    cases w.attrs with
    | button a => simp only [Option.bind_assoc, Option.bind_some, configuredButton]
    | frame a => rfl
    | toplevel a => rfl

end Assign

/-- What `ei_toplevel_configure` does before it runs the placer. -/
def toplevelAssign (s : AppState) (p : Ptr) (args : ToplevelArgs) : Option AppState := do
  let s ← s.modifyWidget p fun w =>
    { w with requestedSize := args.requestedSize.getD ⟨320, 240⟩ }
  let s ← modifyToplevel s p fun a => { a with
    backgroundColor := args.color.getD a.backgroundColor
    borderWidth := args.borderWidth.getD a.borderWidth
    title := args.title.getD a.title }
  let s ← args.closable.elim (some s) fun closable => do
    let s ← modifyToplevel s p ({ · with closable := closable })
    bif closable then some s else withdrawButton Widget.isQuitButton s p
  let s ← args.resizable.elim (some s) fun resizable => do
    let s ← modifyToplevel s p ({ · with resizable := resizable })
    bif resizable = .none then withdrawButton Widget.isResizeButton s p else some s
  args.minSize.elim (some s) fun minSize => do
    let minSize ← minSize
    modifyToplevel s p ({ · with minSize := minSize })

theorem eiToplevelConfigure_eq (s : AppState) (p : Ptr) (args : ToplevelArgs) :
    eiToplevelConfigure s p args = (toplevelAssign s p args).bind (refresh · p) := by
  simp only [eiToplevelConfigure, toplevelAssign, Option.bind_eq_bind, Option.bind_assoc]

/-- The state `s'` is `s` with the record `w` at `p` replaced by `w'`, which has the same links. -/
structure Assigned (s s' : AppState) (p : Ptr) (w w' : Widget) : Prop where
  old : s.widgets p = some w
  eq : s' = s.setWidget p w'
  links : w'.node.links = w.node.links
  screenLocation : w'.screenLocation = w.screenLocation

namespace Assigned

variable {s s' : AppState} {p : Ptr} {w w' : Widget}

theorem wellFormed (h : Assigned s s' p w w') (hs : WellFormed s) : WellFormed s' :=
  h.eq ▸ hs.setWidget h.old h.links

theorem new (h : Assigned s s' p w w') : s'.widgets p = some w' := by
  rw [h.eq, AppState.widgets_setWidget_self]

theorem other (h : Assigned s s' p w w') {q : Ptr} (hq : q ≠ p) :
    s'.widgets q = s.widgets q := by
  rw [h.eq, s.widgets_setWidget_of_ne _ hq]

theorem hasWindow {window : Size} (h : Assigned s s' p w w') (hwin : s.HasWindow window) :
    s'.HasWindow window := by
  rw [h.eq]
  refine hwin.setWidget fun hp => ?_
  obtain ⟨r, v, hr, hv, rfl⟩ := hwin
  obtain rfl : p = r := Option.some.inj (hp.symm.trans hr)
  rw [h.screenLocation, Option.some.inj (h.old.symm.trans hv)]

end Assigned

theorem placeAssign_assigned {s s' : AppState} {p : Ptr} {args : PlaceArgs}
    (h : placeAssign s p args = some s') :
    ∃ w, Assigned s s' p w (w.setGeomParams (some (placedParams w args))) := by
  obtain ⟨w, hp, h⟩ := Option.bind_eq_some_iff.mp h
  exact ⟨w, hp, (Option.some.inj h).symm, rfl, rfl⟩

theorem frameAssign_assigned [Hardware] {s s' : AppState} {p : Ptr} {args : LabelArgs}
    (h : frameAssign s p args = some s') :
    ∃ w a a', w.attrs = .frame a ∧ configureLabel a args = some a' ∧
      Assigned s s' p w (w.reconfigure (configuredSize args)
        (configuredContent w args.borderWidth) (.frame a')) := by
  obtain ⟨w, hp, h⟩ := Option.bind_eq_some_iff.mp h
  split at h
  · next a ha =>
    obtain ⟨a', ha', h⟩ := Option.bind_eq_some_iff.mp h
    exact ⟨w, a, a', ha, ha', hp, (Option.some.inj h).symm, rfl, rfl⟩
  · simp at h
  · simp at h

theorem buttonAssign_assigned [Hardware] {s s' : AppState} {p : Ptr} {args : ButtonArgs}
    (h : buttonAssign s p args = some s') :
    ∃ w a label, w.attrs = .button a ∧
      configureLabel a.toFrameAttrs args.toLabelArgs = some label ∧
      Assigned s s' p w (w.reconfigure (configuredSize args.toLabelArgs)
        (configuredContent w args.borderWidth) (.button (configuredButton a label args))) := by
  obtain ⟨w, hp, h⟩ := Option.bind_eq_some_iff.mp h
  split at h
  · next a ha =>
    obtain ⟨label, hlabel, h⟩ := Option.bind_eq_some_iff.mp h
    exact ⟨w, a, label, ha, (configureButtonLabel_eq_some.mp hlabel).2, hp,
      (Option.some.inj h).symm, rfl, rfl⟩
  · simp at h
  · simp at h

/-! ### The second halves -/

/-- The state `s'` is `s` after a run of the placer on `p`, when `p` is mapped. -/
def Rerun (window : Size) (s s' : AppState) (p : Ptr) : Prop :=
  ∃ w, s.widgets p = some w ∧ ((w.geomParams = none ∧ s' = s) ∨
    ∃ o pw m' rects, w.parent = some o ∧ s.widgets o = some pw ∧
      s' = s.relayout window m' rects ∧ Relaid window s m' p pw.content)

section Rerun

variable {window : Size} {s s' : AppState} {p : Ptr} {m' : Ptr → Option Widget} {K : Rect}

theorem rerun_of_runplacer (hs : WellFormed s) (hwin : s.HasWindow window)
    (h : runplacer s p = some s') : Rerun window s s' p := by
  obtain ⟨w, hp⟩ : ∃ w, s.widgets p = some w := by
    obtain ⟨w, hp, -⟩ := Option.bind_eq_some_iff.mp h
    exact ⟨w, hp⟩
  refine ⟨w, hp, ?_⟩
  cases hg : w.geomParams with
  | none =>
    simp only [runplacer, runplacerWith, hp, hg, Option.bind_eq_bind, Option.bind_some] at h
    exact Or.inl ⟨rfl, (Option.some.inj h).symm⟩
  | some params =>
    obtain ⟨o, pw, window', m', rects, ho, hpo, hwin', heq, hrelaid⟩ :=
      runplacer_of_eq_some hs hp (by rw [hg]; rfl) h
    obtain rfl := hwin'.unique hwin
    exact Or.inr ⟨o, pw, m', rects, ho, hpo, heq, hrelaid⟩

theorem rerun_of_refresh (hs : WellFormed s) (hwin : s.HasWindow window)
    (h : refresh s p = some s') : Rerun window s s' p := by
  obtain ⟨w, hp⟩ : ∃ w, s.widgets p = some w := by
    obtain ⟨w, hp, -⟩ := Option.bind_eq_some_iff.mp h
    exact ⟨w, hp⟩
  refine ⟨w, hp, (refresh_of_eq_some hs hp h).imp_right ?_⟩
  rintro ⟨o, pw, window', m', rects, -, ho, hpo, hwin', heq, hrelaid⟩
  obtain rfl := hwin'.unique hwin
  exact ⟨o, pw, m', rects, ho, hpo, heq, hrelaid⟩

/-- The second half completes on a widget that has a parent. -/
theorem exists_refresh (hs : WellFormed s) {w : Widget} {o : Ptr} (hp : s.widgets p = some w)
    (ho : w.parent = some o) : ∃ s', refresh s p = some s' := by
  obtain ⟨pn, hpn⟩ := hs.linked.parent_live p o ⟨w.node, AppState.nodes_of_widgets hp, ho⟩
  obtain ⟨pw, hpo, -⟩ := AppState.nodes_eq_some.mp hpn
  obtain ⟨r, v, hr, hv, -⟩ := hs.rootWidget_live (AppState.live_iff.mpr ⟨w, hp⟩)
  have hwin : s.HasWindow v.screenLocation.size := ⟨r, v, hr, hv, rfl⟩
  simp only [refresh, hp, Option.bind_eq_bind, Option.bind_some]
  split_ifs
  · obtain ⟨m', rects, hrun, -⟩ := runplacer_relaid hs hwin hp ho hpo
    have hskel := skeleton_runplacer hrun
    have hnodes := AppState.nodes_eq_of_skeleton hskel
    obtain ⟨w', hw', -⟩ := AppState.nodes_eq_some.mp (hnodes ▸ AppState.nodes_of_widgets hp)
    obtain ⟨v', hv', -⟩ := AppState.nodes_eq_some.mp (hnodes ▸ AppState.nodes_of_widgets hv)
    have hwin' : (s.relayout v.screenLocation.size m' rects).HasWindow v'.screenLocation.size :=
      ⟨r, v', (congrArg Skeleton.rootWidget hskel).trans hr, hv', rfl⟩
    simp only [hrun, hw', Option.bind_some, eiAppInvalidateRect_eq hwin', Option.map_some]
    exact ⟨_, rfl⟩
  · exact ⟨s, rfl⟩

/-- Placing a widget that has a parent completes. -/
theorem exists_eiPlace (hs : WellFormed s) {w : Widget} {o : Ptr} (hp : s.widgets p = some w)
    (ho : w.parent = some o) (args : PlaceArgs) : ∃ s', eiPlace s p args = some s' := by
  obtain ⟨s₁, h₁⟩ : ∃ s₁, placeAssign s p args = some s₁ := ⟨_, by rw [placeAssign, hp]; rfl⟩
  obtain ⟨u, hassigned⟩ := placeAssign_assigned h₁
  obtain rfl := Option.some.inj (hp.symm.trans hassigned.old)
  have hs₁ := hassigned.wellFormed hs
  have hpar : (w.setGeomParams (some (placedParams w args))).parent = some o := ho
  obtain ⟨pn, hpn⟩ := hs₁.linked.parent_live p o ⟨_, AppState.nodes_of_widgets hassigned.new, hpar⟩
  obtain ⟨pw, hpo, -⟩ := AppState.nodes_eq_some.mp hpn
  obtain ⟨r, v, hr, hv, -⟩ := hs₁.rootWidget_live (AppState.live_iff.mpr ⟨_, hassigned.new⟩)
  obtain ⟨m', rects, hrun, -⟩ := runplacer_relaid hs₁ ⟨r, v, hr, hv, rfl⟩ hassigned.new hpar hpo
  exact ⟨_, by rw [eiPlace_eq, h₁, Option.bind_some, hrun]⟩

/-- A run of the placer keeps the nodes. -/
theorem Relaid.node_eq (h : Relaid window s m' p K) (q : Ptr) :
    (m' q).map Widget.node = (s.widgets q).map Widget.node := by
  have hrerun : ∀ {K : Rect} (w : Option Widget),
      (w.map (·.rerun window K)).map Widget.node = w.map Widget.node := fun w => by
    cases w <;> simp
  by_cases hq : s.InSubtree q p
  · rcases hq with rfl | hq
    · rw [h.start, hrerun]
    · obtain ⟨o, hqo, hop⟩ := Relation.TransGen.head'_iff.mp hq
      have ho : s.InSubtree o p := Relation.reflTransGen_iff_eq_or_transGen.mp hop |>.imp_left
        Eq.symm
      rcases h.below q o ho hqo with ⟨hq, -⟩ | ⟨_, _, -, -, -, -, hq⟩
      · rw [hq]
      · rw [hq, hrerun]
  · rw [h.outside q hq]

namespace Rerun

theorem skeleton_eq (h : Rerun window s s' p) : s'.skeleton = s.skeleton := by
  obtain ⟨w, -, ⟨-, rfl⟩ | ⟨o, pw, m', rects, -, -, rfl, hrelaid⟩⟩ := h
  · rfl
  · have hnodes : (s.relayout window m' rects).nodes = s.nodes := funext hrelaid.node_eq
    rw [AppState.skeleton, hnodes]
    rfl

/-- A run of the placer keeps the root, which lies in no subtree of a mapped widget. -/
theorem root_eq (h : Rerun window s s' p) (hs : WellFormed s) {r : Ptr}
    (hr : s.rootWidget = some r) : s'.widgets r = s.widgets r := by
  obtain ⟨w, hp, ⟨-, rfl⟩ | ⟨o, pw, m', rects, ho, -, rfl, hrelaid⟩⟩ := h
  · rfl
  · refine hrelaid.outside r fun hsub => ?_
    rcases hsub with rfl | hsub
    · exact hs.rootWidget_ne hp ho hr
    · obtain ⟨rw', v, hr', hv, -⟩ := hs.rootWidget_live (AppState.live_iff.mpr ⟨w, hp⟩)
      obtain rfl := Option.some.inj (hr.symm.trans hr')
      exact root_top hs hr hv p hsub

theorem rootWidget_eq (h : Rerun window s s' p) : s'.rootWidget = s.rootWidget :=
  congrArg Skeleton.rootWidget h.skeleton_eq

theorem hasWindow (h : Rerun window s s' p) (hs : WellFormed s) {size : Size}
    (hwin : s.HasWindow size) : s'.HasWindow size := by
  obtain ⟨r, w, hr, hw, hsize⟩ := hwin
  exact ⟨r, w, h.rootWidget_eq.trans hr, (h.root_eq hs hr).trans hw, hsize⟩

end Rerun

end Rerun

end GuiLibrary

import GuiLibrary.Picks
import GuiLibrary.QuitButtons

/-!
# Drawing completes

Drawing follows pointers that may be null in one place only: a button with `no_clipping` is cut at
the content area of the parent of its parent. In a run the flag is set on the quit buttons of
toplevels only, which have one. So in every state of a run whose operations meet their conditions
the first draw completes, and so does a redraw.

## Main results

* `HasGrandparents.screenStep`: every operation keeps the grandparents.
* `exists_redraw_of_run`.
-/

namespace GuiLibrary

open Cells

section Classes

variable {window : Size} {s s' : AppState} {p : Ptr}

namespace Widget

variable {w w' : Widget}

theorem clipped_of_attrs (h : w'.attrs = w.attrs) (hc : w.Clipped) : w'.Clipped :=
  fun a ha => hc a (h ▸ ha)

theorem clipped_settled {rect : Rect} (h : w.Clipped) : (w.settled window rect).Clipped := by
  obtain ⟨_, _, _, _, _, _, _, _, _, _, content, attrs⟩ := w
  cases attrs with
  | frame a =>
    simp only [Clipped, settled, moved, notified, setScreenLocation, writeDamage, damage]
    split_ifs <;> simp
  | button a =>
    have ha : a.noClipping = false := h a rfl
    simp only [Clipped, settled, moved, notified, setScreenLocation, writeDamage, damage]
    split_ifs <;> simp [setContent, ha]
  | toplevel a => simp [Clipped, settled, moved, notified, setScreenLocation, writeDamage]

theorem clipped_rerun {K : Rect} (h : w.Clipped) : (w.rerun window K).Clipped := by
  rw [rerun]
  split_ifs
  · exact h
  · exact clipped_settled h

end Widget

/-! ### Flags -/

/-- What is live was live, under the same parent, and does not get the flag `no_clipping`. -/
def KeepsClipped (s s' : AppState) : Prop :=
  ∀ q w', s'.widgets q = some w' →
    ∃ w, s.widgets q = some w ∧ w'.parent = w.parent ∧ (w.Clipped → w'.Clipped)

namespace KeepsClipped

variable {s₁ : AppState} {w w' : Widget}

theorem refl (s : AppState) : KeepsClipped s s := fun _ w hw => ⟨w, hw, rfl, id⟩

theorem of_widgets (h : s'.widgets = s.widgets) : KeepsClipped s s' :=
  fun _ w hw => ⟨w, h ▸ hw, rfl, id⟩

theorem trans (h₁ : KeepsClipped s s₁) (h₂ : KeepsClipped s₁ s') : KeepsClipped s s' := by
  intro q w' hw'
  obtain ⟨w₁, hw₁, hparent₁, hclip₁⟩ := h₂ q w' hw'
  obtain ⟨w, hw, hparent, hclip⟩ := h₁ q w₁ hw₁
  exact ⟨w, hw, hparent₁.trans hparent, hclip₁ ∘ hclip⟩

theorem setWidget (hp : s.widgets p = some w) (hparent : w'.parent = w.parent)
    (hclip : w.Clipped → w'.Clipped) : KeepsClipped s (s.setWidget p w') := by
  intro q v hv
  by_cases hq : q = p
  · subst hq
    rw [AppState.widgets_setWidget_self] at hv
    obtain rfl := Option.some.inj hv
    exact ⟨w, hp, hparent, hclip⟩
  · rw [AppState.widgets_setWidget_of_ne _ _ hq] at hv
    exact ⟨v, hv, rfl, id⟩

theorem assigned (h : Assigned s s₁ p w w') (hclip : w.Clipped → w'.Clipped) :
    KeepsClipped s s₁ := by
  rw [h.eq]
  exact setWidget h.old (congrArg Prod.fst h.links) hclip

theorem rerun (h : Rerun window s s' p) : KeepsClipped s s' := by
  obtain ⟨w, -, ⟨-, rfl⟩ | ⟨o, pw, m', rects, -, -, rfl, hrelaid⟩⟩ := h
  · exact .refl _
  · intro q v hv
    have hv : m' q = some v := hv
    rcases hrelaid.rerun_or_same q with hsame | ⟨L, hrerun⟩
    · exact ⟨v, hsame.symm.trans hv, rfl, id⟩
    · rw [hv, eq_comm, Option.map_eq_some_iff] at hrerun
      obtain ⟨u, hu, rfl⟩ := hrerun
      exact ⟨u, hu, congrArg Node.parent (u.node_rerun window L), Widget.clipped_rerun⟩

/-- The operations on a widget. -/
theorem run [Hardware] {op : DamageOp} (hs : WellFormed s) (hwin : s.HasWindow window)
    (hkeeps : op.Keeps window s) (hrun : op.run s = some s') : KeepsClipped s s' := by
  cases op with
  | place p args =>
    rw [DamageOp.run, eiPlace_eq] at hrun
    obtain ⟨s₁, h₁, hrun⟩ := Option.bind_eq_some_iff.mp hrun
    obtain ⟨w, ha⟩ := placeAssign_assigned h₁
    exact (assigned ha (Widget.clipped_of_attrs rfl)).trans
      (.rerun (rerun_of_runplacer (ha.wellFormed hs) (ha.hasWindow hwin) hrun))
  | frameConfigure p args =>
    rw [DamageOp.run, eiFrameConfigure_eq] at hrun
    obtain ⟨s₁, h₁, hrun⟩ := Option.bind_eq_some_iff.mp hrun
    obtain ⟨w, a, a', -, -, ha⟩ := frameAssign_assigned h₁
    exact (assigned ha fun _ b hb => by simp [Widget.reconfigure] at hb).trans
      (.rerun (rerun_of_refresh (ha.wellFormed hs) (ha.hasWindow hwin) hrun))
  | buttonConfigure p args =>
    rw [DamageOp.run, eiButtonConfigure_eq] at hrun
    obtain ⟨s₁, h₁, hrun⟩ := Option.bind_eq_some_iff.mp hrun
    obtain ⟨w, a, label, -, -, ha⟩ := buttonAssign_assigned h₁
    refine (assigned ha fun _ b hb => ?_).trans
      (.rerun (rerun_of_refresh (ha.wellFormed hs) (ha.hasWindow hwin) hrun))
    obtain rfl := Attrs.button.inj hb
    rfl
  | unmap p =>
    obtain ⟨w, hp, -⟩ := Option.bind_eq_some_iff.mp hrun
    rw [DamageOp.run, eiGeometrymanagerUnmap_eq hwin hp, Option.some.injEq] at hrun
    subst hrun
    split_ifs
    · have hdamage : KeepsClipped s (s.addDamage window w.screenLocation) := of_widgets rfl
      exact hdamage.trans (setWidget hp rfl (Widget.clipped_of_attrs rfl))
    · exact .refl s
  | runplacer | toplevelConfigure | destroy => exact absurd hkeeps id

/-- The handlers of the mouse. -/
theorem pressStep {event : Event} {shown : Ptr → Prop} (hwin : s.HasWindow window)
    (hkeeps : PressKeeps window s shown) (hstep : PressStep s event shown s') :
    KeepsClipped s s' := by
  rcases hstep.shows with ⟨pressed, rfl, -⟩ | ⟨p, pressed, relief, b, hshow, hshown, -⟩
  · exact of_widgets rfl
  · obtain ⟨w, a, hw, ha, rfl⟩ := showButton_spec hwin (fun w a => hkeeps p w a hshown) rfl hshow
    have hset : KeepsClipped s
        (s.setWidget p { w with attrs := .button { a with relief := relief } }) := by
      refine setWidget hw rfl fun hclip b hb => ?_
      obtain rfl := Attrs.button.inj hb
      exact hclip a ha
    exact hset.trans (of_widgets rfl)

end KeepsClipped

/-! ### Grandparents -/

/-- The flagged widgets have grandparents when the old ones keep their parents and the new ones
have grandparents. -/
theorem HasGrandparents.of_old (h : HasGrandparents s) (hs' : WellFormed s')
    (hparents : ∀ q w w', s.widgets q = some w → s'.widgets q = some w' → w'.parent = w.parent)
    (hflags : ∀ q w', s'.widgets q = some w' → ¬ w'.Clipped →
      (∃ w, s.widgets q = some w ∧ ¬ w.Clipped) ∨
        ∃ o ow g, w'.parent = some o ∧ s'.widgets o = some ow ∧ ow.parent = some g) :
    HasGrandparents s' := by
  intro q w' b' hw' hb' hno'
  have hflag : ¬ w'.Clipped := fun hclip => by simp [hclip b' hb'] at hno'
  rcases hflags q w' hw' hflag with ⟨w, hw, hclip⟩ | hnew
  · obtain ⟨b, hb, hno⟩ : ∃ b, w.attrs = .button b ∧ b.noClipping = true := by
      simpa [Widget.Clipped] using hclip
    obtain ⟨o, ow, g, ho, how, hg⟩ := h q w b hw hb hno
    have ho' : w'.parent = some o := (hparents q w w' hw hw').trans ho
    obtain ⟨n, hn⟩ := hs'.linked.parent_live q o ⟨w'.node, AppState.nodes_of_widgets hw', ho'⟩
    obtain ⟨ow', how', -⟩ := AppState.nodes_eq_some.mp hn
    exact ⟨o, ow', g, ho', how', (hparents o ow ow' how how').trans hg⟩
  · exact hnew

theorem HasGrandparents.keepsClipped (h : HasGrandparents s) (hs' : WellFormed s')
    (hkeeps : KeepsClipped s s') : HasGrandparents s' := by
  refine h.of_old hs' (fun q w w' hw hw' => ?_) fun q w' hw' hflag => ?_
  · obtain ⟨v, hv, hparent, -⟩ := hkeeps q w' hw'
    rw [hparent, Option.some.inj (hv.symm.trans hw)]
  · obtain ⟨v, hv, -, hclip⟩ := hkeeps q w' hw'
    exact Or.inl ⟨v, hv, fun h => hflag (hclip h)⟩

theorem HasGrandparents.create [Hardware] {c : WidgetClass} {parent wid : Ptr} {d : Option ℕ}
    (h : HasGrandparents s) (hs : WellFormed s) (hwin : s.HasWindow window)
    (hparent : s.Live parent) (hrun : eiWidgetCreate s c (some parent) d = some (s', wid)) :
    HasGrandparents s' := by
  obtain ⟨hc, -⟩ := eiWidgetCreate_created hs hparent hrun
  obtain ⟨⟨u, hu, hbody⟩, -⟩ := created_records hs hwin hparent hrun
  have hlt : ∀ {q w}, s.widgets q = some w → q < s.nextWidget := fun hw =>
    hs.lt_nextWidget (AppState.live_iff.mpr ⟨_, hw⟩)
  refine h.of_old hc.grown.wellFormed (fun q w w' hw hw' => ?_) fun q w' hw' hflag => ?_
  · obtain ⟨v, hv, hvbody⟩ := hc.bodies.exists_old (hlt hw) hw'
    rw [Widget.parent_of_body hvbody, Option.some.inj (hv.symm.trans hw)]
  · by_cases hq : q < s.nextWidget
    · obtain ⟨v, hv, hvbody⟩ := hc.bodies.exists_old hq hw'
      exact Or.inl ⟨v, hv, fun hclip =>
        hflag (Widget.clipped_of_attrs (Widget.attrs_of_body hvbody) hclip)⟩
    · by_cases hself : q = s.nextWidget
      · -- The new widget has its defaults.
        subst hself
        obtain rfl := Option.some.inj (hu.symm.trans hw')
        refine absurd (Widget.clipped_of_attrs (Widget.attrs_of_body hbody) fun b hb => ?_) hflag
        cases c with
        | frame | toplevel => simp [newWidget, defaultAttrs] at hb
        | button =>
          obtain rfl := Attrs.button.inj hb
          rfl
      · -- A hidden button is a child of the new toplevel.
        obtain ⟨n, hn, -, ho⟩ := hc.hidden_of_lt
          (Nat.lt_of_le_of_ne (Nat.le_of_not_lt hq) (Ne.symm hself))
          (AppState.live_iff.mpr ⟨w', hw'⟩)
        obtain rfl := Option.some.inj ((AppState.nodes_of_widgets hw').symm.trans hn)
        exact Or.inr ⟨_, u, parent, ho, hu, Widget.parent_of_body hbody⟩

theorem HasGrandparents.destroy (h : HasGrandparents s) (hs : Screen window s)
    (hrun : eiWidgetDestroy s p = some s') : HasGrandparents s' := by
  obtain ⟨bs, hl⟩ := hs.bindings
  obtain ⟨-, hd, -⟩ := eiWidgetDestroy_of_eq_some hs.layout.wellFormed hl hrun
  refine h.keepsClipped (hd.wellFormed hs.layout.wellFormed) fun q w' hw' => ?_
  have hqp : q ≠ p := by
    rintro rfl
    have hdead := hd.pruned.dead q (Or.inl rfl)
    rw [AppState.nodes_of_widgets hw'] at hdead
    simp at hdead
  obtain ⟨w, hw, hbody⟩ := (hw' ▸ bodies_eiWidgetDestroy hrun hqp).exists_old
  exact ⟨w, hw, Widget.parent_of_body hbody, Widget.clipped_of_attrs (Widget.attrs_of_body hbody)⟩

variable [Hardware] [Raster] [TextRendering]

/-- **Every operation keeps the grandparents.** -/
theorem HasGrandparents.screenStep (h : HasGrandparents s) (hs : Screen window s)
    (hstep : ScreenStep window s s') : HasGrandparents s' := by
  have hs' := (hs.step hstep).layout.wellFormed
  obtain ⟨op, hallowed, hrun⟩ := hstep
  have hwin := hs.layout.hasWindow
  cases op with
  | widget op => exact h.keepsClipped hs' (.run hs.layout.wellFormed hwin hallowed.1 hrun)
  | create c parent destructor =>
    obtain ⟨wid, hrun⟩ := exists_of_map_fst hrun
    exact h.create hs.layout.wellFormed hwin hallowed hrun
  | destroy p => exact h.destroy hs hrun
  | invalidate rect =>
    obtain ⟨rect', hrun⟩ := exists_of_map_fst hrun
    exact h.keepsClipped hs' (.of_widgets (eiAppInvalidateRect_frame hrun).1)
  | buttonDown event =>
    obtain ⟨processed, hrun⟩ := exists_of_map_fst hrun
    exact h.keepsClipped hs' (.pressStep hwin hallowed (pressStep_of_buttonDown hrun))
  | buttonUp event =>
    obtain ⟨processed, hrun⟩ := exists_of_map_fst hrun
    exact h.keepsClipped hs' (.pressStep hwin hallowed (pressStep_of_buttonUp hrun))
  | buttonMove event =>
    obtain ⟨processed, hrun⟩ := exists_of_map_fst hrun
    exact h.keepsClipped hs' (.pressStep hwin hallowed (pressStep_of_buttonMove hrun))
  | redraw fuel =>
    obtain ⟨s₁, h₁, hrun⟩ := Option.bind_eq_some_iff.mp hrun
    obtain rfl := Option.some.inj hrun
    exact h.keepsClipped hs' (.of_widgets
      (redrawLoop_onlySurfaces drawfuncOf_drawsOnly fuel hs.layout h₁).widgets_eq)

/-! ### Runs -/

theorem HasGrandparents.appStep (h : HasGrandparents s) (hs : Screen window s)
    (hstep : AppStep window s s') : HasGrandparents s' := by
  rcases hstep with hstep | hdraw
  · exact h.screenStep hs hstep
  · have honly := (drawn_of_eiAppRunStart hs hdraw).1
    exact h.keepsClipped (screen_eiAppRunStart hs hdraw).layout.wellFormed
      (.of_widgets honly.widgets_eq)

omit [Raster] [TextRendering] in
/-- The root is a frame. -/
theorem Started.hasGrandparents {pickSurface : Surface} (h : Started s window pickSurface) :
    HasGrandparents s := by
  intro q w b hw hb
  obtain ⟨rfl, -⟩ := h.eq_zero (AppState.nodes_of_widgets hw)
  rw [h.widgets, Function.update_self] at hw
  obtain rfl := Option.some.inj hw
  simp [startedRoot, Widget.reconfigure, Widget.setScreenLocation] at hb

theorem screen_hasGrandparents_of_run {rootSurface pickSurface : Surface} {s₀ : AppState}
    (h₀ : eiAppCreate window rootSurface pickSurface = some s₀)
    (hroot : rootSurface.size = window) (hpick : pickSurface.size = window)
    (hrun : Relation.ReflTransGen (AppStep window) s₀ s) :
    Screen window s ∧ HasGrandparents s := by
  induction hrun with
  | refl => exact ⟨screen_eiAppCreate h₀ hroot hpick, (Started.of_eq h₀).hasGrandparents⟩
  | tail _ hstep ih => exact ⟨ih.1.appStep hstep, ih.2.appStep ih.1 hstep⟩

/-- **In every state of a run, drawing completes**, when the operations meet their conditions: the
first draw, and a redraw, after which no rectangle is invalidated. -/
theorem exists_redraw_of_run {rootSurface pickSurface : Surface} {s₀ : AppState}
    (h₀ : eiAppCreate window rootSurface pickSurface = some s₀)
    (hroot : rootSurface.size = window) (hpick : pickSurface.size = window)
    (hsides : 0 < (Rect.ofSize window).halfSide)
    (hrun : Relation.ReflTransGen (AppStep window) s₀ s) :
    (∃ s', eiAppRunStart s = some s') ∧ ∀ fuel, s.invalidatedRects.length < fuel →
      ∃ s', redraw drawfuncOf fuel s = some s' ∧ s'.invalidatedRects = [] := by
  obtain ⟨hscreen, hflags⟩ := screen_hasGrandparents_of_run h₀ hroot hpick hrun
  obtain ⟨root, r, f, hstage⟩ := hscreen.exists_stage hsides
  constructor
  · obtain ⟨ds, -, hdraw⟩ := exists_initialDraw hstage.wellFormed hstage.upToDate
      hstage.rootWidget hstage.root_live hstage.forest hflags
    exact ⟨_, by rw [eiAppRunStart, hdraw, Option.map_some]⟩
  · intro fuel hfuel
    have hcan : CanRedraw s window root f := by
      refine fun C hC => ⟨hscreen.rects.within hC, fun call hcall => ?_⟩
      obtain ⟨w, hw⟩ := Option.isSome_iff_exists.mp
        (of_mem_passCalls (by rw [hstage.root_live]; rfl) hcall).1
      rw [drawingOf, hw]
      exact isSome_drawing hstage.wellFormed hflags hw call.2
    obtain ⟨t, ht, honly, -⟩ := hstage.redraw hcan hfuel
    exact ⟨t, ht, by rw [honly]⟩

end Classes

section Sample

attribute [local instance] sampleHardware squareRaster sampleTextRendering

/-- A frame in the window. -/
theorem exists_redraw_of_run_placed : (∃ s', eiAppRunStart samplePlaced = some s') ∧
    ∀ fuel, samplePlaced.invalidatedRects.length < fuel →
      ∃ s', redraw drawfuncOf fuel samplePlaced = some s' ∧ s'.invalidatedRects = [] :=
  exists_redraw_of_run (eiAppCreate_sampleApp ⟨640, 480⟩) rfl rfl (by decide)
    (Relation.ReflTransGen.mono (fun _ _ => Or.inl) _ _ steps_samplePlaced)

end Sample

end GuiLibrary

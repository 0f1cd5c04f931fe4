import GuiLibrary.Globals
import GuiLibrary.HitTesting
import GuiLibrary.Showing

/-!
# What the pointer picks

The handlers of the mouse find the widget under the pointer by the colour of a pixel of the pick
surface, which is drawn with the window: first in full, then in the invalidated rectangles. At a
pixel that is not invalidated the pick surface shows the scene, so `ei_widget_pick` returns the last
widget in pre-order that is shown there, in every state of a run whose operations meet their
conditions.

## Main results

* `Numbered.screenStep`: every operation keeps the numbers of the widgets and their pick colours.
* `picture_pick`: the pick plane of the scene.
* `screen_of_run`, `eiWidgetPick_of_run`.
-/

namespace GuiLibrary

open Cells Pictures

section Classes

variable [Hardware] [Raster] [TextRendering] {window : Size} {s s' : AppState} {x : Point}

/-! ### The numbers of the widgets -/

omit [Hardware] [Raster] [TextRendering] in
theorem Numbered.onlySurfaces (h : Numbered s) (ho : OnlySurfaces s s') : Numbered s' := by
  rw [ho]
  exact ⟨h.widId, h.pickId, h.pickColor⟩

omit [Hardware] [Raster] [TextRendering] in
theorem Numbered.clearDamage (h : Numbered s) :
    Numbered { s with invalidatedRects := [] } := ⟨h.widId, h.pickId, h.pickColor⟩

omit [Hardware] [Raster] [TextRendering] in
/-- A record is assigned another one with the same number and colour. -/
theorem Numbered.assigned {p : Ptr} {w w' : Widget} (h : Numbered s) (ha : Assigned s s' p w w')
    (hid : w'.pickId = w.pickId) (hcolor : w'.pickColor = w.pickColor) : Numbered s' := by
  have hold := AppState.nodes_of_widgets ha.old
  have hkept : ∀ q n, s'.nodes q = some n →
      ∃ m, s.nodes q = some m ∧ n.pickId = m.pickId ∧ n.pickColor = m.pickColor := by
    intro q n hn
    by_cases hq : q = p
    · subst hq
      rw [AppState.nodes_of_widgets ha.new] at hn
      obtain rfl := Option.some.inj hn
      exact ⟨w.node, hold, hid, hcolor⟩
    · refine ⟨n, ?_, rfl, rfl⟩
      rw [← hn, AppState.nodes, AppState.nodes, ha.other hq]
  refine ⟨by rw [ha.eq]; exact h.widId, fun q n hn => ?_, fun q n hn => ?_⟩
  · obtain ⟨m, hm, hid, -⟩ := hkept q n hn
    rw [hid, h.pickId q m hm]
  · obtain ⟨m, hm, hid, hcolor⟩ := hkept q n hn
    rw [hid, hcolor, h.pickColor q m hm]

omit [Hardware] [Raster] [TextRendering] in
/-- The handlers of the mouse change how a button looks. -/
theorem Numbered.pressStep {event : Event} {shown : Ptr → Prop} (h : Numbered s)
    (hstep : PressStep s event shown s') : Numbered s' := by
  have hset : ∀ pressed, Numbered { s with buttonPressed := pressed } := fun _ =>
    ⟨h.widId, h.pickId, h.pickColor⟩
  rcases hstep.shows with ⟨pressed, rfl, -⟩ | ⟨p, pressed, relief, b, hshow, -⟩
  · exact hset pressed
  · exact (hset pressed).congr (skeleton_showButton hshow).1

/-- **Every operation keeps the numbers of the widgets and their pick colours.** -/
theorem Numbered.screenStep (h : Numbered s) (hs : Screen window s)
    (hstep : ScreenStep window s s') : Numbered s' := by
  obtain ⟨op, hallowed, hrun⟩ := hstep
  cases op with
  | widget op =>
    have hkeeps := hallowed.1
    cases op with
    | place p args => exact h.congr (skeleton_eiPlace hrun)
    | frameConfigure p args => exact h.congr (skeleton_eiFrameConfigure hrun)
    | buttonConfigure p args =>
      have hrun : eiButtonConfigure s p args = some s' := hrun
      rw [eiButtonConfigure_eq] at hrun
      obtain ⟨s₁, h₁, hrun⟩ := Option.bind_eq_some_iff.mp hrun
      obtain ⟨w, a, label, -, -, ha⟩ := buttonAssign_assigned h₁
      exact (h.assigned ha rfl rfl).congr (skeleton_refresh hrun)
    | unmap p => exact h.congr (skeleton_eiGeometrymanagerUnmap hrun)
    | runplacer | toplevelConfigure | destroy => exact absurd hkeeps id
  | create c parent destructor =>
    obtain ⟨wid, hrun⟩ := exists_of_map_fst hrun
    obtain ⟨hc, -⟩ := eiWidgetCreate_created hs.layout.wellFormed hallowed hrun
    exact hc.grown.numbered h
  | destroy p =>
    obtain ⟨bs, hl⟩ := hs.bindings
    obtain ⟨-, hd, -⟩ := eiWidgetDestroy_of_eq_some hs.layout.wellFormed hl hrun
    exact hd.numbered h
  | invalidate rect =>
    obtain ⟨rect', hrun⟩ := exists_of_map_fst hrun
    exact h.congr (eiAppInvalidateRect_frame hrun).2
  | buttonDown event =>
    obtain ⟨processed, hrun⟩ := exists_of_map_fst hrun
    exact h.pressStep (pressStep_of_buttonDown hrun)
  | buttonUp event =>
    obtain ⟨processed, hrun⟩ := exists_of_map_fst hrun
    exact h.pressStep (pressStep_of_buttonUp hrun)
  | buttonMove event =>
    obtain ⟨processed, hrun⟩ := exists_of_map_fst hrun
    exact h.pressStep (pressStep_of_buttonMove hrun)
  | redraw fuel =>
    obtain ⟨s₁, h₁, hrun⟩ := Option.bind_eq_some_iff.mp hrun
    obtain rfl := Option.some.inj hrun
    exact (h.onlySurfaces
      (redrawLoop_onlySurfaces drawfuncOf_drawsOnly fuel hs.layout h₁)).clearDamage

theorem numbered_of_steps (hs : Screen window s) (h : Numbered s)
    (hrun : Relation.ReflTransGen (ScreenStep window) s s') : Numbered s' := by
  induction hrun with
  | refl => exact h
  | tail hbefore hstep ih => exact ih.screenStep (screen_of_steps hs hbefore) hstep

theorem Numbered.appStep (h : Numbered s) (hs : Screen window s) (hstep : AppStep window s s') :
    Numbered s' :=
  hstep.elim (h.screenStep hs) fun hdraw =>
    h.clearDamage.onlySurfaces (drawn_of_eiAppRunStart hs hdraw).1

theorem Launched.numbered (h : Launched window x s) : Numbered s := by
  obtain ⟨hroot, hpick, hcreate, hops, -, hdraw⟩ := h
  have hscreen := screen_eiAppCreate hcreate hroot hpick
  have h₁ := numbered_of_steps hscreen (Started.of_eq hcreate).numbered hops
  exact h₁.clearDamage.onlySurfaces
    (drawn_of_eiAppRunStart (screen_of_steps hscreen hops) hdraw).1

/-- **Every state of a run is a screen**, when the operations meet their conditions: the widgets are
a tree, the mapped ones are where the placer puts them and the others have an empty location, the
root is an opaque frame that covers the window, what is invalidated lies in the window, and the pick
colours encode the addresses. -/
theorem screen_of_run {rootSurface pickSurface : Surface} {s₀ : AppState}
    (h₀ : eiAppCreate window rootSurface pickSurface = some s₀)
    (hroot : rootSurface.size = window) (hpick : pickSurface.size = window)
    (hrun : Relation.ReflTransGen (AppStep window) s₀ s) : Screen window s ∧ Numbered s := by
  induction hrun with
  | refl => exact ⟨screen_eiAppCreate h₀ hroot hpick, (Started.of_eq h₀).numbered⟩
  | tail _ hstep ih => exact ⟨ih.1.appStep hstep, ih.2.appStep ih.1 hstep⟩

/-! ### The pick plane of the scene -/

/-- On the pick plane a widget is its extent. -/
theorem effect_pick {q : Ptr} {w : Widget} (hq : s.widgets q = some w)
    (halpha : w.pickColor.alpha = 255) (hx : x ∈ Rect.ofSize window)
    (h : Untouched s q w x ∨ w.Clipped) (v : BitVec 32) : (s.scene window .pick).effect q x v =
      if InExtent w x then eiMapRgba s.pickSurface w.pickColor else v := by
  rcases h with h | hclip
  · rw [if_neg h.2, show (s.scene window .pick).effect q x = id from h.callEffect_eq hq _ _, id]
  · have hd : (drawingOf s (q, Rect.ofSize window)).isSome := by
      simp only [drawingOf, hq, Option.bind_eq_bind, Option.bind_some, drawing_of_clipped hclip,
        Option.isSome_some]
    exact (callEffect_pick hq hclip hd v).trans
      (if_congr (and_iff_right hx) (pickFill_of_alpha_eq halpha v) rfl)

omit [Hardware] [TextRendering] in
/-- What a widget and its descendants add to the painted widgets. -/
theorem painted_cons_of_mapped {m : Ptr → Option Widget} {q : Ptr} {w : Widget}
    {kids rest : Forest Ptr} (hq : m q = some w) (hg : w.geomParams.isSome) :
    painted m x (.cons q kids rest) = (if InExtent w x then [q] else []) ++
      (if x ∈ w.content then painted m x kids else []) ++ painted m x rest := by
  rw [painted, hq]
  simp only [if_pos hg]

omit [Hardware] [TextRendering] in
theorem painted_cons_of_not_mapped {m : Ptr → Option Widget} {q : Ptr} {kids rest : Forest Ptr}
    (h : ¬ IsMapped (m q)) : painted m x (.cons q kids rest) = painted m x rest := by
  rw [painted]
  cases hq : m q with
  | none => rfl
  | some w =>
    rw [hq, isMapped_some] at h
    simp only [if_neg h, List.nil_append]

open Classical in
/-- **The pick plane of the scene below the root**: the pick colours of the widgets that are painted
at the pixel, one over the other. -/
theorem picture_pick (hnum : Numbered s) (hin : InsideAt s x) (hx : x ∈ Rect.ofSize window)
    (f : Forest Ptr) :
    (∀ q ∈ f.nodes, s.rootWidget ≠ some q) → ∀ v, (s.scene window .pick).picture x f v =
      (painted s.widgets x f).foldl (fun _ q => pickPixel s.widgets s.pickSurface q) v := by
  induction f with
  | nil => exact fun _ _ => rfl
  | cons q kids rest ihk ihr =>
    intro hne v
    simp only [Forest.nodes_cons, List.forall_mem_cons, List.forall_mem_append] at hne
    obtain ⟨hq, hkids, hrest⟩ := hne
    have hshown : (s.scene window .pick).shown q ↔ IsMapped (s.widgets q) := or_iff_right hq
    by_cases hmapped : IsMapped (s.widgets q)
    · obtain ⟨w, hw, hg⟩ := exists_of_isMapped hmapped
      have harea : x ∈ (s.scene window .pick).area q ↔ x ∈ w.content := by
        simp [AppState.scene, hw]
      have heffect := effect_pick hw (hnum.alpha_pickColor hw) hx (v := v)
        ((Classical.em (x ∈ w.extent)).symm.imp (fun hnot => (hin.outside q w hw hg hnot).1)
          (hin.clipped q w hw hg))
      have hpixel : pickPixel s.widgets s.pickSurface q = eiMapRgba s.pickSurface w.pickColor := by
        rw [pickPixel, hw, Option.elim_some]
      rw [painted_cons_of_mapped hw hg, List.foldl_append, List.foldl_append, Scene.picture,
        if_pos (hshown.mpr hmapped), Function.comp_apply, Function.comp_apply, ihr hrest, heffect]
      have hkid : ∀ v, (if x ∈ (s.scene window .pick).area q then
          (s.scene window .pick).picture x kids else id) v =
          (if x ∈ w.content then painted s.widgets x kids else []).foldl
            (fun _ q => pickPixel s.widgets s.pickSurface q) v := by
        intro v
        simp only [harea]
        split_ifs
        · exact ihk hkids v
        · rfl
      rw [hkid]
      by_cases hext : InExtent w x <;> simp [hext, hpixel]
    · rw [painted_cons_of_not_mapped hmapped, Scene.picture, if_neg (hmapped ∘ hshown.mp),
        Function.comp_id, ihr hrest]

/-! ### Picking in a run -/

/-- At a pixel that shows the scene, `ei_widget_pick` returns the last widget shown there. -/
theorem eiWidgetPick_of_showsScene (hraster : Raster.CoversRects) (hs : Screen window s)
    (hsides : 0 < (Rect.ofSize window).halfSide) (hnum : Numbered s) (hle : s.nextWidget ≤ 2 ^ 24)
    (hin : InsideAt s x) (hx : x ∈ Rect.ofSize window) (h : ShowsScene window s x) :
    ∃ root r f q, s.rootWidget = some root ∧ s.widgets root = some r ∧
      Represents nodeLinks s.nodes root r.childrenHead f ∧ LastHit s x (root :: f.nodes) q ∧
      eiWidgetPick s x = some (some q) := by
  classical
  obtain ⟨root, r, f, hstage⟩ := hs.exists_stage hsides
  obtain ⟨a, ha, hb⟩ := hstage.plain
  have hxr : x ∈ r.content := hstage.content ▸ hx
  have hext : InExtent r x := by
    rw [InExtent, ha]
    have hfilled := (hraster.filled_iff hx).mpr hsides
    simpa only [Filled, pickPoints, cornerRadiusOf, ha, hstage.location] using hfilled
  have hclip : r.Clipped := fun b hb' => by simp [ha] at hb'
  -- The pixel is that of the last of the shown widgets.
  have hpixel : s.pickSurface.pixel x = ((root :: f.nodes).filter fun q => Hit s x q).foldl
      (fun _ q => pickPixel s.widgets s.pickSurface q) 0 := by
    have hcurrent := h root r f .pick hstage.rootWidget hstage.root_live hstage.forest 0
    have heffect := effect_pick hstage.root_live hstage.pickColor hx (Or.inr hclip) 0
    have harea : x ∈ (s.scene window .pick).area root := ⟨r, hstage.root_live, hxr⟩
    have hshown : (s.scene window .pick).shown root := Or.inl hstage.rootWidget
    have hcolor : pickPixel s.widgets s.pickSurface root =
        eiMapRgba s.pickSurface r.pickColor := by
      rw [pickPixel, hstage.root_live, Option.elim_some]
    rw [Scene.picture, if_pos hshown, if_pos harea, Function.comp_apply, Function.comp_apply,
      heffect, if_pos hext, picture_pick hnum hin hx f hstage.forest_ne, Scene.picture_nil,
      id] at hcurrent
    rw [filter_hit_eq hstage.wellFormed hstage.rootWidget hstage.root_live hstage.forest hxr,
      if_pos hext, List.singleton_append, List.foldl_cons, hcolor]
    exact hcurrent.symm
  have hroot : Hit s x root := ⟨mapped_root hstage.wellFormed hstage.rootWidget hstage.root_live,
    ⟨r, hstage.root_live, hext⟩, fun a ha =>
      absurd ha (root_top hstage.wellFormed hstage.rootWidget hstage.root_live a)⟩
  rcases List.eq_nil_or_concat ((root :: f.nodes).filter fun q => Hit s x q) with hnil | ⟨l, q, hl⟩
  · exact absurd (decide_eq_true hroot) (List.filter_eq_nil_iff.mp hnil root List.mem_cons_self)
  · rw [List.concat_eq_append] at hl
    have hlast : LastHit s x (root :: f.nodes) q := lastHit_of_filter hl
    obtain ⟨-, -, -, ⟨-, ⟨w, hw, -⟩, -⟩, -⟩ := id hlast
    refine ⟨root, r, f, q, hstage.rootWidget, hstage.root_live, hstage.forest, hlast, ?_⟩
    have hsearch := search_pickColor hstage.wellFormed hnum hle hstage.rootWidget
      (AppState.live_iff.mpr ⟨r, hstage.root_live⟩) s.pickSurface
      (hstage.wellFormed.lt_nextWidget (AppState.live_iff.mpr ⟨w, hw⟩))
    have hcolor : s.pickSurface.pixel x =
        eiMapRgba s.pickSurface (pickColorOf (BitVec.ofNat 32 q)) := by
      rw [hpixel, hl, List.foldl_append, List.foldl_cons, List.foldl_nil, pickPixel, hw,
        Option.elim_some, hnum.pickColor_eq hw]
    rw [← hcolor, hw, Option.map_some] at hsearch
    rw [eiWidgetPick, hstage.rootWidget, Option.bind_eq_bind, Option.bind_some]
    exact hsearch

/-- **In every state of a run, `ei_widget_pick` returns the last widget in pre-order that is shown
at the pixel**, unless the pixel is invalidated, or 2²⁴ widgets have been created. -/
theorem eiWidgetPick_of_run (hraster : Raster.CoversRects)
    (hsides : 0 < (Rect.ofSize window).halfSide) (hx : x ∈ Rect.ofSize window)
    (h : Launched window x s) (hrun : Relation.ReflTransGen (DisplayStep window x) s s')
    (hin : InsideAt s' x) (hle : s'.nextWidget ≤ 2 ^ 24)
    (hfresh : ¬ Covered s'.invalidatedRects x) :
    ∃ root r f q, s'.rootWidget = some root ∧ s'.widgets root = some r ∧
      Represents nodeLinks s'.nodes root r.childrenHead f ∧ LastHit s' x (root :: f.nodes) q ∧
      eiWidgetPick s' x = some (some q) := by
  obtain ⟨hscreen, hshown⟩ := screen_showsScene_of_steps hraster hsides hx h hrun
  have hscreen₀ := (h.screen_showsScene hraster hsides hx).1
  have hnum := numbered_of_steps hscreen₀ h.numbered
    (Relation.ReflTransGen.mono (fun _ _ hstep => hstep.screenStep) _ _ hrun)
  exact eiWidgetPick_of_showsScene hraster hscreen hsides hnum hle hin hx
    (hshown.resolve_left hfresh)

end Classes

section Sample

attribute [local instance] sampleHardware squareRaster sampleTextRendering

/-- The frame is created, placed and drawn. -/
theorem screen_of_run_placed : ∃ s, eiAppRunStart samplePlaced = some s ∧
    Screen ⟨640, 480⟩ s ∧ Numbered s := by
  obtain ⟨s, hdraw, -⟩ := samplePlaced_plain.exists_eiAppRunStart samplePlaced_screen
  exact ⟨s, hdraw, screen_of_run (eiAppCreate_sampleApp ⟨640, 480⟩) rfl rfl
    (.tail (Relation.ReflTransGen.mono (fun _ _ => Or.inl) _ _ steps_samplePlaced) (Or.inr hdraw))⟩

/-- A pixel of the frame. -/
theorem eiWidgetPick_of_run_placed : ∃ s root r f q, s.rootWidget = some root ∧
    s.widgets root = some r ∧ Represents nodeLinks s.nodes root r.childrenHead f ∧
    LastHit s ⟨50, 40⟩ (root :: f.nodes) q ∧ eiWidgetPick s ⟨50, 40⟩ = some (some q) := by
  obtain ⟨s, s', hlaunched, hrun, hplain, hnil, hnext⟩ := exists_redrawn ⟨50, 40⟩
  refine ⟨s', eiWidgetPick_of_run coversRects_square (by decide) (by decide) hlaunched hrun
    (hplain.insideAt staysInside_square _) (hnext.trans_le (by decide)) fun hcov => ?_⟩
  simp [Covered, hnil] at hcov

end Sample

end GuiLibrary

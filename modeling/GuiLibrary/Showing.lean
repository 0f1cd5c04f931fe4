import GuiLibrary.Screens

/-!
# The window shows the scene

After the initial draw of `ei_app_run`, every pixel of the window shows the scene or lies in an
invalidated rectangle, on both surfaces, whatever the program does: it may place, configure, unmap,
create and destroy widgets, invalidate rectangles and press buttons, in any order, and redraw in
between. So after a redraw the window shows the scene.

This holds pixel by pixel, for operations that meet their conditions (`DisplayOp.Allowed`), which
keep a screen. An operation must ask for what it changes at the pixel, the strips of `Missed`
included; the widgets must show in their extents only; and a redraw must cut the widgets cleanly
there.

## Main definitions

* `CallClean`, `RedrawClean`, `StartClean`: the calls cut the widgets cleanly at the pixel.
* `DisplayStep`: an operation that meets its conditions at the pixel.
* `ShowsScene`.
* `eiAppRunStart`, `Launched`: the first draw, and what leads to it.

## Main results

* `showsScene_step`, `showsScene_of_run`.
* `redraw_eq_of_covered`.
-/

namespace GuiLibrary

open Cells Pictures

section Classes

variable [Hardware] [Raster] [TextRendering]

/-! ### Clean steps -/

/-- The call draws what the widget shows in the whole window, cut at the clipper: the widget has
nothing at the pixel, or is cut cleanly there. -/
def CallClean (s : AppState) (window : Size) (x : Point) (call : Ptr × Rect) : Prop :=
  ∃ w, s.widgets call.1 = some w ∧ (drawingOf s call).isSome ∧ LabelFits s window call.1 w ∧
    (Untouched s call.1 w x ∨ CutsAt s window call.1 w call.2 x)

/-- A redraw cuts the widgets cleanly at the pixel. -/
def RedrawClean (s : AppState) (window : Size) (x : Point) : Prop :=
  ∀ root r f, s.rootWidget = some root → s.widgets root = some r →
    Represents nodeLinks s.nodes root r.childrenHead f →
      ∀ C ∈ s.invalidatedRects, ∀ call ∈ passCalls s.widgets root C f, CallClean s window x call

/-- The condition on an operation at the pixel: what it does not ask for is invalidated all the
same, a pressed button does not slip from under the pointer, and a redraw cuts cleanly. -/
def DisplayOp.CleanAt (window : Size) (x : Point) (s s' : AppState) : DisplayOp → Prop
  | widget op => StripsCovered op s s' x
  | create _ _ _ => True
  | destroy _ => ∀ q, s'.widgets q = none → OldBar (s.widgets q) none x →
      Covered s'.invalidatedRects x
  | invalidate _ => True
  | buttonDown event | buttonUp event | buttonMove event =>
      s'.buttonPressed ≠ s.buttonPressed → PressFollows s event x
  | redraw _ => RedrawClean s window x

/-- The state `s'` comes from `s` by an operation that meets its conditions at the pixel, and the
widgets show in their extents only. -/
def DisplayStep (window : Size) (x : Point) (s s' : AppState) : Prop :=
  ∃ op : DisplayOp, op.Allowed window s ∧ op.run s = some s' ∧ op.CleanAt window x s s' ∧
    InsideAt s x ∧ InsideAt s' x

/-- **The pixel shows the scene**, on both surfaces. -/
def ShowsScene (window : Size) (s : AppState) (x : Point) : Prop :=
  ∀ root r f π, s.rootWidget = some root → s.widgets root = some r →
    Represents nodeLinks s.nodes root r.childrenHead f → Current window s root f π x

section Step

variable {window : Size} {s s' : AppState} {x : Point}

theorem DisplayStep.screenStep (h : DisplayStep window x s s') : ScreenStep window s s' := by
  obtain ⟨op, hallowed, hrun, -⟩ := h
  exact ⟨op, hallowed, hrun⟩

omit [Hardware] [Raster] [TextRendering] in
/-- The calls of the loop on siblings are on live widgets, and their clippers lie in its clipper. -/
theorem of_mem_drawCalls {m : Ptr → Option Widget} (f : Forest Ptr) : ∀ {K C : Rect},
    K.Within C → ∀ call ∈ drawCalls m K f, (m call.1).isSome ∧ call.2.Within C := by
  induction f with
  | nil => simp [drawCalls]
  | cons q kids rest ihk ihr =>
    intro K C hK call hcall
    rw [drawCalls, List.mem_append] at hcall
    rcases hcall with hcall | hcall
    · split at hcall
      · simp at hcall
      · next w hw =>
        split_ifs at hcall
        · rcases List.mem_cons.mp hcall with rfl | hcall
          · exact ⟨by rw [hw]; rfl, hK⟩
          · split_ifs at hcall
            · simp at hcall
            · refine ihk ?_ call hcall
              simp only [Rect.Within, getEiRectIntersection] at hK ⊢
              omega
        · simp at hcall
    · exact ihr hK call hcall

omit [Hardware] [Raster] [TextRendering] in
theorem of_mem_passCalls {m : Ptr → Option Widget} {root : Ptr} {f : Forest Ptr} {C : Rect}
    {call : Ptr × Rect} (hroot : (m root).isSome) (h : call ∈ passCalls m root C f) :
    (m call.1).isSome ∧ call.2.Within C := by
  rw [passCalls, List.mem_cons] at h
  rcases h with rfl | h
  · exact ⟨hroot, .refl C⟩
  · split_ifs at h
    · simp at h
    · exact of_mem_drawCalls f (.refl C) call h

/-- A clean call draws what it should, on both planes. -/
theorem CallClean.drawsCut {call : Ptr × Rect} (h : CallClean s window x call)
    (hsizes : ∀ π, (s.surfaceOf π).size = window) (hK : call.2.Within (Rect.ofSize window))
    (hx : x ∈ Rect.ofSize window) (π : Plane) : DrawsCut s window π x call := by
  obtain ⟨q, K⟩ := call
  obtain ⟨w, hq, hd, hlabel, hcase⟩ := h
  cases π with
  | root => exact drawsCut_root hq hK (hsizes .root) hd hlabel hx hcase
  | pick => exact drawsCut_pick hq hK (hsizes .pick) hd hx (hcase.imp_right (·.clipped))

/-- The scene reads of the surfaces how their pixels are laid out. -/
theorem scene_of_onlySurfaces (h : OnlySurfaces { s with invalidatedRects := [] } s')
    (hlayout : ∀ π, SameLayout (s.surfaceOf π) (s'.surfaceOf π)) (π : Plane) :
    s'.scene window π = s.scene window π := by
  have heffects : effects (s'.surfaceOf π) = effects (s.surfaceOf π) := by
    funext primitives
    rw [effects, effects, Primitive.effect_congr (hlayout π).2]
  have hcall : ∀ call, callEffect s' π call = callEffect s π call := by
    intro call
    have hdrawing : drawingOf s' call = drawingOf s call := drawingOf_onlySurfaces h call
    rw [callEffect, callEffect, heffects, hdrawing]
  have hwidgets : s'.widgets = s.widgets := h.widgets_eq
  have hroot : s'.rootWidget = s.rootWidget := h.rootWidget_eq
  simp only [AppState.scene, hcall, hwidgets, hroot]

/-- **Announced changes keep the pixels up to date**: a pixel that is not invalidated afterwards
was not before, and its scene has not changed. -/
theorem showsScene_of_announces {keep : Ptr → Prop} [DecidablePred keep] (h : Screen window s)
    (ha : Announces x keep s s') (hin : InsideAt s x) (hin' : InsideAt s' x)
    (hshown : Covered s.invalidatedRects x ∨ ShowsScene window s x) :
    Covered s'.invalidatedRects x ∨ ShowsScene window s' x := by
  by_cases hcov : Covered s'.invalidatedRects x
  · exact Or.inl hcov
  · refine Or.inr fun root r' f' π hroot' hr' hf' v => ?_
    have hroot : s.rootWidget = some root := ha.rootWidget.symm.trans hroot'
    obtain ⟨root', r, a, hroot'', hr, -, hattrs, -⟩ := h.root
    obtain rfl := Option.some.inj (hroot.symm.trans hroot'')
    obtain ⟨f, hf⟩ := h.layout.wellFormed.exists_forest hr
    have hclip : r.Clipped := fun b hb => by simp [hattrs] at hb
    have hcurrent := hshown.resolve_left (fun hold => hcov (ha.damage hold)) root r f π hroot hr hf
    rw [ha.picture_eq hin hin' hroot hr hclip hr' hf hf' hcov π, ha.surfaces]
    exact hcurrent v

/-- A pixel of which drawing makes what it is in the scene shows the scene. -/
theorem Stage.showsScene {root : Ptr} {r : Widget} {f : Forest Ptr} (h : Stage window s root r f)
    (honly : OnlySurfaces { s with invalidatedRects := [] } s')
    (hlayout : ∀ π, SameLayout (s.surfaceOf π) (s'.surfaceOf π))
    (hpixel : ∀ π v, (s.scene window π).picture x (.cons root f .nil) v =
      (s'.surfaceOf π).pixel x) : ShowsScene window s' x := by
  intro root' r' f' π hroot hr hf v
  have hwidgets : s'.widgets = s.widgets := honly.widgets_eq
  have hrootWidget : s'.rootWidget = s.rootWidget := honly.rootWidget_eq
  have hnodes : s'.nodes = s.nodes := funext fun q => by
    rw [AppState.nodes, AppState.nodes, hwidgets]
  rw [hrootWidget, h.rootWidget, Option.some.injEq] at hroot
  subst hroot
  rw [hwidgets, h.root_live, Option.some.injEq] at hr
  subst hr
  rw [hnodes] at hf
  rw [hf.unique h.forest, scene_of_onlySurfaces honly hlayout, hpixel]

omit [Hardware] [Raster] [TextRendering] in
theorem RectsFit.within (h : RectsFit window s) {C : Rect} (hC : C ∈ s.invalidatedRects) :
    C.Within (Rect.ofSize window) := by
  have hin := h C hC
  simp only [Rect.InWindow, Rect.Within, Rect.ofSize] at hin ⊢
  omega

/-- A redraw that cuts the widgets cleanly paints the scene in its rectangles, and leaves the rest
alone. -/
theorem pixel_redraw (hraster : Raster.CoversRects) (h : Screen window s)
    (hsides : 0 < (Rect.ofSize window).halfSide) {fuel : ℕ}
    (hfuel : s.invalidatedRects.length < fuel) (hrun : redraw drawfuncOf fuel s = some s')
    (hx : x ∈ Rect.ofSize window) (hclean : RedrawClean s window x) :
    ∃ root r f, Stage window s root r f ∧ OnlySurfaces { s with invalidatedRects := [] } s' ∧
      (∀ π, SameLayout (s.surfaceOf π) (s'.surfaceOf π)) ∧ ∀ π,
        (Covered s.invalidatedRects x → ∀ v, (s'.surfaceOf π).pixel x =
          (s.scene window π).picture x (.cons root f .nil) v) ∧
        (¬ Covered s.invalidatedRects x →
          (s'.surfaceOf π).pixel x = (s.surfaceOf π).pixel x) := by
  obtain ⟨root, r, f, hstage⟩ := h.exists_stage hsides
  have hcalls := hclean root r f hstage.rootWidget hstage.root_live hstage.forest
  have hcan : CanRedraw s window root f := fun C hC => ⟨h.rects.within hC, fun call hcall => by
    obtain ⟨-, -, hd, -⟩ := hcalls C hC call hcall
    exact hd⟩
  have hlive : (s.widgets root).isSome := by rw [hstage.root_live]; rfl
  have hcut : ∀ π, RedrawsCut s window root f π x := fun π C hC call hcall =>
    (hcalls C hC call hcall).drawsCut h.sizes
      ((of_mem_passCalls hlive hcall).2.trans (h.rects.within hC)) hx π
  obtain ⟨t, ht, honly, hlayout, hpixel⟩ := hstage.redraw hcan hfuel
  obtain rfl := Option.some.inj (ht.symm.trans hrun)
  exact ⟨root, r, f, hstage, honly, hlayout, fun π => hpixel π x hraster hx (hcut π)⟩

theorem showsScene_of_redraw (hraster : Raster.CoversRects) (h : Screen window s)
    (hsides : 0 < (Rect.ofSize window).halfSide) {fuel : ℕ}
    (hfuel : s.invalidatedRects.length < fuel) (hrun : redraw drawfuncOf fuel s = some s')
    (hx : x ∈ Rect.ofSize window) (hclean : RedrawClean s window x) :
    (Covered s.invalidatedRects x → ShowsScene window s' x) ∧
      (ShowsScene window s x → ShowsScene window s' x) := by
  obtain ⟨root, r, f, hstage, honly, hlayout, hpixel⟩ :=
    pixel_redraw hraster h hsides hfuel hrun hx hclean
  have hcovered : Covered s.invalidatedRects x → ShowsScene window s' x := fun hcov =>
    hstage.showsScene honly hlayout fun π v => ((hpixel π).1 hcov v).symm
  refine ⟨hcovered, fun hshown => ?_⟩
  by_cases hcov : Covered s.invalidatedRects x
  · exact hcovered hcov
  · refine hstage.showsScene honly hlayout fun π v => ?_
    rw [(hpixel π).2 hcov]
    exact hshown root r f π hstage.rootWidget hstage.root_live hstage.forest v

/-- **A redraw depends on what its rectangles cover only**: not on their order, on how they overlap,
or on how they were merged. -/
theorem redraw_eq_of_covered (hraster : Raster.CoversRects) {t t' : AppState} {rects : List Rect}
    {fuel fuel' : ℕ} (h : Screen window s) (hsides : 0 < (Rect.ofSize window).halfSide)
    (hrects : ∀ C ∈ rects, C.InWindow window)
    (hcovers : Covered rects x ↔ Covered s.invalidatedRects x) (hx : x ∈ Rect.ofSize window)
    (hfuel : s.invalidatedRects.length < fuel) (hrun : redraw drawfuncOf fuel s = some t)
    (hclean : RedrawClean s window x) (hfuel' : rects.length < fuel')
    (hrun' : redraw drawfuncOf fuel' { s with invalidatedRects := rects } = some t')
    (hclean' : RedrawClean { s with invalidatedRects := rects } window x) :
    ∀ π, (t'.surfaceOf π).pixel x = (t.surfaceOf π).pixel x := by
  have h' : Screen window { s with invalidatedRects := rects } := h.withDamage hrects
  obtain ⟨root, r, f, hstage, -, -, hpixel⟩ := pixel_redraw hraster h hsides hfuel hrun hx hclean
  obtain ⟨root', r', f', hstage', -, -, hpixel'⟩ :=
    pixel_redraw hraster h' hsides hfuel' hrun' hx hclean'
  have hroot : s.rootWidget = some root' := hstage'.rootWidget
  have hr : s.widgets root' = some r' := hstage'.root_live
  have hf : Represents nodeLinks s.nodes root' r'.childrenHead f' := hstage'.forest
  obtain rfl := Option.some.inj (hroot.symm.trans hstage.rootWidget)
  obtain rfl := Option.some.inj (hr.symm.trans hstage.root_live)
  obtain rfl := hf.unique hstage.forest
  intro π
  have hsurface : ({ s with invalidatedRects := rects } : AppState).surfaceOf π =
      s.surfaceOf π := by cases π <;> rfl
  by_cases hcov : Covered s.invalidatedRects x
  · rw [(hpixel π).1 hcov 0, (hpixel' π).1 (hcovers.mpr hcov) 0]
    cases π <;> rfl
  · rw [(hpixel π).2 hcov, (hpixel' π).2 (hcov ∘ hcovers.mp), hsurface]

/-- **One step.** -/
theorem showsScene_step (hraster : Raster.CoversRects) (hsides : 0 < (Rect.ofSize window).halfSide)
    (hx : x ∈ Rect.ofSize window) (h : Screen window s) (hstep : DisplayStep window x s s')
    (hshown : Covered s.invalidatedRects x ∨ ShowsScene window s x) :
    Covered s'.invalidatedRects x ∨ ShowsScene window s' x := by
  obtain ⟨op, hallowed, hrun, hclean, hin, hin'⟩ := hstep
  have hs := h.layout.wellFormed
  have hwin := h.layout.hasWindow
  have hpress : ∀ {event} {shown : Ptr → Prop}, PressStep s event shown s' →
      PressKeeps window s shown →
      (s'.buttonPressed ≠ s.buttonPressed → PressFollows s event x) →
      Covered s'.invalidatedRects x ∨ ShowsScene window s' x := by
    intro event shown hstep hkeeps hfollows
    refine showsScene_of_announces h (hstep.announces hwin hkeeps (fun r w hr hw => ?_) h.pressed
      hfollows hx) hin hin' hshown
    obtain ⟨root, r', a, hroot, hr', -, ha, -⟩ := h.root
    obtain rfl := Option.some.inj (hr.symm.trans hroot)
    exact ⟨a, Option.some.inj (hw.symm.trans hr') ▸ ha⟩
  cases op with
  | widget op =>
    exact showsScene_of_announces h (h.consistent.announces (DamageOp.plain_of_keeps hallowed.1)
      hrun hx hclean) hin hin' hshown
  | create c parent destructor =>
    obtain ⟨wid, hrun⟩ := exists_of_map_fst hrun
    exact showsScene_of_announces h (announces_create hs hwin hallowed hrun x) hin hin' hshown
  | destroy p =>
    obtain ⟨bs, hl⟩ := h.bindings
    exact showsScene_of_announces h (announces_destroy hs h.rootFits hl hallowed hrun hx hclean)
      hin hin' hshown
  | invalidate rect =>
    obtain ⟨rect', hrun⟩ := exists_of_map_fst hrun
    rw [eiAppInvalidateRect_eq hwin, Option.some.injEq, Prod.mk.injEq] at hrun
    obtain ⟨rfl, -⟩ := hrun
    have ha : Announces x (fun _ => True) s (s.addDamage window rect) :=
      announces_of_widgets (fun π => by cases π <;> rfl) rfl rfl (.addDamage s window rect)
        fun _ _ => Iff.rfl
    exact showsScene_of_announces h ha hin hin' hshown
  | buttonDown event =>
    obtain ⟨processed, hrun⟩ := exists_of_map_fst hrun
    exact hpress (pressStep_of_buttonDown hrun) hallowed hclean
  | buttonUp event =>
    obtain ⟨processed, hrun⟩ := exists_of_map_fst hrun
    exact hpress (pressStep_of_buttonUp hrun) hallowed hclean
  | buttonMove event =>
    obtain ⟨processed, hrun⟩ := exists_of_map_fst hrun
    exact hpress (pressStep_of_buttonMove hrun) hallowed hclean
  | redraw fuel =>
    obtain ⟨hcovered, hkept⟩ := showsScene_of_redraw hraster h hsides hallowed hrun hx hclean
    exact Or.inr (hshown.elim hcovered hkept)

/-! ### Runs -/

omit [Raster] [TextRendering] in
theorem surfaces_eiAppCreate {rootSurface pickSurface : Surface}
    (h : eiAppCreate window rootSurface pickSurface = some s) :
    s.rootSurface = rootSurface ∧ s.pickSurface = pickSurface := by
  have hl₀ : HasBindings (unboundState window rootSurface pickSurface) [] :=
    ⟨rfl, by simp, fun _ _ => rfl⟩
  obtain ⟨s', l, hs', -, -, ho⟩ := foldlM_eiBind appBindings hl₀
  obtain rfl := Option.some.inj (h.symm.trans ((eiAppCreate_eq ..).trans hs'))
  rw [ho]
  exact ⟨rfl, rfl⟩

omit [Raster] [TextRendering] in
/-- The application starts with a screen. -/
theorem screen_eiAppCreate {rootSurface pickSurface : Surface}
    (h : eiAppCreate window rootSurface pickSurface = some s) (hroot : rootSurface.size = window)
    (hpick : pickSurface.size = window) : Screen window s := by
  have hstart := Started.of_eq h
  obtain ⟨hrs, hps⟩ := surfaces_eiAppCreate h
  obtain ⟨l, hl, -⟩ := hstart.bindings
  have hroot' : s.widgets 0 = some (startedRoot window) := by
    rw [hstart.widgets, Function.update_self]
  refine ⟨hstart.layoutInvariant, ⟨l, hl⟩, ⟨0, startedRoot window, _, hstart.rootWidget, hroot',
    rfl, rfl, ⟨rfl, rfl⟩⟩, fun q r hq hr => ?_, fun q w hw hne _ => ?_, fun q hq => ?_, fun π => ?_,
    ?_⟩
  · obtain rfl := Option.some.inj (hq.symm.trans hstart.rootWidget)
    rw [← Option.some.inj (hroot'.symm.trans hr)]
    exact alpha_pickColorOf 0
  · obtain ⟨rfl, -⟩ := hstart.eq_zero (AppState.nodes_of_widgets hw)
    exact absurd hstart.rootWidget hne
  · rw [hstart.buttonPressed] at hq
    exact absurd hq (by simp)
  · cases π
    · exact (congrArg Surface.size hrs).trans hroot
    · exact (congrArg Surface.size hps).trans hpick
  · simp [RectsFit, hstart.invalidatedRects]

/-- What `ei_app_run` does before its loop: the first draw, after which the list is freed. -/
def eiAppRunStart (s : AppState) : Option AppState :=
  (initialDrawWith drawfuncOf s).map fun s => { s with invalidatedRects := [] }

/-- The first draw cuts the widgets cleanly at the pixel. -/
def StartClean (s : AppState) (window : Size) (x : Point) : Prop :=
  ∀ root r f, s.rootWidget = some root → s.widgets root = some r →
    Represents nodeLinks s.nodes root r.childrenHead f →
      ∀ call ∈ fullCalls s.widgets root r f, CallClean s window x call

/-- The first draw draws on the surfaces only. -/
theorem drawn_of_eiAppRunStart (h : Screen window s) (hrun : eiAppRunStart s = some s') :
    OnlySurfaces { s with invalidatedRects := [] } s' ∧
      ∀ π, SameLayout (s.surfaceOf π) (s'.surfaceOf π) := by
  obtain ⟨t, ht, rfl⟩ := Option.map_eq_some_iff.mp hrun
  obtain ⟨root, r, a, hroot, hr, -⟩ := h.root
  obtain ⟨f, hf⟩ := h.layout.wellFormed.exists_forest hr
  rw [initialDrawWith_eq drawfuncOf_drawsOnly h.layout.wellFormed h.layout.located.upToDate hroot hr
    hf, runCalls_drawfuncOf _ (.refl s), Option.map_eq_some_iff] at ht
  obtain ⟨ds, -, rfl⟩ := ht
  refine ⟨rfl, fun π => ?_⟩
  have hsurface : ({ s.drawn ds with invalidatedRects := [] } : AppState).surfaceOf π =
      (s.drawn ds).surfaceOf π := by cases π <;> rfl
  rw [hsurface]
  exact sameLayout_drawn s ds π

theorem screen_eiAppRunStart (h : Screen window s) (hrun : eiAppRunStart s = some s') :
    Screen window s' := by
  obtain ⟨honly, hlayout⟩ := drawn_of_eiAppRunStart h hrun
  exact h.clearDamage.onlySurfaces honly fun π => by
    rw [(hlayout π).1]
    cases π <;> rfl

/-- **The first draw shows the scene** where it cuts the widgets cleanly. -/
theorem showsScene_of_eiAppRunStart (hraster : Raster.CoversRects) (h : Screen window s)
    (hsides : 0 < (Rect.ofSize window).halfSide) (hrun : eiAppRunStart s = some s')
    (hx : x ∈ Rect.ofSize window) (hclean : StartClean s window x) : ShowsScene window s' x := by
  obtain ⟨root, r, f, hstage⟩ := h.exists_stage hsides
  obtain ⟨honly, hlayout⟩ := drawn_of_eiAppRunStart h hrun
  obtain ⟨t, ht, rfl⟩ := Option.map_eq_some_iff.mp hrun
  refine hstage.showsScene honly hlayout fun π v => ?_
  have hlive : (s.widgets root).isSome := by rw [hstage.root_live]; rfl
  have hcut : ∀ call ∈ fullCalls s.widgets root r f, DrawsCut s window π x call :=
    fun call hcall =>
      (hclean root r f hstage.rootWidget hstage.root_live hstage.forest call hcall).drawsCut
        h.sizes (hstage.content ▸ (of_mem_passCalls hlive hcall).2) hx π
  have hsurface : ({ t with invalidatedRects := [] } : AppState).surfaceOf π = t.surfaceOf π := by
    cases π <;> rfl
  rw [hsurface, hstage.initialDraw_eq hx hcut ht]
  exact hstage.picture_eq hraster hx _ _

/-- A run of an application until its loop: it is created with two surfaces of the size of the
window, operated on, and drawn for the first time. -/
inductive Launched (window : Size) (x : Point) : AppState → Prop
  | intro {rootSurface pickSurface : Surface} {s₀ s₁ s₂ : AppState}
      (hroot : rootSurface.size = window) (hpick : pickSurface.size = window)
      (hcreate : eiAppCreate window rootSurface pickSurface = some s₀)
      (hops : Relation.ReflTransGen (ScreenStep window) s₀ s₁)
      (hclean : StartClean s₁ window x) (hdraw : eiAppRunStart s₁ = some s₂) : Launched window x s₂

theorem screen_of_steps (h : Screen window s)
    (hrun : Relation.ReflTransGen (ScreenStep window) s s') : Screen window s' := by
  induction hrun with
  | refl => exact h
  | tail _ hstep ih => exact ih.step hstep

/-- A step of an application: an operation, or the first draw. -/
def AppStep (window : Size) (s s' : AppState) : Prop :=
  ScreenStep window s s' ∨ eiAppRunStart s = some s'

theorem Screen.appStep (h : Screen window s) (hstep : AppStep window s s') : Screen window s' :=
  hstep.elim h.step (screen_eiAppRunStart h)

theorem Launched.screen_showsScene (hraster : Raster.CoversRects)
    (hsides : 0 < (Rect.ofSize window).halfSide) (hx : x ∈ Rect.ofSize window)
    (h : Launched window x s) : Screen window s ∧ ShowsScene window s x := by
  obtain ⟨hroot, hpick, hcreate, hops, hclean, hdraw⟩ := h
  have h₁ := screen_of_steps (screen_eiAppCreate hcreate hroot hpick) hops
  exact ⟨screen_eiAppRunStart h₁ hdraw, showsScene_of_eiAppRunStart hraster h₁ hsides hdraw hx
    hclean⟩

/-- What the loop keeps: the state is a screen, and a pixel that is not invalidated shows the
scene. -/
theorem screen_showsScene_of_steps (hraster : Raster.CoversRects)
    (hsides : 0 < (Rect.ofSize window).halfSide) (hx : x ∈ Rect.ofSize window)
    (h : Launched window x s) (hrun : Relation.ReflTransGen (DisplayStep window x) s s') :
    Screen window s' ∧ (Covered s'.invalidatedRects x ∨ ShowsScene window s' x) := by
  induction hrun with
  | refl => exact (h.screen_showsScene hraster hsides hx).imp_right Or.inr
  | tail _ hstep ih =>
    exact ⟨ih.1.step hstep.screenStep, showsScene_step hraster hsides hx ih.1 hstep ih.2⟩

/-- **In every state of a run, a pixel that is not invalidated shows the scene**, on both surfaces;
and a redraw leaves it showing the scene, invalidated or not. -/
theorem showsScene_of_run (hraster : Raster.CoversRects)
    (hsides : 0 < (Rect.ofSize window).halfSide) (hx : x ∈ Rect.ofSize window)
    (h : Launched window x s) (hrun : Relation.ReflTransGen (DisplayStep window x) s s') :
    (¬ Covered s'.invalidatedRects x → ShowsScene window s' x) ∧
      ∀ fuel t, s'.invalidatedRects.length < fuel → RedrawClean s' window x →
        redraw drawfuncOf fuel s' = some t → ShowsScene window t x := by
  obtain ⟨hscreen, hshown⟩ := screen_showsScene_of_steps hraster hsides hx h hrun
  refine ⟨hshown.resolve_left, fun fuel t hfuel hclean hredraw => ?_⟩
  obtain ⟨hcovered, hkept⟩ :=
    showsScene_of_redraw hraster hscreen hsides hfuel hredraw hx hclean
  exact hshown.elim hcovered hkept

end Step

/-! ### Plain frames -/

/-- A frame without border and without label, whose content area is its location. -/
def PlainFrame (w : Widget) : Prop :=
  match w.attrs with
  | .frame a => a.borderWidth = 0 ∧ a.text = none ∧ a.img = none ∧ w.content = w.screenLocation
  | .button _ | .toplevel _ => False

instance (w : Widget) : Decidable (PlainFrame w) :=
  match h : w.attrs with
  | .frame a =>
      decidable_of_iff (a.borderWidth = 0 ∧ a.text = none ∧ a.img = none ∧
        w.content = w.screenLocation) (by rw [PlainFrame, h])
  | .button _ | .toplevel _ => isFalse (by rw [PlainFrame, h]; exact id)

/-- All the widgets are plain frames. -/
def AllPlain (s : AppState) : Prop := ∀ q w, s.widgets q = some w → PlainFrame w

namespace PlainFrame

variable {w : Widget}

omit [Hardware] [Raster] [TextRendering] in
theorem exists_attrs (h : PlainFrame w) : ∃ a, w.attrs = .frame a ∧ a.borderWidth = 0 ∧
    a.text = none ∧ a.img = none ∧ w.content = w.screenLocation := by
  rw [PlainFrame] at h
  split at h
  · next a ha => exact ⟨a, ha, h⟩
  · exact absurd h id
  · exact absurd h id

omit [Hardware] [Raster] [TextRendering] in
theorem clipped (h : PlainFrame w) : w.Clipped := by
  obtain ⟨a, ha, -⟩ := h.exists_attrs
  intro b hb
  simp [ha] at hb

omit [Hardware] [Raster] [TextRendering] in
theorem neat (h : PlainFrame w) : w.Neat := by
  obtain ⟨a, ha, hb, -, -, hcontent⟩ := h.exists_attrs
  refine ⟨?_, h.clipped, fun b hb' => ?_, fun b hb' => by simp [ha] at hb',
    by simp [cornerRadiusOf, ha]⟩
  · simp [Widget.Agrees, ha, hb, hcontent]
  · simp only [ha, Attrs.labelled, Option.some.injEq] at hb'
    exact (hb' ▸ hb).ge

end PlainFrame

namespace AllPlain

variable {s s' : AppState} {window : Size} {x : Point}

omit [Hardware] [Raster] [TextRendering] in
theorem of_widgets (h : AllPlain s) (hwidgets : s'.widgets = s.widgets) : AllPlain s' :=
  fun q w hw => h q w (hwidgets ▸ hw)

theorem insideAt (h : AllPlain s) (hraster : Raster.StaysInside) (x : Point) : InsideAt s x :=
  insideAt_of_neat hraster (fun q w hw _ => (h q w hw).neat) x

/-- Every call cuts them cleanly. -/
theorem callClean (h : AllPlain s) (hraster : Raster.CoversRects) {call : Ptr × Rect}
    (hlive : (s.widgets call.1).isSome) : CallClean s window x call := by
  obtain ⟨w, hw⟩ := Option.isSome_iff_exists.mp hlive
  obtain ⟨a, ha, hb, ht, hi, -⟩ := (h _ _ hw).exists_attrs
  have hlabel : ∀ a' label, w.attrs.labelled = some a' →
      labelRect s call.1 w a' ≠ some label := by
    intro a' label ha'
    simp only [ha, Attrs.labelled, Option.some.injEq] at ha'
    simp [labelRect, ← ha', ht, hi]
  refine ⟨w, hw, ?_, fun _ K y hpaints => ?_, Or.inr (.of_cutsCleanly ?_ hraster)⟩
  · simp only [drawingOf, hw, Option.bind_eq_bind, Option.bind_some,
      drawing_of_clipped (h _ _ hw).clipped, Option.isSome_some]
  · obtain ⟨a', label, ha', hl, -⟩ := hpaints
    exact absurd hl (hlabel a' label ha')
  · refine ⟨(h _ _ hw).clipped, ?_, ?_, ?_, ?_⟩
    all_goals
      simp only [ha, Attrs.labelled, Option.some.injEq, forall_eq', hb, ht, hi, ne_eq,
        not_true_eq_false, false_imp_iff, implies_true]

theorem startClean (h : AllPlain s) (hraster : Raster.CoversRects) : StartClean s window x :=
  fun _ _ _ _ hr _ _ hcall => h.callClean hraster
    (of_mem_passCalls (by rw [hr]; rfl) hcall).1

theorem redrawClean (h : AllPlain s) (hraster : Raster.CoversRects) : RedrawClean s window x :=
  fun _ _ _ _ hr _ _ _ _ hcall => h.callClean hraster
    (of_mem_passCalls (by rw [hr]; rfl) hcall).1

/-- The first draw completes. -/
theorem exists_eiAppRunStart (h : AllPlain s) (hs : Screen window s) :
    ∃ s', eiAppRunStart s = some s' ∧ OnlySurfaces { s with invalidatedRects := [] } s' := by
  obtain ⟨root, r, a, hroot, hr, -⟩ := hs.root
  obtain ⟨f, hf⟩ := hs.layout.wellFormed.exists_forest hr
  obtain ⟨ds, -, hdraw⟩ :=
    exists_initialDraw hs.layout.wellFormed hs.layout.located.upToDate hroot hr
    hf fun q w b hw hb hno => by
      rw [(h q w hw).clipped b hb] at hno
      simp at hno
  exact ⟨{ s.drawn ds with invalidatedRects := [] }, by rw [eiAppRunStart, hdraw]; rfl, rfl⟩

/-- A redraw completes. -/
theorem exists_redraw (h : AllPlain s) (hraster : Raster.CoversRects) (hs : Screen window s)
    (hsides : 0 < (Rect.ofSize window).halfSide) {fuel : ℕ}
    (hfuel : s.invalidatedRects.length < fuel) : ∃ s', redraw drawfuncOf fuel s = some s' ∧
      OnlySurfaces { s with invalidatedRects := [] } s' := by
  obtain ⟨root, r, f, hstage⟩ := hs.exists_stage hsides
  have hcan : CanRedraw s window root f := by
    refine fun C hC => ⟨hs.rects.within hC, fun call hcall => ?_⟩
    obtain ⟨w, -, hd, -⟩ : CallClean s window ⟨0, 0⟩ call := h.callClean hraster
      (of_mem_passCalls (by rw [hstage.root_live]; rfl) hcall).1
    exact hd
  obtain ⟨t, ht, honly, -⟩ := hstage.redraw hcan hfuel
  exact ⟨t, ht, honly⟩

end AllPlain

end Classes

/-! ### A frame in a window -/

section Sample

attribute [local instance] sampleHardware squareRaster sampleTextRendering

theorem samplePlaced_plain : AllPlain samplePlaced := by
  intro q w hw
  have hplain : (samplePlaced.widgets 0).map (fun w => decide (PlainFrame w)) = some true ∧
      (samplePlaced.widgets 1).map (fun w => decide (PlainFrame w)) = some true := by
    decide +kernel
  rcases samplePlaced_cases hw with rfl | rfl
  · rw [hw, Option.map_some, Option.some.injEq, decide_eq_true_eq] at hplain
    exact hplain.1
  · rw [hw, Option.map_some, Option.some.injEq, decide_eq_true_eq] at hplain
    exact hplain.2

/-- The frame is created and placed. -/
theorem steps_samplePlaced :
    Relation.ReflTransGen (ScreenStep ⟨640, 480⟩) (sampleApp ⟨640, 480⟩) samplePlaced := by
  have h : createPlaced = some samplePlaced := (Option.some_get _).symm
  rw [createPlaced, eiWidgetCreate_sampleFrame, Option.bind_eq_bind, Option.bind_some] at h
  refine .tail (.single ⟨.create .frame 0 none, sampleApp_live ⟨640, 480⟩, ?_⟩)
    ⟨.widget (.place 1 _), ⟨sampleFrame_keeps (by with_unfolding_all rfl), trivial⟩, h⟩
  rw [DisplayOp.run, eiWidgetCreate_sampleFrame]
  rfl

theorem samplePlaced_screen : Screen ⟨640, 480⟩ samplePlaced :=
  screen_of_steps (screen_eiAppCreate (eiAppCreate_sampleApp ⟨640, 480⟩) rfl rfl)
    steps_samplePlaced

/-- The window is drawn; then a rectangle is invalidated, and the window is redrawn. -/
theorem exists_redrawn (x : Point) : ∃ s s', Launched ⟨640, 480⟩ x s ∧
    Relation.ReflTransGen (DisplayStep ⟨640, 480⟩ x) s s' ∧ AllPlain s' ∧
      s'.invalidatedRects = [] ∧ s'.nextWidget = 2 := by
  obtain ⟨s, hdraw, honly⟩ := samplePlaced_plain.exists_eiAppRunStart samplePlaced_screen
  have hlaunched : Launched ⟨640, 480⟩ x s := .intro rfl rfl (eiAppCreate_sampleApp ⟨640, 480⟩)
    steps_samplePlaced (samplePlaced_plain.startClean coversRects_square) hdraw
  have hscreen := screen_eiAppRunStart samplePlaced_screen hdraw
  have hplain : AllPlain s := samplePlaced_plain.of_widgets honly.widgets_eq
  let rect : Rect := ⟨⟨5, 15⟩, ⟨20, 20⟩⟩
  have hplain₁ : AllPlain (s.addDamage ⟨640, 480⟩ rect) := hplain
  have hlength : (s.addDamage ⟨640, 480⟩ rect).invalidatedRects.length = 1 := by
    rw [honly]
    rfl
  obtain ⟨t, hredraw, honly'⟩ := hplain₁.exists_redraw coversRects_square
    (hscreen.addDamage rect) (by decide) (hlength.trans_lt Nat.one_lt_two)
  have hplain₂ : AllPlain t := hplain₁.of_widgets honly'.widgets_eq
  have hnext : t.nextWidget = samplePlaced.nextWidget := by
    rw [honly', honly]
    rfl
  refine ⟨s, t, hlaunched, .tail (.single ⟨.invalidate rect, trivial, ?_, trivial,
    hplain.insideAt staysInside_square x, hplain₁.insideAt staysInside_square x⟩)
    ⟨.redraw 2, hlength.trans_lt (by decide), hredraw, hplain₁.redrawClean coversRects_square,
      hplain₁.insideAt staysInside_square x, hplain₂.insideAt staysInside_square x⟩, hplain₂,
    by rw [honly'], hnext.trans (by with_unfolding_all rfl)⟩
  rw [DisplayOp.run, eiAppInvalidateRect_eq hscreen.layout.hasWindow]
  rfl

/-- A pixel of the frame. -/
theorem showsScene_of_run_placed : ∃ s s', Launched ⟨640, 480⟩ ⟨50, 40⟩ s ∧
    Relation.ReflTransGen (DisplayStep ⟨640, 480⟩ ⟨50, 40⟩) s s' ∧
    (¬ Covered s'.invalidatedRects ⟨50, 40⟩ → ShowsScene ⟨640, 480⟩ s' ⟨50, 40⟩) ∧
      ∀ fuel t, s'.invalidatedRects.length < fuel → RedrawClean s' ⟨640, 480⟩ ⟨50, 40⟩ →
        redraw drawfuncOf fuel s' = some t → ShowsScene ⟨640, 480⟩ t ⟨50, 40⟩ := by
  obtain ⟨s, s', hlaunched, hrun, -⟩ := exists_redrawn ⟨50, 40⟩
  exact ⟨s, s', hlaunched, hrun,
    showsScene_of_run coversRects_square (by decide) (by decide) hlaunched hrun⟩

/-- One rectangle, and two that overlap and cover the same. -/
theorem redraw_eq_of_covered_placed : ∃ s t t', Screen ⟨640, 480⟩ s ∧
    s.invalidatedRects = [⟨⟨0, 0⟩, ⟨100, 100⟩⟩] ∧ redraw drawfuncOf 2 s = some t ∧
    redraw drawfuncOf 3 { s with invalidatedRects :=
      [⟨⟨60, 0⟩, ⟨40, 100⟩⟩, ⟨⟨0, 0⟩, ⟨70, 100⟩⟩] } = some t' ∧
    ∀ π, (t'.surfaceOf π).pixel ⟨50, 40⟩ = (t.surfaceOf π).pixel ⟨50, 40⟩ := by
  let s : AppState := { samplePlaced with invalidatedRects := [⟨⟨0, 0⟩, ⟨100, 100⟩⟩] }
  let rects : List Rect := [⟨⟨60, 0⟩, ⟨40, 100⟩⟩, ⟨⟨0, 0⟩, ⟨70, 100⟩⟩]
  have hscreen : Screen ⟨640, 480⟩ s := samplePlaced_screen.withDamage (by decide)
  have hscreen' : Screen ⟨640, 480⟩ { s with invalidatedRects := rects } :=
    samplePlaced_screen.withDamage (by decide)
  have hplain : AllPlain s := samplePlaced_plain
  have hplain' : AllPlain { s with invalidatedRects := rects } := samplePlaced_plain
  obtain ⟨t, ht, -⟩ := hplain.exists_redraw coversRects_square hscreen (by decide)
    (by decide : _ < 2)
  obtain ⟨t', ht', -⟩ := hplain'.exists_redraw coversRects_square hscreen' (by decide)
    (by decide : _ < 3)
  have hcovers : Covered rects ⟨50, 40⟩ ↔ Covered s.invalidatedRects ⟨50, 40⟩ :=
    iff_of_true ⟨⟨⟨0, 0⟩, ⟨70, 100⟩⟩, by decide, by decide⟩
      ⟨⟨⟨0, 0⟩, ⟨100, 100⟩⟩, List.mem_singleton_self _, by decide⟩
  exact ⟨s, t, t', hscreen, rfl, ht, ht', redraw_eq_of_covered coversRects_square hscreen
    (by decide) (by decide) hcovers (by decide) (by decide) ht
    (hplain.redrawClean coversRects_square) (by decide) ht'
    (hplain'.redrawClean coversRects_square)⟩

end Sample

end GuiLibrary

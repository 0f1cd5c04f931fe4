import GuiLibrary.Data.Scene
import GuiLibrary.PartialRedraw
import GuiLibrary.Repainting

/-!
# What the window shows

What an application should show is a scene on the tree of its widgets: each mapped widget is drawn
as if it had the whole window to itself, cut at the content areas of its ancestors, parents before
children and siblings in order. The scene has two planes, the colours of the window and the pick
colours of the hidden surface.

The program draws call by call, each call with a clipper. Where the calls of a pass cut their
widgets cleanly, a pass over a rectangle shows the scene inside the rectangle and leaves the rest
alone; so does a redraw inside its rectangles, in any order and however they overlap, since the root
hides what was there before.

## Main definitions

* `Plane`, `AppState.surfaceOf`, `callEffect`, `AppState.scene`.
* `DrawsCut`: a call draws what the widget shows in the whole window, cut at its clipper.
* `Stage`: an application whose root covers the window.
* `Current`: the pixel of the plane is that of the scene.

## Main results

* `seq_passCalls`: the calls of a pass make the picture of the scene.
* `Stage.initialDraw_eq`, `Stage.redraw`: the pixels after a full draw and after a redraw.
-/

namespace GuiLibrary

open Cells Pictures

/-- The two surfaces that a widget is drawn on. -/
inductive Plane where
  | root
  | pick

/-- The surface of the plane. -/
def AppState.surfaceOf (s : AppState) : Plane → Surface
  | .root => s.rootSurface
  | .pick => s.pickSurface

/-- The primitives on the surface of the plane. -/
def Drawing.primitivesOn (d : Drawing) : Plane → List Primitive
  | .root => d.surface
  | .pick => d.pickSurface

section Classes

variable [Hardware] [Raster] [TextRendering]

/-- What the call of a drawing function makes of the pixels of the plane. -/
def callEffect (s : AppState) (π : Plane) (call : Ptr × Rect) : Effect Point (BitVec 32) :=
  effects (s.surfaceOf π) ((drawingOf s call).elim [] (Drawing.primitivesOn · π))

/-- **What the application should show** in a window: the root and the mapped widgets, each drawn
as in the whole window, and its children in its content area. -/
def AppState.scene (s : AppState) (window : Size) (π : Plane) : Scene Ptr Point (BitVec 32) where
  shown q := s.rootWidget = some q ∨ IsMapped (s.widgets q)
  area q := {x | ∃ w, s.widgets q = some w ∧ x ∈ w.content}
  effect q := callEffect s π (q, Rect.ofSize window)

/-- The call completes, stays in the surface, and draws at the pixel what the widget shows in the
whole window, cut at the clipper. -/
structure DrawsCut (s : AppState) (window : Size) (π : Plane) (x : Point) (call : Ptr × Rect) :
    Prop where
  fits : ∃ d, drawingOf s call = some d ∧
    ∀ primitive ∈ d.primitivesOn π, primitive.Fits (s.surfaceOf π).size
  cut : callEffect s π call x =
    if x ∈ call.2 then callEffect s π (call.1, Rect.ofSize window) x else id

/-! ### The calls of a pass -/

section Calls

variable {s : AppState} {window : Size} {π : Plane} {x : Point}

/-- The calls of the loop on siblings show the scene inside the clipper. -/
theorem seq_drawCalls (f : Forest Ptr) : ∀ {K : Rect}, (∀ q ∈ f.nodes, s.rootWidget ≠ some q) →
    (∀ call ∈ drawCalls s.widgets K f, DrawsCut s window π x call) →
    seq ((drawCalls s.widgets K f).map (callEffect s π)) x =
      if x ∈ K then (s.scene window π).picture x f else id := by
  classical
  induction f with
  | nil =>
    intro K _ _
    simp [drawCalls]
  | cons q kids rest ihk ihr =>
    intro K hroot hcut
    simp only [Forest.nodes_cons, List.forall_mem_cons, List.forall_mem_append] at hroot
    obtain ⟨hq, hrootk, hrootr⟩ := hroot
    rw [drawCalls] at hcut ⊢
    simp only [List.forall_mem_append] at hcut
    have hrest := ihr hrootr hcut.2
    rw [List.map_append, seq_append, hrest]
    have hshown : (s.scene window π).shown q ↔ IsMapped (s.widgets q) := or_iff_right hq
    cases hw : s.widgets q with
    | none =>
      have hnot : ¬ (s.scene window π).shown q := by rw [hshown, hw]; simp [IsMapped]
      simp only [List.map_nil, seq_nil, Function.comp_id]
      rw [Scene.picture, if_neg hnot, Function.comp_id]
    | some w =>
      rw [hw] at hshown hcut
      by_cases hmapped : w.geomParams.isSome
      · have harea : x ∈ (s.scene window π).area q ↔ x ∈ w.content := by
          simp [AppState.scene, hw]
        simp only [if_pos hmapped, List.forall_mem_cons] at hcut ⊢
        have hkids : seq ((if (getEiRectIntersection K w.content).Negative then []
            else drawCalls s.widgets (getEiRectIntersection K w.content) kids).map
              (callEffect s π)) x =
            if x ∈ getEiRectIntersection K w.content then (s.scene window π).picture x kids
            else id := by
          split_ifs with hneg hx hx
          · exact absurd hx (notMem_of_negative hneg)
          · rfl
          all_goals
            have hk := ihk hrootk (by simpa only [if_neg hneg] using hcut.1.2)
            simpa only [hx, if_true, if_false] using hk
        rw [List.map_cons, seq_cons, hkids, hcut.1.1.cut, Scene.picture,
          if_pos (hshown.mpr hmapped)]
        simp only [mem_getEiRectIntersection, harea]
        by_cases hK : x ∈ K
        · by_cases hc : x ∈ w.content
          · simp only [hK, hc, and_self, if_true]
            rfl
          · simp only [hK, hc, and_false, if_true, if_false]
            rfl
        · simp only [hK, false_and, if_false, Function.comp_id]
      · have hnot : ¬ (s.scene window π).shown q := by rwa [hshown, isMapped_some]
        simp only [if_neg hmapped, List.map_nil, seq_nil, Function.comp_id]
        rw [Scene.picture, if_neg hnot, Function.comp_id]

/-- **The calls of a pass show the scene inside the rectangle**, when it lies in the content area of
the root. -/
theorem seq_passCalls {root : Ptr} {r : Widget} {C : Rect} {f : Forest Ptr}
    (hroot : s.rootWidget = some root) (hr : s.widgets root = some r) (hC : C.Within r.content)
    (hne : ∀ q ∈ f.nodes, s.rootWidget ≠ some q)
    (hcut : ∀ call ∈ passCalls s.widgets root C f, DrawsCut s window π x call) :
    seq ((passCalls s.widgets root C f).map (callEffect s π)) x =
      if x ∈ C then (s.scene window π).picture x (.cons root f .nil) else id := by
  classical
  rw [passCalls, List.forall_mem_cons] at hcut
  obtain ⟨hfirst, hkids⟩ := hcut
  have hbelow : seq ((if C.Negative then [] else drawCalls s.widgets C f).map (callEffect s π)) x =
      if x ∈ C then (s.scene window π).picture x f else id := by
    split_ifs with hneg hx hx
    · exact absurd hx (notMem_of_negative hneg)
    · rfl
    all_goals
      have hk := seq_drawCalls f hne (by simpa only [if_neg hneg] using hkids)
      simpa only [hx, if_true, if_false] using hk
  rw [passCalls, List.map_cons, seq_cons, hbelow, hfirst.cut]
  by_cases hx : x ∈ C
  · have harea : x ∈ (s.scene window π).area root := by
      refine ⟨r, hr, ?_⟩
      simp only [Rect.Within, Rect.mem_iff] at hC hx ⊢
      omega
    have hshown : (s.scene window π).shown root := Or.inl hroot
    simp only [if_pos hx, Scene.picture, if_pos hshown, if_pos harea,
      Function.id_comp]
    rfl
  · simp only [if_neg hx, Function.comp_id]

end Calls

/-! ### A window and its pixels -/

/-- An application whose root is a frame without border that covers the window, in opaque colours:
its widgets are where they should be, and both surfaces are as large as the window. -/
structure Stage (window : Size) (s : AppState) (root : Ptr) (r : Widget) (f : Forest Ptr) :
    Prop where
  wellFormed : WellFormed s
  upToDate : UpToDate s
  rootWidget : s.rootWidget = some root
  root_live : s.widgets root = some r
  forest : Represents nodeLinks s.nodes root r.childrenHead f
  plain : ∃ a, r.attrs = .frame a ∧ a.Backdrop
  pickColor : r.pickColor.alpha = 255
  location : r.screenLocation = Rect.ofSize window
  content : r.content = Rect.ofSize window
  sizes : ∀ π, (s.surfaceOf π).size = window
  sides : 0 < (Rect.ofSize window).halfSide

/-- The pixel of the plane is that of the scene, whatever was there before. -/
def Current (window : Size) (s : AppState) (root : Ptr) (f : Forest Ptr) (π : Plane) (x : Point) :
    Prop :=
  ∀ v, (s.scene window π).picture x (.cons root f .nil) v = (s.surfaceOf π).pixel x

section Stage

variable {s t : AppState} {window : Size} {root : Ptr} {r : Widget} {f : Forest Ptr} {π : Plane}
  {x : Point} {C : Rect}

omit [Hardware] [Raster] [TextRendering] in
theorem Rect.Within.refl (r : Rect) : r.Within r := by
  simp only [Rect.Within]
  omega

omit [Hardware] [Raster] [TextRendering] in
theorem Rect.Within.trans {r₁ r₂ r₃ : Rect} (h : r₁.Within r₂) (h' : r₂.Within r₃) :
    r₁.Within r₃ := by
  simp only [Rect.Within] at h h' ⊢
  omega

omit [Hardware] [Raster] [TextRendering] in
theorem SameLayout.trans {a b c : Surface} (h : SameLayout a b) (h' : SameLayout b c) :
    SameLayout a c := ⟨h'.1.trans h.1, h'.2.trans h.2⟩

omit [Hardware] [TextRendering] in
theorem surfaceOf_drawn (t : AppState) (ds : List Drawing) (π : Plane) :
    (t.drawn ds).surfaceOf π =
      runPrimitives (ds.flatMap (Drawing.primitivesOn · π)) (t.surfaceOf π) := by
  cases π <;> rfl

/-- What the drawings of some calls run on a plane. -/
theorem primitives_of_mapM : ∀ {calls : List (Ptr × Rect)} {ds : List Drawing},
    calls.mapM (drawingOf s) = some ds → ds.flatMap (Drawing.primitivesOn · π) =
      calls.flatMap fun call => (drawingOf s call).elim [] (Drawing.primitivesOn · π) := by
  intro calls
  induction calls with
  | nil =>
    intro ds hds
    obtain rfl : [] = ds := Option.some.inj hds
    rfl
  | cons call calls ih =>
    intro ds hds
    simp only [List.mapM_cons, Option.bind_eq_bind, Option.bind_eq_some_iff] at hds
    obtain ⟨d, hd, ds', hds', heq⟩ := hds
    obtain rfl : d :: ds' = ds := Option.some.inj heq
    rw [List.flatMap_cons, List.flatMap_cons, hd, Option.elim_some, ih hds']

/-- **The pixels after some calls**: the effects of the calls on the pixel before. -/
theorem pixel_drawn {calls : List (Ptr × Rect)} {ds : List Drawing}
    (hds : calls.mapM (drawingOf s) = some ds)
    (hcut : ∀ call ∈ calls, DrawsCut s window π x call)
    (hlayout : SameLayout (s.surfaceOf π) (t.surfaceOf π))
    (hx : x ∈ Rect.ofSize (s.surfaceOf π).size) : ((t.drawn ds).surfaceOf π).pixel x =
      seq (calls.map (callEffect s π)) x ((t.surfaceOf π).pixel x) := by
  have heffects : effects (t.surfaceOf π) = effects (s.surfaceOf π) := by
    funext primitives
    rw [effects, effects, Primitive.effect_congr hlayout.2]
  have hfits : ∀ primitive ∈ ds.flatMap (Drawing.primitivesOn · π),
      primitive.Fits (t.surfaceOf π).size := by
    intro primitive hmem
    rw [primitives_of_mapM hds] at hmem
    obtain ⟨call, hcall, hmem⟩ := List.mem_flatMap.mp hmem
    obtain ⟨d, hd, hfits⟩ := (hcut call hcall).fits
    rw [hd] at hmem
    exact hlayout.1 ▸ hfits primitive hmem
  rw [surfaceOf_drawn, pixel_runPrimitives_eq hfits (hlayout.1 ▸ hx), heffects,
    primitives_of_mapM hds, effects_flatMap]
  rfl

omit [Hardware] [TextRendering] in
theorem sameLayout_drawn (t : AppState) (ds : List Drawing) (π : Plane) :
    SameLayout (t.surfaceOf π) ((t.drawn ds).surfaceOf π) := by
  rw [surfaceOf_drawn]
  exact ⟨size_runPrimitives _ _, channels_runPrimitives _ _⟩

/-- The condition for a redraw of the rectangles of the list: they lie in the window, and what they
draw can be drawn. -/
def CanRedraw (s : AppState) (window : Size) (root : Ptr) (f : Forest Ptr) : Prop :=
  ∀ C ∈ s.invalidatedRects, C.Within (Rect.ofSize window) ∧
    ∀ call ∈ passCalls s.widgets root C f, (drawingOf s call).isSome

/-- The calls of a redraw cut their widgets cleanly at the pixel. -/
def RedrawsCut (s : AppState) (window : Size) (root : Ptr) (f : Forest Ptr) (π : Plane)
    (x : Point) : Prop :=
  ∀ C ∈ s.invalidatedRects, ∀ call ∈ passCalls s.widgets root C f, DrawsCut s window π x call

omit [Hardware] [Raster] [TextRendering] in
/-- The rectangles from an index on, when the loop draws one of them. -/
theorem covered_drop {rects : List Rect} {i : ℕ} (hi : rects[i]? = some C) :
    Covered (rects.drop i) x ↔ x ∈ C ∨ Covered (rects.drop (i + 1)) x := by
  obtain ⟨hlt, rfl⟩ := List.getElem?_eq_some_iff.mp hi
  rw [List.drop_eq_getElem_cons hlt]
  simp only [Covered, List.mem_cons, exists_eq_or_imp]

namespace Stage

omit [Hardware] [Raster] [TextRendering] in
theorem forest_ne (h : Stage window s root r f) : ∀ q ∈ f.nodes, s.rootWidget ≠ some q := by
  intro q hq
  have hbelow := (h.forest.mem_nodes_iff h.wellFormed.linked
    (AppState.nodes_of_widgets h.root_live) q).mp hq
  obtain ⟨o, ⟨n, hn, hparent⟩, -⟩ := Relation.TransGen.head'_iff.mp hbelow
  obtain ⟨w, hw, rfl⟩ := AppState.nodes_eq_some.mp hn
  exact h.wellFormed.rootWidget_ne hw hparent

/-- The root hides what was there before, when the polygon filler fills rectangles. -/
theorem hides (h : Stage window s root r f) (hraster : Raster.CoversRects)
    (hx : x ∈ Rect.ofSize window) : ((s.scene window π).effect root).Hides x := by
  obtain ⟨a, ha, hb⟩ := h.plain
  have hfilled : Filled (eiRoundedFrameAll r.screenLocation 0) x := by
    rw [h.location]
    exact (hraster.filled_iff hx).mpr h.sides
  have hd : drawingOf s (root, Rect.ofSize window) =
      some (drawframebuttonclasses s root r a 0 (Rect.ofSize window) (Rect.ofSize window)) := by
    simp only [drawingOf, h.root_live, drawing, ha, Option.bind_eq_bind, Option.bind_some]
  obtain ⟨primitive, hmem, halpha, hwrites⟩ : ∃ primitive ∈ (drawframebuttonclasses s root r a 0
      (Rect.ofSize window) (Rect.ofSize window)).primitivesOn π,
      primitive.Opaque ∧ primitive.Writes x := by
    cases π with
    | root =>
      refine ⟨.polygon (eiRoundedFrameAll r.screenLocation 0) a.color (Rect.ofSize window), ?_,
        hb.alpha, hfilled, hx⟩
      simp only [Drawing.primitivesOn, drawframebuttonclasses, hb.borderWidth, ne_eq,
        not_true_eq_false, if_false]
      exact List.mem_append_left _ (List.mem_singleton_self _)
    | pick => exact ⟨_, List.mem_singleton_self _, h.pickColor, hfilled, hx⟩
  have heffect : callEffect s π (root, Rect.ofSize window) = effects (s.surfaceOf π)
      ((drawframebuttonclasses s root r a 0 (Rect.ofSize window)
        (Rect.ofSize window)).primitivesOn π) := by
    rw [callEffect, hd, Option.elim_some]
  have hhides : (primitive.effect (s.surfaceOf π)).Hides x :=
    Primitive.hides_effect halpha hwrites
  have hseq := hides_seq (List.mem_map_of_mem hmem) hhides
  change (callEffect s π (root, Rect.ofSize window)).Hides x
  rwa [heffect]

/-- The picture of the scene does not depend on what was there before. -/
theorem picture_eq (h : Stage window s root r f) (hraster : Raster.CoversRects)
    (hx : x ∈ Rect.ofSize window) (v v' : BitVec 32) :
    (s.scene window π).picture x (.cons root f .nil) v =
      (s.scene window π).picture x (.cons root f .nil) v' :=
  Scene.hides_picture (Or.inl h.rootWidget) (h.hides hraster hx) v v'

/-- **A full draw shows the scene.** -/
theorem initialDraw_eq (h : Stage window s root r f) (hx : x ∈ Rect.ofSize window)
    (hcut : ∀ call ∈ fullCalls s.widgets root r f, DrawsCut s window π x call)
    (ht : initialDrawWith drawfuncOf s = some t) : (t.surfaceOf π).pixel x =
      (s.scene window π).picture x (.cons root f .nil) ((s.surfaceOf π).pixel x) := by
  rw [initialDrawWith_eq drawfuncOf_drawsOnly h.wellFormed h.upToDate h.rootWidget h.root_live
    h.forest, runCalls_drawfuncOf _ (.refl s), Option.map_eq_some_iff] at ht
  obtain ⟨ds, hds, rfl⟩ := ht
  rw [fullCalls_eq, h.content] at hds hcut
  rw [pixel_drawn hds hcut ⟨rfl, rfl⟩ ((h.sizes π).symm ▸ hx), seq_passCalls h.rootWidget
    h.root_live (h.content ▸ Rect.Within.refl _) h.forest_ne hcut, if_pos hx]

/-- A pass of the main loop over an invalidated rectangle completes, and shows the scene inside the
rectangle. -/
theorem pass (h : Stage window s root r f) {i : ℕ} (hi : s.invalidatedRects[i]? = some C)
    (hC : C.Within (Rect.ofSize window)) (ht : OnlySurfaces s t)
    (hlayout : ∀ π, SameLayout (s.surfaceOf π) (t.surfaceOf π))
    (hdraw : ∀ call ∈ passCalls s.widgets root C f, (drawingOf s call).isSome) : ∃ t',
      ((drawfuncOf t root C).bind fun t =>
        eiDrawWidgetChildren drawfuncOf t root (.invalidated i)) = some t' ∧
      OnlySurfaces s t' ∧ (∀ π, SameLayout (s.surfaceOf π) (t'.surfaceOf π)) ∧
      ∀ π x, x ∈ Rect.ofSize window →
        (∀ call ∈ passCalls s.widgets root C f, DrawsCut s window π x call) →
          (t'.surfaceOf π).pixel x =
            if x ∈ C then (s.scene window π).picture x (.cons root f .nil) ((t.surfaceOf π).pixel x)
            else (t.surfaceOf π).pixel x := by
  obtain ⟨ds, hds⟩ := Option.isSome_iff_exists.mp (isSome_mapM hdraw)
  refine ⟨t.drawn ds, ?_, ht.trans rfl, fun π => (hlayout π).trans (sameLayout_drawn t ds π),
    fun π x hx hcut => ?_⟩
  · rw [pass_eq_runCalls (c := .invalidated i) drawfuncOf_drawsOnly h.wellFormed h.upToDate
      h.rootWidget h.root_live h.forest hi ht, runCalls_drawfuncOf _ ht, hds, Option.map_some]
  · rw [pixel_drawn hds hcut (hlayout π) ((h.sizes π).symm ▸ hx),
      seq_passCalls h.rootWidget h.root_live (h.content ▸ hC) h.forest_ne hcut]
    split_ifs <;> rfl

/-- The loop of `ei_app_run` over the rectangles, from any of them on. -/
theorem redrawLoop (h : Stage window s root r f)
    (hcan : CanRedraw s window root f) (fuel : ℕ) : ∀ (i : ℕ) {t : AppState}, OnlySurfaces s t →
    (∀ π, SameLayout (s.surfaceOf π) (t.surfaceOf π)) → i ≤ s.invalidatedRects.length →
    s.invalidatedRects.length < i + fuel → ∃ t',
      GuiLibrary.redrawLoop drawfuncOf fuel t i = some t' ∧ OnlySurfaces s t' ∧
      (∀ π, SameLayout (s.surfaceOf π) (t'.surfaceOf π)) ∧
      ∀ π x, Raster.CoversRects → x ∈ Rect.ofSize window → RedrawsCut s window root f π x →
        (Covered (s.invalidatedRects.drop i) x → ∀ v, (t'.surfaceOf π).pixel x =
          (s.scene window π).picture x (.cons root f .nil) v) ∧
        (¬ Covered (s.invalidatedRects.drop i) x →
          (t'.surfaceOf π).pixel x = (t.surfaceOf π).pixel x) := by
  induction fuel with
  | zero =>
    intro i t _ _ _ hfuel
    omega
  | succ fuel ih =>
    intro i t ht hlayout hle hfuel
    have hread : t.invalidatedRects[i]? = s.invalidatedRects[i]? := by rw [ht]
    have hroot : t.rootWidget = some root := ht.rootWidget_eq.trans h.rootWidget
    rw [GuiLibrary.redrawLoop, hread]
    cases hi : s.invalidatedRects[i]? with
    | none =>
      have hdrop : s.invalidatedRects.drop i = [] :=
        List.drop_eq_nil_of_le (List.getElem?_eq_none_iff.mp hi)
      refine ⟨t, rfl, ht, hlayout, fun π x _ _ _ => ⟨fun hcov => ?_, fun _ => rfl⟩⟩
      simp [hdrop, Covered] at hcov
    | some C =>
      have hmem := List.mem_of_getElem? hi
      obtain ⟨t₁, hpass, ht₁, hlayout₁, hpixel₁⟩ :=
        h.pass hi (hcan C hmem).1 ht hlayout (hcan C hmem).2
      obtain ⟨t₂, h₁, h₂⟩ := Option.bind_eq_some_iff.mp hpass
      obtain ⟨hlt, -⟩ := List.getElem?_eq_some_iff.mp hi
      obtain ⟨t', hrun, ht', hlayout', hpixel⟩ := ih (i + 1) ht₁ hlayout₁ hlt (by omega)
      simp only [hroot, h₁, h₂, Option.bind_eq_bind, Option.bind_some]
      refine ⟨t', hrun, ht', hlayout', fun π x hraster hx hcut => ?_⟩
      obtain ⟨hin, hout⟩ := hpixel π x hraster hx hcut
      have hone := hpixel₁ π x hx (hcut C hmem)
      rw [covered_drop hi]
      refine ⟨fun hcov v => ?_, fun hcov => ?_⟩
      · -- A later rectangle shows the scene again; else this pass was the last one.
        by_cases hlater : Covered (s.invalidatedRects.drop (i + 1)) x
        · exact hin hlater v
        · rw [hout hlater, hone, if_pos (hcov.resolve_right hlater)]
          exact h.picture_eq hraster hx _ _
      · rw [not_or] at hcov
        rw [hout hcov.2, hone, if_neg hcov.1]

/-- **A redraw shows the scene in the invalidated rectangles** and leaves the other pixels alone;
nothing else of the state changes but the list, which is empty afterwards. -/
theorem redraw (h : Stage window s root r f) (hcan : CanRedraw s window root f) {fuel : ℕ}
    (hfuel : s.invalidatedRects.length < fuel) :
    ∃ t, GuiLibrary.redraw drawfuncOf fuel s = some t ∧
      OnlySurfaces { s with invalidatedRects := [] } t ∧
      (∀ π, SameLayout (s.surfaceOf π) (t.surfaceOf π)) ∧
      ∀ π x, Raster.CoversRects → x ∈ Rect.ofSize window → RedrawsCut s window root f π x →
        (Covered s.invalidatedRects x → ∀ v, (t.surfaceOf π).pixel x =
          (s.scene window π).picture x (.cons root f .nil) v) ∧
        (¬ Covered s.invalidatedRects x →
          (t.surfaceOf π).pixel x = (s.surfaceOf π).pixel x) := by
  obtain ⟨t, hrun, ht, hlayout, hpixel⟩ := h.redrawLoop hcan fuel 0 (.refl s)
    (fun π => ⟨rfl, rfl⟩) (Nat.zero_le _) (by omega)
  have hsurface : ∀ π, ({ t with invalidatedRects := [] } : AppState).surfaceOf π =
      t.surfaceOf π := fun π => by cases π <;> rfl
  refine ⟨{ t with invalidatedRects := [] }, ?_, ?_, fun π => hsurface π ▸ hlayout π,
    fun π x hraster hx hcut => hsurface π ▸ hpixel π x hraster hx hcut⟩
  · rw [GuiLibrary.redraw, hrun]
    rfl
  · rw [ht]
    rfl

end Stage

end Stage

end Classes

end GuiLibrary

import GuiLibrary.Clipping

/-!
# Redrawing a part of the window

The main loop redraws the window one rectangle after the other: the root and what is below it are
drawn again, with the rectangle as clipper. The calls are those of a full draw whose clippers meet
the rectangle, cut at it. A redraw after a full draw should leave the window alone.

It does when, at each pixel, the last layer that hides what was there before is the same in both
draws, and so are the layers after it. Where a rectangle leaves one pixel of the face of a widget
with a border, this fails: the outline of the face is `NULL` there, and the relief, which a redraw
paints below it, shows instead of the face.

## Main definitions

* `cutCall`: the call of a redraw that belongs to a call of the full draw.
* `KeepsPixel`, `KeepsWindow`: the condition under which a redraw leaves a pixel and the window
  alone.
* `CutsCleanly`: a rectangle cuts a widget without images and rounded corners, and leaves no sliver
  of its face.
* `FullyDrawn`: the state is that after a full draw.

## Main results

* `passCalls_cut`: the calls of a redraw are the calls of the full draw, cut.
* `seq_cutEffect`: the redraw keeps the pixel under the condition.
* `keepsWindow_of_cutsCleanly`: rectangles that cut cleanly keep the window.
* `redraw_unchanged`.
-/

namespace GuiLibrary

open Cells Pictures

/-! ### The calls of a redraw -/

/-- The call of a redraw of `C` that belongs to a call of the full draw, if there is one. -/
def cutCall (s : AppState) (C : Rect) (call : Ptr × Rect) : Option (Ptr × Rect) :=
  if Redrawn s C call.1 call.2 then some (call.1, getEiRectIntersection call.2 C) else none

section Calls

variable {s : AppState} {C : Rect}

/-- The calls of the loop on siblings, inside what is left of their clipper: those of the widgets
that are drawn again. -/
theorem drawCalls_cut (f : Forest Ptr) : ∀ (K : Rect), (∀ q ∈ f.nodes, s.rootWidget ≠ some q) →
    (if (getEiRectIntersection K C).Negative then []
      else drawCalls s.widgets (getEiRectIntersection K C) f) =
      (if K.Negative then [] else drawCalls s.widgets K f).filterMap (cutCall s C) := by
  induction f with
  | nil =>
    intro K _
    split_ifs <;> rfl
  | cons q kids rest ihk ihr =>
    intro K hroot
    simp only [Forest.nodes_cons, List.forall_mem_cons, List.forall_mem_append] at hroot
    obtain ⟨hq, hrootk, hrootr⟩ := hroot
    by_cases hK : K.Negative
    · rw [if_pos hK, if_pos (hK.intersection C)]
      rfl
    have hrest := ihr K hrootr
    rw [if_neg hK] at hrest ⊢
    rw [drawCalls, drawCalls, List.filterMap_append, ← hrest]
    cases hw : s.widgets q with
    | none => split_ifs <;> rfl
    | some w =>
      have hkids := ihk (getEiRectIntersection K w.content) hrootk
      rw [getEiRectIntersection_right_comm] at hkids
      by_cases hC : (getEiRectIntersection K C).Negative
      · -- Nothing is drawn again.
        have hcall : cutCall s C (q, K) = none := if_neg (not_or.mpr ⟨hq, not_not.mpr hC⟩)
        rw [if_pos (hC.intersection w.content)] at hkids
        by_cases hmapped : w.geomParams.isSome
        · simp only [if_pos hC, if_pos hmapped, List.append_nil]
          rw [List.filterMap_cons_none hcall, ← hkids]
        · simp only [if_pos hC, if_neg hmapped, List.append_nil, List.filterMap_nil]
      · have hcall : cutCall s C (q, K) = some (q, getEiRectIntersection K C) :=
          if_pos (Or.inr hC)
        by_cases hmapped : w.geomParams.isSome
        · simp only [if_neg hC, if_pos hmapped, List.filterMap_cons_some hcall, ← hkids,
            getEiRectIntersection_right_comm K C w.content, List.cons_append]
        · simp only [if_neg hC, if_neg hmapped, List.filterMap_nil]

/-- **A redraw calls the widgets that are drawn again**, with what the rectangle leaves of their
clippers. -/
theorem passCalls_cut {root : Ptr} {K : Rect} {f : Forest Ptr} (hroot : s.rootWidget = some root)
    (hne : ∀ q ∈ f.nodes, s.rootWidget ≠ some q) (hC : C.Within K) :
    passCalls s.widgets root C f = (passCalls s.widgets root K f).filterMap (cutCall s C) := by
  have hcall : cutCall s C (root, K) = some (root, C) := by
    have hcut : cutCall s C (root, K) = some (root, getEiRectIntersection K C) :=
      if_pos (Or.inl hroot)
    rw [hcut, hC.intersection]
  have hkids := drawCalls_cut (C := C) f K hne
  rw [hC.intersection] at hkids
  rw [passCalls, passCalls, List.filterMap_cons_some hcall, hkids]

end Calls

/-! ### When a redraw leaves the window alone -/

section Classes

variable [Hardware] [Raster] [TextRendering]

/-- The pixel keeps its colour in a redraw of `C`, after the calls of a full draw. Either nothing
that is drawn again paints it; or some opaque layer paints it, and from this layer on, in the order
of the draw, all layers paint it alike in both draws. -/
def KeepsPixel (s : AppState) (calls : List (Ptr × Rect)) (C : Rect) (x : Point) : Prop :=
  (∀ q K w, (q, K) ∈ calls → s.widgets q = some w → Redrawn s C q K →
    ∀ l, ¬ Paints s q w (getEiRectIntersection K C) x l) ∨
  ∃ l₁ q K w l l₂, calls ×ˢ layers = l₁ ++ ((q, K), l) :: l₂ ∧ s.widgets q = some w ∧
    l.Opaque w ∧ Paints s q w K x l ∧
    ∀ p L v m, ((p, L), m) ∈ ((q, K), l) :: l₂ → s.widgets p = some v →
      DrawsAlike s p v L C x m

/-- The condition under which a redraw of `C` leaves the window alone after a full draw. -/
structure KeepsWindow (s : AppState) (root : Ptr) (r : Widget) (f : Forest Ptr) (C : Rect) :
    Prop where
  inWindow : r.content.InWindow s.rootSurface.size
  within : C.Within r.content
  labels : ∀ q K w, (q, K) ∈ fullCalls s.widgets root r f → s.widgets q = some w →
    ¬ Layer.label.Cut w → ∀ y, Paints s q w K y .label → y ∈ Rect.ofSize s.rootSurface.size
  pixels : ∀ x ∈ Rect.ofSize s.rootSurface.size,
    KeepsPixel s (fullCalls s.widgets root r f) C x

/-- The primitives of a layer that a call draws. -/
def primitivesOf (s : AppState) (call : Ptr × Rect) (l : Layer) : List Primitive :=
  (s.widgets call.1).elim [] fun w => layerPrimitives s call.1 w call.2 l

/-- The primitives of a call. -/
def callPrimitives (s : AppState) (call : Ptr × Rect) : List Primitive :=
  layers.flatMap (primitivesOf s call)

/-- What a layer makes of a pixel in the full draw. -/
def layerEffect (s : AppState) (surface : Surface) (layer : (Ptr × Rect) × Layer) :
    Effect Point (BitVec 32) :=
  effects surface (primitivesOf s layer.1 layer.2)

/-- What it makes of the pixel in the redraw of `C`. -/
def cutEffect (s : AppState) (surface : Surface) (C : Rect) (layer : (Ptr × Rect) × Layer) :
    Effect Point (BitVec 32) :=
  (cutCall s C layer.1).elim (fun _ => id) fun call => layerEffect s surface (call, layer.2)

section Effects

variable {s : AppState} {surface : Surface} {C : Rect} {x : Point} {calls : List (Ptr × Rect)}

omit [Hardware] [TextRendering] in
theorem effects_flatMap {ι : Type} (l : List ι) (g : ι → List Primitive) :
    effects surface (l.flatMap g) x = seq (l.map fun i => effects surface (g i)) x := by
  induction l with
  | nil => rfl
  | cons i l ih => rw [List.flatMap_cons, effects_append, ih, List.map_cons, seq_cons]

/-- The effect of the full draw, layer by layer. -/
theorem effects_callPrimitives : effects surface (calls.flatMap (callPrimitives s)) x =
    seq ((calls ×ˢ layers).map (layerEffect s surface)) x := by
  rw [effects_flatMap, seq_product]
  exact seq_congr fun call _ => effects_flatMap _ _

/-- The effect of the redraw, layer by layer. -/
theorem effects_cutCalls :
    effects surface ((calls.filterMap (cutCall s C)).flatMap (callPrimitives s)) x =
      seq ((calls ×ˢ layers).map (cutEffect s surface C)) x := by
  rw [effects_flatMap, seq_filterMap, seq_product]
  refine seq_congr fun call _ => ?_
  cases hcall : cutCall s C call with
  | none =>
    refine (seq_eq_id fun e he => ?_).symm
    obtain ⟨l, -, rfl⟩ := List.mem_map.mp he
    rw [cutEffect, hcall, Option.elim_none]
  | some call' =>
    simp only [cutEffect, hcall, Option.elim_some]
    exact effects_flatMap _ _

section Layer

variable {q : Ptr} {K : Rect} {w : Widget} {l : Layer}

theorem primitivesOf_eq (hq : s.widgets q = some w) :
    primitivesOf s (q, K) l = layerPrimitives s q w K l := by
  rw [primitivesOf, hq, Option.elim_some]

theorem cutEffect_of_redrawn (hq : s.widgets q = some w) (h : Redrawn s C q K) :
    cutEffect s surface C ((q, K), l) =
      effects surface (layerPrimitives s q w (getEiRectIntersection K C) l) := by
  have hcall : cutCall s C (q, K) = some (q, getEiRectIntersection K C) := if_pos h
  rw [cutEffect, hcall, Option.elim_some, layerEffect, primitivesOf_eq hq]

theorem cutEffect_of_not_redrawn (h : ¬ Redrawn s C q K) :
    cutEffect s surface C ((q, K), l) = fun _ => id := by
  have hcall : cutCall s C (q, K) = none := if_neg h
  rw [cutEffect, hcall, Option.elim_none]

/-- A layer that paints the pixel alike has the same effect in both draws. -/
theorem cutEffect_eq (hq : s.widgets q = some w) (h : DrawsAlike s q w K C x l) :
    cutEffect s surface C ((q, K), l) x = layerEffect s surface ((q, K), l) x := by
  rw [layerEffect, primitivesOf_eq hq]
  by_cases hredrawn : Redrawn s C q K
  · rw [cutEffect_of_redrawn hq hredrawn, effects_layer_cut h]
  · rw [cutEffect_of_not_redrawn hredrawn, effects_of_not_redrawn h hredrawn]

/-- A layer that does not paint the pixel in the redraw has no effect there. -/
theorem cutEffect_eq_id (hq : s.widgets q = some w)
    (h : Redrawn s C q K → ¬ Paints s q w (getEiRectIntersection K C) x l) :
    cutEffect s surface C ((q, K), l) x = id := by
  by_cases hredrawn : Redrawn s C q K
  · rw [cutEffect_of_redrawn hq hredrawn, effects_of_not_paints (h hredrawn)]
  · rw [cutEffect_of_not_redrawn hredrawn]

end Layer

/-- **A pixel that keeps its colour** under the condition: the effect of the redraw on what the full
draw has made of it. -/
theorem seq_cutEffect (hcalls : ∀ call ∈ calls, ∃ w, s.widgets call.1 = some w)
    (h : KeepsPixel s calls C x) (v : BitVec 32) :
    seq ((calls ×ˢ layers).map (cutEffect s surface C)) x
        (seq ((calls ×ˢ layers).map (layerEffect s surface)) x v) =
      seq ((calls ×ˢ layers).map (layerEffect s surface)) x v := by
  have hlive : ∀ layer ∈ calls ×ˢ layers, ∃ w, s.widgets layer.1.1 = some w :=
    fun layer hmem => hcalls layer.1 (List.mem_product.mp hmem).1
  rcases h with hnone | ⟨l₁, q, K, w, l, l₂, heq, hq, hhides, hpaints, halike⟩
  · -- Nothing is painted there.
    have hid : seq ((calls ×ˢ layers).map (cutEffect s surface C)) x = id := by
      refine seq_eq_id fun e he => ?_
      obtain ⟨layer, hmem, rfl⟩ := List.mem_map.mp he
      obtain ⟨w, hq⟩ := hlive layer hmem
      exact cutEffect_eq_id hq fun hredrawn =>
        hnone _ _ w (List.mem_product.mp hmem).1 hq hredrawn layer.2
    rw [hid, id_eq]
  · rw [heq] at hlive ⊢
    refine seq_repeat l₁ ?_ (fun layer hmem => ?_) v
    · rw [layerEffect, primitivesOf_eq hq]
      exact hides_layer hhides hpaints
    · obtain ⟨v, hp⟩ := hlive layer (List.mem_append_right _ hmem)
      exact cutEffect_eq hp (halike _ _ v layer.2 hmem hp)

/-- The calls that can be drawn run the primitives of the layers. -/
theorem surface_drawingOf {call : Ptr × Rect} {d : Drawing} (hd : drawingOf s call = some d) :
    d.surface = callPrimitives s call := by
  obtain ⟨w, hq, hd⟩ := Option.bind_eq_some_iff.mp hd
  rw [surface_eq_layers hd, callPrimitives]
  exact congrArg layers.flatMap (funext fun l => (primitivesOf_eq hq).symm)

theorem drawings_eq : ∀ {calls : List (Ptr × Rect)} {ds : List Drawing},
    calls.mapM (drawingOf s) = some ds →
      ds.flatMap Drawing.surface = calls.flatMap (callPrimitives s) ∧
        ∀ call ∈ calls, ∃ d, drawingOf s call = some d := by
  intro calls
  induction calls with
  | nil =>
    intro ds hds
    obtain rfl : [] = ds := Option.some.inj hds
    exact ⟨rfl, fun _ h => absurd h List.not_mem_nil⟩
  | cons call calls ih =>
    intro ds hds
    simp only [List.mapM_cons, Option.bind_eq_bind, Option.bind_eq_some_iff] at hds
    obtain ⟨d, hd, ds', hds', heq⟩ := hds
    obtain rfl : d :: ds' = ds := Option.some.inj heq
    obtain ⟨hflat, hcalls⟩ := ih hds'
    refine ⟨?_, List.forall_mem_cons.mpr ⟨⟨d, hd⟩, hcalls⟩⟩
    rw [List.flatMap_cons, List.flatMap_cons, hflat, surface_drawingOf hd]

end Effects

/-! ### Rectangles that cut cleanly -/

/-- What is assumed of the polygon filler: the outline of a rectangle without rounding covers it. -/
def Raster.CoversRects : Prop :=
  ∀ (rect : Rect) (x : Point), x ∈ rect → 0 < rect.halfSide →
    Raster.polygonPixel (eiRoundedFrameAll rect 0) x

/-- The rectangle `C` cuts a widget cleanly that has the clipper `K`: nothing of the widget is
painted outside the clipper, it has no image and no rounded corner, and what `C` leaves of its face
has no pixel, or sides of two pixels at least. -/
structure CutsCleanly (w : Widget) (K C : Rect) : Prop where
  clipped : w.Clipped
  image : ∀ a, w.attrs.labelled = some a → a.img = none
  text : ∀ a, w.attrs.labelled = some a → a.borderWidth = 0 → a.text = none
  corners : ∀ a, w.attrs.labelled = some a → a.borderWidth ≠ 0 → cornerRadiusOf w = 0
  face : ∀ a, w.attrs.labelled = some a → a.borderWidth ≠ 0 →
    ∀ x ∈ finalClipper w a (getEiRectIntersection K C),
      0 < (finalClipper w a (getEiRectIntersection K C)).halfSide

section Clean

variable {s : AppState} {q : Ptr} {w : Widget} {K K' C : Rect} {x : Point} {l : Layer}

omit [Hardware] [TextRendering] in
theorem Raster.CoversRects.filled_iff (hraster : Raster.CoversRects) {rect : Rect} (hx : x ∈ rect) :
    Filled (eiRoundedFrameAll rect 0) x ↔ 0 < rect.halfSide := by
  rw [Filled, eiRoundedFrameAll_ne_nil, and_iff_left_iff_imp]
  exact hraster rect x hx

namespace CutsCleanly

/-- All the layers that paint something are cut at the clipper. -/
theorem cut (h : CutsCleanly w K C) (hpaints : Paints s q w K' x l) : l.Cut w := by
  cases l with
  | toplevel => trivial
  | border => exact h.clipped
  | face => trivial
  | label =>
    intro a ha hb
    obtain ⟨a', label, ha', hlabel, -⟩ := hpaints
    obtain rfl := Option.some.inj (ha.symm.trans ha')
    simp [labelRect, h.image a ha, h.text a ha hb] at hlabel

/-- **What is cut cleanly is drawn alike.** -/
theorem drawsAlike (h : CutsCleanly w K C) (hraster : Raster.CoversRects) (hx : x ∈ C) :
    DrawsAlike s q w K C x l where
  redrawn hnot hpaints := absurd (h.cut hpaints) hnot
  outside _ hC := absurd hx hC
  face hl _ := by
    subst hl
    refine exists_congr fun a => and_congr_right fun ha => and_congr_right fun hb => ?_
    rw [h.corners a ha hb]
    have hmem : x ∈ finalClipper w a (getEiRectIntersection K C) ↔ x ∈ finalClipper w a K := by
      simp only [finalClipper, if_pos hb, mem_getEiRectIntersection]
      tauto
    refine ⟨fun hface => ⟨?_, hmem.mp hface.2⟩, fun hface => ⟨?_, hmem.mpr hface.2⟩⟩
    · have hwithin :
          (finalClipper w a (getEiRectIntersection K C)).Within (finalClipper w a K) := by
        simp only [finalClipper, if_pos hb, Rect.Within, getEiRectIntersection]
        omega
      exact (hraster.filled_iff (hmem.mp hface.2)).mpr
        ((h.face a ha hb x hface.2).trans_le hwithin.halfSide_le)
    · have hxf := hmem.mpr hface.2
      exact (hraster.filled_iff hxf).mpr (h.face a ha hb x hxf)
  image _ _ a label ha htext hlabel := by
    simp [labelRect, h.image a ha, htext] at hlabel

end CutsCleanly

/-- **Rectangles that cut cleanly keep the window**, when the root is a frame without border and
with an opaque colour that covers it. -/
theorem keepsWindow_of_cutsCleanly (hraster : Raster.CoversRects) {root : Ptr} {r : Widget}
    {f : Forest Ptr} (hr : s.widgets root = some r) {a : FrameAttrs} (ha : r.attrs = .frame a)
    (hb : a.Backdrop) (hlocation : r.content.Within r.screenLocation)
    (hsize : 0 < r.screenLocation.halfSide) (hin : r.content.InWindow s.rootSurface.size)
    (hC : C.Within r.content)
    (hclean : ∀ q K w, (q, K) ∈ fullCalls s.widgets root r f → s.widgets q = some w →
      CutsCleanly w K C) : KeepsWindow s root r f C := by
  refine ⟨hin, hC, fun q K w hcall hq hcut y hpaints =>
    absurd ((hclean q K w hcall hq).cut hpaints) hcut, fun x _ => ?_⟩
  by_cases hx : x ∈ C
  · -- The root covers the pixel, and all that is drawn after it is drawn alike.
    have hlabelled : r.attrs.labelled = some a := by rw [ha, Attrs.labelled]
    have hclip : r.Clipped := fun b hbt => by simp [ha] at hbt
    have hxr : x ∈ r.content ∧ x ∈ r.screenLocation := by
      simp only [Rect.Within, Rect.mem_iff] at hx hC hlocation ⊢
      omega
    obtain ⟨l₂, heq⟩ : ∃ l₂, fullCalls s.widgets root r f ×ˢ layers =
        [((root, r.content), .toplevel)] ++ ((root, r.content), .border) :: l₂ := ⟨_, rfl⟩
    refine Or.inr ⟨_, root, r.content, r, .border, l₂, heq, hr, fun a' ha' => ?_, ?_,
      fun p L v m hmem hv => ?_⟩
    · obtain rfl := Option.some.inj (hlabelled.symm.trans ha')
      exact hb.alpha
    · refine ⟨a, r.content, hlabelled, borderClipper_of_clipped hclip, hxr.1,
        (eiRoundedFrameAll r.screenLocation 0, a.color), ?_, (hraster.filled_iff hxr.2).mpr hsize⟩
      rw [borderPolygons, if_neg (not_not.mpr hb.borderWidth)]
      exact List.mem_singleton_self _
    · have hcall : ((p, L), m) ∈ fullCalls s.widgets root r f ×ˢ layers :=
        heq ▸ List.mem_append_right _ hmem
      exact (hclean p L v (List.mem_product.mp hcall).1 hv).drawsAlike hraster hx
  · -- Nothing is painted outside the rectangle.
    refine Or.inl fun q K w hcall hq _ l hpaints => hx ?_
    exact (mem_getEiRectIntersection.mp
      (hpaints.mem ((hclean q K w hcall hq).cut hpaints))).2

end Clean

/-! ### The pass over one rectangle -/

omit [Hardware] [Raster] [TextRendering] in
/-- The clippers of the calls lie in the window when the content area of the root does. -/
theorem Called.inWindow {s : AppState} {root : Ptr} {r : Widget} {window : Size} {q : Ptr}
    {K : Rect} (hr : s.widgets root = some r) (hwindow : r.content.InWindow window)
    (h : Called s root q K) : K.InWindow window := by
  induction h with
  | root hr' => exact Option.some.inj (hr.symm.trans hr') ▸ hwindow
  | child _ _ _ _ _ _ ih => exact inWindow_intersection ih _

/-- A full draw of the state `s₀`, whose widgets are where they should be, has left `s`. -/
structure FullyDrawn (s₀ s : AppState) (root : Ptr) (r : Widget) (f : Forest Ptr) : Prop where
  wellFormed : WellFormed s₀
  upToDate : UpToDate s₀
  rootWidget : s₀.rootWidget = some root
  root_live : s₀.widgets root = some r
  forest : Represents nodeLinks s₀.nodes root r.childrenHead f
  drawn : initialDrawWith drawfuncOf s₀ = some s

namespace FullyDrawn

variable {s₀ s : AppState} {root : Ptr} {r : Widget} {f : Forest Ptr} {C : Rect}

/-- The drawings of a full draw. -/
theorem exists_drawings (h : FullyDrawn s₀ s root r f) :
    ∃ ds, (fullCalls s₀.widgets root r f).mapM (drawingOf s₀) = some ds ∧ s = s₀.drawn ds := by
  have hrun := initialDrawWith_eq drawfuncOf_drawsOnly h.wellFormed h.upToDate h.rootWidget
    h.root_live h.forest
  rw [h.drawn, runCalls_drawfuncOf _ (.refl s₀), eq_comm, Option.map_eq_some_iff] at hrun
  obtain ⟨ds, hds, hs⟩ := hrun
  exact ⟨ds, hds, hs.symm⟩

/-- The widgets of a full draw, with their drawings. -/
theorem exists_drawing (h : FullyDrawn s₀ s root r f) {call : Ptr × Rect}
    (hcall : call ∈ fullCalls s₀.widgets root r f) :
    ∃ w d, s₀.widgets call.1 = some w ∧ drawing s₀ call.1 w call.2 = some d := by
  obtain ⟨ds, hds, -⟩ := h.exists_drawings
  obtain ⟨d, hd⟩ := (drawings_eq hds).2 call hcall
  obtain ⟨w, hw, hd⟩ := Option.bind_eq_some_iff.mp hd
  exact ⟨w, d, hw, hd⟩

/-- The clippers of a full draw lie in the window. -/
theorem inWindow (h : FullyDrawn s₀ s root r f) (hkeeps : KeepsWindow s₀ root r f C)
    {call : Ptr × Rect} (hcall : call ∈ fullCalls s₀.widgets root r f) :
    call.2.InWindow s₀.rootSurface.size :=
  ((mem_fullCalls_iff h.wellFormed h.rootWidget h.root_live h.forest).mp hcall).inWindow
    h.root_live hkeeps.inWindow

/-- The primitives of a widget of the full draw fit, also inside a smaller clipper. -/
theorem fits (h : FullyDrawn s₀ s root r f) (hkeeps : KeepsWindow s₀ root r f C)
    {q : Ptr} {K K' : Rect} (hcall : (q, K) ∈ fullCalls s₀.widgets root r f)
    (hK' : K'.InWindow s₀.rootSurface.size) :
    ∀ primitive ∈ callPrimitives s₀ (q, K'), primitive.Fits s₀.rootSurface.size := by
  intro primitive hmem
  obtain ⟨w, d, hq, -⟩ := h.exists_drawing hcall
  obtain ⟨l, -, hmem⟩ := List.mem_flatMap.mp hmem
  rw [primitivesOf_eq hq] at hmem
  refine fits_layer hK' (fun hl hcut y hy => ?_) primitive hmem
  subst hl
  refine hkeeps.labels q K w hcall hq hcut y ?_
  obtain ⟨a, label, ha, hlabel, hyl, hyf⟩ := hy
  have hb : a.borderWidth = 0 := by
    by_contra hb
    exact hcut fun a' ha' => Option.some.inj (ha.symm.trans ha') ▸ hb
  refine ⟨a, label, ha, hlabel, hyl, ?_⟩
  rwa [finalClipper, if_neg (not_not.mpr hb)] at hyf ⊢

/-- The surface after a full draw. -/
theorem rootSurface (h : FullyDrawn s₀ s root r f) :
    s.rootSurface =
      runPrimitives ((fullCalls s₀.widgets root r f).flatMap (callPrimitives s₀))
        s₀.rootSurface := by
  obtain ⟨ds, hds, rfl⟩ := h.exists_drawings
  rw [← (drawings_eq hds).1]
  rfl

/-- **The primitives of a redraw leave the surface alone.** -/
theorem runPrimitives_cut (h : FullyDrawn s₀ s root r f) (hkeeps : KeepsWindow s₀ root r f C) :
    runPrimitives (((fullCalls s₀.widgets root r f).filterMap (cutCall s₀ C)).flatMap
      (callPrimitives s₀)) s.rootSurface = s.rootSurface := by
  have hsize : s.rootSurface.size = s₀.rootSurface.size := by
    rw [h.rootSurface, size_runPrimitives]
  have hchannels : s.rootSurface.channels = s₀.rootSurface.channels := by
    rw [h.rootSurface, channels_runPrimitives]
  have heffects : effects s.rootSurface = effects s₀.rootSurface := by
    funext primitives
    rw [effects, effects, Primitive.effect_congr hchannels]
  refine runPrimitives_eq_self (fun primitive hmem => ?_) fun x hx => ?_
  · obtain ⟨call, hcall, hmem⟩ := List.mem_flatMap.mp hmem
    obtain ⟨⟨q, K⟩, hfull, hcut⟩ := List.mem_filterMap.mp hcall
    rw [cutCall] at hcut
    split_ifs at hcut
    obtain rfl := Option.some.inj hcut
    have hK := h.inWindow hkeeps hfull
    exact hsize ▸ h.fits hkeeps hfull (inWindow_intersection hK C) primitive hmem
  · rw [hsize] at hx
    have hfits : ∀ primitive ∈ (fullCalls s₀.widgets root r f).flatMap (callPrimitives s₀),
        primitive.Fits s₀.rootSurface.size := by
      intro primitive hmem
      obtain ⟨call, hcall, hmem⟩ := List.mem_flatMap.mp hmem
      exact h.fits hkeeps hcall (h.inWindow hkeeps hcall) primitive hmem
    have hcalls : ∀ call ∈ fullCalls s₀.widgets root r f, ∃ w, s₀.widgets call.1 = some w :=
      fun call hcall => (h.exists_drawing hcall).imp fun w hw => hw.elim fun d hd => hd.1
    rw [heffects, effects_cutCalls, h.rootSurface, pixel_runPrimitives_eq hfits hx,
      effects_callPrimitives]
    exact seq_cutEffect hcalls (hkeeps.pixels x hx) _

/-- The pass of the main loop over a rectangle of the list completes, and leaves the surface
alone. -/
theorem pass (h : FullyDrawn s₀ s root r f) {rects : List Rect} {i : ℕ}
    (hi : rects[i]? = some C) (hkeeps : KeepsWindow s₀ root r f C) {t : AppState}
    (ht : OnlySurfaces { s₀ with invalidatedRects := rects } t)
    (hsurface : t.rootSurface = s.rootSurface) : ∃ t',
      ((drawfuncOf t root C).bind fun t =>
        eiDrawWidgetChildren drawfuncOf t root (.invalidated i)) = some t' ∧
      OnlySurfaces { s₀ with invalidatedRects := rects } t' ∧ t'.rootSurface = s.rootSurface := by
  have hwf : WellFormed { s₀ with invalidatedRects := rects } := h.wellFormed.congr rfl
  have hne : ∀ q ∈ f.nodes, s₀.rootWidget ≠ some q := by
    intro q hq
    have hbelow := (h.forest.mem_nodes_iff h.wellFormed.linked
      (AppState.nodes_of_widgets h.root_live) q).mp hq
    obtain ⟨o, ⟨n, hn, hparent⟩, -⟩ := Relation.TransGen.head'_iff.mp hbelow
    obtain ⟨w, hw, rfl⟩ := AppState.nodes_eq_some.mp hn
    exact h.wellFormed.rootWidget_ne hw hparent
  rw [pass_eq_runCalls (s := { s₀ with invalidatedRects := rects }) (c := .invalidated i)
    drawfuncOf_drawsOnly hwf h.upToDate h.rootWidget h.root_live h.forest hi ht,
    runCalls_drawfuncOf _ ht]
  have hcut := passCalls_cut h.rootWidget hne hkeeps.within
  rw [← fullCalls_eq] at hcut
  have hsome : ((passCalls s₀.widgets root C f).mapM (drawingOf s₀)).isSome := by
    refine isSome_mapM fun call hcall => ?_
    rw [hcut] at hcall
    obtain ⟨⟨q, K⟩, hfull, hcall⟩ := List.mem_filterMap.mp hcall
    rw [cutCall] at hcall
    split_ifs at hcall
    obtain rfl := Option.some.inj hcall
    obtain ⟨w, d, hq, hd⟩ := h.exists_drawing hfull
    obtain ⟨d', hd'⟩ := exists_drawing_cut hd (getEiRectIntersection K C)
    exact Option.isSome_iff_exists.mpr ⟨d', Option.bind_eq_some_iff.mpr ⟨w, hq, hd'⟩⟩
  obtain ⟨ds, hds⟩ := Option.isSome_iff_exists.mp hsome
  refine ⟨t.drawn ds, congrArg (Option.map t.drawn) hds, ht.trans rfl, ?_⟩
  have hdrawn : (t.drawn ds).rootSurface =
    runPrimitives (ds.flatMap Drawing.surface) t.rootSurface := rfl
  rw [hdrawn, (drawings_eq hds).1, hsurface, hcut]
  exact h.runPrimitives_cut hkeeps

/-- The loop of `ei_app_run` over the rectangles, from any of them on. -/
theorem redrawLoop (h : FullyDrawn s₀ s root r f) {rects : List Rect}
    (hkeeps : ∀ C ∈ rects, KeepsWindow s₀ root r f C) (fuel : ℕ) : ∀ (i : ℕ) {t : AppState},
    OnlySurfaces { s₀ with invalidatedRects := rects } t → t.rootSurface = s.rootSurface →
    i ≤ rects.length → rects.length < i + fuel →
      ∃ t', GuiLibrary.redrawLoop drawfuncOf fuel t i = some t' ∧
        t'.rootSurface = s.rootSurface := by
  induction fuel with
  | zero =>
    intro i t _ _ hi hfuel
    omega
  | succ fuel ih =>
    intro i t ht hsurface hle hfuel
    have hread : t.invalidatedRects[i]? = rects[i]? := by rw [ht]
    have hroot : t.rootWidget = some root := ht.rootWidget_eq.trans h.rootWidget
    rw [GuiLibrary.redrawLoop, hread]
    cases hi : rects[i]? with
    | none => exact ⟨t, rfl, hsurface⟩
    | some C =>
      obtain ⟨t', hpass, ht', hsurface'⟩ :=
        h.pass hi (hkeeps C (List.mem_of_getElem? hi)) ht hsurface
      obtain ⟨t₁, h₁, h₂⟩ := Option.bind_eq_some_iff.mp hpass
      obtain ⟨hlt, -⟩ := List.getElem?_eq_some_iff.mp hi
      simp only [hroot, h₁, h₂, Option.bind_eq_bind, Option.bind_some]
      exact ih (i + 1) ht' hsurface' hlt (by omega)

end FullyDrawn

/-- **A partial redraw after a full draw** completes and leaves the surface alone, when every
rectangle of the list keeps the window. -/
theorem redraw_unchanged {s₀ s : AppState} {root : Ptr} {r : Widget} {f : Forest Ptr}
    (h : FullyDrawn s₀ s root r f) {rects : List Rect}
    (hkeeps : ∀ C ∈ rects, KeepsWindow s₀ root r f C) {fuel : ℕ} (hfuel : rects.length < fuel) :
    ∃ s', redraw drawfuncOf fuel { s with invalidatedRects := rects } = some s' ∧
      s'.rootSurface = s.rootSurface := by
  obtain ⟨ds, -, rfl⟩ := h.exists_drawings
  obtain ⟨t, ht, hsurface⟩ := h.redrawLoop hkeeps fuel 0
    (t := { s₀.drawn ds with invalidatedRects := rects }) rfl rfl (Nat.zero_le _) (by omega)
  refine ⟨{ t with invalidatedRects := [] }, ?_, hsurface⟩
  rw [redraw, ht]
  rfl

end Classes

/-! ### A frame with a border -/

section Sample

attribute [local instance] sampleHardware squareRaster sampleTextRendering

theorem coversRects_square : squareRaster.CoversRects := fun _ _ hx hlt =>
  (polygonPixel_eiRoundedFrameAll_square (le_refl 0) hlt).mpr hx

/-- The frame of the application, with a border, placed in the window. -/
def createFramed : Option AppState := do
  let s ← eiFrameConfigure sampleFrame 1 { borderWidth := some 4 }
  eiPlace s 1 { x := some 10, y := some 20, width := some 100, height := some 50 }

/-- Whether the widgets are a plain root and a frame with a border, as a computation. -/
def isFramed (s : AppState) : Option Bool := do
  let r ← s.widgets 0
  let w ← s.widgets 1
  match r.attrs, w.attrs with
  | .frame a, .frame b =>
      some (decide (s.rootWidget = some 0 ∧ s.nextWidget = 2 ∧ s.rootSurface.size = ⟨640, 480⟩ ∧
        r.content = Rect.ofSize ⟨640, 480⟩ ∧ r.screenLocation = Rect.ofSize ⟨640, 480⟩ ∧
        a.borderWidth = 0 ∧ a.color.alpha = 255 ∧ a.text.isNone ∧ a.img.isNone ∧
        w.parent = some 0 ∧
        w.geomParams.isSome ∧ w.content = ⟨⟨14, 24⟩, ⟨92, 42⟩⟩ ∧ b.borderWidth = 4 ∧
        b.img.isNone))
  | _, _ => none

/-- A plain root with a frame that has a border. -/
structure Framed (s : AppState) (r w : Widget) (a b : FrameAttrs) : Prop where
  wellFormed : WellFormed s
  upToDate : UpToDate s
  rootWidget : s.rootWidget = some 0
  only : ∀ q v, s.widgets q = some v → q = 0 ∨ q = 1
  size : s.rootSurface.size = ⟨640, 480⟩
  root_live : s.widgets 0 = some r
  root_attrs : r.attrs = .frame a
  root_content : r.content = Rect.ofSize ⟨640, 480⟩
  root_location : r.screenLocation = Rect.ofSize ⟨640, 480⟩
  root_backdrop : a.Backdrop
  root_plain : a.text = none ∧ a.img = none
  frame_live : s.widgets 1 = some w
  frame_parent : w.parent = some 0
  frame_mapped : w.geomParams.isSome
  frame_attrs : w.attrs = .frame b
  frame_content : w.content = ⟨⟨14, 24⟩, ⟨92, 42⟩⟩
  frame_border : b.borderWidth = 4 ∧ b.img = none

theorem exists_framed : ∃ s r w a b, createFramed = some s ∧ Framed s r w a b := by
  have h : (createFramed.bind fun s => (isFramed s).map fun b => b && isUpToDate s) =
      some true := by with_unfolding_all rfl
  obtain ⟨s, hs, h⟩ := Option.bind_eq_some_iff.mp h
  obtain ⟨b, hb, h⟩ := Option.map_eq_some_iff.mp h
  rw [Bool.and_eq_true] at h
  obtain ⟨rfl, hup⟩ := h
  have hwf : WellFormed s := by
    simp only [createFramed, Option.bind_eq_bind, Option.bind_eq_some_iff] at hs
    obtain ⟨s₁, hconfigure, hplace⟩ := hs
    exact (sampleFrame_wellFormed.congr (skeleton_eiFrameConfigure hconfigure)).congr
      (skeleton_eiPlace hplace)
  simp only [isFramed, Option.bind_eq_bind, Option.bind_eq_some_iff] at hb
  obtain ⟨r, hr, w, hw, hb⟩ := hb
  split at hb
  · next a b ha hbt =>
    rw [Option.some.injEq, decide_eq_true_eq] at hb
    obtain ⟨hroot, hnext, hsize, hrc, hrl, hab, hac, hat, hai, hwp, hwm, hwc, hbb, hbi⟩ := hb
    rw [Option.isNone_iff_eq_none] at hat hai hbi
    refine ⟨s, r, w, a, b, hs, hwf, upToDate_of_isUpToDate hwf hup, hroot, fun q v hv => ?_, hsize,
      hr, ha, hrc, hrl, ⟨hab, hac⟩, ⟨hat, hai⟩, hw, hwp, hwm, hbt, hwc, hbb, hbi⟩
    have hlt := hwf.lt_nextWidget (AppState.live_iff.mpr ⟨v, hv⟩)
    rw [hnext] at hlt
    exact Nat.le_one_iff_eq_zero_or_eq_one.mp (Nat.le_of_lt_succ hlt)
  · simp at hb

namespace Framed

variable {s : AppState} {r w : Widget} {a b : FrameAttrs} {f : Forest Ptr} {C : Rect}

/-- A full draw of the frame completes. -/
theorem exists_fullyDrawn (h : Framed s r w a b) : ∃ t f, FullyDrawn s t 0 r f := by
  obtain ⟨f, hf⟩ := h.wellFormed.linked.exists_represents (AppState.nodes_of_widgets h.root_live)
  have hflags : HasGrandparents s := by
    intro q v c hv hc
    rcases h.only q v hv with rfl | rfl
    · rw [← Option.some.inj (h.root_live.symm.trans hv), h.root_attrs] at hc
      simp at hc
    · rw [← Option.some.inj (h.frame_live.symm.trans hv), h.frame_attrs] at hc
      simp at hc
  obtain ⟨ds, -, hdrawn⟩ :=
    exists_initialDraw h.wellFormed h.upToDate h.rootWidget h.root_live hf hflags
  exact ⟨_, f, h.wellFormed, h.upToDate, h.rootWidget, h.root_live, hf, hdrawn⟩

/-- A rectangle that leaves two pixels of the face in each direction cuts the widgets cleanly. -/
theorem cutsCleanly (h : Framed s r w a b)
    (hface : 0 < (getEiRectIntersection (getEiRectIntersection (Rect.ofSize ⟨640, 480⟩) C)
      ⟨⟨14, 24⟩, ⟨92, 42⟩⟩).halfSide) {q : Ptr} {K : Rect} {v : Widget} (hcall : Called s 0 q K)
    (hv : s.widgets q = some v) : CutsCleanly v K C := by
  rcases h.only q v hv with rfl | rfl
  · obtain rfl := Option.some.inj (h.root_live.symm.trans hv)
    have hb := h.root_backdrop.borderWidth
    obtain ⟨ht, hi⟩ := h.root_plain
    refine ⟨fun c hc => ?_, ?_, ?_, ?_, ?_⟩
    · simp [h.root_attrs] at hc
    all_goals
      simp only [h.root_attrs, Attrs.labelled, Option.some.injEq, forall_eq', hb, ht, hi, ne_eq,
        not_true_eq_false, false_imp_iff, implies_true]
  · obtain rfl := Option.some.inj (h.frame_live.symm.trans hv)
    obtain ⟨hb, hi⟩ := h.frame_border
    obtain ⟨K', hK', rfl, -⟩ := (called_child h.wellFormed h.rootWidget h.root_live hv
      h.frame_parent h.frame_mapped).mp hcall
    obtain rfl := called_root h.wellFormed h.rootWidget h.root_live hK'
    refine ⟨fun c hc => ?_, ?_, ?_, ?_, ?_⟩
    · simp [h.frame_attrs] at hc
    all_goals
      simp only [h.frame_attrs, Attrs.labelled, Option.some.injEq, forall_eq', hb, hi,
        cornerRadiusOf, implies_true]
    · exact fun h4 => absurd h4 (by decide)
    · intro _ x _
      simp only [finalClipper, hb, h.root_content, h.frame_content]
      rwa [if_pos (by decide), show getEiRectIntersection (Rect.ofSize ⟨640, 480⟩)
        (Rect.ofSize ⟨640, 480⟩) = Rect.ofSize ⟨640, 480⟩ by decide]

/-- Such a rectangle keeps the window. -/
theorem keepsWindow (h : Framed s r w a b) {t : AppState} (hdrawn : FullyDrawn s t 0 r f)
    (hC : C.Within (Rect.ofSize ⟨640, 480⟩))
    (hface : 0 < (getEiRectIntersection (getEiRectIntersection (Rect.ofSize ⟨640, 480⟩) C)
      ⟨⟨14, 24⟩, ⟨92, 42⟩⟩).halfSide) : KeepsWindow s 0 r f C := by
  refine keepsWindow_of_cutsCleanly coversRects_square h.root_live h.root_attrs h.root_backdrop ?_
    ?_ ?_ (h.root_content ▸ hC) fun q K v hcall hv => h.cutsCleanly hface
      ((mem_fullCalls_iff h.wellFormed h.rootWidget h.root_live hdrawn.forest).mp hcall) hv
  · rw [h.root_content, h.root_location]
    exact ⟨⟨le_refl _, le_refl _⟩, le_refl _, le_refl _⟩
  · rw [h.root_location]
    decide
  · rw [h.root_content, h.size]
    exact Rect.inWindow_ofSize _

end Framed

/-- Two rectangles over the frame, one of them over a corner of it. -/
theorem redraw_unchanged_framed : ∃ s r w a b t s', createFramed = some s ∧ Framed s r w a b ∧
    initialDrawWith drawfuncOf s = some t ∧
    redraw drawfuncOf 3
      { t with invalidatedRects := [⟨⟨5, 15⟩, ⟨20, 20⟩⟩, ⟨⟨40, 30⟩, ⟨20, 10⟩⟩] } = some s' ∧
    s'.rootSurface = t.rootSurface := by
  obtain ⟨s, r, w, a, b, hs, h⟩ := exists_framed
  obtain ⟨t, f, hdrawn⟩ := h.exists_fullyDrawn
  have hkeeps : ∀ C ∈ ([⟨⟨5, 15⟩, ⟨20, 20⟩⟩, ⟨⟨40, 30⟩, ⟨20, 10⟩⟩] : List Rect),
      KeepsWindow s 0 r f C := by
    simp only [List.forall_mem_cons, List.not_mem_nil, false_imp_iff, implies_true, and_true]
    exact ⟨h.keepsWindow hdrawn (by decide) (by decide),
      h.keepsWindow hdrawn (by decide) (by decide)⟩
  have hfuel : ([⟨⟨5, 15⟩, ⟨20, 20⟩⟩, ⟨⟨40, 30⟩, ⟨20, 10⟩⟩] : List Rect).length < 3 := by decide
  obtain ⟨s', hs', hsurface⟩ := redraw_unchanged hdrawn hkeeps hfuel
  exact ⟨s, r, w, a, b, t, s', hs, h, hdrawn.drawn, hs', hsurface⟩

/-- A rectangle one pixel wide over the face of the frame: what is left of the face has no outline,
and the redraw leaves the relief there. -/
theorem not_redraw_unchanged : ∃ s r w a b t f s', createFramed = some s ∧ Framed s r w a b ∧
    squareRaster.CoversRects ∧ FullyDrawn s t 0 r f ∧
    (⟨⟨50, 40⟩, ⟨1, 20⟩⟩ : Rect).InWindow s.rootSurface.size ∧
    redraw drawfuncOf 2 { t with invalidatedRects := [⟨⟨50, 40⟩, ⟨1, 20⟩⟩] } = some s' ∧
    s'.rootSurface ≠ t.rootSurface := by
  obtain ⟨s, r, w, a, b, hs, h⟩ := exists_framed
  obtain ⟨t, f, hdrawn⟩ := h.exists_fullyDrawn
  have hpixel : (createFramed.bind fun s => (initialDrawWith drawfuncOf s).bind fun t =>
      (redraw drawfuncOf 2 { t with invalidatedRects := [⟨⟨50, 40⟩, ⟨1, 20⟩⟩] }).map fun s' =>
        decide (s'.rootSurface.pixel ⟨50, 45⟩ ≠ t.rootSurface.pixel ⟨50, 45⟩)) = some true := by
    with_unfolding_all rfl
  rw [hs, Option.bind_some, hdrawn.drawn, Option.bind_some, Option.map_eq_some_iff] at hpixel
  obtain ⟨s', hs', hne⟩ := hpixel
  refine ⟨s, r, w, a, b, t, f, s', hs, h, coversRects_square, hdrawn, ?_, hs', fun heq => ?_⟩
  · rw [h.size]
    decide
  · rw [decide_eq_true_eq, heq] at hne
    exact hne rfl

end Sample

end GuiLibrary

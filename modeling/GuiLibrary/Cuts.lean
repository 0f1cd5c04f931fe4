import GuiLibrary.Display

/-!
# Clean cuts

A call draws a widget inside a clipper. It draws what the widget shows in the whole window, cut at
the clipper, unless the widget is a button with `no_clipping`, shows a label that is not cut, or is
left a sliver of its face or a part of its image by the clipper. On the pick surface only the flag
`no_clipping` matters. All this is asked for a single pixel, so that a widget that is not there may
be cut in any way.

## Main definitions

* `Untouched`, `CutsAt`, `LabelFits`.

## Main results

* `drawsCut_root`, `drawsCut_pick`: clean cuts draw what `DrawsCut` asks for.
* `callEffect_pick`: the pick colour of a widget.
-/

namespace GuiLibrary

open Cells Pictures

section Classes

variable [Hardware] [Raster] [TextRendering]

section Cuts

variable {s : AppState} {window : Size} {q : Ptr} {w : Widget} {K : Rect} {x : Point}

/-- Nothing of the widget is at the pixel, on neither plane, whatever its clipper. -/
def Untouched (s : AppState) (q : Ptr) (w : Widget) (x : Point) : Prop :=
  (∀ K l, ¬ Paints s q w K x l) ∧ ¬ InExtent w x

/-- The clipper cuts the widget cleanly at the pixel: the widget has not the flag `no_clipping`; a
label that is not cut at the clipper does not show outside; and inside, the face is filled as in
the whole window, and an image starts at the same corner. -/
structure CutsAt (s : AppState) (window : Size) (q : Ptr) (w : Widget) (K : Rect) (x : Point) :
    Prop where
  clipped : w.Clipped
  label : ∀ a label, w.attrs.labelled = some a → a.borderWidth = 0 →
    labelRect s q w a = some label → x ∈ label → x ∈ w.screenLocation → x ∈ K
  face : x ∈ K → (Paints s q w (getEiRectIntersection (Rect.ofSize window) K) x .face ↔
    Paints s q w (Rect.ofSize window) x .face)
  image : x ∈ K → ∀ a label, w.attrs.labelled = some a → a.text = none →
    labelRect s q w a = some label → x ∈ label → x ∈ finalClipper w a (Rect.ofSize window) →
      (getEiRectIntersection label
        (finalClipper w a (getEiRectIntersection (Rect.ofSize window) K))).topLeft =
      (getEiRectIntersection label (finalClipper w a (Rect.ofSize window))).topLeft

/-- A label that is not cut at the clipper stays in the window. -/
def LabelFits (s : AppState) (window : Size) (q : Ptr) (w : Widget) : Prop :=
  ¬ Layer.label.Cut w → ∀ K y, Paints s q w K y .label → y ∈ Rect.ofSize window

/-- What a call makes of a pixel, layer by layer. -/
theorem callEffect_root (hq : s.widgets q = some w) (hd : (drawingOf s (q, K)).isSome) :
    callEffect s .root (q, K) x =
      seq (layers.map fun l => effects s.rootSurface (layerPrimitives s q w K l)) x := by
  obtain ⟨d, hd⟩ := Option.isSome_iff_exists.mp hd
  have hprimitives : d.primitivesOn .root = callPrimitives s (q, K) := surface_drawingOf hd
  rw [callEffect, hd, Option.elim_some, hprimitives, callPrimitives]
  refine (effects_flatMap _ _).trans (seq_congr fun l _ => ?_)
  rw [primitivesOf_eq hq]
  rfl

theorem isSome_drawingOf (hq : s.widgets q = some w) (hd : (drawingOf s (q, K)).isSome)
    (K' : Rect) : (drawingOf s (q, K')).isSome := by
  obtain ⟨d, hd⟩ := Option.isSome_iff_exists.mp hd
  simp only [drawingOf, hq, Option.bind_eq_bind, Option.bind_some] at hd ⊢
  obtain ⟨d', hd'⟩ := exists_drawing_cut hd K'
  rw [hd']
  rfl

theorem Untouched.callEffect_root (h : Untouched s q w x) (hq : s.widgets q = some w)
    (hd : (drawingOf s (q, K)).isSome) : callEffect s .root (q, K) x = id := by
  rw [GuiLibrary.callEffect_root hq hd]
  refine seq_eq_id fun e he => ?_
  obtain ⟨l, -, rfl⟩ := List.mem_map.mp he
  exact effects_of_not_paints (h.1 K l)

namespace CutsAt

theorem drawsAlike (h : CutsAt s window q w K x) (hx : x ∈ Rect.ofSize window) (hK : x ∈ K)
    (l : Layer) : DrawsAlike s q w (Rect.ofSize window) K x l where
  redrawn _ _ := Or.inr fun hneg =>
    notMem_of_negative hneg (mem_getEiRectIntersection.mpr ⟨hx, hK⟩)
  outside _ hnot := absurd hK hnot
  face hl _ := hl ▸ h.face hK
  image _ _ := h.image hK

theorem not_paints (h : CutsAt s window q w K x) (hK : x ∉ K) (l : Layer) :
    ¬ Paints s q w K x l := by
  intro hpaints
  by_cases hcut : l.Cut w
  · exact hK (hpaints.mem hcut)
  · cases l with
    | toplevel | face => exact hcut trivial
    | border => exact hcut h.clipped
    | label =>
      obtain ⟨a, label, ha, hlabel, hxl, hxf⟩ := hpaints
      have hb : a.borderWidth = 0 := by
        by_contra hb
        exact hcut fun a' ha' => Option.some.inj (ha.symm.trans ha') ▸ hb
      rw [finalClipper, if_neg (not_not.mpr hb)] at hxf
      exact hK (h.label a label ha hb hlabel hxl hxf)

/-- What `CutsCleanly` says of all pixels. -/
theorem of_cutsCleanly (h : CutsCleanly w (Rect.ofSize window) K) (hraster : Raster.CoversRects) :
    CutsAt s window q w K x where
  clipped := h.clipped
  label a label ha hb hlabel := by
    simp [labelRect, h.image a ha, h.text a ha hb] at hlabel
  face hK := (h.drawsAlike (s := s) (q := q) (l := .face) hraster hK).face rfl hK
  image hK := (h.drawsAlike (s := s) (q := q) (l := .label) hraster hK).image rfl hK

end CutsAt

/-- **A widget of the window that is cut cleanly**, or has nothing at the pixel. -/
theorem drawsCut_root (hq : s.widgets q = some w) (hK : K.Within (Rect.ofSize window))
    (hsize : s.rootSurface.size = window) (hd : (drawingOf s (q, K)).isSome)
    (hlabel : LabelFits s window q w) (hx : x ∈ Rect.ofSize window)
    (h : Untouched s q w x ∨ CutsAt s window q w K x) : DrawsCut s window .root x (q, K) := by
  obtain ⟨d, hdraw⟩ := Option.isSome_iff_exists.mp hd
  refine ⟨⟨d, hdraw, fun primitive hmem => ?_⟩, ?_⟩
  · have hprimitives : d.primitivesOn .root = callPrimitives s (q, K) := surface_drawingOf hdraw
    rw [hprimitives] at hmem
    obtain ⟨l, -, hmem⟩ := List.mem_flatMap.mp hmem
    rw [primitivesOf_eq hq] at hmem
    have hsize' : (s.surfaceOf .root).size = window := hsize
    rw [hsize']
    refine fits_layer ?_ (fun hl hcut y hy => ?_) primitive hmem
    · simp only [Rect.Within, Rect.InWindow, Rect.ofSize] at hK ⊢
      omega
    · subst hl
      exact hlabel hcut K y hy
  · have hd' := isSome_drawingOf hq hd (Rect.ofSize window)
    rcases h with h | h
    · rw [h.callEffect_root hq hd, h.callEffect_root hq hd', ite_self]
    · rw [callEffect_root hq hd, callEffect_root hq hd']
      split_ifs with hxK
      · refine seq_congr fun l _ => ?_
        have hcut : getEiRectIntersection (Rect.ofSize window) K = K := hK.intersection
        rw [← effects_layer_cut (h.drawsAlike hx hxK l), hcut]
      · refine seq_eq_id fun e he => ?_
        obtain ⟨l, -, rfl⟩ := List.mem_map.mp he
        exact effects_of_not_paints (h.not_paints hxK l)

/-- What a widget makes of a pixel of its extent on the pick surface: a toplevel is filled, a frame
or a button is a polygon. Both set the pick colour when it is opaque. -/
def pickFill (surface : Surface) (w : Widget) (v : BitVec 32) : BitVec 32 :=
  match w.attrs with
  | .toplevel _ => eiMapRgba surface w.pickColor
  | .frame _ | .button _ => fillPixel surface w.pickColor v

omit [Hardware] [TextRendering] in
theorem pickFill_of_alpha_eq {surface : Surface} (h : w.pickColor.alpha = 255) (v : BitVec 32) :
    pickFill surface w v = eiMapRgba surface w.pickColor := by
  rw [pickFill]
  split
  · rfl
  all_goals exact fillPixel_of_alpha_eq surface h v

/-- On the pick surface a widget is its extent, cut at the clipper, unless it is a button with
`no_clipping`. -/
theorem callEffect_pick (hq : s.widgets q = some w) (hclip : w.Clipped)
    (hd : (drawingOf s (q, K)).isSome) (v : BitVec 32) : callEffect s .pick (q, K) x v =
      if x ∈ K ∧ InExtent w x then pickFill s.pickSurface w v else v := by
  obtain ⟨d, hdraw⟩ := Option.isSome_iff_exists.mp hd
  rw [callEffect, hdraw, Option.elim_some]
  simp only [drawingOf, hq, Option.bind_eq_bind, Option.bind_some, drawing_of_clipped hclip,
    Option.some.injEq] at hdraw
  subst hdraw
  cases ha : w.attrs with
  | toplevel a =>
    simp only [Drawing.primitivesOn, drawtoplevel, effects, List.map_cons, List.map_nil, seq_cons,
      seq_nil, Primitive.effect, Function.comp_apply, id_eq, mem_getEiRectIntersection, InExtent,
      ha, pickFill]
    rfl
  | frame a =>
    simp only [Drawing.primitivesOn, drawframebuttonclasses, effects, List.map_cons, List.map_nil,
      seq_cons, seq_nil, Primitive.effect, Function.comp_apply, id_eq, InExtent, ha, pickPoints,
      cornerRadiusOf, Filled, pickFill]
    exact if_congr and_comm rfl rfl
  | button a =>
    simp only [Drawing.primitivesOn, drawframebuttonclasses, effects, List.map_cons, List.map_nil,
      seq_cons, seq_nil, Primitive.effect, Function.comp_apply, id_eq, InExtent, ha, pickPoints,
      cornerRadiusOf, Filled, pickFill]
    exact if_congr and_comm rfl rfl

/-- The primitives on the pick surface stay in it, and write in the extent of the widget only. -/
theorem mem_primitivesOn_pick {d : Drawing} {primitive : Primitive}
    (hd : drawing s q w K = some d) (hmem : primitive ∈ d.primitivesOn .pick) :
    (∀ size, K.InWindow size → primitive.Fits size) ∧ (primitive.Writes x → InExtent w x) := by
  cases hl : w.attrs.labelled with
  | none =>
    obtain ⟨b, hb⟩ : ∃ b, w.attrs = .toplevel b := by
      cases hattrs : w.attrs with
      | frame | button => simp [hattrs, Attrs.labelled] at hl
      | toplevel b => exact ⟨b, rfl⟩
    simp only [drawing, hb, Option.some.injEq] at hd
    subst hd
    obtain rfl := List.mem_singleton.mp hmem
    refine ⟨fun _ hK => inWindow_intersection hK _, fun hx => ?_⟩
    rw [InExtent, hb]
    exact (mem_getEiRectIntersection.mp hx).2
  | some a =>
    rw [drawing_of_labelled hl, Option.map_eq_some_iff] at hd
    obtain ⟨border, -, rfl⟩ := hd
    obtain rfl := List.mem_singleton.mp hmem
    refine ⟨fun _ _ => trivial, fun hx => ?_⟩
    have hfilled : Filled (pickPoints w) x := hx.1
    cases hattrs : w.attrs with
    | toplevel b => simp [hattrs, Attrs.labelled] at hl
    | frame b =>
      rw [InExtent, hattrs]
      exact hfilled
    | button b =>
      rw [InExtent, hattrs]
      exact hfilled

theorem Untouched.callEffect_pick (h : Untouched s q w x) (hq : s.widgets q = some w)
    (hd : (drawingOf s (q, K)).isSome) : callEffect s .pick (q, K) x = id := by
  obtain ⟨d, hdraw⟩ := Option.isSome_iff_exists.mp hd
  rw [callEffect, hdraw, Option.elim_some]
  simp only [drawingOf, hq, Option.bind_eq_bind, Option.bind_some] at hdraw
  exact effects_eq_id fun primitive hmem hx =>
    h.2 ((mem_primitivesOn_pick hdraw hmem).2 hx)

theorem drawsCut_pick (hq : s.widgets q = some w) (hK : K.Within (Rect.ofSize window))
    (hsize : s.pickSurface.size = window) (hd : (drawingOf s (q, K)).isSome)
    (hx : x ∈ Rect.ofSize window) (h : Untouched s q w x ∨ w.Clipped) :
    DrawsCut s window .pick x (q, K) := by
  obtain ⟨d, hdraw⟩ := Option.isSome_iff_exists.mp hd
  have hsize' : (s.surfaceOf .pick).size = window := hsize
  have hd' := isSome_drawingOf hq hd (Rect.ofSize window)
  refine ⟨⟨d, hdraw, fun primitive hmem => ?_⟩, ?_⟩
  · simp only [drawingOf, hq, Option.bind_eq_bind, Option.bind_some] at hdraw
    rw [hsize']
    refine (mem_primitivesOn_pick (x := x) hdraw hmem).1 window ?_
    simp only [Rect.Within, Rect.InWindow, Rect.ofSize] at hK ⊢
    omega
  · rcases h with h | hclip
    · rw [h.callEffect_pick hq hd, h.callEffect_pick hq hd', ite_self]
    · funext v
      rw [callEffect_pick hq hclip hd]
      split_ifs with hboth hK' hK'
      · rw [callEffect_pick hq hclip hd', if_pos ⟨hx, hboth.2⟩]
      · exact absurd hboth.1 hK'
      · rw [callEffect_pick hq hclip hd', if_neg fun h => hboth ⟨hK', h.2⟩]
      · rfl

end Cuts

end Classes

end GuiLibrary

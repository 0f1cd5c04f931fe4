import GuiLibrary.Data.Effect
import GuiLibrary.Images
import GuiLibrary.QuitButtons

/-!
# Drawing a widget again inside a smaller clipper

The primitives are local: what becomes of a pixel depends on its old value and on nothing else of
the surface. So a drawing has an effect on each pixel, and a redraw can be compared with a full draw
layer by layer and pixel by pixel.

A widget consists of layers: the polygons of its border, its face and its label, or the fills and
the title of a toplevel. Most layers are cut at the clipper. Two are not: the label of a widget
without border, and the border of a button with `no_clipping`. And two layers depend on the clipper
in another way than by being cut at it: the outline of the face is that of the clipped content area,
which may be `NULL` where that of the content area is not, and an image starts at the corner of what
is left of its rectangle.

## Main definitions

* `Primitive.effect`, `effects`: what the primitives make of a pixel.
* `Layer`, `layerPrimitives`, `Paints`: the layers of a widget, with the pixels that they paint.
* `Redrawn`: a widget of the full draw is drawn again in the redraw of a rectangle.
* `DrawsAlike`: a layer paints a pixel alike in both.

## Main results

* `pixel_runPrimitives_eq`, `runPrimitives_eq_self`: primitives run pixel by pixel.
* `surface_eq_layers`: a drawing consists of the layers of the widget.
* `hides_layer`: an opaque layer hides what was there before.
* `effects_layer_cut`, `effects_of_not_redrawn`: a layer that paints a pixel alike has the same
  effect there in both draws.
-/

namespace GuiLibrary

open Cells Pictures

/-! ### The effects of the primitives -/

section Primitives

variable [Raster]

namespace Primitive

/-- The call writes the pixel. -/
def Writes : Primitive → Point → Prop
  | polygon firstPoint _ clipper, x => Filled firstPoint x ∧ x ∈ clipper
  | fill _ clipper, x => x ∈ clipper
  | copy dstRect _ srcRect _, x => dstRect.size = srcRect.size ∧ x ∈ dstRect

/-- What the call makes of a pixel. Of the surface it takes the order of the channels. -/
def effect (surface : Surface) : Primitive → Effect Point (BitVec 32)
  | polygon firstPoint color clipper => fun x v =>
      if Filled firstPoint x ∧ x ∈ clipper then fillPixel surface color v else v
  | fill color clipper => fun x v => if x ∈ clipper then eiMapRgba surface color else v
  | copy dstRect source srcRect alpha => fun x v =>
      if dstRect.size = srcRect.size ∧ x ∈ dstRect then
        copyPixel surface source alpha
          (source.pixel (x.moved dstRect.topLeft srcRect.topLeft)) v
      else v

/-- The loops over the pixels stay in the surface. -/
def Fits (size : Size) : Primitive → Prop
  | polygon .. => True
  | fill _ clipper => clipper.InWindow size
  | copy dstRect _ _ _ => ∀ x ∈ dstRect, x ∈ Rect.ofSize size

/-- What is under the pixels that the call writes does not show through. -/
def Opaque : Primitive → Prop
  | polygon _ color _ => color.alpha = 255
  | fill .. => True
  | copy _ _ _ alpha => alpha = false

variable {surface : Surface} {primitive : Primitive} {x : Point}

theorem hides_effect (hhides : primitive.Opaque) (hx : primitive.Writes x) :
    (primitive.effect surface).Hides x := by
  intro v v'
  cases primitive with
  | polygon firstPoint color clipper =>
    have heffect : ∀ v, (polygon firstPoint color clipper).effect surface x v =
        eiMapRgba surface color := fun v =>
      (if_pos hx).trans (fillPixel_of_alpha_eq surface hhides v)
    rw [heffect, heffect]
  | fill color clipper => exact (if_pos hx).trans (if_pos hx).symm
  | copy dstRect source srcRect alpha =>
    obtain rfl : alpha = false := hhides
    exact (if_pos hx).trans (if_pos hx).symm

theorem effect_eq_id (h : ¬ primitive.Writes x) : primitive.effect surface x = id := by
  funext v
  cases primitive with
  | polygon firstPoint color clipper => exact if_neg h
  | fill color clipper => exact if_neg h
  | copy dstRect source srcRect alpha => exact if_neg h

/-- The effect depends only on the channels of the surface. -/
theorem effect_congr {surface surface' : Surface} (h : surface.channels = surface'.channels) :
    effect surface = effect surface' := by
  funext primitive
  cases primitive with
  | polygon firstPoint color clipper => simp only [effect, fillPixel_congr h]
  | fill color clipper => simp only [effect, eiMapRgba_congr h]
  | copy dstRect source srcRect alpha => simp only [effect, copyPixel, eiMapRgba, h]

omit [Raster] in
/-- Rectangles with a pixel whose pixels lie in the surface have their edges in the surface. -/
theorem inWindow_of_subset {size : Size} {r : Rect} (hx : x ∈ r)
    (h : ∀ y ∈ r, y ∈ Rect.ofSize size) : r.InWindow size := by
  obtain ⟨⟨hx₁, hx₂⟩, hx₃, hx₄⟩ := hx
  have hfirst := h r.topLeft (Rect.mem_iff.mpr ⟨⟨le_refl _, by omega⟩, le_refl _, by omega⟩)
  have hlast := h ⟨r.topLeft.x + r.size.width - 1, r.topLeft.y + r.size.height - 1⟩
    (by rw [Rect.mem_iff]; dsimp only; omega)
  simp only [Rect.mem_iff, Rect.ofSize, Rect.InWindow] at hfirst hlast ⊢
  omega

/-- **The primitives are local.** -/
theorem pixel_run_eq (hfits : primitive.Fits surface.size) (hx : x ∈ Rect.ofSize surface.size) :
    (primitive.run surface).pixel x = primitive.effect surface x (surface.pixel x) := by
  cases primitive with
  | polygon firstPoint color clipper =>
    refine (pixel_eiDrawPolygon surface firstPoint color clipper hx).trans (if_congr ?_ rfl rfl)
    rw [Filled, and_assoc]
  | fill color clipper => exact pixel_eiFill surface color hfits hx
  | copy dstRect source srcRect alpha =>
    simp only [run, effect]
    split_ifs with h
    · obtain ⟨hsize, hmem⟩ := h
      rw [pixel_eiCopySurface surface source alpha (inWindow_of_subset hmem hfits) hsize hx,
        if_pos hmem]
      rfl
    · by_cases hsize : dstRect.size = srcRect.size
      · have hi : x.index surface.size ∉ rectPtrs surface.size dstRect := fun hi =>
          h ⟨hsize, (index_mem_rectPtrs hx hfits).mp hi⟩
        rw [Surface.pixel, size_eiCopySurface]
        exact buffer_eiCopySurface_of_notMem surface source alpha hi
      · rw [eiCopySurface_of_ne surface source alpha hsize]

/-- A primitive that fits writes no address that is not one of a pixel of the surface. -/
theorem buffer_run_of_outside (hfits : primitive.Fits surface.size) {i : ℤ}
    (hi : ∀ y ∈ Rect.ofSize surface.size, y.index surface.size ≠ i) :
    (primitive.run surface).buffer i = surface.buffer i := by
  cases primitive with
  | polygon firstPoint color clipper =>
    simp only [run, eiDrawPolygon]
    rw [if_neg]
    rintro ⟨-, -, -, hmem⟩
    refine hi _ hmem ?_
    rw [Point.index, Int.mul_comm]
    exact Int.emod_add_mul_ediv i _
  | fill color clipper =>
    refine buffer_eiFill_of_notMem surface color fun hmem => ?_
    obtain ⟨y, hy, hindex⟩ := mem_rectPtrs.mp hmem
    exact hi y (hfits.mem_ofSize hy) hindex
  | copy dstRect source srcRect alpha =>
    refine buffer_eiCopySurface_of_notMem surface source alpha fun hmem => ?_
    obtain ⟨y, hy, hindex⟩ := mem_rectPtrs.mp hmem
    exact hi y (hfits y hy) hindex

end Primitive

/-- What the primitives make of a pixel, one after the other. -/
def effects (surface : Surface) (primitives : List Primitive) : Effect Point (BitVec 32) :=
  seq (primitives.map (Primitive.effect surface))

variable {surface : Surface} {primitives : List Primitive} {x : Point}

theorem effects_append (l l' : List Primitive) :
    effects surface (l ++ l') x = effects surface l' x ∘ effects surface l x := by
  rw [effects, List.map_append, seq_append]
  rfl

theorem effects_eq_id (h : ∀ primitive ∈ primitives, ¬ primitive.Writes x) :
    effects surface primitives x = id :=
  seq_eq_id fun e he => by
    obtain ⟨primitive, hmem, rfl⟩ := List.mem_map.mp he
    exact Primitive.effect_eq_id (h primitive hmem)

/-- **The pixels after some primitives.** -/
theorem pixel_runPrimitives_eq (hfits : ∀ primitive ∈ primitives, primitive.Fits surface.size)
    (hx : x ∈ Rect.ofSize surface.size) :
    (runPrimitives primitives surface).pixel x =
      effects surface primitives x (surface.pixel x) := by
  induction primitives generalizing surface with
  | nil => rfl
  | cons first rest ih =>
    have hsize := Primitive.size_run surface first
    have hrun : runPrimitives (first :: rest) surface =
      runPrimitives rest (first.run surface) := rfl
    have hrest : effects (first.run surface) rest = effects surface rest := by
      rw [effects, effects, Primitive.effect_congr (Primitive.channels_run surface first)]
    rw [hrun, ih (fun q hq => hsize ▸ hfits q (List.mem_cons_of_mem first hq)) (hsize ▸ hx), hrest,
      Primitive.pixel_run_eq (hfits first List.mem_cons_self) hx]
    rfl

theorem buffer_runPrimitives_of_outside
    (hfits : ∀ primitive ∈ primitives, primitive.Fits surface.size) {i : ℤ}
    (hi : ∀ y ∈ Rect.ofSize surface.size, y.index surface.size ≠ i) :
    (runPrimitives primitives surface).buffer i = surface.buffer i := by
  induction primitives generalizing surface with
  | nil => rfl
  | cons first rest ih =>
    have hsize := Primitive.size_run surface first
    have hrun : runPrimitives (first :: rest) surface =
      runPrimitives rest (first.run surface) := rfl
    rw [hrun, ih (fun q hq => hsize ▸ hfits q (List.mem_cons_of_mem first hq)) (hsize ▸ hi),
      Primitive.buffer_run_of_outside (hfits first List.mem_cons_self) hi]

/-- **Primitives that keep every pixel leave the surface alone.** -/
theorem runPrimitives_eq_self (hfits : ∀ primitive ∈ primitives, primitive.Fits surface.size)
    (h : ∀ x ∈ Rect.ofSize surface.size,
      effects surface primitives x (surface.pixel x) = surface.pixel x) :
    runPrimitives primitives surface = surface := by
  have hbuffer : (runPrimitives primitives surface).buffer = surface.buffer := by
    funext i
    by_cases hi : ∃ y ∈ Rect.ofSize surface.size, y.index surface.size = i
    · obtain ⟨y, hy, rfl⟩ := hi
      have hpixel := (pixel_runPrimitives_eq hfits hy).trans (h y hy)
      rwa [Surface.pixel, size_runPrimitives] at hpixel
    · exact buffer_runPrimitives_of_outside hfits fun y hy hindex => hi ⟨y, hy, hindex⟩
  have hsize := size_runPrimitives primitives surface
  have hchannels := channels_runPrimitives primitives surface
  cases hrun : runPrimitives primitives surface with
  | mk size channels buffer =>
    rw [hrun] at hbuffer hsize hchannels
    cases surface
    simp only at hbuffer hsize hchannels
    rw [hbuffer, hsize, hchannels]

end Primitives

/-! ### The layers of a widget -/

/-- The layers of a drawing: all of a toplevel, or the border, the face and the label of a frame or
of a button. -/
inductive Layer where
  | toplevel
  | border
  | face
  | label

/-- The layers in the order in which they are drawn. -/
def layers : List Layer := [.toplevel, .border, .face, .label]

/-- The layer of a widget is cut at the clipper: only the border of a button with `no_clipping` and
the label of a widget without border are not. -/
def Layer.Cut (w : Widget) : Layer → Prop
  | toplevel | face => True
  | border => w.Clipped
  | label => ∀ a, w.attrs.labelled = some a → a.borderWidth ≠ 0

/-- What is under the layer does not show through: the border and the face have an opaque colour,
and the label is not a text. -/
def Layer.Opaque (w : Widget) : Layer → Prop
  | toplevel => True
  | border | face => ∀ a, w.attrs.labelled = some a → a.color.alpha = 255
  | label => ∀ a, w.attrs.labelled = some a → a.text = none

/-- The attributes of a toplevel. -/
def Attrs.toplevelAttrs : Attrs → Option ToplevelAttrs
  | .toplevel b => some b
  | .frame _ | .button _ => none

section Layers

variable [Hardware] [Raster] [TextRendering]

/-- The polygons of the border with their colours: its two halves, or the whole widget when there is
no border. -/
def borderPolygons (w : Widget) (a : FrameAttrs) : List (List Point × Color) :=
  if a.borderWidth ≠ 0 then
    [(eiRoundedFrameHigh w.screenLocation (cornerRadiusOf w), (reliefColors a.relief a.color).1),
      (eiRoundedFrameLow w.screenLocation (cornerRadiusOf w), (reliefColors a.relief a.color).2)]
  else [(eiRoundedFrameAll w.screenLocation 0, a.color)]

/-- The polygon of the face, when there is a border. -/
def drawFace (w : Widget) (a : FrameAttrs) (K : Rect) : List Primitive :=
  if a.borderWidth ≠ 0 then
    [.polygon (eiRoundedFrameAll (finalClipper w a K) (cornerRadiusOf w)) a.color
      (finalClipper w a K)]
  else []

/-- The primitives of a layer of a widget, on the root surface. -/
def layerPrimitives (s : AppState) (q : Ptr) (w : Widget) (K : Rect) : Layer → List Primitive
  | .toplevel => w.attrs.toplevelAttrs.elim [] fun b => (drawtoplevel w b K).surface
  | .border =>
      w.attrs.labelled.elim [] fun a => (borderClipper s w K).elim [] fun border =>
        (borderPolygons w a).map fun polygon => .polygon polygon.1 polygon.2 border
  | .face => w.attrs.labelled.elim [] fun a => drawFace w a K
  | .label => w.attrs.labelled.elim [] fun a => drawLabel s q w a (finalClipper w a K)

/-- The layer of a widget that is drawn with the clipper `K` paints the pixel. For the border it
lies in a polygon and in the clipper of the polygons; for the face in the outline of the clipped
content area, and in this area; for the label in its rectangle, and in the clipper of the label. -/
def Paints (s : AppState) (q : Ptr) (w : Widget) (K : Rect) (x : Point) : Layer → Prop
  | .toplevel => ∃ b, w.attrs.toplevelAttrs = some b ∧ x ∈ K ∧ (x ∈ b.drawRect ∨ x ∈ w.content)
  | .border => ∃ a border, w.attrs.labelled = some a ∧ borderClipper s w K = some border ∧
      x ∈ border ∧ ∃ polygon ∈ borderPolygons w a, Filled polygon.1 x
  | .face => ∃ a, w.attrs.labelled = some a ∧ a.borderWidth ≠ 0 ∧
      Filled (eiRoundedFrameAll (finalClipper w a K) (cornerRadiusOf w)) x ∧
      x ∈ finalClipper w a K
  | .label => ∃ a label, w.attrs.labelled = some a ∧ labelRect s q w a = some label ∧ x ∈ label ∧
      x ∈ finalClipper w a K

/-- The widget that a full draw draws with the clipper `K` is drawn again with the rectangle `C`:
the root always is, and another widget when the two have an intersection without negative side. -/
def Redrawn (s : AppState) (C : Rect) (q : Ptr) (K : Rect) : Prop :=
  s.rootWidget = some q ∨ ¬ (getEiRectIntersection K C).Negative

instance (s : AppState) (C : Rect) (q : Ptr) (K : Rect) : Decidable (Redrawn s C q K) :=
  inferInstanceAs (Decidable (_ ∨ _))

/-- The layer paints the pixel alike in a full draw, with the clipper `K`, and in a redraw of the
rectangle `C`. A layer that is not cut is drawn again where it paints the pixel; a layer that is cut
does not paint it outside `C`; and inside, the outline of the face fills it in both draws or in
none, and an image that shows there starts at the same corner. -/
structure DrawsAlike (s : AppState) (q : Ptr) (w : Widget) (K C : Rect) (x : Point) (l : Layer) :
    Prop where
  redrawn : ¬ l.Cut w → Paints s q w K x l → Redrawn s C q K
  outside : l.Cut w → x ∉ C → ¬ Paints s q w K x l
  face : l = .face → x ∈ C → (Paints s q w (getEiRectIntersection K C) x l ↔ Paints s q w K x l)
  image : l = .label → x ∈ C → ∀ a label, w.attrs.labelled = some a → a.text = none →
    labelRect s q w a = some label → x ∈ label → x ∈ finalClipper w a K →
      (getEiRectIntersection label (finalClipper w a (getEiRectIntersection K C))).topLeft =
        (getEiRectIntersection label (finalClipper w a K)).topLeft

end Layers

section Drawings

variable [Hardware] [Raster] [TextRendering] {s : AppState} {q : Ptr} {w : Widget} {a : FrameAttrs}
  {K C : Rect} {x : Point} {d : Drawing} {surface : Surface} {l : Layer}

omit [Hardware] [Raster] [TextRendering] in
theorem borderClipper_of_clipped (h : w.Clipped) : borderClipper s w K = some K := by
  cases ha : w.attrs with
  | frame b => simp only [borderClipper, ha]
  | toplevel b => simp only [borderClipper, ha]
  | button b => simp only [borderClipper, ha, h b ha, Bool.false_eq_true, if_false]

omit [Hardware] [Raster] [TextRendering] in
/-- The border of a button with `no_clipping` does not depend on the clipper. -/
theorem borderClipper_of_not_clipped (h : ¬ w.Clipped) (K K' : Rect) :
    borderClipper s w K = borderClipper s w K' := by
  simp only [Widget.Clipped, not_forall, Bool.not_eq_false] at h
  obtain ⟨b, hb, hno⟩ := h
  simp only [borderClipper, hb, hno, if_true]

/-- Frames and buttons are drawn by the same function. -/
theorem drawing_of_labelled (ha : w.attrs.labelled = some a) : drawing s q w K =
    (borderClipper s w K).map fun border =>
      drawframebuttonclasses s q w a (cornerRadiusOf w) border K := by
  cases hattrs : w.attrs with
  | frame b =>
    obtain rfl : b = a := by simpa [hattrs, Attrs.labelled] using ha
    simp only [drawing, borderClipper, cornerRadiusOf, hattrs, Option.map_some]
  | button b =>
    obtain rfl : b.toFrameAttrs = a := by simpa [hattrs, Attrs.labelled] using ha
    simp only [drawing, cornerRadiusOf, hattrs, Option.bind_eq_bind]
    cases borderClipper s w K <;> rfl
  | toplevel b => simp [hattrs, Attrs.labelled] at ha

/-- **A drawing consists of the layers of the widget**, one after the other. -/
theorem surface_eq_layers (hd : drawing s q w K = some d) :
    d.surface = layers.flatMap (layerPrimitives s q w K) := by
  cases ha : w.attrs.labelled with
  | none =>
    obtain ⟨b, hb⟩ : ∃ b, w.attrs = .toplevel b := by
      cases hattrs : w.attrs with
      | frame | button => simp [hattrs, Attrs.labelled] at ha
      | toplevel b => exact ⟨b, rfl⟩
    simp only [drawing, hb, Option.some.injEq] at hd
    subst hd
    simp only [layers, List.flatMap_cons, List.flatMap_nil, layerPrimitives, ha, Option.elim_none,
      List.append_nil]
    simp only [Attrs.toplevelAttrs, hb, Option.elim_some]
  | some a =>
    have hnone : w.attrs.toplevelAttrs = none := by
      cases hattrs : w.attrs with
      | frame | button => rfl
      | toplevel b => simp [hattrs, Attrs.labelled] at ha
    rw [drawing_of_labelled ha, Option.map_eq_some_iff] at hd
    obtain ⟨border, hborder, rfl⟩ := hd
    simp only [layers, List.flatMap_cons, List.flatMap_nil, layerPrimitives, ha, hnone, hborder,
      Option.elim_none, Option.elim_some, List.append_nil, List.nil_append]
    rw [surface_drawframebuttonclasses, drawBody, borderPolygons, drawFace]
    split_ifs <;> rfl

omit [Raster] in
/-- The label is one copy, of its rectangle in its clipper. -/
theorem mem_drawLabel {primitive : Primitive}
    (h : primitive ∈ drawLabel s q w a (finalClipper w a K)) : ∃ label source srcRect alpha,
      labelRect s q w a = some label ∧
      (getEiRectIntersection label (finalClipper w a K)).size = srcRect.size ∧ primitive =
        .copy (getEiRectIntersection label (finalClipper w a K)) source srcRect alpha := by
  cases hlabel : labelRect s q w a with
  | none => simp [drawLabel_of_none hlabel] at h
  | some label =>
    obtain ⟨source, srcRect, alpha, hsize, heq⟩ :=
      drawLabel_of_labelRect hlabel (finalClipper w a K)
    rw [heq, List.mem_singleton] at h
    exact ⟨label, source, srcRect, alpha, rfl, hsize, h⟩

omit [Hardware] [Raster] [TextRendering] in
theorem mem_elim_nil {α β : Type} {o : Option α} {g : α → List β} {b : β} :
    b ∈ o.elim [] g ↔ ∃ a, o = some a ∧ b ∈ g a := by
  cases o <;> simp

omit [Hardware] [TextRendering] in
theorem mem_drawFace {primitive : Primitive} : primitive ∈ drawFace w a K ↔ a.borderWidth ≠ 0 ∧
    primitive = .polygon (eiRoundedFrameAll (finalClipper w a K) (cornerRadiusOf w)) a.color
      (finalClipper w a K) := by
  rw [drawFace]
  split_ifs with hb <;> simp [hb]

/-- The primitives of a toplevel write in its painted rectangle and in its content area. -/
theorem mem_of_mem_drawtoplevel {b : ToplevelAttrs} {primitive : Primitive}
    (h : primitive ∈ (drawtoplevel w b K).surface) (hx : primitive.Writes x) :
    x ∈ K ∧ (x ∈ b.drawRect ∨ x ∈ w.content) := by
  simp only [drawtoplevel, List.mem_append, List.mem_cons, List.not_mem_nil, or_false] at h
  rcases h with (rfl | rfl) | h
  · obtain ⟨hK, hr⟩ := mem_getEiRectIntersection.mp hx
    exact ⟨hK, Or.inl hr⟩
  · obtain ⟨hK, hr⟩ := mem_getEiRectIntersection.mp hx
    exact ⟨hK, Or.inr hr⟩
  · cases ht : b.title with
    | none => simp [ht] at h
    | some text =>
      simp only [ht, Option.elim_some, List.mem_singleton] at h
      subst h
      obtain ⟨hK, hr⟩ := mem_getEiRectIntersection.mp (mem_getEiRectIntersection.mp hx.2).2
      exact ⟨hK, Or.inl hr⟩

/-- **What the primitives of a layer write** is what the layer paints. -/
theorem paints_of_writes {primitive : Primitive} (h : primitive ∈ layerPrimitives s q w K l)
    (hx : primitive.Writes x) : Paints s q w K x l := by
  cases l with
  | toplevel =>
    obtain ⟨b, hb, hmem⟩ := mem_elim_nil.mp h
    exact ⟨b, hb, mem_of_mem_drawtoplevel hmem hx⟩
  | border =>
    obtain ⟨a, ha, h⟩ := mem_elim_nil.mp h
    obtain ⟨border, hborder, h⟩ := mem_elim_nil.mp h
    obtain ⟨polygon, hpolygon, rfl⟩ := List.mem_map.mp h
    exact ⟨a, border, ha, hborder, hx.2, polygon, hpolygon, hx.1⟩
  | face =>
    obtain ⟨a, ha, h⟩ := mem_elim_nil.mp h
    obtain ⟨hb, rfl⟩ := mem_drawFace.mp h
    exact ⟨a, ha, hb, hx⟩
  | label =>
    obtain ⟨a, ha, h⟩ := mem_elim_nil.mp h
    obtain ⟨label, source, srcRect, alpha, hlabel, -, rfl⟩ := mem_drawLabel h
    obtain ⟨hxl, hxf⟩ := mem_getEiRectIntersection.mp hx.2
    exact ⟨a, label, ha, hlabel, hxl, hxf⟩

theorem effects_of_not_paints (h : ¬ Paints s q w K x l) :
    effects surface (layerPrimitives s q w K l) x = id :=
  effects_eq_id fun _ hmem hx => h (paints_of_writes hmem hx)

omit [Hardware] [TextRendering] in
/-- The border is painted in the colour of the widget, or in the colours of its relief. -/
theorem alpha_of_mem_borderPolygons {polygon : List Point × Color}
    (h : polygon ∈ borderPolygons w a) : polygon.2.alpha = a.color.alpha := by
  obtain ⟨htop, hbottom⟩ := alpha_reliefColors a.relief a.color
  rw [borderPolygons] at h
  split_ifs at h
  · simp only [List.mem_cons, List.not_mem_nil, or_false] at h
    rcases h with rfl | rfl
    · exact htop
    · exact hbottom
  · rw [List.mem_singleton.mp h]

/-- An opaque layer paints with opaque primitives. -/
theorem exists_opaque (hhides : l.Opaque w) (h : Paints s q w K x l) :
    ∃ primitive ∈ layerPrimitives s q w K l, primitive.Opaque ∧ primitive.Writes x := by
  cases l with
  | toplevel =>
    obtain ⟨b, hb, hxK, hx⟩ := h
    simp only [layerPrimitives, hb, Option.elim_some, drawtoplevel]
    rcases hx with hx | hx
    · exact ⟨.fill ⟨50, 50, 50, 255⟩ (getEiRectIntersection K b.drawRect),
        List.mem_append_left _ List.mem_cons_self, trivial,
        mem_getEiRectIntersection.mpr ⟨hxK, hx⟩⟩
    · exact ⟨.fill b.backgroundColor (getEiRectIntersection K w.content),
        List.mem_append_left _ (List.mem_cons_of_mem _ List.mem_cons_self), trivial,
        mem_getEiRectIntersection.mpr ⟨hxK, hx⟩⟩
  | border =>
    obtain ⟨a, border, ha, hborder, hxb, polygon, hpolygon, hfilled⟩ := h
    simp only [layerPrimitives, ha, hborder, Option.elim_some]
    exact ⟨_, List.mem_map_of_mem hpolygon,
      (alpha_of_mem_borderPolygons hpolygon).trans (hhides a ha), hfilled, hxb⟩
  | face =>
    obtain ⟨a, ha, hb, hx⟩ := h
    simp only [layerPrimitives, ha, Option.elim_some]
    exact ⟨_, mem_drawFace.mpr ⟨hb, rfl⟩, hhides a ha, hx⟩
  | label =>
    obtain ⟨a, label, ha, hlabel, hxl, hxf⟩ := h
    have htext := hhides a ha
    simp only [layerPrimitives, ha, Option.elim_some]
    cases himg : a.img with
    | none => simp [labelRect, htext, himg] at hlabel
    | some img =>
      simp only [labelRect, htext, himg, Option.some.injEq] at hlabel
      subst hlabel
      simp only [drawLabel, htext, himg]
      refine ⟨_, List.mem_singleton_self _, ?_, ?_, mem_getEiRectIntersection.mpr ⟨hxl, hxf⟩⟩ <;>
        rfl

/-- **An opaque layer hides what was there before.** -/
theorem hides_layer (hhides : l.Opaque w) (h : Paints s q w K x l) :
    Effect.Hides (effects surface (layerPrimitives s q w K l)) x := by
  obtain ⟨primitive, hmem, hprimitive, hx⟩ := exists_opaque hhides h
  exact hides_seq (List.mem_map_of_mem hmem) (Primitive.hides_effect hprimitive hx)

/-- The primitives of a layer stay in the surface, if the label does in a widget without border. -/
theorem fits_layer {size : Size} (hK : K.InWindow size)
    (hlabel : l = .label → ¬ l.Cut w → ∀ y, Paints s q w K y l → y ∈ Rect.ofSize size) :
    ∀ primitive ∈ layerPrimitives s q w K l, primitive.Fits size := by
  intro primitive hmem
  cases l with
  | toplevel =>
    obtain ⟨b, -, hmem⟩ := mem_elim_nil.mp hmem
    simp only [drawtoplevel, List.mem_append, List.mem_cons, List.not_mem_nil, or_false] at hmem
    rcases hmem with (rfl | rfl) | hmem
    · exact inWindow_intersection hK _
    · exact inWindow_intersection hK _
    · cases ht : b.title with
      | none => simp [ht] at hmem
      | some text =>
        simp only [ht, Option.elim_some, List.mem_singleton] at hmem
        subst hmem
        intro y hy
        exact hK.mem_ofSize
          (mem_getEiRectIntersection.mp (mem_getEiRectIntersection.mp hy).2).1
  | border =>
    obtain ⟨a, -, hmem⟩ := mem_elim_nil.mp hmem
    obtain ⟨border, -, hmem⟩ := mem_elim_nil.mp hmem
    obtain ⟨polygon, -, rfl⟩ := List.mem_map.mp hmem
    trivial
  | face =>
    obtain ⟨a, -, hmem⟩ := mem_elim_nil.mp hmem
    obtain ⟨-, rfl⟩ := mem_drawFace.mp hmem
    trivial
  | label =>
    obtain ⟨a, ha, hmem⟩ := mem_elim_nil.mp hmem
    obtain ⟨label, source, srcRect, alpha, hrect, -, rfl⟩ := mem_drawLabel hmem
    intro y hy
    obtain ⟨hyl, hyf⟩ := mem_getEiRectIntersection.mp hy
    by_cases hb : a.borderWidth = 0
    · exact hlabel rfl (fun hcut => hcut a ha hb) y ⟨a, label, ha, hrect, hyl, hyf⟩
    · rw [finalClipper, if_pos hb] at hyf
      exact hK.mem_ofSize (mem_getEiRectIntersection.mp hyf).1

/-! ### Drawing again -/

omit [Hardware] [Raster] [TextRendering] in
theorem mem_finalClipper (hx : x ∈ finalClipper w a K) (hb : a.borderWidth ≠ 0) : x ∈ K := by
  rw [finalClipper, if_pos hb] at hx
  exact (mem_getEiRectIntersection.mp hx).1

/-- The layers that are cut at the clipper lie in it. -/
theorem Paints.mem (h : Paints s q w K x l) (hcut : l.Cut w) : x ∈ K := by
  cases l with
  | toplevel =>
    obtain ⟨b, -, hx, -⟩ := h
    exact hx
  | border =>
    obtain ⟨a, border, -, hborder, hx, -⟩ := h
    rw [borderClipper_of_clipped hcut, Option.some.injEq] at hborder
    exact hborder ▸ hx
  | face =>
    obtain ⟨a, -, hb, -, hx⟩ := h
    exact mem_finalClipper hx hb
  | label =>
    obtain ⟨a, label, ha, -, -, hx⟩ := h
    exact mem_finalClipper hx (hcut a ha)

omit [Hardware] [Raster] [TextRendering] in
/-- The clipper of a redraw and that of a full draw agree on a pixel that lies in `C`, or not in the
latter. -/
theorem mem_cut_iff (h : x ∉ C → x ∉ K) : x ∈ getEiRectIntersection K C ↔ x ∈ K := by
  rw [mem_getEiRectIntersection, and_iff_left_iff_imp]
  intro hK
  by_contra hC
  exact h hC hK

omit [Hardware] in
/-- A text shows at each pixel what it shows there, whatever clipper the pixel lies in. -/
theorem effect_eiDrawText_congr {whereAt : Point} {text : Text} {font : Font} {color : Color}
    {clip clip' : Rect}
    (h : x ∈ (⟨whereAt, (TextRendering.hwTextCreateSurface text font color).size⟩ : Rect) →
      (x ∈ clip' ↔ x ∈ clip)) :
    (eiDrawText whereAt text font color clip').effect surface x =
      (eiDrawText whereAt text font color clip).effect surface x := by
  have hmoved : ∀ clip : Rect, x.moved (getEiRectIntersection
      ⟨whereAt, (TextRendering.hwTextCreateSurface text font color).size⟩ clip).topLeft
      ⟨max 0 ((getEiRectIntersection
          ⟨whereAt, (TextRendering.hwTextCreateSurface text font color).size⟩ clip).topLeft.x -
            whereAt.x),
        max 0 ((getEiRectIntersection
          ⟨whereAt, (TextRendering.hwTextCreateSurface text font color).size⟩ clip).topLeft.y -
            whereAt.y)⟩ = ⟨x.x - whereAt.x, x.y - whereAt.y⟩ := by
    intro clip
    simp only [Point.moved, getEiRectIntersection, Point.mk.injEq]
    omega
  funext v
  simp only [eiDrawText, Primitive.effect, true_and, mem_getEiRectIntersection, hmoved]
  exact if_congr (and_congr_right h) rfl rfl

/-- Two clippers that agree on the pixel show the same part of a label there, if an image starts at
the same corner in both. -/
theorem effects_drawLabel_congr {clip clip' : Rect}
    (hclip : ∀ label, labelRect s q w a = some label → x ∈ label → (x ∈ clip' ↔ x ∈ clip))
    (hcorner : a.text = none → ∀ label, labelRect s q w a = some label → x ∈ label → x ∈ clip →
      (getEiRectIntersection label clip').topLeft = (getEiRectIntersection label clip).topLeft) :
    effects surface (drawLabel s q w a clip') x = effects surface (drawLabel s q w a clip) x := by
  cases htext : a.text with
  | some text =>
    simp only [labelRect, htext, Option.some.injEq, forall_eq'] at hclip
    simp only [drawLabel, htext, effects, List.map_cons, List.map_nil, seq_cons, seq_nil]
    rw [effect_eiDrawText_congr hclip]
  | none =>
    cases himg : a.img with
    | none => simp only [drawLabel, htext, himg]
    | some img =>
      simp only [labelRect, htext, himg, Option.some.injEq, forall_eq', true_imp_iff]
        at hclip hcorner
      simp only [drawLabel, htext, himg, effects, List.map_cons, List.map_nil, seq_cons, seq_nil]
      refine congrArg (id ∘ ·) (funext fun v => ?_)
      simp only [Primitive.effect, true_and, mem_getEiRectIntersection]
      refine if_ctx_congr (and_congr_right hclip) (fun hx => ?_) fun _ => rfl
      rw [hcorner hx.1 hx.2]

/-- The layer of a toplevel that is drawn again. -/
theorem effects_toplevel_cut (h : DrawsAlike s q w K C x .toplevel) :
    effects surface (layerPrimitives s q w (getEiRectIntersection K C) .toplevel) x =
      effects surface (layerPrimitives s q w K .toplevel) x := by
  cases hb : w.attrs.toplevelAttrs with
  | none => simp only [layerPrimitives, hb, Option.elim_none]
  | some b =>
    have harea : ∀ r : Rect, (r = b.drawRect ∨ r = w.content) →
        (x ∈ getEiRectIntersection (getEiRectIntersection K C) r ↔
          x ∈ getEiRectIntersection K r) := by
      intro r hr
      rw [@mem_getEiRectIntersection x _ r, @mem_getEiRectIntersection x _ r, and_congr_left_iff]
      refine fun hxr => mem_cut_iff fun hC hK => h.outside trivial hC ⟨b, hb, hK, ?_⟩
      rcases hr with rfl | rfl
      · exact Or.inl hxr
      · exact Or.inr hxr
    simp only [layerPrimitives, hb, Option.elim_some, drawtoplevel, effects_append]
    congr 1
    · cases b.title with
      | none => rfl
      | some text =>
        exact congrArg (id ∘ ·) (effect_eiDrawText_congr fun _ => harea _ (Or.inl rfl))
    · funext v
      simp only [effects, List.map_cons, List.map_nil, seq_cons, seq_nil, Function.comp_apply,
        Primitive.effect, harea b.drawRect (Or.inl rfl), harea w.content (Or.inr rfl)]

/-- The border of a widget that is drawn again. -/
theorem effects_border_cut (h : DrawsAlike s q w K C x .border) :
    effects surface (layerPrimitives s q w (getEiRectIntersection K C) .border) x =
      effects surface (layerPrimitives s q w K .border) x := by
  cases ha : w.attrs.labelled with
  | none => simp only [layerPrimitives, ha, Option.elim_none]
  | some a =>
    by_cases hclip : w.Clipped
    · simp only [layerPrimitives, ha, borderClipper_of_clipped hclip, Option.elim_some, effects,
        List.map_map]
      refine seq_congr fun polygon hpolygon => funext fun v => ?_
      refine if_congr (and_congr_right fun hfilled => mem_cut_iff fun hC hK => ?_) rfl rfl
      exact h.outside hclip hC
        ⟨a, K, ha, borderClipper_of_clipped hclip, hK, polygon, hpolygon, hfilled⟩
    · simp only [layerPrimitives, borderClipper_of_not_clipped hclip (getEiRectIntersection K C) K]

/-- The face of a widget that is drawn again. -/
theorem effects_face_cut (h : DrawsAlike s q w K C x .face) :
    effects surface (layerPrimitives s q w (getEiRectIntersection K C) .face) x =
      effects surface (layerPrimitives s q w K .face) x := by
  have hface : Paints s q w (getEiRectIntersection K C) x .face ↔ Paints s q w K x .face := by
    by_cases hC : x ∈ C
    · exact h.face rfl hC
    · exact iff_of_false (fun hx => hC (mem_getEiRectIntersection.mp (hx.mem trivial)).2)
        (h.outside trivial hC)
  cases ha : w.attrs.labelled with
  | none => simp only [layerPrimitives, ha, Option.elim_none]
  | some a =>
    by_cases hb : a.borderWidth = 0
    · simp only [layerPrimitives, ha, Option.elim_some, drawFace, if_neg (not_not.mpr hb)]
    · simp only [Paints, ha, Option.some.injEq, exists_eq_left', ne_eq, hb, not_false_eq_true,
        true_and] at hface
      simp only [layerPrimitives, ha, Option.elim_some, drawFace, if_pos hb]
      funext v
      exact if_congr hface rfl rfl

/-- The label of a widget that is drawn again. -/
theorem effects_label_cut (h : DrawsAlike s q w K C x .label) :
    effects surface (layerPrimitives s q w (getEiRectIntersection K C) .label) x =
      effects surface (layerPrimitives s q w K .label) x := by
  cases ha : w.attrs.labelled with
  | none => simp only [layerPrimitives, ha, Option.elim_none]
  | some a =>
    simp only [layerPrimitives, ha, Option.elim_some]
    by_cases hb : a.borderWidth = 0
    · simp only [finalClipper, if_neg (not_not.mpr hb)]
    · have hcut : Layer.label.Cut w := fun a' ha' =>
        Option.some.inj (ha.symm.trans ha') ▸ hb
      have hC : ∀ label, labelRect s q w a = some label → x ∈ label → x ∈ finalClipper w a K →
          x ∈ C := fun label hlabel hxl hxf => by
        by_contra hC
        exact h.outside hcut hC ⟨a, label, ha, hlabel, hxl, hxf⟩
      refine effects_drawLabel_congr (fun label hlabel hxl => ⟨fun hxf => ?_, fun hxf => ?_⟩)
        fun htext label hlabel hxl hxf =>
          h.image rfl (hC label hlabel hxl hxf) a label ha htext hlabel hxl hxf
      · rw [finalClipper, if_pos hb] at hxf ⊢
        obtain ⟨hK, hc⟩ := mem_getEiRectIntersection.mp hxf
        exact mem_getEiRectIntersection.mpr ⟨(mem_getEiRectIntersection.mp hK).1, hc⟩
      · have hxC := hC label hlabel hxl hxf
        rw [finalClipper, if_pos hb] at hxf ⊢
        obtain ⟨hK, hc⟩ := mem_getEiRectIntersection.mp hxf
        exact mem_getEiRectIntersection.mpr ⟨mem_getEiRectIntersection.mpr ⟨hK, hxC⟩, hc⟩

/-- **A layer that is drawn again** has the same effect on a pixel that it paints alike. -/
theorem effects_layer_cut (h : DrawsAlike s q w K C x l) :
    effects surface (layerPrimitives s q w (getEiRectIntersection K C) l) x =
      effects surface (layerPrimitives s q w K l) x := by
  cases l with
  | toplevel => exact effects_toplevel_cut h
  | border => exact effects_border_cut h
  | face => exact effects_face_cut h
  | label => exact effects_label_cut h

/-- A layer that is not drawn again has no effect on a pixel that it paints alike. -/
theorem effects_of_not_redrawn (h : DrawsAlike s q w K C x l) (hnot : ¬ Redrawn s C q K) :
    effects surface (layerPrimitives s q w K l) x = id := by
  refine effects_of_not_paints fun hpaints => ?_
  by_cases hcut : l.Cut w
  · by_cases hC : x ∈ C
    · refine hnot (Or.inr fun hneg => ?_)
      have hx := mem_getEiRectIntersection.mpr ⟨hpaints.mem hcut, hC⟩
      simp only [Rect.Negative, Rect.mem_iff] at hneg hx
      omega
    · exact h.outside hcut hC hpaints
  · exact hnot (h.redrawn hcut hpaints)

/-- A widget that can be drawn can be drawn with another clipper. -/
theorem exists_drawing_cut (hd : drawing s q w K = some d) (K' : Rect) :
    ∃ d', drawing s q w K' = some d' := by
  cases hattrs : w.attrs with
  | frame b => exact ⟨_, by rw [drawing, hattrs]⟩
  | toplevel b => exact ⟨_, by rw [drawing, hattrs]⟩
  | button b =>
    have ha : w.attrs.labelled = some b.toFrameAttrs := by rw [hattrs, Attrs.labelled]
    rw [drawing_of_labelled ha] at hd ⊢
    by_cases hclip : w.Clipped
    · exact ⟨_, by rw [borderClipper_of_clipped hclip, Option.map_some]⟩
    · rw [borderClipper_of_not_clipped hclip K' K]
      obtain ⟨border, hborder, -⟩ := Option.map_eq_some_iff.mp hd
      exact ⟨_, by rw [hborder, Option.map_some]⟩

end Drawings

end GuiLibrary

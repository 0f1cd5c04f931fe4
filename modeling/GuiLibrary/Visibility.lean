import GuiLibrary.Confinement

/-!
# What is visible is clickable

The drawing functions paint the background and the border of a widget on the root surface, and its
pick colour on the pick surface, with separate calls. A toplevel is filled twice with the same
rectangle. The polygons of a frame or of a button are different ones: the two halves of the border
and the face, or a plain rectangle, on one side, and the rounded outline on the other; each is
`NULL` when its radius is too large for its rectangle.

What a polygon fills depends on the filler and on the floating-point arcs, which are parameters.
`Raster.FillsSquares` is what is assumed of outlines with square corners: the two halves fill what
the outline fills, and an outline inside another fills a part of it. Nothing is assumed of rounded
corners, whose arcs end at different points in the halves and in the outline. The two surfaces agree
for every such raster exactly under a condition on the rectangles, the radius and the border.

## Main definitions

* `Primitive.Paints`: the pixels of a primitive; `Drawing.Agrees`: the two surfaces agree.
* `Raster.FillsSquares`.
* `SurfacesAgree`: the condition.
* `countingRaster`, `squareRaster`: rasters that tell the polygons apart.

## Main results

* `pixel_runPrimitives`: painted pixels get the colour of a primitive that paints them, when it is
  opaque.
* `surfacesAgree_iff`: when the two surfaces agree.
-/

namespace GuiLibrary

/-! ### The pixels of a primitive -/

section Primitives

variable [Raster]

namespace Primitive

/-- The polygon or the fill paints the pixel. Copies show labels, which are no part of the
background. -/
def Paints : Primitive → Point → Prop
  | polygon firstPoint _ clipper, x =>
      firstPoint ≠ [] ∧ Raster.polygonPixel firstPoint x ∧ x ∈ clipper
  | fill _ clipper, x => x ∈ clipper
  | copy .., _ => False

/-- The colour of a polygon or of a fill. -/
def color : Primitive → Option Color
  | polygon _ color _ => some color
  | fill color _ => some color
  | copy .. => none

/-- The clipper of a fill lies in the surface, and nothing is copied. -/
def Plain (size : Size) : Primitive → Prop
  | polygon .. => True
  | fill _ clipper => clipper.InWindow size
  | copy .. => False

/-- A primitive paints its pixels, in its colour if that is opaque, and no others. -/
theorem pixel_run {surface : Surface} {primitive : Primitive}
    (hplain : primitive.Plain surface.size) {x : Point} (hx : x ∈ Rect.ofSize surface.size) :
    (¬ primitive.Paints x → (primitive.run surface).pixel x = surface.pixel x) ∧
      (primitive.Paints x → ∃ c, primitive.color = some c ∧ (c.alpha = 255 →
        (primitive.run surface).pixel x = eiMapRgba surface c)) := by
  cases primitive with
  | polygon firstPoint c clipper =>
    have hpixel := pixel_eiDrawPolygon surface firstPoint c clipper hx
    exact ⟨fun h => hpixel.trans (if_neg h), fun h => ⟨c, rfl, fun hc =>
      hpixel.trans ((if_pos h).trans (fillPixel_of_alpha_eq surface hc _))⟩⟩
  | fill c clipper =>
    have hpixel := pixel_eiFill surface c hplain hx
    exact ⟨fun h => hpixel.trans (if_neg h), fun h => ⟨c, rfl, fun _ => hpixel.trans (if_pos h)⟩⟩
  | copy => exact absurd hplain id

end Primitive

/-- One of the primitives paints the pixel. -/
def Painted (primitives : List Primitive) (x : Point) : Prop :=
  ∃ primitive ∈ primitives, primitive.Paints x

@[simp] theorem painted_nil {x : Point} : ¬ Painted [] x := fun ⟨_, h, _⟩ =>
  absurd h List.not_mem_nil

@[simp] theorem painted_cons {first : Primitive} {rest : List Primitive} {x : Point} :
    Painted (first :: rest) x ↔ first.Paints x ∨ Painted rest x := List.exists_mem_cons_iff ..

@[simp] theorem painted_append {l l' : List Primitive} {x : Point} :
    Painted (l ++ l') x ↔ Painted l x ∨ Painted l' x := by
  simp only [Painted, List.mem_append, or_and_right, exists_or]

@[simp] theorem paints_polygon {firstPoint : List Point} {c : Color} {clipper : Rect} {x : Point} :
    (Primitive.polygon firstPoint c clipper).Paints x ↔
      firstPoint ≠ [] ∧ Raster.polygonPixel firstPoint x ∧ x ∈ clipper := Iff.rfl

@[simp] theorem paints_fill {c : Color} {clipper : Rect} {x : Point} :
    (Primitive.fill c clipper).Paints x ↔ x ∈ clipper := Iff.rfl

/-- Texts are copied. -/
@[simp] theorem not_paints_eiDrawText [TextRendering] {whereAt : Point} {text : Text} {font : Font}
    {c : Color} {clipper : Rect} {x : Point} :
    ¬ (eiDrawText whereAt text font c clipper).Paints x := id

/-- **The pixels of a list of primitives**: those that are painted get the colour of a primitive
that paints them, if it is opaque, and the others keep theirs. -/
theorem pixel_runPrimitives {primitives : List Primitive} : ∀ {surface : Surface},
    (∀ primitive ∈ primitives, primitive.Plain surface.size) → ∀ {x : Point},
    x ∈ Rect.ofSize surface.size →
      (¬ Painted primitives x → (runPrimitives primitives surface).pixel x = surface.pixel x) ∧
      (Painted primitives x → ∃ primitive ∈ primitives, ∃ c, primitive.Paints x ∧
        primitive.color = some c ∧ (c.alpha = 255 →
        (runPrimitives primitives surface).pixel x = eiMapRgba surface c)) := by
  induction primitives with
  | nil =>
    intro surface _ x _
    exact ⟨fun _ => rfl, fun h => absurd h painted_nil⟩
  | cons first rest ih =>
    intro surface hplain x hx
    have hfirst := Primitive.pixel_run (hplain first List.mem_cons_self) hx
    have hrest := @ih (first.run surface)
      (fun q hq => by rw [Primitive.size_run]; exact hplain q (List.mem_cons_of_mem first hq))
      x (by rwa [Primitive.size_run])
    have hrun : runPrimitives (first :: rest) surface =
      runPrimitives rest (first.run surface) := rfl
    rw [hrun, painted_cons]
    by_cases hr : Painted rest x
    · obtain ⟨q, hq, c, hpaints, hc, hpixel⟩ := hrest.2 hr
      refine ⟨fun h => absurd (Or.inr hr) h, fun _ =>
        ⟨q, List.mem_cons_of_mem first hq, c, hpaints, hc, fun halpha => ?_⟩⟩
      exact (hpixel halpha).trans (eiMapRgba_congr (Primitive.channels_run surface first) c)
    · rw [hrest.1 hr]
      refine ⟨fun h => hfirst.1 fun hp => h (Or.inl hp), fun h => ?_⟩
      have hpaints := h.resolve_right hr
      obtain ⟨c, hc, hpixel⟩ := hfirst.2 hpaints
      exact ⟨first, List.mem_cons_self, c, hpaints, hc, hpixel⟩

/-- The polygons and the fills of a drawing: its labels left out. -/
def background (primitives : List Primitive) : List Primitive :=
  primitives.filter fun primitive => primitive.color.isSome

/-- The pixels of the surface that are painted are those that are painted in the pick colour. -/
def Drawing.Agrees (d : Drawing) (size : Size) : Prop :=
  ∀ x ∈ Rect.ofSize size, Painted d.surface x ↔ Painted d.pickSurface x

end Primitives

/-! ### Outlines -/

/-- `h` in `ei_rounded_frame_all` and its halves: half of the smaller side, rounded to zero. -/
def Rect.halfSide (rect : Rect) : ℤ := (min rect.size.height rect.size.width).tdiv 2

/-- The edges of a rectangle lie between those of another one. -/
def Rect.Within (inner outer : Rect) : Prop :=
  (outer.topLeft.x ≤ inner.topLeft.x ∧
      inner.topLeft.x + inner.size.width ≤ outer.topLeft.x + outer.size.width) ∧
    outer.topLeft.y ≤ inner.topLeft.y ∧
      inner.topLeft.y + inner.size.height ≤ outer.topLeft.y + outer.size.height

instance (inner outer : Rect) : Decidable (inner.Within outer) :=
  inferInstanceAs (Decidable ((_ ∧ _) ∧ _ ∧ _))

namespace Rect

variable {rect inner outer : Rect}

theorem Within.halfSide_le (h : inner.Within outer) : inner.halfSide ≤ outer.halfSide := by
  obtain ⟨⟨hx, hx'⟩, hy, hy'⟩ := h
  exact Int.tdiv_le_tdiv (by decide) (min_le_min (by omega) (by omega))

/-- A rectangle within another one is what is left of that one. -/
theorem Within.intersection (h : inner.Within outer) :
    getEiRectIntersection outer inner = inner := by
  obtain ⟨⟨x, y⟩, ⟨w, h'⟩⟩ := inner
  simp only [Within] at h
  simp only [getEiRectIntersection, Rect.mk.injEq, Point.mk.injEq, Size.mk.injEq]
  omega

/-- A rectangle that has an outline of a positive radius is twice as large on both sides. -/
theorem halfSide_le {r : ℤ} (hr : 0 ≤ r) (h : r < rect.halfSide) :
    2 * rect.halfSide ≤ rect.size.width ∧ 2 * rect.halfSide ≤ rect.size.height := by
  rw [halfSide] at h ⊢
  have hmin : 0 ≤ min rect.size.height rect.size.width := by
    by_contra! hneg
    have h₀ : (min rect.size.height rect.size.width).tdiv 2 ≤ Int.tdiv 0 2 :=
      Int.tdiv_le_tdiv (by decide) hneg.le
    rw [Int.zero_tdiv] at h₀
    omega
  rw [Int.tdiv_eq_ediv_of_nonneg hmin]
  omega

/-- The edges of a rectangle that has an outline are those of its pixels. -/
theorem within_of_subset {r : ℤ} (hr : 0 ≤ r) (h : r < inner.halfSide)
    (hsub : ∀ x ∈ inner, x ∈ outer) : inner.Within outer := by
  obtain ⟨hw, hh⟩ := halfSide_le hr h
  have hfirst := hsub inner.topLeft (by rw [mem_iff]; omega)
  have hlast := hsub ⟨inner.topLeft.x + inner.size.width - 1,
    inner.topLeft.y + inner.size.height - 1⟩ (by rw [mem_iff]; dsimp only; omega)
  simp only [mem_iff, Within] at hfirst hlast ⊢
  omega

end Rect

section Outlines

variable [Raster] {rect : Rect} {r : ℤ}

/-- An arc that turns in its direction has a first point. -/
theorem eiArcPoints_eq_cons (center : Point) (radius : ℤ) {b e : ℕ} {clockwise : Bool}
    (h : if clockwise then b < e else e < b) : eiArcPoints center radius b e clockwise =
      Raster.arcPoint center radius b e 0 ::
        (List.range ((Raster.arcPointNb radius b e).toNat - 1)).map fun i =>
          Raster.arcPoint center radius b e (i + 1) := by
  rw [eiArcPoints]
  cases clockwise with
  | false => rw [if_neg (by simp), if_neg (by simpa using h)]
  | true => rw [if_neg (by simpa using h), if_neg (by simp)]

theorem eiArcPoints_ne_nil (center : Point) (radius : ℤ) {b e : ℕ} {clockwise : Bool}
    (h : if clockwise then b < e else e < b) : eiArcPoints center radius b e clockwise ≠ [] := by
  rw [eiArcPoints_eq_cons center radius h]
  exact List.cons_ne_nil _ _

/-- **The outline is `NULL`** when the radius reaches half of the smaller side; so are its
halves. -/
theorem eiRoundedFrameAll_ne_nil : eiRoundedFrameAll rect r ≠ [] ↔ r < rect.halfSide := by
  rw [eiRoundedFrameAll, ← not_le, Rect.halfSide]
  split_ifs with h
  · simp [h]
  · simp [h, eiArcPoints_ne_nil]

theorem eiRoundedFrameHigh_ne_nil : eiRoundedFrameHigh rect r ≠ [] ↔ r < rect.halfSide := by
  rw [eiRoundedFrameHigh, ← not_le, Rect.halfSide]
  split_ifs with h <;> simp [h]

theorem eiRoundedFrameLow_ne_nil : eiRoundedFrameLow rect r ≠ [] ↔ r < rect.halfSide := by
  rw [eiRoundedFrameLow, ← not_le, Rect.halfSide]
  split_ifs with h <;> simp [h]

/-- `ei_draw_polygon` fills the pixel, its clipper aside: `NULL` is no polygon. -/
def Filled (points : List Point) (x : Point) : Prop := points ≠ [] ∧ Raster.polygonPixel points x

instance (points : List Point) (x : Point) : Decidable (Filled points x) :=
  inferInstanceAs (Decidable (_ ∧ _))

/-- What is assumed of polygons without rounded corners, whose points are the corners of the
rectangle and, for the halves, two points inside: the two halves fill together what the outline
fills, as `ei_rounded_frame_all` is said to be their combination, and the outline of a rectangle
inside another fills nothing outside the outline of that one. -/
structure Raster.FillsSquares : Prop where
  combination : ∀ (rect : Rect), 0 < rect.halfSide → ∀ x,
    polygonPixel (eiRoundedFrameHigh rect 0) x ∨ polygonPixel (eiRoundedFrameLow rect 0) x ↔
      polygonPixel (eiRoundedFrameAll rect 0) x
  nested : ∀ (inner outer : Rect), 0 < inner.halfSide → inner.Within outer →
    ∀ x, polygonPixel (eiRoundedFrameAll inner 0) x → polygonPixel (eiRoundedFrameAll outer 0) x

end Outlines

/-! ### The condition -/

/-- The surfaces agree on a frame or a button with this border and corner radius, whose border is
cut at `border`, inside a clipper. Without a border the location is painted without rounding: the
radius is zero, or both outlines are `NULL`, or the border has no pixel on the surface. With a
border and square corners, the face has no outline, or it lies in the location and is not cut at
`border`. With a border and rounded corners the arcs of the halves are not those of the outline, so
nothing may be painted at all. -/
def FrameAgrees (size : Size) (w : Widget) (borderWidth r : ℤ) (border clipper : Rect) : Prop :=
  let face := getEiRectIntersection clipper w.content
  if borderWidth = 0 then
    r = 0 ∨ w.screenLocation.halfSide ≤ min 0 r ∨ ∀ x ∈ border, x ∉ Rect.ofSize size
  else if r = 0 then face.halfSide ≤ 0 ∨ ∀ x ∈ face, x ∈ border ∧ x ∈ w.screenLocation
  else (face.halfSide ≤ r ∨ ∀ x, x ∉ face) ∧
    (w.screenLocation.halfSide ≤ r ∨ ∀ x ∈ border, x ∉ Rect.ofSize size)

/-- The condition under which the two surfaces agree: a toplevel has no pixel of its content area
outside its painted rectangle. -/
def SurfacesAgree (size : Size) (w : Widget) (border clipper : Rect) : Prop :=
  match w.attrs with
  | .frame a => FrameAgrees size w a.borderWidth 0 border clipper
  | .button a => FrameAgrees size w a.borderWidth a.cornerRadius border clipper
  | .toplevel a => ∀ x ∈ clipper, x ∈ w.content → x ∈ a.drawRect

section Painted

variable [Hardware] [Raster] [TextRendering] {s : AppState} {p : Ptr} {w : Widget} {a : FrameAttrs}
  {r : ℤ} {border K : Rect} {size : Size} {x : Point}

/-- Labels are copied. -/
theorem not_painted_drawLabel (clip : Rect) : ¬ Painted (drawLabel s p w a clip) x := by
  rw [drawLabel]
  split
  · simp
  · rw [painted_cons, not_or]
    exact ⟨id, painted_nil⟩
  · exact painted_nil

/-- The pixels of the pick surface that a frame or a button paints: its outline in the clipper of
the border. -/
theorem painted_pickSurface :
    Painted (drawframebuttonclasses s p w a r border K).pickSurface x ↔
      r < w.screenLocation.halfSide ∧
        Raster.polygonPixel (eiRoundedFrameAll w.screenLocation r) x ∧ x ∈ border := by
  simp only [drawframebuttonclasses, painted_cons, painted_nil, or_false, paints_polygon,
    eiRoundedFrameAll_ne_nil]

/-- Without a border, one plain outline is painted. -/
theorem painted_surface_plain (hb : a.borderWidth = 0) :
    Painted (drawframebuttonclasses s p w a r border K).surface x ↔
      0 < w.screenLocation.halfSide ∧
        Raster.polygonPixel (eiRoundedFrameAll w.screenLocation 0) x ∧ x ∈ border := by
  have hbody : drawBody w a r border K =
      [.polygon (eiRoundedFrameAll w.screenLocation 0) a.color border] := if_neg (not_not.mpr hb)
  simp only [surface_drawframebuttonclasses, hbody, List.singleton_append, painted_cons,
    not_painted_drawLabel, or_false, paints_polygon, eiRoundedFrameAll_ne_nil]

/-- With a border, the two halves are painted in the clipper of the border, and the face. -/
theorem painted_surface_bordered (hb : a.borderWidth ≠ 0) :
    Painted (drawframebuttonclasses s p w a r border K).surface x ↔
      (r < w.screenLocation.halfSide ∧
        (Raster.polygonPixel (eiRoundedFrameHigh w.screenLocation r) x ∨
          Raster.polygonPixel (eiRoundedFrameLow w.screenLocation r) x) ∧ x ∈ border) ∨
      (r < (getEiRectIntersection K w.content).halfSide ∧
        Raster.polygonPixel (eiRoundedFrameAll (getEiRectIntersection K w.content) r) x ∧
        x ∈ getEiRectIntersection K w.content) := by
  have hfinal : finalClipper w a K = getEiRectIntersection K w.content := if_pos hb
  rw [surface_drawframebuttonclasses, drawBody, if_pos hb]
  simp only [painted_append, painted_cons, painted_nil, not_painted_drawLabel, or_false,
    paints_polygon, eiRoundedFrameAll_ne_nil, eiRoundedFrameHigh_ne_nil, eiRoundedFrameLow_ne_nil,
    hfinal]
  tauto

omit [Raster] in
/-- A label has no colour of its own. -/
theorem color_of_mem_drawLabel {clip : Rect} {primitive : Primitive}
    (h : primitive ∈ drawLabel s p w a clip) : primitive.color = none := by
  rw [drawLabel] at h
  split at h
  · obtain rfl := List.mem_singleton.mp h
    rfl
  · obtain rfl := List.mem_singleton.mp h
    rfl
  · exact absurd h List.not_mem_nil

omit [Hardware] [TextRendering] in
theorem plain_of_mem_drawBody {primitive : Primitive} (h : primitive ∈ drawBody w a r border K) :
    primitive.Plain size := by
  rw [drawBody] at h
  split_ifs at h
  · simp only [List.mem_cons, List.not_mem_nil, or_false] at h
    rcases h with rfl | rfl | rfl <;> trivial
  · obtain rfl := List.mem_singleton.mp h
    trivial

theorem plain_drawframebuttonclasses :
    (∀ primitive ∈ background (drawframebuttonclasses s p w a r border K).surface,
      primitive.Plain size) ∧
    ∀ primitive ∈ (drawframebuttonclasses s p w a r border K).pickSurface,
      primitive.Plain size := by
  refine ⟨fun primitive h => ?_, fun primitive h => ?_⟩
  · obtain ⟨hmem, hcolor⟩ := List.mem_filter.mp h
    rw [surface_drawframebuttonclasses, List.mem_append] at hmem
    rcases hmem with hmem | hmem
    · exact plain_of_mem_drawBody hmem
    · simp [color_of_mem_drawLabel hmem] at hcolor
  · obtain rfl := List.mem_singleton.mp h
    trivial

/-- **The background of a drawing and its pick colour consist of polygons, and of fills inside the
surface**: their pixels are those of `pixel_runPrimitives`. -/
theorem plain_drawing {d : Drawing} (hd : drawing s p w K = some d) (hK : K.InWindow size) :
    (∀ primitive ∈ background d.surface, primitive.Plain size) ∧
      ∀ primitive ∈ d.pickSurface, primitive.Plain size := by
  cases ha : w.attrs with
  | frame a =>
    simp only [drawing, ha, Option.some.injEq] at hd
    exact hd ▸ plain_drawframebuttonclasses
  | button a =>
    simp only [drawing, ha, Option.bind_eq_bind, Option.bind_eq_some_iff, Option.some.injEq] at hd
    obtain ⟨border, -, rfl⟩ := hd
    exact plain_drawframebuttonclasses
  | toplevel a =>
    simp only [drawing, ha, Option.some.injEq] at hd
    subst hd
    refine ⟨fun primitive h => ?_, fun primitive h => ?_⟩
    · obtain ⟨hmem, hcolor⟩ := List.mem_filter.mp h
      simp only [drawtoplevel, List.cons_append, List.nil_append, List.mem_cons] at hmem
      rcases hmem with rfl | rfl | hmem
      · exact inWindow_intersection hK _
      · exact inWindow_intersection hK _
      · cases htitle : a.title with
        | none => simp [htitle] at hmem
        | some text =>
          rw [htitle] at hmem
          obtain rfl := List.mem_singleton.mp hmem
          simp [eiDrawText, Primitive.color] at hcolor
    · obtain rfl := List.mem_singleton.mp h
      exact inWindow_intersection hK _

/-- **The condition is enough**, for every raster that fills square outlines. -/
theorem agrees_of_frameAgrees (hraster : Raster.FillsSquares)
    (h : FrameAgrees size w a.borderWidth r border K) :
    (drawframebuttonclasses s p w a r border K).Agrees size := by
  intro x hx
  rw [painted_pickSurface]
  rw [FrameAgrees] at h
  split_ifs at h with hb hr
  · rw [painted_surface_plain hb]
    rcases h with rfl | hnull | hout
    · exact Iff.rfl
    · exact iff_of_false (fun h => by omega) fun h => by omega
    · exact iff_of_false (fun h => hout x h.2.2 hx) fun h => hout x h.2.2 hx
  · subst hr
    rw [painted_surface_bordered hb]
    constructor
    · rintro (⟨hlt, hhalf, hxb⟩ | ⟨hlt, hface, hxf⟩)
      · exact ⟨hlt, (hraster.combination _ hlt x).mp hhalf, hxb⟩
      · -- The face lies in the outline, and in the clipper of the border.
        rcases h with hle | hin
        · omega
        · have hwithin := Rect.within_of_subset (le_refl 0) hlt fun y hy => (hin y hy).2
          exact ⟨hlt.trans_le hwithin.halfSide_le, hraster.nested _ _ hlt hwithin x hface,
            (hin x hxf).1⟩
    · rintro ⟨hlt, hall, hxb⟩
      exact Or.inl ⟨hlt, (hraster.combination _ hlt x).mpr hall, hxb⟩
  · rw [painted_surface_bordered hb]
    obtain ⟨hface, hloc⟩ := h
    have hnoface : ¬ (r < (getEiRectIntersection K w.content).halfSide ∧
        Raster.polygonPixel (eiRoundedFrameAll (getEiRectIntersection K w.content) r) x ∧
        x ∈ getEiRectIntersection K w.content) := by
      rintro ⟨hlt, -, hxf⟩
      exact hface.elim (fun hle => absurd hlt (not_lt.mpr hle)) fun hnot => hnot x hxf
    have hnone : ¬ (r < w.screenLocation.halfSide ∧ x ∈ border) := by
      rintro ⟨hlt, hxb⟩
      exact hloc.elim (fun hle => absurd hlt (not_lt.mpr hle)) fun hout => hout x hxb hx
    exact iff_of_false (by rintro (h | h); exacts [hnone ⟨h.1, h.2.2⟩, hnoface h])
      fun h => hnone ⟨h.1, h.2.2⟩

omit [Raster] in
/-- The toplevels, whatever the raster. -/
theorem agrees_drawtoplevel {_ : Raster} {a : ToplevelAttrs} (hK : K.InWindow size) :
    (drawtoplevel w a K).Agrees size ↔ ∀ x ∈ K, x ∈ w.content → x ∈ a.drawRect := by
  have hpaint : ∀ x, (Painted (drawtoplevel w a K).surface x ↔
      Painted (drawtoplevel w a K).pickSurface x) ↔
        (x ∈ K → x ∈ w.content → x ∈ a.drawRect) := by
    intro x
    cases htext : a.title <;>
    · simp only [drawtoplevel, htext, Option.elim_none, Option.elim_some, painted_append,
        painted_cons, painted_nil, paints_fill, not_paints_eiDrawText, or_false,
        mem_getEiRectIntersection]
      tauto
  exact ⟨fun h x hxK => (hpaint x).mp (h x (hK.mem_ofSize hxK)) hxK,
    fun h x _ => (hpaint x).mpr (h x)⟩

end Painted

/-! ### Rasters that tell the polygons apart -/

/-- A raster that fills everything or nothing, depending on the number of points of the polygon. -/
@[reducible] def countingRaster (arcPointNb : ℤ → ℤ) (fills : ℕ → Bool) : Raster where
  arcPointNb radius _ _ := arcPointNb radius
  arcPoint center _ _ _ _ := center
  polygonPixel points _ := fills points.length
  polygonBlend _ _ pixel := pixel

section Counting

variable {arcPointNb : ℤ → ℤ} {fills : ℕ → Bool} {rect : Rect} {r : ℤ}

/-- The number of points of an arc of a counting raster. -/
def countOf (arcPointNb : ℤ → ℤ) (r : ℤ) : ℕ := (arcPointNb r).toNat - 1 + 1

theorem length_eiArcPoints_counting (center : Point) {b e : ℕ} {clockwise : Bool}
    (h : if clockwise then b < e else e < b) :
    (@eiArcPoints (countingRaster arcPointNb fills) center r b e clockwise).length =
      countOf arcPointNb r := by
  let _ := countingRaster arcPointNb fills
  rw [eiArcPoints_eq_cons center r h, List.length_cons, List.length_map, List.length_range]
  rfl

theorem length_eiRoundedFrameAll_counting (h : r < rect.halfSide) :
    (@eiRoundedFrameAll (countingRaster arcPointNb fills) rect r).length =
      4 * countOf arcPointNb r := by
  rw [Rect.halfSide] at h
  simp only [eiRoundedFrameAll, if_neg (not_le.mpr h), List.length_append]
  repeat rw [length_eiArcPoints_counting _ (by simp)]
  omega

/-- The two halves have six points more than their three arcs. -/
theorem length_half_counting (h : r < rect.halfSide) {points : List Point}
    (hpoints : points = @eiRoundedFrameHigh (countingRaster arcPointNb fills) rect r ∨
      points = @eiRoundedFrameLow (countingRaster arcPointNb fills) rect r) :
    points.length = 6 + 3 * countOf arcPointNb r := by
  rw [Rect.halfSide] at h
  rcases hpoints with rfl | rfl
  all_goals
    simp only [eiRoundedFrameHigh, eiRoundedFrameLow, if_neg (not_le.mpr h), List.length_append,
      List.length_cons, List.length_nil]
    repeat rw [length_eiArcPoints_counting _ (by simp)]
    omega

theorem polygonPixel_counting (points : List Point) (x : Point) :
    (countingRaster arcPointNb fills).polygonPixel points x = fills points.length := rfl

/-- A counting raster fills frames when it does not tell an outline from its halves. -/
theorem fillsSquares_counting
    (h : fills (6 + 3 * countOf arcPointNb 0) = fills (4 * countOf arcPointNb 0)) :
    @Raster.FillsSquares (countingRaster arcPointNb fills) := by
  let _ := countingRaster arcPointNb fills
  refine ⟨fun rect hlt x => ?_, fun inner outer hlt hwithin x => ?_⟩
  · show fills (eiRoundedFrameHigh rect 0).length ∨ fills (eiRoundedFrameLow rect 0).length ↔
      fills (eiRoundedFrameAll rect 0).length
    rw [length_half_counting hlt (Or.inl rfl), length_half_counting hlt (Or.inr rfl),
      length_eiRoundedFrameAll_counting hlt, h, or_self]
  · show fills (eiRoundedFrameAll inner 0).length → fills (eiRoundedFrameAll outer 0).length
    rw [length_eiRoundedFrameAll_counting hlt,
      length_eiRoundedFrameAll_counting (hlt.trans_le hwithin.halfSide_le)]
    exact id

end Counting

/-- Arcs that reach the corners of the rectangle, and polygons that fill it. -/
@[reducible] def squareRaster : Raster where
  arcPointNb _ _ _ := 2
  arcPoint center radius _ _ step :=
    if step = 0 then ⟨center.x - radius, center.y - radius⟩
    else ⟨center.x + radius, center.y + radius⟩
  polygonPixel := sampleRaster.polygonPixel
  polygonBlend := sampleRaster.polygonBlend

section Square

attribute [local instance] squareRaster

variable {rect : Rect} {r : ℤ} {x : Point}

/-- Polygons whose points lie in a rectangle and reach its edges fill it. -/
theorem polygonPixel_square {points : List Point} (hin : ∀ q ∈ points,
    (rect.topLeft.x ≤ q.x ∧ q.x ≤ rect.topLeft.x + rect.size.width) ∧
      rect.topLeft.y ≤ q.y ∧ q.y ≤ rect.topLeft.y + rect.size.height)
    (hleft : ∃ q ∈ points, q.x = rect.topLeft.x)
    (hright : ∃ q ∈ points, q.x = rect.topLeft.x + rect.size.width)
    (htop : ∃ q ∈ points, q.y = rect.topLeft.y)
    (hbottom : ∃ q ∈ points, q.y = rect.topLeft.y + rect.size.height) :
    squareRaster.polygonPixel points x ↔ x ∈ rect := by
  have hfill : squareRaster.polygonPixel points x ↔
      (((∃ q ∈ points, q.x ≤ x.x) ∧ ∃ q ∈ points, x.x < q.x) ∧ ∃ q ∈ points, q.y ≤ x.y) ∧
        ∃ q ∈ points, x.y < q.y := by
    show (((points.any _ && points.any _) && points.any _) && points.any _) = true ↔ _
    simp only [Bool.and_eq_true, List.any_eq_true, decide_eq_true_eq]
  rw [hfill, Rect.mem_iff]
  constructor
  · rintro ⟨⟨⟨⟨q₁, hq₁, h₁⟩, q₂, hq₂, h₂⟩, q₃, hq₃, h₃⟩, q₄, hq₄, h₄⟩
    have h₁' := hin q₁ hq₁
    have h₂' := hin q₂ hq₂
    have h₃' := hin q₃ hq₃
    have h₄' := hin q₄ hq₄
    omega
  · rintro ⟨⟨h₁, h₂⟩, h₃, h₄⟩
    obtain ⟨q₁, hq₁, hx₁⟩ := hleft
    obtain ⟨q₂, hq₂, hx₂⟩ := hright
    obtain ⟨q₃, hq₃, hy₃⟩ := htop
    obtain ⟨q₄, hq₄, hy₄⟩ := hbottom
    exact ⟨⟨⟨⟨q₁, hq₁, hx₁.trans_le h₁⟩, q₂, hq₂, h₂.trans_eq hx₂.symm⟩,
      q₃, hq₃, hy₃.trans_le h₃⟩, q₄, hq₄, h₄.trans_eq hy₄.symm⟩

theorem eiArcPoints_square (center : Point) (radius : ℤ) {b e : ℕ} {clockwise : Bool}
    (h : if clockwise then b < e else e < b) : eiArcPoints center radius b e clockwise =
      [⟨center.x - radius, center.y - radius⟩, ⟨center.x + radius, center.y + radius⟩] := by
  rw [eiArcPoints_eq_cons center radius h]
  rfl

variable (hr : 0 ≤ r) (hlt : r < rect.halfSide)

include hr hlt

/-- **The outline fills its rectangle**, and so does each of its halves. -/
theorem polygonPixel_outline_square {points : List Point}
    (hpoints : points = eiRoundedFrameAll rect r ∨ points = eiRoundedFrameHigh rect r ∨
      points = eiRoundedFrameLow rect r) :
    squareRaster.polygonPixel points x ↔ x ∈ rect := by
  obtain ⟨hw, hh⟩ := Rect.halfSide_le hr hlt
  rw [Rect.halfSide] at hlt hw hh
  rcases hpoints with rfl | rfl | rfl
  all_goals
    simp only [eiRoundedFrameAll, eiRoundedFrameHigh, eiRoundedFrameLow, if_neg (not_le.mpr hlt)]
    repeat rw [eiArcPoints_square _ _ (by simp)]
    apply polygonPixel_square
  all_goals
    simp only [List.cons_append, List.nil_append, List.forall_mem_cons, List.exists_mem_cons_iff,
      List.not_mem_nil, false_and, exists_false, or_false, false_imp_iff, implies_true, and_true]
    omega

theorem polygonPixel_eiRoundedFrameAll_square :
    squareRaster.polygonPixel (eiRoundedFrameAll rect r) x ↔ x ∈ rect :=
  polygonPixel_outline_square hr hlt (Or.inl rfl)

omit hr hlt in
theorem fillsSquares_square : squareRaster.FillsSquares := by
  have hr := le_refl (0 : ℤ)
  refine ⟨fun rect hlt x => ?_, fun inner outer hlt hwithin x h => ?_⟩
  · have hhigh := polygonPixel_outline_square (x := x) hr hlt (Or.inr (Or.inl rfl))
    have hlow := polygonPixel_outline_square (x := x) hr hlt (Or.inr (Or.inr rfl))
    exact (or_congr hhigh hlow).trans
      (or_self_iff.trans (polygonPixel_eiRoundedFrameAll_square hr hlt).symm)
  · have hx := (polygonPixel_eiRoundedFrameAll_square hr hlt).mp h
    refine (polygonPixel_eiRoundedFrameAll_square hr (hlt.trans_le hwithin.halfSide_le)).mpr ?_
    simp only [Rect.Within, Rect.mem_iff] at hwithin hx ⊢
    omega

end Square

/-! ### When the surfaces agree -/

section Agree

variable [Hardware] [TextRendering] {s : AppState} {p : Ptr} {w : Widget} {a : FrameAttrs} {r : ℤ}
  {border K : Rect} {size : Size}

/-- What the agreement says of a pixel, without a border. -/
theorem Drawing.Agrees.plain {_ : Raster}
    (h : (drawframebuttonclasses s p w a r border K).Agrees size) (hb : a.borderWidth = 0)
    {x : Point} (hx : x ∈ Rect.ofSize size) :
    0 < w.screenLocation.halfSide ∧
        Raster.polygonPixel (eiRoundedFrameAll w.screenLocation 0) x ∧ x ∈ border ↔
      r < w.screenLocation.halfSide ∧
        Raster.polygonPixel (eiRoundedFrameAll w.screenLocation r) x ∧ x ∈ border :=
  (painted_surface_plain hb).symm.trans ((h x hx).trans painted_pickSurface)

/-- What it says with a border. -/
theorem Drawing.Agrees.bordered {_ : Raster}
    (h : (drawframebuttonclasses s p w a r border K).Agrees size) (hb : a.borderWidth ≠ 0)
    {x : Point} (hx : x ∈ Rect.ofSize size) :
    (r < w.screenLocation.halfSide ∧
        (Raster.polygonPixel (eiRoundedFrameHigh w.screenLocation r) x ∨
          Raster.polygonPixel (eiRoundedFrameLow w.screenLocation r) x) ∧ x ∈ border) ∨
      (r < (getEiRectIntersection K w.content).halfSide ∧
        Raster.polygonPixel (eiRoundedFrameAll (getEiRectIntersection K w.content) r) x ∧
        x ∈ getEiRectIntersection K w.content) ↔
      r < w.screenLocation.halfSide ∧
        Raster.polygonPixel (eiRoundedFrameAll w.screenLocation r) x ∧ x ∈ border :=
  (painted_surface_bordered hb).symm.trans ((h x hx).trans painted_pickSurface)

/-- **The condition is necessary**: where it fails, some raster that fills square outlines tells the
two surfaces apart. -/
theorem frameAgrees_of_agrees (hK : K.InWindow size)
    (h : ∀ [Raster], Raster.FillsSquares →
      (drawframebuttonclasses s p w a r border K).Agrees size) :
    FrameAgrees size w a.borderWidth r border K := by
  -- A raster that fills every polygon.
  have hall := @h (countingRaster (fun _ => 1) fun _ => true) (fillsSquares_counting rfl)
  -- A raster that fills the unrounded outlines and their halves only.
  have hplain := @h (countingRaster (fun r => if r = 0 then 1 else 2) fun n => n = 4 ∨ n = 9)
    (fillsSquares_counting (by simp [countOf]))
  -- A raster that fills the halves of rounded outlines only.
  have hhalves := @h (countingRaster (fun r => if r = 0 then 2 else 1) fun n => n = 9)
    (fillsSquares_counting (by simp [countOf]))
  have hsquare := @h squareRaster fillsSquares_square
  rw [FrameAgrees]
  split_ifs with hb hr
  · by_contra! hcon
    obtain ⟨hr, hnull, x, hxb, hx⟩ := hcon
    by_cases hpos : 0 < w.screenLocation.halfSide
    · obtain ⟨hlt, hfill, -⟩ := (hplain.plain hb hx).mp ⟨hpos, by
        rw [polygonPixel_counting, length_eiRoundedFrameAll_counting hpos]
        simp [countOf], hxb⟩
      rw [polygonPixel_counting, length_eiRoundedFrameAll_counting hlt] at hfill
      simp [countOf, hr] at hfill
    · exact hpos ((hall.plain hb hx).mpr ⟨by omega, rfl, hxb⟩).1
  · subst hr
    have hr := le_refl (0 : ℤ)
    by_contra! hcon
    obtain ⟨hlt, x, hxf, hout⟩ := hcon
    have hx : x ∈ Rect.ofSize size := hK.mem_ofSize (mem_getEiRectIntersection.mp hxf).1
    have hxb : x ∈ border := ((hall.bordered hb hx).mp (Or.inr ⟨hlt, rfl, hxf⟩)).2.2
    obtain ⟨hlt', hfill, -⟩ := (hsquare.bordered hb hx).mp
      (Or.inr ⟨hlt, (polygonPixel_eiRoundedFrameAll_square hr hlt).mpr hxf, hxf⟩)
    exact hout hxb ((polygonPixel_eiRoundedFrameAll_square hr hlt').mp hfill)
  · -- Where the halves are painted, they can be told from the outline.
    have hnone : ∀ x ∈ border, x ∈ Rect.ofSize size → ¬ r < w.screenLocation.halfSide := by
      intro x hxb hx hlt
      obtain ⟨-, hfill, -⟩ := (hhalves.bordered hb hx).mp (Or.inl ⟨hlt, Or.inl (by
        rw [polygonPixel_counting, length_half_counting hlt (Or.inl rfl)]
        simp [countOf, hr]), hxb⟩)
      rw [polygonPixel_counting, length_eiRoundedFrameAll_counting hlt] at hfill
      simp [countOf, hr] at hfill
    refine ⟨?_, ?_⟩
    · by_contra! hcon
      obtain ⟨hlt, x, hxf⟩ := hcon
      have hx : x ∈ Rect.ofSize size := hK.mem_ofSize (mem_getEiRectIntersection.mp hxf).1
      obtain ⟨hlt', -, hxb⟩ := (hall.bordered hb hx).mp (Or.inr ⟨hlt, rfl, hxf⟩)
      exact hnone x hxb hx hlt'
    · by_contra! hcon
      obtain ⟨hlt, x, hxb, hx⟩ := hcon
      exact hnone x hxb hx hlt

end Agree

/-! ### A placed button -/

section Sample

attribute [local instance] sampleHardware sampleTextRendering

/-- A button with a border and a corner radius, placed at (10, 10). -/
def createSquare (borderWidth cornerRadius width : ℤ) : Option AppState := do
  let (s, button) ← eiWidgetCreate (sampleApp ⟨640, 480⟩) .button (some 0) none
  let s ← eiButtonConfigure s button
    { borderWidth := some borderWidth
      cornerRadius := some cornerRadius }
  eiPlace s button { x := some 10, y := some 10, width := some width, height := some width }

/-- The placed button, with its border and its locations. -/
structure SquareButton (s : AppState) (w : Widget) (a : ButtonAttrs)
    (borderWidth cornerRadius : ℤ) (location content : Rect) : Prop where
  widget : s.widgets 1 = some w
  attrs : w.attrs = .button a
  size : s.rootSurface.size = ⟨640, 480⟩
  borderWidth : a.borderWidth = borderWidth
  cornerRadius : a.cornerRadius = cornerRadius
  noClipping : a.noClipping = false
  screenLocation : w.screenLocation = location
  content : w.content = content

/-- Whether the first widget is this button, as a computation. -/
def isSquareButton (s : AppState) (borderWidth cornerRadius : ℤ) (location content : Rect) :
    Option Bool := do
  let w ← s.widgets 1
  match w.attrs with
  | .button a =>
      some (decide (s.rootSurface.size = ⟨640, 480⟩ ∧ a.borderWidth = borderWidth ∧
        a.cornerRadius = cornerRadius ∧ a.noClipping = false ∧ w.screenLocation = location ∧
        w.content = content))
  | .frame _ | .toplevel _ => none

theorem exists_squareButton {borderWidth cornerRadius width : ℤ} {location content : Rect}
    (h : ((createSquare borderWidth cornerRadius width).bind fun s =>
      isSquareButton s borderWidth cornerRadius location content) = some true) :
    ∃ s w a, createSquare borderWidth cornerRadius width = some s ∧
      SquareButton s w a borderWidth cornerRadius location content := by
  obtain ⟨s, hs, h⟩ := Option.bind_eq_some_iff.mp h
  obtain ⟨w, hw, h⟩ := Option.bind_eq_some_iff.mp h
  split at h
  · next a ha =>
    rw [Option.some.injEq, decide_eq_true_eq] at h
    obtain ⟨hsize, hb, hr, hno, hloc, hcontent⟩ := h
    exact ⟨s, w, a, hs, hw, ha, hsize, hb, hr, hno, hloc, hcontent⟩
  · simp at h
  · simp at h

end Sample

end GuiLibrary

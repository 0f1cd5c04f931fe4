import GuiLibrary.Locations
import GuiLibrary.Picking

/-!
# Hit testing

A full draw writes the pick colours of the widgets on the pick surface, parents before children
and siblings in order, each inside a clipper that is cut at the content area of every ancestor. The
colour that stays at a point of the window is that of the last widget in pre-order that is painted
there, so `ei_widget_pick` returns this widget.

`paint` is the traversal as a function on surfaces, for up-to-date geometry; `painted` lists the
widgets that it paints at a point.

## Main definitions

* `InExtent`, `Hit`, `LastHit`.
* `paint`, `painted`.

## Main results

* `drawSiblings_eq_paint`: the traversal of the program is `paint`.
* `pixel_paint`: the pixel after the traversal.
* `eiWidgetPick_initialDraw`.
-/

namespace GuiLibrary

open Cells

/-! ### What should be picked -/

section Hit

variable [Raster]

/-- The painted extent of a widget contains the point: the painted rectangle of a toplevel, the
pick polygon of a frame or a button. -/
def InExtent (w : Widget) (p : Point) : Prop :=
  match w.attrs with
  | .toplevel a => p ∈ a.drawRect
  | .frame _ | .button _ => pickPoints w ≠ [] ∧ Raster.polygonPixel (pickPoints w) p

instance (w : Widget) (p : Point) : Decidable (InExtent w p) := by
  unfold InExtent
  split <;> infer_instance

/-- The widget is shown at the point: it and its ancestors are mapped, the point lies in its own
extent and in the content area of every proper ancestor. -/
def Hit (s : AppState) (p : Point) (q : Ptr) : Prop :=
  Mapped s q ∧ (∃ w, s.widgets q = some w ∧ InExtent w p) ∧
    ∀ a, s.Below q a → ∃ w, s.widgets a = some w ∧ p ∈ w.content

/-- The last widget of a list that is shown at the point. -/
def LastHit (s : AppState) (p : Point) (l : List Ptr) (q : Ptr) : Prop :=
  ∃ l₁ l₂, l = l₁ ++ q :: l₂ ∧ Hit s p q ∧ ∀ x ∈ l₂, ¬ Hit s p x

/-! ### Painting a forest -/

/-- Paints the pick colour of one widget inside a clipper. -/
def paintOne (w : Widget) (clipper : Rect) (surface : Surface) : Surface :=
  match w.attrs with
  | .toplevel a =>
      eiFill surface w.pickColor (some (getEiRectIntersection clipper a.drawRect))
  | .frame _ | .button _ => eiDrawPolygon surface (pickPoints w) w.pickColor clipper

/-- Paints a forest of siblings inside a clipper, when no location changes. -/
def paint (m : Ptr → Option Widget) : Rect → Forest Ptr → Surface → Surface
  | _, .nil, surface => surface
  | clipper, .cons q kids rest, surface =>
      paint m clipper rest <|
        match m q with
        | none => surface
        | some w =>
            if w.geomParams.isSome then
              let inner := getEiRectIntersection clipper w.content
              let surface := paintOne w clipper surface
              if inner.size.width < 0 ∨ inner.size.height < 0 then surface
              else paint m inner kids surface
            else surface

/-- The widgets of a forest that are painted at a point inside the clipper, in order. -/
def painted (m : Ptr → Option Widget) (p : Point) : Forest Ptr → List Ptr
  | .nil => []
  | .cons q kids rest =>
      (match m q with
        | none => []
        | some w =>
            if w.geomParams.isSome then
              (if InExtent w p then [q] else []) ++ if p ∈ w.content then painted m p kids else []
            else []) ++ painted m p rest

/-- The pixel that a widget leaves. -/
def pickPixel (m : Ptr → Option Widget) (surface : Surface) (q : Ptr) : BitVec 32 :=
  (m q).elim 0 fun w => eiMapRgba surface w.pickColor

end Hit

/-! ### The pixels of a painting -/

section Pixels

variable [Raster] {m : Ptr → Option Widget} {p : Point}

/-- Surfaces of the same size and layout. -/
def SameLayout (surface surface' : Surface) : Prop :=
  surface'.size = surface.size ∧ surface'.channels = surface.channels

theorem sameLayout_paintOne (w : Widget) (clipper : Rect) (surface : Surface) :
    SameLayout surface (paintOne w clipper surface) := by
  rw [paintOne]
  split <;> exact ⟨rfl, rfl⟩

theorem sameLayout_paint (f : Forest Ptr) : ∀ (clipper : Rect) (surface : Surface),
    SameLayout surface (paint m clipper f surface) := by
  induction f with
  | nil => exact fun _ _ => ⟨rfl, rfl⟩
  | cons q kids rest ihk ihr =>
    intro clipper surface
    have hrest := fun surface' => ihr clipper surface'
    rw [paint]
    cases hw : m q with
    | none => exact hrest surface
    | some w =>
      have hone := sameLayout_paintOne w clipper surface
      simp only
      split_ifs
      · exact ⟨(hrest _).1.trans hone.1, (hrest _).2.trans hone.2⟩
      · have hkids := ihk (getEiRectIntersection clipper w.content) (paintOne w clipper surface)
        exact ⟨(hrest _).1.trans (hkids.1.trans hone.1), (hrest _).2.trans (hkids.2.trans hone.2)⟩
      · exact hrest surface

theorem pixel_paintOne {w : Widget} (hw : w.pickColor.alpha = 255) {clipper : Rect}
    {surface : Surface} (hc : clipper.InWindow surface.size) (hp : p ∈ Rect.ofSize surface.size) :
    (paintOne w clipper surface).pixel p =
      if p ∈ clipper ∧ InExtent w p then eiMapRgba surface w.pickColor else surface.pixel p := by
  cases ha : w.attrs with
  | toplevel a =>
    simp only [paintOne, ha, InExtent, pixel_eiFill surface w.pickColor
      (inWindow_intersection hc a.drawRect) hp, mem_getEiRectIntersection]
  | frame a =>
    simp only [paintOne, ha, InExtent, pixel_eiDrawPolygon surface _ _ _ hp,
      fillPixel_of_alpha_eq surface hw]
    exact if_congr (by tauto) rfl rfl
  | button a =>
    simp only [paintOne, ha, InExtent, pixel_eiDrawPolygon surface _ _ _ hp,
      fillPixel_of_alpha_eq surface hw]
    exact if_congr (by tauto) rfl rfl

omit [Raster] in
theorem pickPixel_congr {surface surface' : Surface} (h : SameLayout surface surface') (q : Ptr) :
    pickPixel m surface' q = pickPixel m surface q := by
  rw [pickPixel, pickPixel]
  cases m q with
  | none => rfl
  | some w => exact eiMapRgba_congr h.2 w.pickColor

omit [Raster] in
/-- A rectangle of negative size has no pixel. -/
theorem notMem_of_negative {r : Rect} (h : r.size.width < 0 ∨ r.size.height < 0) : p ∉ r := by
  rw [Rect.mem_iff]
  omega

/-- **The pixel after a painting** is that of the last widget painted there. -/
theorem pixel_paint (halpha : ∀ q w, m q = some w → w.pickColor.alpha = 255) (f : Forest Ptr) :
    ∀ {clipper : Rect} {surface : Surface}, clipper.InWindow surface.size →
    p ∈ Rect.ofSize surface.size → (paint m clipper f surface).pixel p =
      (if p ∈ clipper then painted m p f else []).foldl (fun _ q => pickPixel m surface q)
        (surface.pixel p) := by
  induction f with
  | nil =>
    intro clipper surface _ _
    simp [paint, painted]
  | cons q kids rest ihk ihr =>
    intro clipper surface hc hp
    -- The siblings that follow are painted on the surface that `q` and its descendants leave.
    have hrest : ∀ surface', SameLayout surface surface' →
        (paint m clipper rest surface').pixel p =
          (if p ∈ clipper then painted m p rest else []).foldl
            (fun _ q => pickPixel m surface q) (surface'.pixel p) := by
      intro surface' h
      rw [ihr (h.1 ▸ hc) (h.1 ▸ hp)]
      simp only [pickPixel_congr h]
    rw [paint, painted]
    cases hw : m q with
    | none => simpa using hrest surface ⟨rfl, rfl⟩
    | some w =>
      have hq : pickPixel m surface q = eiMapRgba surface w.pickColor := by
        rw [pickPixel, hw, Option.elim_some]
      simp only
      by_cases hmapped : w.geomParams.isSome
      · have hone := sameLayout_paintOne w clipper surface
        let inner := getEiRectIntersection clipper w.content
        have hkids : ∃ surface', (if inner.size.width < 0 ∨ inner.size.height < 0 then
              paintOne w clipper surface
            else paint m inner kids (paintOne w clipper surface)) = surface' ∧
            SameLayout surface surface' ∧ surface'.pixel p =
              (if p ∈ inner then painted m p kids else []).foldl
                (fun _ q => pickPixel m surface q) ((paintOne w clipper surface).pixel p) := by
          refine ⟨_, rfl, ?_⟩
          split_ifs with hneg hin hin
          · exact absurd hin (notMem_of_negative hneg)
          · exact ⟨hone, rfl⟩
          all_goals
            have hlayout := sameLayout_paint (m := m) kids inner (paintOne w clipper surface)
            refine ⟨⟨hlayout.1.trans hone.1, hlayout.2.trans hone.2⟩, ?_⟩
            rw [ihk (hone.1 ▸ inWindow_intersection hc w.content) (hone.1 ▸ hp)]
            simp only [hin, if_true, if_false, pickPixel_congr hone]
        obtain ⟨surface', hsurface', hlayout, hpixel⟩ := hkids
        rw [if_pos hmapped, if_pos hmapped, hsurface', hrest surface' hlayout, hpixel,
          pixel_paintOne (halpha q w hw) hc hp]
        by_cases hclip : p ∈ clipper
        · by_cases hext : InExtent w p <;> by_cases hcontent : p ∈ w.content <;>
            simp [inner, hclip, hext, hcontent, hq]
        · simp [inner, hclip]
      · simpa [hmapped] using hrest surface ⟨rfl, rfl⟩

end Pixels

/-! ### The painted widgets are those that should be picked -/

section Hits

variable {s : AppState} {q o : Ptr} {w : Widget} {p : Point}

/-- The point lies in the content area of the widget and of every ancestor. -/
def InContents (s : AppState) (p : Point) (o : Ptr) : Prop :=
  ∀ a, s.InSubtree o a → ∃ w, s.widgets a = some w ∧ p ∈ w.content

theorem inContents_iff_of_childOf (hw : s.widgets q = some w) (ho : w.parent = some o)
    (hcontents : InContents s p o) : InContents s p q ↔ p ∈ w.content := by
  have hq : nodeLinks.ChildOf s.nodes q o := ⟨w.node, AppState.nodes_of_widgets hw, ho⟩
  constructor
  · intro h
    obtain ⟨v, hv, hp⟩ := h q (Or.inl rfl)
    rwa [Option.some.inj (hw.symm.trans hv)]
  · rintro h a (rfl | ha)
    · exact ⟨w, hw, h⟩
    · exact hcontents a ((below_iff_of_childOf hq a).mp ha)

variable [Raster]

open Classical in
/-- **The widgets painted at a point are those shown there**, below a mapped widget with the point
in its content area. -/
theorem painted_eq_filter (hs : WellFormed s) (f : Forest Ptr) : ∀ {o : Ptr} {h : Option Ptr},
    Represents nodeLinks s.nodes o h f → Mapped s o → InContents s p o →
      painted s.widgets p f = f.nodes.filter fun q => Hit s p q := by
  induction f with
  | nil => simp [painted]
  | cons q kids rest ihk ihr =>
    rintro o h ⟨-, n, hn, ho, hkids, hrest⟩ hmapped hcontents
    obtain ⟨w, hw, rfl⟩ := AppState.nodes_eq_some.mp hn
    have hq : nodeLinks.ChildOf s.nodes q o := ⟨w.node, hn, ho⟩
    have hmap := mapped_iff_of_childOf hs hw ho hmapped
    have hin := inContents_iff_of_childOf hw ho hcontents
    have hhit : Hit s p q ↔ w.geomParams.isSome ∧ InExtent w p := by
      rw [Hit, hmap]
      refine and_congr_right fun _ => ⟨?_, fun hext => ⟨⟨w, hw, hext⟩, fun a ha => ?_⟩⟩
      · rintro ⟨⟨v, hv, hext⟩, -⟩
        rwa [Option.some.inj (hw.symm.trans hv)]
      · exact hcontents a ((below_iff_of_childOf hq a).mp ha)
    -- A widget that hides its descendants at the point.
    have hhidden : ¬ (w.geomParams.isSome ∧ p ∈ w.content) →
        (kids.nodes.filter fun q => Hit s p q) = [] := by
      intro hno
      refine List.filter_eq_nil_iff.mpr fun x hx => ?_
      rw [decide_eq_true_iff]
      rintro ⟨hxm, -, hxc⟩
      have hxq : s.Below x q := hkids.below x hx
      obtain ⟨v, hv, hpv⟩ := hxc q hxq
      exact hno ⟨hmap.mp (hxm.of_below hxq), Option.some.inj (hw.symm.trans hv) ▸ hpv⟩
    have hshown : w.geomParams.isSome → p ∈ w.content →
        painted s.widgets p kids = kids.nodes.filter fun q => Hit s p q :=
      fun h₁ h₂ => ihk hkids (hmap.mpr h₁) (hin.mpr h₂)
    rw [painted, ihr hrest hmapped hcontents, Forest.nodes_cons, List.filter_cons,
      List.filter_append, hw]
    simp only [decide_eq_true_eq, hhit]
    by_cases h₁ : w.geomParams.isSome
    · by_cases h₂ : p ∈ w.content
      · by_cases h₃ : InExtent w p <;> simp [h₁, h₂, h₃, hshown h₁ h₂]
      · by_cases h₃ : InExtent w p <;> simp [h₁, h₂, h₃, hhidden fun h => h₂ h.2]
    · simp [h₁, hhidden fun h => h₁ h.1]

open Classical in
/-- The last of the shown widgets of a list. -/
theorem lastHit_of_filter {l l' : List Ptr} (h : (l.filter fun q => Hit s p q) = l' ++ [q]) :
    LastHit s p l q := by
  obtain ⟨l₁, l₂, rfl, -, h₂⟩ := List.filter_eq_append_iff.mp h
  obtain ⟨k₁, k₂, rfl, -, hq, hnil⟩ := List.filter_eq_cons_iff.mp h₂
  refine ⟨l₁ ++ k₁, k₂, by simp, of_decide_eq_true hq, fun x hx hhit => ?_⟩
  exact List.filter_eq_nil_iff.mp hnil x hx (decide_eq_true hhit)

end Hits

/-! ### The traversal of the program -/

section Traversal

variable [Raster] {s : AppState}

/-- No button has `no_clipping` set. -/
def AllClipped (s : AppState) : Prop :=
  ∀ q w a, s.widgets q = some w → w.attrs = .button a → a.noClipping = false

/-- Writing the pick surface. -/
def AppState.setPickSurface (s : AppState) (surface : Surface) : AppState :=
  { s with pickSurface := surface }

theorem drawPick_eq (hclip : AllClipped s) {q : Ptr} {w : Widget} (hw : s.widgets q = some w)
    (surface : Surface) (clipper : Rect) :
    drawPick (s.setPickSurface surface) q clipper =
      some (s.setPickSurface (paintOne w clipper surface)) := by
  have hw' : (s.setPickSurface surface).widgets q = some w := hw
  cases ha : w.attrs with
  | toplevel a =>
    simp only [drawPick, hw', ha, Option.bind_eq_bind, Option.bind_some, paintOne]
    rfl
  | frame a =>
    simp only [drawPick, hw', ha, borderClipper, Option.bind_eq_bind, Option.bind_some, paintOne]
    rfl
  | button a =>
    have hno : a.noClipping = false := hclip q w a hw ha
    simp only [drawPick, hw', ha, borderClipper, hno, Option.bind_eq_bind, Option.bind_some,
      paintOne, Bool.false_eq_true, if_false]
    rfl

/-- **The loop on siblings paints the forest**, when the bound on its depth reaches the number of
widgets of the forest. -/
theorem drawSiblings_eq_paint (hs : WellFormed s) (hup : UpToDate s) (hclip : AllClipped s)
    (f : Forest Ptr) : ∀ (fuel : ℕ) {o : Ptr} {h : Option Ptr} (clipper : Rect) (surface : Surface),
    Represents nodeLinks s.nodes o h f → f.nodes.length ≤ fuel → Mapped s o →
      drawSiblings drawPick fuel (s.setPickSurface surface) (.rect clipper) h =
        some (s.setPickSurface (paint s.widgets clipper f surface)) := by
  induction f with
  | nil =>
    rintro fuel o _ clipper surface rfl - -
    cases fuel <;> rfl
  | cons q kids rest ihk ihr =>
    rintro fuel o h clipper surface ⟨rfl, n, hn, ho, hkids, hrest⟩ hfuel hmapped
    obtain ⟨w, hw, rfl⟩ := AppState.nodes_eq_some.mp hn
    have ho : w.parent = some o := ho
    rw [Forest.nodes_cons, List.length_cons, List.length_append] at hfuel
    obtain ⟨k, rfl⟩ : ∃ k, fuel = k + 1 := ⟨fuel - 1, by omega⟩
    have hw' : ∀ x, (s.setPickSurface x).widgets q = some w := fun _ => hw
    have hr : ∀ x, drawSiblings drawPick k (s.setPickSurface x) (.rect clipper) w.nextSibling =
        some (s.setPickSurface (paint s.widgets clipper rest x)) := fun x =>
      ihr k clipper x hrest (by omega) hmapped
    rw [drawSiblings, paint, hw', hw]
    simp only [Option.bind_eq_bind, Option.bind_some]
    by_cases hsome : w.geomParams.isSome
    · have hmapq : Mapped s q := (mapped_iff_of_childOf hs hw ho hmapped).mpr hsome
      obtain ⟨m, hm⟩ := hs.linked.parent_live q o ⟨w.node, hn, ho⟩
      obtain ⟨pw, hpw, rfl⟩ := AppState.nodes_eq_some.mp hm
      have hself : runplacer (s.setPickSurface surface) q = some (s.setPickSurface surface) :=
        runplacerWith_self (hw' surface) ho hpw (hup q w o pw hw hmapq ho hpw)
      have hk : ∀ x c, drawSiblings drawPick k (s.setPickSurface x) (.rect c) w.childrenHead =
          some (s.setPickSurface (paint s.widgets c kids x)) := fun x c =>
        ihk k c x hkids (by omega) hmapq
      simp only [if_pos hsome, drawMapped, hself, drawPick_eq hclip hw, Clipper.read,
        Option.bind_eq_bind, Option.bind_some, hw', drawChildrenWith]
      split_ifs
      · rw [Option.bind_some, hw', Option.bind_some, hr]
      · rw [hk, Option.bind_some, hw', Option.bind_some, hr]
    · simp only [if_neg hsome, Option.bind_some, hw', hr]

end Traversal

/-! ### Picking after a full draw -/

section Pick

variable [Raster] {s : AppState} {root : Ptr} {r : Widget} {f : Forest Ptr} {p : Point}

/-- A full draw only writes the pick surface. -/
theorem initialDraw_eq (hs : WellFormed s) (hup : UpToDate s) (hclip : AllClipped s)
    (hroot : s.rootWidget = some root) (hr : s.widgets root = some r) (hmapped : Mapped s root)
    (hf : Represents nodeLinks s.nodes root r.childrenHead f)
    (hcontent : ¬ (r.content.size.width < 0 ∨ r.content.size.height < 0)) :
    initialDraw s = some (s.setPickSurface
      (paint s.widgets r.content f (paintOne r r.content s.pickSurface))) := by
  have hdraw : drawPick s root r.content =
      some (s.setPickSurface (paintOne r r.content s.pickSurface)) :=
    drawPick_eq hclip hr s.pickSurface r.content
  have hr' : (s.setPickSurface (paintOne r r.content s.pickSurface)).widgets root = some r := hr
  simp only [initialDraw, hroot, hr, hdraw, eiDrawWidgetChildren, drawChildrenWith, Clipper.read,
    hr', if_neg hcontent, Option.bind_eq_bind, Option.bind_some]
  exact drawSiblings_eq_paint hs hup hclip f s.nextWidget r.content _ hf (hs.length_nodes_le hf)
    hmapped

open Classical in
/-- The widgets shown at a point of the content area of the root, in pre-order. -/
theorem filter_hit_eq (hs : WellFormed s) (hroot : s.rootWidget = some root)
    (hr : s.widgets root = some r) (hf : Represents nodeLinks s.nodes root r.childrenHead f)
    (hp : p ∈ r.content) : ((root :: f.nodes).filter fun q => Hit s p q) =
      (if InExtent r p then [root] else []) ++ painted s.widgets p f := by
  have hmapped := mapped_root hs hroot hr
  have hcontents : InContents s p root := by
    rintro a (rfl | ha)
    · exact ⟨r, hr, hp⟩
    · exact absurd ha (root_top hs hroot hr a)
  have hhit : Hit s p root ↔ InExtent r p := by
    constructor
    · rintro ⟨-, ⟨v, hv, hext⟩, -⟩
      rwa [Option.some.inj (hr.symm.trans hv)]
    · exact fun h => ⟨hmapped, ⟨r, hr, h⟩, fun a ha => absurd ha (root_top hs hroot hr a)⟩
  rw [painted_eq_filter hs f hf hmapped hcontents, List.filter_cons]
  by_cases h : InExtent r p <;> simp [hhit, h]

/-- **Hit testing agrees with painting order.** After a full draw `ei_widget_pick` returns the last
widget in pre-order that is shown at the point, if there is one. -/
theorem eiWidgetPick_initialDraw {size : Size} (hs : WellFormed s) (hnum : Numbered s)
    (hle : s.nextWidget ≤ 2 ^ 24) (hroot : s.rootWidget = some root)
    (hr : s.widgets root = some r) (hcontent : r.content = Rect.ofSize size)
    (hsurface : s.pickSurface.size = size)
    (hf : Represents nodeLinks s.nodes root r.childrenHead f) (hup : UpToDate s)
    (hclip : AllClipped s) (hp : p ∈ Rect.ofSize size) :
    ∃ s', initialDraw s = some s' ∧ ((∃ q, Hit s p q) →
      ∃ q, LastHit s p (root :: f.nodes) q ∧ eiWidgetPick s' p = some (some q)) := by
  classical
  have hpr : p ∈ r.content := hcontent ▸ hp
  have hps : p ∈ Rect.ofSize s.pickSurface.size := hsurface ▸ hp
  have hwin : r.content.InWindow s.pickSurface.size := by
    rw [hcontent, hsurface]
    simp [Rect.InWindow, Rect.ofSize]
  refine ⟨_, initialDraw_eq hs hup hclip hroot hr (mapped_root hs hroot hr) hf
    fun h => notMem_of_negative h hpr, ?_⟩
  rintro ⟨q₀, hq₀⟩
  let surface := paint s.widgets r.content f (paintOne r r.content s.pickSurface)
  have hone := sameLayout_paintOne r r.content s.pickSurface
  have hlayout : SameLayout s.pickSurface surface := by
    have h := sameLayout_paint (m := s.widgets) f r.content (paintOne r r.content s.pickSurface)
    exact ⟨h.1.trans hone.1, h.2.trans hone.2⟩
  -- The pixel is that of the last of the shown widgets.
  have hpixel : surface.pixel p = ((root :: f.nodes).filter fun q => Hit s p q).foldl
      (fun _ q => pickPixel s.widgets s.pickSurface q) (s.pickSurface.pixel p) := by
    rw [pixel_paint (fun _ _ => hnum.alpha_pickColor) f (hone.1 ▸ hwin) (hone.1 ▸ hps),
      if_pos hpr, pixel_paintOne (hnum.alpha_pickColor hr) hwin hps,
      filter_hit_eq hs hroot hr hf hpr]
    simp only [pickPixel_congr hone, hpr, true_and]
    have hq : pickPixel s.widgets s.pickSurface root = eiMapRgba s.pickSurface r.pickColor := by
      rw [pickPixel, hr, Option.elim_some]
    by_cases hext : InExtent r p <;> simp [hext, hq]
  have hmem : q₀ ∈ root :: f.nodes := by
    obtain ⟨-, ⟨v, hv, -⟩, -⟩ := hq₀
    obtain ⟨r', -, hr', -, -, hin⟩ := hs.inSubtree_root (AppState.live_iff.mpr ⟨v, hv⟩)
    obtain rfl := Option.some.inj (hroot.symm.trans hr')
    rcases hin with rfl | hb
    · exact List.mem_cons_self
    · exact List.mem_cons_of_mem _
        ((hf.mem_nodes_iff hs.linked (AppState.nodes_of_widgets hr) q₀).mpr hb)
  rcases List.eq_nil_or_concat ((root :: f.nodes).filter fun q => Hit s p q) with hnil | ⟨l, q, hl⟩
  · exact absurd (decide_eq_true hq₀) (List.filter_eq_nil_iff.mp hnil q₀ hmem)
  · rw [List.concat_eq_append] at hl
    have hlast : LastHit s p (root :: f.nodes) q := lastHit_of_filter hl
    obtain ⟨-, -, -, ⟨-, ⟨w, hw, -⟩, -⟩, -⟩ := id hlast
    refine ⟨q, hlast, ?_⟩
    have hcolor : surface.pixel p = eiMapRgba surface (pickColorOf (BitVec.ofNat 32 q)) := by
      rw [hpixel, hl, List.foldl_append, List.foldl_cons, List.foldl_nil, pickPixel, hw,
        Option.elim_some, hnum.pickColor_eq hw]
      exact eiMapRgba_congr hlayout.2.symm _
    have hsearch := search_pickColor hs hnum hle hroot (AppState.live_iff.mpr ⟨r, hr⟩) surface
      (hs.lt_nextWidget (AppState.live_iff.mpr ⟨w, hw⟩))
    rw [← hcolor, hw, Option.map_some] at hsearch
    have hroot' : (s.setPickSurface surface).rootWidget = some root := hroot
    rw [eiWidgetPick, hroot', Option.bind_eq_bind, Option.bind_some]
    exact hsearch

end Pick

section Sample

attribute [local instance] sampleHardware sampleRaster

theorem samplePlaced_upToDate : UpToDate samplePlaced := by
  intro q w o pw hw _ ho hpw
  have hroot : (samplePlaced.widgets 0).map Widget.parent = some none := by with_unfolding_all rfl
  have hparent : (samplePlaced.widgets 1).map Widget.parent = some (some 0) := by
    with_unfolding_all rfl
  have htarget : ((samplePlaced.widgets 1).bind fun w => (samplePlaced.widgets 0).map fun pw =>
      decide (w.target pw.content = w.screenLocation)) = some true := by with_unfolding_all rfl
  rcases samplePlaced_cases hw with rfl | rfl
  · rw [hw, Option.map_some, ho] at hroot
    exact absurd hroot (by simp)
  · rw [hw, Option.map_some, ho, Option.some.injEq, Option.some.injEq] at hparent
    rw [hw, Option.bind_some, ← hparent, hpw, Option.map_some, Option.some.injEq] at htarget
    exact of_decide_eq_true htarget

/-- A point of the placed frame. -/
theorem eiWidgetPick_initialDraw_placed : ∃ s', initialDraw samplePlaced = some s' ∧
    ((∃ q, Hit samplePlaced ⟨15, 25⟩ q) → ∃ q, LastHit samplePlaced ⟨15, 25⟩ [0, 1] q ∧
      eiWidgetPick s' ⟨15, 25⟩ = some (some q)) := by
  have hroot : (samplePlaced.widgets 0).map (fun r => (r.content, r.childrenHead)) =
      some (Rect.ofSize ⟨640, 480⟩, some 1) := by with_unfolding_all rfl
  obtain ⟨r, hr, hcontent⟩ := Option.map_eq_some_iff.mp hroot
  obtain ⟨hcontent, hhead⟩ := Prod.mk.inj hcontent
  have hlinks : (samplePlaced.nodes 1).map (fun n => (n.parent, n.childrenHead, n.nextSibling)) =
      some (some 0, none, none) := by with_unfolding_all rfl
  obtain ⟨n, hn, hl⟩ := Option.map_eq_some_iff.mp hlinks
  obtain ⟨h₁, h₂, h₃⟩ : n.parent = some 0 ∧ n.childrenHead = none ∧ n.nextSibling = none := by
    simpa using hl
  have hf : Represents nodeLinks samplePlaced.nodes 0 r.childrenHead (.cons 1 .nil .nil) :=
    ⟨hhead, n, hn, h₁, h₂, h₃⟩
  refine eiWidgetPick_initialDraw samplePlaced_invariant.1 samplePlaced_invariant.2
    (by decide +kernel) (by decide +kernel) hr hcontent (by decide +kernel) hf
    samplePlaced_upToDate (fun q w a hw ha => ?_) (by decide)
  have hclass : (samplePlaced.widgets 0).map Widget.wclass = some .frame ∧
      (samplePlaced.widgets 1).map Widget.wclass = some .frame := by decide +kernel
  rcases samplePlaced_cases hw with rfl | rfl
  · rw [hw, Option.map_some, Widget.wclass, ha] at hclass
    exact absurd hclass.1 (by simp [Attrs.wclass])
  · rw [hw, Option.map_some, Widget.wclass, ha] at hclass
    exact absurd hclass.2 (by simp [Attrs.wclass])

end Sample

end GuiLibrary

import GuiLibrary.Decorations
import GuiLibrary.Dragging
import Mathlib.Data.Rat.Floor

/-!
# Moving a toplevel with its descendants

The formula of the placer adds the position of the content area of the parent to the position of a
widget in it, and converts the sum to an integer, towards zero. So the part of a pixel that is cut
off depends on the side of the origin that the sum is on: a widget with a fractional position is one
pixel off when its toplevel moves across the edge of the window.

`Placed` goes down from a toplevel as the placer does, without the comparison with the old location
and without the cutting at the edges of the window. The descendants keep their place in the toplevel
exactly when every sum is an integer or stays on its side of the origin, and no frame keeps the
content area of a border that it does not have any more.

## Main definitions

* `Rect.shift`, `anchorShift`, `SameSide`.
* `Placed`: the content areas under which the formula places the descendants.
* `MovesRigidly`, `Widget.MovesAlong`.

## Main results

* `truncate_add_intCast_iff`: when the conversion commutes with a move.
* `movesRigidly_iff`.
-/

namespace GuiLibrary

open Cells

/-! ### The conversion to an integer -/

theorem truncate_of_nonneg {q : ℚ} (h : 0 ≤ q) : truncate q = ⌊q⌋ := by
  rw [truncate, Rat.floor_def', Int.tdiv_eq_ediv_of_nonneg (Rat.num_nonneg.mpr h)]

theorem truncate_neg (q : ℚ) : truncate (-q) = -truncate q := by
  rw [truncate, truncate, Rat.neg_num, Rat.neg_den, Int.neg_tdiv]

theorem truncate_of_nonpos {q : ℚ} (h : q ≤ 0) : truncate q = ⌈q⌉ := by
  rw [← neg_neg q, truncate_neg, truncate_of_nonneg (neg_nonneg.mpr h), Int.ceil_neg]

theorem floor_eq_ceil_iff {q : ℚ} : ⌊q⌋ = ⌈q⌉ ↔ q.den = 1 := by
  constructor
  · intro h
    have hq : q = (⌊q⌋ : ℤ) := le_antisymm (h ▸ Int.le_ceil q) (Int.floor_le q)
    rw [hq]
    exact Rat.den_intCast _
  · intro h
    rw [← Rat.coe_int_num_of_den_eq_one h, Int.floor_intCast, Int.ceil_intCast]

/-- The number is an integer, or stays on its side of the origin when `n` is added. -/
def SameSide (q : ℚ) (n : ℤ) : Prop := q.den = 1 ∨ (0 ≤ q ↔ 0 ≤ q + n)

instance (q : ℚ) (n : ℤ) : Decidable (SameSide q n) := inferInstanceAs (Decidable (_ ∨ _))

/-- **The conversion commutes with a move** exactly when the number is an integer or stays on its
side of the origin. -/
theorem truncate_add_intCast_iff {q : ℚ} {n : ℤ} :
    truncate (q + n) = truncate q + n ↔ SameSide q n := by
  rw [SameSide, ← floor_eq_ceil_iff]
  rcases le_or_gt 0 q with hq | hq <;> rcases le_or_gt 0 (q + n) with hqn | hqn
  · rw [truncate_of_nonneg hq, truncate_of_nonneg hqn, Int.floor_add_intCast]
    exact iff_of_true rfl (Or.inr (iff_of_true hq hqn))
  · rw [truncate_of_nonneg hq, truncate_of_nonpos hqn.le, Int.ceil_add_intCast,
      add_left_inj, eq_comm]
    exact (or_iff_left fun h => not_lt.mpr (h.mp hq) hqn).symm
  · rw [truncate_of_nonpos hq.le, truncate_of_nonneg hqn, Int.floor_add_intCast, add_left_inj]
    exact (or_iff_left fun h => not_lt.mpr (h.mpr hqn) hq).symm
  · rw [truncate_of_nonpos hq.le, truncate_of_nonpos hqn.le, Int.ceil_add_intCast]
    exact iff_of_true rfl (Or.inr (iff_of_false (not_le.mpr hq) (not_le.mpr hqn)))

/-! ### Moving a rectangle -/

/-- The rectangle moved by a vector. -/
def Rect.shift (r : Rect) (d : Point) : Rect :=
  ⟨⟨r.topLeft.x + d.x, r.topLeft.y + d.y⟩, r.size⟩

theorem Rect.shift_eq_self_iff {r : Rect} {d : Point} : r.shift d = r ↔ d = ⟨0, 0⟩ := by
  obtain ⟨⟨x, y⟩, size⟩ := r
  obtain ⟨dx, dy⟩ := d
  simp [Rect.shift]

/-- How far an anchor moves the corner of a rectangle of the given size. -/
def anchorShift (anchor : Anchor) (size : Size) : Point where
  x :=
    match anchor with
    | .center | .north | .south => size.width.tdiv 2
    | .northeast | .east | .southeast => size.width
    | .southwest | .west | .northwest | .none => 0
  y :=
    match anchor with
    | .center | .east | .west => size.height.tdiv 2
    | .southeast | .south | .southwest => size.height
    | .north | .northeast | .northwest | .none => 0

theorem anchored_eq (anchor : Anchor) (x y width height : ℤ) :
    anchored anchor x y width height =
      ⟨⟨x - (anchorShift anchor ⟨width, height⟩).x, y - (anchorShift anchor ⟨width, height⟩).y⟩,
        ⟨width, height⟩⟩ := by
  cases anchor <;> simp [anchored, anchorShift]

/-- The sum that the formula converts to the horizontal position of a corner. -/
def placerX (params : PlacerParam) (parentSl : Rect) : ℚ :=
  parentSl.size.width * params.relX + params.x + parentSl.topLeft.x

/-- The sum that the formula converts to the vertical position of a corner. -/
def placerY (params : PlacerParam) (parentSl : Rect) : ℚ :=
  parentSl.size.height * params.relY + params.y + parentSl.topLeft.y

/-- The corner is the converted sum, moved by the anchor. -/
theorem topLeft_placerRect (params : PlacerParam) (requestedSize : Size) (K : Rect) :
    (placerRect params requestedSize K).topLeft =
      ⟨truncate (placerX params K) -
          (anchorShift params.anchor (placerRect params requestedSize K).size).x,
        truncate (placerY params K) -
          (anchorShift params.anchor (placerRect params requestedSize K).size).y⟩ := by
  simp only [placerRect, anchored_eq, placerX, placerY]

/-- The size only depends on the size of the content area. -/
theorem size_placerRect_shift (params : PlacerParam) (requestedSize : Size) (K : Rect) (d : Point) :
    (placerRect params requestedSize (K.shift d)).size =
      (placerRect params requestedSize K).size := by
  rw [size_placerRect, size_placerRect]
  rfl

/-- **The formula commutes with a move of the content area** exactly when both sums do. -/
theorem placerRect_shift_iff {params : PlacerParam} {requestedSize : Size} {K : Rect} {d : Point} :
    placerRect params requestedSize (K.shift d) = (placerRect params requestedSize K).shift d ↔
      SameSide (placerX params K) d.x ∧ SameSide (placerY params K) d.y := by
  have hx : placerX params (K.shift d) = placerX params K + d.x := by
    simp only [placerX, Rect.shift, Int.cast_add]
    ring
  have hy : placerY params (K.shift d) = placerY params K + d.y := by
    simp only [placerY, Rect.shift, Int.cast_add]
    ring
  have hsize := size_placerRect_shift params requestedSize K d
  have hcorner := topLeft_placerRect params requestedSize (K.shift d)
  rw [hsize, hx, hy] at hcorner
  rw [← truncate_add_intCast_iff, ← truncate_add_intCast_iff]
  constructor
  · intro h
    have htop := congrArg Rect.topLeft h
    rw [hcorner, Rect.shift, topLeft_placerRect, Point.mk.injEq] at htop
    exact ⟨by linarith only [htop.1], by linarith only [htop.2]⟩
  · rintro ⟨h₁, h₂⟩
    have htop : (placerRect params requestedSize (K.shift d)).topLeft =
        ((placerRect params requestedSize K).shift d).topLeft := by
      rw [hcorner, h₁, h₂, Rect.shift, topLeft_placerRect, Point.mk.injEq]
      exact ⟨by ring, by ring⟩
    exact congrArg₂ Rect.mk htop hsize

/-! ### Content areas -/

/-- A frame without a border that keeps a content area of its own, from a former border: a
notification assigns it no more. -/
def Widget.LeavesContent (w : Widget) : Prop :=
  ∃ a rect, w.attrs = .frame a ∧ a.borderWidth = 0 ∧ w.contentRect = .own rect

theorem Widget.LeavesContent.content_moved {w : Widget} (h : w.LeavesContent) (rect rect' : Rect) :
    (w.moved rect).content = (w.moved rect').content := by
  obtain ⟨a, r, ha, hb, hcontent⟩ := h
  simp only [moved, notified, setScreenLocation, Widget.content, ha, hb, hcontent, ne_eq,
    not_true_eq_false, if_false]

/-- The content area moves with the widget, unless a notification does not assign it. -/
theorem Widget.content_moved_shift_iff {w : Widget} {rect : Rect} {d : Point} :
    (w.moved (rect.shift d)).content = (w.moved rect).content.shift d ↔
      d = ⟨0, 0⟩ ∨ ¬ w.LeavesContent := by
  obtain ⟨_, _, _, _, _, _, _, _, _, loc, content, attrs⟩ := w
  cases attrs with
  | frame a =>
    by_cases hb : a.borderWidth = 0
    · cases content with
      | screenLocation =>
        have hleaves : ¬ ∃ a' rect', Attrs.frame a = .frame a' ∧ a'.borderWidth = 0 ∧
            ContentRect.screenLocation = .own rect' := by
          rintro ⟨_, _, -, -, h⟩
          cases h
        exact iff_of_true (by simp [moved, notified, setScreenLocation, Widget.content, hb])
          (Or.inr hleaves)
      | own r =>
        have hleaves : ∃ a' rect', Attrs.frame a = .frame a' ∧ a'.borderWidth = 0 ∧
            ContentRect.own r = .own rect' := ⟨a, r, rfl, hb, rfl⟩
        simp only [moved, notified, setScreenLocation, Widget.content, hb, ne_eq,
          not_true_eq_false, if_false, LeavesContent, hleaves, or_false]
        rw [eq_comm, Rect.shift_eq_self_iff]
    · have hleaves : ¬ ∃ a' rect', Attrs.frame a = .frame a' ∧ a'.borderWidth = 0 ∧
          content = .own rect' := by
        rintro ⟨a', _, ha, hb', -⟩
        cases ha
        exact hb hb'
      refine iff_of_true ?_ (Or.inr hleaves)
      simp only [moved, notified, setScreenLocation, Widget.content, hb, ne_eq, not_false_eq_true,
        if_true, insetRect, Rect.shift]
      ring_nf
  | button a =>
    have hleaves : ¬ ∃ a' rect', Attrs.button a = .frame a' ∧ a'.borderWidth = 0 ∧
        content = .own rect' := by
      rintro ⟨_, _, h, -⟩
      cases h
    refine iff_of_true ?_ (Or.inr hleaves)
    by_cases hb : a.borderWidth = 0
    · simp [moved, notified, setScreenLocation, Widget.content, hb]
    · simp only [moved, notified, setScreenLocation, Widget.content, hb, ne_eq, not_false_eq_true,
        if_true, insetRect, Rect.shift]
      ring_nf
  | toplevel a =>
    have hleaves : ¬ ∃ a' rect', Attrs.toplevel a = .frame a' ∧ a'.borderWidth = 0 ∧
        content = .own rect' := by
      rintro ⟨_, _, h, -⟩
      cases h
    refine iff_of_true ?_ (Or.inr hleaves)
    simp only [moved, notified, setScreenLocation, Widget.content, toplevelContent, Rect.shift]
    ring_nf

/-! ### The locations of the descendants -/

/-- The formula, applied from the widget `t` with the content area `K` downwards, places a
descendant under a content area of its parent. Every widget on the way is mapped. -/
inductive Placed (m : Ptr → Option Widget) (t : Ptr) (K : Rect) : Ptr → Rect → Prop
  | child {c : Ptr} {cw : Widget} (hc : m c = some cw) (hparent : cw.parent = some t)
      (hmapped : cw.geomParams.isSome) : Placed m t K c K
  | descend {q c : Ptr} {L : Rect} {w cw : Widget} (h : Placed m t K q L) (hw : m q = some w)
      (hc : m c = some cw) (hparent : cw.parent = some q) (hmapped : cw.geomParams.isSome) :
      Placed m t K c (w.moved (w.target L)).content

/-- When the content area of `t` moves from `K` to `K'`, the locations of all descendants move by
`d` and their sizes stay. -/
def MovesRigidly (m : Ptr → Option Widget) (t : Ptr) (K K' : Rect) (d : Point) : Prop :=
  ∀ q L w, Placed m t K q L → m q = some w →
    ∃ L', Placed m t K' q L' ∧ w.target L' = (w.target L).shift d

/-- The condition on a descendant placed under the content area `L`: both sums of the formula are
integers or stay on their side of the origin, and its content area moves with it when it has mapped
children. -/
structure Widget.MovesAlong (m : Ptr → Option Widget) (q : Ptr) (w : Widget) (L : Rect)
    (d : Point) : Prop where
  sums : ∀ params, w.geomParams = some params →
    SameSide (placerX params L) d.x ∧ SameSide (placerY params L) d.y
  content : w.LeavesContent → d ≠ ⟨0, 0⟩ →
    ∀ c cw, m c = some cw → cw.parent = some q → cw.geomParams = none

section Placed

variable {s : AppState} {t q : Ptr} {K L L' : Rect} {d : Point}

theorem Placed.mapped (h : Placed s.widgets t K q L) : ∃ w params, s.widgets q = some w ∧
    w.geomParams = some params := by
  cases h with
  | child hc _ hmapped =>
    obtain ⟨params, hg⟩ := Option.isSome_iff_exists.mp hmapped
    exact ⟨_, params, hc, hg⟩
  | descend _ _ hc _ hmapped =>
    obtain ⟨params, hg⟩ := Option.isSome_iff_exists.mp hmapped
    exact ⟨_, params, hc, hg⟩

theorem Placed.isBelow (h : Placed s.widgets t K q L) : s.Below q t := by
  induction h with
  | child hc hparent _ => exact .single ⟨_, AppState.nodes_of_widgets hc, hparent⟩
  | descend _ _ hc hparent _ ih => exact .head ⟨_, AppState.nodes_of_widgets hc, hparent⟩ ih

/-- A descendant is placed under one content area. -/
theorem Placed.unique (hs : WellFormed s) (h : Placed s.widgets t K q L) :
    ∀ {L'}, Placed s.widgets t K q L' → L = L' := by
  induction h with
  | child hc hparent _ =>
    intro L' h'
    cases h' with
    | child _ _ _ => rfl
    | descend hq _ hc' hparent' _ =>
      obtain rfl := Option.some.inj (hc.symm.trans hc')
      obtain rfl := Option.some.inj (hparent.symm.trans hparent')
      exact absurd hq.isBelow (hs.linked.not_below_self _)
  | descend hq hw hc hparent _ ih =>
    intro L' h'
    cases h' with
    | child hc' hparent' _ =>
      obtain rfl := Option.some.inj (hc.symm.trans hc')
      obtain rfl := Option.some.inj (hparent.symm.trans hparent')
      exact absurd hq.isBelow (hs.linked.not_below_self _)
    | descend hq' hw' hc' hparent' _ =>
      obtain rfl := Option.some.inj (hc.symm.trans hc')
      obtain rfl := Option.some.inj (hparent.symm.trans hparent')
      obtain rfl := Option.some.inj (hw.symm.trans hw')
      rw [ih hq']

theorem Widget.target_shift_iff {w : Widget} {params : PlacerParam}
    (hg : w.geomParams = some params) :
    w.target (L.shift d) = (w.target L).shift d ↔
      SameSide (placerX params L) d.x ∧ SameSide (placerY params L) d.y := by
  simp only [Widget.target, hg, placerRect_shift_iff]

/-- Under the condition, every descendant is placed under its content area moved by `d`. -/
theorem Placed.shift (hmoves : ∀ q L w, Placed s.widgets t K q L → s.widgets q = some w →
      w.MovesAlong s.widgets q L d) (h : Placed s.widgets t K q L) :
    Placed s.widgets t (K.shift d) q (L.shift d) := by
  induction h with
  | child hc hparent hmapped => exact .child hc hparent hmapped
  | @descend q c L w cw hq hw hc hparent hmapped ih =>
    have halong := hmoves q L w hq hw
    obtain ⟨v, params, hv, hg⟩ := hq.mapped
    obtain rfl := Option.some.inj (hw.symm.trans hv)
    have htarget := (Widget.target_shift_iff hg).mpr (halong.sums params hg)
    have hcontent : (w.moved ((w.target L).shift d)).content =
        (w.moved (w.target L)).content.shift d := by
      refine Widget.content_moved_shift_iff.mpr ?_
      by_contra hleaves
      rw [not_or, not_not] at hleaves
      rw [halong.content hleaves.2 hleaves.1 c cw hc hparent] at hmapped
      cases hmapped
    rw [← hcontent, ← htarget]
    exact .descend ih hw hc hparent hmapped

/-- When the descendants move rigidly, a mapped child keeps its parent from leaving its content
area behind. -/
theorem MovesRigidly.keepsContent (hs : WellFormed s)
    (hrigid : MovesRigidly s.widgets t K (K.shift d) d) (hq : Placed s.widgets t K q L)
    (hq' : Placed s.widgets t (K.shift d) q L') {c : Ptr} {w cw : Widget}
    (hw : s.widgets q = some w) (hc : s.widgets c = some cw) (hparent : cw.parent = some q)
    (hmapped : cw.geomParams.isSome) : d = ⟨0, 0⟩ ∨ ¬ w.LeavesContent := by
  refine or_iff_not_imp_right.mpr fun hleaves => ?_
  have hleaves := not_not.mp hleaves
  obtain ⟨L₂, hc₂, htarget⟩ := hrigid c _ cw (.descend hq hw hc hparent hmapped) hc
  -- Both runs place the child under the content area that is left behind.
  have heq := hc₂.unique hs (.descend hq' hw hc hparent hmapped)
  rw [heq, hleaves.content_moved (w.target L') (w.target L), eq_comm, Rect.shift_eq_self_iff]
    at htarget
  exact htarget

/-- When the descendants move rigidly, every descendant is placed under its content area moved by
`d`. -/
theorem MovesRigidly.placed (hs : WellFormed s) (hrigid : MovesRigidly s.widgets t K (K.shift d) d)
    (h : Placed s.widgets t K q L) : Placed s.widgets t (K.shift d) q (L.shift d) := by
  induction h with
  | child hc hparent hmapped => exact .child hc hparent hmapped
  | @descend q c L w cw hq hw hc hparent hmapped ih =>
    obtain ⟨L', hq', htarget⟩ := hrigid q L w hq hw
    obtain rfl := ih.unique hs hq'
    have hkeeps := hrigid.keepsContent hs hq ih hw hc hparent hmapped
    have hplaced : Placed s.widgets t (K.shift d) c _ := .descend ih hw hc hparent hmapped
    rwa [htarget, Widget.content_moved_shift_iff.mpr hkeeps] at hplaced

/-- **The descendants move rigidly with the toplevel** exactly when all of them meet the
condition. -/
theorem movesRigidly_shift_iff (hs : WellFormed s) : MovesRigidly s.widgets t K (K.shift d) d ↔
    ∀ q L w, Placed s.widgets t K q L → s.widgets q = some w → w.MovesAlong s.widgets q L d := by
  constructor
  · intro hrigid q L w hq hw
    have hq' := hrigid.placed hs hq
    obtain ⟨L', hq₂, htarget⟩ := hrigid q L w hq hw
    obtain rfl := hq'.unique hs hq₂
    refine ⟨fun params hg => (Widget.target_shift_iff hg).mp htarget,
      fun hleaves hd c cw hc hparent => ?_⟩
    by_contra hmapped
    have hmapped : cw.geomParams.isSome := Option.isSome_iff_ne_none.mpr hmapped
    exact (hrigid.keepsContent hs hq hq' hw hc hparent hmapped).elim hd fun h => h hleaves
  · intro hmoves q L w hq hw
    obtain ⟨v, params, hv, hg⟩ := hq.mapped
    obtain rfl := Option.some.inj (hw.symm.trans hv)
    exact ⟨_, hq.shift hmoves,
      (Widget.target_shift_iff hg).mpr ((hmoves q L w hq hw).sums params hg)⟩

/-- **The descendants of a toplevel move rigidly with it** exactly when all of them meet the
condition: the locations that the formula gives move by `d` with the toplevel, from any place. -/
theorem movesRigidly_iff (hs : WellFormed s) {w : Widget} {a : ToplevelAttrs}
    (_ht : s.widgets t = some w) (ha : w.attrs = .toplevel a) (rect : Rect) (d : Point) :
    MovesRigidly s.widgets t (w.moved rect).content (w.moved (rect.shift d)).content d ↔
      ∀ q L v, Placed s.widgets t (w.moved rect).content q L → s.widgets q = some v →
        v.MovesAlong s.widgets q L d := by
  have hleaves : ¬ w.LeavesContent := by
    rintro ⟨_, _, h, -⟩
    rw [ha] at h
    cases h
  rw [Widget.content_moved_shift_iff.mpr (Or.inr hleaves), movesRigidly_shift_iff hs]

end Placed

section Sample

attribute [local instance] sampleHardware

/-- The toplevel of a new application, without children of the programmer. -/
theorem movesRigidly_iff_toplevel : ∃ w, sampleToplevel.widgets 1 = some w ∧
    (MovesRigidly sampleToplevel.widgets 1 (w.moved w.screenLocation).content
        (w.moved (w.screenLocation.shift ⟨-10, 0⟩)).content ⟨-10, 0⟩ ↔
      ∀ q L v, Placed sampleToplevel.widgets 1 (w.moved w.screenLocation).content q L →
        sampleToplevel.widgets q = some v → v.MovesAlong sampleToplevel.widgets q L ⟨-10, 0⟩) := by
  obtain ⟨w, a, o, hw, ha, -⟩ := sampleToplevel_decorated.exists_widget
  exact ⟨w, hw, movesRigidly_iff sampleToplevel_wellFormed hw ha w.screenLocation ⟨-10, 0⟩⟩

/-- A toplevel at the corner of the window with a frame at a fraction of its width, 0.625 pixels
from the left. -/
def createFractional : Option AppState := do
  let (s, frame) ← eiWidgetCreate sampleToplevel .frame (some 1) none
  let s ← eiPlace s 1 { width := some 320, height := some 240 }
  eiPlace s frame { width := some 50, height := some 50, relX := some (1 / 512) }

theorem isSome_createFractional : createFractional.isSome := by with_unfolding_all rfl

/-- The state after `createFractional`: the frame is at address 4. -/
def sampleFractional : AppState := createFractional.get isSome_createFractional

theorem sampleFractional_wellFormed : WellFormed sampleFractional := by
  have h : createFractional = some sampleFractional := (Option.some_get _).symm
  simp only [createFractional, Option.bind_eq_bind, Option.bind_eq_some_iff, Prod.exists] at h
  obtain ⟨s₁, frame, h₁, s₂, h₂, h₃⟩ := h
  obtain ⟨n, o, hn, -⟩ := sampleToplevel_decorated.toplevel
  have hs₁ := (eiWidgetCreate_created sampleToplevel_wellFormed ⟨n, hn⟩ h₁).1.grown.wellFormed
  exact (hs₁.congr (skeleton_eiPlace h₂)).congr (skeleton_eiPlace h₃)

/-- Ten pixels to the left, the frame is one pixel off. -/
theorem sampleFractional_not_rigid : ∃ w, sampleFractional.widgets 1 = some w ∧
    ¬ MovesRigidly sampleFractional.widgets 1 (w.moved w.screenLocation).content
      (w.moved (w.screenLocation.shift ⟨-10, 0⟩)).content ⟨-10, 0⟩ := by
  have htop : (sampleFractional.widgets 1).map (fun w => ((w.moved w.screenLocation).content,
      (w.moved (w.screenLocation.shift ⟨-10, 0⟩)).content)) =
        some (⟨⟨4, 30⟩, ⟨320, 240⟩⟩, Rect.shift ⟨⟨4, 30⟩, ⟨320, 240⟩⟩ ⟨-10, 0⟩) := by
    with_unfolding_all rfl
  have hframe : (sampleFractional.widgets 4).map (fun v => (v.parent, v.geomParams)) =
      some (some 1, some ⟨.northwest, 0, 0, 50, 50, 1 / 512, 0, 0, 0⟩) := by
    with_unfolding_all rfl
  obtain ⟨w, hw, hcontent⟩ := Option.map_eq_some_iff.mp htop
  obtain ⟨v, hv, hattrs⟩ := Option.map_eq_some_iff.mp hframe
  rw [Prod.mk.injEq] at hcontent hattrs
  refine ⟨w, hw, fun hrigid => ?_⟩
  rw [hcontent.1, hcontent.2, movesRigidly_shift_iff sampleFractional_wellFormed] at hrigid
  have halong := hrigid 4 _ v (.child hv hattrs.1 (by rw [hattrs.2]; rfl)) hv
  exact absurd (halong.sums _ hattrs.2).1 (by decide +kernel)

end Sample

end GuiLibrary

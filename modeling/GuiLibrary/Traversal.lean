import GuiLibrary.Drawing
import GuiLibrary.Relayout

/-!
# The calls of a redraw

A redraw calls the drawing function of a widget, then goes on to its children; the placer has moved
widgets between two calls, and may have extended the list of invalidated rectangles. `Draws` is the
relation between the start of the loop on siblings and a call that it makes. Whatever the placer
does, a call below a widget leaves alone every widget that is not below it, and its clipper lies in
the window and in the content area of the widgets that the descent has come through.

## Main definitions

* `Draws`, `DrawsBelow`: the calls of a traversal.
* `Displayed`: what a redraw relies on; `KeepsSizes`, `Traversed`.

## Main results

* `drawSiblings_traversed`: what the loop on siblings leaves alone.
* `Draws.confined`: the clippers of the calls.
-/

namespace GuiLibrary

open Cells

/-! ### Siblings -/

section Siblings

variable {s : AppState} {p q o : Ptr} {n : Node}

/-- The first child is a child. -/
theorem childOf_childrenHead (hs : WellFormed s) (hn : s.nodes o = some n)
    (hq : n.childrenHead = some q) : nodeLinks.ChildOf s.nodes q o := by
  obtain ⟨l, hl, -, hmem⟩ := hs.exists_children hn
  refine (hmem q).mp ?_
  rw [hl.head_eq] at hq
  exact List.mem_of_mem_head? hq

/-- The next sibling has the same parent. -/
theorem childOf_nextSibling (hs : WellFormed s) (hp : nodeLinks.ChildOf s.nodes p o)
    (hn : s.nodes p = some n) (hq : n.nextSibling = some q) : nodeLinks.ChildOf s.nodes q o := by
  obtain ⟨b, hb⟩ := hs.linked.parent_live p o hp
  obtain ⟨l, hl, -, hmem⟩ := hs.exists_children hb
  obtain ⟨l₁, l₂, rfl⟩ := List.append_of_mem ((hmem p).mpr hp)
  obtain ⟨-, n', hn', htail⟩ := chain_cons_iff.mp hl.suffix
  obtain rfl := Option.some.inj (hn.symm.trans hn')
  refine (hmem q).mp (List.mem_append_right _ (List.mem_cons_of_mem p ?_))
  rw [htail.head_eq] at hq
  exact List.mem_of_mem_head? hq

/-- Two proper ancestors of a widget lie on one path. -/
theorem below_total {a b : Ptr} (ha : s.Below q a) (hb : s.Below q b) :
    a = b ∨ s.Below a b ∨ s.Below b a := by
  induction ha using Relation.TransGen.head_induction_on with
  | single hqa => exact ((below_iff_of_childOf hqa b).mp hb).imp_right Or.inl
  | head hqc hca ih =>
    rcases (below_iff_of_childOf hqc b).mp hb with rfl | hcb
    · exact Or.inr (Or.inr hca)
    · exact ih hcb

end Siblings

/-! ### The state of a redraw -/

/-- The widgets form a tree below the root, which is as large as the two surfaces, and the
invalidated rectangles lie inside them. -/
structure Displayed (window : Size) (s : AppState) : Prop where
  wellFormed : WellFormed s
  hasWindow : s.HasWindow window
  rects : ∀ r ∈ s.invalidatedRects, r.InWindow window
  rootSurface : s.rootSurface.size = window
  pickSurface : s.pickSurface.size = window

/-- The drawing function writes surfaces only, and keeps their sizes. -/
def KeepsSizes (drawfunc : DrawFunc) : Prop :=
  ∀ s p clipper s', drawfunc s p clipper = some s' → OnlySurfaces s s' ∧
    s'.rootSurface.size = s.rootSurface.size ∧ s'.pickSurface.size = s.pickSurface.size

theorem drawfuncOf_keepsSizes [Hardware] [Raster] [TextRendering] : KeepsSizes drawfuncOf := by
  intro s p clipper s' h
  refine ⟨drawfuncOf_drawsOnly s p clipper s' h, ?_⟩
  simp only [drawfuncOf, Option.bind_eq_bind, Option.bind_eq_some_iff, Option.some.injEq] at h
  obtain ⟨w, -, d, -, rfl⟩ := h
  exact ⟨size_runPrimitives _ _, size_runPrimitives _ _⟩

/-- What a part of a redraw that stays below `o` makes of the state `s`. -/
structure Traversed (window : Size) (s s' : AppState) (o : Ptr) : Prop where
  displayed : Displayed window s'
  nodes : s'.nodes = s.nodes
  outside : ∀ q, ¬ s.Below q o → s'.widgets q = s.widgets q

namespace Traversed

variable {window : Size} {s s₁ s₂ : AppState} {p o : Ptr}

theorem refl (h : Displayed window s) (o : Ptr) : Traversed window s s o :=
  ⟨h, rfl, fun _ _ => rfl⟩

theorem below_iff (h : Traversed window s s₁ o) {q a : Ptr} : s₁.Below q a ↔ s.Below q a := by
  rw [AppState.Below, AppState.Below, h.nodes]

theorem trans (h₁ : Traversed window s s₁ o) (h₂ : Traversed window s₁ s₂ o) :
    Traversed window s s₂ o where
  displayed := h₂.displayed
  nodes := h₂.nodes.trans h₁.nodes
  outside q hq := (h₂.outside q fun h => hq (h₁.below_iff.mp h)).trans (h₁.outside q hq)

/-- What stays below a child stays below its parent. -/
theorem of_childOf (h : Traversed window s s₁ p) (hp : nodeLinks.ChildOf s.nodes p o) :
    Traversed window s s₁ o where
  displayed := h.displayed
  nodes := h.nodes
  outside q hq := h.outside q fun hqp => hq (hqp.tail hp)

end Traversed

section Steps

variable {window : Size} {s s₁ : AppState} {p o : Ptr} {w : Widget}

theorem inWindow_foldl_linkRect {window : Size} (rects : List Rect) : (l : List Rect) →
    (∀ r ∈ l, r.InWindow window) → ∀ r ∈ rects.foldl
      (fun l rect => linkRect l (normalizeRect rect window)) l, r.InWindow window := by
  induction rects with
  | nil => exact fun _ h => h
  | cons rect rects ih =>
    exact fun l h => ih _ (inWindow_linkRect (normalizeRect_inWindow rect window) l h)

/-- The run of the placer on a child. -/
theorem Displayed.runplacer (h : Displayed window s) (hp : nodeLinks.ChildOf s.nodes p o)
    (hrun : runplacer s p = some s₁) : Traversed window s s₁ o := by
  have hrerun := rerun_of_runplacer h.wellFormed h.hasWindow hrun
  have hskel := hrerun.skeleton_eq
  have hout : ∀ q, ¬ s.Below q o → ¬ s.InSubtree q p := by
    rintro q hq (rfl | hqp)
    · exact hq (.single hp)
    · exact hq (hqp.tail hp)
  refine ⟨⟨h.wellFormed.congr hskel, hrerun.hasWindow h.wellFormed h.hasWindow, ?_, ?_, ?_⟩,
    AppState.nodes_eq_of_skeleton hskel, fun q hq => ?_⟩
  all_goals
    obtain ⟨w, -, ⟨-, rfl⟩ | ⟨o', pw, m', rects, -, -, rfl, hrelaid⟩⟩ := hrerun
  · exact h.rects
  · exact inWindow_foldl_linkRect rects s.invalidatedRects h.rects
  · exact h.rootSurface
  · exact h.rootSurface
  · exact h.pickSurface
  · exact h.pickSurface
  · rfl
  · exact hrelaid.outside q (hout q hq)

/-- The call of a drawing function. -/
theorem Displayed.draw {drawfunc : DrawFunc} (hdraw : KeepsSizes drawfunc)
    (h : Displayed window s) {clipper : Rect} (hrun : drawfunc s p clipper = some s₁) (o : Ptr) :
    Traversed window s s₁ o := by
  obtain ⟨honly, hroot, hpick⟩ := hdraw s p clipper s₁ hrun
  obtain ⟨r, v, hr, hv, hsize⟩ := h.hasWindow
  refine ⟨⟨honly.wellFormed h.wellFormed,
    ⟨r, v, honly.rootWidget_eq.trans hr, (congrFun honly.widgets_eq r).trans hv, hsize⟩, ?_,
    hroot.trans h.rootSurface, hpick.trans h.pickSurface⟩, honly.nodes_eq,
    fun q _ => congrFun honly.widgets_eq q⟩
  rw [honly]
  exact h.rects

end Steps

/-! ### The traversal -/

section Traversal

variable {drawfunc : DrawFunc} {window : Size}

/-- What the recursive calls of the loop on siblings do. -/
def SiblingsTraverse (window : Size)
    (siblings : AppState → Clipper → Option Ptr → Option AppState) :
    Prop :=
  ∀ {s s' : AppState} {c : Clipper} {h : Option Ptr} {o : Ptr}, Displayed window s →
    (∀ p, h = some p → nodeLinks.ChildOf s.nodes p o) → siblings s c h = some s' →
      Traversed window s s' o

/-- The call of `ei_draw_widget_children` on a widget. -/
theorem drawChildrenWith_traversed
    {siblings : AppState → Clipper → Option Ptr → Option AppState}
    (hsiblings : SiblingsTraverse window siblings) {s s' : AppState} {p : Ptr} {c : Clipper}
    (hs : Displayed window s) (h : drawChildrenWith siblings s p c = some s') :
    Traversed window s s' p := by
  simp only [drawChildrenWith, Option.bind_eq_bind, Option.bind_eq_some_iff] at h
  obtain ⟨K, -, h⟩ := h
  split_ifs at h
  · obtain rfl := Option.some.inj h
    exact .refl hs p
  · obtain ⟨w, hw, h⟩ := Option.bind_eq_some_iff.mp h
    exact hsiblings hs (fun q hq => childOf_childrenHead hs.wellFormed
      (AppState.nodes_of_widgets hw) hq) h

/-- The body of the loop. -/
theorem drawMapped_traversed (hdraw : KeepsSizes drawfunc)
    {siblings : AppState → Clipper → Option Ptr → Option AppState}
    (hsiblings : SiblingsTraverse window siblings) {s s' : AppState} {p o : Ptr} {c : Clipper}
    (hs : Displayed window s) (hp : nodeLinks.ChildOf s.nodes p o)
    (h : drawMapped drawfunc siblings s p c = some s') : Traversed window s s' o := by
  simp only [drawMapped, Option.bind_eq_bind, Option.bind_eq_some_iff] at h
  obtain ⟨s₁, hrun, K, -, s₂, hdrawn, K₂, -, w, -, h⟩ := h
  have h₁ := hs.runplacer hp hrun
  have h₂ := h₁.displayed.draw hdraw hdrawn o
  have h₃ := drawChildrenWith_traversed hsiblings h₂.displayed h
  exact (h₁.trans h₂).trans (h₃.of_childOf (by rwa [h₂.nodes, h₁.nodes]))

/-- **The loop on the children of a widget** leaves alone every widget that is not below it, and
keeps the links. -/
theorem drawSiblings_traversed (hdraw : KeepsSizes drawfunc) (fuel : ℕ) :
    SiblingsTraverse window (drawSiblings drawfunc fuel) := by
  induction fuel with
  | zero =>
    intro s s' c h o hs hchild hrun
    cases h with
    | none =>
      obtain rfl := Option.some.inj hrun
      exact .refl hs o
    | some p => simp [drawSiblings] at hrun
  | succ fuel ih =>
    intro s s' c h o hs hchild hrun
    cases h with
    | none =>
      obtain rfl := Option.some.inj hrun
      exact .refl hs o
    | some p =>
      have hp := hchild p rfl
      simp only [drawSiblings, Option.bind_eq_bind, Option.bind_eq_some_iff] at hrun
      obtain ⟨w, hw, s₁, hfirst, w₁, hw₁, hrest⟩ := hrun
      have h₁ : Traversed window s s₁ o := by
        split_ifs at hfirst
        · exact drawMapped_traversed hdraw ih hs hp hfirst
        · obtain rfl := Option.some.inj hfirst
          exact .refl hs o
      refine h₁.trans (ih h₁.displayed (fun q hq => ?_) hrest)
      exact childOf_nextSibling h₁.displayed.wellFormed (by rwa [h₁.nodes])
        (AppState.nodes_of_widgets hw₁) hq

end Traversal

/-! ### The calls -/

/-- In the state `s`, the loop on the siblings from `h` on calls the drawing function on `q` with
the clipper `K`, in the state `s'`. -/
inductive Draws (drawfunc : DrawFunc) : ℕ → AppState → Clipper → Option Ptr → AppState → Ptr →
    Rect → Prop
  | here {fuel : ℕ} {s s₁ : AppState} {c : Clipper} {p : Ptr} {w : Widget} {K : Rect}
      (hp : s.widgets p = some w) (hmapped : w.geomParams.isSome)
      (hrun : runplacer s p = some s₁) (hK : c.read s₁ = some K) :
      Draws drawfunc (fuel + 1) s c (some p) s₁ p K
  | descend {fuel : ℕ} {s s₁ s₂ s' : AppState} {c : Clipper} {p q : Ptr} {w w₂ : Widget}
      {K K₂ L : Rect} (hp : s.widgets p = some w) (hmapped : w.geomParams.isSome)
      (hrun : runplacer s p = some s₁) (hK : c.read s₁ = some K)
      (hdraw : drawfunc s₁ p K = some s₂) (hK₂ : c.read s₂ = some K₂)
      (hp₂ : s₂.widgets p = some w₂)
      (hsize : ¬ ((getEiRectIntersection K₂ w₂.content).size.width < 0 ∨
        (getEiRectIntersection K₂ w₂.content).size.height < 0))
      (h : Draws drawfunc fuel s₂ (.rect (getEiRectIntersection K₂ w₂.content)) w₂.childrenHead
        s' q L) :
      Draws drawfunc (fuel + 1) s c (some p) s' q L
  | next {fuel : ℕ} {s s₁ s' : AppState} {c : Clipper} {p q : Ptr} {w w₁ : Widget} {L : Rect}
      (hp : s.widgets p = some w)
      (hdone : (if w.geomParams.isSome then
        drawMapped drawfunc (drawSiblings drawfunc fuel) s p c else some s) = some s₁)
      (hp₁ : s₁.widgets p = some w₁) (h : Draws drawfunc fuel s₁ c w₁.nextSibling s' q L) :
      Draws drawfunc (fuel + 1) s c (some p) s' q L

/-- The calls of `ei_draw_widget_children` on the widget `o`. -/
def DrawsBelow (drawfunc : DrawFunc) (s : AppState) (o : Ptr) (c : Clipper) (s' : AppState)
    (q : Ptr) (L : Rect) : Prop :=
  ∃ K w, c.read s = some K ∧ ¬ (K.size.width < 0 ∨ K.size.height < 0) ∧ s.widgets o = some w ∧
    Draws drawfunc s.nextWidget s c w.childrenHead s' q L

/-- A clipper argument that lies in the window: the invalidated rectangles do. -/
def Clipper.InWindow (c : Clipper) (window : Size) : Prop :=
  match c with
  | .invalidated _ => True
  | .rect r => r.InWindow window

theorem Clipper.InWindow.read {c : Clipper} {window : Size} (h : c.InWindow window) {s : AppState}
    (hs : Displayed window s) {K : Rect} (hK : c.read s = some K) : K.InWindow window := by
  cases c with
  | invalidated i => exact hs.rects K (List.mem_of_getElem? hK)
  | rect r =>
    obtain rfl := Option.some.inj hK
    exact h

/-- What is known of a call of the drawing function on `q` with the clipper `K`, in a traversal of
what is below `o`: the clipper lies in the window, in the clipper of the traversal when nothing
changes it, and in the content area of every widget between `q` and `o`. -/
structure Confined (window : Size) (s : AppState) (c : Clipper) (o : Ptr) (s' : AppState) (q : Ptr)
    (K : Rect) : Prop where
  traversed : Traversed window s s' o
  below : s.Below q o
  inWindow : K.InWindow window
  clipper : ∀ r, c = .rect r → ∀ x ∈ K, x ∈ r
  contents : ∀ a, s.Below q a → s.Below a o →
    ∃ v, s'.widgets a = some v ∧ ∀ x ∈ K, x ∈ v.content

section Calls

variable {drawfunc : DrawFunc} {window : Size}

/-- **The clippers of the calls.** -/
theorem Draws.confined (hdraw : KeepsSizes drawfunc) {fuel : ℕ} {s s' : AppState} {c : Clipper}
    {h : Option Ptr} {q : Ptr} {L : Rect} (hcall : Draws drawfunc fuel s c h s' q L) : ∀ {o : Ptr},
    Displayed window s → (∀ p, h = some p → nodeLinks.ChildOf s.nodes p o) → c.InWindow window →
      Confined window s c o s' q L := by
  induction hcall with
  | @here fuel s s₁ c p w K hp hmapped hrun hK =>
    intro o hs hchild hc
    have hpo := hchild p rfl
    have h₁ := hs.runplacer hpo hrun
    refine ⟨h₁, .single hpo, hc.read h₁.displayed hK, ?_, fun a hpa hao => ?_⟩
    · rintro r rfl x hx
      obtain rfl := Option.some.inj hK
      exact hx
    · -- No widget lies strictly between a child and its parent.
      rcases (below_iff_of_childOf hpo a).mp hpa with rfl | hoa
      · exact absurd hao (hs.wellFormed.linked.not_below_self _)
      · exact absurd (hao.trans hoa) (hs.wellFormed.linked.not_below_self _)
  | @descend fuel s s₁ s₂ s' c p q w w₂ K K₂ L hp hmapped hrun hK hdrawn hK₂ hp₂ hsize h ih =>
    intro o hs hchild hc
    have hpo := hchild p rfl
    have h₁ := hs.runplacer hpo hrun
    have h₂ := h₁.trans (h₁.displayed.draw hdraw hdrawn o)
    have hK₂in := hc.read h₂.displayed hK₂
    have hinner : (Clipper.rect (getEiRectIntersection K₂ w₂.content)).InWindow window := by
      simp only [Clipper.InWindow, Rect.InWindow, getEiRectIntersection] at hK₂in ⊢
      omega
    have hq := ih h₂.displayed (fun x hx => childOf_childrenHead h₂.displayed.wellFormed
      (AppState.nodes_of_widgets hp₂) hx) hinner
    have hL : ∀ x ∈ L, x ∈ K₂ ∧ x ∈ w₂.content := fun x hx =>
      mem_getEiRectIntersection.mp (hq.clipper _ rfl x hx)
    have hqp : s.Below q p := h₂.below_iff.mp hq.below
    refine ⟨h₂.trans (hq.traversed.of_childOf (by rwa [h₂.nodes])), hqp.tail hpo, hq.inWindow, ?_,
      fun a hqa hao => ?_⟩
    · rintro r rfl x hx
      obtain rfl := Option.some.inj hK₂
      exact (hL x hx).1
    · by_cases hap : s.Below a p
      · exact hq.contents a (h₂.below_iff.mpr hqa) (h₂.below_iff.mpr hap)
      · -- The widget itself: nothing below it changes it.
        obtain rfl : a = p := by
          rcases below_total hqa hqp with h | h | h
          · exact h
          · exact absurd h hap
          · rcases (below_iff_of_childOf hpo a).mp h with rfl | hoa
            · exact absurd hao (hs.wellFormed.linked.not_below_self _)
            · exact absurd (hao.trans hoa) (hs.wellFormed.linked.not_below_self _)
        exact ⟨w₂, (hq.traversed.outside a (h₂.displayed.wellFormed.linked.not_below_self a)).trans
          hp₂, fun x hx => (hL x hx).2⟩
  | @next fuel s s₁ s' c p q w w₁ L hp hdone hp₁ h ih =>
    intro o hs hchild hc
    have hpo := hchild p rfl
    have h₁ : Traversed window s s₁ o := by
      split_ifs at hdone
      · exact drawMapped_traversed hdraw (drawSiblings_traversed hdraw fuel) hs hpo hdone
      · obtain rfl := Option.some.inj hdone
        exact .refl hs o
    have hq := ih h₁.displayed (fun x hx => childOf_nextSibling h₁.displayed.wellFormed
      (by rwa [h₁.nodes]) (AppState.nodes_of_widgets hp₁) hx) hc
    refine ⟨h₁.trans hq.traversed, h₁.below_iff.mp hq.below, hq.inWindow, hq.clipper,
      fun a hqa hao => hq.contents a (h₁.below_iff.mpr hqa) (h₁.below_iff.mpr hao)⟩

end Calls

end GuiLibrary

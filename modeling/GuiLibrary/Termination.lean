import GuiLibrary.Arrivals

/-!
# When the loop over the invalidated rectangles ends

A widget that the edges of the window cut is moved, and invalidated, by every pass that comes to it:
the list grows while it is being walked, unless the new rectangles are merged into its last one.

The loop ends when the rectangles that are invalidated again and again merge with one another, or
when the last rectangle of the list takes in all that follows. Only widgets that a pass can come to
count: a list without rectangles, or with rectangles of negative size only, comes to none. Two cut
frames in opposite corners of the window are enough to keep the loop running.

## Main definitions

* `Clips`: the clippers of the loop on siblings.
* `Absorbs`, `Completes`, `Terminates`.

## Main results

* `pass_advances`: what a pass can do.
* `redrawLoop_terminates`.
* `merging_of_not_isCut`, `merging_of_negative`, `absorbs_whole`: when its condition holds.
* `drawfuncOf_completes`: the drawing functions of the library.
-/

namespace GuiLibrary

open Cells

/-! ### The passes -/

/-- The drawing function completes on every widget, in the states of a redraw. -/
def Completes (drawfunc : DrawFunc) (window : Size) (s : AppState) : Prop :=
  ∀ s₁ p clipper, Drifted window s s₁ → s₁.Live p → (drawfunc s₁ p clipper).isSome

section Passes

variable {drawfunc : DrawFunc} {window : Size} {s s₁ s₂ : AppState}

/-- A rectangle of the list stays where it is, and does not become negative. -/
theorem exists_entry_linkRect (rect : Rect) : (l : List Rect) → {i : ℕ} → {r : Rect} →
    l[i]? = some r → ∃ r', (linkRect l rect)[i]? = some r' ∧ (¬ r.Negative → ¬ r'.Negative)
  | [], _, _, h => by simp at h
  | [last], 0, r, h => by
      obtain rfl : last = r := by simpa using h
      rw [linkRect]
      split_ifs
      · refine ⟨_, rfl, fun hlast hmerged => hlast ?_⟩
        simp only [Rect.Negative, mergeLast] at hmerged ⊢
        omega
      · exact ⟨last, rfl, id⟩
  | [_], i + 1, _, h => by simp at h
  | current :: next :: rects, 0, r, h => by
      obtain rfl : current = r := by simpa using h
      exact ⟨current, rfl, id⟩
  | current :: next :: rects, i + 1, r, h => by
      rw [List.getElem?_cons_succ] at h
      rw [linkRect, List.getElem?_cons_succ]
      exact exists_entry_linkRect rect (next :: rects) h

theorem exists_entry_foldl_linkRect (rects : List Rect) : ∀ {l : List Rect} {i : ℕ} {r : Rect},
    l[i]? = some r →
      ∃ r', (rects.foldl linkRect l)[i]? = some r' ∧ (¬ r.Negative → ¬ r'.Negative) := by
  induction rects with
  | nil => exact fun h => ⟨_, h, id⟩
  | cons rect rects ih =>
    intro l i r h
    obtain ⟨r₁, h₁, hpos₁⟩ := exists_entry_linkRect rect l h
    obtain ⟨r', h', hpos'⟩ := ih h₁
    exact ⟨r', h', hpos' ∘ hpos₁⟩

/-- The clipper of the loop over the children of `o`, with this content area: one that the loop can
come with, or at the root a rectangle of the list that is not negative. -/
inductive Clips (window : Size) (s s₁ : AppState) (o : Ptr) (K : Rect) : Clipper → Prop
  | rect {r : Rect} (h : CanCome window s (.loop o K r)) : Clips window s s₁ o K (.rect r)
  | entry {i : ℕ} {r : Rect} {w : Widget} (hi : s₁.invalidatedRects[i]? = some r)
      (hr : ¬ r.Negative) (hroot : s.rootWidget = some o) (ho : s.widgets o = some w)
      (hK : w.content = K) : Clips window s s₁ o K (.invalidated i)

section Clips

variable {o : Ptr} {K : Rect} {c : Clipper}

/-- The loop comes with what the clipper reads as. -/
theorem Clips.loop (h : Clips window s s₁ o K c) (hd : Drifted window s s₁) :
    ∃ r, c.read s₁ = some r ∧ CanCome window s (.loop o K r) := by
  cases h with
  | rect h => exact ⟨_, rfl, h⟩
  | entry hi hr hroot ho hK =>
    exact ⟨_, hi, hK ▸ .root hroot ho (hd.listed _ (List.mem_of_getElem? hi)) hr⟩

theorem Clips.advance (h : Clips window s s₁ o K c) (hadv : Advances window s s₁ s₂) :
    Clips window s s₂ o K c := by
  cases h with
  | rect h => exact .rect h
  | entry hi hr hroot ho hK =>
    obtain ⟨rects, -, heq⟩ := hadv.requested
    obtain ⟨r', hi', hpos⟩ := exists_entry_foldl_linkRect rects hi
    exact .entry (heq ▸ hi') (hpos hr) hroot ho hK

end Clips

/-- **The loop on siblings advances**, when the bound on its depth reaches the number of widgets of
the forest. -/
theorem drawSiblings_advances (hs : WellFormed s) (hdraw : DrawsOnly drawfunc)
    (hcomplete : Completes drawfunc window s) (f : Forest Ptr) :
    ∀ (fuel : ℕ) {s₁ : AppState} {o : Ptr} {head : Option Ptr} {pw : Widget} {c : Clipper},
      Drifted window s s₁ → s₁.widgets o = some pw → Clips window s s₁ o pw.content c →
      Represents nodeLinks s.nodes o head f → f.nodes.length ≤ fuel →
      ∃ s₂, drawSiblings drawfunc fuel s₁ c head = some s₂ ∧ Advances window s s₁ s₂ ∧
        ∀ x, x ∉ f.nodes → s₂.widgets x = s₁.widgets x := by
  induction f with
  | nil =>
    rintro fuel s₁ o _ pw c h - - rfl -
    refine ⟨s₁, ?_, .refl h, fun _ _ => rfl⟩
    cases fuel <;> rfl
  | cons q kids rest ihk ihr =>
    rintro fuel s₁ o head pw c h hpo hclips hf hfuel
    obtain ⟨rfl, n, hn, ho, hkids, hrest⟩ := hf
    have ho : n.parent = some o := ho
    have hqo : nodeLinks.ChildOf s.nodes q o := ⟨n, hn, ho⟩
    obtain ⟨w₁, hq, hnode⟩ := AppState.nodes_eq_some.mp ((congrFun h.nodes q).trans hn)
    subst hnode
    rw [Forest.nodes_cons, List.length_cons, List.length_append] at hfuel
    obtain ⟨k, rfl⟩ : ∃ k, fuel = k + 1 := ⟨fuel - 1, by omega⟩
    have hmem : ∀ x, x ∈ q :: kids.nodes ↔ s.InSubtree x q := fun x => by
      rw [List.mem_cons, hkids.mem_nodes_iff hs.linked hn]
      exact Iff.rfl
    -- The first widget.
    have hfirst : ∃ s₂ w₂, (if w₁.geomParams.isSome then
          drawMapped drawfunc (drawSiblings drawfunc k) s₁ q c else some s₁) = some s₂ ∧
        Advances window s s₁ s₂ ∧ (∀ x, x ∉ q :: kids.nodes → s₂.widgets x = s₁.widgets x) ∧
        s₂.widgets q = some w₂ ∧ w₂.node = w₁.node := by
      by_cases hg : w₁.geomParams.isSome
      · obtain ⟨K, -, hloop⟩ := hclips.loop h
        obtain ⟨s₂, w₂, hrun, hadv, hout, hw₂, hrests⟩ :=
          runplacer_advances hs h hq hg ho hpo (Or.inl ⟨K, hloop⟩)
        obtain ⟨K₂, hread₂, -⟩ := (hclips.advance hadv).loop hadv.drifted
        obtain ⟨s₃, h₃⟩ := Option.isSome_iff_exists.mp (hcomplete s₂ q K₂ hadv.drifted
          (AppState.live_iff.mpr ⟨w₂, hw₂⟩))
        have honly := hdraw _ _ _ _ h₃
        have hadv₃ : Advances window s s₁ s₃ := hadv.trans (.of_onlySurfaces hadv.drifted honly)
        have hw₃ : s₃.widgets q = some w₂ := by rw [honly.widgets_eq, hw₂]
        have hnode₂ : w₂.node = w₁.node := by
          have hnodes := congrFun hadv.drifted.nodes q
          rw [AppState.nodes_of_widgets hw₂, hn, Option.some.injEq] at hnodes
          exact hnodes
        have hhead : nodeLinks.kid w₁.node = w₂.childrenHead :=
          congrArg Node.childrenHead hnode₂.symm
        have hparent₂ : w₂.parent = some o := (congrArg Node.parent hnode₂).trans ho
        obtain ⟨K₃, hread₃, hloop₃⟩ := (hclips.advance hadv₃).loop hadv₃.drifted
        rw [if_pos hg, drawMapped, hrun]
        simp only [Option.bind_eq_bind, Option.bind_some]
        rw [hread₂, Option.bind_some, h₃, Option.bind_some, hread₃, Option.bind_some, hw₃,
          Option.bind_some, drawChildrenWith_rect hw₃]
        split_ifs with hpart
        · refine ⟨s₃, w₂, rfl, hadv₃, fun x hx => ?_, hw₃, hnode₂⟩
          rw [honly.widgets_eq, hout x fun hsub => hx ((hmem x).mpr hsub)]
        · obtain ⟨s₄, h₄, hadv₄, hout₄⟩ := ihk k hadv₃.drifted hw₃
            (.rect (hrests.loop hparent₂ hloop₃ hpart)) (hhead ▸ hkids) (by omega)
          refine ⟨s₄, w₂, h₄, hadv₃.trans hadv₄, fun x hx => ?_, ?_, hnode₂⟩
          · rw [hout₄ x fun hxk => hx (List.mem_cons_of_mem q hxk), honly.widgets_eq,
              hout x fun hsub => hx ((hmem x).mpr hsub)]
          · rw [hout₄ q fun hqk => hs.linked.not_below_self q (hkids.below q hqk), hw₃]
      · exact ⟨s₁, w₁, if_neg hg, .refl h, fun _ _ => rfl, hq, rfl⟩
    obtain ⟨s₂, w₂, h₂, hadv₂, hout₂, hw₂, hnode₂⟩ := hfirst
    have hnext : nodeLinks.sib w₁.node = w₂.nextSibling := congrArg Node.nextSibling hnode₂.symm
    have hoq : o ∉ q :: kids.nodes := fun hmo => hs.not_inSubtree_parent hqo ((hmem o).mp hmo)
    obtain ⟨s₃, h₃, hadv₃, hout₃⟩ := ihr k hadv₂.drifted ((hout₂ o hoq).trans hpo)
      (hclips.advance hadv₂) (hnext ▸ hrest) (by omega)
    refine ⟨s₃, ?_, hadv₂.trans hadv₃, fun x hx => ?_⟩
    · simp only [drawSiblings, hq, Option.bind_eq_bind, Option.bind_some, h₂, hw₂, h₃]
    · simp only [Forest.nodes_cons, List.mem_cons, List.mem_append, not_or] at hx
      rw [hout₃ x hx.2.2, hout₂ x (by simp [hx.1, hx.2.1])]

/-- **A pass advances.** -/
theorem pass_advances (hs : WellFormed s) (hdraw : DrawsOnly drawfunc)
    (hcomplete : Completes drawfunc window s) (h : Drifted window s s₁) {i : ℕ} {rect : Rect}
    (hi : s₁.invalidatedRects[i]? = some rect) :
    ∃ root s₂ s₃, s₁.rootWidget = some root ∧ drawfunc s₁ root rect = some s₂ ∧
      eiDrawWidgetChildren drawfunc s₂ root (.invalidated i) = some s₃ ∧
      Advances window s s₁ s₃ := by
  obtain ⟨root, r, hroot, hr, -⟩ := h.hasWindow
  have hroot₀ : s.rootWidget = some root := h.rootWidget ▸ hroot
  -- The placer never comes to the root.
  have hr₀ : s.widgets root = some r := by
    rcases h.widgets root with heq | ⟨w, K, location, hmoved, -⟩
    · rw [← heq, hr]
    · obtain ⟨hw, -, o, ho⟩ := hmoved.away.1.widget
      exact absurd hroot₀ (hs.rootWidget_ne hw ho)
  obtain ⟨s₂, h₂⟩ := Option.isSome_iff_exists.mp
    (hcomplete s₁ root rect h (AppState.live_iff.mpr ⟨r, hr⟩))
  have honly := hdraw _ _ _ _ h₂
  have hadv₂ : Advances window s s₁ s₂ := .of_onlySurfaces h honly
  have hr₂ : s₂.widgets root = some r := by rw [honly.widgets_eq, hr]
  have hi₂ : s₂.invalidatedRects[i]? = some rect := by rw [honly, ← hi]
  have hread : Clipper.read s₂ (.invalidated i) = some rect := hi₂
  obtain ⟨f, hf⟩ := hs.exists_forest hr₀
  refine ⟨root, s₂, ?_⟩
  rw [eiDrawWidgetChildren, drawChildrenWith, hread]
  simp only [Option.bind_eq_bind, Option.bind_some]
  split_ifs with hpart
  · exact ⟨s₂, hroot, h₂, rfl, hadv₂⟩
  · obtain ⟨s₃, h₃, hadv₃, -⟩ := drawSiblings_advances hs hdraw hcomplete f s₂.nextWidget
      hadv₂.drifted hr₂ (.entry hi₂ hpart hroot₀ hr₀ rfl) hf
      (hadv₂.drifted.nextWidget ▸ hs.length_nodes_le hf)
    exact ⟨s₃, hroot, h₂, by rw [hr₂, Option.bind_some, h₃], hadv₂.trans hadv₃⟩

end Passes

/-! ### Merging -/

/-- The last rectangle of the list takes in every rectangle of this kind. -/
def Absorbs (P : Rect → Prop) (rects : List Rect) : Prop :=
  ∃ last, rects.getLast? = some last ∧ ∀ rect, P rect → nearLast last rect

section Merging

variable {P : Rect → Prop}

/-- What is near a rectangle is near every rectangle that this one is merged into. -/
theorem nearLast_mergeLast {last rect : Rect} (h : nearLast last rect) (new : Rect) :
    nearLast (mergeLast last new) rect := by
  obtain ⟨hx, hy⟩ := h
  constructor
  · refine lt_of_le_of_lt ?_ (hx.trans_le (Int.tdiv_le_tdiv (by decide) (max_le_max ?_ le_rfl)))
    · exact Int.sub_le_sub_right (min_le_left _ _) _
    · simp only [mergeLast]
      omega
  · refine lt_of_le_of_lt ?_ (hy.trans_le (Int.tdiv_le_tdiv (by decide) (max_le_max ?_ le_rfl)))
    · exact Int.sub_le_sub_right (min_le_left _ _) _
    · simp only [mergeLast]
      omega

theorem absorbs_cons {a : Rect} {l : List Rect} (hl : l ≠ []) :
    Absorbs P (a :: l) ↔ Absorbs P l := by
  rw [Absorbs, Absorbs, List.getLast?_cons, List.getLast?_eq_some_getLast hl, Option.getD_some]

theorem linkRect_ne_nil (rect : Rect) (l : List Rect) : linkRect l rect ≠ [] := by
  have hlen := length_le_linkRect rect l
  cases l with
  | nil => exact List.cons_ne_nil _ _
  | cons a l =>
    intro h
    simp [h] at hlen

/-- A list that absorbs does not grow, and goes on absorbing. -/
theorem Absorbs.linkRect_of_mem {rect : Rect} (hrect : P rect) : (l : List Rect) → Absorbs P l →
    (linkRect l rect).length = l.length ∧ Absorbs P (linkRect l rect)
  | [], h => by
      obtain ⟨last, hlast, -⟩ := h
      simp at hlast
  | [last], h => by
      obtain ⟨last', hlast, hnear⟩ := h
      obtain rfl : last = last' := Option.some.inj hlast
      rw [linkRect, if_pos (hnear rect hrect)]
      exact ⟨rfl, _, rfl, fun r hr => nearLast_mergeLast (hnear r hr) rect⟩
  | current :: next :: rects, h => by
      rw [absorbs_cons (List.cons_ne_nil next rects)] at h
      obtain ⟨hlen, habs⟩ := h.linkRect_of_mem hrect (next :: rects)
      rw [linkRect, absorbs_cons (linkRect_ne_nil rect _)]
      exact ⟨congrArg (· + 1) hlen, habs⟩

theorem Absorbs.foldl_linkRect (rects : List Rect) : ∀ l : List Rect,
    (∀ rect ∈ rects, P rect) → Absorbs P l →
      (rects.foldl linkRect l).length = l.length ∧ Absorbs P (rects.foldl linkRect l) := by
  induction rects with
  | nil => exact fun l _ h => ⟨rfl, h⟩
  | cons rect rects ih =>
    intro l hP h
    obtain ⟨hlen, habs⟩ := h.linkRect_of_mem (hP rect List.mem_cons_self) l
    obtain ⟨hlen', habs'⟩ := ih _ (fun r hr => hP r (List.mem_cons_of_mem rect hr)) habs
    exact ⟨hlen'.trans hlen, habs'⟩

section Near

variable (hnear : ∀ last rect, P last → P rect → nearLast last rect)

include hnear

/-- A list that gets rectangles that are near one another absorbs them, unless it stays as long. -/
theorem length_linkRect_or_absorbs {rect : Rect} (hrect : P rect) : (l : List Rect) →
    (linkRect l rect).length = l.length ∨ Absorbs P (linkRect l rect)
  | [] => Or.inr ⟨rect, rfl, fun r hr => hnear rect r hrect hr⟩
  | [last] => by
      rw [linkRect]
      split_ifs with hlast
      · exact Or.inl rfl
      · exact Or.inr ⟨rect, rfl, fun r hr => hnear rect r hrect hr⟩
  | current :: next :: rects => by
      rw [linkRect, absorbs_cons (linkRect_ne_nil rect _)]
      exact (length_linkRect_or_absorbs hrect (next :: rects)).imp_left (congrArg (· + 1))

theorem length_foldl_or_absorbs (rects : List Rect) : ∀ l : List Rect, (∀ rect ∈ rects, P rect) →
    (rects.foldl linkRect l).length = l.length ∨ Absorbs P (rects.foldl linkRect l) := by
  induction rects with
  | nil => exact fun l _ => Or.inl rfl
  | cons rect rects ih =>
    intro l hP
    have hrects := fun r hr => hP r (List.mem_cons_of_mem rect hr)
    rcases length_linkRect_or_absorbs hnear (hP rect List.mem_cons_self) l with hlen | habs
    · exact (ih _ hrects).imp_left (·.trans hlen)
    · exact Or.inr (habs.foldl_linkRect rects _ hrects).2

end Near

end Merging

/-! ### The loop -/

/-- The loop over the invalidated rectangles ends, from the one at index `i`: some number of passes
is enough. -/
def Terminates (drawfunc : DrawFunc) (s : AppState) (i : ℕ) : Prop :=
  ∃ fuel s', redrawLoop drawfunc fuel s i = some s'

section Loop

variable {drawfunc : DrawFunc} {window : Size} {s s₁ : AppState} {i : ℕ}

/-- The loop at the end of the list. -/
theorem Terminates.of_le (hi : s₁.invalidatedRects.length ≤ i) : Terminates drawfunc s₁ i :=
  ⟨1, s₁, by rw [redrawLoop, List.getElem?_eq_none hi]⟩

/-- A pass, and the rest of the loop. -/
theorem Terminates.of_pass {root : Ptr} {rect : Rect} {s₂ s₃ : AppState}
    (hi : s₁.invalidatedRects[i]? = some rect) (hroot : s₁.rootWidget = some root)
    (h₂ : drawfunc s₁ root rect = some s₂)
    (h₃ : eiDrawWidgetChildren drawfunc s₂ root (.invalidated i) = some s₃)
    (h : Terminates drawfunc s₃ (i + 1)) : Terminates drawfunc s₁ i := by
  obtain ⟨fuel, s', h⟩ := h
  refine ⟨fuel + 1, s', ?_⟩
  simp only [redrawLoop, hi, hroot, Option.bind_eq_bind, Option.bind_some, h₂, h₃, h]

variable (hs : WellFormed s) (hdraw : DrawsOnly drawfunc) (hcomplete : Completes drawfunc window s)

include hs hdraw hcomplete

/-- The loop ends, or there is one more pass that advances. -/
theorem terminates_or_pass (h : Drifted window s s₁) : Terminates drawfunc s₁ i ∨
    ∃ s₂, i < s₁.invalidatedRects.length ∧ Advances window s s₁ s₂ ∧
      (Terminates drawfunc s₂ (i + 1) → Terminates drawfunc s₁ i) := by
  by_cases hend : s₁.invalidatedRects.length ≤ i
  · exact Or.inl (.of_le hend)
  · have hi := Nat.lt_of_not_le hend
    have hrect := List.getElem?_eq_getElem hi
    obtain ⟨root, s₂, s₃, hroot, h₂, h₃, hadv⟩ := pass_advances hs hdraw hcomplete h hrect
    exact Or.inr ⟨s₃, hi, hadv, .of_pass hrect hroot h₂ h₃⟩

section Kind

variable {P : Rect → Prop} {I : AppState → Prop}
  (hpass : ∀ {s₁ s₂}, I s₁ → Advances window s s₁ s₂ → (∀ j, Terminates drawfunc s₂ j) ∨
    I s₂ ∧ ∃ rects : List Rect, (∀ rect ∈ rects, P rect) ∧
      s₂.invalidatedRects = rects.foldl linkRect s₁.invalidatedRects)

include hpass

/-- The loop on `k` more rectangles, when the passes invalidate rectangles of one kind and the list
absorbs them: it grows no more. -/
theorem terminates_of_absorbs (k : ℕ) : ∀ {s₁ : AppState} {i : ℕ}, Drifted window s s₁ → I s₁ →
    Absorbs P s₁.invalidatedRects → s₁.invalidatedRects.length ≤ i + k →
      Terminates drawfunc s₁ i := by
  induction k with
  | zero => exact fun _ _ _ hi => .of_le hi
  | succ k ih =>
    intro s₁ i h hI habs hi
    rcases terminates_or_pass hs hdraw hcomplete h with hend | ⟨s₂, -, hadv, hrest⟩
    · exact hend
    rcases hpass hI hadv with hall | ⟨hI₂, rects, hrects, heq⟩
    · exact hrest (hall _)
    · obtain ⟨hlen, habs₂⟩ := habs.foldl_linkRect rects _ hrects
      rw [← heq] at hlen habs₂
      exact hrest (ih hadv.drifted hI₂ habs₂ (by omega))

/-- The loop on `k` more rectangles, when the rectangles of that kind are near one another: once the
list has grown, it absorbs them. -/
theorem terminates_of_near (hnear : ∀ last rect, P last → P rect → nearLast last rect) (k : ℕ) :
    ∀ {s₁ : AppState} {i : ℕ}, Drifted window s s₁ → I s₁ →
      s₁.invalidatedRects.length ≤ i + k → Terminates drawfunc s₁ i := by
  induction k with
  | zero => exact fun _ _ hi => .of_le hi
  | succ k ih =>
    intro s₁ i h hI hi
    rcases terminates_or_pass hs hdraw hcomplete h with hend | ⟨s₂, -, hadv, hrest⟩
    · exact hend
    rcases hpass hI hadv with hall | ⟨hI₂, rects, hrects, heq⟩
    · exact hrest (hall _)
    · refine hrest ?_
      rcases length_foldl_or_absorbs hnear rects _ hrects with hlen | habs
      · rw [← heq] at hlen
        exact ih hadv.drifted hI₂ (by omega)
      · rw [← heq] at habs
        exact terminates_of_absorbs hs hdraw hcomplete hpass _ hadv.drifted hI₂ habs
          (Nat.le_add_left _ _)

end Kind

/-- The loop ends, whatever the list, when the rectangles that are invalidated again and again are
merged with one another: each time that a widget moves for the first time fewer are pending. -/
theorem terminates_of_merging (hmerging : Merging window s) (n : ℕ) :
    ∀ {s₁ : AppState} {i : ℕ}, Drifted window s s₁ →
      weight s.nextWidget (Pending window s s₁) = n → Terminates drawfunc s₁ i := by
  induction n using Nat.strong_induction_on with
  | h n ih =>
    intro s₁ i h hn
    refine terminates_of_near hs hdraw hcomplete
      (I := fun s₁ => weight s.nextWidget (Pending window s s₁) ≤ n) ?_ hmerging _ h hn.le
      (Nat.le_add_left _ _)
    intro s₁ s₂ hle hadv
    rcases hadv.progress with hlt | ⟨hle₂, hrects⟩
    · exact Or.inl fun j => ih _ (hlt.trans_le hle) hadv.drifted rfl
    · exact Or.inr ⟨hle₂.trans hle, hrects⟩

end Loop

/-! ### When it does -/

section Conditions

variable {window : Size} {s : AppState}

/-- When the window cuts no widget that a pass can move, nothing is invalidated again and again. -/
theorem merging_of_not_isCut (h : ∀ p, ¬ IsCut window s p) : Merging window s := by
  rintro last rect ⟨p, w, K, K', location, ⟨a, hcut, -⟩, -⟩
  exact absurd hcut (h a)

/-- From rectangles of negative size, or from none, a redraw comes to no widget. -/
theorem CanCome.of_negative (h : ∀ rect ∈ s.invalidatedRects, rect.Negative) {arrival : Arrival}
    (hcomes : CanCome window s arrival) :
    ∃ rect ∈ s.invalidatedRects, arrival = .listed rect := by
  induction hcomes with
  | initial hmem => exact ⟨_, hmem, rfl⟩
  | root hroot hp _ hrect ih =>
    obtain ⟨rect, hmem, heq⟩ := ih
    obtain rfl := Arrival.listed.inj heq
    exact absurd (h _ hmem) hrect
  | request _ _ ih | merge _ _ _ _ _ ih | stay _ _ _ _ _ _ ih | settled _ _ _ _ _ ih
  | visit _ _ _ _ ih | follow _ _ _ _ ih | first _ _ ih | again _ _ _ ih =>
    obtain ⟨rect, -, heq⟩ := ih
    simp at heq

theorem merging_of_negative (h : ∀ rect ∈ s.invalidatedRects, rect.Negative) :
    Merging window s := by
  refine merging_of_not_isCut fun p => ?_
  rintro ⟨w, K, location, hmoved, -⟩
  obtain ⟨rect, -, heq⟩ := hmoved.of_negative h
  simp at heq

/-- The whole window takes in every rectangle that the placer invalidates. -/
theorem absorbs_whole (hw : 1 < window.width) (hh : 1 < window.height) {rects : List Rect}
    (hlast : rects.getLast? = some (Rect.ofSize window)) :
    Absorbs (Requested window s) rects := by
  have hhalf : ∀ {n k : ℤ}, 1 < n → 0 < (max n k).tdiv 2 := fun {n k} hn =>
    lt_of_lt_of_le (by decide) (Int.tdiv_le_tdiv (by decide) ((show 2 ≤ n from hn).trans
      (le_max_left n k)))
  have hnear : ∀ rect, nearLast (Rect.ofSize window) (normalizeRect rect window) := fun rect =>
    ⟨lt_of_le_of_lt (by simp [Rect.ofSize, normalizeRect]) (hhalf hw),
      lt_of_le_of_lt (by simp [Rect.ofSize, normalizeRect]) (hhalf hh)⟩
  refine ⟨_, hlast, ?_⟩
  rintro rect ⟨p, w, K, location, -, rfl | rfl⟩
  · exact hnear _
  · exact hnear _

end Conditions

/-! ### The drawing functions of the library -/

/-- The placer keeps the attributes of a button. -/
theorem attrs_settled_button {window : Size} {w : Widget} {b : ButtonAttrs} {rect : Rect}
    (h : (w.settled window rect).attrs = .button b) : w.attrs = .button b := by
  obtain ⟨_, _, _, _, _, _, _, _, _, _, contentRect, attrs⟩ := w
  cases attrs with
  | frame a =>
    by_cases hb : a.borderWidth = 0 <;>
      simp [Widget.settled, Widget.moved, Widget.notified, Widget.setScreenLocation,
        Widget.writeDamage, hb] at h
  | button a =>
    by_cases hb : a.borderWidth = 0 <;>
      simpa [Widget.settled, Widget.moved, Widget.notified, Widget.setScreenLocation,
        Widget.writeDamage, Widget.setContent, hb] using h
  | toplevel a =>
    simp [Widget.settled, Widget.moved, Widget.notified, Widget.setScreenLocation,
      Widget.writeDamage] at h

section Classes

variable [Hardware] [Raster] [TextRendering] {window : Size} {s : AppState}

/-- **The drawing functions of the library complete** in every state of a redraw, when every button
with `no_clipping` has a grandparent. -/
theorem drawfuncOf_completes (hs : WellFormed s) (hflags : HasGrandparents s) :
    Completes drawfuncOf window s := by
  intro s₁ p clipper h hlive
  have hflags₁ : HasGrandparents s₁ := by
    intro q w₁ b hq ha hno
    obtain ⟨w, hw, hb, hpar⟩ : ∃ w, s.widgets q = some w ∧ w.attrs = .button b ∧
        w₁.parent = w.parent := by
      rcases h.widgets q with heq | ⟨w, K, location, hmoved, heq⟩
      · exact ⟨w₁, heq.symm.trans hq, ha, rfl⟩
      · obtain rfl := Option.some.inj (heq.symm.trans hq)
        exact ⟨w, hmoved.away.1.widget.1, attrs_settled_button ha,
          congrArg Node.parent (w.node_settled window _)⟩
    obtain ⟨o, ow, g, ho, how, hg⟩ := hflags q w b hw hb hno
    obtain ⟨ow₁, how₁, hnode⟩ := AppState.nodes_eq_some.mp
      ((congrFun h.nodes o).trans (AppState.nodes_of_widgets how))
    exact ⟨o, ow₁, g, hpar.trans ho, how₁, (congrArg Node.parent hnode).trans hg⟩
  obtain ⟨w, hw⟩ := AppState.live_iff.mp hlive
  obtain ⟨d, hd⟩ := Option.isSome_iff_exists.mp
    (isSome_drawing (h.wellFormed hs) hflags₁ hw clipper)
  simp [drawfuncOf, hw, hd]

end Classes

/-! ### Frames that are cut again -/

section Recut

variable {drawfunc : DrawFunc} {window : Size} {s s₁ s₂ : AppState} {p : Ptr} {w : Widget}
  {K : Rect}

/-- A widget without children, which the placer moves to be cut again as it is. -/
structure Recut (window : Size) (w : Widget) (K : Rect) : Prop where
  childless : w.childrenHead = none
  away : w.target K ≠ w.screenLocation
  again : w.settled window (w.target K) = w

/-- The rectangles of a widget that is cut again, as the list gets them. -/
def recutRects (window : Size) (w : Widget) (K : Rect) : List Rect :=
  [normalizeRect (extendRect w.screenLocation) window,
    normalizeRect (w.moved (w.target K)).damage window]

/-- The placer invalidates the two rectangles, and changes no widget. -/
theorem runplacer_recut (hs : WellFormed s) (hwin : s.HasWindow window) {o : Ptr} {pw : Widget}
    (hp : s.widgets p = some w) (ho : w.parent = some o) (hpo : s.widgets o = some pw)
    (h : Recut window w pw.content) :
    runplacer s p = some { s with
      invalidatedRects := (recutRects window w pw.content).foldl linkRect s.invalidatedRects } := by
  obtain ⟨m', hrun, hset, hout⟩ := runplacer_settles hs hwin hp ho hpo (f := .nil) h.childless
  have hm : m' = s.widgets := by
    funext q
    by_cases hq : q = p
    · subst hq
      cases hset with
      | stay hw _ hp' _ _ => exact hp'.trans hw.symm
      | move hw _ hp' _ _ =>
        obtain rfl := Option.some.inj (hp.symm.trans hw)
        rw [hp', h.again, hp]
    · exact hout q (by simpa using hq)
  rw [hrun, hm]
  simp only [AppState.relayout, requests, hp, if_neg h.away, recutRects, List.append_nil,
    List.nil_append, List.cons_append, List.foldl_cons, List.foldl_nil]

/-- The loop on siblings, on such a widget. -/
theorem drawSiblings_recut (hdraw : DrawsOnly drawfunc) (hp : s.widgets p = some w)
    (hg : w.geomParams.isSome) (hchildless : w.childrenHead = none)
    (hrun : runplacer s p = some s₁) (hp₁ : s₁.widgets p = some w) {fuel : ℕ} {c : Clipper}
    (h : drawSiblings drawfunc (fuel + 1) s c (some p) = some s₂) :
    ∃ s₃, OnlySurfaces s₁ s₃ ∧ drawSiblings drawfunc fuel s₃ c w.nextSibling = some s₂ := by
  simp only [drawSiblings, hp, hg, if_true, drawMapped, hrun, Option.bind_eq_bind,
    Option.bind_some, Option.bind_eq_some_iff] at h
  obtain ⟨s₃, ⟨K, -, s₄, hd, K', -, w₄, hw₄, hkids⟩, w₃, hw₃, h⟩ := h
  have honly := hdraw _ _ _ _ hd
  have hp₄ : s₄.widgets p = some w := by rw [honly.widgets_eq, hp₁]
  have hstop : s₃ = s₄ := by
    rw [drawChildrenWith_rect hp₄, hchildless] at hkids
    split_ifs at hkids
    · exact (Option.some.inj hkids).symm
    · cases fuel <;> exact (Option.some.inj hkids).symm
  subst hstop
  rw [hp₄, Option.some.injEq] at hw₃
  exact ⟨s₃, honly, hw₃ ▸ h⟩

end Recut

/-! ### Two frames in opposite corners -/

theorem linkRect_append (rect : Rect) {l : List Rect} (hl : l ≠ []) :
    (rects : List Rect) → linkRect (rects ++ l) rect = rects ++ linkRect l rect
  | [] => rfl
  | a :: rects => by
      obtain ⟨b, l', hcons⟩ := List.exists_cons_of_ne_nil
        (fun h => hl (List.append_eq_nil_iff.mp h).2 : rects ++ l ≠ [])
      rw [List.cons_append, List.cons_append, ← linkRect_append rect hl rects, hcons, linkRect]

theorem foldl_linkRect_append (new : List Rect) : ∀ {l : List Rect} (rects : List Rect), l ≠ [] →
    new.foldl linkRect (rects ++ l) = rects ++ new.foldl linkRect l := by
  induction new with
  | nil => exact fun _ _ => rfl
  | cons rect new ih =>
    intro l rects hl
    rw [List.foldl_cons, List.foldl_cons, linkRect_append rect hl,
      ih rects (linkRect_ne_nil rect l)]

/-- A frame of the root without border and without children, which the edges of the window cut. -/
structure CutFrame (s : AppState) (p : Ptr) (w : Widget) (next : Option Ptr)
    (target location : Rect) : Prop where
  widget : s.widgets p = some w
  frame : ∃ a, w.attrs = .frame a ∧ a.borderWidth = 0
  parent : w.parent = some 0
  mapped : w.geomParams.isSome
  childless : w.childrenHead = none
  nextSibling : w.nextSibling = next
  target : w.target (Rect.ofSize ⟨640, 480⟩) = target
  screenLocation : w.screenLocation = location

/-- Whether the widget is such a frame, as a computation. -/
def isCutFrame (s : AppState) (p : Ptr) (next : Option Ptr) (target location : Rect) :
    Option Bool := do
  let w ← s.widgets p
  match w.attrs with
  | .frame a =>
      some (decide (a.borderWidth = 0 ∧ w.parent = some 0 ∧ w.geomParams.isSome ∧
        w.childrenHead = none ∧ w.nextSibling = next ∧
        w.target (Rect.ofSize ⟨640, 480⟩) = target ∧ w.screenLocation = location))
  | .button _ | .toplevel _ => none

theorem exists_cutFrame {s : AppState} {p : Ptr} {next : Option Ptr} {target location : Rect}
    (h : isCutFrame s p next target location = some true) :
    ∃ w, CutFrame s p w next target location := by
  obtain ⟨w, hw, h⟩ := Option.bind_eq_some_iff.mp h
  split at h
  · next a ha =>
    rw [Option.some.injEq, decide_eq_true_eq] at h
    obtain ⟨hb, hpar, hg, hhead, hnext, htarget, hloc⟩ := h
    exact ⟨w, hw, ⟨a, ha, hb⟩, hpar, hg, hhead, hnext, htarget, hloc⟩
  · simp at h
  · simp at h

/-- The placer moves the frame to where it is cut again. -/
theorem CutFrame.recut {s : AppState} {p : Ptr} {w : Widget} {next : Option Ptr}
    {target location : Rect} (h : CutFrame s p w next target location)
    (hcut : normalizeRect target ⟨640, 480⟩ = location) (hne : target ≠ location) :
    Recut ⟨640, 480⟩ w (Rect.ofSize ⟨640, 480⟩) ∧
      recutRects ⟨640, 480⟩ w (Rect.ofSize ⟨640, 480⟩) =
        [normalizeRect (extendRect location) ⟨640, 480⟩, location] := by
  obtain ⟨a, ha, hb⟩ := h.frame
  have hmoved : ∀ rect, w.moved rect = w.setScreenLocation rect := fun rect => by
    simp [Widget.moved, Widget.notified, ha, hb]
  have hdamage : ∀ rect, (w.moved rect).damage = rect := fun rect => by
    simp [hmoved, Widget.damage, ha]
  refine ⟨⟨h.childless, ?_, ?_⟩, ?_⟩
  · rw [h.target, h.screenLocation]
    exact hne
  · rw [Widget.settled, hdamage, h.target, hcut, hmoved, ← h.screenLocation, Widget.writeDamage,
      Widget.attrs_setScreenLocation, ha]
    exact w.setScreenLocation_self
  · rw [recutRects, hdamage, h.target, hcut, h.screenLocation]

/-- The widgets are the same. -/
structure SameWidgets (s t : AppState) : Prop where
  widgets : t.widgets = s.widgets
  rootWidget : t.rootWidget = s.rootWidget
  nextWidget : t.nextWidget = s.nextWidget

namespace SameWidgets

variable {s t t' : AppState}

theorem wellFormed (h : SameWidgets s t) (hs : WellFormed s) : WellFormed t :=
  hs.of_links (fun q => by rw [AppState.nodes, AppState.nodes, h.widgets]) h.nextWidget
    h.rootWidget

theorem hasWindow {window : Size} (h : SameWidgets s t) (hwin : s.HasWindow window) :
    t.HasWindow window := by
  obtain ⟨p, w, hp, hw, hsize⟩ := hwin
  exact ⟨p, w, h.rootWidget.trans hp, (congrFun h.widgets p).trans hw, hsize⟩

theorem onlySurfaces (h : SameWidgets s t) (ho : OnlySurfaces t t') : SameWidgets s t' := by
  have hnext : t'.nextWidget = t.nextWidget := by rw [ho]
  exact ⟨ho.widgets_eq.trans h.widgets, ho.rootWidget_eq.trans h.rootWidget,
    hnext.trans h.nextWidget⟩

theorem invalidated (h : SameWidgets s t) (rects : List Rect) :
    SameWidgets s { t with invalidatedRects := rects } := ⟨h.widgets, h.rootWidget, h.nextWidget⟩

end SameWidgets

section Sample

attribute [local instance] sampleHardware sampleRaster sampleTextRendering

/-- A frame of 100 by 50 pixels, placed in the root. -/
def placeFrame (s : AppState) (x y : ℤ) : Option AppState := do
  let (s, frame) ← eiWidgetCreate s .frame (some 0) none
  eiPlace s frame { x := some x, y := some y, width := some 100, height := some 50 }

/-- Two frames: one across the right edge of the window at the top, one across the left edge at the
bottom. -/
def createCorners : Option AppState := do
  let s ← placeFrame (sampleApp ⟨640, 480⟩) 600 0
  placeFrame s (-50) 400

theorem isSome_createCorners : createCorners.isSome := by with_unfolding_all rfl

/-- A rectangle in the bottom right corner. -/
def cornerRect : Rect := ⟨⟨600, 400⟩, ⟨10, 10⟩⟩

/-- The two frames, with one invalidated rectangle. -/
def sampleCorners : AppState :=
  { createCorners.get isSome_createCorners with invalidatedRects := [cornerRect] }

theorem sampleCorners_frames :
    (∃ w, CutFrame sampleCorners 1 w (some 2) ⟨⟨600, 0⟩, ⟨100, 50⟩⟩ ⟨⟨600, 0⟩, ⟨40, 50⟩⟩) ∧
      ∃ w, CutFrame sampleCorners 2 w none ⟨⟨-50, 400⟩, ⟨100, 50⟩⟩ ⟨⟨0, 400⟩, ⟨50, 50⟩⟩ :=
  ⟨exists_cutFrame (by with_unfolding_all rfl), exists_cutFrame (by with_unfolding_all rfl)⟩

theorem sampleCorners_root : WellFormed sampleCorners ∧ sampleCorners.HasWindow ⟨640, 480⟩ ∧
    sampleCorners.rootWidget = some 0 ∧ sampleCorners.nextWidget = 3 ∧
    ∃ r, sampleCorners.widgets 0 = some r ∧ r.content = Rect.ofSize ⟨640, 480⟩ ∧
      r.childrenHead = some 1 := by
  have hroot : sampleCorners.rootWidget = some 0 := by with_unfolding_all rfl
  have hnext : sampleCorners.nextWidget = 3 := by with_unfolding_all rfl
  have hwindow : sampleCorners.HasWindow ⟨640, 480⟩ := .of_map hroot (by with_unfolding_all rfl)
  have hr : (sampleCorners.widgets 0).map (fun r => (r.content, r.childrenHead)) =
      some (Rect.ofSize ⟨640, 480⟩, some 1) := by with_unfolding_all rfl
  obtain ⟨r, hr, hfields⟩ := Option.map_eq_some_iff.mp hr
  obtain ⟨hcontent, hhead⟩ := Prod.mk.inj hfields
  have hcreate : createCorners = some (createCorners.get isSome_createCorners) :=
    (Option.some_get _).symm
  obtain ⟨s₁, h₁, h₂⟩ := Option.bind_eq_some_iff.mp hcreate
  have hplace : ∀ {s s' : AppState} {x y : ℤ}, WellFormed s → s.Live 0 →
      placeFrame s x y = some s' → WellFormed s' ∧ s'.Live 0 := by
    intro s s' x y hs hlive h
    obtain ⟨⟨s₀, frame⟩, hframe, h⟩ := Option.bind_eq_some_iff.mp h
    obtain ⟨hc, -⟩ := eiWidgetCreate_created hs hlive hframe
    have hskel := skeleton_eiPlace h
    obtain ⟨n, hn⟩ := hlive
    obtain ⟨n', hn', -⟩ := hc.grown.kept 0 n hn
    refine ⟨hc.grown.wellFormed.congr hskel, n', ?_⟩
    rw [AppState.nodes_eq_of_skeleton hskel, hn']
  obtain ⟨hwf₁, hlive₁⟩ := hplace (sampleApp_started ⟨640, 480⟩).wellFormed
    (sampleApp_live ⟨640, 480⟩) h₁
  have hwf : WellFormed sampleCorners :=
    (hplace hwf₁ hlive₁ h₂).1.of_links (fun _ => rfl) rfl rfl
  exact ⟨hwf, hwindow, hroot, hnext, r, hr, hcontent, hhead⟩

theorem sampleCorners_hasGrandparents : HasGrandparents sampleCorners := by
  obtain ⟨hwf, -, -, hnext, -⟩ := sampleCorners_root
  intro p w b hp hb
  have hlt : p < 3 := hnext ▸ hwf.lt_nextWidget (AppState.live_iff.mpr ⟨w, hp⟩)
  have hframe : (sampleCorners.widgets p).map Widget.wclass = some .frame := by
    have hcases : ∀ n : ℕ, n < 3 → n = 0 ∨ n = 1 ∨ n = 2 := by omega
    rcases hcases p hlt with rfl | rfl | rfl <;> with_unfolding_all rfl
  simp [hp, Widget.wclass, hb, Attrs.wclass] at hframe

/-- The rectangles that a pass invalidates for the frame at the top, merged. -/
def topRect : Rect := ⟨⟨598, 0⟩, ⟨42, 52⟩⟩

/-- Those for the frame at the bottom, merged. -/
def bottomRect : Rect := ⟨⟨0, 398⟩, ⟨52, 54⟩⟩

/-- A state of the loop: the widgets of `sampleCorners`, and more rectangles after the one at index
`i`. -/
structure InCorners (s : AppState) (i : ℕ) : Prop where
  sameWidgets : SameWidgets sampleCorners s
  rects : ∃ rects last, s.invalidatedRects = rects ++ [last] ∧ i ≤ rects.length ∧
    (last = cornerRect ∨ last = bottomRect) ∧ ∀ r ∈ rects ++ [last], ¬ r.Negative

/-- A run of the placer on one of the frames. -/
theorem runplacer_corners {s : AppState} (h : SameWidgets sampleCorners s) {p : Ptr} {w : Widget}
    {next : Option Ptr} {target location : Rect}
    (hw : CutFrame sampleCorners p w next target location)
    (hcut : normalizeRect target ⟨640, 480⟩ = location) (hne : target ≠ location) :
    runplacer s p = some { s with
      invalidatedRects := [normalizeRect (extendRect location) ⟨640, 480⟩, location].foldl linkRect
        s.invalidatedRects } := by
  obtain ⟨hwf, hwin, -, -, r, hr, hcontent, -⟩ := sampleCorners_root
  obtain ⟨hrecut, hrequests⟩ := hw.recut hcut hne
  rw [← hrequests, ← hcontent]
  rw [← hcontent] at hrecut
  exact runplacer_recut (h.wellFormed hwf) (h.hasWindow hwin)
    ((congrFun h.widgets p).trans hw.widget) hw.parent ((congrFun h.widgets 0).trans hr) hrecut

/-- **Every pass adds two rectangles**, far from one another. -/
theorem InCorners.pass {drawfunc : DrawFunc} (hdraw : DrawsOnly drawfunc) {s s₁ s₂ : AppState}
    {i : ℕ} (h : InCorners s i) {rect : Rect} (h₁ : drawfunc s 0 rect = some s₁)
    (h₂ : eiDrawWidgetChildren drawfunc s₁ 0 (.invalidated i) = some s₂) :
    InCorners s₂ (i + 1) := by
  obtain ⟨-, -, -, hnext, r, hr, -, hhead⟩ := sampleCorners_root
  obtain ⟨⟨w, hw⟩, v, hv⟩ := sampleCorners_frames
  obtain ⟨rects, last, hrects, hi, hlast, hnonneg⟩ := h.rects
  have honly := hdraw _ _ _ _ h₁
  have hsame₁ := h.sameWidgets.onlySurfaces honly
  have hrects₁ : s₁.invalidatedRects = rects ++ [last] := by rw [honly, hrects]
  simp only [eiDrawWidgetChildren, drawChildrenWith, Option.bind_eq_bind,
    Option.bind_eq_some_iff] at h₂
  obtain ⟨K, hK, h₂⟩ := h₂
  have hKmem : K ∈ rects ++ [last] := by
    rw [← hrects₁]
    exact List.mem_of_getElem? hK
  rw [if_neg (show ¬ (K.size.width < 0 ∨ K.size.height < 0) from hnonneg K hKmem),
    (congrFun hsame₁.widgets 0).trans hr, Option.bind_some, hhead, hsame₁.nextWidget, hnext] at h₂
  -- The frame at the top, then the frame at the bottom.
  obtain ⟨t₁, ho₁, h₂⟩ := drawSiblings_recut hdraw ((congrFun hsame₁.widgets 1).trans hw.widget)
    hw.mapped hw.childless (runplacer_corners hsame₁ hw (by decide) (by decide))
    ((congrFun hsame₁.widgets 1).trans hw.widget) h₂
  have hsame₂ := (hsame₁.invalidated _).onlySurfaces ho₁
  rw [hw.nextSibling] at h₂
  obtain ⟨t₂, ho₂, h₂⟩ := drawSiblings_recut hdraw ((congrFun hsame₂.widgets 2).trans hv.widget)
    hv.mapped hv.childless (runplacer_corners hsame₂ hv (by decide) (by decide))
    ((congrFun hsame₂.widgets 2).trans hv.widget) h₂
  have hsame₃ := (hsame₂.invalidated _).onlySurfaces ho₂
  rw [hv.nextSibling] at h₂
  obtain rfl := Option.some.inj h₂
  have hlist : t₂.invalidatedRects = rects ++ [last, topRect] ++ [bottomRect] := by
    rw [ho₂, ho₁, hrects₁]
    dsimp only
    rw [← List.foldl_append, foldl_linkRect_append _ rects (List.cons_ne_nil last []),
      List.append_assoc]
    -- The second frame is far from the first, and the first from the rectangle before.
    refine congrArg (rects ++ ·) ?_
    rcases hlast with rfl | rfl
    · decide
    · decide
  refine ⟨hsame₃, rects ++ [last, topRect], bottomRect, hlist, ?_, Or.inr rfl, fun r hr => ?_⟩
  · simp only [List.length_append, List.length_cons, List.length_nil]
    omega
  · simp only [List.append_assoc, List.cons_append, List.nil_append, List.mem_append, List.mem_cons,
      List.not_mem_nil, or_false] at hr
    rcases hr with hr | rfl | rfl | rfl
    · exact hnonneg r (List.mem_append_left _ hr)
    · exact hnonneg r (by simp)
    · decide
    · decide

/-- The loop on the two frames is never over, whatever the drawing function. -/
theorem redrawLoop_corners {drawfunc : DrawFunc} (hdraw : DrawsOnly drawfunc) (fuel : ℕ) :
    ∀ {s : AppState} {i : ℕ}, InCorners s i → redrawLoop drawfunc fuel s i = none := by
  induction fuel with
  | zero => exact fun _ => rfl
  | succ fuel ih =>
    intro s i h
    obtain ⟨-, -, hroot, -⟩ := sampleCorners_root
    obtain ⟨rects, last, hrects, hi, -, -⟩ := h.rects
    have hlt : i < s.invalidatedRects.length := by
      rw [hrects, List.length_append]
      exact Nat.lt_succ_of_le hi
    rw [redrawLoop, List.getElem?_eq_getElem hlt]
    simp only [h.sameWidgets.rootWidget, hroot, Option.bind_eq_bind, Option.bind_some]
    refine Option.eq_none_iff_forall_not_mem.mpr fun s' hs' => ?_
    obtain ⟨s₁, h₁, hs'⟩ := Option.bind_eq_some_iff.mp hs'
    obtain ⟨s₂, h₂, hs'⟩ := Option.bind_eq_some_iff.mp hs'
    rw [ih (h.pass hdraw h₁ h₂)] at hs'
    simp at hs'

end Sample

end GuiLibrary

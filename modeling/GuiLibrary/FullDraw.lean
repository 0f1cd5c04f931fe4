import GuiLibrary.HitTesting

/-!
# The calls of a full draw

`initialDraw` draws the root, then goes down to its children with the content area of the root as
clipper. When every widget is where its placer parameters put it, the placer has nothing to do, and
the draw is the list of its calls, run one after the other: each widget with its clipper, parents
before children.

A widget is called exactly when it is mapped and its parent is called, unless the part of the
clipper that lies in the content area of the parent has a negative side: there the descent stops.

## Main definitions

* `initialDrawWith`: `initialDraw`, for any drawing functions.
* `drawCalls`, `passCalls`, `fullCalls`: the calls of a traversal, of a pass over the whole tree,
  and of a full draw.
* `Called`: a widget is drawn with a clipper.

## Main results

* `initialDrawWith_eq`: a full draw runs its calls.
* `mem_fullCalls_iff`: which widgets are called, and with which clipper.
-/

namespace GuiLibrary

open Cells

/-- A side of the rectangle is negative. -/
def Rect.Negative (r : Rect) : Prop := r.size.width < 0 ∨ r.size.height < 0

instance (r : Rect) : Decidable r.Negative := inferInstanceAs (Decidable (_ ∨ _))

/-- A part of a rectangle of negative size is of negative size. -/
theorem Rect.Negative.intersection {r : Rect} (h : r.Negative) (r' : Rect) :
    (getEiRectIntersection r r').Negative := by
  simp only [Negative, getEiRectIntersection] at h ⊢
  omega

/-- `initialDraw`: without a root, nothing is done. -/
def initialDrawWith (drawfunc : DrawFunc) (s : AppState) : Option AppState :=
  match s.rootWidget with
  | none => some s
  | some root => do
      let r ← s.widgets root
      let s ← drawfunc s root r.content
      eiDrawWidgetChildren drawfunc s root (.rect r.content)

/-! ### The calls -/

/-- The calls of the loop on the siblings of a forest inside a clipper, when no location changes. -/
def drawCalls (m : Ptr → Option Widget) : Rect → Forest Ptr → List (Ptr × Rect)
  | _, .nil => []
  | clipper, .cons q kids rest =>
      (match m q with
        | none => []
        | some w =>
            if w.geomParams.isSome then
              let inner := getEiRectIntersection clipper w.content
              (q, clipper) :: if inner.Negative then [] else drawCalls m inner kids
            else []) ++ drawCalls m clipper rest

/-- The calls of a full draw, for the root `r` with the forest `f` of its descendants. -/
def fullCalls (m : Ptr → Option Widget) (root : Ptr) (r : Widget) (f : Forest Ptr) :
    List (Ptr × Rect) :=
  (root, r.content) :: if r.content.Negative then [] else drawCalls m r.content f

/-- The calls of a pass over the whole tree inside a clipper: on the root, then on what is below. -/
def passCalls (m : Ptr → Option Widget) (root : Ptr) (clipper : Rect) (f : Forest Ptr) :
    List (Ptr × Rect) :=
  (root, clipper) :: if clipper.Negative then [] else drawCalls m clipper f

/-- A full draw is a pass with the content area of the root as clipper. -/
theorem fullCalls_eq (m : Ptr → Option Widget) (root : Ptr) (r : Widget) (f : Forest Ptr) :
    fullCalls m root r f = passCalls m root r.content f := rfl

/-- Runs calls one after the other. -/
def runCalls (drawfunc : DrawFunc) (calls : List (Ptr × Rect)) (s : AppState) : Option AppState :=
  calls.foldlM (fun s call => drawfunc s call.1 call.2) s

section Run

variable {drawfunc : DrawFunc} {s s₁ : AppState}

theorem runCalls_cons (call : Ptr × Rect) (calls : List (Ptr × Rect)) :
    runCalls drawfunc (call :: calls) s =
      (drawfunc s call.1 call.2).bind (runCalls drawfunc calls) := rfl

theorem runCalls_append (calls calls' : List (Ptr × Rect)) :
    runCalls drawfunc (calls ++ calls') s =
      (runCalls drawfunc calls s).bind (runCalls drawfunc calls') := by
  rw [runCalls, List.foldlM_append]
  rfl

theorem onlySurfaces_runCalls (hdraw : DrawsOnly drawfunc) : (calls : List (Ptr × Rect)) →
    {s s' : AppState} → runCalls drawfunc calls s = some s' → OnlySurfaces s s'
  | [], s, s', h => Option.some.inj h ▸ .refl s
  | call :: calls, s, s', h => by
      obtain ⟨s₁, h₁, h₂⟩ := Option.bind_eq_some_iff.mp h
      exact (hdraw s call.1 call.2 s₁ h₁).trans (onlySurfaces_runCalls hdraw calls h₂)

/-- Drawing changes no clipper. -/
theorem read_onlySurfaces (h : OnlySurfaces s s₁) (c : Clipper) : c.read s₁ = c.read s := by
  rw [h]
  rfl

/-- `ei_draw_widget_children` on a widget. -/
theorem drawChildrenWith_read {siblings : AppState → Clipper → Option Ptr → Option AppState}
    {p : Ptr} {w : Widget} {c : Clipper} {K : Rect} (hp : s.widgets p = some w)
    (hc : c.read s = some K) :
    drawChildrenWith siblings s p c =
      if K.Negative then some s else siblings s c w.childrenHead := by
  simp only [drawChildrenWith, hc, hp, Option.bind_eq_bind, Option.bind_some]
  rfl

theorem drawChildrenWith_rect {siblings : AppState → Clipper → Option Ptr → Option AppState}
    {p : Ptr} {w : Widget} (hp : s.widgets p = some w) (K : Rect) :
    drawChildrenWith siblings s p (.rect K) =
      if K.Negative then some s else siblings s (.rect K) w.childrenHead :=
  drawChildrenWith_read hp rfl

/-- **The loop on siblings runs its calls**, when the bound on its depth reaches the number of
widgets of the forest. -/
theorem drawSiblings_eq_runCalls (hdraw : DrawsOnly drawfunc) (hs : WellFormed s) (hup : UpToDate s)
    (f : Forest Ptr) : ∀ (fuel : ℕ) {o : Ptr} {h : Option Ptr} {c : Clipper} {K : Rect}
    {s₁ : AppState}, c.read s = some K → OnlySurfaces s s₁ → Represents nodeLinks s.nodes o h f →
    f.nodes.length ≤ fuel → Mapped s o →
      drawSiblings drawfunc fuel s₁ c h = runCalls drawfunc (drawCalls s.widgets K f) s₁ := by
  induction f with
  | nil =>
    rintro fuel o _ c K s₁ - - rfl - -
    cases fuel <;> rfl
  | cons q kids rest ihk ihr =>
    rintro fuel o h c K s₁ hc hs₁ ⟨rfl, n, hn, ho, hkids, hrest⟩ hfuel hmapped
    obtain ⟨w, hw, rfl⟩ := AppState.nodes_eq_some.mp hn
    have ho : w.parent = some o := ho
    rw [Forest.nodes_cons, List.length_cons, List.length_append] at hfuel
    obtain ⟨k, rfl⟩ : ∃ k, fuel = k + 1 := ⟨fuel - 1, by omega⟩
    have hwidgets : ∀ {s₂}, OnlySurfaces s s₂ → s₂.widgets q = some w := fun h => by
      rw [h.widgets_eq, hw]
    have hread : ∀ {s₂}, OnlySurfaces s s₂ → c.read s₂ = some K := fun h => by
      rw [read_onlySurfaces h, hc]
    have hr : ∀ {s₂}, OnlySurfaces s s₂ → drawSiblings drawfunc k s₂ c w.nextSibling =
        runCalls drawfunc (drawCalls s.widgets K rest) s₂ := fun h =>
      ihr k hc h hrest (by omega) hmapped
    rw [drawSiblings, drawCalls, hwidgets hs₁, hw]
    simp only [Option.bind_eq_bind, Option.bind_some]
    by_cases hsome : w.geomParams.isSome
    · have hmapq : Mapped s q := (mapped_iff_of_childOf hs hw ho hmapped).mpr hsome
      obtain ⟨m, hm⟩ := hs.linked.parent_live q o ⟨w.node, hn, ho⟩
      obtain ⟨pw, hpw, rfl⟩ := AppState.nodes_eq_some.mp hm
      have hself : runplacer s₁ q = some s₁ :=
        runplacerWith_self (hwidgets hs₁) ho (by rw [hs₁.widgets_eq, hpw])
          (hup q w o pw hw hmapq ho hpw)
      simp only [if_pos hsome, drawMapped, hself, hread hs₁, Option.bind_eq_bind,
        Option.bind_some, List.cons_append, runCalls_cons]
      cases hq : drawfunc s₁ q K with
      | none => rfl
      | some s₂ =>
        have hs₂ := hs₁.trans (hdraw s₁ q K s₂ hq)
        have hk : drawSiblings drawfunc k s₂ (.rect (getEiRectIntersection K w.content))
            w.childrenHead = runCalls drawfunc (drawCalls s.widgets
              (getEiRectIntersection K w.content) kids) s₂ :=
          ihk k rfl hs₂ hkids (by omega) hmapq
        simp only [Option.bind_some, hwidgets hs₂, hread hs₂,
          drawChildrenWith_rect (hwidgets hs₂)]
        split_ifs
        · simp only [Option.bind_some, hwidgets hs₂, hr hs₂, List.nil_append]
        · rw [hk, runCalls_append]
          -- The later siblings, after the children.
          cases hkids' : runCalls drawfunc (drawCalls s.widgets
              (getEiRectIntersection K w.content) kids) s₂ with
          | none => rfl
          | some s₃ =>
            have hs₃ := hs₂.trans (onlySurfaces_runCalls hdraw _ hkids')
            simp only [Option.bind_some, hwidgets hs₃, hr hs₃]
    · simp only [if_neg hsome, Option.bind_some, hwidgets hs₁, hr hs₁, List.nil_append]

/-- **A pass runs its calls**, one after the other. -/
theorem pass_eq_runCalls (hdraw : DrawsOnly drawfunc) (hs : WellFormed s) (hup : UpToDate s)
    {root : Ptr} {r : Widget} {f : Forest Ptr} (hroot : s.rootWidget = some root)
    (hr : s.widgets root = some r) (hf : Represents nodeLinks s.nodes root r.childrenHead f)
    {c : Clipper} {K : Rect} (hc : c.read s = some K) (hs₁ : OnlySurfaces s s₁) :
    ((drawfunc s₁ root K).bind fun s => eiDrawWidgetChildren drawfunc s root c) =
      runCalls drawfunc (passCalls s.widgets root K f) s₁ := by
  rw [passCalls, runCalls_cons]
  cases hq : drawfunc s₁ root K with
  | none => rfl
  | some s₂ =>
    have hs₂ := hs₁.trans (hdraw s₁ root K s₂ hq)
    have hr₂ : s₂.widgets root = some r := by rw [hs₂.widgets_eq, hr]
    have hnext : s₂.nextWidget = s.nextWidget := by rw [hs₂]
    rw [Option.bind_some, Option.bind_some, eiDrawWidgetChildren,
      drawChildrenWith_read hr₂ ((read_onlySurfaces hs₂ c).trans hc), hnext]
    split_ifs
    · rfl
    · exact drawSiblings_eq_runCalls hdraw hs hup f s.nextWidget hc hs₂ hf
        (hs.length_nodes_le hf) (mapped_root hs hroot hr)

/-- **A full draw runs its calls**, one after the other. -/
theorem initialDrawWith_eq (hdraw : DrawsOnly drawfunc) (hs : WellFormed s) (hup : UpToDate s)
    {root : Ptr} {r : Widget} {f : Forest Ptr} (hroot : s.rootWidget = some root)
    (hr : s.widgets root = some r) (hf : Represents nodeLinks s.nodes root r.childrenHead f) :
    initialDrawWith drawfunc s = runCalls drawfunc (fullCalls s.widgets root r f) s := by
  rw [fullCalls_eq,
    ← pass_eq_runCalls (c := .rect r.content) hdraw hs hup hroot hr hf rfl (.refl s)]
  simp only [initialDrawWith, hroot, hr, Option.bind_eq_bind, Option.bind_some]

end Run

/-! ### Who is called -/

/-- A full draw calls the drawing function on the widget with this clipper: on the root with its
content area, and below a widget that is called on its mapped children, with the part of its
clipper in its content area, when this part has no negative side. -/
inductive Called (s : AppState) (root : Ptr) : Ptr → Rect → Prop
  | root {r : Widget} (hr : s.widgets root = some r) : Called s root root r.content
  | child {p q : Ptr} {K : Rect} {w v : Widget} (h : Called s root p K)
      (hp : s.widgets p = some w) (hq : s.widgets q = some v) (hparent : v.parent = some p)
      (hmapped : v.geomParams.isSome) (hsize : ¬ (getEiRectIntersection K w.content).Negative) :
      Called s root q (getEiRectIntersection K w.content)

section Called

variable {s : AppState} {root : Ptr} {q : Ptr} {L : Rect}

theorem Called.exists_widget (h : Called s root q L) : ∃ w, s.widgets q = some w := by
  cases h with
  | root hr => exact ⟨_, hr⟩
  | child _ _ hq => exact ⟨_, hq⟩

theorem called_of_mem_drawCalls {f : Forest Ptr} : ∀ {o : Ptr} {h : Option Ptr} {K : Rect},
    Represents nodeLinks s.nodes o h f →
    (∀ p v, s.widgets p = some v → v.parent = some o → v.geomParams.isSome → Called s root p K) →
      (q, L) ∈ drawCalls s.widgets K f → Called s root q L := by
  induction f with
  | nil => exact fun _ _ h => absurd h List.not_mem_nil
  | cons p kids rest ihk ihr =>
    rintro o h K ⟨rfl, n, hn, ho, hkids, hrest⟩ hcalled hmem
    obtain ⟨w, hw, rfl⟩ := AppState.nodes_eq_some.mp hn
    rw [drawCalls, hw, List.mem_append] at hmem
    rcases hmem with hmem | hmem
    · simp only at hmem
      by_cases hsome : w.geomParams.isSome
      · have hp := hcalled p w hw ho hsome
        rw [if_pos hsome] at hmem
        rcases List.mem_cons.mp hmem with heq | hmem
        · obtain ⟨rfl, rfl⟩ := Prod.mk.inj heq
          exact hp
        · split_ifs at hmem with hneg
          · exact absurd hmem List.not_mem_nil
          · exact ihk hkids (fun c v hc hparent hmapped =>
              .child hp hw hc hparent hmapped hneg) hmem
      · rw [if_neg hsome] at hmem
        exact absurd hmem List.not_mem_nil
    · exact ihr hrest hcalled hmem

/-- The mapped roots of a forest are called. -/
theorem mem_drawCalls_of_root {f : Forest Ptr} {v : Widget} (hq : s.widgets q = some v)
    (hmapped : v.geomParams.isSome) (K : Rect) (hroot : q ∈ f.roots) :
    (q, K) ∈ drawCalls s.widgets K f := by
  induction f with
  | nil => exact absurd hroot List.not_mem_nil
  | cons p kids rest _ ihr =>
    rw [drawCalls, List.mem_append]
    rcases List.mem_cons.mp hroot with rfl | hroot
    · left
      rw [hq]
      simp [hmapped]
    · exact Or.inr (ihr hroot)

/-- So are the mapped children of a widget that is called, unless the descent stops. -/
theorem mem_drawCalls_child (hs : WellFormed s) {f : Forest Ptr} : ∀ {o : Ptr} {h : Option Ptr}
    {K : Rect} {p : Ptr} {K' : Rect} {w v : Widget}, Represents nodeLinks s.nodes o h f →
    (p, K') ∈ drawCalls s.widgets K f → s.widgets p = some w → s.widgets q = some v →
    v.parent = some p → v.geomParams.isSome → ¬ (getEiRectIntersection K' w.content).Negative →
      (q, getEiRectIntersection K' w.content) ∈ drawCalls s.widgets K f := by
  induction f with
  | nil => exact fun _ h => absurd h List.not_mem_nil
  | cons p₀ kids rest ihk ihr =>
    rintro o h K p K' w v ⟨rfl, n, hn, ho, hkids, hrest⟩ hmem hp hq hparent hmapped hneg
    obtain ⟨w₀, hw₀, rfl⟩ := AppState.nodes_eq_some.mp hn
    rw [drawCalls, hw₀, List.mem_append] at hmem ⊢
    refine hmem.imp (fun hmem => ?_) fun hmem => ihr hrest hmem hp hq hparent hmapped hneg
    simp only at hmem ⊢
    split_ifs at hmem ⊢ with hsome hneg₀
    · obtain ⟨rfl, rfl⟩ := Prod.mk.inj (List.mem_singleton.mp hmem)
      obtain rfl := Option.some.inj (hp.symm.trans hw₀)
      exact absurd hneg₀ hneg
    · refine List.mem_cons_of_mem _ ?_
      rcases List.mem_cons.mp hmem with heq | hmem
      · obtain ⟨rfl, rfl⟩ := Prod.mk.inj heq
        obtain rfl := Option.some.inj (hp.symm.trans hw₀)
        exact mem_drawCalls_of_root hq hmapped _ ((hkids.mem_roots_iff hs.linked hn q).mpr
          ⟨v.node, AppState.nodes_of_widgets hq, hparent⟩)
      · exact ihk hkids hmem hp hq hparent hmapped hneg
    · exact absurd hmem List.not_mem_nil

/-- **Which widgets a full draw calls, and with which clippers.** -/
theorem mem_fullCalls_iff (hs : WellFormed s) {r : Widget} {f : Forest Ptr}
    (hroot : s.rootWidget = some root) (hr : s.widgets root = some r)
    (hf : Represents nodeLinks s.nodes root r.childrenHead f) :
    (q, L) ∈ fullCalls s.widgets root r f ↔ Called s root q L := by
  have hself : getEiRectIntersection r.content r.content = r.content := by
    simp [getEiRectIntersection]
  have hcalled := Called.root hr
  constructor
  · intro h
    rcases List.mem_cons.mp h with heq | h
    · obtain ⟨rfl, rfl⟩ := Prod.mk.inj heq
      exact hcalled
    · split_ifs at h with hneg
      · exact absurd h List.not_mem_nil
      · refine called_of_mem_drawCalls hf (fun p v hp hparent hmapped => ?_) h
        have hchild := Called.child hcalled hr hp hparent hmapped (by rwa [hself])
        rwa [hself] at hchild
  · intro h
    induction h with
    | root hr' =>
      obtain rfl := Option.some.inj (hr.symm.trans hr')
      exact List.mem_cons_self
    | @child p q K w v _ hp hq hparent hmapped hneg ih =>
      rcases List.mem_cons.mp ih with heq | ih
      · -- A child of the root.
        obtain ⟨rfl, rfl⟩ := Prod.mk.inj heq
        obtain rfl := Option.some.inj (hr.symm.trans hp)
        rw [hself] at hneg ⊢
        refine List.mem_cons_of_mem _ ?_
        rw [if_neg hneg]
        exact mem_drawCalls_of_root hq hmapped _ ((hf.mem_roots_iff hs.linked
          (AppState.nodes_of_widgets hr) q).mpr ⟨v.node, AppState.nodes_of_widgets hq, hparent⟩)
      · split_ifs at ih with hroot'
        · exact absurd ih List.not_mem_nil
        · refine List.mem_cons_of_mem _ ?_
          rw [if_neg hroot']
          exact mem_drawCalls_child hs hf ih hp hq hparent hmapped hneg

end Called

end GuiLibrary

import GuiLibrary.Configure

/-!
# The widgets that the placer reaches

A run of the placer that moves a widget goes on to its children, with the content area that the
notification has just assigned. `Reached` follows this descent, and `Relaid` describes the result of
a run widget by widget: a widget that is not reached is unchanged, and a widget that is reached
under a content area is what `Widget.rerun` makes of it there.

## Main definitions

* `Mapped`, `UpToDate`.
* `Reached`, `Widget.rerun`, `Relaid`.

## Main results

* `runplacer_relaid`, `refresh_of_eq_some`, `eiPlace_of_eq_some`: what a run of the placer leaves of
every widget. -/

namespace GuiLibrary

open Cells

/-! ### Mapped widgets -/

/-- The widget and all its ancestors are mapped; the root counts as mapped. -/
def Mapped (s : AppState) (q : Ptr) : Prop :=
  ∀ a, s.InSubtree q a →
    s.rootWidget = some a ∨ ∃ w, s.widgets a = some w ∧ w.geomParams.isSome

/-- Every mapped widget is where its placer parameters put it under the content area of its
parent. -/
def UpToDate (s : AppState) : Prop :=
  ∀ q w o pw, s.widgets q = some w → Mapped s q → w.parent = some o → s.widgets o = some pw →
    w.target pw.content = w.screenLocation

section Mapped

variable {s : AppState} {q o root : Ptr} {w r : Widget}

/-- The proper ancestors of a widget are its parent and the ancestors of it. -/
theorem below_iff_of_childOf (hq : nodeLinks.ChildOf s.nodes q o) (a : Ptr) :
    s.Below q a ↔ s.InSubtree o a := by
  constructor
  · exact fun h => h.parent_cases hq
  · rintro (rfl | h)
    · exact .single hq
    · exact .head hq h

theorem mapped_iff_of_childOf (hs : WellFormed s) (hw : s.widgets q = some w)
    (ho : w.parent = some o) (hmapped : Mapped s o) : Mapped s q ↔ w.geomParams.isSome := by
  have hq : nodeLinks.ChildOf s.nodes q o := ⟨w.node, AppState.nodes_of_widgets hw, ho⟩
  constructor
  · intro h
    rcases h q (Or.inl rfl) with hroot | ⟨v, hv, hsome⟩
    · exact absurd hroot (hs.rootWidget_ne hw ho)
    · rwa [Option.some.inj (hw.symm.trans hv)]
  · rintro h a (rfl | ha)
    · exact Or.inr ⟨w, hw, h⟩
    · exact hmapped a ((below_iff_of_childOf hq a).mp ha)

theorem Mapped.of_below (h : Mapped s q) (hb : s.Below q o) : Mapped s o := by
  rintro a (rfl | ha)
  · exact h o (Or.inr hb)
  · exact h a (Or.inr (hb.trans ha))

/-- The root widget is mapped, and nothing lies above it. -/
theorem root_top (hs : WellFormed s) (hroot : s.rootWidget = some root)
    (hr : s.widgets root = some r) : ∀ a, ¬ s.Below root a := by
  intro a ha
  obtain ⟨d, ⟨n, hn, hd⟩, -⟩ := Relation.TransGen.head'_iff.mp ha
  obtain rfl := Option.some.inj ((AppState.nodes_of_widgets hr).symm.trans hn)
  exact hs.rootWidget_ne hr hd hroot

theorem mapped_root (hs : WellFormed s) (hroot : s.rootWidget = some root)
    (hr : s.widgets root = some r) : Mapped s root := by
  rintro a (rfl | ha)
  · exact Or.inl hroot
  · exact absurd ha (root_top hs hroot hr a)

end Mapped

/-! ### The descent of the placer -/

/-- The placer, started on `p` under the content area `K`, comes to a widget under a content area of
its parent: it goes on to the children of every widget that it moves. -/
inductive Reached (m : Ptr → Option Widget) (p : Ptr) (K : Rect) : Ptr → Rect → Prop
  | start : Reached m p K p K
  | child {q c : Ptr} {Kq : Rect} {w cw : Widget} (h : Reached m p K q Kq) (hw : m q = some w)
      (hmove : w.target Kq ≠ w.screenLocation) (hc : m c = some cw)
      (hparent : cw.parent = some q) : Reached m p K c (w.moved (w.target Kq)).content

/-- The widget after the placer has come to it under the content area `K`. -/
def Widget.rerun (w : Widget) (window : Size) (K : Rect) : Widget :=
  if w.target K = w.screenLocation then w else w.settled window (w.target K)

theorem Widget.rerun_of_eq {w : Widget} {window : Size} {K : Rect}
    (h : w.target K = w.screenLocation) : w.rerun window K = w := if_pos h

theorem Widget.rerun_of_ne {w : Widget} {window : Size} {K : Rect}
    (h : w.target K ≠ w.screenLocation) : w.rerun window K = w.settled window (w.target K) :=
  if_neg h

namespace Widget

/-- A notification and what follows it write the location, the content area and the painted
rectangle only. -/
theorem placement_settled (w : Widget) (window : Size) (rect : Rect) :
    (w.settled window rect).geomParams = w.geomParams ∧
      (w.settled window rect).requestedSize = w.requestedSize := by
  obtain ⟨_, _, _, _, _, _, _, params, size, loc, content, attrs⟩ := w
  cases attrs with
  | frame a =>
    simp only [settled, moved, notified, setScreenLocation]
    split_ifs <;> exact ⟨rfl, rfl⟩
  | button a =>
    simp only [settled, moved, notified, setScreenLocation]
    split_ifs <;> exact ⟨rfl, rfl⟩
  | toplevel a => exact ⟨rfl, rfl⟩

/-- Where a widget that moves to a location ends: the damage of a frame and of a button without
border is its own location, which is then cut at the edges of the window. -/
def landing (w : Widget) (window : Size) (rect : Rect) : Rect :=
  match w.attrs with
  | .frame _ => normalizeRect rect window
  | .button a => if a.borderWidth = 0 then normalizeRect rect window else rect
  | .toplevel _ => rect

theorem screenLocation_settled (w : Widget) (window : Size) (rect : Rect) :
    (w.settled window rect).screenLocation = w.landing window rect := by
  obtain ⟨_, _, _, _, _, _, _, _, _, _, _, attrs⟩ := w
  cases attrs with
  | frame a =>
    simp only [settled, moved, notified, setScreenLocation, writeDamage, damage]
    split_ifs <;> rfl
  | button a =>
    simp only [settled, moved, notified, setScreenLocation, writeDamage, damage, landing, ne_eq]
    by_cases hb : a.borderWidth = 0
    · simp only [hb, not_true_eq_false, if_false, if_true]
      rfl
    · simp only [hb, not_false_eq_true, if_true, if_false]
      rfl
  | toplevel a => rfl

theorem landing_landing (w : Widget) (window : Size) (rect : Rect) :
    w.landing window (w.landing window rect) = w.landing window rect := by
  have hcut : normalizeRect (normalizeRect rect window) window = normalizeRect rect window :=
    normalizeRect_eq_self_iff.mpr (normalizeRect_inWindow rect window)
  cases ha : w.attrs with
  | frame a => simp only [landing, ha, hcut]
  | button a =>
    simp only [landing, ha]
    split_ifs
    · exact hcut
    · rfl
  | toplevel a => simp only [landing, ha]

theorem landing_of_inWindow (w : Widget) {window : Size} {rect : Rect} (h : rect.InWindow window) :
    w.landing window rect = rect := by
  rw [landing, normalizeRect_eq_self_iff.mpr h]
  split
  · rfl
  · rw [ite_self]
  · rfl

theorem landing_settled (w : Widget) (window : Size) (rect rect' : Rect) :
    (w.settled window rect).landing window rect' = w.landing window rect' := by
  obtain ⟨_, _, _, _, _, _, _, _, _, _, contentRect, attrs⟩ := w
  cases attrs with
  | frame a =>
    simp only [settled, moved, notified, setScreenLocation, writeDamage, damage, landing]
    split_ifs <;> rfl
  | button a =>
    simp only [settled, moved, notified, setScreenLocation, writeDamage, damage, landing, ne_eq]
    by_cases hb : a.borderWidth = 0
    · simp only [hb, not_true_eq_false, if_false, if_true, setContent, setScreenLocation]
    · simp only [hb, not_false_eq_true, if_true, if_false, setContent]
  | toplevel a => rfl

/-- Only a mapped widget moves. -/
theorem isSome_of_moves {w : Widget} {K : Rect} (h : w.target K ≠ w.screenLocation) :
    w.geomParams.isSome := by
  rw [Option.isSome_iff_ne_none]
  intro hg
  exact h (by rw [target, hg])

theorem target_settled {w : Widget} (h : w.geomParams.isSome) (window : Size) (rect K : Rect) :
    (w.settled window rect).target K = w.target K := by
  obtain ⟨params, hg⟩ := Option.isSome_iff_exists.mp h
  obtain ⟨h₁, h₂⟩ := w.placement_settled window rect
  rw [target, target, h₁, h₂, hg]

variable (w : Widget) (window : Size) (K : Rect)

@[simp] theorem node_rerun : (w.rerun window K).node = w.node := by
  rw [rerun]
  split_ifs
  · rfl
  · exact node_settled w window _

@[simp] theorem geomParams_rerun : (w.rerun window K).geomParams = w.geomParams := by
  rw [rerun]
  split_ifs
  · rfl
  · exact (w.placement_settled window _).1

@[simp] theorem requestedSize_rerun : (w.rerun window K).requestedSize = w.requestedSize := by
  rw [rerun]
  split_ifs
  · rfl
  · exact (w.placement_settled window _).2

@[simp] theorem landing_rerun (rect : Rect) :
    (w.rerun window K).landing window rect = w.landing window rect := by
  rw [rerun]
  split_ifs
  · rfl
  · exact w.landing_settled window _ rect

@[simp] theorem target_rerun (K' : Rect) : (w.rerun window K).target K' = w.target K' := by
  by_cases h : w.target K = w.screenLocation
  · rw [rerun_of_eq h]
  · rw [rerun_of_ne h, target_settled (isSome_of_moves h)]

end Widget

/-- The memory `m'` is what a run of the placer on `p` makes of the widgets, when `K` is the content
area of the parent. -/
structure Relaid (window : Size) (s : AppState) (m' : Ptr → Option Widget) (p : Ptr)
    (K : Rect) : Prop where
  start : m' p = (s.widgets p).map (·.rerun window K)
  outside : ∀ q, ¬ s.InSubtree q p → m' q = s.widgets q
  below : ∀ q o, s.InSubtree o p → nodeLinks.ChildOf s.nodes q o →
    (m' q = s.widgets q ∧ m' o = s.widgets o ∧
      (o = p → ∀ w, s.widgets p = some w → w.target K = w.screenLocation)) ∨
    ∃ w Ko, s.widgets o = some w ∧ Reached s.widgets p K o Ko ∧
      w.target Ko ≠ w.screenLocation ∧ m' o = some (w.settled window (w.target Ko)) ∧
      m' q = (s.widgets q).map (·.rerun window (w.moved (w.target Ko)).content)

section Descent

variable {window : Size} {s : AppState} {m' : Ptr → Option Widget} {p : Ptr} {K₀ : Rect}

/-- A child of a node of a represented forest is a node of the forest. -/
theorem mem_nodes_of_childOf (hs : WellFormed s) {o : Ptr} {h : Option Ptr} {f : Forest Ptr}
    (hf : Represents nodeLinks s.nodes o h f) {q r : Ptr} (hr : r ∈ f.nodes)
    (hq : nodeLinks.ChildOf s.nodes q r) : q ∈ f.nodes := by
  obtain ⟨b, kids, hb, hkids, hsub⟩ := hf.exists_kids r hr
  exact hsub (kids.roots_subset_nodes ((hkids.mem_roots_iff hs.linked hb q).mpr hq))

/-- The placer comes to every top node of a forest that settles. -/
theorem Settled.roots {m m' : Ptr → Option Widget} {K : Rect} {f : Forest Ptr}
    (h : Settled window m m' K f) : ∀ r ∈ f.roots, m' r = (m r).map (·.rerun window K) := by
  induction h with
  | nil => simp
  | stay hw ht hp _ _ ihrest =>
    intro r hr
    rcases List.mem_cons.mp hr with rfl | hr
    · rw [hp, hw, Option.map_some, Widget.rerun_of_eq ht]
    · exact ihrest r hr
  | move hw ht hp _ _ _ ihrest =>
    intro r hr
    rcases List.mem_cons.mp hr with rfl | hr
    · rw [hp, hw, Option.map_some, Widget.rerun_of_ne ht]
    · exact ihrest r hr

/-- A node of a forest that settles, and its children: unchanged, or the node has moved and the
placer has come to its children. -/
theorem Settled.children {K : Rect} {f : Forest Ptr} (h : Settled window s.widgets m' K f)
    (hs : WellFormed s) : ∀ {o : Ptr} {head : Option Ptr},
    Represents nodeLinks s.nodes o head f → (∀ r ∈ f.roots, Reached s.widgets p K₀ r K) →
    ∀ o ∈ f.nodes, ∀ q, nodeLinks.ChildOf s.nodes q o →
      (m' q = s.widgets q ∧ m' o = s.widgets o) ∨
      ∃ w Ko, s.widgets o = some w ∧ Reached s.widgets p K₀ o Ko ∧
        w.target Ko ≠ w.screenLocation ∧ m' o = some (w.settled window (w.target Ko)) ∧
        m' q = (s.widgets q).map (·.rerun window (w.moved (w.target Ko)).content) := by
  induction h with
  | nil => simp
  | @stay K r w kids rest hw ht hp hkids _ ihrest =>
    rintro o head ⟨-, n, hn, -, hrkids, hrrest⟩ hreach x hx q hq
    rcases List.mem_cons.mp hx with rfl | hx
    · have hqk := kids.roots_subset_nodes ((hrkids.mem_roots_iff hs.linked hn q).mpr hq)
      exact Or.inl ⟨hkids q hqk, hp.trans hw.symm⟩
    rcases List.mem_append.mp hx with hx | hx
    · exact Or.inl ⟨hkids q (mem_nodes_of_childOf hs hrkids hx hq), hkids x hx⟩
    · exact ihrest hrrest (fun r hr => hreach r (List.mem_cons_of_mem _ hr)) x hx q hq
  | @move K r w kids rest hw ht hp hkids _ ihkids ihrest =>
    rintro o head ⟨-, n, hn, -, hrkids, hrrest⟩ hreach x hx q hq
    have hr := hreach r List.mem_cons_self
    rcases List.mem_cons.mp hx with rfl | hx
    · have hqk := (hrkids.mem_roots_iff hs.linked hn q).mpr hq
      exact Or.inr ⟨w, K, hw, hr, ht, hp, hkids.roots q hqk⟩
    rcases List.mem_append.mp hx with hx | hx
    · refine ihkids hrkids (fun c hc => ?_) x hx q hq
      obtain ⟨nc, hnc, hpar⟩ := hrkids.root_childOf c hc
      obtain ⟨cw, hcw, rfl⟩ := AppState.nodes_eq_some.mp hnc
      exact .child hr hw ht hcw hpar
    · exact ihrest hrrest (fun r hr => hreach r (List.mem_cons_of_mem _ hr)) x hx q hq

/-- **A run of the placer, widget by widget.** -/
theorem runplacer_relaid (hs : WellFormed s) (hwin : s.HasWindow window) {o : Ptr} {w pw : Widget}
    (hp : s.widgets p = some w) (ho : w.parent = some o) (hpo : s.widgets o = some pw) :
    ∃ m' rects, runplacer s p = some (s.relayout window m' rects) ∧
      Relaid window s m' p pw.content := by
  obtain ⟨f, hf⟩ := hs.exists_forest hp
  obtain ⟨m', hrun, hset, hframe⟩ := runplacer_settles hs hwin hp ho hpo hf
  have hbelow := fun q => hf.mem_nodes_iff hs.linked (AppState.nodes_of_widgets hp) q
  refine ⟨m', _, hrun, hset.roots p List.mem_cons_self, fun q hq => hframe q ?_,
    fun q x hx hq => ?_⟩
  · simp only [Forest.nodes_cons, Forest.nodes_nil, List.append_nil, List.mem_cons, not_or]
    exact ⟨fun h => hq (Or.inl h), fun h => hq (Or.inr ((hbelow q).mp h))⟩
  · cases hset with
    | stay hw ht hp' hkids _ =>
      obtain rfl := Option.some.inj (hp.symm.trans hw)
      have hqf : q ∈ f.nodes := by
        rcases hx with rfl | hx
        · exact (hbelow q).mpr (.single hq)
        · exact (hbelow q).mpr (.head hq hx)
      refine Or.inl ⟨hkids q hqf, ?_, fun _ v hv => ?_⟩
      · rcases hx with rfl | hx
        · exact hp'.trans hp.symm
        · exact hkids x ((hbelow x).mpr hx)
      · obtain rfl := Option.some.inj (hp.symm.trans hv)
        exact ht
    | move hw ht hp' hkids _ =>
      obtain rfl := Option.some.inj (hp.symm.trans hw)
      rcases hx with rfl | hx
      · have hqr := (hf.mem_roots_iff hs.linked (AppState.nodes_of_widgets hp) q).mpr hq
        exact Or.inr ⟨w, _, hp, .start, ht, hp', hkids.roots q hqr⟩
      · have hne : x ≠ p := by
          rintro rfl
          exact hs.linked.not_below_self x hx
        refine (hkids.children hs hf (fun c hc => ?_) x ((hbelow x).mpr hx) q hq).imp_left
          fun h => ⟨h.1, h.2, fun h => absurd h hne⟩
        obtain ⟨nc, hnc, hpar⟩ := hf.root_childOf c hc
        obtain ⟨cw, hcw, rfl⟩ := AppState.nodes_eq_some.mp hnc
        exact .child .start hp ht hcw hpar

/-- A placed widget of a well-formed hierarchy on which the placer has completed. -/
theorem runplacer_of_eq_some {s' : AppState} {w : Widget} (hs : WellFormed s)
    (hp : s.widgets p = some w) (hg : w.geomParams.isSome) (h : runplacer s p = some s') :
    ∃ o pw window m' rects, w.parent = some o ∧ s.widgets o = some pw ∧ s.HasWindow window ∧
      s' = s.relayout window m' rects ∧ Relaid window s m' p pw.content := by
  obtain ⟨params, hg⟩ := Option.isSome_iff_exists.mp hg
  have hlive : s.Live p := AppState.live_iff.mpr ⟨w, hp⟩
  cases ho : w.parent with
  | none => simp [runplacer, runplacerWith, hp, hg, ho] at h
  | some o =>
    obtain ⟨n, hn⟩ := hs.linked.parent_live p o ⟨w.node, AppState.nodes_of_widgets hp, ho⟩
    obtain ⟨pw, hpo, -⟩ := AppState.nodes_eq_some.mp hn
    obtain ⟨r, rw', hr, hrw, -⟩ := hs.rootWidget_live hlive
    have hwin : s.HasWindow rw'.screenLocation.size := ⟨r, rw', hr, hrw, rfl⟩
    obtain ⟨m', rects, hrun, hrelaid⟩ := runplacer_relaid hs hwin hp ho hpo
    exact ⟨o, pw, _, m', rects, rfl, hpo, hwin, Option.some.inj (h.symm.trans hrun), hrelaid⟩

/-- The end of a configure function: nothing for a widget that is not mapped, else a run of the
placer and one more invalidated rectangle. -/
theorem refresh_of_eq_some {s' : AppState} {w : Widget} (hs : WellFormed s)
    (hp : s.widgets p = some w) (h : refresh s p = some s') :
    (w.geomParams = none ∧ s' = s) ∨
      ∃ o pw window m' rects, w.geomParams.isSome ∧ w.parent = some o ∧ s.widgets o = some pw ∧
        s.HasWindow window ∧ s' = s.relayout window m' rects ∧
        Relaid window s m' p pw.content := by
  simp only [refresh, hp, Option.bind_eq_bind, Option.bind_some] at h
  split_ifs at h with hg
  · simp only [Option.bind_eq_some_iff, Option.map_eq_some_iff, Prod.exists] at h
    obtain ⟨s₁, h₁, w₁, -, s₂, r, h₂, rfl⟩ := h
    obtain ⟨o, pw, window, m', rects, ho, hpo, hwin, rfl, hrelaid⟩ :=
      runplacer_of_eq_some hs hp hg h₁
    obtain ⟨window', hwin'⟩ := hasWindow_of_eiAppInvalidateRect h₂
    have hroot : ∀ r, s.rootWidget = some r → m' r = s.widgets r := fun r hr =>
      hrelaid.outside r fun hsub => by
        rcases hsub with rfl | hsub
        · exact hs.rootWidget_ne hp ho hr
        · obtain ⟨d, ⟨n, hn, hd⟩, -⟩ := Relation.TransGen.head'_iff.mp hsub
          obtain ⟨v, hv, rfl⟩ := AppState.nodes_eq_some.mp hn
          exact hs.rootWidget_ne hv hd hr
    obtain rfl := hwin'.unique (hwin.relayout hroot rects)
    rw [eiAppInvalidateRect_eq hwin', AppState.relayout_addDamage, Option.some.injEq,
      Prod.mk.injEq] at h₂
    exact Or.inr ⟨o, pw, window', m', _, hg, ho, hpo, hwin, h₂.1.symm, hrelaid⟩
  · exact Or.inl ⟨by simpa using hg, (Option.some.inj h).symm⟩

/-- Placing a widget of a well-formed hierarchy, when it completes. -/
theorem eiPlace_of_eq_some {s' : AppState} {args : PlaceArgs} (hs : WellFormed s)
    (h : eiPlace s p args = some s') :
    ∃ w o pw window m' rects, s.widgets p = some w ∧ w.parent = some o ∧
      s.widgets o = some pw ∧ s.HasWindow window ∧ s' = s.relayout window m' rects ∧
      Relaid window (s.setWidget p (w.setGeomParams (some (placedParams w args)))) m' p
        pw.content := by
  simp only [eiPlace, Option.bind_eq_bind, Option.bind_eq_some_iff] at h
  obtain ⟨w, hp, h⟩ := h
  have hskel : (s.setWidget p (w.setGeomParams (some (placedParams w args)))).skeleton =
      s.skeleton := AppState.skeleton_setWidget hp (Widget.node_setGeomParams w _)
  obtain ⟨o, pw, window, m', rects, ho, hpo, hwin, rfl, hrelaid⟩ :=
    runplacer_of_eq_some (hs.congr hskel) (s.widgets_setWidget_self p _) rfl h
  have hop : o ≠ p :=
    hs.parent_ne ⟨w.node, AppState.nodes_of_widgets hp, ho⟩
  rw [s.widgets_setWidget_of_ne _ hop] at hpo
  refine ⟨w, o, pw, window, m', rects, hp, ho, hpo, ?_, rfl, hrelaid⟩
  obtain ⟨r, v, hr, hv, hsize⟩ := hwin
  have hrp : r ≠ p := fun hrp => hs.rootWidget_ne hp ho (hrp ▸ hr)
  rw [s.widgets_setWidget_of_ne _ hrp] at hv
  exact ⟨r, v, hr, hv, hsize⟩

/-- Placing a widget changes no widget outside its subtree. -/
theorem eiPlace_outside {s' : AppState} {args : PlaceArgs} (hs : WellFormed s)
    (h : eiPlace s p args = some s') {q : Ptr} (hq : ¬ s.InSubtree q p) :
    s'.widgets q = s.widgets q := by
  obtain ⟨w, o, pw, window, m', rects, hp, -, -, -, rfl, hrelaid⟩ := eiPlace_of_eq_some hs h
  have hnodes : (s.setWidget p (w.setGeomParams (some (placedParams w args)))).nodes = s.nodes :=
    AppState.nodes_eq_of_skeleton
      (AppState.skeleton_setWidget hp (Widget.node_setGeomParams w _))
  refine (hrelaid.outside q ?_).trans (s.widgets_setWidget_of_ne _ fun h => hq (Or.inl h))
  rwa [AppState.InSubtree, AppState.Below, hnodes]

end Descent

end GuiLibrary

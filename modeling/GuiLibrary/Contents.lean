import GuiLibrary.Clearing

/-!
# Content areas over a run

The content area of a widget is where its children are placed and what they are cut at. It must
follow the location of the widget and its border width: the location without the border for frames
and buttons, the area under the top bar for toplevels. It is written when the placer moves the
widget, but the configure functions change the border without moving it, and the rectangle that
`ei_app_invalidate_rect` cuts in place is the location of a frame and the content area of a button.

`PlacerAgrees` is the condition on a run of the placer under which the widgets that it comes to have
content areas that agree; `PlaceAgrees` and `BorderAgrees` say, of the state before a call, when the
widget agrees that the call does not move. In a run of the program whose steps meet them, every
mapped widget agrees. The hidden buttons of a toplevel are placed by the function that creates it,
before the toplevel is mapped; they are counted when it is.

## Main definitions

* `Widget.Agrees`, `Widget.Fits`, `AllAgree`, `PlacerAgrees`, `PlaceAgrees`, `BorderAgrees`.
* `ContentStep`, `ContentInvariant`.

## Main results

* `Widget.agrees_settled_iff`: the condition on one widget is exact.
* `AllAgree.rerun`: a run of the placer under the condition.
* `ContentInvariant.step`, `contents_agree_of_run`.
-/

namespace GuiLibrary

open Cells

/-! ### Agreement -/

/-- The content area, and the painted rectangle of a toplevel, are those that the location and the
border width give. -/
def Widget.Agrees (w : Widget) : Prop :=
  match w.attrs with
  | .frame a => w.content = insetRect w.screenLocation a.borderWidth
  | .button a => w.content = insetRect w.screenLocation a.borderWidth
  | .toplevel a => w.content = toplevelContent w.screenLocation a.borderWidth ∧
      a.drawRect = toplevelDrawRect w.screenLocation a.borderWidth

/-- A hidden button of a toplevel. -/
def Widget.Hidden (w : Widget) : Prop := w.isQuitButton ∨ w.isResizeButton

/-- What a notification makes of a widget that moves to `rect` agrees: a frame with a border stays
in the window, and so does the content area of a button with a border; a frame without border has
its location as content area. -/
def Widget.Fits (window : Size) (w : Widget) (rect : Rect) : Prop :=
  match w.attrs with
  | .frame a =>
      if a.borderWidth = 0 then
        w.contentRect = .screenLocation ∨ w.contentRect = .own (normalizeRect rect window)
      else rect.InWindow window
  | .button a => a.borderWidth = 0 ∨ (insetRect rect a.borderWidth).InWindow window
  | .toplevel _ => True

/-- Without border the content area is the location. -/
@[simp] theorem insetRect_zero (rect : Rect) : insetRect rect 0 = rect := by
  simp [insetRect]

theorem insetRect_inj {r₁ r₂ : Rect} {b : ℤ} : insetRect r₁ b = insetRect r₂ b ↔ r₁ = r₂ := by
  obtain ⟨⟨x₁, y₁⟩, ⟨w₁, h₁⟩⟩ := r₁
  obtain ⟨⟨x₂, y₂⟩, ⟨w₂, h₂⟩⟩ := r₂
  simp only [insetRect, Rect.mk.injEq, Point.mk.injEq, Size.mk.injEq]
  omega

namespace Widget

variable {w w' : Widget} {window : Size} {rect : Rect}

/-- **A moved widget agrees if and only if it fits.** -/
theorem agrees_settled_iff : (w.settled window rect).Agrees ↔ w.Fits window rect := by
  obtain ⟨_, _, _, _, _, _, _, _, _, loc, contentRect, attrs⟩ := w
  cases attrs with
  | frame a =>
    by_cases hb : a.borderWidth = 0
    · simp only [Agrees, Fits, settled, moved, notified, setScreenLocation, writeDamage, damage, hb,
        ne_eq, not_true_eq_false, if_false, if_true, insetRect_zero, content]
      cases contentRect <;> simp
    · simp only [Agrees, Fits, settled, moved, notified, setScreenLocation, writeDamage, damage, hb,
        ne_eq, not_false_eq_true, if_true, if_false, content]
      rw [insetRect_inj, eq_comm, normalizeRect_eq_self_iff]
  | button a =>
    by_cases hb : a.borderWidth = 0
    · simp [Agrees, Fits, settled, moved, notified, setScreenLocation, writeDamage, damage, hb,
        content, setContent]
    · simp only [Agrees, Fits, settled, moved, notified, setScreenLocation, writeDamage, damage, hb,
        ne_eq, not_false_eq_true, if_true, content, setContent, false_or]
      exact normalizeRect_eq_self_iff
  | toplevel a => simp [Agrees, Fits, settled, moved, notified, setScreenLocation,
      writeDamage, content]

theorem agrees_of_look (h : w'.look = w.look) : w'.Agrees ↔ w.Agrees := by
  simp only [look, Prod.mk.injEq] at h
  rw [Agrees, Agrees, content, content, h.2.2.1, h.2.2.2.1, h.2.2.2.2]

theorem hidden_of_look (h : w'.look = w.look) : w'.Hidden ↔ w.Hidden := by
  simp only [look, Prod.mk.injEq] at h
  rw [Hidden, Hidden, isQuitButton, isQuitButton, isResizeButton, isResizeButton, h.2.2.2.2]

theorem hidden_of_class (h : w.node.nodeClass = .button false true none ∨
    w.node.nodeClass = .button true false none) : w.Hidden := by
  rw [Hidden, ← isQuitButton_node, ← isResizeButton_node, Node.isQuitButton, Node.isResizeButton]
  rcases h with h | h
  · exact Or.inr (by rw [h])
  · exact Or.inl (by rw [h])

theorem hidden_of_node (h : w'.node = w.node) : w'.Hidden ↔ w.Hidden := by
  rw [Hidden, Hidden, ← isQuitButton_node, ← isQuitButton_node, ← isResizeButton_node,
    ← isResizeButton_node, h]

end Widget

/-! ### Runs of the placer -/

/-- Every mapped widget agrees; a hidden button may do otherwise while its toplevel is not mapped.
-/
def AllAgree (s : AppState) : Prop :=
  ∀ q w o, s.widgets q = some w → w.geomParams.isSome → w.parent = some o →
    (w.Hidden → RootOrMapped s o) → w.Agrees

/-- The condition on a run of the placer on a mapped widget `p`: every widget that moves fits; when
`p` itself does not move, `stable` holds; when `p` is being mapped, its hidden buttons move, or
agree already. -/
structure PlacerAgrees (window : Size) (s : AppState) (p : Ptr) (first stable : Prop) : Prop where
  moves : ∀ o pw, (∃ w, s.widgets p = some w ∧ w.parent = some o) → s.widgets o = some pw →
    ∀ q K w, Reached s.widgets p pw.content q K → s.widgets q = some w →
      w.target K ≠ w.screenLocation → w.Fits window (w.target K)
  stays : ∀ w o pw, s.widgets p = some w → w.parent = some o → s.widgets o = some pw →
    w.geomParams.isSome → w.target pw.content = w.screenLocation →
    (w.Hidden → RootOrMapped s o) → stable
  hidden : first → ∀ w o pw c cw, s.widgets p = some w → w.parent = some o →
    s.widgets o = some pw → s.widgets c = some cw → cw.parent = some p → cw.geomParams.isSome →
    cw.Hidden → cw.Agrees ∨ w.target pw.content ≠ w.screenLocation ∧
      cw.target (w.moved (w.target pw.content)).content ≠ cw.screenLocation

theorem PlacerAgrees.mono {window : Size} {s : AppState} {p : Ptr} {first first' stable : Prop}
    (h : PlacerAgrees window s p first stable) (hfirst : first' → first) :
    PlacerAgrees window s p first' stable :=
  ⟨h.moves, h.stays, fun hf => h.hidden (hfirst hf)⟩

/-- A frame or a button without border and without a content area of its own. -/
def Widget.Bare (w : Widget) : Prop :=
  match w.attrs with
  | .frame a => a.borderWidth = 0 ∧ w.contentRect = .screenLocation
  | .button a => a.borderWidth = 0 ∧ w.contentRect = .screenLocation
  | .toplevel _ => False

/-- Before `ei_place`: the widget is mapped already, or bare. -/
def PlaceAgrees (s : AppState) (p : Ptr) : Prop :=
  ∀ w, s.widgets p = some w → w.geomParams = none → w.Bare

/-- The content area of the widget fits the border width that it is given, once a configure function
has emptied it: none without a content area of its own, or the same as before for a toplevel. -/
def Widget.FitsBorder (w : Widget) (borderWidth : ℤ) : Prop :=
  match w.attrs with
  | .frame _ | .button _ =>
      match w.contentRect with
      | .screenLocation => borderWidth = 0
      | .own _ => insetRect w.screenLocation borderWidth = eiRectZero
  | .toplevel a => borderWidth = a.borderWidth

/-- Before a configure function: no border width is given, or the content area fits it. A hidden
button, which is configured while its toplevel is not mapped, agrees already. -/
def BorderAgrees (s : AppState) (p : Ptr) (borderWidth : Option ℤ) : Prop :=
  ∀ w o, s.widgets p = some w → w.parent = some o →
    match borderWidth with
    | none => w.Hidden → ¬ RootOrMapped s o → w.Agrees
    | some borderWidth => w.FitsBorder borderWidth

namespace Widget

variable {w : Widget}

theorem Bare.agrees (h : w.Bare) : w.Agrees := by
  cases ha : w.attrs with
  | frame a | button a =>
    simp only [Bare, ha] at h
    simp only [Agrees, ha, h.1, content, h.2, insetRect_zero]
  | toplevel a => simp [Bare, ha] at h

/-- What a configure function assigns agrees with the border that it is given. -/
theorem FitsBorder.agrees {borderWidth : ℤ} {size : Size} {attrs : Attrs}
    (h : w.FitsBorder borderWidth)
    (hattrs : (∃ a a', w.attrs = .frame a ∧ attrs = .frame a' ∧ a'.borderWidth = borderWidth) ∨
      ∃ a a', w.attrs = .button a ∧ attrs = .button a' ∧ a'.borderWidth = borderWidth) :
    (w.reconfigure size (configuredContent w (some borderWidth)) attrs).Agrees := by
  have hcontent : (w.reconfigure size (configuredContent w (some borderWidth)) attrs).content =
      insetRect w.screenLocation borderWidth := by
    have h : match w.contentRect with
        | .screenLocation => borderWidth = 0
        | .own _ => insetRect w.screenLocation borderWidth = eiRectZero := by
      rcases hattrs with ⟨a, -, ha, -⟩ | ⟨a, -, ha, -⟩ <;> simpa only [FitsBorder, ha] using h
    cases hc : w.contentRect with
    | screenLocation =>
      simp only [hc] at h
      simp only [content, reconfigure, configuredContent, hc, h, insetRect_zero]
    | own rect =>
      simp only [hc] at h
      simp only [content, reconfigure, configuredContent, hc, h]
  rcases hattrs with ⟨a, a', -, rfl, hb⟩ | ⟨a, a', -, rfl, hb⟩
  · simp only [Agrees, reconfigure, hb]
    exact hcontent
  · simp only [Agrees, reconfigure, hb]
    exact hcontent

/-- Without a border width a configure function leaves the agreement as it is. -/
theorem Agrees.reconfigure {size : Size} {attrs : Attrs} (h : w.Agrees)
    (hattrs : (∃ a a', w.attrs = .frame a ∧ attrs = .frame a' ∧ a'.borderWidth = a.borderWidth) ∨
      ∃ a a', w.attrs = .button a ∧ attrs = .button a' ∧ a'.borderWidth = a.borderWidth) :
    (w.reconfigure size (configuredContent w none) attrs).Agrees := by
  rcases hattrs with ⟨a, a', ha, rfl, hb⟩ | ⟨a, a', ha, rfl, hb⟩
  · simp only [Agrees, ha] at h
    simp only [Agrees, Widget.reconfigure, hb]
    exact h
  · simp only [Agrees, ha] at h
    simp only [Agrees, Widget.reconfigure, hb]
    exact h

end Widget

/-- The widgets other than `p` agree, the hidden buttons of `p` apart when it is being mapped. -/
def AgreeBut (s : AppState) (p : Ptr) (first : Prop) : Prop :=
  ∀ q w o, q ≠ p → s.widgets q = some w → w.geomParams.isSome → w.parent = some o →
    (w.Hidden → RootOrMapped s o ∧ ¬ (o = p ∧ first)) → w.Agrees

section Rerun

variable {window : Size} {s s' : AppState} {p : Ptr} {m' : Ptr → Option Widget} {K : Rect}

/-- A run of the placer leaves a record alone, or comes to it. -/
theorem Relaid.rerun_or_same (h : Relaid window s m' p K) (q : Ptr) : m' q = s.widgets q ∨
    ∃ L, m' q = (s.widgets q).map (·.rerun window L) := by
  by_cases hq : s.InSubtree q p
  · rcases hq with rfl | hq
    · exact Or.inr ⟨K, h.start⟩
    · obtain ⟨o, hqo, hop⟩ := Relation.TransGen.head'_iff.mp hq
      have ho : s.InSubtree o p := Relation.reflTransGen_iff_eq_or_transGen.mp hop |>.imp_left
        Eq.symm
      rcases h.below q o ho hqo with ⟨hq, -⟩ | ⟨_, _, -, -, -, -, hq⟩
      · exact Or.inl hq
      · exact Or.inr ⟨_, hq⟩
  · exact Or.inl (h.outside q hq)

/-- What a run of the placer keeps of a record. -/
theorem Relaid.exists_old (h : Relaid window s m' p K) {q : Ptr} {w' : Widget}
    (hw' : m' q = some w') : ∃ w, s.widgets q = some w ∧ w'.node = w.node ∧
      w'.geomParams = w.geomParams := by
  rcases h.rerun_or_same q with hq | ⟨L, hq⟩
  · exact ⟨w', hq.symm.trans hw', rfl, rfl⟩
  · rw [hw', eq_comm, Option.map_eq_some_iff] at hq
    obtain ⟨w, hw, rfl⟩ := hq
    exact ⟨w, hw, w.node_rerun window L, w.geomParams_rerun window L⟩

theorem Reached.inSubtree {q : Ptr} {L : Rect} (h : Reached s.widgets p K q L) :
    s.InSubtree q p := by
  induction h with
  | start => exact Or.inl rfl
  | child _ _ _ hc hparent ih =>
    exact Or.inr (Relation.TransGen.head' ⟨_, AppState.nodes_of_widgets hc, hparent⟩
      (Relation.reflTransGen_iff_eq_or_transGen.mpr (ih.imp_left Eq.symm)))

/-- The placer comes to `p` once, at the start. -/
theorem Reached.eq_start (hs : WellFormed s) {q : Ptr} {L : Rect}
    (h : Reached s.widgets p K q L) (hq : q = p) : L = K := by
  cases h with
  | start => rfl
  | child h _ _ hc hparent =>
    subst hq
    have hchild : nodeLinks.ChildOf s.nodes q _ := ⟨_, AppState.nodes_of_widgets hc, hparent⟩
    exact absurd (Relation.TransGen.head' hchild
      (Relation.reflTransGen_iff_eq_or_transGen.mpr (h.inSubtree.imp_left Eq.symm)))
      (hs.linked.not_below_self q)

theorem RootOrMapped.of_widgets {q : Ptr} (h : RootOrMapped s' q)
    (hroot : s'.rootWidget = s.rootWidget)
    (hold : ∀ w', s'.widgets q = some w' → w'.geomParams.isSome →
      ∃ w, s.widgets q = some w ∧ w.geomParams.isSome) : RootOrMapped s q := by
  rcases h with hr | ⟨w', hw', hg⟩
  · exact Or.inl (hroot ▸ hr)
  · exact Or.inr (hold w' hw' hg)

/-- **A run of the placer that meets the condition leaves widgets that agree.** -/
theorem AllAgree.rerun {first stable : Prop} (hs : WellFormed s) (hbut : AgreeBut s p first)
    (hfirst : first → ∀ w, s.widgets p = some w → w.geomParams.isSome)
    (hstable : stable → ∀ w o, s.widgets p = some w → w.parent = some o → w.geomParams.isSome →
      (w.Hidden → RootOrMapped s o) → w.Agrees)
    (hcond : PlacerAgrees window s p first stable) (h : Rerun window s s' p) : AllAgree s' := by
  have hrootWidget := h.rootWidget_eq
  obtain ⟨w, hp, ⟨hg, rfl⟩ | ⟨o, pw, m', rects, ho, hpo, rfl, hrelaid⟩⟩ := h
  · -- The widget is not mapped: the placer does nothing.
    have hnone : ¬ w.geomParams.isSome := by simp [hg]
    intro q v x hq hgq hx hhid
    refine hbut q v x (fun hqp => ?_) hq hgq hx fun hh => ⟨hhid hh, fun hxp => ?_⟩
    · subst hqp
      exact hnone (Option.some.inj (hq.symm.trans hp) ▸ hgq)
    · exact hnone (hfirst hxp.2 w hp)
  have hmoves := hcond.moves o pw ⟨w, hp, ho⟩ hpo
  have hop : nodeLinks.ChildOf s.nodes p o := ⟨w.node, AppState.nodes_of_widgets hp, ho⟩
  have hmapped : ∀ {x}, RootOrMapped (s.relayout window m' rects) x → RootOrMapped s x :=
    fun {x} h => h.of_widgets hrootWidget fun u' hu' hg => by
      obtain ⟨u, hu, -, hgu⟩ := hrelaid.exists_old hu'
      exact ⟨u, hu, hgu ▸ hg⟩
  -- A widget to which the placer comes fits when it moves.
  have hreached : ∀ {q K v}, Reached s.widgets p pw.content q K → s.widgets q = some v →
      (v.target K = v.screenLocation → v.Agrees) → (v.rerun window K).Agrees := by
    intro q K v hreach hv hold
    by_cases ht : v.target K = v.screenLocation
    · rw [Widget.rerun_of_eq ht]
      exact hold ht
    · rw [Widget.rerun_of_ne ht]
      exact Widget.agrees_settled_iff.mpr (hmoves q K v hreach hv ht)
  intro q v' x hq' hgq' hx hhid
  obtain ⟨v, hq, hnode, hgq⟩ := hrelaid.exists_old hq'
  have hxv : v.parent = some x := (congrArg Node.parent hnode).symm.trans hx
  have hgv : v.geomParams.isSome := hgq ▸ hgq'
  have hold : v.Hidden → RootOrMapped s x := fun hh =>
    hmapped (hhid ((Widget.hidden_of_node hnode).mpr hh))
  have hqx : nodeLinks.ChildOf s.nodes q x := ⟨v.node, AppState.nodes_of_widgets hq, hxv⟩
  by_cases hqp : q = p
  · -- The widget itself, under its parent.
    subst hqp
    obtain rfl := hqx.right_unique hop
    obtain rfl := Option.some.inj (hp.symm.trans hq)
    obtain rfl := Option.some.inj (hq'.symm.trans (hrelaid.start.trans (by
      rw [hp, Option.map_some])))
    exact hreached .start hp fun ht =>
      hstable (hcond.stays w x pw hp ho hpo hgv ht hold) w x hp ho hgv hold
  by_cases hxp : s.InSubtree x p
  · rcases hrelaid.below q x hxp hqx with ⟨hq₁, -, hstay⟩ | ⟨wx, Kx, hwx, hreach, hmove, -, hq₁⟩
    · -- The parent is not moved.
      obtain rfl := Option.some.inj (hq'.symm.trans (hq₁.trans hq))
      by_cases hhidden : v'.Hidden ∧ x = p ∧ first
      · obtain ⟨hh, rfl, hf⟩ := hhidden
        refine (hcond.hidden hf w o pw q v' hp ho hpo hq hxv hgv hh).resolve_right ?_
        exact fun hmoved => hmoved.1 (hstay rfl w hp)
      · exact hbut q v' x hqp hq hgv hxv fun hh => ⟨hold hh, fun hxf => hhidden ⟨hh, hxf⟩⟩
    · -- The parent is moved, and the placer comes to the widget.
      obtain rfl := Option.some.inj (hq'.symm.trans (hq₁.trans (by rw [hq, Option.map_some])))
      refine hreached (.child hreach hwx hmove hq hxv) hq fun ht => ?_
      by_cases hhidden : v.Hidden ∧ x = p ∧ first
      · obtain ⟨hh, rfl, hf⟩ := hhidden
        obtain rfl := hreach.eq_start hs rfl
        obtain rfl := Option.some.inj (hp.symm.trans hwx)
        exact (hcond.hidden hf w o pw q v hp ho hpo hq hxv hgv hh).resolve_right fun hmoved =>
          hmoved.2 ht
      · exact hbut q v x hqp hq hgv hxv fun hh => ⟨hold hh, fun hxf => hhidden ⟨hh, hxf⟩⟩
  · have hqout : ¬ s.InSubtree q p := fun hsub =>
      hxp ((below_iff_of_childOf hqx p).mp (hsub.resolve_left hqp))
    obtain rfl := Option.some.inj (hq'.symm.trans ((hrelaid.outside q hqout).trans hq))
    exact hbut q v' x hqp hq hgv hxv fun hh => ⟨hold hh, fun hxf => hxp (Or.inl hxf.1)⟩

end Rerun

/-! ### Steps -/

/-- What a run of the program keeps when every step meets its condition. -/
structure ContentInvariant (window : Size) (s : AppState) : Prop where
  wellFormed : WellFormed s
  bindings : ∃ bs, HasBindings s bs
  root : ∃ r w, s.rootWidget = some r ∧ s.widgets r = some w ∧
    w.screenLocation = Rect.ofSize window
  agree : AllAgree s

namespace ContentInvariant

variable {window : Size} {s s₁ s' : AppState} {p : Ptr} {w w' : Widget}

theorem hasWindow (h : ContentInvariant window s) : s.HasWindow window := by
  obtain ⟨r, w, hr, hw, hloc⟩ := h.root
  exact ⟨r, w, hr, hw, by rw [hloc, Rect.ofSize]⟩

theorem rootFits (h : ContentInvariant window s) : RootFits window s := by
  intro r' v hr' hv
  obtain ⟨r, w, hr, hw, hloc⟩ := h.root
  obtain rfl := Option.some.inj (hr.symm.trans hr')
  rw [← Option.some.inj (hw.symm.trans hv), hloc]

/-- The second half of an operation, on the state that the first half leaves. -/
theorem rerun {first stable : Prop} (hs₁ : WellFormed s₁) (hl₁ : ∃ bs, HasBindings s₁ bs)
    (hroot₁ : ∃ r w, s₁.rootWidget = some r ∧ s₁.widgets r = some w ∧
      w.screenLocation = Rect.ofSize window)
    (hbut : AgreeBut s₁ p first)
    (hfirst : first → ∀ w, s₁.widgets p = some w → w.geomParams.isSome)
    (hstable : stable → ∀ w o, s₁.widgets p = some w → w.parent = some o → w.geomParams.isSome →
      (w.Hidden → RootOrMapped s₁ o) → w.Agrees)
    (hcond : PlacerAgrees window s₁ p first stable) (hrun : Rerun window s₁ s' p) :
    ContentInvariant window s' := by
  obtain ⟨bs, hl⟩ := hl₁
  obtain ⟨r, w, hr, hw, hloc⟩ := hroot₁
  exact ⟨hs₁.congr hrun.skeleton_eq, ⟨bs, hl.congr hrun.skeleton_eq⟩,
    ⟨r, w, hrun.rootWidget_eq.trans hr, (hrun.root_eq hs₁ hr).trans hw, hloc⟩,
    .rerun hs₁ hbut hfirst hstable hcond hrun⟩

/-- **Assigning a record and running the placer on it.** -/
theorem assigned {stable : Prop} (h : ContentInvariant window s) (ha : Assigned s s₁ p w w')
    (hstable : stable → ∀ o, w'.parent = some o → w'.geomParams.isSome →
      (w'.Hidden → RootOrMapped s o) → w'.Agrees)
    (hcond : PlacerAgrees window s₁ p (w.geomParams = none ∧ w'.geomParams.isSome) stable)
    (hrun : Rerun window s₁ s' p) : ContentInvariant window s' := by
  have hrootWidget : s₁.rootWidget = s.rootWidget := by rw [ha.eq]; rfl
  refine rerun (ha.wellFormed h.wellFormed) ?_ ?_ ?_ (fun hf v hv => ?_)
    (fun hst v o hv ho hg hhid => ?_) hcond hrun
  · obtain ⟨bs, hl⟩ := h.bindings
    exact ⟨bs, ha.eq ▸ hl.of_binds rfl rfl rfl⟩
  · obtain ⟨r, v, hr, hv, hloc⟩ := h.root
    by_cases hrp : r = p
    · subst hrp
      obtain rfl := Option.some.inj (ha.old.symm.trans hv)
      exact ⟨r, w', hrootWidget.trans hr, ha.new, ha.screenLocation.trans hloc⟩
    · exact ⟨r, v, hrootWidget.trans hr, (ha.other hrp).trans hv, hloc⟩
  · intro q v o hqp hv hg ho hhid
    rw [ha.other hqp] at hv
    refine h.agree q v o hv hg ho fun hh => ?_
    obtain ⟨hmapped, hnew⟩ := hhid hh
    refine hmapped.of_widgets hrootWidget fun u hu hgu => ?_
    by_cases hop : o = p
    · subst hop
      obtain rfl := Option.some.inj (ha.new.symm.trans hu)
      refine ⟨w, ha.old, Option.isSome_iff_ne_none.mpr fun hnone => hnew ⟨rfl, hnone, hgu⟩⟩
    · exact ⟨u, (ha.other hop).symm.trans hu, hgu⟩
  · exact Option.some.inj (ha.new.symm.trans hv) ▸ hf.2
  · obtain rfl := Option.some.inj (ha.new.symm.trans hv)
    refine hstable hst o ho hg fun hh => (hhid hh).of_widgets hrootWidget fun u hu hgu => ?_
    have hop := ((ha.wellFormed h.wellFormed).ne_parent hv ho).symm
    exact ⟨u, (ha.other hop).symm.trans hu, hgu⟩

/-- A new widget is not mapped, and neither is the parent of a new hidden button. -/
theorem create [Hardware] {c : WidgetClass} {parent : Ptr} {d : Option ℕ}
    (h : ContentInvariant window s) (hc : Created s s' c parent d) :
    ContentInvariant window s' := by
  have hs := h.wellFormed
  have hold : ∀ {q w'}, q < s.nextWidget → s'.widgets q = some w' →
      ∃ w, s.widgets q = some w ∧ w'.body = w.body := fun hq hw' => hc.bodies.exists_old hq hw'
  have hlook : ∀ {w w' : Widget}, w'.body = w.body → w'.look = w.look := fun {w w'} hb => by
    rw [Widget.look, Widget.look, Widget.parent_of_body hb, Widget.geomParams_of_body hb,
      Widget.screenLocation_of_body hb, Widget.attrs_of_body hb,
      show w'.contentRect = w.contentRect from
        show w'.body.contentRect = w.body.contentRect by rw [hb]]
  obtain ⟨u, hu, hunmapped⟩ := hc.unmapped
  obtain ⟨bs, hl⟩ := h.bindings
  obtain ⟨bs', hl', -⟩ := hc.bindings bs hl
  refine ⟨hc.grown.wellFormed, ⟨_, hl'⟩, ?_, fun q w' o hw' hg ho hhid => ?_⟩
  · obtain ⟨r, w, hr, hw, hloc⟩ := h.root
    have := hc.bodies r (hs.rootWidget_lt r hr)
    rw [hw, Option.map_some, Option.map_eq_some_iff] at this
    obtain ⟨w', hw', hb⟩ := this
    exact ⟨r, w', hc.grown.rootWidget.trans hr, hw',
      (Widget.screenLocation_of_body hb).trans hloc⟩
  · by_cases hlt : q < s.nextWidget
    · obtain ⟨w, hw, hb⟩ := hold hlt hw'
      have ho : w.parent = some o := (Widget.parent_of_body hb).symm.trans ho
      have hoq := hs.linked.rank_lt q o ⟨w.node, AppState.nodes_of_widgets hw, ho⟩
      refine (Widget.agrees_of_look (hlook hb)).mpr (h.agree q w o hw
        (Widget.geomParams_of_body hb ▸ hg) ho fun hh => ?_)
      refine (hhid ((Widget.hidden_of_look (hlook hb)).mpr hh)).of_widgets hc.grown.rootWidget
        fun pw' hpw' hgp => ?_
      obtain ⟨pw, hpw, hpb⟩ := hold (Nat.lt_trans hoq hlt) hpw'
      exact ⟨pw, hpw, Widget.geomParams_of_body hpb ▸ hgp⟩
    · by_cases hq : q = s.nextWidget
      · subst hq
        obtain rfl := Option.some.inj (hu.symm.trans hw')
        rw [hunmapped] at hg
        exact absurd hg (by simp)
      · -- A hidden button, whose parent is the new toplevel.
        have hq' : s'.Live q := AppState.live_iff.mpr ⟨w', hw'⟩
        obtain ⟨n, hn, hclass, hparent⟩ := hc.hidden_of_lt
          (Nat.lt_of_le_of_ne (Nat.le_of_not_lt hlt) (Ne.symm hq)) hq'
        obtain rfl := Option.some.inj ((AppState.nodes_of_widgets hw').symm.trans hn)
        obtain rfl := Option.some.inj (ho.symm.trans hparent)
        have hhidden : w'.Hidden := Widget.hidden_of_class hclass
        rcases hhid hhidden with hr | ⟨v, hv, hgv⟩
        · exact absurd (hs.rootWidget_lt _ (hc.grown.rootWidget ▸ hr)) (Nat.lt_irrefl _)
        · obtain rfl := Option.some.inj (hu.symm.trans hv)
          rw [hunmapped] at hgv
          exact absurd hgv (by simp)

/-- What `ei_frame_configure` and `ei_button_configure` assign agrees when the border fits. -/
theorem agrees_reconfigure {o : Ptr} {size : Size} {attrs : Attrs} {borderWidth : Option ℤ}
    (h : ContentInvariant window s) (hp : s.widgets p = some w)
    (hst : BorderAgrees s p borderWidth)
    (hattrs : (∃ a a', w.attrs = .frame a ∧ attrs = .frame a' ∧
        a'.borderWidth = borderWidth.getD a.borderWidth) ∨
      ∃ a a', w.attrs = .button a ∧ attrs = .button a' ∧
        a'.borderWidth = borderWidth.getD a.borderWidth)
    (ho : w.parent = some o) (hg : w.geomParams.isSome) :
    (w.reconfigure size (configuredContent w borderWidth) attrs).Agrees := by
  have hst := hst w o hp ho
  cases borderWidth with
  | none =>
    refine Widget.Agrees.reconfigure ?_ hattrs
    by_cases hh : w.Hidden ∧ ¬ RootOrMapped s o
    · exact hst hh.1 hh.2
    · exact h.agree p w o hp hg ho fun hhidden => not_not.mp fun hm => hh ⟨hhidden, hm⟩
  | some borderWidth => exact Widget.FitsBorder.agrees hst hattrs

/-- What the assignments of `ei_toplevel_configure` keep of the toplevel `w`: it is not mapped by
them, and it agrees if it did, unless another border width is given. -/
def Kept (borderWidth : Option ℤ) (w w₁ : Widget) : Prop :=
  w₁.parent = w.parent ∧ w₁.geomParams.isSome = w.geomParams.isSome ∧
    ((∀ a, w.attrs = .toplevel a → borderWidth.getD a.borderWidth = a.borderWidth) →
      (∀ a₁, w₁.attrs = .toplevel a₁ → ∃ a, w.attrs = .toplevel a ∧
        a₁.borderWidth = a.borderWidth) ∧ (w.Agrees → w₁.Agrees))

theorem Kept.of_look {borderWidth : Option ℤ} {w₁ w₂ : Widget} (h : Kept borderWidth w w₁)
    (hlook : w₂.look = w₁.look) : Kept borderWidth w w₂ := by
  have hagrees := Widget.agrees_of_look hlook
  simp only [Widget.look, Prod.mk.injEq] at hlook
  rw [Kept, hlook.1, hlook.2.1, hlook.2.2.2.2, hagrees]
  exact h

theorem Kept.setToplevel {borderWidth : Option ℤ} {w₁ : Widget} {a₁ : ToplevelAttrs}
    {f : ToplevelAttrs → ToplevelAttrs} (h : Kept borderWidth w w₁)
    (ha₁ : w₁.attrs = .toplevel a₁) (hrect : (f a₁).drawRect = a₁.drawRect)
    (hborder : (f a₁).borderWidth = a₁.borderWidth ∨
      (f a₁).borderWidth = borderWidth.getD a₁.borderWidth) :
    Kept borderWidth w { w₁ with attrs := .toplevel (f a₁) } := by
  refine ⟨h.1, h.2.1, fun hsame => ?_⟩
  obtain ⟨hattrs, hagrees⟩ := h.2.2 hsame
  obtain ⟨a, ha, hb⟩ := hattrs a₁ ha₁
  have hf : (f a₁).borderWidth = a₁.borderWidth := hborder.elim id fun hf => by
    rw [hf, hb, hsame a ha]
  refine ⟨fun a₂ ha₂ => ⟨a, ha, ?_⟩, fun hw => ?_⟩
  · rw [← Attrs.toplevel.inj ha₂, hf, hb]
  · have hw₁ := hagrees hw
    simp only [Widget.Agrees, ha₁] at hw₁
    simp only [Widget.Agrees, hf, hrect]
    exact hw₁

theorem kept_of_toplevelAssign {args : ToplevelArgs} (hs : RootFits window s)
    (h : GuiLibrary.toplevelAssign s p args = some s₁) (hw' : s₁.widgets p = some w') :
    ∃ w, s.widgets p = some w ∧ Kept args.borderWidth w w' := by
  have hkeep : RootFits window s₁ ∧ ∀ w', s₁.widgets p = some w' →
      ∃ w, s.widgets p = some w ∧ Kept args.borderWidth w w' := by
    refine toplevelAssign_of_steps (R := fun s₁ => RootFits window s₁ ∧ ∀ w',
      s₁.widgets p = some w' → ∃ w, s.widgets p = some w ∧ Kept args.borderWidth w w') ?_ ?_ ?_
      ⟨hs, fun w hw => ⟨w, hw, rfl, rfl, fun _ => ⟨fun a ha => ⟨a, ha, rfl⟩, id⟩⟩⟩ h
    · rintro s₁ s₂ size ⟨hs₁, hold⟩ h₂
      have hclear : Clears window p s₁ s₂ := .modifyWidget h₂ fun _ => rfl
      refine ⟨hclear.rootFits hs₁, fun w₂ hw₂ => ?_⟩
      obtain ⟨w₁, hw₁, rfl⟩ := Option.map_eq_some_iff.mp h₂
      obtain rfl := Option.some.inj ((AppState.widgets_setWidget_self _ _ _).symm.trans hw₂)
      obtain ⟨w, hw, hkept⟩ := hold w₁ hw₁
      exact ⟨w, hw, hkept.of_look rfl⟩
    · rintro s₁ s₂ f ⟨hs₁, hold⟩ h₂ hf
      have hclear : Clears window p s₁ s₂ := .modifyToplevel h₂ fun a => (hf a).1
      refine ⟨hclear.rootFits hs₁, fun w₂ hw₂ => ?_⟩
      obtain ⟨w₁, hw₁, h₂⟩ := Option.bind_eq_some_iff.mp h₂
      split at h₂
      · next a₁ ha₁ =>
        obtain rfl := Option.some.inj h₂
        obtain rfl := Option.some.inj ((AppState.widgets_setWidget_self _ _ _).symm.trans hw₂)
        obtain ⟨w, hw, hkept⟩ := hold w₁ hw₁
        exact ⟨w, hw, hkept.setToplevel ha₁ (hf a₁).1 (hf a₁).2⟩
      · simp at h₂
      · simp at h₂
    · rintro s₁ s₂ isButton flag ⟨hs₁, hold⟩ h₂ - -
      have hclear : Clears window (p + 1) s₁ s₂ := withdrawButton_clears hs₁ h₂
      refine ⟨hclear.rootFits hs₁, fun w₂ hw₂ => ?_⟩
      obtain ⟨w₁, hw₁, hlook⟩ := (hw₂ ▸ hclear.look p (Nat.succ_ne_self p).symm).exists_old
      obtain ⟨w, hw, hkept⟩ := hold w₁ hw₁
      exact ⟨w, hw, hkept.of_look hlook⟩
  exact hkeep.2 w' hw'

/-- `ei_toplevel_configure` completes on toplevels. -/
theorem toplevel_of_toplevelAssign {args : ToplevelArgs}
    (h : GuiLibrary.toplevelAssign s p args = some s₁) (hw : s.widgets p = some w) :
    ∃ a, w.attrs = .toplevel a := by
  simp only [GuiLibrary.toplevelAssign, Option.bind_eq_bind, Option.bind_eq_some_iff] at h
  obtain ⟨s₂, h₂, s₃, h₃, -⟩ := h
  obtain ⟨v, hv, rfl⟩ := Option.map_eq_some_iff.mp h₂
  obtain rfl := Option.some.inj (hw.symm.trans hv)
  obtain ⟨u, hu, h₃⟩ := Option.bind_eq_some_iff.mp h₃
  obtain rfl := Option.some.inj ((AppState.widgets_setWidget_self _ _ _).symm.trans hu)
  split at h₃
  · next a ha => exact ⟨a, ha⟩
  · simp at h₃
  · simp at h₃

/-- When the toplevel is not moved, its content area and its painted rectangle stay as they are. -/
theorem agrees_of_toplevelAssign {args : ToplevelArgs} {o : Ptr} (h : ContentInvariant window s)
    (h₁ : GuiLibrary.toplevelAssign s p args = some s₁) (hst : BorderAgrees s p args.borderWidth)
    (hw' : s₁.widgets p = some w') (ho : w'.parent = some o) (hg : w'.geomParams.isSome) :
    w'.Agrees := by
  obtain ⟨w, hw, hparent, hsome, hkept⟩ := kept_of_toplevelAssign h.rootFits h₁ hw'
  obtain ⟨a, ha⟩ := toplevel_of_toplevelAssign h₁ hw
  have ho : w.parent = some o := hparent.symm.trans ho
  have hnothidden : ¬ w.Hidden := fun hh => by
    simp [Widget.Hidden, Widget.isQuitButton, Widget.isResizeButton, ha] at hh
  refine (hkept fun b hb => ?_).2 (h.agree p w o hw (hsome ▸ hg) ho fun hh => absurd hh hnothidden)
  obtain rfl := Attrs.toplevel.inj (ha.symm.trans hb)
  have hst := hst w o hw ho
  cases hborder : args.borderWidth with
  | none => rfl
  | some borderWidth =>
    simp only [hborder, Widget.FitsBorder, ha] at hst
    rw [Option.getD_some, hst]

/-- **Assigning the attributes of a toplevel and running the placer on it**: the buttons that are
taken away leave the other widgets as they were. -/
theorem toplevelAssigned {args : ToplevelArgs} (h : ContentInvariant window s)
    (h₁ : GuiLibrary.toplevelAssign s p args = some s₁)
    (hcond : PlacerAgrees window s₁ p False (BorderAgrees s p args.borderWidth))
    (hrun : refresh s₁ p = some s') : ContentInvariant window s' := by
  obtain ⟨bs, hl⟩ := h.bindings
  obtain ⟨⟨hs₁, hl₁⟩, -⟩ := toplevelAssign_keeps h.wellFormed hl h₁
  have hclear := toplevelAssign_clears h.rootFits h₁
  obtain ⟨v, hp, -⟩ := Option.bind_eq_some_iff.mp hrun
  obtain ⟨r, u, hr, hu, -⟩ := hs₁.rootWidget_live (AppState.live_iff.mpr ⟨v, hp⟩)
  have hloc : u.screenLocation = Rect.ofSize window := hclear.rootFits h.rootFits r u hr hu
  refine rerun hs₁ hl₁ ⟨r, u, hr, hu, hloc⟩ ?_ (fun hf => hf.elim)
    (fun hst w₁ o hw₁ ho hg _ => h.agrees_of_toplevelAssign h₁ hst hw₁ ho hg) hcond
    (rerun_of_refresh hs₁ ⟨r, u, hr, hu, by rw [hloc, Rect.ofSize]⟩ hrun)
  intro q w₁ o hqp hw₁ hg ho hhid
  obtain ⟨w, hw, hlook⟩ := (hw₁ ▸ hclear.look q hqp).exists_old
  refine (Widget.agrees_of_look hlook).mpr (h.agree q w o hw ?_ ?_ fun hh => ?_)
  · simp only [Widget.look, Prod.mk.injEq] at hlook
    exact hlook.2.1 ▸ hg
  · simp only [Widget.look, Prod.mk.injEq] at hlook
    exact hlook.1 ▸ ho
  · refine (hhid ((Widget.hidden_of_look hlook).mpr hh)).1.of_widgets hclear.rootWidget
      fun pw₁ hpw₁ hgp => ?_
    by_cases hop : o = p
    · subst hop
      obtain ⟨pw, hpw, -, hsome, -⟩ := kept_of_toplevelAssign h.rootFits h₁ hpw₁
      exact ⟨pw, hpw, hsome ▸ hgp⟩
    · obtain ⟨pw, hpw, hplook⟩ := (hpw₁ ▸ hclear.look o hop).exists_old
      simp only [Widget.look, Prod.mk.injEq] at hplook
      exact ⟨pw, hpw, hplook.2.1 ▸ hgp⟩

end ContentInvariant

/-! ### The runs -/

section Runs

variable [Hardware]

/-- A call of the library, when it completes and when the run of the placer in it meets its
condition. A widget that `ei_place` maps shows its hidden buttons. -/
inductive ContentStep (window : Size) : AppState → AppState → Prop
  | create {s s' : AppState} {c : WidgetClass} {parent wid : Ptr} {d : Option ℕ}
      (hparent : s.Live parent) (h : eiWidgetCreate s c (some parent) d = some (s', wid)) :
      ContentStep window s s'
  | place {s s' : AppState} {p : Ptr} {args : PlaceArgs}
      (hcond : ∀ s₁, placeAssign s p args = some s₁ →
        PlacerAgrees window s₁ p (∃ w, s.widgets p = some w ∧ w.geomParams = none)
          (PlaceAgrees s p))
      (h : eiPlace s p args = some s') : ContentStep window s s'
  | frameConfigure {s s' : AppState} {p : Ptr} {args : LabelArgs}
      (hcond : ∀ s₁, frameAssign s p args = some s₁ →
        PlacerAgrees window s₁ p False (BorderAgrees s p args.borderWidth))
      (h : eiFrameConfigure s p args = some s') : ContentStep window s s'
  | buttonConfigure {s s' : AppState} {p : Ptr} {args : ButtonArgs}
      (hcond : ∀ s₁, buttonAssign s p args = some s₁ →
        PlacerAgrees window s₁ p False (BorderAgrees s p args.borderWidth))
      (h : eiButtonConfigure s p args = some s') : ContentStep window s s'
  | toplevelConfigure {s s' : AppState} {p : Ptr} {args : ToplevelArgs}
      (hcond : ∀ s₁, toplevelAssign s p args = some s₁ →
        PlacerAgrees window s₁ p False (BorderAgrees s p args.borderWidth))
      (h : eiToplevelConfigure s p args = some s') : ContentStep window s s'

variable {window size : Size} {s s' : AppState}

theorem Started.contentInvariant {pickSurface : Surface} (h : Started s size pickSurface) :
    ContentInvariant size s := by
  obtain ⟨bs, hl, -⟩ := h.bindings
  refine ⟨h.wellFormed, ⟨bs, hl⟩, ⟨0, startedRoot size, h.rootWidget, ?_, rfl⟩,
    fun q w o hw hg ho hhid => ?_⟩
  · rw [h.widgets, Function.update_self]
  · obtain ⟨rfl, -⟩ := h.eq_zero (AppState.nodes_of_widgets hw)
    rw [h.widgets, Function.update_self] at hw
    obtain rfl := Option.some.inj hw
    have hnone : (startedRoot size).geomParams = none := rfl
    rw [hnone] at hg
    exact absurd hg (by simp)

theorem ContentInvariant.step (h : ContentInvariant window s) (hstep : ContentStep window s s') :
    ContentInvariant window s' := by
  have hrefresh : ∀ {s₁ p w w'}, Assigned s s₁ p w w' → refresh s₁ p = some s' →
      Rerun window s₁ s' p := fun ha hrun =>
    rerun_of_refresh (ha.wellFormed h.wellFormed) (ha.hasWindow h.hasWindow) hrun
  cases hstep with
  | create hparent hrun =>
    obtain ⟨hc, -⟩ := eiWidgetCreate_created h.wellFormed hparent hrun
    exact h.create hc
  | @place p args hcond hrun =>
    rw [eiPlace_eq] at hrun
    obtain ⟨s₁, h₁, hrun⟩ := Option.bind_eq_some_iff.mp hrun
    obtain ⟨w, ha⟩ := placeAssign_assigned h₁
    have hstable : PlaceAgrees s p → ∀ o, w.parent = some o → (w.Hidden → RootOrMapped s o) →
        w.Agrees := fun hst o ho hhid => by
      by_cases hg : w.geomParams = none
      · exact (hst w ha.old hg).agrees
      · exact h.agree p w o ha.old (Option.isSome_iff_ne_none.mpr hg) ho hhid
    exact h.assigned ha (fun hst o ho _ hhid => hstable hst o ho hhid)
      ((hcond s₁ h₁).mono fun hf => ⟨w, ha.old, hf.1⟩)
      (rerun_of_runplacer (ha.wellFormed h.wellFormed) (ha.hasWindow h.hasWindow) hrun)
  | @frameConfigure p args hcond hrun =>
    rw [eiFrameConfigure_eq] at hrun
    obtain ⟨s₁, h₁, hrun⟩ := Option.bind_eq_some_iff.mp hrun
    obtain ⟨w, a, a', hattrs, hlabel, ha⟩ := frameAssign_assigned h₁
    refine h.assigned ha (fun hst o ho hg _ => h.agrees_reconfigure ha.old hst
      (Or.inl ⟨a, a', hattrs, rfl, borderWidth_configureLabel hlabel⟩) ho hg)
      ((hcond s₁ h₁).mono fun hf => ?_) (hrefresh ha hrun)
    have hsome : w.geomParams.isSome := hf.2
    rw [hf.1] at hsome
    exact absurd hsome (by simp)
  | @buttonConfigure p args hcond hrun =>
    rw [eiButtonConfigure_eq] at hrun
    obtain ⟨s₁, h₁, hrun⟩ := Option.bind_eq_some_iff.mp hrun
    obtain ⟨w, a, label, hattrs, hlabel, ha⟩ := buttonAssign_assigned h₁
    refine h.assigned ha (fun hst o ho hg _ => h.agrees_reconfigure ha.old hst
      (Or.inr ⟨a, _, hattrs, rfl, borderWidth_configureLabel hlabel⟩) ho hg)
      ((hcond s₁ h₁).mono fun hf => ?_) (hrefresh ha hrun)
    have hsome : w.geomParams.isSome := hf.2
    rw [hf.1] at hsome
    exact absurd hsome (by simp)
  | @toplevelConfigure p args hcond hrun =>
    rw [eiToplevelConfigure_eq] at hrun
    obtain ⟨s₁, h₁, hrun⟩ := Option.bind_eq_some_iff.mp hrun
    exact h.toplevelAssigned h₁ (hcond s₁ h₁) hrun

theorem contentInvariant_of_run {rootSurface pickSurface : Surface} {s₀ : AppState}
    (h₀ : eiAppCreate size rootSurface pickSurface = some s₀)
    (h : Relation.ReflTransGen (ContentStep size) s₀ s) : ContentInvariant size s := by
  induction h with
  | refl => exact (Started.of_eq h₀).contentInvariant
  | tail _ hstep ih => exact ih.step hstep

/-- **In every state of a run whose steps meet their conditions, the content areas of the mapped
widgets agree with their locations and borders.** -/
theorem contents_agree_of_run {rootSurface pickSurface : Surface} {s₀ : AppState}
    (h₀ : eiAppCreate size rootSurface pickSurface = some s₀)
    (h : Relation.ReflTransGen (ContentStep size) s₀ s) : AllAgree s :=
  (contentInvariant_of_run h₀ h).agree

end Runs

/-! ### A frame in a window -/

/-- The condition on a widget without children: it is not mapped, or it moves and fits. -/
theorem placerAgrees_of_childless {window : Size} {s : AppState} {p : Ptr} {first stable : Prop}
    (hchildless : ∀ c cw, s.widgets c = some cw → cw.parent ≠ some p)
    (hmoves : ∀ w o pw, s.widgets p = some w → w.parent = some o → s.widgets o = some pw →
      w.geomParams = none ∨ w.target pw.content ≠ w.screenLocation ∧
        w.Fits window (w.target pw.content)) : PlacerAgrees window s p first stable := by
  refine ⟨?_, fun w o pw hp ho hpo hg ht _ => ?_, fun _ v o pw c cw _ _ _ hc hcp =>
    absurd hcp (hchildless c cw hc)⟩
  · rintro o pw ⟨w, hp, ho⟩ hpo q K u hreach hu hmove
    obtain ⟨rfl, rfl⟩ := hreach.of_childless hchildless
    obtain rfl := Option.some.inj (hp.symm.trans hu)
    refine (hmoves w o pw hp ho hpo).elim (fun hnone => ?_) fun h => h.2
    rw [Widget.target, hnone] at hmove
    exact absurd rfl hmove
  · rcases hmoves w o pw hp ho hpo with hnone | h
    · simp [hnone] at hg
    · exact absurd ht h.1

section Sample

attribute [local instance] sampleHardware

/-- Where the sample frame is placed. -/
def insidePlace : PlaceArgs where
  x := some 10
  y := some 20
  width := some 100
  height := some 50

theorem isSome_eiFrameConfigure_edge :
    (eiFrameConfigure sampleFrame 1 { borderWidth := some 5 }).isSome := by rfl

/-- The sample frame with a border, before it is placed. -/
def sampleEdged : AppState :=
  (eiFrameConfigure sampleFrame 1 { borderWidth := some 5 }).get isSome_eiFrameConfigure_edge

theorem isSome_eiPlace_edged : (eiPlace sampleEdged 1 insidePlace).isSome := by
  with_unfolding_all rfl

/-- The frame with a border, placed in the window. -/
def sampleEdgedPlaced : AppState := (eiPlace sampleEdged 1 insidePlace).get isSome_eiPlace_edged

/-- Giving a border to the frame, which is not mapped, meets the condition. -/
theorem sampleFrame_borderAgrees {s₁ : AppState} {stable : Prop}
    (h₁ : frameAssign sampleFrame 1 { borderWidth := some 5 } = some s₁) :
    PlacerAgrees ⟨640, 480⟩ s₁ 1 False stable := by
  obtain ⟨w, a, a', -, -, ha⟩ := frameAssign_assigned h₁
  have hunmapped : (sampleFrame.widgets 1).map Widget.geomParams = some none := rfl
  rw [ha.old, Option.map_some, Option.some.injEq] at hunmapped
  refine placerAgrees_of_childless (childless_of_assigned sampleFrame_wellFormed ha
    sampleFrame_noChild) fun v o pw hv _ _ => Or.inl ?_
  rw [← Option.some.inj (ha.new.symm.trans hv)]
  exact hunmapped

/-- The bordered frame and the root, before the frame is placed. -/
theorem sampleEdged_eq : ∃ w root a, sampleEdged.widgets 1 = some w ∧
    sampleEdged.widgets 0 = some root ∧ w.parent = some 0 ∧ w.screenLocation = eiRectZero ∧
    w.attrs = .frame a ∧ a.borderWidth = 5 ∧
    (w.setGeomParams (some (placedParams w insidePlace))).target root.content =
      ⟨⟨10, 20⟩, ⟨100, 50⟩⟩ := by
  have h : (sampleEdged.widgets 1).any fun w => (sampleEdged.widgets 0).any fun root =>
      decide (w.parent = some 0) && decide (w.screenLocation = eiRectZero) &&
        decide ((w.setGeomParams (some (placedParams w insidePlace))).target root.content =
          ⟨⟨10, 20⟩, ⟨100, 50⟩⟩) && match w.attrs with
        | .frame a => decide (a.borderWidth = 5)
        | .button _ | .toplevel _ => false := by with_unfolding_all rfl
  obtain ⟨w, hw, h⟩ := (Option.any_eq_true _ _).mp h
  obtain ⟨root, hroot, h⟩ := (Option.any_eq_true _ _).mp h
  simp only [Bool.and_eq_true, decide_eq_true_eq] at h
  obtain ⟨⟨⟨hparent, hloc⟩, htarget⟩, hattrs⟩ := h
  split at hattrs
  · next a ha =>
    exact ⟨w, root, a, hw, hroot, hparent, hloc, ha, of_decide_eq_true hattrs, htarget⟩
  · simp at hattrs
  · simp at hattrs

/-- Placing the bordered frame in the window meets the condition: it moves, and fits. -/
theorem sampleEdged_placerAgrees {s₁ : AppState} {first stable : Prop} (hs : WellFormed sampleEdged)
    (hchildless : ∀ c cw, sampleEdged.widgets c = some cw → cw.parent ≠ some 1)
    (h₁ : placeAssign sampleEdged 1 insidePlace = some s₁) :
    PlacerAgrees ⟨640, 480⟩ s₁ 1 first stable := by
  obtain ⟨w, ha⟩ := placeAssign_assigned h₁
  obtain ⟨w', root, a, hw, hroot, hparent, hloc, hattrs, hborder, htarget⟩ := sampleEdged_eq
  obtain rfl := Option.some.inj (ha.old.symm.trans hw)
  refine placerAgrees_of_childless (childless_of_assigned hs ha hchildless)
    fun v o pw hv ho hpo => Or.inr ?_
  obtain rfl := Option.some.inj (ha.new.symm.trans hv)
  obtain rfl := Option.some.inj (hparent.symm.trans ho)
  obtain rfl := Option.some.inj (hroot.symm.trans ((ha.other (by decide)).symm.trans hpo))
  have hold : (w.setGeomParams (some (placedParams w insidePlace))).screenLocation =
      eiRectZero := hloc
  rw [htarget, hold]
  refine ⟨by decide, ?_⟩
  have hattrs : (w.setGeomParams (some (placedParams w insidePlace))).attrs = .frame a := hattrs
  rw [Widget.Fits, hattrs]
  simp only [hborder]
  rw [if_neg (by decide)]
  decide

/-- The frame is created, given a border, and placed in the window. -/
theorem contentRun_sampleEdgedPlaced : Relation.ReflTransGen (ContentStep ⟨640, 480⟩)
    (sampleApp ⟨640, 480⟩) sampleEdgedPlaced := by
  have hedge : eiFrameConfigure sampleFrame 1 { borderWidth := some 5 } = some sampleEdged :=
    (Option.some_get _).symm
  have hplace : eiPlace sampleEdged 1 insidePlace = some sampleEdgedPlaced :=
    (Option.some_get _).symm
  have hskel := skeleton_eiFrameConfigure hedge
  have hchildless : ∀ c cw, sampleEdged.widgets c = some cw → cw.parent ≠ some 1 := by
    intro c cw hc
    have hnode := AppState.nodes_of_widgets hc
    rw [AppState.nodes_eq_of_skeleton hskel] at hnode
    obtain ⟨v, hv, hv'⟩ := AppState.nodes_eq_some.mp hnode
    have hparent : cw.parent = v.parent := (congrArg Node.parent hv').symm
    rw [hparent]
    exact sampleFrame_noChild c v hv
  exact .tail (.tail (.single (.create (sampleApp_live ⟨640, 480⟩) eiWidgetCreate_sampleFrame))
    (.frameConfigure (fun s₁ h₁ => sampleFrame_borderAgrees h₁) hedge))
    (.place (fun s₁ h₁ => sampleEdged_placerAgrees (sampleFrame_wellFormed.congr hskel) hchildless
      h₁) hplace)

/-- A frame with a border. -/
theorem contents_agree_of_run_placed : AllAgree sampleEdgedPlaced :=
  contents_agree_of_run (eiAppCreate_sampleApp ⟨640, 480⟩) contentRun_sampleEdgedPlaced

theorem isSome_eiFrameConfigure_border :
    (eiFrameConfigure samplePlaced 1 { borderWidth := some 5 }).isSome := by
  with_unfolding_all rfl

/-- The state after the placed frame is given a border. -/
def sampleBordered : AppState :=
  (eiFrameConfigure samplePlaced 1 { borderWidth := some 5 }).get isSome_eiFrameConfigure_border

/-- The frame does not move, and its content area is still its location. -/
theorem sampleBordered_not_agree :
    eiFrameConfigure samplePlaced 1 { borderWidth := some 5 } = some sampleBordered ∧
      ¬ AllAgree sampleBordered := by
  refine ⟨(Option.some_get _).symm, fun hagree => ?_⟩
  have h₁ : (sampleBordered.widgets 1).any fun w => decide (w.parent = some 0) &&
      w.geomParams.isSome && !w.isQuitButton && !w.isResizeButton && match w.attrs with
        | .frame a => decide (w.content ≠ insetRect w.screenLocation a.borderWidth)
        | .button _ | .toplevel _ => false := by with_unfolding_all rfl
  obtain ⟨w, hw, h₁⟩ := (Option.any_eq_true _ _).mp h₁
  simp only [Bool.and_eq_true, Bool.not_eq_true', decide_eq_true_eq] at h₁
  obtain ⟨⟨⟨⟨hparent, hg⟩, hquit⟩, hresize⟩, hcontent⟩ := h₁
  have h := hagree 1 w 0 hw hg hparent fun hh => by simp [Widget.Hidden, hquit, hresize] at hh
  rw [Widget.Agrees] at h
  split at hcontent
  · next a ha =>
    rw [ha] at h
    exact absurd h (of_decide_eq_true hcontent)
  · simp at hcontent
  · simp at hcontent

end Sample

end GuiLibrary

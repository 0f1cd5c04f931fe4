import GuiLibrary.Redraw
import GuiLibrary.Relayout

/-!
# The locations of the mapped widgets over a run

The placer puts a widget at the location its formula gives, but `ei_app_invalidate_rect` then cuts
a rectangle of the widget at the edges of the window through a pointer: the location of a frame or
of a button without border, the content area of a button with a border. `PlacerKeeps` is the
condition on a run of the placer under which this changes nothing, `PressKeeps` the one on an event
that shows a button pressed or not; in a run of the program whose steps meet them, every mapped
widget stays where the formula puts it.

The configure functions also empty a content area that is not the location, and do not compute it
again unless the widget moves: `BorderStable` says when the children do not notice.

## Main definitions

* `Located`, `Widget.Keeps`, `PlacerKeeps`, `PlaceStable`, `BorderStable`.
* `GoesDown`, `GoesUp`, `TurnsRelief`, `PressKeeps`.
* `LayoutStep`, `LayoutInvariant`.

## Main results

* `Located.rerun`: a run of the placer under the condition.
* `LayoutInvariant.step`, `upToDate_of_run`.
-/

namespace GuiLibrary

open Cells

/-- Every mapped widget whose parent is mapped, or the root, is where the formula puts it. -/
def Located (s : AppState) : Prop :=
  ∀ q w o pw, s.widgets q = some w → w.parent = some o → s.widgets o = some pw →
    (s.rootWidget = some o ∨ pw.geomParams.isSome) → w.target pw.content = w.screenLocation

theorem Located.upToDate {s : AppState} (h : Located s) : UpToDate s := by
  intro q w o pw hw hmapped ho hpo
  have hbelow : s.Below q o := .single ⟨w.node, AppState.nodes_of_widgets hw, ho⟩
  refine h q w o pw hw ho hpo ((hmapped o (Or.inr hbelow)).imp_right ?_)
  rintro ⟨v, hv, hg⟩
  rwa [Option.some.inj (hpo.symm.trans hv)]

/-! ### What the placer keeps -/

/-- What a notification assigns to the widget at `q` when it moves to `rect` is the same after the
damage is cut at the edges of the window: the location of a frame or of a button without border, and
for a button with a border the locations of its children. -/
def Widget.Keeps (s : AppState) (window : Size) (q : Ptr) (w : Widget) (rect : Rect) : Prop :=
  match w.attrs with
  | .frame _ => rect.InWindow window
  | .button a =>
      if a.borderWidth = 0 then rect.InWindow window
      else ∀ c cw, s.widgets c = some cw → cw.parent = some q →
        cw.target (normalizeRect (insetRect rect a.borderWidth) window) =
          cw.target (insetRect rect a.borderWidth)
  | .toplevel _ => True

namespace Widget

variable {s : AppState} {window : Size} {q : Ptr} {w : Widget} {rect : Rect}

theorem Keeps.screenLocation (h : w.Keeps s window q rect) :
    (w.settled window rect).screenLocation = rect := by
  rw [screenLocation_settled, landing]
  cases ha : w.attrs with
  | frame a =>
    simp only [Keeps, ha] at h
    exact normalizeRect_eq_self_iff.mpr h
  | button a =>
    simp only [Keeps, ha] at h
    simp only
    split_ifs at h ⊢ with hb
    · exact normalizeRect_eq_self_iff.mpr h
    · rfl
  | toplevel a => rfl

/-- The children have the same locations under the content area that the notification assigns and
under the one that remains. -/
theorem Keeps.target_child (h : w.Keeps s window q rect) {c : Ptr} {cw : Widget}
    (hc : s.widgets c = some cw) (hparent : cw.parent = some q) :
    cw.target (w.settled window rect).content = cw.target (w.moved rect).content := by
  obtain ⟨_, _, _, _, _, _, _, _, _, loc, rectOf, attrs⟩ := w
  cases attrs with
  | frame a =>
    have hin : normalizeRect rect window = rect := normalizeRect_eq_self_iff.mpr h
    simp only [settled, moved, notified, setScreenLocation, writeDamage, damage]
    split_ifs <;> rw [hin]
  | button a =>
    simp only [Keeps] at h
    simp only [settled, moved, notified, setScreenLocation, writeDamage, damage, ne_eq]
    by_cases hb : a.borderWidth = 0
    · rw [if_pos hb] at h
      have hin : normalizeRect rect window = rect := normalizeRect_eq_self_iff.mpr h
      simp only [hb, not_true_eq_false, if_false, Widget.content, setContent, setScreenLocation,
        hin]
    · rw [if_neg hb] at h
      simp only [hb, not_false_eq_true, if_true, Widget.content, setContent]
      exact h c cw hc hparent
  | toplevel a => rfl

end Widget

/-- The condition on a run of the placer on a mapped widget `p`: every widget that moves keeps what
its notification assigns; when `p` itself does not move, `stable` holds. -/
structure PlacerKeeps (window : Size) (s : AppState) (p : Ptr) (stable : Prop) : Prop where
  moves : ∀ o pw, (∃ w, s.widgets p = some w ∧ w.parent = some o) → s.widgets o = some pw →
    ∀ q K w, Reached s.widgets p pw.content q K → s.widgets q = some w →
      w.target K ≠ w.screenLocation → w.Keeps s window q (w.target K)
  stays : ∀ w o pw, s.widgets p = some w → w.parent = some o → s.widgets o = some pw →
    w.geomParams.isSome → w.target pw.content = w.screenLocation → stable

/-- The children of `p` are where the content area `K` puts them. -/
def ChildrenAt (s : AppState) (p : Ptr) (K : Rect) : Prop :=
  ∀ c cw, s.widgets c = some cw → cw.parent = some p → cw.target K = cw.screenLocation

/-- Before `ei_place`: the widget is mapped already, or its children are where its content area puts
them. -/
def PlaceStable (s : AppState) (p : Ptr) : Prop :=
  ∀ w, s.widgets p = some w → w.geomParams = none → ChildrenAt s p w.content

/-- Before a configure function: no border width is given, or the content area is the location, or
the children are where an empty content area puts them. -/
def BorderStable (s : AppState) (p : Ptr) (borderWidth : Option ℤ) : Prop :=
  borderWidth = none ∨ ∀ w, s.widgets p = some w →
    w.contentRect = .screenLocation ∨ ChildrenAt s p eiRectZero

/-- A widget is not its own parent. -/
theorem WellFormed.ne_parent {s : AppState} {c p : Ptr} {cw : Widget} (hs : WellFormed s)
    (hc : s.widgets c = some cw) (hcp : cw.parent = some p) : c ≠ p := by
  rintro rfl
  exact hs.linked.not_below_self c (.single ⟨cw.node, AppState.nodes_of_widgets hc, hcp⟩)

/-- Assigning the record of `p` leaves its children alone. -/
theorem ChildrenAt.assigned {s s₁ : AppState} {p : Ptr} {w w' : Widget} {K : Rect}
    (h : ChildrenAt s p K) (hs : WellFormed s) (ha : Assigned s s₁ p w w') :
    ChildrenAt s₁ p K := by
  intro c cw hc hcp
  have hne := (ha.wellFormed hs).ne_parent hc hcp
  exact h c cw ((ha.other hne).symm.trans hc) hcp

/-- The widgets are located, those at `p` and below the mapped widget at `p` apart. -/
def LocatedBut (s : AppState) (p : Ptr) : Prop :=
  ∀ q w o pw, q ≠ p → s.widgets q = some w → w.parent = some o → s.widgets o = some pw →
    (s.rootWidget = some o ∨ o ≠ p ∧ pw.geomParams.isSome) →
    w.target pw.content = w.screenLocation

section Rerun

variable {window : Size} {s s' : AppState} {p : Ptr}

/-- **A run of the placer that meets the condition puts every widget where the formula says.** -/
theorem Located.rerun {stable : Prop} (hs : WellFormed s) (hbut : LocatedBut s p)
    (hkeeps : PlacerKeeps window s p stable)
    (hstable : stable → ∀ w, s.widgets p = some w → w.geomParams.isSome → ChildrenAt s p w.content)
    (h : Rerun window s s' p) : Located s' := by
  have hrootWidget := h.rootWidget_eq
  obtain ⟨w, hp, ⟨hg, rfl⟩ | ⟨o, pw, m', rects, ho, hpo, rfl, hrelaid⟩⟩ := h
  · -- The widget is not mapped: the placer does nothing.
    intro q v x u hq hx hu hmap
    by_cases hqp : q = p
    · subst hqp
      obtain rfl := Option.some.inj (hp.symm.trans hq)
      rw [Widget.target, hg]
    · refine hbut q v x u hqp hq hx hu (hmap.imp_right fun hu' => ⟨?_, hu'⟩)
      rintro rfl
      rw [Option.some.inj (hu.symm.trans hp), hg] at hu'
      exact absurd hu' (by simp)
  have hmoves := hkeeps.moves o pw ⟨w, hp, ho⟩ hpo
  have hop : nodeLinks.ChildOf s.nodes p o := ⟨w.node, AppState.nodes_of_widgets hp, ho⟩
  -- A widget to which the placer comes ends at the location that the formula gives there.
  have hloc : ∀ {q K v}, Reached s.widgets p pw.content q K → s.widgets q = some v →
      (v.rerun window K).screenLocation = v.target K := by
    intro q K v hreach hv
    by_cases ht : v.target K = v.screenLocation
    · rw [Widget.rerun_of_eq ht, ht]
    · rw [Widget.rerun_of_ne ht, (hmoves q K v hreach hv ht).screenLocation]
  intro q v' x u' hq' hx hu' hmap
  have hmap' : (s.widgets q).map Widget.node = some v'.node :=
    (hrelaid.node_eq q).symm.trans (congrArg (Option.map Widget.node) hq')
  obtain ⟨v, hq, hnode⟩ := Option.map_eq_some_iff.mp hmap'
  have hxv : v.parent = some x := (congrArg Node.parent hnode).trans hx
  have hqx : nodeLinks.ChildOf s.nodes q x := ⟨v.node, AppState.nodes_of_widgets hq, hxv⟩
  by_cases hqp : q = p
  · -- The widget itself, under its parent.
    subst hqp
    obtain rfl := hqx.right_unique hop
    have hout : ¬ s.InSubtree x q := hs.not_inSubtree_parent hop
    obtain rfl := Option.some.inj ((hrelaid.outside x hout).symm.trans hu' |>.symm.trans hpo)
    obtain rfl := Option.some.inj (hq'.symm.trans (hrelaid.start.trans (by
      rw [hq, Option.map_some])))
    rw [Widget.target_rerun, hloc .start hq]
  by_cases hxp : s.InSubtree x p
  · rcases hrelaid.below q x hxp hqx with ⟨hq₁, hx₁, hstay⟩ |
      ⟨wx, Kx, hwx, hreach, hmove, hx₁, hq₁⟩
    · -- The parent is not moved.
      obtain rfl := Option.some.inj (hq'.symm.trans (hq₁.trans hq))
      have hu : s.widgets x = some u' := hx₁.symm.trans hu'
      by_cases hxp' : x = p
      · subst hxp'
        obtain rfl := Option.some.inj (hp.symm.trans hu)
        have hg : w.geomParams.isSome := hmap.resolve_left fun hr =>
          hs.rootWidget_ne hp ho (hrootWidget ▸ hr)
        exact hstable (hkeeps.stays w o pw hp ho hpo hg (hstay rfl w hp)) w hp hg q v' hq hx
      · exact hbut q v' x u' hqp hq hx hu
          (hmap.imp (fun hr => hrootWidget ▸ hr) fun hg => ⟨hxp', hg⟩)
    · -- The parent is moved, and the placer comes to the widget.
      obtain rfl := Option.some.inj (hu'.symm.trans hx₁)
      obtain rfl := Option.some.inj (hq'.symm.trans (hq₁.trans (by rw [hq, Option.map_some])))
      rw [Widget.target_rerun, hloc (.child hreach hwx hmove hq hxv) hq]
      exact (hmoves x Kx wx hreach hwx hmove).target_child hq hxv
  · have hqout : ¬ s.InSubtree q p := fun hsub =>
      hxp ((below_iff_of_childOf hqx p).mp (hsub.resolve_left hqp))
    obtain rfl := Option.some.inj (hq'.symm.trans ((hrelaid.outside q hqout).trans hq))
    have hu : s.widgets x = some u' := (hrelaid.outside x hxp).symm.trans hu'
    exact hbut q v' x u' hqp hq hx hu (hmap.imp (fun hr => hrootWidget ▸ hr)
      fun hg => ⟨fun h => hxp (Or.inl h), hg⟩)

end Rerun

/-! ### Steps that do not move widgets -/

namespace Widget

/-- What the placer reads of a widget. -/
def placement (w : Widget) : Option Ptr × Option PlacerParam × Size × Rect × ContentRect :=
  (w.parent, w.geomParams, w.requestedSize, w.screenLocation, w.contentRect)

variable {w w' : Widget}

theorem target_of_placement (h : w'.placement = w.placement) (K : Rect) :
    w'.target K = w.target K := by
  simp only [placement, Prod.mk.injEq] at h
  rw [target, target, h.2.1, h.2.2.1, h.2.2.2.1]

theorem content_of_placement (h : w'.placement = w.placement) : w'.content = w.content := by
  simp only [placement, Prod.mk.injEq] at h
  rw [content, content, h.2.2.2.1, h.2.2.2.2]

end Widget

/-- What a run of the program keeps when every step meets its condition. -/
structure LayoutInvariant (window : Size) (s : AppState) : Prop where
  wellFormed : WellFormed s
  hasWindow : s.HasWindow window
  root : ∀ r w, s.rootWidget = some r → s.widgets r = some w →
    w.geomParams = none ∧ w.contentRect = .screenLocation
  located : Located s

namespace LayoutInvariant

variable {window : Size} {s s' : AppState}

/-- The invariant reads the links and the placement of the widgets. -/
theorem congr (h : LayoutInvariant window s) (hs' : WellFormed s')
    (hroot : s'.rootWidget = s.rootWidget)
    (hwidgets : ∀ q, (s'.widgets q).map Widget.placement =
      (s.widgets q).map Widget.placement) : LayoutInvariant window s' := by
  have hold : ∀ {q w'}, s'.widgets q = some w' →
      ∃ w, s.widgets q = some w ∧ w'.placement = w.placement := by
    intro q w' hw'
    have := hwidgets q
    rw [hw', Option.map_some, eq_comm, Option.map_eq_some_iff] at this
    obtain ⟨w, hw, hp⟩ := this
    exact ⟨w, hw, hp.symm⟩
  refine ⟨hs', ?_, fun r w' hr hw' => ?_, fun q w' o pw' hw' ho hpo hmap => ?_⟩
  · obtain ⟨r, w, hr, hw, hsize⟩ := h.hasWindow
    have := hwidgets r
    rw [hw, Option.map_some, Option.map_eq_some_iff] at this
    obtain ⟨w', hw', hp⟩ := this
    simp only [Widget.placement, Prod.mk.injEq] at hp
    exact ⟨r, w', hroot.trans hr, hw', by rw [hp.2.2.2.1, hsize]⟩
  · obtain ⟨w, hw, hp⟩ := hold hw'
    simp only [Widget.placement, Prod.mk.injEq] at hp
    rw [hp.2.1, hp.2.2.2.2]
    exact h.root r w (hroot ▸ hr) hw
  · obtain ⟨w, hw, hp⟩ := hold hw'
    obtain ⟨pw, hpw, hpp⟩ := hold hpo
    have hloc := hp
    simp only [Widget.placement, Prod.mk.injEq] at hloc
    have hg := hpp
    simp only [Widget.placement, Prod.mk.injEq] at hg
    rw [Widget.target_of_placement hp, Widget.content_of_placement hpp, hloc.2.2.2.1]
    exact h.located q w o pw hw (hloc.1 ▸ ho) hpw
      (hmap.imp (fun hr => hroot ▸ hr) fun hsome => hg.2.1 ▸ hsome)

theorem childrenAt {p : Ptr} {w : Widget} (h : LayoutInvariant window s)
    (hp : s.widgets p = some w) (hg : w.geomParams.isSome) : ChildrenAt s p w.content :=
  fun c cw hc hcp => h.located c cw p w hc hcp hp (Or.inr hg)

/-- **Assigning a record and running the placer on it.** -/
theorem assigned {s₁ : AppState} {p : Ptr} {w w' : Widget} {stable : Prop}
    (h : LayoutInvariant window s) (ha : Assigned s s₁ p w w')
    (hroot : w.contentRect = .screenLocation → w'.contentRect = .screenLocation)
    (hg : s.rootWidget = some p → w'.geomParams.isSome → w'.parent.isSome)
    (hkeeps : PlacerKeeps window s₁ p stable)
    (hstable : stable → w'.geomParams.isSome → ChildrenAt s p w'.content)
    (hrun : Rerun window s₁ s' p) : LayoutInvariant window s' := by
  have hs₁ := ha.wellFormed h.wellFormed
  have hwin₁ := ha.hasWindow h.hasWindow
  have hrootWidget : s₁.rootWidget = s.rootWidget := by rw [ha.eq]; rfl
  have hnotroot : s.rootWidget = some p → w'.geomParams = none ∧
      w'.contentRect = .screenLocation ∧ w'.content = w.content := by
    intro hr
    obtain ⟨hnone, halias⟩ := h.root p w hr ha.old
    have halias' := hroot halias
    refine ⟨?_, halias', ?_⟩
    · by_contra hne
      obtain ⟨o, ho⟩ := Option.isSome_iff_exists.mp
        (hg hr (Option.isSome_iff_ne_none.mpr hne))
      exact hs₁.rootWidget_ne ha.new ho (hrootWidget.trans hr)
    · rw [Widget.content, Widget.content, halias, halias', ha.screenLocation]
  refine ⟨hs₁.congr hrun.skeleton_eq, hrun.hasWindow hs₁ hwin₁, fun r v hr hv => ?_,
    Located.rerun hs₁ ?_ hkeeps (fun hst v hv hgv => ?_) hrun⟩
  · have hr₁ : s₁.rootWidget = some r := hrun.rootWidget_eq.symm.trans hr
    rw [hrun.root_eq hs₁ hr₁] at hv
    have hr : s.rootWidget = some r := hrootWidget.symm.trans hr₁
    by_cases hrp : r = p
    · subst hrp
      obtain rfl := Option.some.inj (ha.new.symm.trans hv)
      exact ⟨(hnotroot hr).1, (hnotroot hr).2.1⟩
    · rw [ha.other hrp] at hv
      exact h.root r v hr hv
  · intro q v o pw hqp hv ho hpo hmap
    rw [ha.other hqp] at hv
    by_cases hop : o = p
    · subst hop
      have hr := hrootWidget.symm.trans (hmap.resolve_right fun hne => hne.1 rfl)
      obtain rfl := Option.some.inj (ha.new.symm.trans hpo)
      rw [(hnotroot hr).2.2]
      exact h.located q v o w hv ho ha.old (Or.inl hr)
    · rw [ha.other hop] at hpo
      exact h.located q v o pw hv ho hpo
        (hmap.imp (fun hr => hrootWidget.symm.trans hr) fun hsome => hsome.2)
  · obtain rfl := Option.some.inj (ha.new.symm.trans hv)
    exact (hstable hst hgv).assigned h.wellFormed ha

/-- A new widget is not mapped, and neither is the parent of a new hidden button. -/
theorem create [Hardware] {c : WidgetClass} {parent : Ptr} {d : Option ℕ}
    (h : LayoutInvariant window s) (hc : Created s s' c parent d) : LayoutInvariant window s' := by
  have hs := h.wellFormed
  have hold : ∀ {q w'}, q < s.nextWidget → s'.widgets q = some w' →
      ∃ w, s.widgets q = some w ∧ w'.body = w.body := fun hq hw' => hc.bodies.exists_old hq hw'
  obtain ⟨u, hu, hunmapped⟩ := hc.unmapped
  refine ⟨hc.grown.wellFormed, ?_, fun r w' hr hw' => ?_, fun q w' o pw' hw' ho hpo hmap => ?_⟩
  · obtain ⟨r, w, hr, hw, hsize⟩ := h.hasWindow
    have hlt := hs.rootWidget_lt r hr
    have := hc.bodies r hlt
    rw [hw, Option.map_some, Option.map_eq_some_iff] at this
    obtain ⟨w', hw', hb⟩ := this
    exact ⟨r, w', hc.grown.rootWidget.trans hr, hw',
      by rw [Widget.screenLocation_of_body hb, hsize]⟩
  · have hr := hc.grown.rootWidget ▸ hr
    obtain ⟨w, hw, hb⟩ := hold (hs.rootWidget_lt r hr) hw'
    rw [Widget.geomParams_of_body hb, show w'.contentRect = w.contentRect from
      show w'.body.contentRect = w.body.contentRect by rw [hb]]
    exact h.root r w hr hw
  · have hq' : s'.Live q := AppState.live_iff.mpr ⟨w', hw'⟩
    have hqo : nodeLinks.ChildOf s'.nodes q o := ⟨w'.node, AppState.nodes_of_widgets hw', ho⟩
    have hoq := hc.grown.wellFormed.linked.rank_lt q o hqo
    by_cases hlt : q < s.nextWidget
    · obtain ⟨w, hw, hb⟩ := hold hlt hw'
      obtain ⟨pw, hpw, hpb⟩ := hold (Nat.lt_trans hoq hlt) hpo
      rw [Widget.target_of_body hb, Widget.content_of_body hpb, Widget.screenLocation_of_body hb]
      exact h.located q w o pw hw (Widget.parent_of_body hb ▸ ho) hpw
        (hmap.imp (fun hr => hc.grown.rootWidget ▸ hr)
          fun hsome => Widget.geomParams_of_body hpb ▸ hsome)
    · by_cases hq : q = s.nextWidget
      · subst hq
        obtain rfl := Option.some.inj (hu.symm.trans hw')
        rw [Widget.target, hunmapped]
      · -- A hidden button, whose parent is the new toplevel.
        obtain ⟨n, hn, -, hparent⟩ := hc.hidden_of_lt
          (Nat.lt_of_le_of_ne (Nat.le_of_not_lt hlt) (Ne.symm hq)) hq'
        obtain rfl := hqo.right_unique ⟨n, hn, hparent⟩
        obtain rfl := Option.some.inj (hu.symm.trans hpo)
        rcases hmap with hr | hsome
        · exact absurd (hs.rootWidget_lt _ (hc.grown.rootWidget ▸ hr)) (Nat.lt_irrefl _)
        · rw [hunmapped] at hsome
          exact absurd hsome (by simp)

/-- Unmapping a widget. -/
theorem unmap {p : Ptr} (h : LayoutInvariant window s)
    (hrun : eiGeometrymanagerUnmap s p = some s') : LayoutInvariant window s' := by
  have hskel := skeleton_eiGeometrymanagerUnmap hrun
  obtain ⟨w, hp, -⟩ := Option.bind_eq_some_iff.mp hrun
  rw [eiGeometrymanagerUnmap_eq h.hasWindow hp, Option.some.injEq] at hrun
  split_ifs at hrun with hg
  · subst hrun
    have hroot : s.rootWidget ≠ some p := fun hr => by
      rw [(h.root p w hr hp).1] at hg
      exact absurd hg (by simp)
    have hother : ∀ {q}, q ≠ p → ((s.addDamage window w.screenLocation).setWidget p
        ((w.setGeomParams none).setScreenLocation eiRectZero)).widgets q = s.widgets q :=
      fun hq => AppState.widgets_setWidget_of_ne _ _ hq
    refine ⟨h.wellFormed.congr hskel, ?_, fun r v hr hv => ?_, fun q v o pw hv ho hpo hmap => ?_⟩
    · have hwin : (s.addDamage window w.screenLocation).HasWindow window := h.hasWindow
      exact hwin.setWidget fun hr => absurd hr hroot
    · have hrp : r ≠ p := fun hrp => hroot (hrp ▸ hr)
      rw [hother hrp] at hv
      exact h.root r v hr hv
    · by_cases hqp : q = p
      · subst hqp
        obtain rfl := Option.some.inj ((AppState.widgets_setWidget_self _ _ _).symm.trans hv)
        rfl
      · rw [hother hqp] at hv
        by_cases hop : o = p
        · subst hop
          obtain rfl := Option.some.inj ((AppState.widgets_setWidget_self _ _ _).symm.trans hpo)
          rcases hmap with hr | hsome
          · exact absurd hr hroot
          · exact absurd hsome (by simp [Widget.setGeomParams])
        · rw [hother hop] at hpo
          exact h.located q v o pw hv ho hpo hmap
  · exact hrun ▸ h

end LayoutInvariant

/-! ### Pressing buttons -/

/-- The callback of a button, seen from the handler that calls it as its last action: what the
programmer does in it through the library comes as further steps. -/
def noCallback : ℕ → UserCallback := fun _ s _ _ _ => some (s, false)

/-- The left mouse button goes down on `p`: `ei_handle_button_down` shows it pressed. -/
def GoesDown (s : AppState) (event : Event) (p : Ptr) : Prop :=
  event.type = .mouseButtondown ∧ event.button = .left ∧
    eiWidgetPick s event.mouse = some (some p)

/-- The left mouse button goes up on the pressed button: `ei_handle_button_up` releases it. -/
def GoesUp (s : AppState) (event : Event) (p : Ptr) : Prop :=
  event.type = .mouseButtonup ∧ event.button = .left ∧
    eiWidgetPick s event.mouse = some (some p) ∧ s.buttonPressed = some p

/-- The pointer leaves the pressed button, which is sunken, or comes back to it, which is raised:
`ei_handle_button_move` turns its relief. -/
def TurnsRelief (s : AppState) (event : Event) (p : Ptr) : Prop :=
  event.type = .mouseMove ∧ s.buttonPressed = some p ∧
    ∃ picked w a, eiWidgetPick s event.mouse = some picked ∧ s.widgets p = some w ∧
      w.attrs = .button a ∧
      (picked ≠ some p ∧ a.relief = .sunken ∨ picked = some p ∧ a.relief = .raised)

/-- The condition on a mouse event: the button that the handler shows pressed or not, if any, lies
in the window. -/
def PressKeeps (window : Size) (s : AppState) (shows : Ptr → Prop) : Prop :=
  ∀ p w a, shows p → s.widgets p = some w → w.attrs = .button a → w.screenLocation.InWindow window

/-- What showing a button pressed or not does. -/
theorem showButton_eq {window : Size} {s s' : AppState} {p : Ptr} {relief : Relief} {b : Bool}
    (hwin : s.HasWindow window) (h : showButton s p relief b = some s') :
    ∃ w a, s.widgets p = some w ∧ w.attrs = .button a ∧
      s' = (AppState.addDamage { s with pressingOver := b } window w.screenLocation).setWidget p
        { w with
          attrs := .button { a with relief := relief }
          screenLocation := normalizeRect w.screenLocation window } := by
  simp only [showButton, Option.bind_eq_bind, Option.bind_eq_some_iff, modifyButton] at h
  obtain ⟨s₁, ⟨w, hp, h₁⟩, h₂⟩ := h
  have hp : s.widgets p = some w := hp
  split at h₁
  · next a ha =>
    obtain rfl := Option.some.inj h₁
    refine ⟨w, a, hp, ha, ?_⟩
    rw [@invalidateLocation_eq _ window ?_ _ _ (AppState.widgets_setWidget_self _ _ _)] at h₂
    · rw [← Option.some.inj h₂]
      simp only [AppState.setWidget, AppState.addDamage, Function.update_idem]
      rfl
    · have hwin' : AppState.HasWindow { s with pressingOver := b } window := hwin
      refine hwin'.setWidget fun hr => ?_
      obtain ⟨r, v, hr', hv, rfl⟩ := hwin
      obtain rfl : p = r := Option.some.inj (hr.symm.trans hr')
      rw [Option.some.inj (hp.symm.trans hv)]
  · simp at h₁
  · simp at h₁

theorem LayoutInvariant.showButton {window : Size} {s s' : AppState} {p : Ptr} {relief : Relief}
    {b : Bool} (h : LayoutInvariant window s)
    (hin : ∀ w a, s.widgets p = some w → w.attrs = .button a → w.screenLocation.InWindow window)
    (hrun : GuiLibrary.showButton s p relief b = some s') : LayoutInvariant window s' := by
  obtain ⟨w, a, hp, ha, rfl⟩ := showButton_eq h.hasWindow hrun
  have hloc := normalizeRect_eq_self_iff.mpr (hin w a hp ha)
  refine h.congr (WellFormed.congr h.wellFormed ?_) rfl fun q => ?_
  · exact (AppState.skeleton_setWidget (s := AppState.addDamage { s with pressingOver := b }
      window w.screenLocation) hp (by simp only [Widget.node, ha, Attrs.nodeClass])).trans rfl
  · by_cases hq : q = p
    · subst hq
      rw [AppState.widgets_setWidget_self, hp, hloc]
      rfl
    · rw [AppState.widgets_setWidget_of_ne _ _ hq]
      rfl

section Press

variable {window : Size} {s s' : AppState} {event : Event} {processed : Bool}

theorem LayoutInvariant.setButtonPressed (h : LayoutInvariant window s) (p : Option Ptr) :
    LayoutInvariant window { s with buttonPressed := p } :=
  h.congr (h.wellFormed.of_links (fun _ => rfl) rfl rfl) rfl fun _ => rfl

theorem LayoutInvariant.buttonDown (h : LayoutInvariant window s)
    (hin : PressKeeps window s (GoesDown s event))
    (hrun : eiHandleButtonDown s event = some (s', processed)) : LayoutInvariant window s' := by
  rw [eiHandleButtonDown] at hrun
  split_ifs at hrun with hleft
  · obtain ⟨rfl, -⟩ := Prod.mk.inj (Option.some.inj hrun)
    exact h
  · rw [not_or, not_not, not_not] at hleft
    simp only [Option.bind_eq_bind, Option.bind_eq_some_iff] at hrun
    obtain ⟨picked, hpick, hrun⟩ := hrun
    cases picked with
    | none =>
      obtain ⟨rfl, -⟩ := Prod.mk.inj (Option.some.inj hrun)
      exact h
    | some button =>
      obtain ⟨s₁, h₁, hrun⟩ := Option.bind_eq_some_iff.mp hrun
      obtain ⟨rfl, -⟩ := Prod.mk.inj (Option.some.inj hrun)
      exact (h.setButtonPressed (some button)).showButton
        (fun w a => hin button w a ⟨hleft.1, hleft.2, hpick⟩) h₁

theorem LayoutInvariant.buttonUp (h : LayoutInvariant window s)
    (hin : PressKeeps window s (GoesUp s event))
    (hrun : eiHandleButtonUp noCallback s event = some (s', processed)) :
    LayoutInvariant window s' := by
  rw [eiHandleButtonUp] at hrun
  split_ifs at hrun with hleft
  · obtain ⟨rfl, -⟩ := Prod.mk.inj (Option.some.inj hrun)
    exact h
  · rw [not_or, not_not, not_not] at hleft
    simp only [Option.bind_eq_bind, Option.bind_eq_some_iff] at hrun
    obtain ⟨picked, hpick, hrun⟩ := hrun
    cases picked with
    | none =>
      obtain ⟨rfl, -⟩ := Prod.mk.inj (Option.some.inj hrun)
      exact h.setButtonPressed _
    | some button =>
      simp only at hrun
      split_ifs at hrun with hpressed
      · obtain ⟨rfl, -⟩ := Prod.mk.inj (Option.some.inj hrun)
        exact h.setButtonPressed _
      · obtain ⟨s₁, h₁, hrun⟩ := Option.bind_eq_some_iff.mp hrun
        obtain ⟨w, -, hrun⟩ := Option.bind_eq_some_iff.mp hrun
        have hs₁ := (h.setButtonPressed none).showButton
          (fun w a => hin button w a ⟨hleft.1, hleft.2, hpick, not_not.mp hpressed⟩) h₁
        split at hrun
        · split at hrun
          · obtain ⟨rfl, -⟩ := Prod.mk.inj (Option.some.inj hrun)
            exact hs₁
          · obtain ⟨rfl, -⟩ := Prod.mk.inj (Option.some.inj hrun)
            exact hs₁
        · simp at hrun
        · simp at hrun

theorem LayoutInvariant.buttonMove (h : LayoutInvariant window s)
    (hin : PressKeeps window s (TurnsRelief s event))
    (hrun : eiHandleButtonMove s event = some (s', processed)) : LayoutInvariant window s' := by
  rw [eiHandleButtonMove] at hrun
  split at hrun
  · obtain ⟨rfl, -⟩ := Prod.mk.inj (Option.some.inj hrun)
    exact h
  · next button hbutton =>
    split_ifs at hrun with hmove
    · obtain ⟨rfl, -⟩ := Prod.mk.inj (Option.some.inj hrun)
      exact h
    · simp only [Option.bind_eq_bind, Option.bind_eq_some_iff] at hrun
      obtain ⟨picked, hpick, w, hw, hrun⟩ := hrun
      split at hrun
      · next a ha =>
        have hfollows := fun hturns =>
          (⟨not_not.mp hmove, hbutton, picked, w, a, hpick, hw, ha, hturns⟩ :
            TurnsRelief s event button)
        split_ifs at hrun with hleaves hcomes
        · obtain ⟨s₁, h₁, hrun⟩ := Option.bind_eq_some_iff.mp hrun
          obtain ⟨rfl, -⟩ := Prod.mk.inj (Option.some.inj hrun)
          exact h.showButton (fun w a => hin button w a (hfollows (Or.inl hleaves))) h₁
        · obtain ⟨s₁, h₁, hrun⟩ := Option.bind_eq_some_iff.mp hrun
          obtain ⟨rfl, -⟩ := Prod.mk.inj (Option.some.inj hrun)
          exact h.showButton (fun w a => hin button w a (hfollows (Or.inr hcomes))) h₁
        · obtain ⟨rfl, -⟩ := Prod.mk.inj (Option.some.inj hrun)
          exact h
      · simp at hrun
      · simp at hrun

end Press

/-! ### Redrawing -/

section Redraw

variable {window : Size} {drawfunc : DrawFunc}

theorem LayoutInvariant.onlySurfaces {s s' : AppState} (h : LayoutInvariant window s)
    (ho : OnlySurfaces s s') : LayoutInvariant window s' :=
  h.congr (ho.wellFormed h.wellFormed) ho.rootWidget_eq fun q => by rw [ho.widgets_eq]

/-- The widget is the root or is mapped. -/
def RootOrMapped (s : AppState) (o : Ptr) : Prop :=
  s.rootWidget = some o ∨ ∃ pw, s.widgets o = some pw ∧ pw.geomParams.isSome

theorem RootOrMapped.onlySurfaces {s s' : AppState} {o : Ptr} (h : RootOrMapped s o)
    (ho : OnlySurfaces s s') : RootOrMapped s' o := by
  rw [RootOrMapped, ho.widgets_eq, ho.rootWidget_eq]
  exact h

/-- A redraw pass on located widgets moves nothing and invalidates nothing. -/
theorem drawSiblings_onlySurfaces (hdraw : DrawsOnly drawfunc) (f : Forest Ptr) :
    ∀ (fuel : ℕ) {s s' : AppState} {o : Ptr} {head : Option Ptr} {clipper : Clipper},
      LayoutInvariant window s → Represents nodeLinks s.nodes o head f → RootOrMapped s o →
      drawSiblings drawfunc fuel s clipper head = some s' → OnlySurfaces s s' := by
  induction f with
  | nil =>
    rintro fuel s s' o head clipper - rfl - hrun
    cases fuel <;> exact (Option.some.inj hrun) ▸ .refl s
  | cons p kids rest ihk ihr =>
    rintro fuel s s' o head clipper h ⟨rfl, n, hn, ho, hkids, hrest⟩ hmap hrun
    obtain ⟨w, hp, rfl⟩ := AppState.nodes_eq_some.mp hn
    cases fuel with
    | zero => simp [drawSiblings] at hrun
    | succ fuel =>
      simp only [drawSiblings, hp, Option.bind_eq_bind, Option.bind_some,
        Option.bind_eq_some_iff] at hrun
      obtain ⟨s₁, h₁, w₁, hw₁, hrun⟩ := hrun
      -- The first widget, which the placer leaves alone.
      have hfirst : OnlySurfaces s s₁ := by
        split_ifs at h₁ with hg
        · obtain ⟨pn, hpn⟩ := h.wellFormed.linked.parent_live p o ⟨w.node, hn, ho⟩
          obtain ⟨pw, hpo, rfl⟩ := AppState.nodes_eq_some.mp hpn
          have hloc : w.target pw.content = w.screenLocation := by
            refine h.located p w o pw hp ho hpo (hmap.imp_right ?_)
            rintro ⟨v, hv, hsome⟩
            exact Option.some.inj (hpo.symm.trans hv) ▸ hsome
          have hself : runplacer s p = some s := runplacerWith_self hp ho hpo hloc
          simp only [drawMapped, hself, Option.bind_eq_bind, Option.bind_some,
            Option.bind_eq_some_iff] at h₁
          obtain ⟨c₁, -, s₂, h₂, c₂, -, w₂, -, h₃⟩ := h₁
          have hs₂ := hdraw _ _ _ _ h₂
          refine hs₂.trans ?_
          simp only [drawChildrenWith, Clipper.read, Option.bind_eq_bind, Option.bind_some] at h₃
          split_ifs at h₃
          · exact (Option.some.inj h₃) ▸ .refl s₂
          · rw [hs₂.widgets_eq, hp, Option.bind_some] at h₃
            exact ihk fuel (h.onlySurfaces hs₂) (hs₂.nodes_eq ▸ hkids)
              (Or.inr ⟨w, by rw [hs₂.widgets_eq, hp], hg⟩) h₃
        · exact (Option.some.inj h₁) ▸ .refl s
      rw [hfirst.widgets_eq, hp, Option.some.injEq] at hw₁
      subst hw₁
      exact hfirst.trans (ihr fuel (h.onlySurfaces hfirst) (hfirst.nodes_eq ▸ hrest)
        (hmap.onlySurfaces hfirst) hrun)

theorem redrawLoop_onlySurfaces (hdraw : DrawsOnly drawfunc) (fuel : ℕ) :
    ∀ {s s' : AppState} {i : ℕ}, LayoutInvariant window s →
      redrawLoop drawfunc fuel s i = some s' → OnlySurfaces s s' := by
  induction fuel with
  | zero =>
    intro s s' i _ hrun
    simp [redrawLoop] at hrun
  | succ fuel ih =>
    intro s s' i h hrun
    rw [redrawLoop] at hrun
    split at hrun
    · exact (Option.some.inj hrun) ▸ .refl s
    · simp only [Option.bind_eq_bind, Option.bind_eq_some_iff] at hrun
      obtain ⟨root, hroot, s₁, h₁, s₂, h₂, hrun⟩ := hrun
      have hs₁ := hdraw _ _ _ _ h₁
      have hinv₁ := h.onlySurfaces hs₁
      have hpass : OnlySurfaces s₁ s₂ := by
        simp only [eiDrawWidgetChildren, drawChildrenWith, Option.bind_eq_bind,
          Option.bind_eq_some_iff] at h₂
        obtain ⟨c, -, h₂⟩ := h₂
        split_ifs at h₂
        · exact (Option.some.inj h₂) ▸ .refl s₁
        · obtain ⟨w, hw, h₂⟩ := Option.bind_eq_some_iff.mp h₂
          obtain ⟨f, hf⟩ := hinv₁.wellFormed.exists_forest hw
          exact drawSiblings_onlySurfaces hdraw f _ hinv₁ hf
            (Or.inl (hs₁.rootWidget_eq.trans hroot)) h₂
      exact (hs₁.trans hpass).trans (ih (hinv₁.onlySurfaces hpass) hrun)

theorem LayoutInvariant.redraw {s s' : AppState} {fuel : ℕ} (hdraw : DrawsOnly drawfunc)
    (h : LayoutInvariant window s) (hrun : GuiLibrary.redraw drawfunc fuel s = some s') :
    LayoutInvariant window s' := by
  obtain ⟨s₁, h₁, hrun⟩ := Option.bind_eq_some_iff.mp hrun
  obtain rfl := Option.some.inj hrun
  have hinv := h.onlySurfaces (redrawLoop_onlySurfaces hdraw fuel h h₁)
  exact hinv.congr (hinv.wellFormed.of_links (fun _ => rfl) rfl rfl) rfl fun _ => rfl

end Redraw

/-! ### The runs -/

section Runs

variable [Hardware]

/-- One operation of the library, when it completes. The operations that run the placer on one
widget meet `PlacerKeeps`, and mouse events that show a button meet `PressKeeps`. -/
inductive LayoutStep (window : Size) (drawfunc : DrawFunc) : AppState → AppState → Prop
  | create {s s' : AppState} {c : WidgetClass} {parent wid : Ptr} {d : Option ℕ}
      (hparent : s.Live parent) (h : eiWidgetCreate s c (some parent) d = some (s', wid)) :
      LayoutStep window drawfunc s s'
  | place {s s' : AppState} {p : Ptr} {args : PlaceArgs}
      (hkeeps : ∀ s₁, placeAssign s p args = some s₁ → PlacerKeeps window s₁ p (PlaceStable s p))
      (h : eiPlace s p args = some s') : LayoutStep window drawfunc s s'
  | frameConfigure {s s' : AppState} {p : Ptr} {args : LabelArgs}
      (hkeeps : ∀ s₁, frameAssign s p args = some s₁ →
        PlacerKeeps window s₁ p (BorderStable s p args.borderWidth))
      (h : eiFrameConfigure s p args = some s') : LayoutStep window drawfunc s s'
  | buttonConfigure {s s' : AppState} {p : Ptr} {args : ButtonArgs}
      (hkeeps : ∀ s₁, buttonAssign s p args = some s₁ →
        PlacerKeeps window s₁ p (BorderStable s p args.borderWidth))
      (h : eiButtonConfigure s p args = some s') : LayoutStep window drawfunc s s'
  | unmap {s s' : AppState} {p : Ptr} (h : eiGeometrymanagerUnmap s p = some s') :
      LayoutStep window drawfunc s s'
  | invalidate {s s' : AppState} {rect rect' : Rect}
      (h : eiAppInvalidateRect s rect = some (s', rect')) : LayoutStep window drawfunc s s'
  | buttonDown {s s' : AppState} {event : Event} {processed : Bool}
      (hkeeps : PressKeeps window s (GoesDown s event))
      (h : eiHandleButtonDown s event = some (s', processed)) : LayoutStep window drawfunc s s'
  | buttonUp {s s' : AppState} {event : Event} {processed : Bool}
      (hkeeps : PressKeeps window s (GoesUp s event))
      (h : eiHandleButtonUp noCallback s event = some (s', processed)) :
      LayoutStep window drawfunc s s'
  | buttonMove {s s' : AppState} {event : Event} {processed : Bool}
      (hkeeps : PressKeeps window s (TurnsRelief s event))
      (h : eiHandleButtonMove s event = some (s', processed)) : LayoutStep window drawfunc s s'
  | redraw {s s' : AppState} {fuel : ℕ} (h : redraw drawfunc fuel s = some s') :
      LayoutStep window drawfunc s s'

omit [Hardware] in
theorem configuredContent_screenLocation {w : Widget} {borderWidth : Option ℤ}
    (h : w.contentRect = .screenLocation) :
    configuredContent w borderWidth = .screenLocation := by
  cases borderWidth with
  | none => exact h
  | some b => simp only [configuredContent, h]

variable {window size : Size} {drawfunc : DrawFunc} {s s' : AppState}

omit [Hardware] in
/-- A configure function leaves the children of a mapped widget where its content area puts them. -/
theorem LayoutInvariant.childrenAt_of_borderStable {p : Ptr} {w : Widget} {size : Size}
    {attrs : Attrs} {borderWidth : Option ℤ} (h : LayoutInvariant window s)
    (hp : s.widgets p = some w) (hst : BorderStable s p borderWidth) (hg : w.geomParams.isSome) :
    ChildrenAt s p (w.reconfigure size (configuredContent w borderWidth) attrs).content := by
  rw [Widget.content, Widget.reconfigure]
  have hloc := h.childrenAt hp hg
  cases hb : borderWidth with
  | none => exact hloc
  | some b =>
    cases hc : w.contentRect with
    | screenLocation =>
      rw [Widget.content, hc] at hloc
      simp only [configuredContent, hc]
      exact hloc
    | own rect =>
      simp only [configuredContent, hc]
      rcases hst with hnone | hst
      · simp [hnone] at hb
      · exact (hst w hp).resolve_left (by simp [hc])

theorem Started.layoutInvariant {pickSurface : Surface} (h : Started s size pickSurface) :
    LayoutInvariant size s := by
  refine ⟨h.wellFormed, h.hasWindow, fun r w hr hw => ?_, fun q w o pw hw ho _ _ => ?_⟩
  · obtain rfl := Option.some.inj (hr.symm.trans h.rootWidget)
    rw [h.widgets, Function.update_self] at hw
    obtain rfl := Option.some.inj hw
    exact ⟨rfl, rfl⟩
  · obtain ⟨rfl, -⟩ := h.eq_zero (AppState.nodes_of_widgets hw)
    rw [h.widgets, Function.update_self] at hw
    obtain rfl := Option.some.inj hw
    have hnone : (startedRoot size).parent = none := rfl
    exact absurd (hnone.symm.trans ho) (by simp)

theorem LayoutInvariant.step (hdraw : DrawsOnly drawfunc) (h : LayoutInvariant window s)
    (hstep : LayoutStep window drawfunc s s') : LayoutInvariant window s' := by
  have hrefresh : ∀ {s₁ p w w'}, Assigned s s₁ p w w' → refresh s₁ p = some s' →
      Rerun window s₁ s' p := fun ha hrun =>
    rerun_of_refresh (ha.wellFormed h.wellFormed) (ha.hasWindow h.hasWindow) hrun
  have hnone : ∀ {p w}, s.rootWidget = some p → s.widgets p = some w → w.geomParams.isSome →
      w.parent.isSome := fun hr hp hg => by
    rw [(h.root _ _ hr hp).1] at hg
    exact absurd hg (by simp)
  cases hstep with
  | create hparent hrun =>
    obtain ⟨hc, -⟩ := eiWidgetCreate_created h.wellFormed hparent hrun
    exact h.create hc
  | @place p args hkeeps hrun =>
    rw [eiPlace_eq] at hrun
    obtain ⟨s₁, h₁, hrun⟩ := Option.bind_eq_some_iff.mp hrun
    obtain ⟨w, ha⟩ := placeAssign_assigned h₁
    have hs₁ := ha.wellFormed h.wellFormed
    obtain ⟨o, -, -, -, -, ho, -⟩ := runplacer_of_eq_some hs₁ ha.new rfl hrun
    have hstable : PlaceStable s p → ChildrenAt s p w.content := fun hst => by
      by_cases hg : w.geomParams = none
      · exact hst w ha.old hg
      · exact h.childrenAt ha.old (Option.isSome_iff_ne_none.mpr hg)
    exact h.assigned ha id (fun _ _ => by rw [ho]; rfl) (hkeeps s₁ h₁) (fun hst _ => hstable hst)
      (rerun_of_runplacer hs₁ (ha.hasWindow h.hasWindow) hrun)
  | @frameConfigure p args hkeeps hrun =>
    rw [eiFrameConfigure_eq] at hrun
    obtain ⟨s₁, h₁, hrun⟩ := Option.bind_eq_some_iff.mp hrun
    obtain ⟨w, a, a', -, -, ha⟩ := frameAssign_assigned h₁
    exact h.assigned ha configuredContent_screenLocation (fun hr hg => hnone (w := w) hr ha.old hg)
      (hkeeps s₁ h₁) (fun hst hg => h.childrenAt_of_borderStable ha.old hst hg) (hrefresh ha hrun)
  | @buttonConfigure p args hkeeps hrun =>
    rw [eiButtonConfigure_eq] at hrun
    obtain ⟨s₁, h₁, hrun⟩ := Option.bind_eq_some_iff.mp hrun
    obtain ⟨w, a, label, -, -, ha⟩ := buttonAssign_assigned h₁
    exact h.assigned ha configuredContent_screenLocation (fun hr hg => hnone (w := w) hr ha.old hg)
      (hkeeps s₁ h₁) (fun hst hg => h.childrenAt_of_borderStable ha.old hst hg) (hrefresh ha hrun)
  | unmap hrun => exact h.unmap hrun
  | invalidate hrun =>
    obtain ⟨hwidgets, hskel⟩ := eiAppInvalidateRect_frame hrun
    exact h.congr (h.wellFormed.congr hskel) (congrArg Skeleton.rootWidget hskel) fun q => by
      rw [hwidgets]
  | buttonDown hkeeps hrun => exact h.buttonDown hkeeps hrun
  | buttonUp hkeeps hrun => exact h.buttonUp hkeeps hrun
  | buttonMove hkeeps hrun => exact h.buttonMove hkeeps hrun
  | redraw hrun => exact h.redraw hdraw hrun

theorem layoutInvariant_of_run {rootSurface pickSurface : Surface} {s₀ : AppState}
    (hdraw : DrawsOnly drawfunc) (h₀ : eiAppCreate size rootSurface pickSurface = some s₀)
    (h : Relation.ReflTransGen (LayoutStep size drawfunc) s₀ s) : LayoutInvariant size s := by
  induction h with
  | refl => exact (Started.of_eq h₀).layoutInvariant
  | tail _ hstep ih => exact ih.step hdraw hstep

/-- **In every state of a run whose steps meet their conditions, the mapped widgets are where the
formula of the placer puts them**, and running the placer on one of them changes and invalidates
nothing. -/
theorem upToDate_of_run {rootSurface pickSurface : Surface} {s₀ : AppState}
    (hdraw : DrawsOnly drawfunc) (h₀ : eiAppCreate size rootSurface pickSurface = some s₀)
    (h : Relation.ReflTransGen (LayoutStep size drawfunc) s₀ s) :
    UpToDate s ∧ ∀ q w, s.widgets q = some w → w.geomParams.isSome → Mapped s q →
      runplacer s q = some s := by
  have hinv := layoutInvariant_of_run hdraw h₀ h
  refine ⟨hinv.located.upToDate, fun q w hq hg hmapped => ?_⟩
  have hqn := AppState.nodes_of_widgets hq
  cases ho : w.parent with
  | none =>
    rw [(hinv.root q w (hinv.wellFormed.root q w.node hqn ho) hq).1] at hg
    exact absurd hg (by simp)
  | some o =>
    obtain ⟨pn, hpn⟩ := hinv.wellFormed.linked.parent_live q o ⟨w.node, hqn, ho⟩
    obtain ⟨pw, hpo, -⟩ := AppState.nodes_eq_some.mp hpn
    exact runplacerWith_self hq ho hpo (hinv.located.upToDate q w o pw hq hmapped ho hpo)

end Runs

/-! ### A frame in a window -/

/-- The placer comes to nothing else than a widget without children. -/
theorem Reached.of_childless {m : Ptr → Option Widget} {p q : Ptr} {K L : Rect}
    (h : Reached m p K q L) (hchildless : ∀ c cw, m c = some cw → cw.parent ≠ some p) :
    q = p ∧ L = K := by
  induction h with
  | start => exact ⟨rfl, rfl⟩
  | child _ _ _ hc hparent ih =>
    rw [ih.1] at hparent
    exact absurd hparent (hchildless _ _ hc)

/-- Assigning the record of a widget gives it no children. -/
theorem childless_of_assigned {s s₁ : AppState} {p : Ptr} {w w' : Widget} (hs : WellFormed s)
    (ha : Assigned s s₁ p w w')
    (hchildless : ∀ c cw, s.widgets c = some cw → cw.parent ≠ some p) :
    ∀ c cw, s₁.widgets c = some cw → cw.parent ≠ some p := by
  intro c cw hc hcp
  have hne := (ha.wellFormed hs).ne_parent hc hcp
  exact hchildless c cw ((ha.other hne).symm.trans hc) hcp

theorem placerKeeps_of_childless {window : Size} {s : AppState} {p : Ptr} {stable : Prop}
    (hstable : stable) (hchildless : ∀ c cw, s.widgets c = some cw → cw.parent ≠ some p)
    (hkeeps : ∀ w o pw, s.widgets p = some w → w.parent = some o → s.widgets o = some pw →
      w.target pw.content ≠ w.screenLocation → w.Keeps s window p (w.target pw.content)) :
    PlacerKeeps window s p stable := by
  refine ⟨?_, fun _ _ _ _ _ _ _ _ => hstable⟩
  rintro o pw ⟨w, hp, ho⟩ hpo q K v hreach
  obtain ⟨rfl, rfl⟩ := hreach.of_childless hchildless
  intro hv hmove
  obtain rfl := Option.some.inj (hp.symm.trans hv)
  exact hkeeps w o pw hp ho hpo hmove

section Sample

attribute [local instance] sampleHardware

/-- A frame placed in the root. -/
def createPlaced : Option AppState := do
  let (s, frame) ← eiWidgetCreate (sampleApp ⟨640, 480⟩) .frame (some 0) none
  eiPlace s frame { x := some 10, y := some 20, width := some 100, height := some 50 }

theorem isSome_createPlaced : createPlaced.isSome := by with_unfolding_all rfl

/-- The state after `createPlaced`: the frame is at address 1. -/
def samplePlaced : AppState := createPlaced.get isSome_createPlaced

theorem samplePlaced_invariant : WellFormed samplePlaced ∧ Numbered samplePlaced := by
  have h : createPlaced = some samplePlaced := (Option.some_get _).symm
  simp only [createPlaced, Option.bind_eq_bind, Option.bind_eq_some_iff, Prod.exists] at h
  obtain ⟨s, frame, hcreate, hplace⟩ := h
  have hstart := sampleApp_started ⟨640, 480⟩
  obtain ⟨hc, -⟩ := eiWidgetCreate_created hstart.wellFormed (sampleApp_live ⟨640, 480⟩) hcreate
  have hskel := skeleton_eiPlace hplace
  exact ⟨hc.grown.wellFormed.congr hskel, (hc.grown.numbered hstart.numbered).congr hskel⟩

theorem samplePlaced_cases {q : Ptr} {w : Widget} (hw : samplePlaced.widgets q = some w) :
    q = 0 ∨ q = 1 := by
  have hlt := samplePlaced_invariant.1.lt_nextWidget (AppState.live_iff.mpr ⟨w, hw⟩)
  have hnext : samplePlaced.nextWidget = 2 := by with_unfolding_all rfl
  rw [hnext] at hlt
  exact Nat.le_one_iff_eq_zero_or_eq_one.mp (Nat.le_of_lt_succ hlt)

theorem isSome_eiWidgetCreate_frame :
    (eiWidgetCreate (sampleApp ⟨640, 480⟩) .frame (some 0) none).isSome := by
  rfl

/-- An application with one frame, at address 1, which is not placed. -/
def sampleFrame : AppState :=
  ((eiWidgetCreate (sampleApp ⟨640, 480⟩) .frame (some 0) none).get isSome_eiWidgetCreate_frame).1

theorem eiWidgetCreate_sampleFrame :
    eiWidgetCreate (sampleApp ⟨640, 480⟩) .frame (some 0) none = some (sampleFrame, 1) :=
  eq_some_of_get isSome_eiWidgetCreate_frame rfl

theorem sampleFrame_wellFormed : WellFormed sampleFrame :=
  (eiWidgetCreate_created (sampleApp_started ⟨640, 480⟩).wellFormed (sampleApp_live ⟨640, 480⟩)
    eiWidgetCreate_sampleFrame).1.grown.wellFormed

theorem sampleFrame_noChild : ∀ c cw, sampleFrame.widgets c = some cw → cw.parent ≠ some 1 := by
  intro c cw hc hcp
  have hs := sampleFrame_wellFormed
  have hlt := hs.linked.rank_lt c 1 ⟨cw.node, AppState.nodes_of_widgets hc, hcp⟩
  have hbound := hs.lt_nextWidget (AppState.live_iff.mpr ⟨cw, hc⟩)
  have hnext : sampleFrame.nextWidget = 2 := rfl
  have hc2 : c < 2 := hnext ▸ hbound
  exact Nat.lt_irrefl 1 (Nat.lt_of_lt_of_le hlt (Nat.le_of_lt_succ hc2))

/-- The frame has no children when it is placed. -/
theorem sampleFrame_childless {args : PlaceArgs} {s₁ : AppState}
    (h₁ : placeAssign sampleFrame 1 args = some s₁) :
    ∀ c cw, s₁.widgets c = some cw → cw.parent ≠ some 1 := by
  obtain ⟨w, ha⟩ := placeAssign_assigned h₁
  exact childless_of_assigned sampleFrame_wellFormed ha sampleFrame_noChild

/-- Placing the frame meets the condition when the formula gives a location in the window. -/
theorem sampleFrame_keeps {args : PlaceArgs}
    (hin : ((sampleFrame.widgets 1).bind fun w => (sampleFrame.widgets 0).map fun pw =>
      decide (((w.setGeomParams (some (placedParams w args))).target pw.content).InWindow
        ⟨640, 480⟩)) = some true) :
    ∀ s₁, placeAssign sampleFrame 1 args = some s₁ →
      PlacerKeeps ⟨640, 480⟩ s₁ 1 (PlaceStable sampleFrame 1) := by
  intro s₁ h₁
  obtain ⟨w, ha⟩ := placeAssign_assigned h₁
  have hframe : (sampleFrame.widgets 1).map (fun w => (w.wclass, w.parent)) =
      some (.frame, some 0) := rfl
  rw [ha.old, Option.map_some, Option.some.injEq, Prod.mk.injEq] at hframe
  have hstable : PlaceStable sampleFrame 1 := fun _ _ _ c cw hc hcp =>
    absurd hcp (sampleFrame_noChild c cw hc)
  refine placerKeeps_of_childless hstable (sampleFrame_childless h₁) fun v o pw hv ho hpo _ => ?_
  obtain rfl := Option.some.inj (ha.new.symm.trans hv)
  obtain rfl := Option.some.inj (hframe.2.symm.trans ho)
  rw [ha.other (by decide)] at hpo
  rw [ha.old, Option.bind_some, hpo, Option.map_some, Option.some.injEq, decide_eq_true_eq]
    at hin
  have hattrs : ∀ {w : Widget}, w.wclass = .frame → ∀ {rect : Rect},
      rect.InWindow ⟨640, 480⟩ → w.Keeps s₁ ⟨640, 480⟩ 1 rect := by
    intro w hw rect hrect
    rw [Widget.Keeps]
    cases hattrs : w.attrs with
    | frame a => exact hrect
    | button a => simp [Widget.wclass, hattrs, Attrs.wclass] at hw
    | toplevel a => trivial
  exact hattrs hframe.1 hin

/-- The frame is created, then placed in the window. -/
theorem run_samplePlaced : Relation.ReflTransGen
    (LayoutStep ⟨640, 480⟩ fun s _ _ => some s) (sampleApp ⟨640, 480⟩) samplePlaced := by
  have h : createPlaced = some samplePlaced := (Option.some_get _).symm
  rw [createPlaced, eiWidgetCreate_sampleFrame, Option.bind_eq_bind, Option.bind_some] at h
  exact .tail (.single (.create (sampleApp_live ⟨640, 480⟩) eiWidgetCreate_sampleFrame))
    (.place (sampleFrame_keeps (by with_unfolding_all rfl)) h)

/-- A frame in the window. -/
theorem upToDate_of_run_placed :
    UpToDate samplePlaced ∧ ∀ q w, samplePlaced.widgets q = some w → w.geomParams.isSome →
      Mapped samplePlaced q → runplacer samplePlaced q = some samplePlaced :=
  upToDate_of_run (fun s _ _ _ h => Option.some.inj h ▸ .refl s)
    (eiAppCreate_sampleApp ⟨640, 480⟩) run_samplePlaced

/-- A frame that leaves the window on the left. -/
def outsidePlace : PlaceArgs where
  x := some (-10)
  y := some 20
  width := some 100
  height := some 50

theorem isSome_eiPlace_outside : (eiPlace sampleFrame 1 outsidePlace).isSome := by
  with_unfolding_all rfl

/-- The state after the frame is placed across the left edge of the window. -/
def sampleOutside : AppState := (eiPlace sampleFrame 1 outsidePlace).get isSome_eiPlace_outside

/-- After the frame is placed, its location is not the one that the formula gives. -/
theorem sampleOutside_not_upToDate :
    eiPlace sampleFrame 1 outsidePlace = some sampleOutside ∧ ¬ UpToDate sampleOutside := by
  have hplace : eiPlace sampleFrame 1 outsidePlace = some sampleOutside :=
    (Option.some_get _).symm
  refine ⟨hplace, fun hup => ?_⟩
  have hs := sampleFrame_wellFormed.congr (skeleton_eiPlace hplace)
  have hroot : sampleOutside.rootWidget = some 0 := by with_unfolding_all rfl
  have h₀ : (sampleOutside.widgets 0).isSome := by with_unfolding_all rfl
  obtain ⟨r, hr⟩ := Option.isSome_iff_exists.mp h₀
  have h₁ : (sampleOutside.widgets 1).map (fun w => (w.parent, w.geomParams.isSome)) =
      some (some 0, true) := by with_unfolding_all rfl
  obtain ⟨w, hw, hlinks⟩ := Option.map_eq_some_iff.mp h₁
  obtain ⟨hparent, hg⟩ := Prod.mk.inj hlinks
  have hmapped : Mapped sampleOutside 1 :=
    (mapped_iff_of_childOf hs hw hparent (mapped_root hs hroot hr)).mpr hg
  have htarget := hup 1 w 0 r hw hmapped hparent hr
  have hne : ((sampleOutside.widgets 1).bind fun w => (sampleOutside.widgets 0).map fun pw =>
      decide (w.target pw.content = w.screenLocation)) = some false := by with_unfolding_all rfl
  rw [hw, Option.bind_some, hr, Option.map_some, Option.some.injEq, decide_eq_false_iff_not] at hne
  exact hne htarget

end Sample

end GuiLibrary

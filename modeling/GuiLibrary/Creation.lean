import GuiLibrary.Bodies
import GuiLibrary.Insertion

/-!
# What creating a widget does

`ei_widget_create` allocates one widget, three for a toplevel with its two hidden buttons. The
widgets that were alive keep their class, their pick colour, their destructor and their parent, no
freed address comes back to life, and the hierarchy stays well formed: `Grown` collects this. The
creation numbers follow the addresses (`Numbered`), and the bindings of a new toplevel are appended
to the list of bound events.

## Main definitions

* `Node.identity`, `Grown`, `Numbered`.
* `createdBindings`, `Created`.

## Main results

* `eiWidgetCreate_created`: what `ei_widget_create` does.
* `eiAppCreate_started`: the state in which the main loop starts.
-/

namespace GuiLibrary

open Cells

namespace Node

/-- What a widget keeps while it is allocated. -/
def identity (n : Node) : NodeClass × BitVec 32 × Color × Option ℕ × Option Ptr :=
  (n.nodeClass, n.pickId, n.pickColor, n.destructor, n.parent)

/-- Writing the flags of the class. -/
def setNodeClass (n : Node) (c : NodeClass) : Node := { n with nodeClass := c }

end Node

/-- The creation number is the address modulo `2 ^ 32`, and the pick colour encodes it. -/
structure Numbered (s : AppState) : Prop where
  widId : s.widId = BitVec.ofNat 32 s.nextWidget
  pickId : ∀ p n, s.nodes p = some n → n.pickId = BitVec.ofNat 32 p
  pickColor : ∀ p n, s.nodes p = some n → n.pickColor = pickColorOf n.pickId

theorem Numbered.congr {s s' : AppState} (hs : Numbered s) (h : s'.skeleton = s.skeleton) :
    Numbered s' := by
  have hn : s'.nodes = s.nodes := AppState.nodes_eq_of_skeleton h
  have hw : s'.nextWidget = s.nextWidget := congrArg Skeleton.nextWidget h
  have hi : s'.widId = s.widId := congrArg Skeleton.widId h
  exact ⟨by rw [hi, hw, hs.widId], by rw [hn]; exact hs.pickId, by rw [hn]; exact hs.pickColor⟩

/-! ### Growing -/

/-- The state `s'` is `s` with more widgets and more bindings, and other geometry and looks. -/
structure Grown (s s' : AppState) : Prop where
  wellFormed : WellFormed s'
  numbered : Numbered s → Numbered s'
  kept : ∀ p n, s.nodes p = some n → ∃ n', s'.nodes p = some n' ∧ n'.identity = n.identity
  fresh : ∀ p, p < s.nextWidget → s.nodes p = none → s'.nodes p = none
  nextWidget_le : s.nextWidget ≤ s'.nextWidget
  rootWidget : s'.rootWidget = s.rootWidget
  buttonPressed : s'.buttonPressed = s.buttonPressed
  resizingToplevel : s'.resizingToplevel = s.resizingToplevel
  movingToplevel : s'.movingToplevel = s.movingToplevel
  pickSurface : s'.pickSurface = s.pickSurface
  log : s'.log = s.log

namespace Grown

variable {s s₁ s₂ : AppState}

theorem trans (h₁ : Grown s s₁) (h₂ : Grown s₁ s₂) : Grown s s₂ where
  wellFormed := h₂.wellFormed
  numbered h := h₂.numbered (h₁.numbered h)
  kept p n hn := by
    obtain ⟨n₁, hn₁, hi₁⟩ := h₁.kept p n hn
    obtain ⟨n₂, hn₂, hi₂⟩ := h₂.kept p n₁ hn₁
    exact ⟨n₂, hn₂, hi₂.trans hi₁⟩
  fresh p hp hn := h₂.fresh p (Nat.lt_of_lt_of_le hp h₁.nextWidget_le) (h₁.fresh p hp hn)
  nextWidget_le := Nat.le_trans h₁.nextWidget_le h₂.nextWidget_le
  rootWidget := h₂.rootWidget.trans h₁.rootWidget
  buttonPressed := h₂.buttonPressed.trans h₁.buttonPressed
  resizingToplevel := h₂.resizingToplevel.trans h₁.resizingToplevel
  movingToplevel := h₂.movingToplevel.trans h₁.movingToplevel
  pickSurface := h₂.pickSurface.trans h₁.pickSurface
  log := h₂.log.trans h₁.log

theorem refl (hs : WellFormed s) : Grown s s :=
  ⟨hs, id, fun _ n hn => ⟨n, hn, rfl⟩, fun _ _ hn => hn, Nat.le_refl _, rfl, rfl, rfl, rfl, rfl,
    rfl⟩

/-- Growing only shows in the skeleton. -/
theorem congr (h : Grown s s₁) (hskel : s₂.skeleton = s₁.skeleton) : Grown s s₂ where
  wellFormed := h.wellFormed.congr hskel
  numbered hs := (h.numbered hs).congr hskel
  kept := by
    rw [AppState.nodes_eq_of_skeleton hskel]
    exact h.kept
  fresh := by
    rw [AppState.nodes_eq_of_skeleton hskel]
    exact h.fresh
  nextWidget_le := h.nextWidget_le.trans (congrArg Skeleton.nextWidget hskel).ge
  rootWidget := (congrArg Skeleton.rootWidget hskel).trans h.rootWidget
  buttonPressed := (congrArg Skeleton.buttonPressed hskel).trans h.buttonPressed
  resizingToplevel := (congrArg Skeleton.resizingToplevel hskel).trans h.resizingToplevel
  movingToplevel := (congrArg Skeleton.movingToplevel hskel).trans h.movingToplevel
  pickSurface := (congrArg Skeleton.pickSurface hskel).trans h.pickSurface
  log := (congrArg Skeleton.log hskel).trans h.log

/-- Binding an event grows nothing. -/
theorem onlyBinds (h : Grown s s₁) (hb : OnlyBinds s₁ s₂) : Grown s s₂ := by
  rw [OnlyBinds] at hb
  rw [hb]
  obtain ⟨hw, hnum, hkept, hfresh, hle, h₁, h₂, h₃, h₄, h₅, h₆⟩ := h
  exact ⟨hw.of_links (fun _ => rfl) rfl rfl, fun hs =>
    ⟨(hnum hs).widId, (hnum hs).pickId, (hnum hs).pickColor⟩, hkept, hfresh, hle, h₁, h₂, h₃, h₄,
    h₅, h₆⟩

/-- The flags of a new widget may still change. -/
theorem setNodeClass (h : Grown s s₁) {p : Ptr} {w : Widget} {n : Node} {c : NodeClass}
    (hp : s.nextWidget ≤ p) (hs : WellFormed s) (hn : s₁.nodes p = some n)
    (hw : w.node = n.setNodeClass c) : Grown s (s₁.setWidget p w) := by
  have hnodes : ∀ {γ : Type} (g : Node → γ), (∀ m, g (m.setNodeClass c) = g m) → ∀ q,
      ((s₁.setWidget p w).nodes q).map g = (s₁.nodes q).map g := by
    intro γ g hg q
    rw [AppState.nodes_setWidget]
    by_cases hq : q = p
    · subst hq
      rw [Function.update_self, hn, Option.map_some, Option.map_some, hw, hg]
    · rw [Function.update_of_ne hq]
  have hwf : WellFormed (s₁.setWidget p w) :=
    h.wellFormed.of_links (hnodes Node.links fun _ => rfl) rfl rfl
  have hpick : ∀ {γ : Type} (g : Node → γ), (∀ m, g (m.setNodeClass c) = g m) → ∀ {q m},
      (s₁.setWidget p w).nodes q = some m → ∃ m', s₁.nodes q = some m' ∧ g m' = g m := by
    intro γ g hg q m hm
    have := hnodes g hg q
    rw [hm, Option.map_some, eq_comm, Option.map_eq_some_iff] at this
    exact this
  refine ⟨hwf, fun hnum => ⟨(h.numbered hnum).widId, fun q m hm => ?_, fun q m hm => ?_⟩,
    fun q m hm => ?_, fun q hq hm => ?_, h.nextWidget_le, h.rootWidget, h.buttonPressed,
    h.resizingToplevel, h.movingToplevel, h.pickSurface, h.log⟩
  · obtain ⟨m', hm', hi⟩ := hpick Node.pickId (fun _ => rfl) hm
    rw [← hi, (h.numbered hnum).pickId q m' hm']
  · obtain ⟨m', hm', hi⟩ := hpick (fun n => (n.pickId, n.pickColor)) (fun _ => rfl) hm
    obtain ⟨h₁, h₂⟩ := Prod.mk.inj hi
    rw [← h₁, ← h₂, (h.numbered hnum).pickColor q m' hm']
  · have hqp : q ≠ p := by
      rintro rfl
      exact Nat.not_lt.mpr hp (hs.linked.rank_bound q m hm)
    rw [AppState.nodes_setWidget, Function.update_of_ne hqp]
    exact h.kept q m hm
  · rw [AppState.nodes_setWidget, Function.update_of_ne fun hqp : q = p =>
      Nat.not_lt.mpr hp (hqp ▸ hq)]
    exact h.fresh q hq hm

end Grown

/-! ### Creating one widget -/

section Create

variable [Hardware] {s s' : AppState} {c : WidgetClass} {parent wid : Ptr} {d : Option ℕ}

/-- Linking a new widget to a live parent. -/
theorem insertChild_grown (hs : WellFormed s) (hparent : s.Live parent)
    (h : insertChild (s.allocWidget (newWidget s.widId c (some parent) d)) parent s.nextWidget =
      some s') :
    Grown s s' ∧ s'.nextWidget = s.nextWidget + 1 ∧
      (∃ n, s'.nodes s.nextWidget = some n ∧
        n.identity = (newWidget s.widId c (some parent) d).node.identity) ∧
      KeepsBodies (· < s.nextWidget) s s' ∧
      (∃ w, s'.widgets s.nextWidget = some w ∧
        w.body = (newWidget s.widId c (some parent) d).body) ∧
      ∀ l, HasBindings s l → HasBindings s' l := by
  let w := newWidget s.widId c (some parent) d
  obtain ⟨pn, hpn⟩ := hparent
  have hdead := hs.nodes_nextWidget
  have hne : parent ≠ s.nextWidget := by
    rintro rfl
    simp [hdead] at hpn
  obtain ⟨l, hl, htail, hmem⟩ := hs.exists_children hpn
  have hpl := hs.notMem_children hpn hl
  have hwl := hs.nextWidget_notMem hl
  have hN := s.nodes_allocWidget w
  obtain ⟨l₁, l₂, rfl, hsp, ho⟩ := insertChild_inserted (n := w.node) hne
    (by rw [AppState.nodes_allocWidget_of_ne hne, hpn]) (s.nodes_allocWidget_self w)
    (hN ▸ hl.update_of_notMem hwl _) htail hpl hwl h
  have hnext : s'.nextWidget = s.nextWidget + 1 := by rw [ho]; rfl
  have hid : ∀ {γ : Type} (g : Node → γ), (∀ n r, g (n.setNextSibling r) = g n) →
      (∀ n hd tl, g (n.setChildren hd tl) = g n) → ∀ q,
        (s'.nodes q).map g = (Function.update s.nodes s.nextWidget (some w.node) q).map g := by
    intro γ g hg hg' q
    rw [← hN]
    exact hsp.map_eq g q (fun _ => hg) fun _ => hg'
  have hnew := hid Node.identity (fun _ _ => rfl) (fun _ _ _ => rfl) s.nextWidget
  rw [Function.update_self, Option.map_some, Option.map_eq_some_iff] at hnew
  have hins : Inserted s s' w parent _ _ := ⟨hs, rfl, rfl, rfl, ⟨_, hpn, hl⟩, hsp, ho⟩
  refine ⟨⟨hins.wellFormed, fun hnum => ?_, fun p n hn => ?_, fun p hp hn => ?_,
    hnext ▸ Nat.le_succ _, by rw [ho]; rfl, by rw [ho]; rfl, by rw [ho]; rfl, by rw [ho]; rfl,
    by rw [ho]; rfl, by rw [ho]; rfl⟩, hnext, hnew, ?_, ?_, fun l hl => ?_⟩
  · have hpick : ∀ q n, s'.nodes q = some n →
        n.pickId = BitVec.ofNat 32 q ∧ n.pickColor = pickColorOf n.pickId := by
      intro q n hn
      have hmap := hid (fun n => (n.pickId, n.pickColor)) (fun _ _ => rfl) (fun _ _ _ => rfl) q
      rw [hn, Option.map_some, eq_comm, Option.map_eq_some_iff] at hmap
      obtain ⟨n', hn', heq⟩ := hmap
      obtain ⟨h₁, h₂⟩ := Prod.mk.inj heq
      rw [← h₁, ← h₂]
      by_cases hq : q = s.nextWidget
      · subst hq
        rw [Function.update_self, Option.some.injEq] at hn'
        subst hn'
        exact ⟨hnum.widId, rfl⟩
      · rw [Function.update_of_ne hq] at hn'
        exact ⟨hnum.pickId q n' hn', hnum.pickColor q n' hn'⟩
    refine ⟨?_, fun q n hn => (hpick q n hn).1, fun q n hn => (hpick q n hn).2⟩
    have hwid : s'.widId = s.widId + 1 := by rw [ho]; rfl
    rw [hwid, hnum.widId, hnext]
    apply BitVec.eq_of_toNat_eq
    simp
  · have hpw : p ≠ s.nextWidget := by
      rintro rfl
      simp [hdead] at hn
    have hmap := hid Node.identity (fun _ _ => rfl) (fun _ _ _ => rfl) p
    rw [Function.update_of_ne hpw, hn, Option.map_some, Option.map_eq_some_iff] at hmap
    exact hmap
  · have hmap := hid (fun _ => ()) (fun _ _ => rfl) (fun _ _ _ => rfl) p
    rw [Function.update_of_ne (Nat.ne_of_lt hp), hn, Option.map_none, Option.map_eq_none_iff]
      at hmap
    exact hmap
  · exact fun q hq => (insertChild_bodies (P := fun _ => True) h q trivial).trans
      (congrArg _ (Function.update_of_ne (Nat.ne_of_lt hq) ..))
  · have halloc := s.widgets_allocWidget_self w
    have hbody := insertChild_bodies (P := fun _ => True) h s.nextWidget trivial
    rw [halloc, Option.map_some, Option.map_eq_some_iff] at hbody
    exact hbody
  · exact hl.of_binds (by rw [ho]; rfl) (by rw [ho]; rfl) (by rw [ho]; rfl)

omit [Hardware] in
theorem node_setResizeButton (w : Widget) (h : w.attrs.nodeClass = .button false false none) :
    w.setResizeButton.node = w.node.setNodeClass (.button false true none) := by
  rw [Widget.setResizeButton]
  split
  · next a ha =>
    rw [ha, Attrs.nodeClass, NodeClass.button.injEq] at h
    simp only [Widget.node, Node.setNodeClass, Attrs.nodeClass, h]
  · next ha => simp [ha, Attrs.nodeClass] at h
  · next ha => simp [ha, Attrs.nodeClass] at h

omit [Hardware] in
theorem node_setQuitButton (w : Widget) (h : w.attrs.nodeClass = .button false false none) :
    w.setQuitButton.node = w.node.setNodeClass (.button true false none) := by
  rw [Widget.setQuitButton]
  split
  · next a ha =>
    rw [ha, Attrs.nodeClass, NodeClass.button.injEq] at h
    simp only [Widget.node, Node.setNodeClass, Attrs.nodeClass, h]
  · next ha => simp [ha, Attrs.nodeClass] at h
  · next ha => simp [ha, Attrs.nodeClass] at h

/-- A hidden button of a toplevel: one widget and one binding. -/
theorem createHiddenButton_grown {toplevel : Ptr} {config : ButtonArgs}
    {setFlags : Widget → Widget} {place : PlaceArgs} {callback : Callback} {cls : NodeClass}
    (hs : WellFormed s) (ht : s.Live toplevel) (hconfig : config.callback = none)
    (hflags : ∀ w : Widget, w.attrs.nodeClass = .button false false none →
      (setFlags w).node = w.node.setNodeClass cls)
    (h : createHiddenButton s toplevel config setFlags place callback = some s') :
    Grown s s' ∧ s'.nextWidget = s.nextWidget + 1 ∧
      (∃ n, s'.nodes s.nextWidget = some n ∧ n.nodeClass = cls ∧ n.parent = some toplevel) ∧
      KeepsBodies (· < s.nextWidget) s s' ∧
      ∀ l, HasBindings s l → ∃ a, HasBindings s' (l ++ [(a,
        ⟨.mouseButtondown, some s.nextWidget, none, callback, none, true⟩)]) := by
  simp only [createHiddenButton, eiWidgetCreateWith, Option.elim_some, Option.bind_eq_bind,
    Option.bind_eq_some_iff, Prod.exists, Option.some.injEq, Prod.mk.injEq] at h
  obtain ⟨s₁, button, ⟨s₀, h₁, _, rfl, rfl, rfl⟩, s₂, h₂, s₃, h₃, s₄, h₄, h₅⟩ := h
  obtain ⟨hg₁, hnext₁, ⟨n, hn, hid⟩, hold₁, ⟨w, hw, hbody⟩, hb₁⟩ := insertChild_grown hs ht h₁
  obtain rfl := Option.some.inj (hn.symm.trans (AppState.nodes_of_widgets hw))
  have hplain : w.attrs.nodeClass = .button false false none :=
    (congrArg Prod.fst hid : w.node.nodeClass = _)
  -- Configuring keeps the skeleton, the flags change one class.
  have hskel₂ := skeleton_eiButtonConfigure hw hplain hconfig h₂
  obtain ⟨w₂, hw₂, rfl⟩ := Option.map_eq_some_iff.mp h₃
  have hn₂ : s₂.nodes s.nextWidget = some w.node := by
    rw [AppState.nodes_eq_of_skeleton hskel₂, hn]
  have hnode₂ : w₂.node = w.node := Option.some.inj
    ((AppState.nodes_of_widgets hw₂).symm.trans hn₂)
  have hset : (setFlags w₂).node = w.node.setNodeClass cls := by
    rw [hflags w₂ ((congrArg Node.nodeClass hnode₂).trans hplain), hnode₂]
  have hg₃ := (hg₁.congr hskel₂).setNodeClass (Nat.le_refl _) hs hn₂ hset
  have hskel₄ := skeleton_eiPlace h₄
  have hn₄ : s₄.nodes s.nextWidget = some (w.node.setNodeClass cls) := by
    rw [AppState.nodes_eq_of_skeleton hskel₄, AppState.nodes_setWidget, Function.update_self, hset]
  have hbind : ∀ l, HasBindings s l → HasBindings s₄ l := fun l hl => by
    have hset : HasBindings (s₂.setWidget s.nextWidget (setFlags w₂)) l :=
      ((hb₁ l hl).congr hskel₂).of_binds rfl rfl rfl
    exact hset.congr hskel₄
  have happend : eiBind s₄ .mouseButtondown (some s.nextWidget) none callback none = appendBind s₄
      ⟨.mouseButtondown, some s.nextWidget, none, callback, none, true⟩ := rfl
  have honly : OnlyBinds s₄ s' := appendBind_onlyBinds (happend ▸ h₅)
  refine ⟨(hg₃.congr hskel₄).onlyBinds honly, ?_, ⟨w.node.setNodeClass cls, ?_, rfl, ?_⟩, ?_,
    fun l hl => ?_⟩
  · rw [honly]
    refine (congrArg Skeleton.nextWidget hskel₄).trans ?_
    exact (congrArg Skeleton.nextWidget hskel₂).trans hnext₁
  · rw [honly]
    exact hn₄
  · have hpar : w.parent = some toplevel := congrArg (fun i => i.2.2.2.2) hid
    exact hpar
  · -- Everything but the linking happens at the new address.
    obtain ⟨w', rfl⟩ := eiButtonConfigure_unmapped hw (Widget.geomParams_of_body hbody) h₂
    have hwf₃ := hg₃.wellFormed
    have hne : ¬ s.nextWidget < s.nextWidget := Nat.lt_irrefl _
    have hplace : KeepsBodies (· < s.nextWidget) _ s₄ := .of_widgets fun q hq =>
      eiPlace_outside hwf₃ h₄ fun hsub => by
        rcases hsub with rfl | hsub
        · exact hne hq
        · exact Nat.lt_asymm hq (hwf₃.linked.rank_lt_of_below hsub)
    refine (((hold₁.trans (.setWidget w' hne)).trans (.setWidget _ hne)).trans hplace).trans ?_
    exact .of_widgets fun q _ => by rw [honly]
  · obtain ⟨s₅, hs₅, hl', -⟩ := (hbind l hl).appendBind
      ⟨.mouseButtondown, some s.nextWidget, none, callback, none, true⟩
    obtain rfl := Option.some.inj (hs₅.symm.trans (happend ▸ h₅))
    exact ⟨_, hl'⟩

/-- The bindings of a new widget: those of a toplevel and of its hidden buttons. -/
def createdBindings : WidgetClass → Ptr → List Binding
  | .frame, _ => []
  | .button, _ => []
  | .toplevel, wid =>
      [⟨.mouseButtondown, some (wid + 1), none, .begResize, none, true⟩,
        ⟨.mouseButtondown, some wid, none, .begMove, none, true⟩,
        ⟨.mouseButtondown, some (wid + 2), none, .quitToplevelEvent, none, true⟩]

/-- What `ei_widget_create` of a class under a parent with a destructor does. -/
structure Created (s s' : AppState) (c : WidgetClass) (parent : Ptr) (d : Option ℕ) : Prop where
  grown : Grown s s'
  node : ∃ n, s'.nodes s.nextWidget = some n ∧ n.nodeClass = (defaultAttrs c).nodeClass ∧
    n.parent = some parent ∧ n.destructor = d
  hidden : c = .toplevel →
    (∃ n, s'.nodes (s.nextWidget + 1) = some n ∧ n.nodeClass = .button false true none ∧
      n.parent = some s.nextWidget) ∧
    ∃ n, s'.nodes (s.nextWidget + 2) = some n ∧ n.nodeClass = .button true false none ∧
      n.parent = some s.nextWidget
  nextWidget : s'.nextWidget = s.nextWidget + if c = .toplevel then 3 else 1
  bodies : KeepsBodies (· < s.nextWidget) s s'
  unmapped : ∃ w, s'.widgets s.nextWidget = some w ∧ w.geomParams = none
  bindings : ∀ l, HasBindings s l →
    ∃ l', HasBindings s' (l ++ l') ∧ l'.map Prod.snd = createdBindings c s.nextWidget

/-- **What `ei_widget_create` does**, whenever it completes under a live parent. -/
theorem eiWidgetCreate_created (hs : WellFormed s) (hparent : s.Live parent)
    (h : eiWidgetCreate s c (some parent) d = some (s', wid)) :
    Created s s' c parent d ∧ wid = s.nextWidget := by
  simp only [eiWidgetCreate, eiWidgetCreateWith, Option.elim_some, Option.bind_eq_bind,
    Option.bind_eq_some_iff, Option.some.injEq, Prod.mk.injEq] at h
  obtain ⟨s₁, h₁, s₂, h₂, rfl, rfl⟩ := h
  refine ⟨?_, rfl⟩
  obtain ⟨hg₁, hnext₁, ⟨n, hn, hid⟩, hold₁, ⟨w, hw, hbody⟩, hb₁⟩ := insertChild_grown hs hparent h₁
  have hg : w.geomParams = none := Widget.geomParams_of_body hbody
  have hnode : n.nodeClass = (defaultAttrs c).nodeClass ∧ n.parent = some parent ∧
      n.destructor = d :=
    ⟨congrArg Prod.fst hid, congrArg (fun i => i.2.2.2.2) hid, congrArg (fun i => i.2.2.2.1) hid⟩
  have hplain : c ≠ .toplevel → s₁ = s₂ → Created s s₂ c parent d := by
    rintro hc rfl
    refine ⟨hg₁, ⟨n, hn, hnode⟩, fun h => absurd h hc, by rw [hnext₁, if_neg hc], hold₁,
      ⟨w, hw, hg⟩, fun l hl => ⟨[], by rw [List.append_nil]; exact hb₁ l hl, ?_⟩⟩
    cases c with
    | frame => rfl
    | button => rfl
    | toplevel => exact absurd rfl hc
  cases c with
  | frame => exact hplain (by decide) (Option.some.inj h₂)
  | button => exact hplain (by decide) (Option.some.inj h₂)
  | toplevel =>
    simp only [setdefaultsfunc, setdefaultstoplevel, Option.bind_eq_bind,
      Option.bind_eq_some_iff] at h₂
    obtain ⟨s₃, h₃, s₄, h₄, h₅⟩ := h₂
    obtain ⟨hg₃, hnext₃, ⟨m, hm, hmc, hmp⟩, hold₃, hb₃⟩ := createHiddenButton_grown hg₁.wellFormed
      ⟨n, hn⟩ rfl node_setResizeButton h₃
    have honly : OnlyBinds s₃ s₄ := appendBind_onlyBinds
      (b := ⟨.mouseButtondown, some s.nextWidget, none, .begMove, none, true⟩) h₄
    obtain ⟨n₃, hn₃, hid₃⟩ := hg₃.kept _ n hn
    have hnodes : s₄.nodes = s₃.nodes := by
      rw [honly]
      rfl
    obtain ⟨hg₅, hnext₅, ⟨q, hq, hqc, hqp⟩, hold₅, hb₅⟩ := createHiddenButton_grown
      (hg₃.onlyBinds honly).wellFormed ⟨n₃, hnodes ▸ hn₃⟩ rfl
      node_setQuitButton h₅
    have hnext₄ : s₄.nextWidget = s.nextWidget + 2 := by
      have : s₄.nextWidget = s₃.nextWidget := by rw [honly]
      rw [this, hnext₃, hnext₁]
    rw [hnext₁] at hm hold₃
    rw [hnext₄] at hq hnext₅ hold₅
    have hold : KeepsBodies (· < s.nextWidget + 1) s₁ s₂ :=
      (hold₃.trans (.of_widgets fun q _ => by rw [honly])).trans
        (hold₅.mono fun q hq => Nat.lt_succ_of_lt hq)
    refine ⟨(hg₁.trans (hg₃.onlyBinds honly)).trans hg₅, ?_, fun _ => ⟨?_, q, hq, hqc, hqp⟩,
      hnext₅, hold₁.trans (hold.mono fun q hq => Nat.lt_succ_of_lt hq), ?_, fun l hl => ?_⟩
    · obtain ⟨n₅, hn₅, hid₅⟩ := hg₅.kept _ n₃ (hnodes ▸ hn₃)
      have hid' := hid₅.trans (hid₃.trans hid)
      exact ⟨n₅, hn₅, congrArg Prod.fst hid', congrArg (fun i => i.2.2.2.2) hid',
        congrArg (fun i => i.2.2.2.1) hid'⟩
    · obtain ⟨m₅, hm₅, hidm⟩ := hg₅.kept _ m (hnodes ▸ hm)
      exact ⟨m₅, hm₅, (congrArg Prod.fst hidm).trans hmc,
        (congrArg (fun i => i.2.2.2.2) hidm).trans hmp⟩
    · have hbody₂ := hold s.nextWidget (Nat.lt_succ_self _)
      rw [hw, Option.map_some, Option.map_eq_some_iff] at hbody₂
      obtain ⟨w₂, hw₂, hbody₂⟩ := hbody₂
      exact ⟨w₂, hw₂, (Widget.geomParams_of_body hbody₂).trans hg⟩
    · obtain ⟨a, ha⟩ := hb₃ l (hb₁ l hl)
      obtain ⟨s₄', hs₄', ha', -⟩ := ha.appendBind
        ⟨.mouseButtondown, some s.nextWidget, none, .begMove, none, true⟩
      obtain rfl := Option.some.inj (hs₄'.symm.trans h₄)
      obtain ⟨b, hb⟩ := hb₅ _ ha'
      refine ⟨[(a, _), (s₃.nextBind, _), (b, _)], by simpa using hb, ?_⟩
      rw [hnext₁, hnext₄]
      rfl

/-- What is created besides the widget itself are the hidden buttons, its children. -/
theorem Created.hidden_of_lt {d : Option ℕ} {q : Ptr} (hc : Created s s' c parent d)
    (hlt : s.nextWidget < q) (hq : s'.Live q) : ∃ n, s'.nodes q = some n ∧
      (n.nodeClass = .button false true none ∨ n.nodeClass = .button true false none) ∧
      n.parent = some s.nextWidget := by
  have hbound := hc.grown.wellFormed.lt_nextWidget hq
  rw [hc.nextWidget] at hbound
  obtain ⟨k, rfl⟩ := Nat.exists_eq_add_of_lt hlt
  split_ifs at hbound with hcls
  · obtain ⟨⟨n₁, hn₁, hc₁, hp₁⟩, n₂, hn₂, hc₂, hp₂⟩ := hc.hidden hcls
    have hk : k + 1 < 3 := Nat.lt_of_add_lt_add_left hbound
    have hcases : k = 0 ∨ k = 1 := by omega
    rcases hcases with rfl | rfl
    · exact ⟨n₁, hn₁, Or.inl hc₁, hp₁⟩
    · exact ⟨n₂, hn₂, Or.inr hc₂, hp₂⟩
  · have hk : k + 1 < 1 := Nat.lt_of_add_lt_add_left hbound
    omega

/-! ### Starting the application -/

/-- The root widget in the state in which the main loop starts. -/
def startedRoot (mainWindowSize : Size) : Widget :=
  ((newWidget 0 .frame none none).reconfigure mainWindowSize .screenLocation
    (.frame { setdefaultsframe with color := eiDefaultBackgroundColor })).setScreenLocation
      (Rect.ofSize mainWindowSize)

/-- A binding of `ei_app_create`. -/
def appBinding (b : EventType × Tag × Callback) : Binding :=
  ⟨b.1, none, some b.2.1, b.2.2, none, b.1.pickable⟩

/-- The state in which the main loop starts. -/
structure Started (s : AppState) (mainWindowSize : Size) (pickSurface : Surface) : Prop where
  widgets : s.widgets = Function.update (fun _ => none) 0 (some (startedRoot mainWindowSize))
  nextWidget : s.nextWidget = 1
  widId : s.widId = 1
  rootWidget : s.rootWidget = some 0
  bindings : ∃ l, HasBindings s l ∧ l.map Prod.snd = appBindings.map appBinding
  invalidatedRects : s.invalidatedRects = []
  buttonPressed : s.buttonPressed = none
  resizingToplevel : s.resizingToplevel = none
  movingToplevel : s.movingToplevel = none
  pickSurface : s.pickSurface = pickSurface
  log : s.log = []

omit [Hardware] in
/-- Binding events one after the other appends them. -/
theorem foldlM_eiBind : (bs : List (EventType × Tag × Callback)) → {s : AppState} →
    {l : List (Ptr × Binding)} → HasBindings s l →
    ∃ s' l', bs.foldlM (fun s b => eiBind s b.1 none (some b.2.1) b.2.2 none) s = some s' ∧
      HasBindings s' (l ++ l') ∧ l'.map Prod.snd = bs.map appBinding ∧ OnlyBinds s s'
  | [], s, l, hl => ⟨s, [], rfl, by simpa using hl, rfl, .refl s⟩
  | b :: bs, s, l, hl => by
      obtain ⟨s₁, h₁, hl₁, ho₁⟩ := hl.eiBind b.1 none (some b.2.1) b.2.2 none (by simp)
      obtain ⟨s₂, l', h₂, hl₂, hmap, ho₂⟩ := foldlM_eiBind bs hl₁
      refine ⟨s₂, (s.nextBind, appBinding b) :: l', ?_, by simpa [appBinding] using hl₂, ?_,
        ho₁.trans ho₂⟩
      · rw [List.foldlM_cons, h₁]
        exact h₂
      · rw [List.map_cons, List.map_cons, hmap]

/-- The state of `ei_app_create` before it binds the handlers of the library. -/
def unboundState (mainWindowSize : Size) (rootSurface pickSurface : Surface) : AppState :=
  { initialState rootSurface pickSurface with
    widgets := Function.update (fun _ => none) 0 (some (startedRoot mainWindowSize))
    nextWidget := 1
    widId := 1
    rootWidget := some 0 }

theorem eiAppCreate_eq (mainWindowSize : Size) (rootSurface pickSurface : Surface) :
    eiAppCreate mainWindowSize rootSurface pickSurface =
      appBindings.foldlM (fun s b => eiBind s b.1 none (some b.2.1) b.2.2 none)
        (unboundState mainWindowSize rootSurface pickSurface) := by
  simp [eiAppCreate, eiWidgetCreate, eiWidgetCreateWith, AppState.allocWidget, initialState,
    setdefaultsfunc, eiFrameConfigure, newWidget, defaultAttrs, configureLabel, configureTextImg,
    refresh, AppState.modifyWidget, Widget.reconfigure, AppState.setWidget, unboundState,
    startedRoot, configuredSize, configuredContent, setdefaultsframe, Widget.setScreenLocation]

/-- **`ei_app_create` completes**, with the root widget as the only one and the seven bindings of
the library. -/
theorem eiAppCreate_started (mainWindowSize : Size) (rootSurface pickSurface : Surface) :
    ∃ s, eiAppCreate mainWindowSize rootSurface pickSurface = some s ∧
      Started s mainWindowSize pickSurface := by
  have hl₀ : HasBindings (unboundState mainWindowSize rootSurface pickSurface) [] :=
    ⟨rfl, by simp, fun _ _ => rfl⟩
  obtain ⟨s, l, hs, hl, hmap, ho⟩ := foldlM_eiBind appBindings hl₀
  refine ⟨s, (eiAppCreate_eq ..).trans hs, ?_⟩
  rw [OnlyBinds] at ho
  constructor
  case bindings => exact ⟨l, hl, hmap⟩
  all_goals
    rw [ho]
    rfl

namespace Started

omit [Hardware] in
theorem of_eq [Hardware] {s : AppState} {mainWindowSize : Size} {rootSurface pickSurface : Surface}
    (h : eiAppCreate mainWindowSize rootSurface pickSurface = some s) :
    Started s mainWindowSize pickSurface := by
  obtain ⟨s', hs', hstarted⟩ := eiAppCreate_started mainWindowSize rootSurface pickSurface
  obtain rfl := Option.some.inj (h.symm.trans hs')
  exact hstarted

variable {s : AppState} {mainWindowSize : Size} {pickSurface : Surface}

theorem nodes (h : Started s mainWindowSize pickSurface) :
    s.nodes = Function.update (fun _ => none) 0 (some (startedRoot mainWindowSize).node) := by
  funext q
  rw [AppState.nodes, h.widgets]
  by_cases hq : q = 0
  · subst hq
    rw [Function.update_self, Function.update_self, Option.map_some]
  · rw [Function.update_of_ne hq, Function.update_of_ne hq, Option.map_none]

theorem eq_zero (h : Started s mainWindowSize pickSurface) {p : Ptr} {n : Node}
    (hn : s.nodes p = some n) : p = 0 ∧ n = (startedRoot mainWindowSize).node := by
  rw [h.nodes] at hn
  by_cases hp : p = 0
  · subst hp
    rw [Function.update_self, Option.some.injEq] at hn
    exact ⟨rfl, hn.symm⟩
  · rw [Function.update_of_ne hp] at hn
    exact absurd hn (by simp)

theorem wellFormed (h : Started s mainWindowSize pickSurface) : WellFormed s := by
  have hchild : ∀ c p, ¬ nodeLinks.ChildOf s.nodes c p := by
    rintro c p ⟨n, hn, hp⟩
    obtain ⟨-, rfl⟩ := h.eq_zero hn
    exact absurd hp (by simp [nodeLinks, startedRoot, Widget.reconfigure, newWidget, Widget.node,
      Widget.setScreenLocation])
  refine .of_children (fun p n hn => ⟨[], ?_, ?_, fun c => ?_⟩)
    (fun c p hc => absurd hc (hchild c p))
    (fun c p hc => absurd hc (hchild c p)) (fun p n hn => ?_) (fun p n hn _ => ?_) fun p hp => ?_
  · obtain ⟨-, rfl⟩ := h.eq_zero hn
    rfl
  · obtain ⟨-, rfl⟩ := h.eq_zero hn
    rfl
  · simp [hchild c p]
  · obtain ⟨rfl, -⟩ := h.eq_zero hn
    rw [h.nextWidget]
    exact Nat.zero_lt_one
  · obtain ⟨rfl, -⟩ := h.eq_zero hn
    exact h.rootWidget
  · rw [h.rootWidget, Option.some.injEq] at hp
    rw [← hp, h.nextWidget]
    exact Nat.zero_lt_one

theorem numbered (h : Started s mainWindowSize pickSurface) : Numbered s := by
  refine ⟨by rw [h.widId, h.nextWidget]; rfl, fun p n hn => ?_, fun p n hn => ?_⟩
  · obtain ⟨rfl, rfl⟩ := h.eq_zero hn
    rfl
  · obtain ⟨rfl, rfl⟩ := h.eq_zero hn
    simp only [startedRoot, Widget.node, Widget.setScreenLocation, Widget.reconfigure, newWidget]

theorem hasWindow (h : Started s mainWindowSize pickSurface) : s.HasWindow mainWindowSize :=
  ⟨0, startedRoot mainWindowSize, h.rootWidget, by rw [h.widgets, Function.update_self], rfl⟩

end Started

end Create

/-! ### A small application -/

/-- A hardware layer with a fixed-width font. -/
@[reducible] def sampleHardware : Hardware where
  hwTextComputeSize text _ := ⟨8 * text.length, 16⟩
  eiDefaultFont := 0
  mallocRect := eiRectZero

/-- A call that returns a value, once the value is known. -/
theorem eq_some_of_get {α β : Type} {x : Option (α × β)} (h : x.isSome) {b : β}
    (hb : (x.get h).2 = b) : x = some ((x.get h).1, b) := by
  subst hb
  exact (Option.some_get h).symm

section Sample

attribute [local instance] sampleHardware

theorem isSome_eiAppCreate (size : Size) :
    (eiAppCreate size (sampleSurface size) (sampleSurface size)).isSome := by
  obtain ⟨s, hs, -⟩ := eiAppCreate_started size (sampleSurface size) (sampleSurface size)
  rw [hs, Option.isSome_some]

/-- An application with a window of the given size. -/
def sampleApp (size : Size) : AppState :=
  (eiAppCreate size (sampleSurface size) (sampleSurface size)).get (isSome_eiAppCreate size)

theorem eiAppCreate_sampleApp (size : Size) :
    eiAppCreate size (sampleSurface size) (sampleSurface size) = some (sampleApp size) :=
  (Option.some_get _).symm

theorem sampleApp_started (size : Size) : Started (sampleApp size) size (sampleSurface size) :=
  .of_eq (eiAppCreate_sampleApp size)

theorem sampleApp_live (size : Size) : (sampleApp size).Live 0 := by
  rw [AppState.Live, (sampleApp_started size).nodes]
  exact ⟨_, Function.update_self ..⟩

theorem isSome_eiWidgetCreate_toplevel :
    (eiWidgetCreate (sampleApp ⟨640, 480⟩) .toplevel (some 0) none).isSome := by
  with_unfolding_all rfl

/-- An application with one toplevel, at address 1. -/
def sampleToplevel : AppState :=
  ((eiWidgetCreate (sampleApp ⟨640, 480⟩) .toplevel (some 0) none).get
    isSome_eiWidgetCreate_toplevel).1

theorem eiWidgetCreate_sampleToplevel :
    eiWidgetCreate (sampleApp ⟨640, 480⟩) .toplevel (some 0) none = some (sampleToplevel, 1) :=
  eq_some_of_get isSome_eiWidgetCreate_toplevel (by with_unfolding_all rfl)

theorem sampleToplevel_wellFormed : WellFormed sampleToplevel :=
  (eiWidgetCreate_created (sampleApp_started ⟨640, 480⟩).wellFormed (sampleApp_live ⟨640, 480⟩)
    eiWidgetCreate_sampleToplevel).1.grown.wellFormed

end Sample

end GuiLibrary

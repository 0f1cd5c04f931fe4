import GuiLibrary.Withdrawal

/-!
# The decorations of a toplevel

The children of a toplevel are its quit button, the children of the programmer, and its resize
button; either button may be missing. `ei_toplevel_configure` withdraws the quit button of a
toplevel that is made not closable, and the resize button of one that is made not resizable.

`CanConfigure` is the exact condition under which this works: the toplevel has a first child
whenever a button is looked for, and a quit button goes only when it is the only child. Under it
exactly the withdrawn button is destroyed, and the other children keep their order.

## Main definitions

* `Decoration`, `Decorated`, `Decoration.configure`, `CanConfigure`, `WithdrawsExactly`.

## Main results

* `eiToplevelConfigure_decorated`, `eiToplevelConfigure_eq_none`.
* `withdrawsExactly_iff`.
-/

namespace GuiLibrary

open Cells

/-! ### Trees with the same links -/

/-- The states have the same hierarchy and the same bindings. -/
structure SameTree (s s' : AppState) : Prop where
  links : ∀ q, (s'.nodes q).map Node.links = (s.nodes q).map Node.links
  nextWidget : s'.nextWidget = s.nextWidget
  rootWidget : s'.rootWidget = s.rootWidget
  keepsBinds : s'.binds = s.binds ∧ s'.topEventBind = s.topEventBind ∧ s'.nextBind = s.nextBind

namespace SameTree

variable {s s₁ s₂ s' : AppState}

theorem refl (s : AppState) : SameTree s s := ⟨fun _ => rfl, rfl, rfl, rfl, rfl, rfl⟩

theorem trans (h₁ : SameTree s s₁) (h₂ : SameTree s₁ s₂) : SameTree s s₂ :=
  ⟨fun q => (h₂.links q).trans (h₁.links q), h₂.nextWidget.trans h₁.nextWidget,
    h₂.rootWidget.trans h₁.rootWidget, h₂.keepsBinds.1.trans h₁.keepsBinds.1,
    h₂.keepsBinds.2.1.trans h₁.keepsBinds.2.1, h₂.keepsBinds.2.2.trans h₁.keepsBinds.2.2⟩

theorem of_skeleton (h : s'.skeleton = s.skeleton) : SameTree s s' :=
  ⟨fun q => by rw [AppState.nodes_eq_of_skeleton h], congrArg Skeleton.nextWidget h,
    congrArg Skeleton.rootWidget h, congrArg Skeleton.binds h, congrArg Skeleton.topEventBind h,
    congrArg Skeleton.nextBind h⟩

theorem of_setWidget {t : Ptr} {w w' : Widget} (ht : s.widgets t = some w)
    (hlinks : w'.node.links = w.node.links) : SameTree s (s.setWidget t w') := by
  refine ⟨fun q => ?_, rfl, rfl, rfl, rfl, rfl⟩
  rw [AppState.nodes_setWidget]
  by_cases hq : q = t
  · subst hq
    rw [Function.update_self, AppState.nodes_of_widgets ht, Option.map_some, Option.map_some,
      hlinks]
  · rw [Function.update_of_ne hq]

theorem wellFormed (h : SameTree s s') (hs : WellFormed s) : WellFormed s' :=
  hs.of_links h.links h.nextWidget h.rootWidget

theorem hasBindings {l : List (Ptr × Binding)} (h : SameTree s s') (hl : HasBindings s l) :
    HasBindings s' l :=
  hl.of_binds h.keepsBinds.1 h.keepsBinds.2.1 h.keepsBinds.2.2

theorem live_iff (h : SameTree s s') (q : Ptr) : s'.Live q ↔ s.Live q := by
  rw [AppState.Live, AppState.Live, ← Option.isSome_iff_exists, ← Option.isSome_iff_exists,
    ← Option.isSome_map (f := Node.links), h.links, Option.isSome_map]

theorem childOf_iff (h : SameTree s s') (c p : Ptr) :
    nodeLinks.ChildOf s'.nodes c p ↔ nodeLinks.ChildOf s.nodes c p := by
  have hiff : ∀ M : Ptr → Option Node, nodeLinks.ChildOf M c p ↔
      ((M c).map Node.links).map (fun l => l.1) = some (some p) := fun M => by
    rw [Option.map_map, Option.map_eq_some_iff]
    rfl
  rw [hiff, hiff, h.links]

theorem inSubtree_iff (h : SameTree s s') (q p : Ptr) :
    s'.InSubtree q p ↔ s.InSubtree q p := by
  have hchild : nodeLinks.ChildOf s'.nodes = nodeLinks.ChildOf s.nodes := by
    funext c p
    exact propext (h.childOf_iff c p)
  rw [AppState.InSubtree, AppState.InSubtree, AppState.Below, AppState.Below, Links.Below,
    Links.Below, hchild]

theorem chain (h : SameTree s s') {head : Option Ptr} {l : List Ptr}
    (hl : Chain s.nodes Node.nextSibling head l) : Chain s'.nodes Node.nextSibling head l :=
  hl.congr fun q _ => by
    have := congrArg (Option.map fun l => l.2.2.2) (h.links q)
    rw [Option.map_map, Option.map_map] at this
    exact this

end SameTree

/-! ### Decorations -/

/-- The flags and the children of a toplevel: its quit button, the children of the programmer, and
its resize button. -/
structure Decoration where
  closable : Bool
  resizable : AxisSet
  quit : Option Ptr
  users : List Ptr
  resize : Option Ptr

/-- The children in order. -/
def Decoration.children (d : Decoration) : List Ptr :=
  d.quit.toList ++ (d.users ++ d.resize.toList)

/-- The widget is a quit button, or a resize button, as told by the flags. -/
def HasFlags (s : AppState) (p : Ptr) (isQuitButton isResizeButton : Bool) : Prop :=
  ∀ n, s.nodes p = some n → n.isQuitButton = isQuitButton ∧ n.isResizeButton = isResizeButton

/-- The widget `t` is a toplevel with this decoration. -/
structure Decorated (s : AppState) (t : Ptr) (d : Decoration) : Prop where
  toplevel : ∃ n o, s.nodes t = some n ∧ n.nodeClass = .toplevel d.closable d.resizable ∧
    n.parent = some o ∧ Chain s.nodes Node.nextSibling n.childrenHead d.children
  quit : ∀ q, d.quit = some q → HasFlags s q true false
  users : ∀ p ∈ d.users, HasFlags s p false false
  resize : ∀ r, d.resize = some r → HasFlags s r false true

/-- What the arguments of `ei_toplevel_configure` make of a decoration. -/
def Decoration.configure (d : Decoration) (args : ToplevelArgs) : Decoration where
  closable := args.closable.getD d.closable
  resizable := args.resizable.getD d.resizable
  quit := if args.closable = some false then none else d.quit
  users := d.users
  resize := if args.resizable = some .none then none else d.resize

/-- The buttons that the arguments withdraw. -/
def Decoration.withdrawn (d : Decoration) (args : ToplevelArgs) : List Ptr :=
  (if args.closable = some false then d.quit.toList else []) ++
    if args.resizable = some .none then d.resize.toList else []

/-- The condition on a call of `ei_toplevel_configure`: `min_size` does not point to `NULL`;
whenever a button is looked for there is a first child; a quit button to be withdrawn is the only
child, and the resize button is not looked for after it; and no two neighbouring bindings are bound
to a button that is withdrawn. -/
structure CanConfigure (d : Decoration) (args : ToplevelArgs) (bs : List (Ptr × Binding)) :
    Prop where
  minSize : args.minSize ≠ some none
  closable : args.closable = some false → d.children ≠ []
  quit : args.closable = some false → ∀ q, d.quit = some q →
    d.users = [] ∧ d.resize = none ∧ args.resizable ≠ some .none ∧ NoAdjacentBindings q bs
  resizable : args.resizable = some .none → d.children ≠ []
  resize : args.resizable = some .none → ∀ r, d.resize = some r → NoAdjacentBindings r bs

namespace Decorated

variable {s s' : AppState} {t : Ptr} {d : Decoration}

theorem mem_children (h : Decorated s t d) (hs : WellFormed s) {p : Ptr} (hp : p ∈ d.children) :
    nodeLinks.ChildOf s.nodes p t := by
  obtain ⟨n, o, hn, -, -, hc⟩ := h.toplevel
  exact (hs.mem_children_iff hn hc).mp hp

theorem ne_of_mem (h : Decorated s t d) (hs : WellFormed s) {p : Ptr} (hp : p ∈ d.children) :
    p ≠ t := by
  rintro rfl
  exact hs.linked.not_below_self p (.single (h.mem_children hs hp))

theorem mem_quit {q : Ptr} (hq : d.quit = some q) : q ∈ d.children := by
  simp [Decoration.children, hq]

theorem mem_users {p : Ptr} (hp : p ∈ d.users) : p ∈ d.children := by
  simp [Decoration.children, hp]

theorem mem_resize {r : Ptr} (hr : d.resize = some r) : r ∈ d.children := by
  simp [Decoration.children, hr]

/-- The record of the toplevel. -/
theorem exists_widget (h : Decorated s t d) : ∃ w a o, s.widgets t = some w ∧
    w.attrs = .toplevel a ∧ a.closable = d.closable ∧ a.resizable = d.resizable ∧
    w.parent = some o ∧ Chain s.nodes Node.nextSibling w.childrenHead d.children := by
  obtain ⟨n, o, hn, hclass, ho, hc⟩ := h.toplevel
  obtain ⟨w, hw, rfl⟩ := AppState.nodes_eq_some.mp hn
  have hclass : w.attrs.nodeClass = .toplevel d.closable d.resizable := hclass
  cases ha : w.attrs with
  | frame a => simp [ha, Attrs.nodeClass] at hclass
  | button a => simp [ha, Attrs.nodeClass] at hclass
  | toplevel a =>
    rw [ha, Attrs.nodeClass, NodeClass.toplevel.injEq] at hclass
    exact ⟨w, a, o, hw, ha, hclass.1, hclass.2, ho, hc⟩

theorem congr (h : Decorated s t d) (hn : s'.nodes = s.nodes) : Decorated s' t d := by
  obtain ⟨h₁, h₂, h₃, h₄⟩ := h
  rw [← hn] at h₁
  exact ⟨h₁, fun q hq => by rw [HasFlags, hn]; exact h₂ q hq,
    fun p hp => by rw [HasFlags, hn]; exact h₃ p hp,
    fun r hr => by rw [HasFlags, hn]; exact h₄ r hr⟩

/-- Writing the record of the toplevel, its links apart. -/
theorem setWidget (w' : Widget) (h : Decorated s t d) (hs : WellFormed s) {w : Widget} {c : Bool}
    {r : AxisSet} (ht : s.widgets t = some w) (hlinks : w'.node.links = w.node.links)
    (hclass : w'.attrs.nodeClass = .toplevel c r) :
    Decorated (s.setWidget t w') t { d with closable := c, resizable := r } := by
  have hsame := SameTree.of_setWidget ht hlinks
  have hflags : ∀ p ∈ d.children, ∀ b b', HasFlags s p b b' →
      HasFlags (s.setWidget t w') p b b' := by
    intro p hp b b' hpb n hn
    rw [AppState.nodes_setWidget, Function.update_of_ne (h.ne_of_mem hs hp)] at hn
    exact hpb n hn
  obtain ⟨n, o, hn, -, ho, hc⟩ := h.toplevel
  obtain rfl := Option.some.inj ((AppState.nodes_of_widgets ht).symm.trans hn)
  simp only [Node.links, Prod.mk.injEq] at hlinks
  refine ⟨⟨w'.node, o, ?_, hclass, hlinks.1.trans ho, hlinks.2.1 ▸ hsame.chain hc⟩,
    fun q hq => hflags q (mem_quit hq) _ _ (h.quit q hq),
    fun p hp => hflags p (mem_users hp) _ _ (h.users p hp),
    fun r hr => hflags r (mem_resize hr) _ _ (h.resize r hr)⟩
  rw [AppState.nodes_setWidget, Function.update_self]

/-- Writing attributes of the toplevel. -/
theorem modifyToplevel (h : Decorated s t d) (hs : WellFormed s)
    (f : ToplevelAttrs → ToplevelAttrs) :
    ∃ s' a, GuiLibrary.modifyToplevel s t f = some s' ∧ SameTree s s' ∧
      a.closable = d.closable ∧ a.resizable = d.resizable ∧
      Decorated s' t { d with closable := (f a).closable, resizable := (f a).resizable } := by
  obtain ⟨w, a, o, ht, ha, hc, hr, -, -⟩ := h.exists_widget
  refine ⟨s.setWidget t { w with attrs := .toplevel (f a) }, a, ?_, .of_setWidget ht rfl, hc, hr,
    h.setWidget _ hs ht rfl rfl⟩
  simp only [GuiLibrary.modifyToplevel, ht, ha, Option.bind_eq_bind, Option.bind_some]

/-- Destroying a child leaves the other children in order. -/
theorem destroyed {b : Ptr} (h : Decorated s t d) (hs : WellFormed s) (hb : b ∈ d.children)
    (hd : Destroyed s s' b) {d' : Decoration} (hchildren : d'.children = d.children.filter (· ≠ b))
    (hclosable : d'.closable = d.closable) (hresizable : d'.resizable = d.resizable)
    (hquit : ∀ q, d'.quit = some q → d.quit = some q ∧ q ≠ b)
    (husers : ∀ p ∈ d'.users, p ∈ d.users ∧ p ≠ b)
    (hresize : ∀ r, d'.resize = some r → d.resize = some r ∧ r ≠ b) : Decorated s' t d' := by
  have hbt := h.mem_children hs hb
  have hflags : ∀ p ∈ d.children, ∀ c c', HasFlags s p c c' → HasFlags s' p c c' := by
    intro p hp c c' hflags n' hn'
    obtain ⟨-, n, hn, hid⟩ := hd.pruned.of_some hn'
    have hclass : n'.nodeClass = n.nodeClass := congrArg Prod.fst hid
    obtain ⟨hq, hr⟩ := hflags n hn
    rw [Node.isQuitButton, Node.isResizeButton, hclass]
    exact ⟨hq, hr⟩
  obtain ⟨n, o, hn, hclass, ho, hc⟩ := h.toplevel
  have hout : ¬ (t = b ∨ nodeLinks.Below s.nodes t b) := hs.not_inSubtree_parent hbt
  obtain ⟨n', hn', hid, hlist⟩ := hd.pruned.kept t n hn hout
  obtain ⟨hc', -⟩ := hlist d.children hc (hs.tail t n _ hn hc)
  refine ⟨⟨n', o, hn', ?_, (Pruned.parent_eq hid).trans ho, hchildren ▸ hc'⟩, fun q hq => ?_,
    fun p hp => ?_, fun r hr => ?_⟩
  · rw [hclosable, hresizable]
    exact (congrArg Prod.fst hid : n'.nodeClass = n.nodeClass).trans hclass
  · exact hflags q (mem_quit (hquit q hq).1) _ _ (h.quit q (hquit q hq).1)
  · exact hflags p (mem_users (husers p hp).1) _ _ (h.users p (husers p hp).1)
  · exact hflags r (mem_resize (hresize r hr).1) _ _ (h.resize r (hresize r hr).1)

end Decorated

/-! ### What a withdrawal does -/

/-- The state `s'` is `s` without the subtrees of the widgets of `l` and the bindings to these
widgets. -/
structure Withdrew (s s' : AppState) (bs : List (Ptr × Binding)) (l : List Ptr) : Prop where
  wellFormed : WellFormed s'
  bindings : HasBindings s' (bs.filter fun e => ∀ b ∈ l, e.2.widget ≠ some b)
  live : ∀ p, s'.Live p ↔ s.Live p ∧ ∀ b ∈ l, ¬ s.InSubtree p b
  same : l = [] → SameTree s s'

namespace Withdrew

variable {s s₁ s' : AppState} {bs : List (Ptr × Binding)} {l l₁ l₂ : List Ptr}

theorem of_sameTree (h : SameTree s s') (hs : WellFormed s) (hl : HasBindings s bs) :
    Withdrew s s' bs [] :=
  ⟨h.wellFormed hs, by simpa using h.hasBindings hl, fun p => by simp [h.live_iff], fun _ => h⟩

theorem of_destroyed {b : Ptr} (h : Destroyed s s' b) (hs : WellFormed s)
    (hl : HasBindings s' (bs.filter fun e => e.2.widget ≠ some b)) : Withdrew s s' bs [b] :=
  ⟨h.wellFormed hs, by simpa using hl, fun p => by simp [h.live_iff], by simp⟩

theorem of_left (h : SameTree s s₁) (h' : Withdrew s₁ s' bs l) : Withdrew s s' bs l :=
  ⟨h'.wellFormed, h'.bindings, fun p => by simp only [h'.live, h.live_iff, h.inSubtree_iff],
    fun hl => h.trans (h'.same hl)⟩

theorem of_right (h : Withdrew s s₁ bs l) (h' : SameTree s₁ s') : Withdrew s s' bs l :=
  ⟨h'.wellFormed h.wellFormed, h'.hasBindings h.bindings, fun p => by rw [h'.live_iff, h.live],
    fun hl => (h.same hl).trans h'⟩

/-- Two withdrawals, of which at most one destroys a button. -/
theorem trans (h₁ : Withdrew s s₁ bs l₁)
    (h₂ : Withdrew s₁ s' (bs.filter fun e => ∀ b ∈ l₁, e.2.widget ≠ some b) l₂)
    (hnil : l₁ = [] ∨ l₂ = []) : Withdrew s s' bs (l₁ ++ l₂) := by
  rcases hnil with rfl | rfl
  · simp only [List.not_mem_nil, false_implies, implies_true, decide_true, List.filter_true] at h₂
    exact h₂.of_left (h₁.same rfl)
  · rw [List.append_nil]
    exact h₁.of_right (h₂.same rfl)

end Withdrew

section Withdraw

variable {s : AppState} {t : Ptr} {d : Decoration} {bs : List (Ptr × Binding)}

/-- The quit button can be withdrawn. -/
def CanWithdrawQuit (d : Decoration) (bs : List (Ptr × Binding)) : Prop :=
  d.children ≠ [] ∧
    ∀ q, d.quit = some q → d.users = [] ∧ d.resize = none ∧ NoAdjacentBindings q bs

/-- The resize button can be withdrawn. -/
def CanWithdrawResize (d : Decoration) (bs : List (Ptr × Binding)) : Prop :=
  d.children ≠ [] ∧ ∀ r, d.resize = some r → NoAdjacentBindings r bs

/-- Every child of the toplevel but the quit button has its flag down. -/
theorem Decorated.not_quit (h : Decorated s t d) {p : Ptr} (hp : p ∈ d.users ++ d.resize.toList) :
    ∀ n, s.nodes p = some n → n.isQuitButton = false := by
  intro n hn
  rcases List.mem_append.mp hp with hp | hp
  · exact (h.users p hp n hn).1
  · exact (h.resize p (Option.mem_toList.mp hp) n hn).1

/-- Every child of the toplevel but the resize button has its flag down. -/
theorem Decorated.not_resize (h : Decorated s t d) {p : Ptr} (hp : p ∈ d.quit.toList ++ d.users) :
    ∀ n, s.nodes p = some n → n.isResizeButton = false := by
  intro n hn
  rcases List.mem_append.mp hp with hp | hp
  · exact (h.quit p (Option.mem_toList.mp hp) n hn).2
  · exact (h.users p hp n hn).2

/-- **Withdrawing the quit button.** -/
theorem withdrawQuit (hs : WellFormed s) (hl : HasBindings s bs) (h : Decorated s t d)
    (hcan : CanWithdrawQuit d bs) : ∃ s', withdrawButton Widget.isQuitButton s t = some s' ∧
      Decorated s' t { d with quit := none } ∧ Withdrew s s' bs d.quit.toList := by
  obtain ⟨v, a, o, ht, -, -, -, -, hc⟩ := h.exists_widget
  obtain ⟨hne, hcan⟩ := hcan
  cases hq : d.quit with
  | none =>
    have hsame : ({ d with quit := none } : Decoration) = d := by rw [← hq]
    have hchildren : d.children = d.users ++ d.resize.toList := by rw [Decoration.children, hq]; rfl
    refine ⟨s, ?_, hsame.symm ▸ h, .of_sameTree (.refl s) hs hl⟩
    exact withdrawButton_absent (fun w => (Widget.isQuitButton_node w).symm) hs ht hc hne
      fun p hp => h.not_quit (hchildren ▸ hp)
  | some q =>
    obtain ⟨husers, hresize, hadj⟩ := hcan q hq
    have hchildren : d.children = [q] := by simp [Decoration.children, hq, husers, hresize]
    obtain ⟨s', hs', hd, hl'⟩ := withdrawButton_only (fun w => (Widget.isQuitButton_node w).symm)
      hs hl ht (hchildren ▸ hc) (fun n hn => (h.quit q hq n hn).1) hadj
    refine ⟨s', hs', h.destroyed hs (by simp [hchildren]) hd ?_ rfl rfl ?_ ?_ ?_,
      .of_destroyed hd hs hl'⟩
    · simp [Decoration.children, hq, husers, hresize]
    · simp
    · simp [husers]
    · simp [hresize]

/-- **Withdrawing the resize button.** -/
theorem withdrawResize (hs : WellFormed s) (hl : HasBindings s bs) (h : Decorated s t d)
    (hcan : CanWithdrawResize d bs) : ∃ s', withdrawButton Widget.isResizeButton s t = some s' ∧
      Decorated s' t { d with resize := none } ∧ Withdrew s s' bs d.resize.toList := by
  obtain ⟨v, a, o, ht, -, -, -, -, hc⟩ := h.exists_widget
  obtain ⟨hne, hcan⟩ := hcan
  have hflag : ∀ w : Widget, w.isResizeButton = w.node.isResizeButton := fun w =>
    (Widget.isResizeButton_node w).symm
  cases hr : d.resize with
  | none =>
    have hsame : ({ d with resize := none } : Decoration) = d := by rw [← hr]
    have hchildren : d.children = d.quit.toList ++ d.users := by
      rw [Decoration.children, hr, Option.toList_none, List.append_nil]
    refine ⟨s, ?_, hsame.symm ▸ h, .of_sameTree (.refl s) hs hl⟩
    exact withdrawButton_absent hflag hs ht hc hne fun p hp => h.not_resize (hchildren ▸ hp)
  | some r =>
    have hchildren : d.children = d.quit.toList ++ d.users ++ [r] := by
      rw [Decoration.children, hr, Option.toList_some, List.append_assoc]
    have hnodup : r ∉ d.quit.toList ++ d.users := fun hmem => by
      have hdup := hc.nodup
      rw [hchildren, List.nodup_append] at hdup
      exact hdup.2.2 r hmem r (List.mem_singleton_self r) rfl
    obtain ⟨s', hs', hd, hl'⟩ : ∃ s', withdrawButton Widget.isResizeButton s t = some s' ∧
        Destroyed s s' r ∧ HasBindings s' (bs.filter fun e => e.2.widget ≠ some r) := by
      rw [hchildren] at hc
      rcases List.eq_nil_or_concat (d.quit.toList ++ d.users) with hnil | ⟨l, c, hl₀⟩
      · rw [hnil] at hc
        exact withdrawButton_only hflag hs hl ht hc (fun n hn => (h.resize r hr n hn).2) (hcan r hr)
      · rw [List.concat_eq_append] at hl₀
        rw [hl₀] at hc
        exact withdrawButton_last hflag hs hl ht hc
          (fun p hp => h.not_resize (hl₀ ▸ hp)) (fun n hn => (h.resize r hr n hn).2) (hcan r hr)
    refine ⟨s', hs', h.destroyed hs (Decorated.mem_resize hr) hd ?_ rfl rfl ?_ ?_ ?_,
      .of_destroyed hd hs hl'⟩
    · rw [hchildren, List.filter_append, List.filter_eq_self.mpr]
      · simp [Decoration.children]
      · exact fun c hc => decide_eq_true fun heq => hnodup (heq ▸ hc)
    · exact fun q (hq : d.quit = some q) => ⟨hq, fun heq => hnodup (heq ▸ by simp [hq])⟩
    · exact fun p hp => ⟨hp, fun heq => hnodup (heq ▸ by simp [hp])⟩
    · simp

/-- A quit button with another child after it, or a missing first child, is not withdrawn. -/
theorem withdrawQuit_eq_none (hs : WellFormed s) (hl : HasBindings s bs) (h : Decorated s t d)
    (hcan : ¬ CanWithdrawQuit d bs) : withdrawButton Widget.isQuitButton s t = none := by
  obtain ⟨v, a, o, ht, -, -, -, -, hc⟩ := h.exists_widget
  have hflag : ∀ w : Widget, w.isQuitButton = w.node.isQuitButton := fun w =>
    (Widget.isQuitButton_node w).symm
  by_cases hne : d.children = []
  · rw [hne] at hc
    exact withdrawButton_empty ht hc
  · cases hq : d.quit with
    | none => exact absurd ⟨hne, by simp [hq]⟩ hcan
    | some q =>
      have hquit : ∀ n, s.nodes q = some n → n.isQuitButton = true := fun n hn =>
        (h.quit q hq n hn).1
      have hchildren : d.children = q :: (d.users ++ d.resize.toList) := by
        rw [Decoration.children, hq]
        rfl
      cases hrest : d.users ++ d.resize.toList with
      | nil =>
        rw [hchildren, hrest] at hc
        refine withdrawButton_adjacent hl (withdrawButton_only_eq hflag hs ht hc hquit) fun hadj =>
          hcan ⟨hne, fun q' hq' => ?_⟩
        obtain rfl := Option.some.inj (hq.symm.trans hq')
        obtain ⟨husers, hresize⟩ := List.append_eq_nil_iff.mp hrest
        exact ⟨husers, by simpa using hresize, hadj⟩
      | cons c l =>
        rw [hchildren, hrest] at hc
        exact withdrawButton_first hflag hs hl ht hc hquit

/-- The resize button of a toplevel is not withdrawn when there is no first child, or when two
neighbouring bindings are bound to it. -/
theorem withdrawResize_eq_none (hs : WellFormed s) (hl : HasBindings s bs) (h : Decorated s t d)
    (hcan : ¬ CanWithdrawResize d bs) : withdrawButton Widget.isResizeButton s t = none := by
  obtain ⟨v, a, o, ht, -, -, -, -, hc⟩ := h.exists_widget
  have hflag : ∀ w : Widget, w.isResizeButton = w.node.isResizeButton := fun w =>
    (Widget.isResizeButton_node w).symm
  by_cases hne : d.children = []
  · rw [hne] at hc
    exact withdrawButton_empty ht hc
  · cases hr : d.resize with
    | none => exact absurd ⟨hne, by simp [hr]⟩ hcan
    | some r =>
      have hadj : ¬ NoAdjacentBindings r bs := fun hadj => hcan ⟨hne, fun r' hr' => by
        obtain rfl := Option.some.inj (hr.symm.trans hr')
        exact hadj⟩
      have hresize : ∀ n, s.nodes r = some n → n.isResizeButton = true := fun n hn =>
        (h.resize r hr n hn).2
      have hchildren : d.children = d.quit.toList ++ d.users ++ [r] := by
        rw [Decoration.children, hr, Option.toList_some, List.append_assoc]
      rw [hchildren] at hc
      rcases List.eq_nil_or_concat (d.quit.toList ++ d.users) with hnil | ⟨l, c, hl₀⟩
      · rw [hnil] at hc
        exact withdrawButton_adjacent hl (withdrawButton_only_eq hflag hs ht hc hresize) hadj
      · rw [List.concat_eq_append] at hl₀
        rw [hl₀] at hc
        exact withdrawButton_adjacent hl (withdrawButton_last_eq hflag hs ht hc
          (fun p hp => h.not_resize (hl₀ ▸ hp)) hresize) hadj

end Withdraw

/-! ### The configuration -/

section Configure

variable {s s' : AppState} {t : Ptr} {d : Decoration} {bs : List (Ptr × Binding)}

/-- The assignments of the size, the color, the border width and the title. -/
theorem Decorated.assign (h : Decorated s t d) (hs : WellFormed s) (requestedSize : Size)
    (f : ToplevelAttrs → ToplevelAttrs) (hf : ∀ a, (f a).closable = a.closable)
    (hf' : ∀ a, (f a).resizable = a.resizable) : ∃ s₁ s',
      s.modifyWidget t (fun w => { w with requestedSize := requestedSize }) = some s₁ ∧
      GuiLibrary.modifyToplevel s₁ t f = some s' ∧ SameTree s s' ∧ Decorated s' t d := by
  obtain ⟨w, a, o, ht, ha, hc, hr, -, -⟩ := h.exists_widget
  let w₁ : Widget := { w with requestedSize := requestedSize }
  have h₁ : Decorated (s.setWidget t w₁) t d :=
    h.setWidget w₁ hs ht rfl (c := d.closable) (r := d.resizable)
      (by rw [← hc, ← hr, show w₁.attrs = .toplevel a from ha]; rfl)
  have hsame : SameTree s (s.setWidget t w₁) := .of_setWidget ht rfl
  obtain ⟨s', a', hs', hsame', hc', hr', hd'⟩ := h₁.modifyToplevel (hsame.wellFormed hs) f
  rw [hf, hf', hc', hr'] at hd'
  exact ⟨s.setWidget t w₁, s', by rw [AppState.modifyWidget, ht]; rfl, hs', hsame.trans hsame', hd'⟩

/-- The assignment of `closable`. -/
theorem Decorated.assignClosable (h : Decorated s t d) (hs : WellFormed s) (hl : HasBindings s bs)
    (closable : Option Bool) (hcan : closable = some false → CanWithdrawQuit d bs) :
    ∃ s', (closable.elim (some s) fun closable =>
        (GuiLibrary.modifyToplevel s t ({ · with closable := closable })).bind fun s =>
          bif closable then some s else withdrawButton Widget.isQuitButton s t) = some s' ∧
      Decorated s' t { d with
        closable := closable.getD d.closable
        quit := if closable = some false then none else d.quit } ∧
      Withdrew s s' bs (if closable = some false then d.quit.toList else []) := by
  cases closable with
  | none => exact ⟨s, rfl, h, .of_sameTree (.refl s) hs hl⟩
  | some closable =>
    obtain ⟨s₁, a, h₁, hsame, -, hr, hd⟩ := h.modifyToplevel hs ({ · with closable := closable })
    simp only [hr] at hd
    cases closable with
    | true => exact ⟨s₁, by simp [h₁], by simpa using hd, by simpa using .of_sameTree hsame hs hl⟩
    | false =>
      obtain ⟨s', hs', hd', hw⟩ := withdrawQuit (hsame.wellFormed hs) (hsame.hasBindings hl) hd
        (hcan rfl)
      exact ⟨s', by simp [h₁, hs'], by simpa using hd', by simpa using hw.of_left hsame⟩

theorem Decorated.assignClosable_eq_none (h : Decorated s t d) (hs : WellFormed s)
    (hl : HasBindings s bs) {closable : Option Bool} (hclosable : closable = some false)
    (hcan : ¬ CanWithdrawQuit d bs) :
    (closable.elim (some s) fun closable =>
      (GuiLibrary.modifyToplevel s t ({ · with closable := closable })).bind fun s =>
        bif closable then some s else withdrawButton Widget.isQuitButton s t) = none := by
  subst hclosable
  obtain ⟨s₁, a, h₁, hsame, -, hr, hd⟩ := h.modifyToplevel hs ({ · with closable := false })
  simp only [hr] at hd
  simp [h₁, withdrawQuit_eq_none (hsame.wellFormed hs) (hsame.hasBindings hl) hd hcan]

/-- The assignment of `resizable`. -/
theorem Decorated.assignResizable (h : Decorated s t d) (hs : WellFormed s) (hl : HasBindings s bs)
    (resizable : Option AxisSet) (hcan : resizable = some .none → CanWithdrawResize d bs) :
    ∃ s', (resizable.elim (some s) fun resizable =>
        (GuiLibrary.modifyToplevel s t ({ · with resizable := resizable })).bind fun s =>
          bif resizable = .none then withdrawButton Widget.isResizeButton s t else some s) =
            some s' ∧
      Decorated s' t { d with
        resizable := resizable.getD d.resizable
        resize := if resizable = some .none then none else d.resize } ∧
      Withdrew s s' bs (if resizable = some .none then d.resize.toList else []) := by
  cases resizable with
  | none => exact ⟨s, rfl, h, .of_sameTree (.refl s) hs hl⟩
  | some resizable =>
    obtain ⟨s₁, a, h₁, hsame, hc, -, hd⟩ := h.modifyToplevel hs ({ · with resizable := resizable })
    simp only [hc] at hd
    by_cases hnone : resizable = .none
    · subst hnone
      obtain ⟨s', hs', hd', hw⟩ := withdrawResize (hsame.wellFormed hs) (hsame.hasBindings hl) hd
        (hcan rfl)
      exact ⟨s', by simp [h₁, hs'], by simpa using hd', by simpa using hw.of_left hsame⟩
    · exact ⟨s₁, by simp [h₁, hnone], by simpa [hnone] using hd,
        by simpa [hnone] using .of_sameTree hsame hs hl⟩

theorem Decorated.assignResizable_eq_none (h : Decorated s t d) (hs : WellFormed s)
    (hl : HasBindings s bs) {resizable : Option AxisSet} (hresizable : resizable = some .none)
    (hcan : ¬ CanWithdrawResize d bs) :
    (resizable.elim (some s) fun resizable =>
      (GuiLibrary.modifyToplevel s t ({ · with resizable := resizable })).bind fun s =>
        bif resizable = .none then withdrawButton Widget.isResizeButton s t else some s) =
          none := by
  subst hresizable
  obtain ⟨s₁, a, h₁, hsame, hc, -, hd⟩ := h.modifyToplevel hs ({ · with resizable := AxisSet.none })
  simp only [hc] at hd
  simp [h₁, withdrawResize_eq_none (hsame.wellFormed hs) (hsame.hasBindings hl) hd hcan]

/-- The assignment of `min_size`. -/
theorem Decorated.assignMinSize (h : Decorated s t d) (hs : WellFormed s)
    {minSize : Option (Option Size)} (hmin : minSize ≠ some none) :
    ∃ s', (minSize.elim (some s) fun minSize => minSize.bind fun minSize =>
        GuiLibrary.modifyToplevel s t ({ · with minSize := minSize })) = some s' ∧ SameTree s s' ∧
      Decorated s' t d := by
  match minSize with
  | none => exact ⟨s, rfl, .refl s, h⟩
  | some none => exact absurd rfl hmin
  | some (some size) =>
    obtain ⟨s', a, hs', hsame, hc, hr, hd⟩ := h.modifyToplevel hs ({ · with minSize := size })
    simp only [hc, hr] at hd
    exact ⟨s', hs', hsame, hd⟩

/-- The decoration once `closable` is assigned. -/
def Decoration.assignClosable (d : Decoration) (closable : Option Bool) : Decoration :=
  { d with
    closable := closable.getD d.closable
    quit := if closable = some false then none else d.quit }

/-- The condition, in the order in which `ei_toplevel_configure` needs its parts. -/
theorem canConfigure_iff {args : ToplevelArgs} : CanConfigure d args bs ↔
    args.minSize ≠ some none ∧ (args.closable = some false → CanWithdrawQuit d bs) ∧
      (args.resizable = some .none → CanWithdrawResize (d.assignClosable args.closable)
        (bs.filter fun e => ∀ b ∈ if args.closable = some false then d.quit.toList else [],
          e.2.widget ≠ some b)) := by
  by_cases hc : args.closable = some false
  · cases hq : d.quit with
    | none =>
      have hsame : d.assignClosable (some false) = { d with closable := false } := by
        rw [Decoration.assignClosable, ← hq]
        rfl
      simp only [hc, hsame, if_true, Option.toList_none, List.not_mem_nil, false_implies,
        implies_true, decide_true, List.filter_true]
      constructor
      · rintro ⟨hmin, hclosable, -, hresizable, hresize⟩
        exact ⟨hmin, fun _ => ⟨hclosable hc, by simp [hq]⟩, fun hr =>
          ⟨hresizable hr, hresize hr⟩⟩
      · rintro ⟨hmin, hclosable, hresizable⟩
        exact ⟨hmin, fun _ => (hclosable trivial).1, by simp [hq], fun hr => (hresizable hr).1,
          fun hr => (hresizable hr).2⟩
    | some q =>
      constructor
      · rintro ⟨hmin, hclosable, hquit, -, -⟩
        obtain ⟨husers, hresize, hr, hadj⟩ := hquit hc q hq
        refine ⟨hmin, fun _ => ⟨hclosable hc, fun q' hq' => ?_⟩, fun hr' => absurd hr' hr⟩
        obtain rfl := Option.some.inj (hq.symm.trans hq')
        exact ⟨husers, hresize, hadj⟩
      · rintro ⟨hmin, hclosable, hresizable⟩
        obtain ⟨hne, hquit⟩ := hclosable hc
        obtain ⟨husers, hresize, hadj⟩ := hquit q hq
        -- The withdrawal empties the list, and the resize button is looked for in it.
        have hr : args.resizable ≠ some .none := fun hr => (hresizable hr).1 (by
          simp [Decoration.assignClosable, Decoration.children, hc, husers, hresize])
        refine ⟨hmin, fun _ => hne, fun _ q' hq' => ?_, fun hr' => absurd hr' hr,
          fun hr' => absurd hr' hr⟩
        obtain rfl := Option.some.inj (hq.symm.trans hq')
        exact ⟨husers, hresize, hr, hadj⟩
  · simp only [hc, if_false, false_implies, true_and, List.not_mem_nil, implies_true, decide_true,
      List.filter_true, CanWithdrawResize, Decoration.assignClosable, Decoration.children]
    constructor
    · rintro ⟨hmin, -, -, hresizable, hresize⟩
      exact ⟨hmin, fun hr => ⟨hresizable hr, hresize hr⟩⟩
    · rintro ⟨hmin, hresizable⟩
      exact ⟨hmin, fun h => absurd h hc, fun h => absurd h hc, fun hr => (hresizable hr).1,
        fun hr => (hresizable hr).2⟩

/-- The state once everything but `closable`, `resizable` and `min_size` is assigned. -/
theorem Decorated.toplevelAssign_eq (h : Decorated s t d) (hs : WellFormed s)
    (args : ToplevelArgs) : ∃ s₁, SameTree s s₁ ∧ Decorated s₁ t d ∧ toplevelAssign s t args =
      ((args.closable.elim (some s₁) fun closable =>
        (GuiLibrary.modifyToplevel s₁ t ({ · with closable := closable })).bind fun s =>
          bif closable then some s else withdrawButton Widget.isQuitButton s t).bind fun s =>
      (args.resizable.elim (some s) fun resizable =>
        (GuiLibrary.modifyToplevel s t ({ · with resizable := resizable })).bind fun s =>
          bif resizable = .none then withdrawButton Widget.isResizeButton s t else some s).bind
        fun s => args.minSize.elim (some s) fun minSize => minSize.bind fun minSize =>
          GuiLibrary.modifyToplevel s t ({ · with minSize := minSize })) := by
  obtain ⟨s₀, s₁, h₀, h₁, hsame, hd⟩ := h.assign hs (args.requestedSize.getD ⟨320, 240⟩)
    (fun a => { a with
      backgroundColor := args.color.getD a.backgroundColor
      borderWidth := args.borderWidth.getD a.borderWidth
      title := args.title.getD a.title }) (fun _ => rfl) fun _ => rfl
  refine ⟨s₁, hsame, hd, ?_⟩
  simp only [toplevelAssign, Option.bind_eq_bind]
  rw [h₀, Option.bind_some, h₁, Option.bind_some]

/-- **The configuration** withdraws the buttons and completes. -/
theorem eiToplevelConfigure_decorated {args : ToplevelArgs} (hs : WellFormed s)
    (hl : HasBindings s bs) (h : Decorated s t d) (hcan : CanConfigure d args bs) :
    ∃ s', eiToplevelConfigure s t args = some s' ∧ Decorated s' t (d.configure args) ∧
      Withdrew s s' bs (d.withdrawn args) := by
  obtain ⟨hmin, hquit, hresize⟩ := canConfigure_iff.mp hcan
  obtain ⟨s₁, hsame₁, hd₁, heq⟩ := h.toplevelAssign_eq hs args
  obtain ⟨s₂, h₂, hd₂, hw₂⟩ := hd₁.assignClosable (hsame₁.wellFormed hs) (hsame₁.hasBindings hl)
    args.closable hquit
  obtain ⟨s₃, h₃, hd₃, hw₃⟩ := hd₂.assignResizable hw₂.wellFormed hw₂.bindings
    args.resizable hresize
  obtain ⟨s₄, h₄, hsame₄, hd₄⟩ := hd₃.assignMinSize hw₃.wellFormed hmin
  have hd₄ : Decorated s₄ t (d.configure args) := hd₄
  obtain ⟨w, a, o, hw, -, -, -, ho, -⟩ := hd₄.exists_widget
  obtain ⟨s', hs'⟩ := exists_refresh (hsame₄.wellFormed hw₃.wellFormed) hw ho
  have hskel := skeleton_refresh hs'
  have hnil : (if args.closable = some false then d.quit.toList else []) = [] ∨
      (if args.resizable = some .none then d.resize.toList else []) = [] := by
    by_cases hc : args.closable = some false
    · cases hq : d.quit with
      | none => simp
      | some q => simp [(hcan.quit hc q hq).2.2.1]
    · simp [hc]
  refine ⟨s', ?_, hd₄.congr (AppState.nodes_eq_of_skeleton hskel), ?_⟩
  · rw [eiToplevelConfigure_eq, heq, h₂, Option.bind_some, h₃, Option.bind_some, h₄,
      Option.bind_some, hs']
  · exact (((hw₂.trans hw₃ hnil).of_left hsame₁).of_right hsame₄).of_right (.of_skeleton hskel)

/-- Without the condition a null pointer is followed, or a freed record is written. -/
theorem eiToplevelConfigure_eq_none {args : ToplevelArgs} (hs : WellFormed s)
    (hl : HasBindings s bs) (h : Decorated s t d) (hcan : ¬ CanConfigure d args bs) :
    eiToplevelConfigure s t args = none := by
  obtain ⟨s₁, hsame₁, hd₁, heq⟩ := h.toplevelAssign_eq hs args
  have hs₁ := hsame₁.wellFormed hs
  have hl₁ := hsame₁.hasBindings hl
  rw [eiToplevelConfigure_eq, heq]
  rw [canConfigure_iff, not_and_or, not_and_or, not_not, Classical.not_imp,
    Classical.not_imp] at hcan
  by_cases hquit : args.closable = some false ∧ ¬ CanWithdrawQuit d bs
  · rw [hd₁.assignClosable_eq_none hs₁ hl₁ hquit.1 hquit.2]
    rfl
  · obtain ⟨s₂, h₂, hd₂, hw₂⟩ := hd₁.assignClosable hs₁ hl₁ args.closable fun hc => by
      by_contra h
      exact hquit ⟨hc, h⟩
    rw [h₂, Option.bind_some]
    by_cases hresize : args.resizable = some .none ∧
        ¬ CanWithdrawResize (d.assignClosable args.closable)
          (bs.filter fun e => ∀ b ∈ if args.closable = some false then d.quit.toList else [],
            e.2.widget ≠ some b)
    · rw [hd₂.assignResizable_eq_none hw₂.wellFormed hw₂.bindings hresize.1 hresize.2]
      rfl
    · obtain ⟨s₃, h₃, -, -⟩ := hd₂.assignResizable hw₂.wellFormed hw₂.bindings args.resizable
        fun hr => by
          by_contra h
          exact hresize ⟨hr, h⟩
      have hmin : args.minSize = some none := by
        rcases hcan with hmin | hcan | hcan
        · exact hmin
        · exact absurd hcan hquit
        · exact absurd hcan hresize
      rw [h₃, Option.bind_some, hmin]
      rfl

/-- The children list of `t` is the old one without the withdrawn buttons, and the widgets of their
subtrees are destroyed, and no others. -/
structure WithdrawsExactly (s s' : AppState) (t : Ptr) (children withdrawn : List Ptr) : Prop where
  children : ∃ n', s'.nodes t = some n' ∧
    Chain s'.nodes Node.nextSibling n'.childrenHead (children.filter (· ∉ withdrawn)) ∧
    n'.childrenHead = (children.filter (· ∉ withdrawn)).head? ∧
    n'.childrenTail = (children.filter (· ∉ withdrawn)).getLast?
  destroyed : ∀ p, s'.Live p ↔ s.Live p ∧ ∀ b ∈ withdrawn, ¬ s.InSubtree p b

/-- The children after a configuration are those that are not withdrawn. -/
theorem Decoration.children_configure (d : Decoration) (args : ToplevelArgs)
    (hnodup : d.children.Nodup) :
    (d.configure args).children = d.children.filter (· ∉ d.withdrawn args) := by
  obtain ⟨closable, resizable, quit, users, resize⟩ := d
  simp only [children, configure, withdrawn] at hnodup ⊢
  rw [List.nodup_append, List.nodup_append] at hnodup
  obtain ⟨-, ⟨-, -, hur⟩, hq⟩ := hnodup
  have husers : ∀ p ∈ users, p ∉ quit.toList ∧ p ∉ resize.toList := fun p hp =>
    ⟨fun hpq => hq p hpq p (List.mem_append_left _ hp) rfl, fun hpr => hur p hp p hpr rfl⟩
  have hends : ∀ p ∈ quit.toList, p ∉ resize.toList := fun p hp hpr =>
    hq p hp p (List.mem_append_right _ hpr) rfl
  -- Each of the three parts is kept whole or withdrawn whole.
  rw [List.filter_append, List.filter_append]
  congr 1
  · by_cases hc : args.closable = some false
    · simp only [hc, if_true, Option.toList_none]
      refine (List.filter_eq_nil_iff.mpr fun p hp => ?_).symm
      simp [hp]
    · rw [List.filter_eq_self.mpr]
      · simp [hc]
      · intro p hp
        by_cases hr : args.resizable = some .none <;> simp [hc, hr, hends p hp]
  · congr 1
    · refine (List.filter_eq_self.mpr fun p hp => ?_).symm
      rw [decide_eq_true_iff]
      intro hmem
      rcases List.mem_append.mp hmem with hmem | hmem
      · split_ifs at hmem
        · exact (husers p hp).1 hmem
        · exact List.not_mem_nil hmem
      · split_ifs at hmem
        · exact (husers p hp).2 hmem
        · exact List.not_mem_nil hmem
    · by_cases hr : args.resizable = some .none
      · simp only [hr, if_true, Option.toList_none]
        refine (List.filter_eq_nil_iff.mpr fun p hp => ?_).symm
        simp [hp]
      · rw [List.filter_eq_self.mpr]
        · simp [hr]
        · intro p hp
          have hpq : p ∉ quit.toList := fun hpq => hends p hpq hp
          by_cases hc : args.closable = some false <;> simp [hc, hr, hpq]

/-- **Withdrawing the decorations** is safe and exact if and only if the condition on the call
holds. -/
theorem withdrawsExactly_iff (hs : WellFormed s) (hl : HasBindings s bs) (h : Decorated s t d)
    (args : ToplevelArgs) : (∃ s', eiToplevelConfigure s t args = some s' ∧
      WithdrawsExactly s s' t d.children (d.withdrawn args)) ↔ CanConfigure d args bs := by
  constructor
  · rintro ⟨s', hs', -⟩
    by_contra hcan
    simp [eiToplevelConfigure_eq_none hs hl h hcan] at hs'
  · intro hcan
    obtain ⟨s', hs', hd, hw⟩ := eiToplevelConfigure_decorated hs hl h hcan
    have hnodup : d.children.Nodup := by
      obtain ⟨n, o, -, -, -, hc⟩ := h.toplevel
      exact hc.nodup
    obtain ⟨n', o, hn', -, -, hc'⟩ := hd.toplevel
    rw [d.children_configure args hnodup] at hc'
    exact ⟨s', hs', ⟨n', hn', hc', hc'.head_eq, hw.wellFormed.tail t n' _ hn' hc'⟩, hw.live⟩

end Configure

section Sample

attribute [local instance] sampleHardware

/-- The decoration of a toplevel that has just been created. -/
def sampleDecoration : Decoration where
  closable := true
  resizable := .both
  quit := some 3
  users := []
  resize := some 2

theorem sampleToplevel_decorated : Decorated sampleToplevel 1 sampleDecoration := by
  have hn : (sampleToplevel.nodes 1).map (fun n => (n.nodeClass, n.parent, n.childrenHead)) =
      some (.toplevel true .both, some 0, some 3) := by with_unfolding_all rfl
  have hq : (sampleToplevel.nodes 3).map (fun n => (n.nodeClass, n.nextSibling)) =
      some (.button true false none, some 2) := by with_unfolding_all rfl
  have hr : (sampleToplevel.nodes 2).map (fun n => (n.nodeClass, n.nextSibling)) =
      some (.button false true none, none) := by with_unfolding_all rfl
  obtain ⟨n, hn, hn'⟩ := Option.map_eq_some_iff.mp hn
  obtain ⟨q, hq, hq'⟩ := Option.map_eq_some_iff.mp hq
  obtain ⟨r, hr, hr'⟩ := Option.map_eq_some_iff.mp hr
  simp only [Prod.mk.injEq] at hn' hq' hr'
  refine ⟨⟨n, 0, hn, hn'.1, hn'.2.1, ?_⟩, fun p hp m hm => ?_, fun p hp => ?_, fun p hp m hm => ?_⟩
  · exact ⟨hn'.2.2, q, hq, hq'.2, r, hr, hr'.2⟩
  · obtain rfl : 3 = p := Option.some.inj hp
    obtain rfl := Option.some.inj (hq.symm.trans hm)
    simp [Node.isQuitButton, Node.isResizeButton, hq'.1]
  · exact absurd hp List.not_mem_nil
  · obtain rfl : 2 = p := Option.some.inj hp
    obtain rfl := Option.some.inj (hr.symm.trans hm)
    simp [Node.isQuitButton, Node.isResizeButton, hr'.1]

/-- A new toplevel is made not resizable. -/
theorem withdrawsExactly_iff_toplevel : ∃ bs, HasBindings sampleToplevel bs ∧
    ((∃ s', eiToplevelConfigure sampleToplevel 1 { resizable := some .none } = some s' ∧
      WithdrawsExactly sampleToplevel s' 1 [3, 2] [2]) ↔
      CanConfigure sampleDecoration { resizable := some .none } bs) := by
  obtain ⟨l, hl, -⟩ := (sampleApp_started ⟨640, 480⟩).bindings
  obtain ⟨l', hl', -⟩ := (eiWidgetCreate_created (sampleApp_started ⟨640, 480⟩).wellFormed
    (sampleApp_live ⟨640, 480⟩) eiWidgetCreate_sampleToplevel).1.bindings l hl
  exact ⟨_, hl', withdrawsExactly_iff sampleToplevel_wellFormed hl' sampleToplevel_decorated
    { resizable := some .none }⟩

/-- A new toplevel has a resize button after its quit button, and cannot be made not closable. -/
theorem sampleToplevel_not_withdrawn : Decorated sampleToplevel 1 sampleDecoration ∧
    ¬ ∃ s', eiToplevelConfigure sampleToplevel 1 { closable := some false } = some s' ∧
      WithdrawsExactly sampleToplevel s' 1 [3, 2] [3] := by
  refine ⟨sampleToplevel_decorated, ?_⟩
  rintro ⟨s', hs', -⟩
  have hnone : (eiToplevelConfigure sampleToplevel 1 { closable := some false }).isNone := by
    with_unfolding_all rfl
  simp [hs'] at hnone

end Sample

end GuiLibrary

import GuiLibrary.Adoption
import GuiLibrary.Decorations
import GuiLibrary.Hierarchy

/-!
# Configuring a toplevel again and again

`ei_toplevel_configure` stores its arguments in the flags of the toplevel, and withdraws the buttons
that have become useless; nothing brings a withdrawn button back. `ei_widget_create` trusts the
flag: it looks for the resize button of a resizable toplevel that has children, and follows a null
pointer when there is none.

`Fixtures` is the abstract state of a toplevel, as far as its decorations go, and `Fixtures.Allows`
the exact condition under which a call completes and leaves flags and buttons in agreement.

## Main definitions

* `ToplevelOp`, `Fixtures`, `Fixtures.Allows`, `Follows`, `FollowsAlong`.

## Main results

* `eiWidgetCreate_toplevel_decorated`, `eiWidgetCreate_child_decorated`.
* `decorations_follow_iff`.
-/

namespace GuiLibrary

open Cells

/-! ### Decorations and new widgets -/

namespace Decorated

variable {s s' : AppState} {t parent : Ptr} {d : Decoration} {cls : NodeClass} {l₁ l₂ : List Ptr}

theorem hasFlags_of_adopted (h : Decorated s t d) (ha : Adopted s s' parent cls l₁ l₂) {p : Ptr}
    {b b' : Bool} (hp : p ∈ d.children) (hflags : HasFlags s p b b') : HasFlags s' p b b' := by
  obtain ⟨m₀, o, -, -, -, hc⟩ := h.toplevel
  obtain ⟨n, hn⟩ := hc.live p hp
  obtain ⟨n', hn', hcls, -⟩ := ha.nodeClass_eq hn
  intro m hm
  obtain rfl := Option.some.inj (hm.symm.trans hn')
  rw [Node.isQuitButton, Node.isResizeButton, hcls]
  exact hflags n hn

/-- A new child of the toplevel. -/
theorem adopt (h : Decorated s t d) (hs : WellFormed s) (ha : Adopted s s' t cls l₁ l₂)
    (hl : d.children = l₁ ++ l₂) {d' : Decoration}
    (hchildren : d'.children = l₁ ++ s.nextWidget :: l₂) (hclosable : d'.closable = d.closable)
    (hresizable : d'.resizable = d.resizable)
    (hquit : ∀ q, d'.quit = some q → d.quit = some q ∨ HasFlags s' q true false)
    (husers : ∀ p ∈ d'.users, p ∈ d.users ∨ HasFlags s' p false false)
    (hresize : ∀ r, d'.resize = some r → d.resize = some r ∨ HasFlags s' r false true) :
    Decorated s' t d' := by
  obtain ⟨n, o, hn, hcls, ho, hc⟩ := h.toplevel
  rw [hl] at hc
  obtain ⟨n', hn', hcls', hpar', hc'⟩ := ha.children hs hn hc
  refine ⟨⟨n', o, hn', ?_, hpar'.trans ho, hchildren ▸ hc'⟩, fun q hq => ?_, fun p hp => ?_,
    fun r hr => ?_⟩
  · rw [hcls', hcls, hclosable, hresizable]
  · exact (hquit q hq).elim (fun hq => h.hasFlags_of_adopted ha (mem_quit hq) (h.quit q hq)) id
  · exact (husers p hp).elim (fun hp => h.hasFlags_of_adopted ha (mem_users hp) (h.users p hp)) id
  · exact (hresize r hr).elim (fun hr => h.hasFlags_of_adopted ha (mem_resize hr) (h.resize r hr))
      id

/-- A new child of another widget. -/
theorem adopt_other (h : Decorated s t d) (hs : WellFormed s) {pn : Node}
    (hpn : s.nodes parent = some pn)
    (hl : Chain s.nodes Node.nextSibling pn.childrenHead (l₁ ++ l₂))
    (ha : Adopted s s' parent cls l₁ l₂) (hne : t ≠ parent) : Decorated s' t d := by
  obtain ⟨n, o, hn, hcls, ho, hc⟩ := h.toplevel
  obtain ⟨n', hn', hcls', hpar', hc'⟩ := ha.children_of_ne hs hpn hl hne hn hc
  exact ⟨⟨n', o, hn', hcls'.trans hcls, hpar'.trans ho, hc'⟩,
    fun q hq => h.hasFlags_of_adopted ha (mem_quit hq) (h.quit q hq),
    fun p hp => h.hasFlags_of_adopted ha (mem_users hp) (h.users p hp),
    fun r hr => h.hasFlags_of_adopted ha (mem_resize hr) (h.resize r hr)⟩

end Decorated

/-- The flags of a new widget. -/
theorem Adopted.hasFlags {s s' : AppState} {parent : Ptr} {cls : NodeClass}
    {l₁ l₂ : List Ptr} {b b' : Bool} (h : Adopted s s' parent cls l₁ l₂)
    (hcls : ∀ m : Node, m.nodeClass = cls → m.isQuitButton = b ∧ m.isResizeButton = b') :
    HasFlags s' s.nextWidget b b' := by
  obtain ⟨n, hn, hc, -, -⟩ := h.new
  intro m hm
  obtain rfl := Option.some.inj (hm.symm.trans hn)
  exact hcls m hc

/-! ### New toplevels -/

section Create

variable [Hardware] {s s' : AppState} {t parent : Ptr} {d : Decoration}
  {bs : List (Ptr × Binding)}

/-- **The hidden buttons of a new toplevel.** Other toplevels keep their decorations. -/
theorem setdefaultstoplevel_decorated (hs : WellFormed s) (hbs : HasBindings s bs)
    (h : Decorated s t ⟨true, .both, none, [], none⟩) :
    ∃ s', setdefaultstoplevel s t = some s' ∧
      Decorated s' t ⟨true, .both, some (s.nextWidget + 1), [], some s.nextWidget⟩ ∧
      ∀ t' d', t' ≠ t → Decorated s t' d' → Decorated s' t' d' := by
  obtain ⟨n, o, hn, hcls, ho, hc⟩ := h.toplevel
  have hcls : n.nodeClass = .toplevel true .both := hcls
  have hc : Chain s.nodes Node.nextSibling n.childrenHead ([] ++ []) := hc
  obtain ⟨s₁, h₁, ha₁⟩ := createHiddenButton_adopted resizeButtonConfig resizeButtonPlace
    .begResize hs hbs hn hc (.tail fun h => absurd rfl h) rfl rfl rfl node_setResizeButton
  have hd₁ : Decorated s₁ t ⟨true, .both, none, [], some s.nextWidget⟩ := by
    refine h.adopt hs ha₁ rfl rfl rfl rfl (fun q hq => Or.inl hq) (fun p hp => Or.inl hp)
      fun r hr => Or.inr ?_
    rw [← Option.some.inj hr]
    exact ha₁.hasFlags fun m hm => by simp [Node.isQuitButton, Node.isResizeButton, hm]
  obtain ⟨-, -, -, -, hb₁⟩ := createHiddenButton_grown hs ⟨n, hn⟩ rfl node_setResizeButton h₁
  obtain ⟨a, hb₁⟩ := hb₁ bs hbs
  obtain ⟨s₂, h₂, hb₂, honly⟩ := hb₁.appendBind
    ⟨.mouseButtondown, some t, none, .begMove, none, true⟩
  have hnodes₂ : s₂.nodes = s₁.nodes := by
    rw [honly]
    rfl
  have hnext₂ : s₂.nextWidget = s.nextWidget + 1 := by
    have : s₂.nextWidget = s₁.nextWidget := by rw [honly]
    rw [this, ha₁.nextWidget]
  have hs₂ := ha₁.grown.wellFormed.of_onlyBinds honly
  have hd₂ := hd₁.congr hnodes₂
  obtain ⟨n₂, o₂, hn₂, hcls₂, -, hc₂⟩ := hd₂.toplevel
  have hc₂ : Chain s₂.nodes Node.nextSibling n₂.childrenHead ([] ++ [s.nextWidget]) := hc₂
  obtain ⟨s₃, h₃, ha₃⟩ := createHiddenButton_adopted quitButtonConfig quitButtonPlace
    .quitToplevelEvent hs₂ hb₂ hn₂ hc₂
    (.beforeLast hcls₂ (by simp) (by simp) fun h => absurd rfl h) rfl rfl rfl node_setQuitButton
  refine ⟨s₃, ?_, ?_, fun t' d' hne ht' => ?_⟩
  · simp only [setdefaultstoplevel, Option.bind_eq_bind, h₁, Option.bind_some]
    rw [show eiBind s₁ .mouseButtondown (some t) none .begMove none = some s₂ from h₂,
      Option.bind_some, h₃]
  · refine hd₂.adopt hs₂ ha₃ rfl ?_ rfl rfl (fun q hq => Or.inr ?_) (fun p hp => Or.inl hp)
      fun r hr => Or.inl hr
    · rw [hnext₂]
      rfl
    · rw [← Option.some.inj hq, ← hnext₂]
      exact ha₃.hasFlags fun m hm => by simp [Node.isQuitButton, Node.isResizeButton, hm]
  · exact ((ht'.adopt_other hs hn hc ha₁ hne).congr hnodes₂).adopt_other hs₂ hn₂ hc₂ ha₃ hne

omit [Hardware] in
/-- A widget of the class toplevel as it is allocated has no buttons yet. -/
theorem Adopted.decorated {l₁ l₂ : List Ptr}
    (h : Adopted s s' parent (.toplevel true .both) l₁ l₂) :
    Decorated s' s.nextWidget ⟨true, .both, none, [], none⟩ := by
  obtain ⟨n, hn, hcls, hpar, hhead⟩ := h.new
  refine ⟨⟨n, parent, hn, hcls, hpar, hhead⟩, fun q hq => ?_, fun p hp => ?_, fun r hr => ?_⟩
  · exact absurd hq (by simp)
  · exact absurd hp List.not_mem_nil
  · exact absurd hr (by simp)

/-- **A new toplevel** has both buttons. -/
theorem eiWidgetCreate_toplevel_decorated {wid : Ptr} {destructor : Option ℕ} (hs : WellFormed s)
    (hbs : HasBindings s bs) (hparent : s.Live parent)
    (h : eiWidgetCreate s .toplevel (some parent) destructor = some (s', wid)) :
    Decorated s' wid ⟨true, .both, some (wid + 2), [], some (wid + 1)⟩ := by
  simp only [eiWidgetCreate, eiWidgetCreateWith, Option.elim_some, Option.bind_eq_bind,
    Option.bind_eq_some_iff, Option.some.injEq, Prod.mk.injEq] at h
  obtain ⟨s₁, h₁, s₂, h₂, rfl, rfl⟩ := h
  obtain ⟨l₁, l₂, ha⟩ := adopted_of_insertChild hs hparent h₁
  obtain ⟨-, -, -, -, -, hb⟩ := insertChild_grown hs hparent h₁
  obtain ⟨s₃, h₃, hd, -⟩ := setdefaultstoplevel_decorated ha.grown.wellFormed
    (hb bs hbs) ha.decorated
  obtain rfl := Option.some.inj (h₂.symm.trans h₃)
  rwa [ha.nextWidget] at hd

/-- **A new child of a toplevel** goes before the resize button, and the creation completes. -/
theorem eiWidgetCreate_child_decorated (hs : WellFormed s) (hbs : HasBindings s bs)
    (h : Decorated s t d) (hresize : d.resize = none ↔ d.resizable = .none) (c : WidgetClass)
    (destructor : Option ℕ) : ∃ s', eiWidgetCreate s c (some t) destructor =
        some (s', s.nextWidget) ∧ Decorated s' t { d with users := d.users ++ [s.nextWidget] } := by
  obtain ⟨n, o, hn, hcls, ho, hc⟩ := h.toplevel
  have hassoc : d.children = d.quit.toList ++ d.users ++ d.resize.toList := by
    rw [Decoration.children, List.append_assoc]
  rw [hassoc] at hc
  have hplace : Place s.nodes n.nodeClass (d.quit.toList ++ d.users) d.resize.toList := by
    cases hr : d.resize with
    | none =>
      refine .tail fun _ closable resizable hcls' => ?_
      rw [hcls, NodeClass.toplevel.injEq] at hcls'
      rw [← hcls'.2, hresize.mp hr]
    | some r =>
      exact .beforeLast hcls (fun hnone => by simp [hresize.mpr hnone] at hr)
        (fun p hp => h.not_resize hp) fun _ m hm => (h.resize r hr m hm).2
  obtain ⟨s₁, h₁, ha⟩ := insertChild_adopted hs hn hc hplace c destructor
  obtain ⟨-, -, -, -, -, hb⟩ := insertChild_grown hs ⟨n, hn⟩ h₁
  have hd₁ : Decorated s₁ t { d with users := d.users ++ [s.nextWidget] } := by
    refine h.adopt hs ha hassoc ?_ rfl rfl (fun q hq => Or.inl hq) (fun p hp => ?_)
      fun r hr => Or.inl hr
    · simp [Decoration.children]
    · rcases List.mem_append.mp hp with hp | hp
      · exact Or.inl hp
      · rw [List.mem_singleton.mp hp]
        refine Or.inr (ha.hasFlags fun m hm => ?_)
        cases c <;> simp [Node.isQuitButton, Node.isResizeButton, hm, defaultAttrs,
          Attrs.nodeClass, setdefaultsbutton]
  have hne : t ≠ s.nextWidget := by
    rintro rfl
    simp [hs.nodes_nextWidget] at hn
  obtain ⟨s₂, h₂, hd₂⟩ : ∃ s₂, setdefaultsfunc c s₁ s.nextWidget = some s₂ ∧
      Decorated s₂ t { d with users := d.users ++ [s.nextWidget] } := by
    cases c with
    | frame => exact ⟨s₁, rfl, hd₁⟩
    | button => exact ⟨s₁, rfl, hd₁⟩
    | toplevel =>
      obtain ⟨s₂, h₂, -, hother⟩ := setdefaultstoplevel_decorated ha.grown.wellFormed (hb bs hbs)
        ha.decorated
      exact ⟨s₂, h₂, hother t _ hne hd₁⟩
  refine ⟨s₂, ?_, hd₂⟩
  simp only [eiWidgetCreate, eiWidgetCreateWith, Option.elim_some, Option.bind_eq_bind, h₁,
    Option.bind_some, h₂]

end Create

/-! ### Flags and buttons -/

/-- The widget `p` is a quit button among the children of `t`. -/
def IsQuitButtonOf (s : AppState) (p t : Ptr) : Prop :=
  nodeLinks.ChildOf s.nodes p t ∧ ∃ n, s.nodes p = some n ∧ n.isQuitButton = true

/-- The widget `p` is a resize button among the children of `t`. -/
def IsResizeButtonOf (s : AppState) (p t : Ptr) : Prop :=
  nodeLinks.ChildOf s.nodes p t ∧ ∃ n, s.nodes p = some n ∧ n.isResizeButton = true

/-- The toplevel `t` has exactly one quit button if and only if it is closable, and exactly one
resize button if and only if it is resizable. -/
def Follows (s : AppState) (t : Ptr) : Prop :=
  ∃ n closable resizable, s.nodes t = some n ∧ n.nodeClass = .toplevel closable resizable ∧
    ((∃! p, IsQuitButtonOf s p t) ↔ closable = true) ∧
    ((∃! p, IsResizeButtonOf s p t) ↔ resizable ≠ .none)

/-- The buttons of a decoration are those that its flags ask for. -/
structure Decoration.Agrees (d : Decoration) : Prop where
  quit : d.quit.isSome ↔ d.closable = true
  resize : d.resize.isSome ↔ d.resizable ≠ .none

namespace Decorated

variable {s : AppState} {t : Ptr} {d : Decoration}

theorem isQuitButtonOf_iff (h : Decorated s t d) (hs : WellFormed s) {p : Ptr} :
    IsQuitButtonOf s p t ↔ d.quit = some p := by
  obtain ⟨n, o, hn, -, -, hc⟩ := h.toplevel
  constructor
  · rintro ⟨hchild, m, hm, hquit⟩
    have hmem := (hs.mem_children_iff hn hc).mpr hchild
    rcases List.mem_append.mp hmem with hmem | hmem
    · exact Option.mem_toList.mp hmem
    · simp [h.not_quit hmem m hm] at hquit
  · intro hq
    obtain ⟨m, hm⟩ := hc.live p (mem_quit hq)
    exact ⟨h.mem_children hs (mem_quit hq), m, hm, (h.quit p hq m hm).1⟩

theorem isResizeButtonOf_iff (h : Decorated s t d) (hs : WellFormed s) {p : Ptr} :
    IsResizeButtonOf s p t ↔ d.resize = some p := by
  obtain ⟨n, o, hn, -, -, hc⟩ := h.toplevel
  constructor
  · rintro ⟨hchild, m, hm, hresize⟩
    have hmem := (hs.mem_children_iff hn hc).mpr hchild
    rw [Decoration.children, ← List.append_assoc] at hmem
    rcases List.mem_append.mp hmem with hmem | hmem
    · simp [h.not_resize hmem m hm] at hresize
    · exact Option.mem_toList.mp hmem
  · intro hr
    obtain ⟨m, hm⟩ := hc.live p (mem_resize hr)
    exact ⟨h.mem_children hs (mem_resize hr), m, hm, (h.resize p hr m hm).2⟩

theorem follows_iff (h : Decorated s t d) (hs : WellFormed s) : Follows s t ↔ d.Agrees := by
  have hone : ∀ {P : Ptr → Prop} {o : Option Ptr}, (∀ p, P p ↔ o = some p) →
      ((∃! p, P p) ↔ o.isSome) := by
    intro P o hP
    simp only [hP]
    cases o with
    | none => simp [ExistsUnique]
    | some a => exact iff_of_true ⟨a, rfl, fun b hb => (Option.some.inj hb).symm⟩ rfl
  have hquit := hone fun p => h.isQuitButtonOf_iff hs (p := p)
  have hresize := hone fun p => h.isResizeButtonOf_iff hs (p := p)
  obtain ⟨n, o, hn, hcls, -, -⟩ := h.toplevel
  constructor
  · rintro ⟨n', closable, resizable, hn', hcls', hq, hr⟩
    obtain rfl := Option.some.inj (hn.symm.trans hn')
    rw [hcls, NodeClass.toplevel.injEq] at hcls'
    rw [hquit, ← hcls'.1] at hq
    rw [hresize, ← hcls'.2] at hr
    exact ⟨hq, hr⟩
  · rintro ⟨hq, hr⟩
    exact ⟨n, _, _, hn, hcls, by rw [hquit, hq], by rw [hresize, hr]⟩

end Decorated

/-! ### The abstract state -/

/-- One call on a toplevel: `ei_toplevel_configure`, or `ei_widget_create` of a child. -/
inductive ToplevelOp
  | configure (args : ToplevelArgs)
  | create (className : WidgetClass) (destructor : Option ℕ)

/-- The flags of a toplevel, and whether the programmer has created a child in it. -/
structure Fixtures where
  closable : Bool
  resizable : AxisSet
  hasUsers : Bool
deriving DecidableEq, Repr

namespace Fixtures

/-- A call, on the flags. -/
def step (f : Fixtures) : ToplevelOp → Fixtures
  | .configure args =>
      { f with
        closable := args.closable.getD f.closable
        resizable := args.resizable.getD f.resizable }
  | .create _ _ => { f with hasUsers := true }

/-- The condition on a configuration: `min_size` does not point to `NULL`; a flag is raised only if
it is up; the quit button is withdrawn only when it is the only child, and the resize button is not
looked for after it; and a button is looked for only when there is a child. -/
structure AllowsArgs (f : Fixtures) (args : ToplevelArgs) : Prop where
  minSize : args.minSize ≠ some none
  closable : args.closable = some true → f.closable = true
  resizable : ∀ axes, args.resizable = some axes → axes ≠ .none → f.resizable ≠ .none
  quit : args.closable = some false → f.closable = true →
    f.hasUsers = false ∧ f.resizable = .none ∧ args.resizable ≠ some .none
  child : args.closable = some false ∨ args.resizable = some .none →
    f.closable = true ∨ f.hasUsers = true ∨ f.resizable ≠ .none

/-- The condition on a call. -/
def Allows (f : Fixtures) : ToplevelOp → Prop
  | .configure args => f.AllowsArgs args
  | .create _ _ => True

/-- Every call of the sequence meets the condition in the state before it. -/
def AllowsAll : Fixtures → List ToplevelOp → Prop
  | _, [] => True
  | f, op :: ops => f.Allows op ∧ AllowsAll (f.step op) ops

end Fixtures

section Runs

variable [Hardware]

/-- A call. -/
def ToplevelOp.run (t : Ptr) (s : AppState) : ToplevelOp → Option AppState
  | .configure args => eiToplevelConfigure s t args
  | .create className destructor =>
      (eiWidgetCreate s className (some t) destructor).map Prod.fst

/-- Every call of the sequence completes, and the buttons follow the flags in the state after it. -/
def FollowsAlong (t : Ptr) : AppState → List ToplevelOp → Prop
  | _, [] => True
  | s, op :: ops => ∃ s', op.run t s = some s' ∧ Follows s' t ∧ FollowsAlong t s' ops

end Runs

/-- At most one binding is bound to the widget. -/
def BoundOnce (p : Ptr) (l : List (Ptr × Binding)) : Prop :=
  (l.filterMap fun e => e.2.widget).count p ≤ 1

/-- The toplevel `t` has buttons that agree with its flags, as in the abstract state, and each is
bound at most once. -/
structure Fitted (s : AppState) (t : Ptr) (f : Fixtures) : Prop where
  wellFormed : WellFormed s
  decorated : ∃ d bs, Decorated s t d ∧ HasBindings s bs ∧ d.Agrees ∧ d.closable = f.closable ∧
    d.resizable = f.resizable ∧ (d.users = [] ↔ f.hasUsers = false) ∧
    (∀ q, d.quit = some q → BoundOnce q bs) ∧ ∀ r, d.resize = some r → BoundOnce r bs

namespace BoundOnce

variable {p : Ptr} {l l' : List (Ptr × Binding)}

/-- Two neighbours are two bindings. -/
theorem noAdjacentBindings (h : BoundOnce p l) : NoAdjacentBindings p l := by
  induction l with
  | nil => exact .nil
  | cons e l ih =>
    have hl : BoundOnce p l :=
      (((List.sublist_cons_self e l).filterMap _).count_le p).trans h
    cases l with
    | nil => exact .singleton e
    | cons e' l =>
      refine List.isChain_cons_cons.mpr ⟨?_, ih hl⟩
      rintro ⟨he, he'⟩
      simp [BoundOnce, he, he'] at h

theorem filter (h : BoundOnce p l) (keep : Ptr × Binding → Bool) : BoundOnce p (l.filter keep) :=
  (((List.filter_sublist (p := keep)).filterMap _).count_le p).trans h

/-- Bindings of other widgets. -/
theorem append (h : BoundOnce p l) (hl' : ∀ e ∈ l', e.2.widget ≠ some p) :
    BoundOnce p (l ++ l') := by
  have hzero : (l'.filterMap fun e => e.2.widget).count p = 0 :=
    List.count_eq_zero.mpr fun hmem => by
    obtain ⟨e, he, hep⟩ := List.mem_filterMap.mp hmem
    exact hl' e he hep
  rw [BoundOnce, List.filterMap_append, List.count_append, hzero]
  exact h

/-- A new widget is bound by its creation only, and at most once. -/
theorem created {c : WidgetClass} {n : Ptr}
    (hlt : ∀ e ∈ l, ∀ p, e.2.widget = some p → p < n)
    (hmap : l'.map Prod.snd = createdBindings c n) (hp : n ≤ p) : BoundOnce p (l ++ l') := by
  have hzero : (l.filterMap fun e => e.2.widget).count p = 0 :=
    List.count_eq_zero.mpr fun hmem => by
      obtain ⟨e, he, hep⟩ := List.mem_filterMap.mp hmem
      exact Nat.not_lt.mpr hp (hlt e he p hep)
  rw [BoundOnce, List.filterMap_append, List.count_append, hzero, Nat.zero_add, filterMap_snd l',
    hmap]
  exact List.nodup_iff_count_le_one.mp (nodup_createdBindings c n) p

/-- An old widget is not bound by the creation of another one. -/
theorem append_created {c : WidgetClass} {n : Ptr} (h : BoundOnce p l)
    (hmap : l'.map Prod.snd = createdBindings c n) (hp : p < n) : BoundOnce p (l ++ l') := by
  refine h.append fun e he hep => ?_
  obtain ⟨p', hp', hle, -⟩ := targets_createdBindings c n e.2 (hmap ▸ List.mem_map_of_mem he)
  obtain rfl := Option.some.inj (hep.symm.trans hp')
  exact Nat.not_lt.mpr hle hp

end BoundOnce

section Step

variable {d : Decoration} {f : Fixtures} {bs : List (Ptr × Binding)}

/-- A toplevel has a child when it has a quit button, or a child of the programmer, or a resize
button. -/
theorem Decoration.Agrees.children_ne_nil (h : d.Agrees) : d.children ≠ [] ↔
    d.closable = true ∨ d.users ≠ [] ∨ d.resizable ≠ .none := by
  rw [← h.quit, ← h.resize, Decoration.children, ne_eq, List.append_eq_nil_iff,
    List.append_eq_nil_iff, Option.toList_eq_nil_iff, Option.toList_eq_nil_iff]
  simp only [Option.isSome_iff_ne_none]
  tauto

/-- **The condition on a configuration**, on the flags. -/
theorem canConfigure_agrees_iff (args : ToplevelArgs) (h : d.Agrees)
    (hclosable : d.closable = f.closable)
    (hresizable : d.resizable = f.resizable) (husers : d.users = [] ↔ f.hasUsers = false)
    (hq : ∀ q, d.quit = some q → BoundOnce q bs) (hr : ∀ r, d.resize = some r → BoundOnce r bs) :
    CanConfigure d args bs ∧ (d.configure args).Agrees ↔ f.AllowsArgs args := by
  have hne := h.children_ne_nil
  have husers' : d.users ≠ [] ↔ f.hasUsers = true := by
    rw [ne_eq, husers, Bool.not_eq_false]
  rw [hclosable, hresizable, husers'] at hne
  have hquit := h.quit
  have hresize := h.resize
  rw [hclosable] at hquit
  rw [hresizable] at hresize
  have hresize' : d.resize = none ↔ f.resizable = .none := by
    rw [← not_iff_not, ← ne_eq, ← ne_eq, ← hresize, Option.isSome_iff_ne_none]
  constructor
  · rintro ⟨hcan, hagrees⟩
    have hquit' := hagrees.quit
    have hresize'' := hagrees.resize
    simp only [Decoration.configure] at hquit' hresize''
    refine ⟨hcan.minSize, fun hc => ?_, fun axes ha hnone => ?_, fun hc hf => ?_, fun hor => ?_⟩
    · simpa [hc, hquit] using hquit'
    · simpa [ha, hnone, hresize] using hresize''
    · obtain ⟨q, hdq⟩ := Option.isSome_iff_exists.mp (hquit.mpr hf)
      obtain ⟨hnil, hnone, hres, -⟩ := hcan.quit hc q hdq
      exact ⟨husers.mp hnil, hresize'.mp hnone, hres⟩
    · exact hne.mp (hor.elim hcan.closable hcan.resizable)
  · intro hallows
    refine ⟨⟨hallows.minSize, fun hc => hne.mpr (hallows.child (Or.inl hc)), fun hc q hdq => ?_,
      fun ha => hne.mpr (hallows.child (Or.inr ha)), fun _ r hdr => (hr r hdr).noAdjacentBindings⟩,
      ⟨?_, ?_⟩⟩
    · obtain ⟨hnil, hnone, hres⟩ := hallows.quit hc (hquit.mp (by rw [hdq]; rfl))
      exact ⟨husers.mpr hnil, hresize'.mpr hnone, hres, (hq q hdq).noAdjacentBindings⟩
    · simp only [Decoration.configure]
      cases hc : args.closable with
      | none => simpa [hclosable] using hquit
      | some closable =>
        cases closable with
        | true => simpa [hquit] using hallows.closable hc
        | false => simp
    · simp only [Decoration.configure]
      cases ha : args.resizable with
      | none => simpa [hresizable] using hresize
      | some axes =>
        by_cases hnone : axes = .none
        · simp [hnone]
        · simpa [hnone, hresize] using hallows.resizable axes ha hnone

end Step

section Runs

variable [Hardware] {s s' : AppState} {t : Ptr} {f : Fixtures}

/-- **One call**: the buttons follow the flags after it exactly when it is allowed, and then the
abstract state follows, too. -/
theorem Fitted.run (h : Fitted s t f) (op : ToplevelOp) :
    ((∃ s', op.run t s = some s' ∧ Follows s' t) ↔ f.Allows op) ∧
      (f.Allows op → ∃ s', op.run t s = some s' ∧ Fitted s' t (f.step op)) := by
  obtain ⟨hs, d, bs, hd, hbs, hagrees, hclosable, hresizable, husers, hq, hr⟩ := h
  cases op with
  | configure args =>
    have hiff := canConfigure_agrees_iff args hagrees hclosable hresizable husers hq hr
    have hallows : f.Allows (.configure args) → ∃ s',
        ToplevelOp.run t s (.configure args) = some s' ∧
        Fitted s' t (f.step (.configure args)) := by
      intro ha
      obtain ⟨hcan, hagrees'⟩ := hiff.mpr ha
      obtain ⟨s', hs', hd', hw⟩ := eiToplevelConfigure_decorated hs hbs hd hcan
      refine ⟨s', hs', hw.wellFormed, d.configure args, _, hd', hw.bindings, hagrees', ?_, ?_,
        husers,
        fun q hq' => ?_, fun r hr' => ?_⟩
      · simp only [Decoration.configure, Fixtures.step, hclosable]
      · simp only [Decoration.configure, Fixtures.step, hresizable]
      · simp only [Decoration.configure] at hq'
        split_ifs at hq'
        exact (hq q hq').filter _
      · simp only [Decoration.configure] at hr'
        split_ifs at hr'
        exact (hr r hr').filter _
    refine ⟨⟨?_, fun ha => ?_⟩, hallows⟩
    · rintro ⟨s', hs', hfollows⟩
      have hs' : eiToplevelConfigure s t args = some s' := hs'
      have hcan : CanConfigure d args bs := by
        by_contra hcan
        simp [eiToplevelConfigure_eq_none hs hbs hd hcan] at hs'
      obtain ⟨s₂, hs₂, hd', hw⟩ := eiToplevelConfigure_decorated hs hbs hd hcan
      obtain rfl := Option.some.inj (hs'.symm.trans hs₂)
      exact hiff.mp ⟨hcan, (hd'.follows_iff hw.wellFormed).mp hfollows⟩
    · obtain ⟨s', hs', hf⟩ := hallows ha
      obtain ⟨hwf, d', -, hd', -, hagrees', -⟩ := hf
      exact ⟨s', hs', (hd'.follows_iff hwf).mpr hagrees'⟩
  | create c destructor =>
    have hallows : ∃ s', ToplevelOp.run t s (.create c destructor) = some s' ∧
        Fitted s' t (f.step (.create c destructor)) := by
      have hnone : d.resize = none ↔ d.resizable = .none := by
        rw [← not_iff_not, ← ne_eq, ← ne_eq, ← hagrees.resize, Option.isSome_iff_ne_none]
      obtain ⟨n, o, hn, -, -, hc⟩ := hd.toplevel
      obtain ⟨s', hs', hd'⟩ := eiWidgetCreate_child_decorated hs hbs hd hnone c destructor
      obtain ⟨hcreated, -⟩ := eiWidgetCreate_created hs ⟨n, hn⟩ hs'
      obtain ⟨l', hl', hmap⟩ := hcreated.bindings bs hbs
      have hold : ∀ p ∈ d.children, p < s.nextWidget := fun p hp => by
        obtain ⟨m, hm⟩ := hc.live p hp
        exact hs.linked.rank_bound p m hm
      refine ⟨s', by rw [ToplevelOp.run, hs', Option.map_some], hcreated.grown.wellFormed,
        _, _, hd',
        hl', ⟨hagrees.quit, hagrees.resize⟩, hclosable, hresizable, ?_, fun q hq' => ?_,
        fun r hr' => ?_⟩
      · simp [Fixtures.step]
      · exact (hq q hq').append_created hmap (hold q (Decorated.mem_quit hq'))
      · exact (hr r hr').append_created hmap (hold r (Decorated.mem_resize hr'))
    obtain ⟨s', hs', hf⟩ := hallows
    refine ⟨iff_of_true ⟨s', hs', ?_⟩ trivial, fun _ => ⟨s', hs', hf⟩⟩
    obtain ⟨hwf, d', -, hd', -, hagrees', -⟩ := hf
    exact (hd'.follows_iff hwf).mpr hagrees'

/-- A run from a fitted state. -/
theorem Fitted.along_iff (ops : List ToplevelOp) : ∀ {s : AppState} {f : Fixtures},
    Fitted s t f → (FollowsAlong t s ops ↔ f.AllowsAll ops) := by
  induction ops with
  | nil => exact fun _ => Iff.rfl
  | cons op ops ih =>
    intro s f h
    obtain ⟨hiff, hstep⟩ := h.run op
    constructor
    · rintro ⟨s', hs', hfollows, hrest⟩
      have ha := hiff.mp ⟨s', hs', hfollows⟩
      obtain ⟨s₂, hs₂, hf⟩ := hstep ha
      obtain rfl := Option.some.inj (hs'.symm.trans hs₂)
      exact ⟨ha, (ih hf).mp hrest⟩
    · rintro ⟨ha, hrest⟩
      obtain ⟨s₁, hs₁, hfollows⟩ := hiff.mpr ha
      obtain ⟨s₂, hs₂, hf⟩ := hstep ha
      obtain rfl := Option.some.inj (hs₁.symm.trans hs₂)
      exact ⟨s₁, hs₁, hfollows, (ih hf).mpr hrest⟩

/-- A new toplevel is fitted, when the bindings of before were bound to widgets of before. -/
theorem fitted_of_create {s₀ : AppState} {parent : Ptr} {destructor : Option ℕ}
    {bs : List (Ptr × Binding)} (hs : WellFormed s₀) (hbs : HasBindings s₀ bs)
    (hlt : ∀ e ∈ bs, ∀ p, e.2.widget = some p → p < s₀.nextWidget) (hparent : s₀.Live parent)
    (h : eiWidgetCreate s₀ .toplevel (some parent) destructor = some (s, t)) :
    Fitted s t ⟨true, .both, false⟩ := by
  have hd := eiWidgetCreate_toplevel_decorated hs hbs hparent h
  obtain ⟨hcreated, rfl⟩ := eiWidgetCreate_created hs hparent h
  obtain ⟨l', hl', hmap⟩ := hcreated.bindings bs hbs
  -- Both buttons are bound by their creation only.
  have honce : ∀ p, s₀.nextWidget ≤ p → BoundOnce p (bs ++ l') := fun p hp =>
    .created hlt hmap hp
  refine ⟨hcreated.grown.wellFormed, _, _, hd, hl', ⟨?_, ?_⟩, rfl, rfl, ?_, fun q hq => ?_,
    fun r hr => ?_⟩
  · simp
  · simp
  · simp
  · rw [← Option.some.inj hq]
    exact honce _ (Nat.le_add_right _ 2)
  · rw [← Option.some.inj hr]
    exact honce _ (Nat.le_add_right _ 1)

/-- **The decorations of a toplevel follow its configuration** through a sequence of calls exactly
when every call is allowed. -/
theorem decorations_follow_iff {s₀ : AppState} {parent : Ptr} {destructor : Option ℕ}
    {bs : List (Ptr × Binding)} (hs : WellFormed s₀) (hbs : HasBindings s₀ bs)
    (hlt : ∀ e ∈ bs, ∀ p, e.2.widget = some p → p < s₀.nextWidget) (hparent : s₀.Live parent)
    (h : eiWidgetCreate s₀ .toplevel (some parent) destructor = some (s, t))
    (ops : List ToplevelOp) : Follows s t ∧
      (FollowsAlong t s ops ↔ Fixtures.AllowsAll ⟨true, .both, false⟩ ops) := by
  have hfitted := fitted_of_create hs hbs hlt hparent h
  obtain ⟨d, -, hd, -, hagrees, -⟩ := hfitted.decorated
  exact ⟨(hd.follows_iff hfitted.wellFormed).mpr hagrees, hfitted.along_iff ops⟩

end Runs

section Sample

attribute [local instance] sampleHardware

/-- The bindings of a new application have no widget. -/
theorem sampleApp_bindings : ∃ bs, HasBindings (sampleApp ⟨640, 480⟩) bs ∧
    ∀ e ∈ bs, ∀ p, e.2.widget = some p → p < (sampleApp ⟨640, 480⟩).nextWidget := by
  have hinv := treeInvariant_of_started (sampleApp_started ⟨640, 480⟩)
  obtain ⟨bs, hbs, hdistinct⟩ := hinv.bindings
  exact ⟨bs, hbs, hdistinct.lt⟩

/-- A new toplevel gets a child, then is made not resizable. -/
theorem decorations_follow_iff_toplevel : Follows sampleToplevel 1 ∧
    (FollowsAlong 1 sampleToplevel [.create .frame none, .configure { resizable := some .none }] ↔
      Fixtures.AllowsAll ⟨true, .both, false⟩
        [.create .frame none, .configure { resizable := some .none }]) := by
  obtain ⟨bs, hbs, hlt⟩ := sampleApp_bindings
  exact decorations_follow_iff (sampleApp_started ⟨640, 480⟩).wellFormed hbs hlt
    (sampleApp_live ⟨640, 480⟩) eiWidgetCreate_sampleToplevel _

/-- A toplevel that is made not resizable and then resizable again has no resize button. -/
theorem sampleToplevel_not_resizable_again : ¬ FollowsAlong 1 sampleToplevel
    [.configure { resizable := some .none }, .configure { resizable := some .both }] := by
  obtain ⟨bs, hbs, hlt⟩ := sampleApp_bindings
  have hfitted := fitted_of_create (sampleApp_started ⟨640, 480⟩).wellFormed hbs hlt
    (sampleApp_live ⟨640, 480⟩) eiWidgetCreate_sampleToplevel
  rw [hfitted.along_iff]
  rintro ⟨-, hallows, -⟩
  exact hallows.resizable .both rfl (by decide) rfl

end Sample

end GuiLibrary

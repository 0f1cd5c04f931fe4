import GuiLibrary.Reconfiguration

/-!
# The stacking order inside a toplevel

A toplevel draws its children in the order of its list: the quit button first, the resize button
last, and the children of the programmer between them, in the order of their creation. The two
buttons are created first, so every later `ei_widget_create` has to find the resize button at the
end of the list and to link the new child before it.

`StackRun` is any sequence of such creations, of destructions of children of the programmer, and of
configurations that leave the buttons alone. The order is kept along it, and every next call
completes. The children are listed by their addresses, which are never reused: a widget that is
created has an address that no widget before it has had.

## Main definitions

* `StackRun`: the sequences, with the surviving children of the programmer.
* `Stacked`: the order of the children, and what it is for.

## Main results

* `stacked_of_run`.
-/

namespace GuiLibrary

open Cells

section Runs

variable [Hardware] {s s' : AppState} {t q r : Ptr} {users : List Ptr}

/-- A sequence of calls on the toplevel `t` that starts in the state `s`, and the surviving children
of the programmer in the order of their creation. -/
inductive StackRun (t : Ptr) (s : AppState) : AppState → List Ptr → Prop
  | start : StackRun t s s []
  | create {s₁ s' : AppState} {users : List Ptr} {p : Ptr} (c : WidgetClass)
      (destructor : Option ℕ) (run : StackRun t s s₁ users)
      (h : eiWidgetCreate s₁ c (some t) destructor = some (s', p)) :
      StackRun t s s' (users ++ [p])
  | destroy {s₁ s' : AppState} {users : List Ptr} (p : Ptr) (run : StackRun t s s₁ users)
      (hp : p ∈ users) (h : eiWidgetDestroy s₁ p = some s') : StackRun t s s' (users.erase p)
  | configure {s₁ s' : AppState} {users : List Ptr} (args : ToplevelArgs)
      (run : StackRun t s s₁ users) (hclosable : args.closable = none)
      (hresizable : args.resizable = none) (h : eiToplevelConfigure s₁ t args = some s') :
      StackRun t s s' users

/-- The children of the toplevel `t` are its quit button, the children of the programmer and its
resize button, in this order; the loop of `ei_widget_create` finds the resize button once the new
widget is allocated, and the next call completes. -/
structure Stacked (s : AppState) (t q r : Ptr) (users : List Ptr) : Prop where
  children : ∃ n, s.nodes t = some n ∧
    Chain s.nodes Node.nextSibling n.childrenHead (q :: (users ++ [r]))
  quit : IsQuitButtonOf s q t
  resize : IsResizeButtonOf s r t
  finds : ∀ w : Widget, ∃ penultimate, findResizeButton (s.allocWidget w).widgets
    (s.allocWidget w).nextWidget q (users ++ [r]).head? = some (penultimate, r)
  creates : ∀ c destructor, ∃ s' p, eiWidgetCreate s c (some t) destructor = some (s', p)
  destroys : ∀ p ∈ users, ∃ s', eiWidgetDestroy s p = some s'

/-- The decoration of a toplevel with both buttons. -/
def stackDecoration (q r : Ptr) (users : List Ptr) : Decoration :=
  ⟨true, .both, some q, users, some r⟩

/-- The invariant of the sequences: the toplevel keeps its decoration, and a child of the programmer
is bound at most once. -/
structure Stackable (s : AppState) (t q r : Ptr) (users : List Ptr) : Prop where
  wellFormed : WellFormed s
  decorated : Decorated s t (stackDecoration q r users)
  bindings : ∃ bs, HasBindings s bs ∧
    (∀ e ∈ bs, ∀ p, e.2.widget = some p → p < s.nextWidget) ∧ ∀ p ∈ users, BoundOnce p bs

omit [Hardware] in
/-- Bindings to widgets, before and after a creation. -/
theorem lt_of_created {bs l' : List (Ptr × Binding)} {c : WidgetClass} {n n' : Ptr}
    (hlt : ∀ e ∈ bs, ∀ p, e.2.widget = some p → p < n)
    (hmap : l'.map Prod.snd = createdBindings c n) (hn' : n' = n + if c = .toplevel then 3 else 1) :
    ∀ e ∈ bs ++ l', ∀ p, e.2.widget = some p → p < n' := by
  intro e he p hep
  rcases List.mem_append.mp he with he | he
  · exact hn' ▸ Nat.lt_add_right _ (hlt e he p hep)
  · obtain ⟨p', hp', -, hle⟩ := targets_createdBindings c n e.2 (hmap ▸ List.mem_map_of_mem he)
    obtain rfl := Option.some.inj (hep.symm.trans hp')
    exact hn' ▸ hle

namespace Stackable

omit [Hardware] in
/-- The children are widgets. -/
theorem lt_nextWidget (h : Stackable s t q r users) {p : Ptr}
    (hp : p ∈ (stackDecoration q r users).children) : p < s.nextWidget := by
  obtain ⟨n, o, -, -, -, hc⟩ := h.decorated.toplevel
  obtain ⟨m, hm⟩ := hc.live p hp
  exact h.wellFormed.linked.rank_bound p m hm

omit [Hardware] in
/-- The children of the programmer differ. -/
theorem nodup (h : Stackable s t q r users) : users.Nodup := by
  obtain ⟨n, o, -, -, -, hc⟩ := h.decorated.toplevel
  have hnodup := hc.nodup
  rw [Decoration.children, List.nodup_append, List.nodup_append] at hnodup
  exact hnodup.2.1.1

/-- A new child is the last one before the resize button. -/
theorem create (h : Stackable s t q r users) (c : WidgetClass) (destructor : Option ℕ) :
    ∃ s', eiWidgetCreate s c (some t) destructor = some (s', s.nextWidget) ∧
      Stackable s' t q r (users ++ [s.nextWidget]) := by
  obtain ⟨bs, hbs, hlt, honce⟩ := h.bindings
  obtain ⟨n, o, hn, -, -, -⟩ := h.decorated.toplevel
  obtain ⟨s', hs', hd'⟩ := eiWidgetCreate_child_decorated h.wellFormed hbs h.decorated
    (by simp [stackDecoration]) c destructor
  obtain ⟨hcreated, -⟩ := eiWidgetCreate_created h.wellFormed ⟨n, hn⟩ hs'
  obtain ⟨l', hl', hmap⟩ := hcreated.bindings bs hbs
  refine ⟨s', hs', hcreated.grown.wellFormed, hd', bs ++ l', hl',
    lt_of_created hlt hmap hcreated.nextWidget, fun p hp => ?_⟩
  rcases List.mem_append.mp hp with hp | hp
  · exact (honce p hp).append_created hmap (h.lt_nextWidget (Decorated.mem_users hp))
  · exact .created hlt hmap (Nat.le_of_eq (List.mem_singleton.mp hp).symm)

omit [Hardware] in
/-- A destroyed child leaves the order of the others. -/
theorem destroy (h : Stackable s t q r users) {p : Ptr} (hp : p ∈ users) :
    ∃ s', eiWidgetDestroy s p = some s' ∧ Stackable s' t q r (users.erase p) := by
  obtain ⟨bs, hbs, hlt, honce⟩ := h.bindings
  obtain ⟨n, o, hn, -, -, hc⟩ := h.decorated.toplevel
  have hmem : p ∈ (stackDecoration q r users).children := Decorated.mem_users hp
  obtain ⟨m, hm⟩ := hc.live p hmem
  obtain ⟨w, hw, -⟩ := AppState.nodes_eq_some.mp hm
  obtain ⟨f, hf⟩ := h.wellFormed.exists_forest hw
  obtain ⟨s', hs', hd, -, hbs'⟩ := eiWidgetDestroy_destroyed h.wellFormed hbs hw hf
    (honce p hp).noAdjacentBindings
  have hnodup := hc.nodup
  have hq : q ≠ p := by
    rintro rfl
    simp [stackDecoration, Decoration.children, hp] at hnodup
  have hr : r ≠ p := by
    rintro rfl
    rw [Decoration.children, List.nodup_append, List.nodup_append] at hnodup
    exact hnodup.2.1.2.2 r hp r (by simp [stackDecoration]) rfl
  refine ⟨s', hs', hd.wellFormed h.wellFormed, ?_, _, hbs', fun e he p' hep => ?_,
    fun p' hp' => ?_⟩
  · refine h.decorated.destroyed h.wellFormed hmem hd ?_ rfl rfl (fun q' hq' => ⟨hq', ?_⟩)
      (fun p' hp' => ?_) fun r' hr' => ⟨hr', ?_⟩
    · simp only [stackDecoration, Decoration.children, h.nodup.erase_eq_filter, Option.toList_some,
        List.filter_append]
      simp [hq, hr]
      rfl
    · rwa [← Option.some.inj hq']
    · have := (h.nodup.mem_erase_iff).mp hp'
      exact ⟨this.2, this.1⟩
    · rwa [← Option.some.inj hr']
  · rw [hd.nextWidget]
    exact hlt e (List.mem_of_mem_filter he) p' hep
  · exact (honce p' (List.mem_of_mem_erase hp')).filter _

omit [Hardware] in
/-- A configuration that does not touch the buttons leaves the children alone. -/
theorem configure (h : Stackable s t q r users) {args : ToplevelArgs}
    (hclosable : args.closable = none) (hresizable : args.resizable = none)
    (hs' : eiToplevelConfigure s t args = some s') : Stackable s' t q r users := by
  obtain ⟨bs, hbs, hlt, honce⟩ := h.bindings
  have hwithdrawn : (stackDecoration q r users).withdrawn args = [] := by
    simp [Decoration.withdrawn, hclosable, hresizable]
  have hsame : (stackDecoration q r users).configure args = stackDecoration q r users := by
    simp [Decoration.configure, hclosable, hresizable]
  have hcan : CanConfigure (stackDecoration q r users) args bs := by
    by_contra hcan
    simp [eiToplevelConfigure_eq_none h.wellFormed hbs h.decorated hcan] at hs'
  obtain ⟨s₂, hs₂, hd', hw⟩ := eiToplevelConfigure_decorated h.wellFormed hbs h.decorated hcan
  obtain rfl := Option.some.inj (hs'.symm.trans hs₂)
  have htree := hw.same hwithdrawn
  exact ⟨hw.wellFormed, hsame ▸ hd', bs, htree.hasBindings hbs,
    fun e he p hep => htree.nextWidget ▸ hlt e he p hep, honce⟩

omit [Hardware] in
/-- The loop finds the resize button, which is the last child. -/
theorem finds (h : Stackable s t q r users) (w : Widget) : ∃ penultimate,
    findResizeButton (s.allocWidget w).widgets (s.allocWidget w).nextWidget q
      (users ++ [r]).head? = some (penultimate, r) := by
  obtain ⟨n, o, hn, -, -, hc⟩ := h.decorated.toplevel
  have hc : Chain s.nodes Node.nextSibling n.childrenHead (q :: (users ++ [r])) := hc
  have hchain := AppState.chain_nodes_iff.mp (s.nodes_allocWidget w ▸
    hc.update_of_notMem (h.wellFormed.nextWidget_notMem hc) (some w.node))
  rw [hc.head_eq, List.head?_cons] at hchain
  -- The new widget is none of the children.
  have hold : ∀ p ∈ (stackDecoration q r users).children, ∀ v,
      (s.allocWidget w).widgets p = some v → s.nodes p = some v.node := by
    intro p hp v hv
    have hne : p ≠ s.nextWidget := fun heq => Nat.lt_irrefl _ (heq ▸ h.lt_nextWidget hp)
    rw [← AppState.nodes_of_widgets hv, s.nodes_allocWidget, Function.update_of_ne hne]
  have hlen : users.length < s.nextWidget + 1 := by
    have := hc.length_le fun p hp => h.lt_nextWidget hp
    simp only [List.length_cons, List.length_append] at this
    omega
  obtain ⟨penultimate, hpen⟩ : ∃ p, (q :: users).getLast? = some p :=
    ⟨_, List.getLast?_eq_some_getLast (List.cons_ne_nil q users)⟩
  refine ⟨penultimate, findResizeButton_eq users _ q hchain (fun p hp v hv => ?_) (fun v hv => ?_)
    hpen hlen⟩
  · rw [← Widget.isResizeButton_node]
    exact (h.decorated.users p hp _ (hold p (Decorated.mem_users hp) v hv)).2
  · rw [← Widget.isResizeButton_node]
    exact (h.decorated.resize r rfl _ (hold r (Decorated.mem_resize rfl) v hv)).2

/-- The order of the children, and what the next calls do. -/
theorem stacked (h : Stackable s t q r users) : Stacked s t q r users := by
  obtain ⟨n, o, hn, -, -, hc⟩ := h.decorated.toplevel
  refine ⟨⟨n, hn, hc⟩, (h.decorated.isQuitButtonOf_iff h.wellFormed).mpr rfl,
    (h.decorated.isResizeButtonOf_iff h.wellFormed).mpr rfl, fun w => ?_, fun c destructor => ?_,
    fun p hp => ?_⟩
  · exact h.finds w
  · obtain ⟨s', hs', -⟩ := h.create c destructor
    exact ⟨s', _, hs'⟩
  · obtain ⟨s', hs', -⟩ := h.destroy hp
    exact ⟨s', hs'⟩

/-- The invariant along a sequence of calls. -/
theorem run (h : Stackable s t q r []) (hrun : StackRun t s s' users) :
    Stackable s' t q r users := by
  induction hrun with
  | start => exact h
  | create c destructor run hc ih =>
    obtain ⟨s₂, hs₂, h₂⟩ := ih.create c destructor
    rw [hs₂, Option.some.injEq, Prod.mk.injEq] at hc
    obtain ⟨rfl, rfl⟩ := hc
    exact h₂
  | destroy p run hp hd ih =>
    obtain ⟨s₂, hs₂, h₂⟩ := ih.destroy hp
    obtain rfl := Option.some.inj (hs₂.symm.trans hd)
    exact h₂
  | configure args run hclosable hresizable hc ih => exact ih.configure hclosable hresizable hc

end Stackable

/-- **The stacking order inside a toplevel.** A new toplevel has a quit button and a resize button
such that along any sequence of creations and destructions of children, its children are the quit
button, the surviving children of the programmer in the order of their creation, and the resize
button. -/
theorem stacked_of_run {s₀ : AppState} {parent : Ptr} {destructor : Option ℕ}
    {bs : List (Ptr × Binding)} (hs : WellFormed s₀) (hbs : HasBindings s₀ bs)
    (hlt : ∀ e ∈ bs, ∀ p, e.2.widget = some p → p < s₀.nextWidget) (hparent : s₀.Live parent)
    (h : eiWidgetCreate s₀ .toplevel (some parent) destructor = some (s, t)) :
    ∃ q r, ∀ s' users, StackRun t s s' users → Stacked s' t q r users := by
  have hd := eiWidgetCreate_toplevel_decorated hs hbs hparent h
  obtain ⟨hcreated, rfl⟩ := eiWidgetCreate_created hs hparent h
  obtain ⟨l', hl', hmap⟩ := hcreated.bindings bs hbs
  have hstack : Stackable s s₀.nextWidget (s₀.nextWidget + 2) (s₀.nextWidget + 1) [] :=
    ⟨hcreated.grown.wellFormed, hd, _, hl', lt_of_created hlt hmap hcreated.nextWidget,
      fun p hp => absurd hp List.not_mem_nil⟩
  exact ⟨_, _, fun s' users hrun => (hstack.run hrun).stacked⟩

end Runs

section Sample

attribute [local instance] sampleHardware

/-- The toplevel of a new application. -/
theorem stacked_of_run_toplevel :
    ∃ q r, ∀ s' users, StackRun 1 sampleToplevel s' users → Stacked s' 1 q r users := by
  obtain ⟨bs, hbs, hlt⟩ := sampleApp_bindings
  exact stacked_of_run (sampleApp_started ⟨640, 480⟩).wellFormed hbs hlt
    (sampleApp_live ⟨640, 480⟩) eiWidgetCreate_sampleToplevel

end Sample

end GuiLibrary

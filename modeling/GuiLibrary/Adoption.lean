import GuiLibrary.Withdrawal

/-!
# Where a new widget goes

`ei_widget_create` puts a new widget at the end of the children of its parent, or before the last
child of a resizable toplevel, which is its resize button. `Place` says when which of the two
happens without following a null pointer; `Adopted` is the state afterwards. Creating a widget of
any class completes under a parent that has a place for it.

## Main definitions

* `Place`, `Adopted`.

## Main results

* `insertChild_place`: the new widget goes to its place.
* `createHiddenButton_adopted`.
-/

namespace GuiLibrary

open Cells

/-! ### The place of a new child -/

/-- The new child of a widget with the class `cls` goes between the parts `l₁` and `l₂` of its
children list. -/
inductive Place (N : Ptr → Option Node) (cls : NodeClass) : List Ptr → List Ptr → Prop
  | tail {l : List Ptr}
      (h : l ≠ [] → ∀ closable resizable, cls = .toplevel closable resizable → resizable = .none) :
      Place N cls l []
  | beforeLast {l : List Ptr} {r : Ptr} {closable : Bool} {resizable : AxisSet}
      (hcls : cls = .toplevel closable resizable) (hresizable : resizable ≠ .none)
      (hl : ∀ p ∈ l, ∀ n, N p = some n → n.isResizeButton = false)
      (hr : l ≠ [] → ∀ n, N r = some n → n.isResizeButton = true) : Place N cls l [r]

/-- Two splittings of a list without repetition are equal when their second parts start with the
same element. -/
theorem append_inj_of_head? : (l₁ k₁ : List Ptr) → {l₂ k₂ : List Ptr} → (l₁ ++ l₂).Nodup →
    l₁ ++ l₂ = k₁ ++ k₂ → l₂.head? = k₂.head? → l₁ = k₁ ∧ l₂ = k₂
  | [], [], _, _, _, h, _ => ⟨rfl, h⟩
  | [], a :: k₁, l₂, k₂, hnodup, h, hhead => by
      have hl₂ : l₂ = a :: (k₁ ++ k₂) := h
      rw [hl₂, List.head?_cons] at hhead
      rw [hl₂, List.nil_append, List.nodup_cons] at hnodup
      exact absurd (List.mem_append_right _ (List.mem_of_head? hhead.symm)) hnodup.1
  | a :: l₁, [], l₂, k₂, hnodup, h, hhead => by
      have hk₂ : a :: (l₁ ++ l₂) = k₂ := h
      rw [← hk₂, List.head?_cons] at hhead
      rw [List.cons_append, List.nodup_cons] at hnodup
      exact absurd (List.mem_append_right _ (List.mem_of_head? hhead)) hnodup.1
  | a :: l₁, b :: k₁, l₂, k₂, hnodup, h, hhead => by
      rw [List.cons_append, List.cons_append, List.cons.injEq] at h
      obtain ⟨h₁, h₂⟩ := append_inj_of_head? l₁ k₁ (List.nodup_cons.mp hnodup).2 h.2 hhead
      exact ⟨by rw [h.1, h₁], h₂⟩

section Paths

variable {s : AppState} {p parent wid : Ptr} {pn n : Node} {l l₁ l₂ : List Ptr}

theorem AppState.exists_modifyWidget (h : s.Live p) (f : Widget → Widget) :
    ∃ s', s.modifyWidget p f = some s' := by
  obtain ⟨w, hw⟩ := AppState.live_iff.mp h
  exact ⟨_, by rw [AppState.modifyWidget, hw]; rfl⟩

theorem AppState.Live.modifyWidget {s' : AppState} {q : Ptr} {f : Widget → Widget} (h : s.Live q)
    (hs' : s.modifyWidget p f = some s') : s'.Live q := by
  obtain ⟨w, hw⟩ := AppState.live_iff.mp h
  obtain ⟨u, -, rfl⟩ := Option.map_eq_some_iff.mp hs'
  refine AppState.live_iff.mpr ?_
  by_cases hq : q = p
  · subst hq
    exact ⟨_, s.widgets_setWidget_self q _⟩
  · exact ⟨w, by rw [s.widgets_setWidget_of_ne _ hq, hw]⟩

theorem exists_placeAtTail (hne : parent ≠ wid) (hp : s.nodes parent = some pn) (hw : s.Live wid)
    (htail : ∀ q, pn.childrenTail = some q → s.Live q) :
    ∃ s', placeAtTail s parent wid = some s' ∧
      (s'.nodes wid).map Node.nextSibling = some none := by
  obtain ⟨w, hpw, rfl⟩ := AppState.nodes_eq_some.mp hp
  have hp : s.Live parent := AppState.live_iff.mpr ⟨w, hpw⟩
  obtain ⟨s₁, h₁, hp₁, hw₁⟩ : ∃ s₁, (w.childrenTail.elim (some s) fun tail =>
      s.modifyWidget tail (·.setNextSibling wid)) = some s₁ ∧ s₁.Live parent ∧ s₁.Live wid := by
    cases htl : w.childrenTail with
    | none => exact ⟨s, rfl, hp, hw⟩
    | some q =>
      obtain ⟨s₁, h₁⟩ := AppState.exists_modifyWidget (htail q htl) (·.setNextSibling wid)
      exact ⟨s₁, h₁, hp.modifyWidget h₁, hw.modifyWidget h₁⟩
  obtain ⟨s₂, h₂⟩ := AppState.exists_modifyWidget hp₁ (·.setChildrenTail wid)
  obtain ⟨s₃, h₃⟩ := AppState.exists_modifyWidget (hw₁.modifyWidget h₂) (·.setNextSibling none)
  obtain ⟨s₄, h₄⟩ := AppState.exists_modifyWidget ((hp₁.modifyWidget h₂).modifyWidget h₃)
    fun p => p.setChildrenHead (p.childrenHead.orElse fun _ => some wid)
  obtain ⟨n₃, -, hs₃, -⟩ := nodes_modifyWidget (g := fun n => n.setNextSibling none)
    (fun _ => rfl) h₃
  obtain ⟨n₄, -, hs₄, -⟩ := nodes_modifyWidget
    (g := fun n => n.setChildren (n.childrenHead.orElse fun _ => some wid) n.childrenTail)
    (fun _ => rfl) h₄
  refine ⟨s₄, ?_, ?_⟩
  · simp only [placeAtTail, hpw, h₁, h₂, h₃, h₄, Option.bind_eq_bind, Option.bind_some]
  · rw [hs₄, Function.update_of_ne hne.symm, hs₃, Function.update_self]
    rfl

/-- The loop stops at the resize button `r`, which is the last child. -/
theorem findResizeButton_eq {widgets : Ptr → Option Widget} {r q : Ptr} : (l : List Ptr) →
    (fuel : ℕ) → (c : Ptr) → Chain widgets Widget.nextSibling (some c) (c :: (l ++ [r])) →
    (∀ p ∈ l, ∀ w, widgets p = some w → w.isResizeButton = false) →
    (∀ w, widgets r = some w → w.isResizeButton = true) → (c :: l).getLast? = some q →
    l.length < fuel → findResizeButton widgets fuel c (l ++ [r]).head? = some (q, r)
  | _, 0, _, _, _, _, _, hfuel => absurd hfuel (Nat.not_lt_zero _)
  | [], fuel + 1, c, hc, _, hr, hq, _ => by
      obtain ⟨-, w, -, -, u, hu, -⟩ := hc
      obtain rfl : c = q := by simpa using hq
      simp [findResizeButton, hu, hr u hu]
  | d :: l, fuel + 1, c, hc, hl, hr, hq, hfuel => by
      obtain ⟨-, w, hw, hrest⟩ := hc
      obtain ⟨hnext, u, hu, hrest'⟩ := id hrest
      have hd := hl d List.mem_cons_self u hu
      have ih := findResizeButton_eq l fuel d (hnext ▸ hrest)
        (fun p hp => hl p (List.mem_cons_of_mem d hp)) hr
        (by rwa [List.getLast?_cons_cons] at hq) (Nat.lt_of_succ_lt_succ hfuel)
      have hnext' : u.nextSibling = (l ++ [r]).head? := Chain.head_eq hrest'
      simp only [List.cons_append, List.head?_cons, findResizeButton, hu, hd, hw, hnext, hnext',
        Option.bind_eq_bind, Option.bind_some, Bool.false_eq_true, if_false, ih]

theorem exists_insertBeforeLast {head r : Ptr} (hp : s.Live parent) (hw : s.Live wid)
    (hc : Chain s.nodes Node.nextSibling (some head) (l ++ [r]))
    (hl : ∀ p ∈ l, ∀ n, s.nodes p = some n → n.isResizeButton = false)
    (hr : l ≠ [] → ∀ n, s.nodes r = some n → n.isResizeButton = true)
    (hfuel : l.length < s.nextWidget) :
    ∃ s', insertBeforeLast s parent wid head (some r) = some s' ∧
      (s'.nodes wid).map Node.nextSibling = some (some r) := by
  have hwc := AppState.chain_nodes_iff.mp hc
  have hlink : ∀ {s₁ s₂ : AppState}, s₁.modifyWidget wid (·.setNextSibling (some r)) = some s₂ →
      (s₂.nodes wid).map Node.nextSibling = some (some r) := fun h => by
    obtain ⟨m, -, hs₂, -⟩ := nodes_modifyWidget (g := fun n => n.setNextSibling (some r))
      (fun _ => rfl) h
    rw [hs₂, Function.update_self]
    rfl
  cases l with
  | nil =>
    obtain ⟨hhead, v, hv, hnext⟩ := chain_cons_iff.mp hwc
    obtain rfl := Option.some.inj hhead
    have hnext : v.nextSibling = none := hnext
    obtain ⟨s₁, h₁⟩ := AppState.exists_modifyWidget hp (·.setChildrenHead wid)
    obtain ⟨s₂, h₂⟩ := AppState.exists_modifyWidget (hw.modifyWidget h₁)
      (·.setNextSibling (some head))
    refine ⟨s₂, ?_, hlink h₂⟩
    simp only [insertBeforeLast, hv, hnext, Option.bind_eq_bind, Option.bind_some, h₁]
    exact h₂
  | cons c l =>
    obtain ⟨hhead, v, hv, hrest⟩ := chain_cons_iff.mp hwc
    obtain rfl := Option.some.inj hhead
    have hrest : Chain s.widgets Widget.nextSibling v.nextSibling (l ++ [r]) := hrest
    obtain ⟨q, hq⟩ : ∃ q, (head :: l).getLast? = some q :=
      ⟨_, List.getLast?_eq_some_getLast (List.cons_ne_nil head l)⟩
    have hfind := findResizeButton_eq (q := q) l s.nextWidget head hwc
      (fun p hp w hw => (Widget.isResizeButton_node w).symm.trans
        (hl p (List.mem_cons_of_mem head hp) _ (AppState.nodes_of_widgets hw)))
      (fun w hw => (Widget.isResizeButton_node w).symm.trans
        (hr (List.cons_ne_nil head l) _ (AppState.nodes_of_widgets hw))) hq
      (Nat.lt_of_succ_lt hfuel)
    obtain ⟨-, rv, hrv, hrnext⟩ := segment_snoc_iff.mp hwc
    have hrnext : rv.nextSibling = none := hrnext
    have hlive : s.Live q := by
      obtain ⟨m, hm⟩ := hc.live q (List.mem_append_left _ (List.mem_of_getLast? hq))
      exact ⟨m, hm⟩
    obtain ⟨s₁, h₁⟩ := AppState.exists_modifyWidget hlive (·.setNextSibling (some wid))
    obtain ⟨s₂, h₂⟩ := AppState.exists_modifyWidget (hw.modifyWidget h₁) (·.setNextSibling (some r))
    obtain ⟨u, hu⟩ : ∃ u, v.nextSibling = some u := by
      rw [Chain.head_eq hrest]
      cases l <;> exact ⟨_, rfl⟩
    rw [← Chain.head_eq hrest, hu] at hfind
    refine ⟨s₂, ?_, hlink h₂⟩
    simp only [insertBeforeLast, hv, hu, hfind, hrv, hrnext, Option.bind_eq_bind, Option.bind_some,
      and_self, if_true, h₁]
    exact h₂

/-- **The new widget goes to its place**, and the insertion completes. -/
theorem insertChild_place (hne : parent ≠ wid) (hp : s.nodes parent = some pn)
    (hw : s.nodes wid = some n) (hl : Chain s.nodes Node.nextSibling pn.childrenHead (l₁ ++ l₂))
    (htail : pn.childrenTail = (l₁ ++ l₂).getLast?) (hpl : parent ∉ l₁ ++ l₂)
    (hwl : wid ∉ l₁ ++ l₂) (hfuel : (l₁ ++ l₂).length ≤ s.nextWidget)
    (hplace : Place s.nodes pn.nodeClass l₁ l₂) :
    ∃ s', insertChild s parent wid = some s' ∧
      Spliced s.nodes s'.nodes parent l₁ (some wid) l₂ ∧ OnlyWidgets s s' := by
  obtain ⟨w, hpw, rfl⟩ := AppState.nodes_eq_some.mp hp
  have hwhead : w.childrenHead = (l₁ ++ l₂).head? := hl.head_eq
  have hwtail : w.childrenTail = (l₁ ++ l₂).getLast? := htail
  obtain ⟨s', hs', hnext⟩ : ∃ s', insertChild s parent wid = some s' ∧
      (s'.nodes wid).map Node.nextSibling = some l₂.head? := by
    cases hplace with
    | tail h =>
      obtain ⟨s', hs', hnext⟩ := exists_placeAtTail hne hp ⟨n, hw⟩ fun q hq =>
        hl.live q (List.mem_of_getLast? (htail.symm.trans hq))
      refine ⟨s', ?_, hnext⟩
      rw [insertChild, hpw, Option.bind_eq_bind, Option.bind_some]
      split
      · next a head ha hhead =>
        have hnil : l₁ ≠ [] := fun hnil => by
          rw [hwhead, hnil] at hhead
          cases hhead
        have hnone := h hnil a.closable a.resizable (by rw [Widget.node, ha]; rfl)
        simp only [hnone, ne_eq, not_true_eq_false, if_false, hs']
      · exact hs'
    | @beforeLast r closable resizable hcls hresizable hl₁ hr =>
      have hhead : ∃ head, w.childrenHead = some head := by
        rw [hwhead]
        cases l₁ <;> exact ⟨_, rfl⟩
      obtain ⟨head, hhead⟩ := hhead
      have hc : Chain s.nodes Node.nextSibling (some head) (l₁ ++ [r]) := hhead ▸ hl
      obtain ⟨s', hs', hnext⟩ := exists_insertBeforeLast ⟨_, hp⟩ ⟨n, hw⟩ hc hl₁ hr (by
        rwa [List.length_append, List.length_singleton] at hfuel)
      refine ⟨s', ?_, hnext⟩
      have hattrs : w.attrs.nodeClass = .toplevel closable resizable := hcls
      cases ha : w.attrs with
      | frame a => simp [ha, Attrs.nodeClass] at hattrs
      | button a => simp [ha, Attrs.nodeClass] at hattrs
      | toplevel a =>
        rw [ha, Attrs.nodeClass, NodeClass.toplevel.injEq] at hattrs
        have hane : a.resizable ≠ .none := hattrs.2 ▸ hresizable
        rw [List.getLast?_concat] at hwtail
        simp only [insertChild, hpw, ha, hhead, hwtail, Option.bind_eq_bind, Option.bind_some,
          if_pos hane, hs']
  obtain ⟨k₁, k₂, hk, hsp, ho⟩ := insertChild_inserted hne hp hw hl htail hpl hwl hs'
  -- The link of the new widget tells the two parts.
  have hhead : k₂.head? = l₂.head? := by
    obtain ⟨m, -, hm⟩ := hsp.node wid rfl
    rw [hm, Option.map_some, Option.some.injEq] at hnext
    exact hnext
  obtain ⟨rfl, rfl⟩ := append_inj_of_head? l₁ k₁ hl.nodup hk hhead.symm
  exact ⟨s', hs', hsp, ho⟩

end Paths

/-! ### Adopting a new widget -/

/-- The class of the new child may still change. -/
theorem Spliced.setNodeClass {N N' : Ptr → Option Node} {parent wid : Ptr} {n m : Node}
    {l₁ l₂ : List Ptr} {cls : NodeClass}
    (h : Spliced (Function.update N wid (some n)) N' parent l₁ (some wid) l₂) (hne : parent ≠ wid)
    (hl : wid ∉ l₁) (hm : N' wid = some m) :
    Spliced (Function.update N wid (some (n.setNodeClass cls)))
      (Function.update N' wid (some (m.setNodeClass cls))) parent l₁ (some wid) l₂ := by
  have hlast : ∀ q, l₁.getLast? = some q → q ≠ wid := fun q hq hqw =>
    hl (hqw ▸ List.mem_of_getLast? hq)
  refine .of_insert ⟨_, Function.update_self .., ?_⟩ ?_ (fun q hq => ?_) fun q hq hqp hql => ?_
  · obtain ⟨n', hn', hm'⟩ := h.node wid rfl
    rw [Function.update_self, Option.some.injEq] at hn'
    obtain rfl := Option.some.inj (hm.symm.trans hm')
    rw [Function.update_self, hn']
    rfl
  · obtain ⟨pn, hpn, hpn'⟩ := h.ends
    exact ⟨pn, by rwa [Function.update_of_ne hne] at hpn ⊢, by rwa [Function.update_of_ne hne]⟩
  · obtain ⟨k, hk, hk'⟩ := h.last q hq
    exact ⟨k, by rwa [Function.update_of_ne (hlast q hq)] at hk ⊢,
      by rwa [Function.update_of_ne (hlast q hq)]⟩
  · rw [Function.update_of_ne hq, Function.update_of_ne hq,
      h.frame q (fun hqw => hq (Option.some.inj hqw).symm) hqp hql, Function.update_of_ne hq]

/-- The state `s'` is `s` with a new widget of the class `cls` among the children of `parent`,
between the parts `l₁` and `l₂` of the list. -/
structure Adopted (s s' : AppState) (parent : Ptr) (cls : NodeClass) (l₁ l₂ : List Ptr) : Prop where
  grown : Grown s s'
  nextWidget : s'.nextWidget = s.nextWidget + 1
  spliced : ∃ n : Node, n.nodeClass = cls ∧ n.parent = some parent ∧ n.childrenHead = none ∧
    Spliced (Function.update s.nodes s.nextWidget (some n)) s'.nodes parent l₁ (some s.nextWidget)
      l₂

namespace Adopted

variable {s s' : AppState} {parent : Ptr} {cls : NodeClass} {l₁ l₂ : List Ptr}

/-- The new widget. -/
theorem new (h : Adopted s s' parent cls l₁ l₂) : ∃ n, s'.nodes s.nextWidget = some n ∧
    n.nodeClass = cls ∧ n.parent = some parent ∧ n.childrenHead = none := by
  obtain ⟨n, hcls, hpar, hhead, hsp⟩ := h.spliced
  obtain ⟨m, hm, hm'⟩ := hsp.node _ rfl
  obtain rfl : n = m := by rwa [Function.update_self, Option.some.injEq] at hm
  exact ⟨_, hm', hcls, hpar, hhead⟩

/-- Every old widget keeps its class. -/
theorem nodeClass_eq (h : Adopted s s' parent cls l₁ l₂) {p : Ptr} {n : Node}
    (hp : s.nodes p = some n) : ∃ n', s'.nodes p = some n' ∧ n'.nodeClass = n.nodeClass ∧
      n'.parent = n.parent := by
  obtain ⟨n', hn', hid⟩ := h.grown.kept p n hp
  exact ⟨n', hn', congrArg Prod.fst hid, congrArg (fun i => i.2.2.2.2) hid⟩

/-- The children of the parent. -/
theorem children (h : Adopted s s' parent cls l₁ l₂) (hs : WellFormed s) {pn : Node}
    (hpn : s.nodes parent = some pn)
    (hl : Chain s.nodes Node.nextSibling pn.childrenHead (l₁ ++ l₂)) :
    ∃ n', s'.nodes parent = some n' ∧ n'.nodeClass = pn.nodeClass ∧ n'.parent = pn.parent ∧
      Chain s'.nodes Node.nextSibling n'.childrenHead (l₁ ++ s.nextWidget :: l₂) := by
  obtain ⟨n, -, -, -, hsp⟩ := h.spliced
  obtain ⟨n', hn', hcls, hpar⟩ := h.nodeClass_eq hpn
  have hwl := hs.nextWidget_notMem hl
  obtain ⟨k, hseg, hrest⟩ := segment_append_iff.mp (hl.update_of_notMem hwl (some n))
  rw [Chain.head_eq hrest] at hrest
  obtain ⟨m, -, hm'⟩ := hsp.ends
  obtain rfl := Option.some.inj (hn'.symm.trans hm')
  refine ⟨_, hn', hcls, hpar, hsp.chain ?_ ?_ hseg hrest⟩
  · exact (List.perm_middle.nodup_iff).mpr (List.nodup_cons.mpr ⟨hwl, hl.nodup⟩)
  · intro hmem
    rcases List.mem_cons.mp (List.perm_middle.mem_iff.mp hmem) with heq | hmem
    · simp [heq, hs.nodes_nextWidget] at hpn
    · exact hs.notMem_children hpn hl hmem

/-- The children of another widget. -/
theorem children_of_ne (h : Adopted s s' parent cls l₁ l₂) (hs : WellFormed s) {pn : Node}
    (hpn : s.nodes parent = some pn)
    (hl : Chain s.nodes Node.nextSibling pn.childrenHead (l₁ ++ l₂)) {q : Ptr} {m : Node}
    {l : List Ptr} (hq : q ≠ parent) (hm : s.nodes q = some m)
    (hlq : Chain s.nodes Node.nextSibling m.childrenHead l) : ∃ m', s'.nodes q = some m' ∧
      m'.nodeClass = m.nodeClass ∧ m'.parent = m.parent ∧
      Chain s'.nodes Node.nextSibling m'.childrenHead l := by
  obtain ⟨n, -, -, -, hsp⟩ := h.spliced
  obtain ⟨m', hm', hcls, hpar⟩ := h.nodeClass_eq hm
  have hne : q ≠ s.nextWidget := by
    rintro rfl
    simp [hs.nodes_nextWidget] at hm
  have hwl := hs.nextWidget_notMem hlq
  have hhead := hsp.map_eq Node.childrenHead q (fun _ _ _ => rfl) fun h => absurd h hq
  rw [hm', Function.update_of_ne hne, hm, Option.map_some, Option.map_some, Option.some.injEq]
    at hhead
  refine ⟨m', hm', hcls, hpar, ?_⟩
  rw [hhead]
  refine hsp.chain_of_ne (hlq.update_of_notMem hwl (some n)) (fun x hx hxw => ?_) fun x hx hxl => ?_
  · exact hwl (Option.some.inj hxw ▸ hx)
  · have hxp := (hs.mem_children_iff hpn hl).mp
      (List.mem_append_left _ (List.mem_of_getLast? hxl))
    exact hq (((hs.mem_children_iff hm hlq).mp hx).right_unique hxp)

end Adopted

section Create

variable [Hardware] {s s' : AppState} {parent : Ptr} {pn : Node} {l₁ l₂ : List Ptr}

/-- Linking a new widget completes. -/
theorem insertChild_adopted (hs : WellFormed s) (hpn : s.nodes parent = some pn)
    (hl : Chain s.nodes Node.nextSibling pn.childrenHead (l₁ ++ l₂))
    (hplace : Place s.nodes pn.nodeClass l₁ l₂) (c : WidgetClass) (d : Option ℕ) :
    ∃ s', insertChild (s.allocWidget (newWidget s.widId c (some parent) d)) parent s.nextWidget =
        some s' ∧ Adopted s s' parent (defaultAttrs c).nodeClass l₁ l₂ := by
  let w := newWidget s.widId c (some parent) d
  have hne : parent ≠ s.nextWidget := by
    rintro rfl
    simp [hs.nodes_nextWidget] at hpn
  have hwl := hs.nextWidget_notMem hl
  have hN := s.nodes_allocWidget w
  have hlen : (l₁ ++ l₂).length ≤ s.nextWidget := hl.length_le fun p hp => by
    obtain ⟨n, hn⟩ := hl.live p hp
    exact hs.linked.rank_bound p n hn
  have hplace' : Place (s.allocWidget w).nodes pn.nodeClass l₁ l₂ := by
    have hold : ∀ p ∈ l₁ ++ l₂, ∀ n, (s.allocWidget w).nodes p = some n → s.nodes p = some n :=
      fun p hp n hn => by
        have hpw : p ≠ s.nextWidget := fun h => hwl (h ▸ hp)
        rwa [hN, Function.update_of_ne hpw] at hn
    cases hplace with
    | tail h => exact .tail h
    | @beforeLast r closable resizable hcls hresizable hl₁ hr =>
      exact .beforeLast hcls hresizable
        (fun p hp n hn => hl₁ p hp n (hold p (List.mem_append_left _ hp) n hn))
        fun hnil n hn => hr hnil n (hold r (by simp) n hn)
  obtain ⟨s', hs', hsp, -⟩ := insertChild_place (s := s.allocWidget w) (n := w.node) hne
    (by rw [hN, Function.update_of_ne hne, hpn]) (by rw [hN, Function.update_self])
    (hN ▸ hl.update_of_notMem hwl _) (hs.tail parent pn _ hpn hl) (hs.notMem_children hpn hl) hwl
    (Nat.le_succ_of_le hlen) hplace'
  obtain ⟨hg, hnext, -⟩ := insertChild_grown hs ⟨pn, hpn⟩ hs'
  exact ⟨s', hs', hg, hnext, w.node, rfl, rfl, rfl, hN ▸ hsp⟩

/-- Whenever linking a new widget completes, its parent has adopted it. -/
theorem adopted_of_insertChild {c : WidgetClass} {d : Option ℕ} (hs : WellFormed s)
    (hparent : s.Live parent)
    (h : insertChild (s.allocWidget (newWidget s.widId c (some parent) d)) parent s.nextWidget =
      some s') :
    ∃ l₁ l₂, Adopted s s' parent (defaultAttrs c).nodeClass l₁ l₂ := by
  let w := newWidget s.widId c (some parent) d
  obtain ⟨hg, hnext, -⟩ := insertChild_grown hs hparent h
  obtain ⟨pn, hpn⟩ := hparent
  obtain ⟨l, hl, htail, -⟩ := hs.exists_children hpn
  have hne : parent ≠ s.nextWidget := by
    rintro rfl
    simp [hs.nodes_nextWidget] at hpn
  have hwl := hs.nextWidget_notMem hl
  have hN := s.nodes_allocWidget w
  obtain ⟨l₁, l₂, -, hsp, -⟩ := insertChild_inserted (n := w.node) hne
    (by rw [hN, Function.update_of_ne hne, hpn]) (by rw [hN, Function.update_self])
    (hN ▸ hl.update_of_notMem hwl _) htail (hs.notMem_children hpn hl) hwl h
  exact ⟨l₁, l₂, hg, hnext, w.node, rfl, rfl, rfl, hN ▸ hsp⟩

/-- A hidden button is created, and nothing fails. -/
theorem createHiddenButton_adopted (config : ButtonArgs) (place : PlaceArgs) (callback : Callback)
    {setFlags : Widget → Widget} {cls : NodeClass} {bs : List (Ptr × Binding)}
    (hs : WellFormed s) (hbs : HasBindings s bs) (hpn : s.nodes parent = some pn)
    (hl : Chain s.nodes Node.nextSibling pn.childrenHead (l₁ ++ l₂))
    (hplace : Place s.nodes pn.nodeClass l₁ l₂) (hcallback : config.callback = none)
    (htext : config.text = none) (himg : config.img = none)
    (hflags : ∀ w : Widget, w.attrs.nodeClass = .button false false none →
      (setFlags w).node = w.node.setNodeClass cls) :
    ∃ s', createHiddenButton s parent config setFlags place callback = some s' ∧
      Adopted s s' parent cls l₁ l₂ := by
  obtain ⟨s₁, h₁, hadopted⟩ := insertChild_adopted hs hpn hl hplace .button none
  obtain ⟨hg₁, -, ⟨n, hn, hid⟩, -, ⟨w, hw, hbody⟩, hb₁⟩ := insertChild_grown hs ⟨pn, hpn⟩ h₁
  obtain rfl := Option.some.inj (hn.symm.trans (AppState.nodes_of_widgets hw))
  have hattrs : w.attrs = .button setdefaultsbutton := Widget.attrs_of_body hbody
  have hg : w.geomParams = none := Widget.geomParams_of_body hbody
  have hpar : w.parent = some parent := Widget.parent_of_body hbody
  have hplain : w.attrs.nodeClass = .button false false none := by rw [hattrs]; rfl
  -- Configuring writes the new button only.
  obtain ⟨s₂, h₂⟩ : ∃ s₂, eiButtonConfigure s₁ s.nextWidget config = some s₂ := by
    simp only [eiButtonConfigure, hw, hattrs, configureButtonLabel, configureLabel,
      configureTextImg, htext, himg, Option.join_none, Option.bind_eq_bind, Option.bind_some,
      refresh, AppState.widgets_setWidget_self, Widget.reconfigure, hg, Option.isSome_none,
      Bool.false_eq_true, and_false, if_false]
    exact ⟨_, rfl⟩
  have hskel₂ := skeleton_eiButtonConfigure hw hplain hcallback h₂
  have hnodes₂ := AppState.nodes_eq_of_skeleton hskel₂
  obtain ⟨w₂, hw₂, hnode₂⟩ := AppState.nodes_eq_some.mp (hnodes₂ ▸ hn)
  let s₃ := s₂.setWidget s.nextWidget (setFlags w₂)
  have h₃ : s₂.modifyWidget s.nextWidget setFlags = some s₃ := by
    rw [AppState.modifyWidget, hw₂]
    rfl
  have hset : (setFlags w₂).node = w.node.setNodeClass cls := by
    rw [hflags w₂ ((congrArg Node.nodeClass hnode₂).trans hplain), hnode₂]
  have hs₃ : WellFormed s₃ :=
    (hg₁.wellFormed.congr hskel₂).setWidget hw₂ (by rw [hset, hnode₂]; rfl)
  obtain ⟨s₄, h₄⟩ := exists_eiPlace (w := setFlags w₂) hs₃ (s₂.widgets_setWidget_self _ _)
    ((congrArg Node.parent hset).trans hpar) place
  have hskel₄ := skeleton_eiPlace h₄
  have hb₃ : HasBindings s₃ bs := ((hb₁ bs hbs).congr hskel₂).of_binds rfl rfl rfl
  have hb₄ : HasBindings s₄ bs := hb₃.congr hskel₄
  obtain ⟨s', hs', -, honly⟩ := hb₄.appendBind
    ⟨.mouseButtondown, some s.nextWidget, none, callback, none, true⟩
  have hcreate : createHiddenButton s parent config setFlags place callback = some s' := by
    simp only [createHiddenButton, eiWidgetCreateWith, Option.elim_some, Option.bind_eq_bind,
      h₁, Option.bind_some, h₂, h₃, h₄]
    exact hs'
  obtain ⟨hg', hnext', -⟩ := createHiddenButton_grown hs ⟨pn, hpn⟩ hcallback hflags hcreate
  refine ⟨s', hcreate, hg', hnext', ?_⟩
  -- The flags are set after the linking.
  obtain ⟨n₀, -, hpar₀, hhead₀, hsp⟩ := hadopted.spliced
  have hnodes' : s'.nodes = Function.update s₁.nodes s.nextWidget
      (some (w.node.setNodeClass cls)) := by
    have hn' : s'.nodes = s₄.nodes := by
      rw [honly]
      rfl
    rw [hn', AppState.nodes_eq_of_skeleton hskel₄, AppState.nodes_setWidget, hnodes₂, hset]
  have hne : parent ≠ s.nextWidget := by
    rintro rfl
    simp [hs.nodes_nextWidget] at hpn
  rw [hnodes']
  exact ⟨n₀.setNodeClass cls, rfl, hpar₀, hhead₀, hsp.setNodeClass hne
    (fun h => hs.nextWidget_notMem hl (List.mem_append_left _ h)) hn⟩

end Create

end GuiLibrary

import GuiLibrary.Relayout
import GuiLibrary.Removal

/-!
# Withdrawing the buttons of a toplevel

`ei_toplevel_configure` unlinks the button that a toplevel must lose by itself, and then calls
`ei_widget_destroy`, which looks for the button among its siblings once more. A button that was the
only child is not found, and both ends of the empty list are reset; the last child is still linked
from the one before it, so it is found, and unlinked there. A child that is followed by another one
is not found and the search ends at a null pointer. A toplevel without children has no first child
to look at.

## Main results

* `withdrawButton_only`, `withdrawButton_last`: the withdrawals that destroy the button.
* `withdrawButton_absent`: no button is found, and nothing happens.
* `withdrawButton_empty`, `withdrawButton_first`, `withdrawButton_middle`: the withdrawals that
  follow a null pointer.
* `withdrawButton_of_eq_some`: what a withdrawal that completes has done.
* `toplevelAssign_of_steps`: what the steps of `ei_toplevel_configure` keep.
-/

namespace GuiLibrary

open Cells

/-! ### The flags of the buttons, on the nodes -/

namespace Node

/-- The node of a quit button. -/
def isQuitButton (n : Node) : Bool :=
  match n.nodeClass with
  | .button isQuitButton _ _ => isQuitButton
  | .frame | .toplevel _ _ => false

/-- The node of a resize button. -/
def isResizeButton (n : Node) : Bool :=
  match n.nodeClass with
  | .button _ isResizeButton _ => isResizeButton
  | .frame | .toplevel _ _ => false

end Node

theorem Widget.isQuitButton_node (w : Widget) : w.node.isQuitButton = w.isQuitButton := by
  cases h : w.attrs <;>
    simp [Widget.node, Node.isQuitButton, Widget.isQuitButton, Attrs.nodeClass, h]

theorem Widget.isResizeButton_node (w : Widget) : w.node.isResizeButton = w.isResizeButton := by
  cases h : w.attrs <;>
    simp [Widget.node, Node.isResizeButton, Widget.isResizeButton, Attrs.nodeClass, h]

/-! ### Destroying a child of a list whose ends have been written -/

section Unlinked

variable {s : AppState} {t q : Ptr} {v w : Widget} {f : Forest Ptr} {bs : List (Ptr × Binding)}

/-- Writing a widget outside of a subtree leaves the forest of the subtree in order. -/
theorem WellFormed.erasable_of_outside (v' : Widget) (hs : WellFormed s) (ht : s.widgets t = some v)
    (hq : s.widgets q = some w) (hout : ¬ s.InSubtree t q)
    (hf : Represents nodeLinks s.nodes q w.childrenHead f)
    (hloc : v'.screenLocation = v.screenLocation) : Erasable (s.setWidget t v') q w f := by
  have h := hs.erasable hq hf
  have hne : q ≠ t := fun h => hout (Or.inl h.symm)
  refine ⟨(s.widgets_setWidget_of_ne _ hne).trans hq, hf.congr fun x hx => ?_, h.nodup,
    h.length_le, ?_, h.rootWidget_notMem⟩
  · rw [AppState.nodes_setWidget, Function.update_of_ne]
    rintro rfl
    exact hout (Or.inr (hf.below x hx))
  · obtain ⟨window, hwin⟩ := h.window
    refine ⟨window, hwin.setWidget fun hr => ?_⟩
    obtain ⟨r, u, hr', hu, rfl⟩ := hwin
    obtain rfl : t = r := Option.some.inj (hr.symm.trans hr')
    rw [hloc, Option.some.inj (ht.symm.trans hu)]

/-- Writing the ends of the children list of the parent leaves the forest of a child in order. -/
theorem WellFormed.erasable_child (v' : Widget) (hs : WellFormed s) (ht : s.widgets t = some v)
    (hq : s.widgets q = some w) (hqt : w.parent = some t)
    (hf : Represents nodeLinks s.nodes q w.childrenHead f)
    (hloc : v'.screenLocation = v.screenLocation) : Erasable (s.setWidget t v') q w f := by
  have hchild : nodeLinks.ChildOf s.nodes q t := ⟨w.node, AppState.nodes_of_widgets hq, hqt⟩
  exact hs.erasable_of_outside v' ht hq (hs.not_inSubtree_parent hchild) hf hloc

/-- **Destroying a child** whose parent has had the ends of its list written, when the unlinking
still cuts the child out of the list. -/
theorem eiWidgetDestroy_unlinked (v' : Widget) (l₁ l₂ : List Ptr) (hs : WellFormed s)
    (hl : HasBindings s bs) (ht : s.widgets t = some v) (hq : s.widgets q = some w)
    (hqt : w.parent = some t)
    (hf : Represents nodeLinks s.nodes q w.childrenHead f)
    (hc : Chain s.nodes Node.nextSibling v.childrenHead (l₁ ++ q :: l₂))
    (hloc : v'.screenLocation = v.screenLocation) (hdestr : v'.destructor = v.destructor)
    (hadj : NoAdjacentBindings q bs)
    (hunlink : ∀ s₄ : AppState,
      (∀ x, s₄.nodes x = if x ∈ f.nodes then none else (s.setWidget t v').nodes x) →
      s₄.nextWidget = s.nextWidget → ∃ s₅, unlinkChild s₄ t q = some s₅ ∧ OnlyWidgets s₄ s₅ ∧
        Spliced (fun x => if x ∈ f.nodes then none else s.nodes x) s₅.nodes t l₁ none l₂) :
    ∃ s', eiWidgetDestroy (s.setWidget t v') q = some s' ∧ Destroyed s s' q ∧
      HasBindings s' (bs.filter fun e => e.2.widget ≠ some q) := by
  have hl' : HasBindings (s.setWidget t v') bs := hl.of_binds rfl rfl rfl
  have hd : (s.setWidget t v').destructors = s.destructors := by
    funext x
    rw [AppState.destructors, AppState.destructors, AppState.nodes_setWidget]
    by_cases hx : x = t
    · subst hx
      rw [Function.update_self, AppState.nodes_of_widgets ht]
      exact hdestr
    · rw [Function.update_of_ne hx]
  have hqf : q ∉ f.nodes := fun h => hs.linked.not_below_self q (hf.below q h)
  obtain ⟨s', hs', hdestroyed, -, hl''⟩ :=
    (hs.erasable_child v' ht hq hqt hf hloc).eiWidgetDestroy_of_unlink s hl' hadj rfl rfl hd
      fun s₄ hn₄ hnext₄ hwin₄ => by
        obtain ⟨s₅, h₅, ho₅, hsp⟩ := hunlink s₄ hn₄ hnext₄
        have hsome : ∀ x, (s₅.nodes x).isSome = (s₄.nodes x).isSome := fun x => by
          rw [hsp.isSome_eq, hn₄]
          split_ifs
          · rfl
          · by_cases hx : x = t
            · subst hx
              rw [AppState.nodes_setWidget, Function.update_self, AppState.nodes_of_widgets ht]
              rfl
            · rw [AppState.nodes_setWidget, Function.update_of_ne hx]
        have hlive : ∀ x, s₄.Live x → s₅.Live x := fun x hx => by
          rw [AppState.Live, ← Option.isSome_iff_exists] at hx ⊢
          rw [hsome, hx]
        have hcut := CutOut.of_forest hs ⟨_, AppState.nodes_of_widgets hq, hqt⟩
          (AppState.nodes_of_widgets ht) hf (AppState.nodes_of_widgets hq) hc (fun _ => rfl) hsp
        refine ⟨s₅, by rw [hqt]; exact h₅, ho₅, ?_, ?_, hcut.pruned⟩
        · obtain ⟨window, r, u, hr, hu, -⟩ := hwin₄
          obtain ⟨u₅, hu₅⟩ := AppState.live_iff.mp (hlive r (AppState.live_iff.mpr ⟨u, hu⟩))
          exact ⟨_, r, u₅, by rw [ho₅]; exact hr, hu₅, rfl⟩
        · refine hlive q ?_
          rw [AppState.Live, hn₄, if_neg hqf, AppState.nodes_setWidget, Function.update_of_ne]
          · exact ⟨_, AppState.nodes_of_widgets hq⟩
          · rintro rfl
            exact hs.linked.not_below_self q (.single ⟨_, AppState.nodes_of_widgets hq, hqt⟩)
  exact ⟨s', hs', hdestroyed, hl''⟩

/-- **Destroying a child that the list of its parent has lost**: the second search goes to the end
of the list, and a null pointer is followed. -/
theorem eiWidgetDestroy_lost {l : List Ptr} (h : Erasable s q w f) (hqt : w.parent = some t)
    (hl : HasBindings s bs) (ht : s.widgets t = some v) (htf : t ∉ f.nodes)
    (hc : Chain s.nodes Node.nextSibling v.childrenHead l) (hql : q ∉ l)
    (hlf : ∀ y ∈ l, y ∉ f.nodes) (hlen : l.length < s.nextWidget) (hne : l ≠ [])
    (htail : v.childrenTail ≠ none) : eiWidgetDestroy s q = none := by
  by_cases hadj : NoAdjacentBindings q bs
  · obtain ⟨s₄, hdestroy, hn₄, ho₄, -⟩ := h.eiWidgetDestroy_eq hl hadj
    obtain ⟨u, hu, hnode⟩ : ∃ u, s₄.widgets t = some u ∧ u.node = v.node := by
      refine AppState.nodes_eq_some.mp ?_
      rw [hn₄, if_neg htf, AppState.nodes_of_widgets ht]
    have hhead₄ : u.childrenHead = v.childrenHead := congrArg Node.childrenHead hnode
    have htail₄ : u.childrenTail = v.childrenTail := congrArg Node.childrenTail hnode
    have hc₄ : Segment s₄.widgets Widget.nextSibling v.childrenHead l none :=
      AppState.chain_nodes_iff.mp (hc.congr fun y hy => by rw [hn₄, if_neg (hlf y hy)])
    obtain ⟨x, hx⟩ : ∃ x, l.getLast? = some x := ⟨_, List.getLast?_eq_some_getLast hne⟩
    have hfind : findChild s₄.widgets q s₄.nextWidget none u.childrenHead =
        some (some x, none) := by
      rw [hhead₄, findChild_eq (by simp) l s₄.nextWidget none _ hc₄ hql (by rw [ho₄]; exact hlen),
        hx, Option.or_none]
    obtain ⟨y, hy⟩ := Option.ne_none_iff_exists'.mp htail
    rw [hdestroy, hqt, Option.elim_some]
    simp [unlinkChild, hu, hfind, htail₄, hy]
  · exact eiWidgetDestroy_eq_none hl hadj

end Unlinked

/-! ### The withdrawal -/

section Withdraw

variable {s : AppState} {t : Ptr} {v : Widget} {bs : List (Ptr × Binding)}
  {isButton : Widget → Bool} {flag : Node → Bool}

/-- The loop stops at the last child before a button, or at the last child. -/
theorem findBefore_eq {widgets : Ptr → Option Widget} : (l : List Ptr) → (fuel : ℕ) → (c : Ptr) →
    {e : Option Ptr} → Segment widgets Widget.nextSibling (some c) (c :: l) e →
    (∀ p ∈ l, ∀ w, widgets p = some w → isButton w = false) →
    (∀ p, e = some p → ∃ w, widgets p = some w ∧ isButton w = true) → l.length < fuel →
    findBefore widgets isButton fuel c = (c :: l).getLast?
  | _, 0, _, _, _, _, _, hfuel => absurd hfuel (Nat.not_lt_zero _)
  | [], fuel + 1, c, e, hc, _, he, _ => by
      obtain ⟨-, w, hw, hnext⟩ := hc
      have hnext : w.nextSibling = e := hnext
      cases e with
      | none => simp [findBefore, hw, hnext]
      | some p =>
        obtain ⟨u, hu, hbutton⟩ := he p rfl
        simp [findBefore, hw, hnext, hu, hbutton]
  | d :: l, fuel + 1, c, e, hc, hl, he, hfuel => by
      obtain ⟨-, w, hw, hrest⟩ := hc
      have hnext : w.nextSibling = some d := hrest.1
      obtain ⟨u, hu, -⟩ := hrest.2
      have hd := hl d List.mem_cons_self u hu
      have ih := findBefore_eq l fuel d (hnext ▸ hrest)
        (fun p hp => hl p (List.mem_cons_of_mem d hp)) he (Nat.lt_of_succ_lt_succ hfuel)
      simp [findBefore, hw, hnext, hu, hd, ih, List.getLast?_cons_cons]

/-- Without children there is no first child to look at. -/
theorem withdrawButton_empty (ht : s.widgets t = some v) (hhead : v.childrenHead = none) :
    withdrawButton isButton s t = none := by
  simp [withdrawButton, ht, hhead]

/-- Two neighbouring bindings of the button make its destruction write into a freed record. -/
theorem withdrawButton_adjacent (hl : HasBindings s bs) {q : Ptr} {v' : Widget}
    (heq : withdrawButton isButton s t = eiWidgetDestroy (s.setWidget t v') q)
    (hadj : ¬ NoAdjacentBindings q bs) : withdrawButton isButton s t = none := by
  rw [heq]
  exact eiWidgetDestroy_eq_none (hl.of_binds rfl rfl rfl) hadj

section

variable (hflag : ∀ w, isButton w = flag w.node)
include hflag

theorem isButton_of_node {p : Ptr} {w : Widget} {b : Bool}
    (hp : ∀ n, s.nodes p = some n → flag n = b) (hw : s.widgets p = some w) : isButton w = b :=
  (hflag w).trans (hp _ (AppState.nodes_of_widgets hw))

/-- **Nothing to withdraw.** -/
theorem withdrawButton_absent (hs : WellFormed s) (ht : s.widgets t = some v) {l : List Ptr}
    (hc : Chain s.nodes Node.nextSibling v.childrenHead l) (hne : l ≠ [])
    (hl : ∀ p ∈ l, ∀ n, s.nodes p = some n → flag n = false) :
    withdrawButton isButton s t = some s := by
  obtain ⟨c, l, rfl⟩ := List.exists_cons_of_ne_nil hne
  have hwc := AppState.chain_nodes_iff.mp hc
  obtain ⟨hhead, w, hw, hrest⟩ := chain_cons_iff.mp hwc
  have hfind : findBefore s.widgets isButton s.nextWidget c = (c :: l).getLast? := by
    have hlen := hc.length_le fun p hp => hs.lt_nextWidget (hc.live p hp)
    refine findBefore_eq l _ c (hhead ▸ hwc) (fun p hp u hu => ?_) (by simp) hlen
    exact isButton_of_node hflag (hl p (List.mem_cons_of_mem c hp)) hu
  obtain ⟨x, hx⟩ : ∃ x, (c :: l).getLast? = some x :=
    ⟨_, List.getLast?_eq_some_getLast (List.cons_ne_nil c l)⟩
  obtain ⟨u, hu, hnext⟩ : ∃ u, s.widgets x = some u ∧ u.nextSibling = none := by
    obtain ⟨l₀, hl₀⟩ : ∃ l₀, c :: l = l₀ ++ [x] := by
      rw [List.getLast?_eq_some_iff] at hx
      exact hx
    rw [hl₀] at hwc
    obtain ⟨-, u, hu, hnext⟩ := segment_snoc_iff.mp hwc
    exact ⟨u, hu, hnext⟩
  have hcw : isButton w = false := isButton_of_node hflag (hl c List.mem_cons_self) hw
  simp [withdrawButton, ht, hhead, hw, hcw, hfind, hx, hu, hnext]

/-- The withdrawal of a button that is the only child: the list of the toplevel is emptied first. -/
theorem withdrawButton_only_eq (hs : WellFormed s) (ht : s.widgets t = some v) {q : Ptr}
    (hc : Chain s.nodes Node.nextSibling v.childrenHead [q])
    (hq : ∀ n, s.nodes q = some n → flag n = true) : withdrawButton isButton s t =
      eiWidgetDestroy (s.setWidget t ((v.setChildrenHead none).setChildrenTail none)) q := by
  obtain ⟨hhead, w, hw, hnext⟩ := chain_cons_iff.mp (AppState.chain_nodes_iff.mp hc)
  have hnext : w.nextSibling = none := hnext
  have htail : v.childrenTail = some q := hs.tail t v.node [q] (AppState.nodes_of_widgets ht) hc
  have hbutton : isButton w = true := isButton_of_node hflag hq hw
  have hset : (s.modifyWidget t fun t =>
      let t := t.setChildrenHead w.nextSibling
      if t.childrenTail = some q then t.setChildrenTail none else t) =
        some (s.setWidget t ((v.setChildrenHead none).setChildrenTail none)) := by
    have hv : (v.setChildrenHead none).childrenTail = some q := htail
    rw [AppState.modifyWidget, ht, Option.map_some, hnext]
    simp only [hv, if_true]
  simp only [withdrawButton, ht, hhead, hw, hbutton, Option.bind_eq_bind, Option.bind_some, if_true]
  rw [hset, Option.bind_some]

/-- **A button that is the only child is destroyed.** The second search finds an empty list. -/
theorem withdrawButton_only (hs : WellFormed s) (hl : HasBindings s bs)
    (ht : s.widgets t = some v) {q : Ptr} (hc : Chain s.nodes Node.nextSibling v.childrenHead [q])
    (hq : ∀ n, s.nodes q = some n → flag n = true) (hadj : NoAdjacentBindings q bs) :
    ∃ s', withdrawButton isButton s t = some s' ∧ Destroyed s s' q ∧
      HasBindings s' (bs.filter fun e => e.2.widget ≠ some q) := by
  have hqt : nodeLinks.ChildOf s.nodes q t := by
    exact (hs.mem_children_iff (AppState.nodes_of_widgets ht) hc).mp (List.mem_singleton_self q)
  obtain ⟨n, hn, hpar⟩ := hqt
  obtain ⟨w, hw, rfl⟩ := AppState.nodes_eq_some.mp hn
  obtain ⟨f, hf⟩ := hs.exists_forest hw
  have htf : t ∉ f.nodes := fun htf =>
    hs.linked.not_below_self q (.head ⟨_, hn, hpar⟩ (hf.below t htf))
  rw [withdrawButton_only_eq hflag hs ht hc hq]
  let v' := (v.setChildrenHead none).setChildrenTail none
  exact eiWidgetDestroy_unlinked v' [] [] hs hl ht hw hpar hf hc rfl rfl hadj fun s₄ hn₄ _ => by
    obtain ⟨u, hu, hnode⟩ : ∃ u, s₄.widgets t = some u ∧ u.node = v'.node := by
      refine AppState.nodes_eq_some.mp ?_
      rw [hn₄, if_neg htf, AppState.nodes_setWidget, Function.update_self]
    have hhead₄ : u.childrenHead = none := congrArg Node.childrenHead hnode
    have htail₄ : u.childrenTail = none := congrArg Node.childrenTail hnode
    have hfind : findChild s₄.widgets q s₄.nextWidget none none = some (none, none) := by
      cases s₄.nextWidget <;> rfl
    let s₅ := s₄.setWidget t ((u.setChildrenTail none).setChildrenHead none)
    refine ⟨s₅, ?_, rfl, by simp, ⟨v.node, ?_, ?_⟩, by simp, fun x _ hx _ => ?_⟩
    · simp [unlinkChild, hu, hhead₄, htail₄, hfind, AppState.modifyWidget, s₅]
    · rw [if_neg htf, AppState.nodes_of_widgets ht]
    · have hset : ((u.setChildrenTail none).setChildrenHead none).node =
          u.node.setChildren none none := rfl
      rw [AppState.nodes_setWidget, Function.update_self, hset, hnode]
      rfl
    · rw [AppState.nodes_setWidget, Function.update_of_ne hx, hn₄, AppState.nodes_setWidget,
        Function.update_of_ne hx]

/-- The withdrawal of a button that is the last of several children: the tail of the list is
written first. -/
theorem withdrawButton_last_eq (hs : WellFormed s) (ht : s.widgets t = some v) {l : List Ptr}
    {c r : Ptr} (hc : Chain s.nodes Node.nextSibling v.childrenHead (l ++ [c] ++ [r]))
    (hother : ∀ p ∈ l ++ [c], ∀ n, s.nodes p = some n → flag n = false)
    (hr : ∀ n, s.nodes r = some n → flag n = true) : withdrawButton isButton s t =
      eiWidgetDestroy (s.setWidget t (v.setChildrenTail (some c))) r := by
  have hwc := AppState.chain_nodes_iff.mp hc
  obtain ⟨hseg, rv, hrv, hnext⟩ := segment_snoc_iff.mp hwc
  have hnext : rv.nextSibling = none := hnext
  obtain ⟨-, cv, hcv, hcnext⟩ := segment_snoc_iff.mp hseg
  have hcnext : cv.nextSibling = some r := hcnext
  obtain ⟨h₀, l₀, hl₀⟩ := List.exists_cons_of_ne_nil (List.concat_ne_nil c l)
  have hhead : v.childrenHead = some h₀ := by
    rw [hwc.head_eq, hl₀]
    rfl
  obtain ⟨w₀, hw₀⟩ : ∃ w, s.widgets h₀ = some w := hwc.live h₀ (by rw [hl₀]; simp)
  have hother₀ : isButton w₀ = false :=
    isButton_of_node hflag (hother h₀ (by rw [hl₀]; simp)) hw₀
  have hfind : findBefore s.widgets isButton s.nextWidget h₀ = some c := by
    rw [← List.getLast?_concat (l := l) (a := c), hl₀]
    refine findBefore_eq l₀ _ h₀ (e := some r) ?_ (fun p hp u hu => ?_) (fun p hp => ?_) ?_
    · rw [← hl₀, ← hhead]
      exact hseg
    · exact isButton_of_node hflag (hother p (by rw [hl₀]; simp [hp])) hu
    · obtain rfl := Option.some.inj hp
      exact ⟨rv, hrv, isButton_of_node hflag hr hrv⟩
    · have hlen := hc.length_le fun x hx => hs.lt_nextWidget (hc.live x hx)
      rw [hl₀] at hlen
      simp at hlen
      omega
  simp only [withdrawButton, ht, hhead, hw₀, hother₀, Bool.false_eq_true, if_false, hfind, hcv,
    hcnext, hrv, hnext, AppState.modifyWidget, Option.map_some, Option.bind_eq_bind,
    Option.bind_some]

/-- **A button that is the last of several children is destroyed.** It is still linked from the
child before it, and the second search finds it. -/
theorem withdrawButton_last (hs : WellFormed s) (hl : HasBindings s bs)
    (ht : s.widgets t = some v) {l : List Ptr} {c r : Ptr}
    (hc : Chain s.nodes Node.nextSibling v.childrenHead (l ++ [c] ++ [r]))
    (hother : ∀ p ∈ l ++ [c], ∀ n, s.nodes p = some n → flag n = false)
    (hr : ∀ n, s.nodes r = some n → flag n = true) (hadj : NoAdjacentBindings r bs) :
    ∃ s', withdrawButton isButton s t = some s' ∧ Destroyed s s' r ∧
      HasBindings s' (bs.filter fun e => e.2.widget ≠ some r) := by
  have hnt := AppState.nodes_of_widgets ht
  have hchild : ∀ x ∈ l ++ [c] ++ [r], nodeLinks.ChildOf s.nodes x t := fun x =>
    (hs.mem_children_iff hnt hc).mp
  have hnodup := hc.nodup
  have hcr : c ≠ r := fun h => (List.nodup_append.mp hnodup).2.2 c (by simp) r (by simp) h
  obtain ⟨n, hn, hpar⟩ := hchild r (by simp)
  obtain ⟨rv, hrv, rfl⟩ := AppState.nodes_eq_some.mp hn
  have hwc := AppState.chain_nodes_iff.mp hc
  obtain ⟨f, hf⟩ := hs.exists_forest hrv
  have hsibling : ∀ x ∈ l ++ [c] ++ [r], x ∉ f.nodes := fun x hx hxf =>
    hs.linked.not_below_sibling (hchild x hx) (hchild r (by simp)) (hf.below x hxf)
  have htx : ∀ x ∈ l ++ [c] ++ [r], x ≠ t := by
    rintro x hx rfl
    exact hs.linked.not_below_self x (.single (hchild x hx))
  have htf : t ∉ f.nodes := fun htf =>
    hs.linked.not_below_self r (.head (hchild r (by simp)) (hf.below t htf))
  have hlt : ∀ x ∈ l ++ [c] ++ [r], x < s.nextWidget := fun x hx =>
    hs.lt_nextWidget (hc.live x hx)
  let v' := v.setChildrenTail (some c)
  have hassoc : l ++ [c] ++ [r] = (l ++ [c]) ++ r :: [] := rfl
  rw [withdrawButton_last_eq hflag hs ht hc hother hr]
  exact eiWidgetDestroy_unlinked v' (l ++ [c]) [] hs hl ht hrv hpar hf
    (hassoc ▸ hc) rfl rfl hadj fun s₄ hn₄ hnext₄ => by
      have hkept : ∀ x ∈ l ++ [c] ++ [r], s₄.nodes x = s.nodes x := fun x hx => by
        rw [hn₄, if_neg (hsibling x hx), AppState.nodes_setWidget, Function.update_of_ne (htx x hx)]
      obtain ⟨u, hu, hnode⟩ : ∃ u, s₄.widgets t = some u ∧ u.node = v'.node := by
        refine AppState.nodes_eq_some.mp ?_
        rw [hn₄, if_neg htf, AppState.nodes_setWidget, Function.update_self]
      have hhead₄ : u.childrenHead = v.childrenHead := congrArg Node.childrenHead hnode
      have htail₄ : u.childrenTail = some c := congrArg Node.childrenTail hnode
      have hc₄ : Chain s₄.widgets Widget.nextSibling u.childrenHead (l ++ [c] ++ [r]) := by
        rw [hhead₄]
        exact AppState.chain_nodes_iff.mp (hc.congr fun x hx => by rw [hkept x hx])
      obtain ⟨hseg₄, ru, hru, hrnext⟩ := segment_snoc_iff.mp hc₄
      have hrnext : ru.nextSibling = none := hrnext
      obtain ⟨-, cu, hcu, -⟩ := segment_snoc_iff.mp hseg₄
      have hfind : findChild s₄.widgets r s₄.nextWidget none u.childrenHead =
          some (some c, some r) := by
        have hlen := hc.length_le hlt
        rw [List.length_append, List.length_singleton] at hlen
        rw [findChild_eq (by simp) (l ++ [c]) s₄.nextWidget none _ hseg₄
          (fun hmem => (List.nodup_append.mp hnodup).2.2 r hmem r (by simp) rfl)
          (by rw [hnext₄]; omega), Option.or_none, List.getLast?_concat]
      let s₅ := s₄.setWidget c (cu.setNextSibling none)
      have hn₅ : s₅.nodes = Function.update s₄.nodes c (some (cu.node.setNextSibling none)) :=
        s₄.nodes_setWidget c _
      have hct := htx c (by simp)
      refine ⟨s₅, ?_, rfl, by simp, ⟨v.node, ?_, ?_⟩, ?_, fun x _ hxt hxc => ?_⟩
      · simp [unlinkChild, hu, htail₄, hfind, hru, hrnext, hcr.symm, AppState.modifyWidget, hcu, s₅]
      · rw [if_neg htf, hnt]
      · rw [hn₅, Function.update_of_ne hct.symm, hn₄, if_neg htf, AppState.nodes_setWidget,
          Function.update_self]
        have hhead : v.childrenHead = (l ++ [c]).head? := by
          rw [hwc.head_eq]
          cases l <;> rfl
        simp [v', Node.setChildren, Widget.node, Widget.setChildrenTail, hhead]
      · intro x hx
        rw [List.getLast?_concat, Option.some.injEq] at hx
        subst hx
        refine ⟨cu.node, ?_, by rw [hn₅, Function.update_self]; rfl⟩
        rw [if_neg (hsibling c (by simp)), ← hkept c (by simp), AppState.nodes_of_widgets hcu]
      · have hxc : x ≠ c := fun h => hxc (by rw [h, List.getLast?_concat])
        rw [hn₅, Function.update_of_ne hxc, hn₄, AppState.nodes_setWidget,
          Function.update_of_ne hxt]

/-- **A button that is the first of several children** is unlinked, and the second search goes to
the end of the list and follows a null pointer. -/
theorem withdrawButton_first (hs : WellFormed s) (hl : HasBindings s bs)
    (ht : s.widgets t = some v) {l : List Ptr} {q d : Ptr}
    (hc : Chain s.nodes Node.nextSibling v.childrenHead (q :: d :: l))
    (hq : ∀ n, s.nodes q = some n → flag n = true) : withdrawButton isButton s t = none := by
  have hnt := AppState.nodes_of_widgets ht
  have hchild : ∀ x ∈ q :: d :: l, nodeLinks.ChildOf s.nodes x t := fun x =>
    (hs.mem_children_iff hnt hc).mp
  obtain ⟨n, hn, hpar⟩ := hchild q List.mem_cons_self
  obtain ⟨w, hw, rfl⟩ := AppState.nodes_eq_some.mp hn
  have hwc := AppState.chain_nodes_iff.mp hc
  obtain ⟨hhead, w', hw', hrest⟩ := chain_cons_iff.mp hwc
  obtain rfl := Option.some.inj (hw.symm.trans hw')
  have hnext : w.nextSibling = some d := hrest.1
  have hnodup := hc.nodup
  have hqd : q ∉ d :: l := (List.nodup_cons.mp hnodup).1
  obtain ⟨x, hx⟩ : ∃ x, (d :: l).getLast? = some x :=
    ⟨_, List.getLast?_eq_some_getLast (List.cons_ne_nil d l)⟩
  have htail : v.childrenTail = some x := by
    rw [← hx, ← List.getLast?_cons_cons (a := q)]
    exact hs.tail t v.node _ hnt hc
  have hxq : x ≠ q := by
    rintro rfl
    exact hqd (List.mem_of_getLast? hx)
  let v' := v.setChildrenHead (some d)
  have hbutton : isButton w = true := isButton_of_node hflag hq hw
  have hset : (s.modifyWidget t fun t =>
      let t := t.setChildrenHead w.nextSibling
      if t.childrenTail = some q then t.setChildrenTail none else t) = some (s.setWidget t v') := by
    have hv : (v.setChildrenHead (some d)).childrenTail = some x := htail
    rw [AppState.modifyWidget, ht, Option.map_some, hnext]
    simp only [hv, Option.some.injEq, hxq, if_false, v']
  have hqt : nodeLinks.ChildOf s.nodes q t := ⟨_, hn, hpar⟩
  have hout : ∀ y ∈ d :: l, ¬ s.InSubtree y q := fun y hy =>
    hs.not_inSubtree_sibling (hchild y (List.mem_cons_of_mem q hy)) hqt fun h => hqd (h ▸ hy)
  have htq : ¬ s.InSubtree t q := hs.not_inSubtree_parent hqt
  have hdestroy : eiWidgetDestroy (s.setWidget t v') q = none := by
    obtain ⟨f, hf⟩ := hs.exists_forest hw
    refine eiWidgetDestroy_lost (hs.erasable_of_outside v' ht hw htq hf rfl) hpar
      (hl.of_binds rfl rfl rfl) (s.widgets_setWidget_self t v')
      (fun htf => htq (Or.inr (hf.below t htf))) (l := d :: l) ?_ hqd
      (fun y hy hyf => hout y hy (Or.inr (hf.below y hyf))) ?_ (List.cons_ne_nil d l)
      (by rw [show v'.childrenTail = some x from htail]; simp)
    · have hcn : Chain s.nodes Node.nextSibling (some d) (d :: l) :=
        AppState.chain_nodes_iff.mpr (hnext ▸ hrest)
      refine hcn.congr fun y hy => ?_
      rw [AppState.nodes_setWidget, Function.update_of_ne]
      exact (hs.parent_ne (hchild y (List.mem_cons_of_mem q hy))).symm
    · have hlen := hc.length_le fun y hy => hs.lt_nextWidget (hc.live y hy)
      exact hlen
  simp only [withdrawButton, ht, hhead, hw, hbutton, Option.bind_eq_bind, Option.bind_some, if_true]
  rw [hset]
  exact hdestroy

/-- **A button between two children** is unlinked, and is then lost in the same way. -/
theorem withdrawButton_middle (hs : WellFormed s) (hl : HasBindings s bs)
    (ht : s.widgets t = some v) {l₁ l₂ : List Ptr} {c q d : Ptr}
    (hc : Chain s.nodes Node.nextSibling v.childrenHead (l₁ ++ [c] ++ q :: d :: l₂))
    (hother : ∀ p ∈ l₁ ++ [c], ∀ n, s.nodes p = some n → flag n = false)
    (hq : ∀ n, s.nodes q = some n → flag n = true) : withdrawButton isButton s t = none := by
  have hchild : ∀ x ∈ l₁ ++ [c] ++ q :: d :: l₂, nodeLinks.ChildOf s.nodes x t := fun x =>
    (hs.mem_children_iff (AppState.nodes_of_widgets ht) hc).mp
  obtain ⟨n, hn, hpar⟩ := hchild q (by simp)
  obtain ⟨w, hw, rfl⟩ := AppState.nodes_eq_some.mp hn
  have hnodup := hc.nodup
  have hwc := AppState.chain_nodes_iff.mp hc
  obtain ⟨k, hseg, rfl, w', hw', hrest⟩ := segment_append_iff.mp hwc
  obtain rfl := Option.some.inj (hw.symm.trans hw')
  have hnext : w.nextSibling = some d := hrest.1
  obtain ⟨hseg₁, cv, hcv, hcnext⟩ := segment_snoc_iff.mp hseg
  have hcnext : cv.nextSibling = some q := hcnext
  obtain ⟨h₀, l₀, hl₀⟩ := List.exists_cons_of_ne_nil (List.concat_ne_nil c l₁)
  have hhead : v.childrenHead = some h₀ := by
    rw [hwc.head_eq, hl₀]
    rfl
  obtain ⟨w₀, hw₀⟩ : ∃ w, s.widgets h₀ = some w := hwc.live h₀ (by rw [hl₀]; simp)
  have hother₀ : isButton w₀ = false :=
    isButton_of_node hflag (hother h₀ (by rw [hl₀]; simp)) hw₀
  have hlen := hc.length_le fun x hx => hs.lt_nextWidget (hc.live x hx)
  have hfind : findBefore s.widgets isButton s.nextWidget h₀ = some c := by
    rw [← List.getLast?_concat (l := l₁) (a := c), hl₀]
    refine findBefore_eq l₀ _ h₀ (e := some q) ?_ (fun p hp u hu => ?_) (fun p hp => ?_) ?_
    · rw [← hl₀, ← hhead]
      exact hseg
    · exact isButton_of_node hflag (hother p (by rw [hl₀]; simp [hp])) hu
    · obtain rfl := Option.some.inj hp
      exact ⟨w, hw, isButton_of_node hflag hq hw⟩
    · rw [hl₀] at hlen
      simp at hlen
      omega
  have hqc : q ∉ l₁ ++ [c] ++ d :: l₂ := fun hmem => by
    have hperm : (l₁ ++ [c] ++ q :: d :: l₂).Perm (q :: (l₁ ++ [c] ++ d :: l₂)) :=
      List.perm_middle
    exact (List.nodup_cons.mp (hperm.nodup_iff.mp hnodup)).1 hmem
  have hother : ∀ y ∈ l₁ ++ [c] ++ d :: l₂, y ∈ l₁ ++ [c] ++ q :: d :: l₂ := fun y hy => by
    simp only [List.mem_append, List.mem_cons] at hy ⊢
    tauto
  have hqt : nodeLinks.ChildOf s.nodes q t := ⟨_, hn, hpar⟩
  have hout : ∀ y ∈ l₁ ++ [c] ++ d :: l₂, ¬ s.InSubtree y q := fun y hy =>
    hs.not_inSubtree_sibling (hchild y (hother y hy)) hqt fun h => hqc (h ▸ hy)
  have htq : ¬ s.InSubtree t q := hs.not_inSubtree_parent hqt
  have hct : c ≠ t := (hs.parent_ne (hchild c (by simp))).symm
  let c' := cv.setNextSibling (some d)
  have hdestroy : eiWidgetDestroy (s.setWidget c c') q = none := by
    obtain ⟨f, hf⟩ := hs.exists_forest hw
    refine eiWidgetDestroy_lost (hs.erasable_of_outside c' hcv hw (hout c (by simp)) hf rfl) hpar
      (hl.of_binds rfl rfl rfl) ((s.widgets_setWidget_of_ne c' hct.symm).trans ht)
      (fun htf => htq (Or.inr (hf.below t htf))) (l := l₁ ++ [c] ++ d :: l₂) ?_ hqc
      (fun y hy hyf => hout y hy (Or.inr (hf.below y hyf))) ?_ (by simp) ?_
    · -- The list goes around the button.
      have hkept : ∀ y, y ≠ c → (s.setWidget c c').widgets y = s.widgets y := fun y hy =>
        s.widgets_setWidget_of_ne c' hy
      have hnodup' := (List.nodup_append.mp hnodup).1
      refine AppState.chain_nodes_iff.mpr (segment_append_iff.mpr ⟨some d, ?_, ?_⟩)
      · refine segment_snoc_iff.mpr ⟨hseg₁.congr fun y hy => ?_, c',
          s.widgets_setWidget_self c c', rfl⟩
        refine congrArg (Option.map Widget.nextSibling) (hkept y ?_)
        rintro rfl
        exact (List.nodup_append.mp hnodup').2.2 y hy y (by simp) rfl
      · refine (hnext ▸ hrest : Segment s.widgets Widget.nextSibling (some d) (d :: l₂) none).congr
          fun y hy => congrArg (Option.map Widget.nextSibling) (hkept y ?_)
        rintro rfl
        exact (List.nodup_append.mp hnodup).2.2 y (by simp) y (List.mem_cons_of_mem q hy) rfl
    · simp only [List.length_append, List.length_cons] at hlen ⊢
      exact hlen
    · have htail : v.childrenTail = _ := hs.tail t v.node _ (AppState.nodes_of_widgets ht) hc
      simp [htail]
  simp only [withdrawButton, ht, hhead, hw₀, hother₀, Bool.false_eq_true, if_false, hfind, hcv,
    hcnext, hw, hnext, AppState.modifyWidget, Option.map_some, Option.bind_eq_bind,
    Option.bind_some]
  exact hdestroy

/-- **A withdrawal that completes** does nothing, or destroys one such button. -/
theorem withdrawButton_of_eq_some {s' : AppState} (hs : WellFormed s) (hl : HasBindings s bs)
    (h : withdrawButton isButton s t = some s') : s' = s ∨ ∃ b n, nodeLinks.ChildOf s.nodes b t ∧
      s.nodes b = some n ∧ flag n = true ∧ Destroyed s s' b ∧
      HasBindings s' (bs.filter fun e => e.2.widget ≠ some b) := by
  obtain ⟨v, ht, -⟩ := Option.bind_eq_some_iff.mp h
  obtain ⟨l, hc, -, -⟩ := hs.exists_children (AppState.nodes_of_widgets ht)
  have hc : Chain s.nodes Node.nextSibling v.childrenHead l := hc
  have hchild : ∀ x ∈ l, nodeLinks.ChildOf s.nodes x t := fun x =>
    (hs.mem_children_iff (AppState.nodes_of_widgets ht) hc).mp
  have hflags : ∀ p b, (s.nodes p).any flag = b → ∀ n, s.nodes p = some n → flag n = b :=
    fun p b hb n hn => by rw [← hb, hn, Option.any_some]
  cases hfirst : l.find? fun p => (s.nodes p).any flag with
  | none =>
    -- No child is such a button.
    have hnone : ∀ p ∈ l, ∀ n, s.nodes p = some n → flag n = false := fun p hp =>
      hflags p false (by simpa using List.find?_eq_none.mp hfirst p hp)
    by_cases hne : l = []
    · subst hne
      rw [withdrawButton_empty ht (chain_nil_iff.mp hc)] at h
      exact absurd h (by simp)
    · rw [withdrawButton_absent hflag hs ht hc hne hnone] at h
      exact Or.inl (Option.some.inj h).symm
  | some q =>
    obtain ⟨hq, l₁, l₂, rfl, hl₁⟩ := List.find?_eq_some_iff_append.mp hfirst
    have hq := hflags q true hq
    obtain ⟨n, hn, hparent⟩ := hchild q (by simp)
    have hother : ∀ p ∈ l₁, ∀ n, s.nodes p = some n → flag n = false := fun p hp =>
      hflags p false (by simpa using hl₁ p hp)
    have hadj : ∀ v', withdrawButton isButton s t = eiWidgetDestroy (s.setWidget t v') q →
        NoAdjacentBindings q bs := fun v' heq => by
      by_contra hadj
      rw [withdrawButton_adjacent hl heq hadj] at h
      exact absurd h (by simp)
    rcases List.eq_nil_or_concat l₁ with rfl | ⟨l, c, rfl⟩
    · cases l₂ with
      | nil =>
        obtain ⟨s₁, h₁, hd, hl₁⟩ := withdrawButton_only hflag hs hl ht hc hq
          (hadj _ (withdrawButton_only_eq hflag hs ht hc hq))
        obtain rfl := Option.some.inj (h₁.symm.trans h)
        exact Or.inr ⟨q, n, ⟨n, hn, hparent⟩, hn, hq n hn, hd, hl₁⟩
      | cons d l₂ =>
        rw [withdrawButton_first hflag hs hl ht hc hq] at h
        exact absurd h (by simp)
    · rw [List.concat_eq_append] at hc hother
      cases l₂ with
      | nil =>
        obtain ⟨s₁, h₁, hd, hl₁⟩ := withdrawButton_last hflag hs hl ht hc hother hq
          (hadj _ (withdrawButton_last_eq hflag hs ht hc hother hq))
        obtain rfl := Option.some.inj (h₁.symm.trans h)
        exact Or.inr ⟨q, n, ⟨n, hn, hparent⟩, hn, hq n hn, hd, hl₁⟩
      | cons d l₂ =>
        rw [withdrawButton_middle hflag hs hl ht hc hother hq] at h
        exact absurd h (by simp)

end

end Withdraw

/-! ### The steps of the configuration -/

section Steps

variable {s s' : AppState} {p : Ptr} {args : ToplevelArgs}

/-- The arguments ask for the withdrawal of the buttons with this flag. -/
def ToplevelArgs.Withdraws (args : ToplevelArgs) (flag : Node → Bool) : Prop :=
  flag = Node.isQuitButton ∧ args.closable = some false ∨
    flag = Node.isResizeButton ∧ args.resizable = some .none

/-- What the assignments and the withdrawals keep, all of `toplevelAssign` keeps. No assignment
writes the painted rectangle, and none but the given border width is written. -/
theorem toplevelAssign_of_steps {R : AppState → Prop}
    (hsize : ∀ s s' size, R s →
      s.modifyWidget p (fun w => { w with requestedSize := size }) = some s' → R s')
    (hattrs : ∀ s s' f, R s → modifyToplevel s p f = some s' →
      (∀ a, (f a).drawRect = a.drawRect ∧ ((f a).borderWidth = a.borderWidth ∨
        (f a).borderWidth = args.borderWidth.getD a.borderWidth)) → R s')
    (hwithdraw : ∀ s s' (isButton : Widget → Bool) (flag : Node → Bool), R s →
      withdrawButton isButton s p = some s' → (∀ w, isButton w = flag w.node) →
      args.Withdraws flag → R s')
    (hs : R s) (h : toplevelAssign s p args = some s') : R s' := by
  simp only [toplevelAssign, Option.bind_eq_bind, Option.bind_eq_some_iff] at h
  obtain ⟨s₁, h₁, s₂, h₂, s₃, h₃, s₄, h₄, h₅⟩ := h
  have hs₂ : R s₂ := hattrs s₁ s₂ _ (hsize s s₁ _ hs h₁) h₂
    fun _ => ⟨rfl, Or.inr rfl⟩
  have hs₃ : R s₃ := by
    cases hc : args.closable with
    | none =>
      rw [hc] at h₃
      exact Option.some.inj h₃ ▸ hs₂
    | some closable =>
      rw [hc, Option.elim_some] at h₃
      obtain ⟨s₂', hflag, h₃⟩ := Option.bind_eq_some_iff.mp h₃
      have hassign : R s₂' := hattrs s₂ s₂' _ hs₂ hflag fun _ => ⟨rfl, Or.inl rfl⟩
      cases closable with
      | true =>
        rw [cond_true] at h₃
        exact Option.some.inj h₃ ▸ hassign
      | false =>
        rw [cond_false] at h₃
        exact hwithdraw s₂' s₃ _ _ hassign h₃ (fun w => (Widget.isQuitButton_node w).symm)
          (Or.inl ⟨rfl, hc⟩)
  have hs₄ : R s₄ := by
    cases hr : args.resizable with
    | none =>
      rw [hr] at h₄
      exact Option.some.inj h₄ ▸ hs₃
    | some resizable =>
      rw [hr, Option.elim_some] at h₄
      obtain ⟨s₃', hflag, h₄⟩ := Option.bind_eq_some_iff.mp h₄
      have hassign : R s₃' := hattrs s₃ s₃' _ hs₃ hflag fun _ => ⟨rfl, Or.inl rfl⟩
      cases hnone : decide (resizable = .none) with
      | false =>
        rw [hnone, cond_false] at h₄
        exact Option.some.inj h₄ ▸ hassign
      | true =>
        rw [hnone, cond_true] at h₄
        exact hwithdraw s₃' s₄ _ _ hassign h₄ (fun w => (Widget.isResizeButton_node w).symm)
          (Or.inr ⟨rfl, by rw [hr, of_decide_eq_true hnone]⟩)
  cases hm : args.minSize with
  | none =>
    rw [hm] at h₅
    exact Option.some.inj h₅ ▸ hs₄
  | some minSize =>
    rw [hm, Option.elim_some] at h₅
    obtain ⟨size, -, h₅⟩ := Option.bind_eq_some_iff.mp h₅
    exact hattrs s₄ s' _ hs₄ h₅ fun _ => ⟨rfl, Or.inl rfl⟩

/-- When the assignments complete, the hierarchy is well formed, no address has been taken, and the
root is the same. -/
theorem toplevelAssign_keeps {bs : List (Ptr × Binding)} (hs : WellFormed s)
    (hl : HasBindings s bs) (h : toplevelAssign s p args = some s') :
    (WellFormed s' ∧ ∃ bs', HasBindings s' bs') ∧ s'.nextWidget = s.nextWidget ∧
      s'.rootWidget = s.rootWidget := by
  refine toplevelAssign_of_steps (R := fun s₁ => (WellFormed s₁ ∧ ∃ bs, HasBindings s₁ bs) ∧
    s₁.nextWidget = s.nextWidget ∧ s₁.rootWidget = s.rootWidget) ?_ ?_ ?_ ⟨⟨hs, bs, hl⟩, rfl, rfl⟩ h
  · rintro s₁ s₂ size ⟨⟨hs, bs, hl⟩, hkept⟩ h
    obtain ⟨w, hp, rfl⟩ := Option.map_eq_some_iff.mp h
    exact ⟨⟨hs.setWidget hp rfl, bs, hl.of_binds rfl rfl rfl⟩, hkept⟩
  · rintro s₁ s₂ f ⟨⟨hs, bs, hl⟩, hkept⟩ h -
    obtain ⟨w, hp, h⟩ := Option.bind_eq_some_iff.mp h
    split at h
    · obtain rfl := Option.some.inj h
      exact ⟨⟨hs.setWidget hp rfl, bs, hl.of_binds rfl rfl rfl⟩, hkept⟩
    · simp at h
    · simp at h
  · rintro s₁ s₂ isButton flag ⟨⟨hs, bs, hl⟩, hnext, hroot⟩ h hflag -
    rcases withdrawButton_of_eq_some hflag hs hl h with rfl | ⟨b, n, -, -, -, hd, hl'⟩
    · exact ⟨⟨hs, bs, hl⟩, hnext, hroot⟩
    · exact ⟨⟨hd.wellFormed hs, _, hl'⟩, hd.nextWidget.trans hnext, hd.rootWidget.trans hroot⟩

end Steps

end GuiLibrary

import GuiLibrary.Creation
import GuiLibrary.Erasure

/-!
# What destroying a widget does

`ei_widget_destroy` completes on a live widget exactly when no two neighbours of the list of bound
events are bound to it. It then frees the widget and its descendants, unlinks it from the children
list of its parent, and deletes its own bindings; the hierarchy stays well formed.

## Main definitions

* `Pruned`, `CutOut`: the hierarchy without a widget, and how it comes about.
* `Destroyed`.

## Main results

* `unlinkChild_only`, `unlinkChild_first`, `unlinkChild_last`, `unlinkChild_middle`: the four paths
  of the unlinking.
* `CutOut.children_parent`, `CutOut.children_other`, `CutOut.pruned`: what they leave.
* `eiWidgetDestroy_destroyed`, `eiWidgetDestroy_eq_none`: what `ei_widget_destroy` does.
-/

namespace GuiLibrary

open Cells

/-! ### The paths of the unlinking -/

/-- The search for a widget among its siblings goes to the widget, or to the end of the list when
the widget is not in it, and remembers the sibling before. -/
theorem findChild_eq {widgets : Ptr → Option Widget} {p : Ptr} {e : Option Ptr}
    (he : ∀ q, e = some q → q = p) : (l : List Ptr) → (fuel : ℕ) →
    (last h : Option Ptr) → Segment widgets Widget.nextSibling h l e → p ∉ l →
    l.length < fuel → findChild widgets p fuel last h = some (l.getLast?.or last, e)
  | _, 0, _, _, _, _, hfuel => absurd hfuel (Nat.not_lt_zero _)
  | [], fuel + 1, last, h, hl, _, _ => by
      obtain rfl := segment_nil_iff.mp hl
      cases h with
      | none => rw [findChild, List.getLast?_nil, Option.none_or]
      | some q => rw [findChild, if_pos (he q rfl), List.getLast?_nil, Option.none_or]
  | c :: l, fuel + 1, last, h, hl, hp, hfuel => by
      obtain ⟨rfl, w, hw, hl⟩ := hl
      rw [List.mem_cons, not_or] at hp
      have ih := findChild_eq he l fuel (some c) w.nextSibling hl hp.2
        (Nat.lt_of_succ_lt_succ hfuel)
      simp only [findChild, if_neg (Ne.symm hp.1), hw, Option.bind_eq_bind, Option.bind_some, ih]
      cases l with
      | nil => simp
      | cons d l => rw [List.getLast?_cons_cons, List.getLast?_cons, Option.some_or, Option.some_or]

section Unlink

variable {s : AppState} {p parent c : Ptr} {pw w v : Widget} {l l₁ l₂ : List Ptr}

/-- The splice that cuts out the first child, seen on the node of the parent. -/
theorem spliced_head {s' : AppState} {pn : Node} (hpn : s.nodes parent = some pn)
    (hnodes : s'.nodes =
      Function.update s.nodes parent (some (pn.setChildren l.head? l.getLast?))) :
    Spliced s.nodes s'.nodes parent [] none l := by
  refine ⟨by simp, ⟨pn, hpn, ?_⟩, by simp, fun q _ hq _ => ?_⟩
  · rw [hnodes, Function.update_self]
    rfl
  · rw [hnodes, Function.update_of_ne hq]

/-- The splice that cuts out the child after `c`. -/
theorem spliced_concat {s' : AppState} {pn : Node} (hv : s.widgets c = some v)
    (hpn : s.nodes parent = some pn)
    (hc : s'.nodes c = some (v.node.setNextSibling l₂.head?))
    (hparent : s'.nodes parent =
      some (pn.setChildren (l ++ [c] ++ l₂).head? (l ++ [c] ++ l₂).getLast?))
    (hframe : ∀ q, q ≠ parent → q ≠ c → s'.nodes q = s.nodes q) :
    Spliced s.nodes s'.nodes parent (l ++ [c]) none l₂ := by
  refine ⟨by simp, ⟨pn, hpn, hparent⟩, fun q hq => ?_, fun q _ hq hqc => ?_⟩
  · rw [List.getLast?_concat, Option.some.injEq] at hq
    subst hq
    exact ⟨v.node, AppState.nodes_of_widgets hv, hc⟩
  · rw [List.getLast?_concat] at hqc
    exact hframe q hq fun h => hqc (h ▸ rfl)

/-- **The only child.** -/
theorem unlinkChild_only (hp : s.widgets parent = some pw)
    (hfind : findChild s.widgets p s.nextWidget none pw.childrenHead = some (none, some p))
    (htail : pw.childrenTail = some p) :
    ∃ s', unlinkChild s parent p = some s' ∧ Spliced s.nodes s'.nodes parent [] none [] ∧
      OnlyWidgets s s' := by
  refine ⟨s.setWidget parent ((pw.setChildrenTail none).setChildrenHead none), ?_,
    spliced_head (AppState.nodes_of_widgets hp) (s.nodes_setWidget parent _), rfl⟩
  simp only [unlinkChild, hp, Option.bind_eq_bind, Option.bind_some, hfind, if_pos htail,
    AppState.modifyWidget, Option.map_some]

/-- **The first of several children.** -/
theorem unlinkChild_first (hp : s.widgets parent = some pw) (hw : s.widgets p = some w)
    (hfind : findChild s.widgets p s.nextWidget none pw.childrenHead = some (none, some p))
    (hnext : w.nextSibling = l₂.head?) (htail : pw.childrenTail = l₂.getLast?)
    (hne : pw.childrenTail ≠ some p) :
    ∃ s', unlinkChild s parent p = some s' ∧ Spliced s.nodes s'.nodes parent [] none l₂ ∧
      OnlyWidgets s s' := by
  refine ⟨s.setWidget parent (pw.setChildrenHead w.nextSibling), ?_,
    spliced_head (AppState.nodes_of_widgets hp) ?_, rfl⟩
  · simp only [unlinkChild, hp, Option.bind_eq_bind, Option.bind_some, hfind, if_neg hne, hw,
      AppState.modifyWidget, Option.map_some]
  · rw [AppState.nodes_setWidget, ← hnext, ← htail]
    rfl

/-- **The last of several children.** -/
theorem unlinkChild_last (hp : s.widgets parent = some pw) (hv : s.widgets c = some v)
    (hfind : findChild s.widgets p s.nextWidget none pw.childrenHead = some (some c, some p))
    (hcp : c ≠ parent) (hhead : pw.childrenHead = (l ++ [c]).head?)
    (htail : pw.childrenTail = some p) :
    ∃ s', unlinkChild s parent p = some s' ∧
      Spliced s.nodes s'.nodes parent (l ++ [c]) none [] ∧ OnlyWidgets s s' := by
  let s₁ := s.setWidget c (v.setNextSibling none)
  have hp₁ : s₁.widgets parent = some pw := (s.widgets_setWidget_of_ne _ hcp.symm).trans hp
  refine ⟨s₁.setWidget parent (pw.setChildrenTail c), ?_, spliced_concat hv
    (AppState.nodes_of_widgets hp) ?_ ?_ fun q hq hqc => ?_, rfl⟩
  · simp only [unlinkChild, hp, Option.bind_eq_bind, Option.bind_some, hfind, if_pos htail.symm,
      AppState.modifyWidget, hv, Option.map_some]
    rw [show (s.setWidget c (v.setNextSibling none)).widgets parent = some pw from hp₁,
      Option.map_some]
  · rw [AppState.nodes_setWidget, Function.update_of_ne hcp, AppState.nodes_setWidget,
      Function.update_self]
    rfl
  · rw [AppState.nodes_setWidget, Function.update_self, List.append_nil, List.getLast?_concat,
      ← hhead]
    rfl
  · rw [AppState.nodes_setWidget, Function.update_of_ne hq, AppState.nodes_setWidget,
      Function.update_of_ne hqc]

/-- **A child between two siblings.** -/
theorem unlinkChild_middle (hp : s.widgets parent = some pw) (hv : s.widgets c = some v)
    (hw : s.widgets p = some w)
    (hfind : findChild s.widgets p s.nextWidget none pw.childrenHead = some (some c, some p))
    (hcp : c ≠ parent) (hnext : w.nextSibling = l₂.head?)
    (hhead : pw.childrenHead = (l ++ [c] ++ l₂).head?)
    (htail : pw.childrenTail = (l ++ [c] ++ l₂).getLast?) (hne : pw.childrenTail ≠ some p) :
    ∃ s', unlinkChild s parent p = some s' ∧
      Spliced s.nodes s'.nodes parent (l ++ [c]) none l₂ ∧ OnlyWidgets s s' := by
  have hpn := AppState.nodes_of_widgets hp
  refine ⟨s.setWidget c (v.setNextSibling w.nextSibling), ?_, spliced_concat hv hpn ?_ ?_
    fun q _ hqc => ?_, rfl⟩
  · simp only [unlinkChild, hp, Option.bind_eq_bind, Option.bind_some, hfind, if_neg hne.symm, hw,
      AppState.modifyWidget, hv, Option.map_some]
  · rw [AppState.nodes_setWidget, Function.update_self, hnext]
    rfl
  · rw [AppState.nodes_setWidget, Function.update_of_ne hcp.symm, hpn, ← hhead, ← htail]
    rfl
  · rw [AppState.nodes_setWidget, Function.update_of_ne hqc]

/-- The search finds a child after the siblings before it. -/
theorem findChild_of_mem (hl : Chain s.widgets Widget.nextSibling pw.childrenHead (l₁ ++ p :: l₂))
    (hbound : ∀ q ∈ l₁ ++ p :: l₂, q < s.nextWidget) :
    findChild s.widgets p s.nextWidget none pw.childrenHead = some (l₁.getLast?, some p) := by
  have hlen := hl.length_le hbound
  rw [List.length_append, List.length_cons] at hlen
  have hp₁ : p ∉ l₁ := fun hmem =>
    (List.nodup_append.mp hl.nodup).2.2 p hmem p List.mem_cons_self rfl
  obtain ⟨k, hseg, rfl, -⟩ := segment_append_iff.mp hl
  have hseg : Segment s.widgets Widget.nextSibling pw.childrenHead l₁ (some p) := hseg
  rw [findChild_eq (by simp) l₁ s.nextWidget none _ hseg hp₁ (by omega), Option.or_none]

/-- **The four paths of the unlinking** cut the widget out of the children list of its parent. -/
theorem unlinkChild_spliced {pn : Node} (hpn : s.nodes parent = some pn)
    (hl : Chain s.nodes Node.nextSibling pn.childrenHead (l₁ ++ p :: l₂))
    (htail : pn.childrenTail = (l₁ ++ p :: l₂).getLast?) (hparent : parent ∉ l₁ ++ p :: l₂)
    (hbound : ∀ q ∈ l₁ ++ p :: l₂, q < s.nextWidget) :
    ∃ s', unlinkChild s parent p = some s' ∧ Spliced s.nodes s'.nodes parent l₁ none l₂ ∧
      OnlyWidgets s s' := by
  obtain ⟨pw, hpw, rfl⟩ := AppState.nodes_eq_some.mp hpn
  have htail : pw.childrenTail = (l₁ ++ p :: l₂).getLast? := htail
  have hhead : pw.childrenHead = (l₁ ++ p :: l₂).head? := hl.head_eq
  have hnodup := (List.nodup_append.mp hl.nodup).2.1
  have hl := AppState.chain_nodes_iff.mp hl
  have hfind := findChild_of_mem hl hbound
  obtain ⟨k, hseg, rfl, w, hw, hrest⟩ := segment_append_iff.mp hl
  have hnext : w.nextSibling = l₂.head? := Chain.head_eq hrest
  -- A child that is followed by another one is not the last one.
  have hlast : ∀ d l, l₂ = d :: l → pw.childrenTail = l₂.getLast? ∧ pw.childrenTail ≠ some p := by
    rintro d l rfl
    have htail : pw.childrenTail = (d :: l).getLast? := by
      rw [htail, List.getLast?_append, List.getLast?_cons_cons, List.getLast?_cons, Option.some_or]
    refine ⟨htail, fun h => (List.nodup_cons.mp hnodup).1 ?_⟩
    exact List.mem_of_getLast? (htail.symm.trans h)
  rcases List.eq_nil_or_concat l₁ with rfl | ⟨l₀, c, rfl⟩
  · cases l₂ with
    | nil => exact unlinkChild_only hpw hfind htail
    | cons d l₂ =>
      obtain ⟨htail, hne⟩ := hlast d l₂ rfl
      exact unlinkChild_first hpw hw hfind hnext htail hne
  · rw [List.concat_eq_append] at *
    rw [List.getLast?_concat] at hfind
    obtain ⟨-, v, hv, -⟩ := segment_snoc_iff.mp hseg
    have hcp : c ≠ parent := fun h => hparent (h ▸ by simp)
    have hfirst : (l₀ ++ [c] ++ p :: l₂).head? = (l₀ ++ [c] ++ l₂).head? := by
      cases l₀ <;> rfl
    cases l₂ with
    | nil =>
      rw [List.append_nil] at hfirst
      exact unlinkChild_last hpw hv hfind hcp (hhead.trans hfirst)
        (htail.trans List.getLast?_concat)
    | cons d l₂ =>
      obtain ⟨htail, hne⟩ := hlast d l₂ rfl
      refine unlinkChild_middle hpw hv hw hfind hcp hnext (hhead.trans hfirst) ?_ hne
      rw [htail, List.getLast?_append, List.getLast?_cons, Option.some_or]

end Unlink

/-! ### The hierarchy after the destruction -/

/-- The memory `N'` of nodes is `N` without the widget `p` and its descendants. -/
structure Pruned (N N' : Ptr → Option Node) (p : Ptr) : Prop where
  dead : ∀ q, q = p ∨ nodeLinks.Below N q p → N' q = none
  fresh : ∀ q, N q = none → N' q = none
  kept : ∀ q n, N q = some n → ¬ (q = p ∨ nodeLinks.Below N q p) →
    ∃ n', N' q = some n' ∧ n'.identity = n.identity ∧
      ∀ l, Chain N Node.nextSibling n.childrenHead l → n.childrenTail = l.getLast? →
        Chain N' Node.nextSibling n'.childrenHead (l.filter (· ≠ p)) ∧
          n'.childrenTail = (l.filter (· ≠ p)).getLast?

namespace Pruned

variable {s s' : AppState} {p : Ptr}

/-- A widget that is left was there before, with the same identity. -/
theorem of_some {N N' : Ptr → Option Node} (h : Pruned N N' p) {q : Ptr} {n' : Node}
    (hn' : N' q = some n') : ¬ (q = p ∨ nodeLinks.Below N q p) ∧
      ∃ n, N q = some n ∧ n'.identity = n.identity := by
  have hout : ¬ (q = p ∨ nodeLinks.Below N q p) := fun hin => by
    simp [h.dead q hin] at hn'
  refine ⟨hout, ?_⟩
  cases hn : N q with
  | none => simp [h.fresh q hn] at hn'
  | some n =>
    obtain ⟨n'', hn'', hid, -⟩ := h.kept q n hn hout
    obtain rfl := Option.some.inj (hn'.symm.trans hn'')
    exact ⟨n, rfl, hid⟩

theorem parent_eq {n n' : Node} (h : n'.identity = n.identity) : n'.parent = n.parent :=
  congrArg (fun i => i.2.2.2.2) h

theorem childOf_iff {N N' : Ptr → Option Node} (h : Pruned N N' p) {c q : Ptr} :
    nodeLinks.ChildOf N' c q ↔
      nodeLinks.ChildOf N c q ∧ ¬ (c = p ∨ nodeLinks.Below N c p) := by
  constructor
  · rintro ⟨n', hn', hq⟩
    obtain ⟨hout, n, hn, hid⟩ := h.of_some hn'
    exact ⟨⟨n, hn, (parent_eq hid).symm.trans hq⟩, hout⟩
  · rintro ⟨⟨n, hn, hq⟩, hout⟩
    obtain ⟨n', hn', hid, -⟩ := h.kept c n hn hout
    exact ⟨n', hn', (parent_eq hid).trans hq⟩

/-- **Pruning keeps the hierarchy well formed.** -/
theorem wellFormed (h : Pruned s.nodes s'.nodes p) (hs : WellFormed s)
    (hnext : s'.nextWidget = s.nextWidget) (hroot : s'.rootWidget = s.rootWidget) :
    WellFormed s' := by
  refine .of_children (fun q n' hn' => ?_) (fun c q hc => ?_) (fun c q hc => ?_)
    (fun q n' hn' => ?_) (fun q n' hn' hq => ?_) fun q hq => ?_
  · obtain ⟨hout, n, hn, -⟩ := h.of_some hn'
    obtain ⟨l, hl, htail, hmem⟩ := hs.exists_children hn
    obtain ⟨n'', hn'', -, hchildren⟩ := h.kept q n hn hout
    obtain rfl := Option.some.inj (hn'.symm.trans hn'')
    obtain ⟨hl', htail'⟩ := hchildren l hl htail
    refine ⟨_, hl', htail', fun c => ?_⟩
    rw [List.mem_filter, h.childOf_iff, hmem, decide_eq_true_iff]
    refine and_congr_right fun hc => not_congr ⟨Or.inl, fun hor => hor.resolve_right fun hb => ?_⟩
    exact hout (hb.parent_cases hc)
  · obtain ⟨hc, hout⟩ := h.childOf_iff.mp hc
    obtain ⟨n, hn⟩ := hs.linked.parent_live c q hc
    obtain ⟨n', hn', -⟩ := h.kept q n hn fun hin => hout (Or.inr (hin.elim
      (fun hqp => hqp ▸ .single hc) (.head hc)))
    exact ⟨n', hn'⟩
  · exact hs.linked.rank_lt c q (h.childOf_iff.mp hc).1
  · obtain ⟨-, n, hn, -⟩ := h.of_some hn'
    rw [hnext]
    exact hs.linked.rank_bound q n hn
  · obtain ⟨-, n, hn, hid⟩ := h.of_some hn'
    rw [hroot]
    exact hs.root q n hn ((parent_eq hid).symm.trans hq)
  · rw [hnext]
    exact hs.rootWidget_lt q (hroot ▸ hq)

/-- Destroying the root leaves nothing. -/
theorem of_root {N' : Ptr → Option Node} (hs : WellFormed s) {n : Node} (hn : s.nodes p = some n)
    (hp : n.parent = none) (hN' : ∀ q, N' q = none) : Pruned s.nodes N' p where
  dead q _ := hN' q
  fresh q _ := hN' q
  kept q m hm hout := by
    obtain ⟨r, -, hr, -, -, hqr⟩ := hs.inSubtree_root ⟨m, hm⟩
    obtain rfl : p = r := Option.some.inj ((hs.root p n hn hp).symm.trans hr)
    exact absurd hqr hout

end Pruned

/-- The memory `N'` is the one of `s` after the descendants of `p` have been erased, which gives
`N₄`, and `p` has been cut out of the children list of `parent`, from between the parts `l₁` and
`l₂`, which gives `N₅`, and freed. -/
structure CutOut (s : AppState) (N₄ N₅ N' : Ptr → Option Node) (p parent : Ptr)
    (l₁ l₂ : List Ptr) : Prop where
  before : WellFormed s
  childOf : nodeLinks.ChildOf s.nodes p parent
  siblings : ∃ n, s.nodes parent = some n ∧
    Chain s.nodes Node.nextSibling n.childrenHead (l₁ ++ p :: l₂)
  erased : ∀ q, nodeLinks.Below s.nodes q p → N₄ q = none
  left : ∀ q, ¬ nodeLinks.Below s.nodes q p → N₄ q = s.nodes q
  spliced : Spliced N₄ N₅ parent l₁ none l₂
  freed : N' = Function.update N₅ p none

namespace CutOut

variable {s : AppState} {N₄ N₅ N' : Ptr → Option Node} {p parent : Ptr} {l₁ l₂ : List Ptr}

theorem mem_siblings_iff (h : CutOut s N₄ N₅ N' p parent l₁ l₂) {c : Ptr} :
    c ∈ l₁ ++ p :: l₂ ↔ nodeLinks.ChildOf s.nodes c parent := by
  obtain ⟨n, hn, hl⟩ := h.siblings
  exact h.before.mem_children_iff hn hl

/-- The erasure of the descendants, which are the nodes of the forest `f`. -/
theorem of_forest {n pn : Node} {f : Forest Ptr} (hs : WellFormed s)
    (hp : nodeLinks.ChildOf s.nodes p parent) (hpn : s.nodes parent = some pn)
    (hf : Represents nodeLinks s.nodes p n.childrenHead f) (hn : s.nodes p = some n)
    (hl : Chain s.nodes Node.nextSibling pn.childrenHead (l₁ ++ p :: l₂))
    (hN₄ : ∀ q, N₄ q = if q ∈ f.nodes then none else s.nodes q)
    (hsp : Spliced N₄ N₅ parent l₁ none l₂) :
    CutOut s N₄ N₅ (Function.update N₅ p none) p parent l₁ l₂ where
  before := hs
  childOf := hp
  siblings := ⟨pn, hpn, hl⟩
  erased q hq := by rw [hN₄, if_pos ((hf.mem_nodes_iff hs.linked hn q).mpr hq)]
  left q hq := by rw [hN₄, if_neg fun h => hq ((hf.mem_nodes_iff hs.linked hn q).mp h)]
  spliced := hsp
  freed := rfl

/-- The widget stands once in the list of its parent. -/
theorem notMem (h : CutOut s N₄ N₅ N' p parent l₁ l₂) : p ∉ l₁ ++ l₂ := by
  obtain ⟨n, -, hl⟩ := h.siblings
  exact (List.nodup_cons.mp (List.perm_middle.nodup_iff.mp hl.nodup)).1

theorem filter_siblings (h : CutOut s N₄ N₅ N' p parent l₁ l₂) :
    (l₁ ++ p :: l₂).filter (· ≠ p) = l₁ ++ l₂ := by
  rw [List.filter_append, List.filter_cons_of_neg (by simp), ← List.filter_append,
    List.filter_eq_self]
  exact fun c hc => decide_eq_true (ne_of_mem_of_not_mem hc h.notMem)

/-- A node outside of the subtree of `p` is left with its identity. -/
theorem exists_kept (h : CutOut s N₄ N₅ N' p parent l₁ l₂) {q : Ptr} {n : Node}
    (hn : s.nodes q = some n) (hout : ¬ (q = p ∨ nodeLinks.Below s.nodes q p)) :
    ∃ n', N₅ q = some n' ∧ N' q = some n' ∧ n'.identity = n.identity := by
  rw [not_or] at hout
  have hid := h.spliced.map_eq Node.identity q (fun _ _ _ => rfl) fun _ _ _ _ => rfl
  rw [h.left q hout.2, hn, Option.map_some, Option.map_eq_some_iff] at hid
  obtain ⟨n', hn', hid⟩ := hid
  exact ⟨n', hn', by rw [h.freed, Function.update_of_ne hout.1, hn'], hid⟩

/-- What is not there after the erasure is not there at the end. -/
theorem eq_none (h : CutOut s N₄ N₅ N' p parent l₁ l₂) {q : Ptr} (hq : N₄ q = none) :
    N' q = none := by
  have hspliced : N₅ q = none := by
    rw [← Option.isNone_iff_eq_none, ← Option.not_isSome, h.spliced.isSome_eq, hq]
    rfl
  rw [h.freed]
  by_cases hqp : q = p
  · rw [hqp, Function.update_self]
  · rw [Function.update_of_ne hqp, hspliced]

/-- Freeing the widget does not touch the lists without it. -/
theorem chain_freed (h : CutOut s N₄ N₅ N' p parent l₁ l₂) {head : Option Ptr} {l : List Ptr}
    (hl : Chain N₅ Node.nextSibling head l) (hp : p ∉ l) : Chain N' Node.nextSibling head l :=
  h.freed ▸ hl.update_of_notMem hp none

/-- **The parent has one child less.** -/
theorem children_parent (h : CutOut s N₄ N₅ N' p parent l₁ l₂) {n' : Node}
    (hn' : N₅ parent = some n') : Chain N' Node.nextSibling n'.childrenHead (l₁ ++ l₂) ∧
      n'.childrenTail = (l₁ ++ l₂).getLast? := by
  obtain ⟨pn, hpn, hl⟩ := h.siblings
  have hparent : ¬ nodeLinks.Below s.nodes parent p := fun hb =>
    h.before.linked.not_below_self p (.head h.childOf hb)
  obtain ⟨m, hm, hm'⟩ := h.spliced.ends
  obtain rfl := Option.some.inj (hpn.symm.trans ((h.left parent hparent).symm.trans hm))
  obtain rfl := Option.some.inj (hn'.symm.trans hm')
  -- No sibling lies below the widget, so the list is there after the erasure.
  have hchain : Chain N₄ Node.nextSibling pn.childrenHead (l₁ ++ p :: l₂) := by
    refine hl.congr fun c hc => ?_
    rw [h.left c (h.before.linked.not_below_sibling (h.mem_siblings_iff.mp hc) h.childOf)]
  obtain ⟨k, hseg, -, b, -, hrest⟩ := segment_append_iff.mp hchain
  have hrest : Chain N₄ Node.nextSibling l₂.head? l₂ := by
    rw [← Chain.head_eq hrest]
    exact hrest
  have hsub : (l₁ ++ l₂).Sublist (l₁ ++ p :: l₂) :=
    List.Sublist.append_left (List.sublist_cons_self p l₂) l₁
  refine ⟨h.chain_freed (h.spliced.chain (hsub.nodup hl.nodup) ?_ hseg hrest) h.notMem, rfl⟩
  exact fun hmem => h.before.notMem_children hpn hl (hsub.subset hmem)

/-- **The other widgets keep their children.** -/
theorem children_other (h : CutOut s N₄ N₅ N' p parent l₁ l₂) {q : Ptr} {n n' : Node}
    {l : List Ptr} (hq : q ≠ parent) (hout : ¬ (q = p ∨ nodeLinks.Below s.nodes q p))
    (hn : s.nodes q = some n) (hn' : N₅ q = some n')
    (hl : Chain s.nodes Node.nextSibling n.childrenHead l) :
    p ∉ l ∧ Chain N' Node.nextSibling n'.childrenHead l ∧ n'.childrenTail = n.childrenTail := by
  have hmem : ∀ c, c ∈ l → nodeLinks.ChildOf s.nodes c q := fun c =>
    (h.before.mem_children_iff hn hl).mp
  have hpl : p ∉ l := fun hp => hq ((hmem p hp).right_unique h.childOf)
  have hsame := h.spliced.map_eq (fun m => (m.childrenHead, m.childrenTail)) q (fun _ _ _ => rfl)
    fun heq => absurd heq hq
  rw [h.left q fun hb => hout (Or.inr hb), hn, hn', Option.map_some, Option.map_some,
    Option.some.injEq, Prod.mk.injEq] at hsame
  rw [hsame.1, hsame.2]
  have hchain : Chain N₄ Node.nextSibling n.childrenHead l := by
    refine hl.congr fun c hc => ?_
    rw [h.left c fun hb => hout (hb.parent_cases (hmem c hc))]
  refine ⟨hpl, h.chain_freed (h.spliced.chain_of_ne hchain (by simp) fun c hc hlast => ?_) hpl, rfl⟩
  -- The last sibling before the widget is a child of `parent`.
  have hsibling := h.mem_siblings_iff.mp (List.mem_append_left _ (List.mem_of_getLast? hlast))
  exact hq ((hmem c hc).right_unique hsibling)

/-- **Cutting a widget out prunes the hierarchy.** -/
theorem pruned (h : CutOut s N₄ N₅ N' p parent l₁ l₂) : Pruned s.nodes N' p where
  dead q hq := by
    rcases hq with rfl | hq
    · rw [h.freed, Function.update_self]
    · exact h.eq_none (h.erased q hq)
  fresh q hq := by
    by_cases hb : nodeLinks.Below s.nodes q p
    · exact h.eq_none (h.erased q hb)
    · exact h.eq_none ((h.left q hb).trans hq)
  kept q n hn hout := by
    obtain ⟨n', hn₅, hn', hid⟩ := h.exists_kept hn hout
    refine ⟨n', hn', hid, fun l hl htail => ?_⟩
    by_cases hq : q = parent
    · subst hq
      obtain ⟨pn, hpn, hl'⟩ := h.siblings
      obtain rfl := Option.some.inj (hn.symm.trans hpn)
      obtain rfl := hl'.unique hl
      rw [h.filter_siblings]
      exact h.children_parent hn₅
    · obtain ⟨hpl, hchain, htail'⟩ := h.children_other hq hout hn hn₅ hl
      rw [List.filter_eq_self.mpr fun c hc => decide_eq_true (ne_of_mem_of_not_mem hc hpl)]
      exact ⟨hchain, htail'.trans htail⟩

end CutOut

/-! ### Destroying a widget -/

/-- The states differ in the widgets, the bindings, the invalidated rectangles and the log only. -/
def OnlyCells (s s' : AppState) : Prop :=
  s' = { s with
    widgets := s'.widgets
    binds := s'.binds
    nextBind := s'.nextBind
    topEventBind := s'.topEventBind
    invalidatedRects := s'.invalidatedRects
    log := s'.log }

theorem OnlyCells.trans {s s₁ s₂ : AppState} (h₁ : OnlyCells s s₁) (h₂ : OnlyCells s₁ s₂) :
    OnlyCells s s₂ := by
  rw [OnlyCells] at *
  rw [h₂, h₁]

theorem OnlyWidgets.onlyCells {s s' : AppState} (h : OnlyWidgets s s') : OnlyCells s s' := by
  rw [OnlyWidgets] at h
  rw [h]
  rfl

theorem OnlyBinds.onlyCells {s s' : AppState} (h : OnlyBinds s s') : OnlyCells s s' := by
  rw [OnlyBinds] at h
  rw [h]
  rfl

/-- What `ei_widget_destroy` does to the hierarchy and to the global variables. -/
structure Destroyed (s s' : AppState) (p : Ptr) : Prop where
  pruned : Pruned s.nodes s'.nodes p
  onlyCells : OnlyCells s s'

namespace Destroyed

variable {s s' : AppState} {p : Ptr}

theorem nextWidget (h : Destroyed s s' p) : s'.nextWidget = s.nextWidget := by
  rw [h.onlyCells]

theorem rootWidget (h : Destroyed s s' p) : s'.rootWidget = s.rootWidget := by
  rw [h.onlyCells]

theorem buttonPressed (h : Destroyed s s' p) : s'.buttonPressed = s.buttonPressed := by
  rw [h.onlyCells]

theorem resizingToplevel (h : Destroyed s s' p) : s'.resizingToplevel = s.resizingToplevel := by
  rw [h.onlyCells]

theorem movingToplevel (h : Destroyed s s' p) : s'.movingToplevel = s.movingToplevel := by
  rw [h.onlyCells]

theorem wellFormed (h : Destroyed s s' p) (hs : WellFormed s) : WellFormed s' :=
  h.pruned.wellFormed hs h.nextWidget h.rootWidget

theorem numbered (h : Destroyed s s' p) (hs : Numbered s) : Numbered s' := by
  have hpick : ∀ q n', s'.nodes q = some n' →
      ∃ n, s.nodes q = some n ∧ n'.pickId = n.pickId ∧ n'.pickColor = n.pickColor := by
    intro q n' hn'
    obtain ⟨-, n, hn, hid⟩ := h.pruned.of_some hn'
    exact ⟨n, hn, congrArg (fun i => i.2.1) hid, congrArg (fun i => i.2.2.1) hid⟩
  have hwid : s'.widId = s.widId := by rw [h.onlyCells]
  refine ⟨by rw [hwid, h.nextWidget, hs.widId], fun q n' hn' => ?_, fun q n' hn' => ?_⟩
  · obtain ⟨n, hn, hi, -⟩ := hpick q n' hn'
    rw [hi, hs.pickId q n hn]
  · obtain ⟨n, hn, hi, hc⟩ := hpick q n' hn'
    rw [hi, hc, hs.pickColor q n hn]

/-- The widgets after a destruction are those outside the subtree. -/
theorem live_iff (h : Destroyed s s' p) (q : Ptr) :
    s'.Live q ↔ s.Live q ∧ ¬ s.InSubtree q p := by
  constructor
  · rintro ⟨n', hn'⟩
    obtain ⟨hout, n, hn, -⟩ := h.pruned.of_some hn'
    exact ⟨⟨n, hn⟩, hout⟩
  · rintro ⟨⟨n, hn⟩, hout⟩
    obtain ⟨n', hn', -⟩ := h.pruned.kept q n hn hout
    exact ⟨n', hn'⟩

end Destroyed

section Destroy

variable {s : AppState} {p : Ptr} {w : Widget} {f : Forest Ptr} {l : List (Ptr × Binding)}

/-- The forest `f` below `p` can be erased: the links of its widgets are in order, whatever the
state of the list that `p` is in. -/
structure Erasable (s : AppState) (p : Ptr) (w : Widget) (f : Forest Ptr) : Prop where
  widget : s.widgets p = some w
  represents : Represents nodeLinks s.nodes p w.childrenHead f
  nodup : f.nodes.Nodup
  length_le : f.nodes.length ≤ s.nextWidget
  window : ∃ window, s.HasWindow window
  rootWidget_notMem : ∀ q ∈ f.nodes, s.rootWidget ≠ some q

theorem WellFormed.erasable (hs : WellFormed s) (hp : s.widgets p = some w)
    (hf : Represents nodeLinks s.nodes p w.childrenHead f) : Erasable s p w f := by
  obtain ⟨r, v, hr, hv, -⟩ := hs.rootWidget_live (AppState.live_iff.mpr ⟨w, hp⟩)
  exact ⟨hp, hf, hf.nodup_nodes hs.linked, hs.length_nodes_le hf, ⟨_, r, v, hr, hv, rfl⟩,
    hs.rootWidget_notMem hf⟩

/-- The destructions of the descendants of `p`. -/
theorem Erasable.destroyBelow_eq (h : Erasable s p w f) {s₁ : AppState}
    (hn₁ : s₁.nodes = s.nodes) (hnext₁ : s₁.nextWidget = s.nextWidget)
    (hroot₁ : s₁.rootWidget = s.rootWidget) {window : Size} (hwin₁ : s₁.HasWindow window) :
    ∃ rects, w.childrenHead.elim (some (callDestructor s₁ w p))
        (eiWidgetDestroyRecurs (callDestructor s₁ w p)) = some (s₁.erase f.nodes
          (destructorLog s.destructors p ++ childrenLog s.destructors f) rects) ∧
      (s₁.erase f.nodes
        (destructorLog s.destructors p ++ childrenLog s.destructors f) rects).HasWindow window := by
  have hd₁ : s₁.destructors = s.destructors := by
    funext q
    rw [AppState.destructors, hn₁, AppState.destructors]
  obtain ⟨w₁, hw₁, hnode⟩ := AppState.nodes_eq_some.mp (hn₁ ▸ AppState.nodes_of_widgets h.widget)
  have hcall : callDestructor s₁ w p =
      s₁.erase [] (destructorLog s.destructors p) s₁.invalidatedRects := by
    have hdestr : w.destructor = w₁.destructor := (congrArg Node.destructor hnode).symm
    rw [callDestructor, hdestr, ← hd₁, ← callDestructor_eq hw₁, callDestructor]
  have hf₁ : Represents nodeLinks s₁.nodes p w.childrenHead f := hn₁ ▸ h.represents
  have hout : ∀ q ∈ f.nodes, s₁.rootWidget ≠ some q := hroot₁ ▸ h.rootWidget_notMem
  have hf₂ : Represents nodeLinks
      (s₁.erase [] (destructorLog s.destructors p) s₁.invalidatedRects).nodes p w.childrenHead f :=
    represents_erase hf₁ (by simp)
  have herases : ErasesSiblings (destroySiblings s.nextWidget) _ _ f :=
    .of_run hf₂ (hwin₁.erase _ _ (by simp)) hout fun s₂ hk hw hr => destroySiblings_eq f
      s.nextWidget hk h.nodup hw hr h.length_le
  obtain ⟨rects, hrun⟩ := destroyChildren_of hf₂ herases
  refine ⟨rects, ?_, hwin₁.erase _ _ hout⟩
  have hfun : (s₁.erase [] (destructorLog s.destructors p) s₁.invalidatedRects).destructors =
      s.destructors := by
    funext q
    rw [AppState.destructors_erase, if_neg List.not_mem_nil, hd₁]
  have hnext : (s₁.erase [] (destructorLog s.destructors p) s₁.invalidatedRects).nextWidget =
      s.nextWidget := hnext₁
  rw [hcall, funext fun q => (by rw [eiWidgetDestroyRecurs, hnext] :
    eiWidgetDestroyRecurs (s₁.erase [] (destructorLog s.destructors p) s₁.invalidatedRects) q =
      destroyRecursWith (destroySiblings s.nextWidget)
        (s₁.erase [] (destructorLog s.destructors p) s₁.invalidatedRects) q), hrun, hfun,
    AppState.erase_erase, List.nil_append]

/-- **`ei_widget_destroy` up to the unlinking** erases the descendants of the widget and deletes
its bindings. -/
theorem Erasable.eiWidgetDestroy_eq (h : Erasable s p w f) (hl : HasBindings s l)
    (hadj : NoAdjacentBindings p l) : ∃ s₄, eiWidgetDestroy s p =
        (w.parent.elim (some s₄) fun parent => unlinkChild s₄ parent p).bind (releaseWidget · p) ∧
      (∀ q, s₄.nodes q = if q ∈ f.nodes then none else s.nodes q) ∧ OnlyCells s s₄ ∧
      (∃ window, s₄.HasWindow window) ∧
      s₄.log = s.log ++ (destructorLog s.destructors p ++ childrenLog s.destructors f) ∧
      HasBindings s₄ (l.filter fun e => e.2.widget ≠ some p) := by
  obtain ⟨window, hwin⟩ := h.window
  have hinv := invalidateLocation_eq hwin h.widget
  obtain ⟨s₁, h₁⟩ : ∃ s₁, invalidateLocation s p = some s₁ := ⟨_, hinv⟩
  have hskel := skeleton_invalidateLocation h₁
  have ho₁ : OnlyCells s s₁ := by
    rw [← Option.some.inj (hinv.symm.trans h₁)]
    rfl
  obtain ⟨s₂, h₂, hl₂, ho₂⟩ := (hl.congr hskel).destroyEventBindedToWidget hadj
  have ho := ho₁.trans ho₂.onlyCells
  have hn₂ : s₂.nodes = s.nodes := by
    rw [← AppState.nodes_eq_of_skeleton hskel, ho₂]
    rfl
  obtain ⟨size, hwin₂⟩ : ∃ size, s₂.HasWindow size := by
    obtain ⟨r, v, hr, hv, -⟩ := hwin
    obtain ⟨v₂, hv₂⟩ := AppState.live_iff.mp ⟨_, hn₂ ▸ AppState.nodes_of_widgets hv⟩
    exact ⟨_, r, v₂, by rw [ho]; exact hr, hv₂, rfl⟩
  obtain ⟨rects, h₃, hwin₄⟩ := h.destroyBelow_eq hn₂ (by rw [ho]) (by rw [ho]) hwin₂
  have ho₄ : OnlyCells s₂ (s₂.erase f.nodes
      (destructorLog s.destructors p ++ childrenLog s.destructors f) rects) := rfl
  refine ⟨_, ?_, fun q => by rw [s₂.nodes_erase, hn₂], ho.trans ho₄, ⟨size, hwin₄⟩, ?_,
    hl₂.of_binds rfl rfl rfl⟩
  · simp only [eiWidgetDestroy, h.widget, h₁, h₂, h₃, Option.bind_eq_bind, Option.bind_some]
  · have hlog : s₂.log = s.log := by
      rw [ho₂]
      exact congrArg Skeleton.log hskel
    rw [← hlog]
    rfl

/-- The part of `ei_widget_destroy` that unlinks the widget from its parent, if it has one. -/
theorem unlinkParent_pruned {window : Size} (hs : WellFormed s) (hp : s.widgets p = some w)
    (hf : Represents nodeLinks s.nodes p w.childrenHead f) {s₄ : AppState}
    (hN₄ : ∀ q, s₄.nodes q = if q ∈ f.nodes then none else s.nodes q)
    (hnext₄ : s₄.nextWidget = s.nextWidget) (hwin : s₄.HasWindow window) :
    ∃ s₅, w.parent.elim (some s₄) (fun parent => unlinkChild s₄ parent p) = some s₅ ∧
      OnlyWidgets s₄ s₅ ∧ (∃ window, s₅.HasWindow window) ∧ s₅.Live p ∧
      Pruned s.nodes (Function.update s₅.nodes p none) p := by
  have hn : s.nodes p = some w.node := AppState.nodes_of_widgets hp
  have hpf : p ∉ f.nodes := fun h => hs.linked.not_below_self p (hf.below p h)
  have hp₄ : s₄.nodes p = some w.node := by rw [hN₄, if_neg hpf, hn]
  cases hpar : w.parent with
  | none =>
    refine ⟨s₄, rfl, .refl s₄, ⟨window, hwin⟩, ⟨_, hp₄⟩, .of_root hs hn hpar fun q => ?_⟩
    by_cases hq : q = p
    · rw [hq, Function.update_self]
    · rw [Function.update_of_ne hq, hN₄]
      split_ifs with hqf
      · rfl
      · refine Option.eq_none_iff_forall_not_mem.mpr fun m hm => ?_
        obtain ⟨r, -, hr, -, -, hqr⟩ := hs.inSubtree_root ⟨m, hm⟩
        obtain rfl : p = r := Option.some.inj ((hs.root p _ hn hpar).symm.trans hr)
        exact hqr.elim hq fun h => hqf ((hf.mem_nodes_iff hs.linked hn q).mpr h)
  | some parent =>
    have hpo : nodeLinks.ChildOf s.nodes p parent := ⟨w.node, hn, hpar⟩
    obtain ⟨pn, hpn⟩ := hs.linked.parent_live p parent hpo
    obtain ⟨c, hc, htail, hmem⟩ := hs.exists_children hpn
    obtain ⟨l₁, l₂, rfl⟩ := List.append_of_mem ((hmem p).mpr hpo)
    have hsib : ∀ q ∈ l₁ ++ p :: l₂, s₄.nodes q = s.nodes q := fun q hq => by
      rw [hN₄, if_neg fun hqf => hs.linked.not_below_sibling ((hmem q).mp hq) hpo
        (hf.below q hqf)]
    have hpn₄ : s₄.nodes parent = some pn := by
      rw [hN₄, if_neg fun hqf => hs.linked.not_below_self p
        (.head hpo (hf.below parent hqf)), hpn]
    obtain ⟨s₅, h₅, hsp, ho₅⟩ := unlinkChild_spliced (s := s₄) hpn₄
      (hc.congr fun q hq => by rw [hsib q hq]) htail
      (fun h => hs.linked.not_below_self parent (.single ((hmem parent).mp h)))
      fun q hq => by
        obtain ⟨m, hm⟩ := hc.live q hq
        exact Nat.lt_of_lt_of_eq (hs.linked.rank_bound q m hm) hnext₄.symm
    have hlive : ∀ q, s₄.Live q → s₅.Live q := fun q hq => by
      rw [AppState.Live, ← Option.isSome_iff_exists] at hq ⊢
      rw [hsp.isSome_eq, hq]
    refine ⟨s₅, h₅, ho₅, ?_, hlive p ⟨_, hp₄⟩,
      (CutOut.of_forest hs hpo hpn hf hn hc hN₄ hsp).pruned⟩
    obtain ⟨r, v, hr, hv, -⟩ := hwin
    obtain ⟨v₅, hv₅⟩ := AppState.live_iff.mp (hlive r (AppState.live_iff.mpr ⟨v, hv⟩))
    exact ⟨_, r, v₅, by rw [ho₅]; exact hr, hv₅, rfl⟩

/-- **What `ei_widget_destroy` does** once the unlinking has cut the widget out of the hierarchy. -/
theorem Erasable.eiWidgetDestroy_of_unlink (s₀ : AppState) (h : Erasable s p w f)
    (hl : HasBindings s l) (hadj : NoAdjacentBindings p l) (ho : OnlyCells s₀ s)
    (hlog : s.log = s₀.log) (hd : s.destructors = s₀.destructors)
    (hunlink : ∀ s₄ : AppState, (∀ q, s₄.nodes q = if q ∈ f.nodes then none else s.nodes q) →
      s₄.nextWidget = s.nextWidget → (∃ window, s₄.HasWindow window) →
      ∃ s₅, w.parent.elim (some s₄) (fun parent => unlinkChild s₄ parent p) = some s₅ ∧
        OnlyWidgets s₄ s₅ ∧ (∃ window, s₅.HasWindow window) ∧ s₅.Live p ∧
        Pruned s₀.nodes (Function.update s₅.nodes p none) p) :
    ∃ s', eiWidgetDestroy s p = some s' ∧ Destroyed s₀ s' p ∧
      s'.log = s₀.log ++ widgetLog s₀.destructors p f ∧
      HasBindings s' (l.filter fun e => e.2.widget ≠ some p) := by
  obtain ⟨s₄, heq, hn₄, ho₄, hwin₄, hlog₄, hl₄⟩ := h.eiWidgetDestroy_eq hl hadj
  obtain ⟨s₅, h₅, ho₅, ⟨window, hwin₅⟩, hp₅, hpruned⟩ := hunlink s₄ hn₄ (by rw [ho₄]) hwin₄
  obtain ⟨w₅, hw₅⟩ := AppState.live_iff.mp hp₅
  obtain ⟨rects, h₆⟩ := releaseWidget_eq hwin₅ hw₅
  have hnodes : (s₅.erase [p] [.release p] rects).nodes = Function.update s₅.nodes p none := by
    funext q
    rw [s₅.nodes_erase, Function.update_apply]
    exact if_congr List.mem_singleton rfl rfl
  refine ⟨s₅.erase [p] [.release p] rects, by rw [heq, h₅, Option.bind_some, h₆],
    ⟨hnodes ▸ hpruned, ((ho.trans ho₄).trans ho₅.onlyCells).trans rfl⟩, ?_, ?_⟩
  · have hlog₅ : s₅.log = s₄.log := by rw [ho₅]
    calc (s₅.erase [p] [.release p] rects).log
        = s₅.log ++ [.release p] := rfl
      _ = s₀.log ++ widgetLog s₀.destructors p f := by
        rw [hlog₅, hlog₄, hlog, hd, widgetLog, List.append_assoc, List.append_assoc]
  · refine hl₄.of_binds ?_ ?_ ?_
    all_goals
      rw [AppState.erase, ho₅]

/-- **What `ei_widget_destroy` does** on a live widget without two neighbouring bindings. -/
theorem eiWidgetDestroy_destroyed (hs : WellFormed s) (hl : HasBindings s l)
    (hp : s.widgets p = some w) (hf : Represents nodeLinks s.nodes p w.childrenHead f)
    (hadj : NoAdjacentBindings p l) :
    ∃ s', eiWidgetDestroy s p = some s' ∧ Destroyed s s' p ∧
      s'.log = s.log ++ widgetLog s.destructors p f ∧
      HasBindings s' (l.filter fun e => e.2.widget ≠ some p) :=
  (hs.erasable hp hf).eiWidgetDestroy_of_unlink s hl hadj rfl rfl rfl fun _ hn hnext hwin =>
    unlinkParent_pruned hs hp hf hn hnext hwin.choose_spec

/-- Two neighbouring bindings of the widget make `ei_widget_destroy` write into a freed record. -/
theorem eiWidgetDestroy_eq_none (hl : HasBindings s l) (hadj : ¬ NoAdjacentBindings p l) :
    eiWidgetDestroy s p = none := by
  rw [eiWidgetDestroy]
  cases hp : s.widgets p with
  | none => rfl
  | some w =>
    rw [Option.bind_eq_bind, Option.bind_some]
    cases h₁ : invalidateLocation s p with
    | none => rfl
    | some s₁ =>
      have hl₁ := hl.congr (skeleton_invalidateLocation h₁)
      simp only [Option.bind_eq_bind, Option.bind_some,
        hl₁.destroyEventBindedToWidget_eq_none hadj, Option.bind_none]

/-- A destruction that completes is one without two neighbouring bindings. -/
theorem eiWidgetDestroy_of_eq_some {s' : AppState} (hs : WellFormed s) (hl : HasBindings s l)
    (h : eiWidgetDestroy s p = some s') :
    NoAdjacentBindings p l ∧ Destroyed s s' p ∧
      HasBindings s' (l.filter fun e => e.2.widget ≠ some p) := by
  by_cases hadj : NoAdjacentBindings p l
  · cases hp : s.widgets p with
    | none => simp [eiWidgetDestroy, hp] at h
    | some w =>
      obtain ⟨f, hf⟩ := hs.exists_forest hp
      obtain ⟨s₁, h₁, hd, -, hl₁⟩ := eiWidgetDestroy_destroyed hs hl hp hf hadj
      obtain rfl := Option.some.inj (h₁.symm.trans h)
      exact ⟨hadj, hd, hl₁⟩
  · simp [eiWidgetDestroy_eq_none hl hadj] at h

end Destroy

end GuiLibrary

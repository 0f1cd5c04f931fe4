import GuiLibrary.Splice

/-!
# Linking a new widget into the tree

Whatever path `ei_widget_create` takes, the new widget enters the children list of its parent at
one place, between two parts of the list, and the hierarchy stays well formed.

## Main definitions

* `Inserted`.

## Main results

* `linkFirst_inserted`, `linkBetween_inserted`, `placeAtTail_inserted`, `insertChild_inserted`: the
  paths of the insertion.
* `Inserted.wellFormed`: the invariant after an insertion.
-/

namespace GuiLibrary

open Cells

/-! ### The paths of the insertion -/

section Paths

variable {s s' : AppState} {p parent wid : Ptr} {pn n : Node} {l : List Ptr}

theorem placeAtTail_inserted (hne : parent ≠ wid) (hp : s.nodes parent = some pn)
    (hw : s.nodes wid = some n) (hl : Chain s.nodes Node.nextSibling pn.childrenHead l)
    (htail : pn.childrenTail = l.getLast?) (hpl : parent ∉ l) (hwl : wid ∉ l)
    (h : placeAtTail s parent wid = some s') :
    Spliced s.nodes s'.nodes parent l (some wid) [] ∧ OnlyWidgets s s' := by
  simp only [placeAtTail, Option.bind_eq_bind, Option.bind_eq_some_iff] at h
  obtain ⟨w, hw₀, s₁, h₁, s₂, h₂, s₃, h₃, h₄⟩ := h
  obtain rfl : w.node = pn := Option.some.inj ((AppState.nodes_of_widgets hw₀).symm.trans hp)
  obtain ⟨n₂, hn₂, hs₂, ho₂⟩ := nodes_modifyWidget
    (g := fun n => n.setChildren n.childrenHead wid) (fun _ => rfl) h₂
  obtain ⟨n₃, hn₃, hs₃, ho₃⟩ := nodes_modifyWidget
    (g := fun n => n.setNextSibling none) (fun _ => rfl) h₃
  obtain ⟨n₄, hn₄, hs₄, ho₄⟩ := nodes_modifyWidget
    (g := fun n => n.setChildren (n.childrenHead.orElse fun _ => some wid) n.childrenTail)
    (fun _ => rfl) h₄
  have hwtail : w.childrenTail = l.getLast? := htail
  rcases List.eq_nil_or_concat l with rfl | ⟨l₀, t, rfl⟩
  · -- The first child.
    rw [hwtail, List.getLast?_nil, Option.elim_none, Option.some.injEq] at h₁
    subst h₁
    have hhead : w.node.childrenHead = none := hl
    obtain rfl := Option.some.inj (hp.symm.trans hn₂)
    rw [hs₂, Function.update_of_ne hne.symm, hw] at hn₃
    obtain rfl := Option.some.inj hn₃
    rw [hs₃, Function.update_of_ne hne, hs₂, Function.update_self] at hn₄
    obtain rfl := Option.some.inj hn₄
    refine ⟨.of_insert ⟨n, hw, ?_⟩ ⟨w.node, hp, ?_⟩ (by simp) fun q hq hqp _ => ?_,
      (ho₂.trans ho₃).trans ho₄⟩
    · rw [hs₄, Function.update_of_ne hne.symm, hs₃, Function.update_self]
      rfl
    · rw [hs₄, Function.update_self, hhead]
      rfl
    · rw [hs₄, Function.update_of_ne hqp, hs₃, Function.update_of_ne hq, hs₂,
        Function.update_of_ne hqp]
  · -- After the last child `t`.
    rw [List.concat_eq_append] at *
    rw [hwtail, List.getLast?_concat, Option.elim_some] at h₁
    obtain ⟨m, hm, hs₁, ho₁⟩ := nodes_modifyWidget
      (g := fun n => n.setNextSibling wid) (fun _ => rfl) h₁
    have htp : t ≠ parent := fun h => hpl (h ▸ by simp)
    have htw : t ≠ wid := fun h => hwl (h ▸ by simp)
    rw [hs₁, Function.update_of_ne htp.symm, hp] at hn₂
    obtain rfl := Option.some.inj hn₂
    rw [hs₂, Function.update_of_ne hne.symm, hs₁, Function.update_of_ne htw.symm, hw] at hn₃
    obtain rfl := Option.some.inj hn₃
    rw [hs₃, Function.update_of_ne hne, hs₂, Function.update_self] at hn₄
    obtain rfl := Option.some.inj hn₄
    have hhead : w.node.childrenHead = (l₀ ++ [t]).head? := hl.head_eq
    refine ⟨.of_insert ⟨n, hw, ?_⟩ ⟨w.node, hp, ?_⟩ (fun q hq => ?_) fun q hq hqp hqt => ?_,
      ((ho₁.trans ho₂).trans ho₃).trans ho₄⟩
    · rw [hs₄, Function.update_of_ne hne.symm, hs₃, Function.update_self]
      rfl
    · rw [hs₄, Function.update_self]
      simp only [hhead, List.append_assoc, List.head?_append, Option.orElse_eq_or,
        List.getLast?_append]
      cases l₀ <;> rfl
    · rw [List.getLast?_concat, Option.some.injEq] at hq
      subst hq
      refine ⟨m, hm, ?_⟩
      rw [hs₄, Function.update_of_ne htp, hs₃, Function.update_of_ne htw, hs₂,
        Function.update_of_ne htp, hs₁, Function.update_self]
    · rw [List.getLast?_concat] at hqt
      have hqt : q ≠ t := fun h => hqt (h ▸ rfl)
      rw [hs₄, Function.update_of_ne hqp, hs₃, Function.update_of_ne hq, hs₂,
        Function.update_of_ne hqp, hs₁, Function.update_of_ne hqt]

/-- The resize button that is found and the sibling before it are neighbours in the list. -/
theorem findResizeButton_split {widgets : Ptr → Option Widget} {q u : Ptr} : (l : List Ptr) →
    (fuel : ℕ) → (c : Ptr) → Chain widgets Widget.nextSibling (some c) (c :: l) →
    findResizeButton widgets fuel c l.head? = some (q, u) →
    ∃ l₁ l₂, c :: l = l₁ ++ q :: u :: l₂
  | [], fuel, c, _, h => by cases fuel <;> simp [findResizeButton] at h
  | d :: l, 0, c, _, h => by simp [findResizeButton] at h
  | d :: l, fuel + 1, c, hl, h => by
      obtain ⟨-, w, hw, hl⟩ := hl
      obtain ⟨hnext, v, hv, hl'⟩ := id hl
      simp only [List.head?_cons, findResizeButton, hw, hv, hnext, Chain.head_eq hl',
        Option.bind_eq_bind, Option.bind_some] at h
      split_ifs at h with hbutton
      · obtain ⟨rfl, rfl⟩ : c = q ∧ d = u := by simpa using h
        exact ⟨[], l, rfl⟩
      · obtain ⟨l₁, l₂, hsplit⟩ := findResizeButton_split l fuel d (hnext ▸ hl) h
        exact ⟨c :: l₁, l₂, by rw [hsplit, List.cons_append]⟩

/-- **Before the only child.** -/
theorem linkFirst_inserted {s₁ : AppState} {head : Ptr} (hne : parent ≠ wid)
    (hp : s.nodes parent = some pn) (hw : s.nodes wid = some n)
    (htail : pn.childrenTail = some head)
    (h₁ : s.modifyWidget parent (·.setChildrenHead wid) = some s₁)
    (h₂ : s₁.modifyWidget wid (·.setNextSibling head) = some s') :
    Spliced s.nodes s'.nodes parent [] (some wid) [head] ∧ OnlyWidgets s s' := by
  obtain ⟨n₁, hn₁, hs₁, ho₁⟩ := nodes_modifyWidget
    (g := fun n => n.setChildren wid n.childrenTail) (fun _ => rfl) h₁
  obtain ⟨n₂, hn₂, hs₂, ho₂⟩ := nodes_modifyWidget
    (g := fun n => n.setNextSibling head) (fun _ => rfl) h₂
  obtain rfl := Option.some.inj (hp.symm.trans hn₁)
  rw [hs₁, Function.update_of_ne hne.symm, hw] at hn₂
  obtain rfl := Option.some.inj hn₂
  refine ⟨.of_insert ⟨n, hw, ?_⟩ ⟨pn, hp, ?_⟩ (by simp) fun q hq hqp _ => ?_, ho₁.trans ho₂⟩
  · rw [hs₂, Function.update_self]
    rfl
  · rw [hs₂, Function.update_of_ne hne, hs₁, Function.update_self, htail]
    rfl
  · rw [hs₂, Function.update_of_ne hq, hs₁, Function.update_of_ne hqp]

/-- **Between the last two children** `q` and `u`. -/
theorem linkBetween_inserted {s₁ : AppState} {l₁ : List Ptr} {q u : Ptr} (hne : parent ≠ wid)
    (hp : s.nodes parent = some pn) (hw : s.nodes wid = some n)
    (hl : Chain s.nodes Node.nextSibling pn.childrenHead (l₁ ++ [q, u]))
    (htail : pn.childrenTail = some u) (hqp : q ≠ parent) (hqw : q ≠ wid)
    (h₁ : s.modifyWidget q (·.setNextSibling wid) = some s₁)
    (h₂ : s₁.modifyWidget wid (·.setNextSibling pn.childrenTail) = some s') :
    Spliced s.nodes s'.nodes parent (l₁ ++ [q]) (some wid) [u] ∧ OnlyWidgets s s' := by
  obtain ⟨n₁, hn₁, hs₁, ho₁⟩ := nodes_modifyWidget
    (g := fun n => n.setNextSibling wid) (fun _ => rfl) h₁
  obtain ⟨n₂, hn₂, hs₂, ho₂⟩ := nodes_modifyWidget
    (g := fun n => n.setNextSibling pn.childrenTail) (fun _ => rfl) h₂
  rw [hs₁, Function.update_of_ne hqw.symm, hw] at hn₂
  obtain rfl := Option.some.inj hn₂
  refine ⟨.of_insert ⟨n, hw, ?_⟩ ⟨pn, hp, ?_⟩ (fun r hr => ?_) fun r hr hrp hrq => ?_,
    ho₁.trans ho₂⟩
  · rw [hs₂, Function.update_self, htail]
    rfl
  · have hfirst : (l₁ ++ [q] ++ wid :: [u]).head? = pn.childrenHead := by
      rw [hl.head_eq]
      cases l₁ <;> rfl
    have hend : (l₁ ++ [q] ++ wid :: [u]).getLast? = pn.childrenTail := by
      rw [htail]
      simp
    rw [hs₂, Function.update_of_ne hne, hs₁, Function.update_of_ne hqp.symm, hp, hfirst, hend]
    rfl
  · rw [List.getLast?_concat, Option.some.injEq] at hr
    subst hr
    exact ⟨n₁, hn₁, by rw [hs₂, Function.update_of_ne hqw, hs₁, Function.update_self]⟩
  · rw [List.getLast?_concat] at hrq
    have hrq : r ≠ q := fun h => hrq (h ▸ rfl)
    rw [hs₂, Function.update_of_ne hr, hs₁, Function.update_of_ne hrq]

theorem insertBeforeLast_inserted {head : Ptr} (hne : parent ≠ wid)
    (hp : s.nodes parent = some pn) (hw : s.nodes wid = some n)
    (hl : Chain s.nodes Node.nextSibling pn.childrenHead l) (hhead : pn.childrenHead = some head)
    (htail : pn.childrenTail = l.getLast?) (hpl : parent ∉ l) (hwl : wid ∉ l)
    (h : insertBeforeLast s parent wid head pn.childrenTail = some s') :
    ∃ l₁ l₂, l = l₁ ++ l₂ ∧ Spliced s.nodes s'.nodes parent l₁ (some wid) l₂ ∧
      OnlyWidgets s s' := by
  simp only [insertBeforeLast, Option.bind_eq_bind, Option.bind_eq_some_iff] at h
  obtain ⟨hw₀, hh, h⟩ := h
  cases l with
  | nil =>
    have : pn.childrenHead = none := hl
    simp [hhead] at this
  | cons c l =>
    obtain rfl : head = c := Option.some.inj (hhead.symm.trans hl.1)
    have hchain : Chain s.widgets Widget.nextSibling (some head) (head :: l) :=
      AppState.chain_nodes_iff.mp (hhead ▸ hl)
    obtain ⟨-, v, hv, hrest⟩ := id hchain
    obtain rfl : hw₀ = v := Option.some.inj (hh.symm.trans hv)
    cases l with
    | nil =>
      have hnext : hw₀.nextSibling = none := hrest
      simp only [hnext, Option.bind_eq_some_iff] at h
      obtain ⟨s₁, h₁, h₂⟩ := h
      exact ⟨[], [head], rfl, linkFirst_inserted hne hp hw htail h₁ h₂⟩
    | cons d l =>
      have hnext : hw₀.nextSibling = some d := hrest.1
      simp only [hnext, Option.bind_eq_some_iff, Prod.exists] at h
      obtain ⟨q, u, hfind, v, hv, h⟩ := h
      obtain ⟨l₁, l₂, hsplit⟩ := findResizeButton_split (d :: l) _ head hchain hfind
      rw [hsplit] at hl htail hpl hwl ⊢
      split_ifs at h with hlast
      · -- The resize button that is found is the last child.
        obtain rfl : l₂ = [] := by
          have hsuffix := AppState.chain_nodes_iff.mp hl
          rw [show l₁ ++ q :: u :: l₂ = (l₁ ++ [q]) ++ u :: l₂ by simp] at hsuffix
          obtain ⟨-, v', hv', hl₂⟩ := hsuffix.suffix
          obtain rfl := Option.some.inj (hv.symm.trans hv')
          exact (Chain.eq_none_iff hl₂).mp hlast.1
        rw [Option.bind_eq_some_iff] at h
        obtain ⟨s₁, h₁, h₂⟩ := h
        exact ⟨l₁ ++ [q], [u], by simp, linkBetween_inserted hne hp hw hl hlast.2
          (fun h => hpl (by simp [h])) (fun h => hwl (by simp [h])) h₁ h₂⟩
      · obtain ⟨hins, ho⟩ := placeAtTail_inserted hne hp hw hl htail hpl hwl h
        exact ⟨_, [], by simp, hins, ho⟩

/-- **The five paths of the insertion** link the new widget at one place of the children list of
its parent. -/
theorem insertChild_inserted (hne : parent ≠ wid) (hp : s.nodes parent = some pn)
    (hw : s.nodes wid = some n) (hl : Chain s.nodes Node.nextSibling pn.childrenHead l)
    (htail : pn.childrenTail = l.getLast?) (hpl : parent ∉ l) (hwl : wid ∉ l)
    (h : insertChild s parent wid = some s') :
    ∃ l₁ l₂, l = l₁ ++ l₂ ∧ Spliced s.nodes s'.nodes parent l₁ (some wid) l₂ ∧
      OnlyWidgets s s' := by
  have hattail : placeAtTail s parent wid = some s' →
      ∃ l₁ l₂, l = l₁ ++ l₂ ∧ Spliced s.nodes s'.nodes parent l₁ (some wid) l₂ ∧
      OnlyWidgets s s' := by
    intro h
    obtain ⟨hins, ho⟩ := placeAtTail_inserted hne hp hw hl htail hpl hwl h
    exact ⟨l, [], by simp, hins, ho⟩
  simp only [insertChild, Option.bind_eq_bind, Option.bind_eq_some_iff] at h
  obtain ⟨w, hw₀, h⟩ := h
  obtain rfl : w.node = pn := Option.some.inj ((AppState.nodes_of_widgets hw₀).symm.trans hp)
  split at h
  · next a head _ hhead =>
    split_ifs at h
    · exact insertBeforeLast_inserted hne hp hw hl hhead htail hpl hwl h
    · exact hattail h
  · exact hattail h

end Paths

/-! ### The invariant -/

theorem AppState.nodes_allocWidget (s : AppState) (w : Widget) :
    (s.allocWidget w).nodes = Function.update s.nodes s.nextWidget (some w.node) := by
  funext q
  by_cases hq : q = s.nextWidget
  · subst hq
    have hw : (s.allocWidget w).widgets s.nextWidget = some w := Function.update_self ..
    rw [Function.update_self, nodes, hw, Option.map_some]
  · have hw : (s.allocWidget w).widgets q = s.widgets q := Function.update_of_ne hq ..
    rw [Function.update_of_ne hq, nodes, hw, nodes]

theorem AppState.nodes_allocWidget_self (s : AppState) (w : Widget) :
    (s.allocWidget w).nodes s.nextWidget = some w.node := by
  rw [s.nodes_allocWidget, Function.update_self]

theorem AppState.nodes_allocWidget_of_ne {s : AppState} {q : Ptr} (hq : q ≠ s.nextWidget)
    (w : Widget) : (s.allocWidget w).nodes q = s.nodes q := by
  rw [s.nodes_allocWidget, Function.update_of_ne hq]

/-- The state `s'` has a new widget `w` without children, which is linked among the children of
`parent`, between the parts `l₁` and `l₂` of their list. -/
structure Inserted (s s' : AppState) (w : Widget) (parent : Ptr) (l₁ l₂ : List Ptr) : Prop where
  before : WellFormed s
  parent_eq : w.parent = some parent
  childrenHead : w.childrenHead = none
  childrenTail : w.childrenTail = none
  siblings : ∃ n, s.nodes parent = some n ∧
    Chain s.nodes Node.nextSibling n.childrenHead (l₁ ++ l₂)
  spliced : Spliced (s.allocWidget w).nodes s'.nodes parent l₁ (some s.nextWidget) l₂
  onlyWidgets : OnlyWidgets (s.allocWidget w) s'

namespace Inserted

variable {s s' : AppState} {w : Widget} {parent : Ptr} {l₁ l₂ : List Ptr}

theorem ne_nextWidget (h : Inserted s s' w parent l₁ l₂) {q : Ptr} {n : Node}
    (hn : s.nodes q = some n) : q ≠ s.nextWidget :=
  Nat.ne_of_lt (h.before.linked.rank_bound q n hn)

theorem live_iff (h : Inserted s s' w parent l₁ l₂) {q : Ptr} (hq : q ≠ s.nextWidget) :
    (∃ n, s'.nodes q = some n) ↔ ∃ n, s.nodes q = some n := by
  rw [← Option.isSome_iff_exists, h.spliced.isSome_eq,
    AppState.nodes_allocWidget_of_ne hq, Option.isSome_iff_exists]

/-- The new widget is a child of `parent`, and the other widgets have their parents. -/
theorem childOf_iff (h : Inserted s s' w parent l₁ l₂) {c p : Ptr} :
    nodeLinks.ChildOf s'.nodes c p ↔
      (c = s.nextWidget ∧ p = parent) ∨ nodeLinks.ChildOf s.nodes c p := by
  rw [h.spliced.childOf_iff]
  by_cases hc : c = s.nextWidget
  · subst hc
    constructor
    · rintro ⟨n, hn, hp⟩
      obtain rfl := Option.some.inj ((s.nodes_allocWidget_self w).symm.trans hn)
      exact Or.inl ⟨rfl, Option.some.inj (hp.symm.trans h.parent_eq)⟩
    · rintro (⟨-, rfl⟩ | ⟨n, hn, -⟩)
      · exact ⟨w.node, s.nodes_allocWidget_self w, h.parent_eq⟩
      · exact absurd rfl (h.ne_nextWidget hn)
  · rw [Links.ChildOf, AppState.nodes_allocWidget_of_ne hc]
    exact ⟨Or.inr, fun hor => hor.resolve_left fun hand => hc hand.1⟩

/-- **The new widget has no child.** -/
theorem children_new (h : Inserted s s' w parent l₁ l₂) {n : Node}
    (hn : s'.nodes s.nextWidget = some n) :
    ∃ l, Chain s'.nodes Node.nextSibling n.childrenHead l ∧ n.childrenTail = l.getLast? ∧
      ∀ c, c ∈ l ↔ nodeLinks.ChildOf s'.nodes c s.nextWidget := by
  obtain ⟨n', hn', hn''⟩ := h.spliced.node _ rfl
  obtain rfl := Option.some.inj ((s.nodes_allocWidget_self w).symm.trans hn')
  obtain rfl := Option.some.inj (hn.symm.trans hn'')
  refine ⟨[], h.childrenHead, h.childrenTail, fun c => ⟨fun h => absurd h List.not_mem_nil, ?_⟩⟩
  intro hc
  rcases h.childOf_iff.mp hc with ⟨-, heq⟩ | hc
  · obtain ⟨pn, hpn, -⟩ := h.siblings
    exact absurd heq.symm (h.ne_nextWidget hpn)
  · obtain ⟨m, hm⟩ := h.before.linked.parent_live _ _ hc
    exact absurd rfl (h.ne_nextWidget hm)

/-- **The parent has one child more**, between the two parts of its list. -/
theorem children_parent (h : Inserted s s' w parent l₁ l₂) {n : Node}
    (hn : s'.nodes parent = some n) :
    ∃ l, Chain s'.nodes Node.nextSibling n.childrenHead l ∧ n.childrenTail = l.getLast? ∧
      ∀ c, c ∈ l ↔ nodeLinks.ChildOf s'.nodes c parent := by
  obtain ⟨pn, hpn, hl⟩ := h.siblings
  have hmem : ∀ c, c ∈ l₁ ++ l₂ ↔ nodeLinks.ChildOf s.nodes c parent := fun c =>
    h.before.mem_children_iff hpn hl
  have hwl := h.before.nextWidget_notMem hl
  have hpl := h.before.notMem_children hpn hl
  obtain ⟨n', hn', hn''⟩ := h.spliced.ends
  obtain rfl := Option.some.inj (hn.symm.trans hn'')
  obtain ⟨k, hseg, hrest⟩ := segment_append_iff.mp
    (s.nodes_allocWidget w ▸ hl.update_of_notMem hwl _)
  rw [Chain.head_eq hrest] at hrest
  refine ⟨l₁ ++ s.nextWidget :: l₂, h.spliced.chain ?_ ?_ hseg hrest, rfl, fun c => ?_⟩
  · exact (List.perm_middle.nodup_iff).mpr (List.nodup_cons.mpr ⟨hwl, hl.nodup⟩)
  · exact fun hin => (List.mem_cons.mp (List.perm_middle.mem_iff.mp hin)).elim
      (h.ne_nextWidget hpn) hpl
  · rw [h.childOf_iff, List.perm_middle.mem_iff, List.mem_cons, hmem]
    simp

/-- **The other children lists** are those of before. -/
theorem children_other (h : Inserted s s' w parent l₁ l₂) {p : Ptr} {n : Node}
    (hpw : p ≠ s.nextWidget) (hpp : p ≠ parent) (hn : s'.nodes p = some n) :
    ∃ l, Chain s'.nodes Node.nextSibling n.childrenHead l ∧ n.childrenTail = l.getLast? ∧
      ∀ c, c ∈ l ↔ nodeLinks.ChildOf s'.nodes c p := by
  obtain ⟨pn, hpn, hl⟩ := h.siblings
  have hmap := fun g hg => h.spliced.map_eq (γ := Option Ptr) g p hg fun heq => absurd heq hpp
  have hh := hmap Node.childrenHead fun _ _ _ => rfl
  have ht := hmap Node.childrenTail fun _ _ _ => rfl
  rw [hn, AppState.nodes_allocWidget_of_ne hpw, Option.map_some] at hh ht
  obtain ⟨n₀, hn₀, hhead⟩ := Option.map_eq_some_iff.mp hh.symm
  rw [hn₀, Option.map_some, Option.some.injEq] at ht
  obtain ⟨l, hl', htail, hmem⟩ := h.before.exists_children hn₀
  -- A widget has one parent, so that the lists of `p` and `parent` have none in common.
  have hdisj : ∀ q ∈ l, s.nextWidget ≠ q ∧ q ∉ l₁ ++ l₂ := fun q hq => by
    obtain ⟨m, hm⟩ := hl'.live q hq
    exact ⟨(h.ne_nextWidget hm).symm, fun hin =>
      hpp (((hmem q).mp hq).right_unique ((h.before.mem_children_iff hpn hl).mp hin))⟩
  refine ⟨l, ?_, by rw [ht, htail], fun c => ?_⟩
  · rw [← hhead]
    refine h.spliced.chain_of_ne (s.nodes_allocWidget w ▸ hl'.update_of_notMem ?_ _)
      (fun q hq heq => (hdisj q hq).1 (Option.some.inj heq)) fun q hq hlast =>
      (hdisj q hq).2 (List.mem_append_left _ (List.mem_of_getLast? hlast))
    exact fun hin => (hdisj _ hin).1 rfl
  · rw [h.childOf_iff, hmem]
    exact ⟨Or.inr, fun hor => hor.resolve_left fun hand => hpp hand.2⟩

/-- **The hierarchy stays well formed.** -/
theorem wellFormed (h : Inserted s s' w parent l₁ l₂) : WellFormed s' := by
  have hs := h.before
  obtain ⟨pn, hpn, -⟩ := h.siblings
  have hnext : s'.nextWidget = s.nextWidget + 1 := by rw [h.onlyWidgets]; rfl
  have hroot : s'.rootWidget = s.rootWidget := by rw [h.onlyWidgets]; rfl
  refine .of_children (fun p n hn => ?_) (fun c p hc => ?_) (fun c p hc => ?_) (fun p n hn => ?_)
    (fun p n hn hp => ?_) fun p hp => ?_
  · by_cases hpw : p = s.nextWidget
    · subst hpw
      exact h.children_new hn
    · by_cases hpp : p = parent
      · subst hpp
        exact h.children_parent hn
      · exact h.children_other hpw hpp hn
  · rcases h.childOf_iff.mp hc with ⟨-, rfl⟩ | hc
    · exact (h.live_iff (h.ne_nextWidget hpn)).mpr ⟨pn, hpn⟩
    · obtain ⟨n, hn⟩ := hs.linked.parent_live c p hc
      exact (h.live_iff (h.ne_nextWidget hn)).mpr ⟨n, hn⟩
  · rcases h.childOf_iff.mp hc with ⟨rfl, rfl⟩ | hc
    · exact hs.linked.rank_bound _ pn hpn
    · exact hs.linked.rank_lt c p hc
  · rw [hnext]
    by_cases hpw : p = s.nextWidget
    · rw [hpw]
      exact Nat.lt_succ_self _
    · obtain ⟨n', hn'⟩ := (h.live_iff hpw).mp ⟨n, hn⟩
      exact Nat.lt_succ_of_lt (hs.linked.rank_bound p n' hn')
  · have hmap := h.spliced.map_eq Node.parent p (fun _ _ _ => rfl) fun _ _ _ _ => rfl
    rw [hn, Option.map_some, hp] at hmap
    obtain ⟨n', hn', hp'⟩ := Option.map_eq_some_iff.mp hmap.symm
    rw [hroot]
    by_cases hpw : p = s.nextWidget
    · subst hpw
      obtain rfl := Option.some.inj ((s.nodes_allocWidget_self w).symm.trans hn')
      exact absurd (hp'.symm.trans h.parent_eq) (by simp)
    · exact hs.root p n' (AppState.nodes_allocWidget_of_ne hpw w ▸ hn') hp'
  · rw [hnext]
    exact Nat.lt_succ_of_lt (hs.rootWidget_lt p (hroot ▸ hp))

end Inserted

end GuiLibrary

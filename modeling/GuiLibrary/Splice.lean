import GuiLibrary.Create

/-!
# Splicing a children list

Linking a new widget into the children of another, and unlinking a child, change few links: both
ends of the list in the parent, the link of the sibling before the place, and the link of the new
widget. `Spliced` says this about two memories of nodes; everything else a proof needs about the
memory after the change follows from it.

## Main definitions

* `OnlyWidgets`, `Spliced`.

## Main results

* `Spliced.map_eq`: what a splice leaves alone.
* `Spliced.chain`, `Spliced.chain_of_ne`: the children lists after a splice.
-/

namespace GuiLibrary

open Cells

/-- The states differ in the widgets only. -/
def OnlyWidgets (s s' : AppState) : Prop := s' = { s with widgets := s'.widgets }

theorem OnlyWidgets.refl (s : AppState) : OnlyWidgets s s := rfl

theorem OnlyWidgets.trans {s s₁ s₂ : AppState} (h₁ : OnlyWidgets s s₁)
    (h₂ : OnlyWidgets s₁ s₂) : OnlyWidgets s s₂ := by
  rw [OnlyWidgets] at *
  rw [h₂, h₁]

namespace Node

/-- Writing the link to the next sibling. -/
def setNextSibling (n : Node) (q : Option Ptr) : Node := { n with nextSibling := q }

/-- Writing both ends of the children list. -/
def setChildren (n : Node) (head tail : Option Ptr) : Node :=
  { n with childrenHead := head, childrenTail := tail }

end Node

/-- Writing links of a widget, as seen on the nodes. -/
theorem nodes_modifyWidget {s s' : AppState} {p : Ptr} {f : Widget → Widget} {g : Node → Node}
    (hfg : ∀ w, (f w).node = g w.node) (h : s.modifyWidget p f = some s') :
    ∃ n, s.nodes p = some n ∧ s'.nodes = Function.update s.nodes p (some (g n)) ∧
      OnlyWidgets s s' := by
  obtain ⟨w, hw, rfl⟩ := Option.map_eq_some_iff.mp h
  exact ⟨w.node, AppState.nodes_of_widgets hw, by rw [AppState.nodes_setWidget, hfg], rfl⟩

/-- The memory `N'` of nodes is `N` with the children list of `parent` replaced: after the part
`l₁` come the new child `m`, if any, and the part `l₂`. -/
structure Spliced (N N' : Ptr → Option Node) (parent : Ptr) (l₁ : List Ptr) (m : Option Ptr)
    (l₂ : List Ptr) : Prop where
  node : ∀ q, m = some q → ∃ n, N q = some n ∧ N' q = some (n.setNextSibling l₂.head?)
  ends : ∃ n, N parent = some n ∧ N' parent = some (n.setChildren
    (l₁ ++ (m.toList ++ l₂)).head? (l₁ ++ (m.toList ++ l₂)).getLast?)
  last : ∀ q, l₁.getLast? = some q →
    ∃ n, N q = some n ∧ N' q = some (n.setNextSibling (m.toList ++ l₂).head?)
  frame : ∀ q, m ≠ some q → q ≠ parent → l₁.getLast? ≠ some q → N' q = N q

namespace Spliced

variable {N N' : Ptr → Option Node} {parent wid : Ptr} {l₁ l₂ : List Ptr} {m : Option Ptr}

/-- The splice that inserts one child. -/
theorem of_insert (node : ∃ n, N wid = some n ∧ N' wid = some (n.setNextSibling l₂.head?))
    (ends : ∃ n, N parent = some n ∧ N' parent = some (n.setChildren
      (l₁ ++ wid :: l₂).head? (l₁ ++ wid :: l₂).getLast?))
    (last : ∀ q, l₁.getLast? = some q →
      ∃ n, N q = some n ∧ N' q = some (n.setNextSibling wid))
    (frame : ∀ q, q ≠ wid → q ≠ parent → l₁.getLast? ≠ some q → N' q = N q) :
    Spliced N N' parent l₁ (some wid) l₂ where
  node := by
    rintro q ⟨⟩
    exact node
  ends := ends
  last := last
  frame q hq := frame q fun h => hq (h ▸ rfl)

/-- What a splice leaves alone. -/
theorem map_eq (h : Spliced N N' parent l₁ m l₂) {γ : Type*} (g : Node → γ) (q : Ptr)
    (hnext : m = some q ∨ l₁.getLast? = some q → ∀ n r, g (n.setNextSibling r) = g n)
    (hends : q = parent → ∀ n hd tl, g (n.setChildren hd tl) = g n) :
    (N' q).map g = (N q).map g := by
  by_cases hm : m = some q
  · obtain ⟨n, hn, hn'⟩ := h.node q hm
    rw [hn, hn', Option.map_some, Option.map_some, hnext (Or.inl hm)]
  · by_cases hlast : l₁.getLast? = some q
    · obtain ⟨n, hn, hn'⟩ := h.last q hlast
      rw [hn, hn', Option.map_some, Option.map_some, hnext (Or.inr hlast)]
    · by_cases hq : q = parent
      · subst hq
        obtain ⟨n, hn, hn'⟩ := h.ends
        rw [hn, hn', Option.map_some, Option.map_some, hends rfl]
      · rw [h.frame q hm hq hlast]

theorem childOf_iff (h : Spliced N N' parent l₁ m l₂) {c p : Ptr} :
    nodeLinks.ChildOf N' c p ↔ nodeLinks.ChildOf N c p := by
  have hmap := h.map_eq Node.parent c (fun _ _ _ => rfl) fun _ _ _ _ => rfl
  have hiff : ∀ M : Ptr → Option Node,
      nodeLinks.ChildOf M c p ↔ (M c).map Node.parent = some (some p) := fun M => by
    rw [Option.map_eq_some_iff]
    rfl
  rw [hiff, hiff, hmap]

theorem isSome_eq (h : Spliced N N' parent l₁ m l₂) (q : Ptr) : (N' q).isSome = (N q).isSome := by
  have := congrArg Option.isSome (h.map_eq (fun _ => ()) q (fun _ _ _ => rfl) fun _ _ _ _ => rfl)
  simpa using this

/-- The new children list of the parent. -/
theorem chain (h : Spliced N N' parent l₁ m l₂) (hnodup : (l₁ ++ (m.toList ++ l₂)).Nodup)
    (hparent : parent ∉ l₁ ++ (m.toList ++ l₂)) {head k : Option Ptr}
    (hl₁ : Segment N Node.nextSibling head l₁ k) (hl₂ : Chain N Node.nextSibling l₂.head? l₂) :
    Chain N' Node.nextSibling (l₁ ++ (m.toList ++ l₂)).head? (l₁ ++ (m.toList ++ l₂)) := by
  obtain ⟨hn₁, hn₂, hdisj⟩ := List.nodup_append.mp hnodup
  -- The links inside the two parts do not change.
  have hkeep : ∀ q ∈ l₁ ++ l₂, l₁.getLast? ≠ some q → (N' q).map Node.nextSibling =
      (N q).map Node.nextSibling := by
    intro q hq hlast
    have hqm : m ≠ some q := by
      rintro rfl
      rw [Option.toList_some, List.singleton_append] at hn₂ hdisj
      rcases List.mem_append.mp hq with hq | hq
      · exact hdisj q hq q List.mem_cons_self rfl
      · exact (List.nodup_cons.mp hn₂).1 hq
    refine h.map_eq _ q (fun hor => ?_) fun _ _ _ _ => rfl
    exact absurd hor (not_or.mpr ⟨hqm, hlast⟩)
  have hrest : Chain N' Node.nextSibling l₂.head? l₂ := by
    refine hl₂.congr fun q hq => hkeep q (List.mem_append_right _ hq) fun hlast => ?_
    exact hdisj q (List.mem_of_getLast? hlast) q (List.mem_append_right _ hq) rfl
  have hmid : Chain N' Node.nextSibling (m.toList ++ l₂).head? (m.toList ++ l₂) := by
    cases m with
    | none => exact hrest
    | some wid =>
      obtain ⟨n, -, hn'⟩ := h.node wid rfl
      exact ⟨rfl, _, hn', hrest⟩
  rcases List.eq_nil_or_concat l₁ with rfl | ⟨l₀, t, rfl⟩
  · exact hmid
  · rw [List.concat_eq_append] at *
    obtain ⟨n, hn, hn'⟩ := h.last t List.getLast?_concat
    obtain ⟨hseg, b, hb, -⟩ := segment_snoc_iff.mp hl₁
    have hhead : (l₀ ++ [t] ++ (m.toList ++ l₂)).head? = head := by
      cases l₀ with
      | nil => exact (show head = some t from hseg).symm
      | cons c l₀ => exact hseg.1.symm
    rw [hhead]
    refine segment_append_iff.mpr ⟨(m.toList ++ l₂).head?, segment_snoc_iff.mpr
      ⟨hseg.congr fun q hq => hkeep q (by simp [hq]) ?_, _, hn', rfl⟩, hmid⟩
    rw [List.getLast?_concat, ne_eq, Option.some.injEq]
    rintro rfl
    rw [List.nodup_append] at hn₁
    exact hn₁.2.2 t hq t (List.mem_singleton_self t) rfl

/-- The children lists that do not meet the splice do not change. -/
theorem chain_of_ne (h : Spliced N N' parent l₁ m l₂) {head : Option Ptr} {l : List Ptr}
    (hl : Chain N Node.nextSibling head l) (hm : ∀ q ∈ l, m ≠ some q)
    (hlast : ∀ q ∈ l, l₁.getLast? ≠ some q) : Chain N' Node.nextSibling head l :=
  hl.congr fun q hq => h.map_eq _ q (fun hor => absurd hor (not_or.mpr ⟨hm q hq, hlast q hq⟩))
    fun _ _ _ _ => rfl

end Spliced

end GuiLibrary

import GuiLibrary.Removal

/-!
# The hierarchy over whole runs

Any sequence of creations and destructions of widgets keeps the hierarchy a tree: the children list
of every widget ends at its tail and lists exactly the widgets whose parent it is. In such a run no
two bindings have the same target, so every destruction completes; it removes the widget and its
descendants, and changes no other children list than that of its parent.

The addresses of the widgets stand for the widgets themselves, as the blocks of a memory model do:
`AppState.allocWidget` gives a new one each time and never reuses that of a released widget. So the
results are about the identities of widgets, not about the numbers that `malloc` returns, and a
child has a larger address than its parent.

## Main definitions

* `TreeStep`, `ListsChildren`.
* `DistinctTargets`, `TreeInvariant`.

## Main results

* `treeInvariant_of_run`: what a run keeps.
* `run_hierarchy`.
-/

namespace GuiLibrary

open Cells

/-! ### The targets of the bindings -/

/-- The targets of the bindings are pairwise distinct and were allocated. -/
structure DistinctTargets (s : AppState) (l : List (Ptr × Binding)) : Prop where
  nodup : (l.filterMap fun e => e.2.widget).Nodup
  lt : ∀ e ∈ l, ∀ p, e.2.widget = some p → p < s.nextWidget

/-- When targets are distinct, no two neighbours have the same one. -/
theorem noAdjacentBindings_of_nodup (p : Ptr) (l : List (Ptr × Binding))
    (h : (l.filterMap fun e => e.2.widget).Nodup) : NoAdjacentBindings p l := by
  induction l with
  | nil => exact .nil
  | cons e l ih =>
    have hl : (l.filterMap fun e => e.2.widget).Nodup :=
      h.sublist ((List.sublist_cons_self e l).filterMap _)
    cases l with
    | nil => exact .singleton e
    | cons e' l =>
      refine List.isChain_cons_cons.mpr ⟨?_, ih hl⟩
      rintro ⟨he, he'⟩
      simp [he, he'] at h

/-- The bindings of a new widget have new targets. -/
theorem targets_createdBindings (c : WidgetClass) (wid : Ptr) :
    ∀ b ∈ createdBindings c wid, ∃ p, b.widget = some p ∧ wid ≤ p ∧
      p < wid + if c = .toplevel then 3 else 1 := by
  cases c with
  | frame => simp [createdBindings]
  | button => simp [createdBindings]
  | toplevel =>
    intro b hb
    simp only [createdBindings, List.mem_cons, List.not_mem_nil, or_false] at hb
    rcases hb with rfl | rfl | rfl
    · exact ⟨wid + 1, rfl, Nat.le_succ wid, by simp⟩
    · exact ⟨wid, rfl, Nat.le_refl wid, by simp⟩
    · exact ⟨wid + 2, rfl, Nat.le_add_right wid 2, by simp⟩

theorem nodup_createdBindings (c : WidgetClass) (wid : Ptr) :
    ((createdBindings c wid).filterMap Binding.widget).Nodup := by
  cases c with
  | frame => exact List.nodup_nil
  | button => exact List.nodup_nil
  | toplevel => simp [createdBindings]

theorem filterMap_snd (l : List (Ptr × Binding)) :
    (l.filterMap fun e => e.2.widget) = (l.map Prod.snd).filterMap Binding.widget := by
  rw [List.filterMap_map]
  rfl

section Create

variable [Hardware] {s s' : AppState} {c : WidgetClass} {parent : Ptr} {d : Option ℕ}
  {l l' : List (Ptr × Binding)}

/-- A new widget keeps the targets distinct. -/
theorem DistinctTargets.create (h : DistinctTargets s l) (hc : Created s s' c parent d)
    (hl' : l'.map Prod.snd = createdBindings c s.nextWidget) : DistinctTargets s' (l ++ l') := by
  have hnew : ∀ e ∈ l', ∃ p, e.2.widget = some p ∧ s.nextWidget ≤ p ∧ p < s'.nextWidget := by
    intro e he
    rw [hc.nextWidget]
    exact targets_createdBindings c s.nextWidget e.2 (hl' ▸ List.mem_map_of_mem he)
  constructor
  · rw [List.filterMap_append, List.nodup_append]
    refine ⟨h.nodup, ?_, ?_⟩
    · rw [filterMap_snd l', hl']
      exact nodup_createdBindings c s.nextWidget
    · rintro p hp q hq rfl
      obtain ⟨e, he, hep⟩ := List.mem_filterMap.mp hp
      obtain ⟨e', he', hep'⟩ := List.mem_filterMap.mp hq
      obtain ⟨p', hp', hle, -⟩ := hnew e' he'
      obtain rfl := Option.some.inj (hep'.symm.trans hp')
      exact Nat.not_lt.mpr hle (h.lt e he p hep)
  · intro e he p hp
    rcases List.mem_append.mp he with he | he
    · exact Nat.lt_of_lt_of_le (h.lt e he p hp) hc.grown.nextWidget_le
    · obtain ⟨q, hq, -, hlt⟩ := hnew e he
      obtain rfl := Option.some.inj (hp.symm.trans hq)
      exact hlt

end Create

/-- A destruction keeps the targets distinct. -/
theorem DistinctTargets.filter {s s' : AppState} {l : List (Ptr × Binding)}
    (h : DistinctTargets s l) (hnext : s'.nextWidget = s.nextWidget) (keep : Ptr × Binding → Bool) :
    DistinctTargets s' (l.filter keep) where
  nodup := h.nodup.sublist ((List.filter_sublist (p := keep)).filterMap _)
  lt e he p hp := hnext ▸ h.lt e (List.mem_of_mem_filter he) p hp

/-! ### The runs -/

section Runs

variable [Hardware]

/-- One call of `ei_widget_create` or `ei_widget_destroy` on live widgets, when it completes. -/
inductive TreeStep : AppState → AppState → Prop
  | create {s s' : AppState} {c : WidgetClass} {parent wid : Ptr} {d : Option ℕ}
      (hparent : s.Live parent) (h : eiWidgetCreate s c (some parent) d = some (s', wid)) :
      TreeStep s s'
  | destroy {s s' : AppState} {p : Ptr} (hp : s.Live p) (h : eiWidgetDestroy s p = some s') :
      TreeStep s s'

/-- What a run of creations and destructions keeps. -/
structure TreeInvariant (s : AppState) : Prop where
  wellFormed : WellFormed s
  numbered : Numbered s
  bindings : ∃ l, HasBindings s l ∧ DistinctTargets s l

theorem treeInvariant_of_started {s : AppState} {size : Size} {pickSurface : Surface}
    (h : Started s size pickSurface) : TreeInvariant s := by
  obtain ⟨l, hl, hmap⟩ := h.bindings
  have hnone : ∀ b ∈ appBindings.map appBinding, b.widget = none := by
    intro b hb
    obtain ⟨a, -, rfl⟩ := List.mem_map.mp hb
    rfl
  refine ⟨h.wellFormed, h.numbered, l, hl, ?_, fun e he p hp => ?_⟩
  · rw [filterMap_snd, hmap, List.filterMap_eq_nil_iff.mpr hnone]
    exact List.nodup_nil
  · rw [hnone e.2 (hmap ▸ List.mem_map_of_mem he)] at hp
    exact absurd hp (by simp)

theorem TreeInvariant.step {s s' : AppState} (hs : TreeInvariant s) (h : TreeStep s s') :
    TreeInvariant s' := by
  obtain ⟨l, hl, ht⟩ := hs.bindings
  cases h with
  | create hparent h =>
    obtain ⟨hc, -⟩ := eiWidgetCreate_created hs.wellFormed hparent h
    obtain ⟨l', hl', hmap⟩ := hc.bindings l hl
    exact ⟨hc.grown.wellFormed, hc.grown.numbered hs.numbered, l ++ l', hl', ht.create hc hmap⟩
  | destroy _ h =>
    obtain ⟨-, hd, hl'⟩ := eiWidgetDestroy_of_eq_some hs.wellFormed hl h
    exact ⟨hd.wellFormed hs.wellFormed, hd.numbered hs.numbered, _, hl',
      ht.filter hd.nextWidget _⟩

/-- **What a run of creations and destructions keeps.** -/
theorem treeInvariant_of_run {size : Size} {rootSurface pickSurface : Surface} {s₀ s : AppState}
    (h₀ : eiAppCreate size rootSurface pickSurface = some s₀)
    (h : Relation.ReflTransGen TreeStep s₀ s) : TreeInvariant s := by
  induction h with
  | refl => exact treeInvariant_of_started (.of_eq h₀)
  | tail _ hstep ih => exact ih.step hstep

end Runs

section Sample

attribute [local instance] sampleHardware

theorem run_sampleToplevel :
    Relation.ReflTransGen TreeStep (sampleApp ⟨640, 480⟩) sampleToplevel :=
  .single (.create (sampleApp_live ⟨640, 480⟩) eiWidgetCreate_sampleToplevel)

theorem sampleToplevel_live : sampleToplevel.Live 1 :=
  Option.isSome_iff_exists.mp (by with_unfolding_all rfl)

theorem isSome_eiWidgetDestroy_toplevel : (eiWidgetDestroy sampleToplevel 1).isSome := by
  with_unfolding_all rfl

/-- The state after the toplevel is destroyed. -/
def sampleDestroyed : AppState :=
  (eiWidgetDestroy sampleToplevel 1).get isSome_eiWidgetDestroy_toplevel

theorem eiWidgetDestroy_sampleToplevel :
    eiWidgetDestroy sampleToplevel 1 = some sampleDestroyed :=
  (Option.some_get _).symm

end Sample

/-! ### The children lists -/

/-- The children list of the widget `w` at `p` is `l`: it ends, it has no repetition, it ends at
the tail, which has no next sibling, both ends are null together, and it lists the live widgets
whose parent is `p`. -/
structure ListsChildren (s : AppState) (p : Ptr) (w : Widget) (l : List Ptr) : Prop where
  chain : Chain s.widgets Widget.nextSibling w.childrenHead l
  nodup : l.Nodup
  tail : w.childrenTail = l.getLast?
  tail_next : ∀ t, w.childrenTail = some t → ∃ v, s.widgets t = some v ∧ v.nextSibling = none
  ends : w.childrenHead = none ↔ w.childrenTail = none
  mem_iff : ∀ c, c ∈ l ↔ ∃ v, s.widgets c = some v ∧ v.parent = some p

theorem childOf_iff_widgets {s : AppState} {c p : Ptr} :
    nodeLinks.ChildOf s.nodes c p ↔ ∃ v, s.widgets c = some v ∧ v.parent = some p := by
  constructor
  · rintro ⟨n, hn, hp⟩
    obtain ⟨v, hv, rfl⟩ := AppState.nodes_eq_some.mp hn
    exact ⟨v, hv, hp⟩
  · rintro ⟨v, hv, hp⟩
    exact ⟨v.node, AppState.nodes_of_widgets hv, hp⟩

/-- In a well-formed hierarchy a chain from the head of a widget is its children list. -/
theorem WellFormed.listsChildren {s : AppState} (hs : WellFormed s) {p : Ptr} {w : Widget}
    {l : List Ptr} (hp : s.widgets p = some w)
    (hl : Chain s.nodes Node.nextSibling w.childrenHead l) : ListsChildren s p w l := by
  obtain ⟨l', hl', htail, hmem⟩ := hs.exists_children (AppState.nodes_of_widgets hp)
  obtain rfl := hl'.unique hl
  have hl := AppState.chain_nodes_iff.mp hl
  refine ⟨hl, hl.nodup, htail, fun t ht => ?_, ?_, fun c => (hmem c).trans childOf_iff_widgets⟩
  · exact hl.next_getLast (htail.symm.trans ht)
  · have htail : w.childrenTail = l'.getLast? := htail
    rw [hl.eq_none_iff, htail, List.getLast?_eq_none_iff]

/-- **The hierarchy is a tree in every reachable state**, and destroying a live widget completes,
removes the widget and its descendants, and only cuts the widget out of the children list of its
parent. -/
theorem run_hierarchy [Hardware] {size : Size} {rootSurface pickSurface : Surface}
    {s₀ s : AppState} (h₀ : eiAppCreate size rootSurface pickSurface = some s₀)
    (h : Relation.ReflTransGen TreeStep s₀ s) :
    (∀ p w, s.widgets p = some w → ∃ l, ListsChildren s p w l) ∧
      ∀ p, s.Live p → ∃ s', eiWidgetDestroy s p = some s' ∧
        (∀ q, s'.Live q ↔ s.Live q ∧ ¬ s.InSubtree q p) ∧
        ∀ q w w' l, s.widgets q = some w → s'.widgets q = some w' → ListsChildren s q w l →
          ListsChildren s' q w' (l.filter (· ≠ p)) := by
  have hinv := treeInvariant_of_run h₀ h
  have hs := hinv.wellFormed
  refine ⟨fun p w hp => ?_, fun p hp => ?_⟩
  · obtain ⟨l, hl, -⟩ := hs.exists_children (AppState.nodes_of_widgets hp)
    exact ⟨l, hs.listsChildren hp hl⟩
  · obtain ⟨w, hw⟩ := AppState.live_iff.mp hp
    obtain ⟨f, hf⟩ := hs.exists_forest hw
    obtain ⟨l, hl, ht⟩ := hinv.bindings
    obtain ⟨s', hs', hd, -⟩ := eiWidgetDestroy_destroyed hs hl hw hf
      (noAdjacentBindings_of_nodup p l ht.nodup)
    refine ⟨s', hs', hd.live_iff, fun q v v' l hv hv' hl => ?_⟩
    have hlive := (hd.live_iff q).mp (AppState.live_iff.mpr ⟨v', hv'⟩)
    obtain ⟨n', hn', -, hchildren⟩ := hd.pruned.kept q v.node (AppState.nodes_of_widgets hv)
      hlive.2
    obtain rfl := Option.some.inj ((AppState.nodes_of_widgets hv').symm.trans hn')
    exact (hd.wellFormed hs).listsChildren hv'
      (hchildren l (AppState.chain_nodes_iff.mpr hl.chain) hl.tail).1

attribute [local instance] sampleHardware in
/-- The hierarchy with one toplevel, its resize button and its quit button. -/
theorem run_hierarchy_toplevel :
    (∀ p w, sampleToplevel.widgets p = some w → ∃ l, ListsChildren sampleToplevel p w l) ∧
      ∀ p, sampleToplevel.Live p → ∃ s', eiWidgetDestroy sampleToplevel p = some s' ∧
        (∀ q, s'.Live q ↔ sampleToplevel.Live q ∧ ¬ sampleToplevel.InSubtree q p) ∧
        ∀ q w w' l, sampleToplevel.widgets q = some w → s'.widgets q = some w' →
          ListsChildren sampleToplevel q w l → ListsChildren s' q w' (l.filter (· ≠ p)) :=
  run_hierarchy (eiAppCreate_sampleApp ⟨640, 480⟩) run_sampleToplevel

end GuiLibrary

import GuiLibrary.Removal

/-!
# Calls of destructors

When `ei_widget_destroy` frees a subtree, the destructors it calls are that of the widget itself
and those of first children: the recursion calls the destructor of the widget at which it enters a
chain of siblings, and releases the later siblings without a call. So every destructor of the
subtree is called, once and before the release, exactly when the other widgets have none.

## Main definitions

* `innerHeads`, `CalledOnce`, `DestructorsCalled`, `FirstChild`.

## Main results

* `calledOnce_widgetLog`, `mem_widgetLog`: the calls in the log of a destruction.
* `destructorsCalled_iff`.
-/

namespace GuiLibrary

open Cells

/-! ### First children -/

/-- The first widgets of the chains of siblings inside a forest, its own chain apart. -/
def innerHeads : Forest Ptr → List Ptr
  | .nil => []
  | .cons _ kids rest => kids.roots.head?.toList ++ innerHeads kids ++ innerHeads rest

theorem head_toList_subset (f : Forest Ptr) : ∀ q ∈ f.roots.head?.toList, q ∈ f.nodes :=
  fun _ hq => roots_head_mem (Option.mem_toList.mp hq)

theorem innerHeads_subset (f : Forest Ptr) : ∀ q ∈ innerHeads f, q ∈ f.nodes := by
  induction f with
  | nil => simp [innerHeads]
  | cons p kids rest ihk ihr =>
    intro q hq
    simp only [innerHeads, List.mem_append] at hq
    simp only [Forest.nodes_cons, List.mem_cons, List.mem_append]
    rcases hq with (hq | hq) | hq
    · exact Or.inr (Or.inl (head_toList_subset kids q hq))
    · exact Or.inr (Or.inl (ihk q hq))
    · exact Or.inr (Or.inr (ihr q hq))

/-- A widget at the top of a forest is not the first of an inner chain. -/
theorem notMem_innerHeads (f : Forest Ptr) (hf : f.nodes.Nodup) :
    ∀ q ∈ f.roots, q ∉ innerHeads f := by
  induction f with
  | nil => simp
  | cons p kids rest _ ihr =>
    rw [Forest.nodes_cons, List.nodup_cons, List.nodup_append, List.mem_append, not_or] at hf
    obtain ⟨⟨hpk, hpr⟩, -, hnr, hdisj⟩ := hf
    intro q hq hmem
    simp only [innerHeads, List.mem_append] at hmem
    have hkids : q ∈ kids.nodes ∨ q ∈ innerHeads rest := by
      rcases hmem with (hmem | hmem) | hmem
      · exact Or.inl (head_toList_subset kids q hmem)
      · exact Or.inl (innerHeads_subset kids q hmem)
      · exact Or.inr hmem
    rcases List.mem_cons.mp hq with rfl | hq
    · exact hkids.elim hpk fun h => hpr (innerHeads_subset rest q h)
    · exact hkids.elim (fun h => hdisj q h q (rest.roots_subset_nodes hq) rfl) (ihr hnr q hq)

/-- The widget is the first child of its parent. -/
def FirstChild (s : AppState) (q : Ptr) : Prop :=
  ∃ o w, s.widgets o = some w ∧ w.childrenHead = some q

/-- In a represented forest the first widgets of the inner chains are first children. -/
theorem mem_innerHeads_iff {s : AppState} {o : Ptr} {h : Option Ptr} {f : Forest Ptr}
    (hf : Represents nodeLinks s.nodes o h f) (q : Ptr) :
    q ∈ innerHeads f ↔ ∃ x ∈ f.nodes, ∃ w, s.widgets x = some w ∧ w.childrenHead = some q := by
  induction f generalizing o h with
  | nil => simp [innerHeads]
  | cons p kids rest ihk ihr =>
    obtain ⟨rfl, n, hn, -, hkids, hrest⟩ := hf
    obtain ⟨w, hw, rfl⟩ := AppState.nodes_eq_some.mp hn
    have hhead : w.childrenHead = kids.roots.head? := hkids.chain_roots.head_eq
    simp only [innerHeads, List.mem_append, ihk hkids, ihr hrest, Option.mem_toList, ← hhead,
      Forest.nodes_cons, List.mem_cons]
    constructor
    · rintro ((hq | ⟨x, hx, hq⟩) | ⟨x, hx, hq⟩)
      · exact ⟨p, Or.inl rfl, w, hw, hq⟩
      · exact ⟨x, Or.inr (Or.inl hx), hq⟩
      · exact ⟨x, Or.inr (Or.inr hx), hq⟩
    · rintro ⟨x, rfl | hx | hx, v, hv, hq⟩
      · obtain rfl := Option.some.inj (hw.symm.trans hv)
        exact Or.inl (Or.inl hq)
      · exact Or.inl (Or.inr ⟨x, hx, v, hv, hq⟩)
      · exact Or.inr ⟨x, hx, v, hv, hq⟩

/-! ### The calls in a log -/

/-- The widget of an entry. -/
def LogEntry.widget : LogEntry → Ptr
  | destructor _ w => w
  | release w => w

/-- The destructor `d` of `q` is called once, no other one is called for `q`, and `q` is released
later and not before. -/
def CalledOnce (d : ℕ) (q : Ptr) (entries : List LogEntry) : Prop :=
  ∃ l₁ l₂, entries = l₁ ++ .destructor d q :: l₂ ∧
    (∀ d', LogEntry.destructor d' q ∉ l₁ ∧ LogEntry.destructor d' q ∉ l₂) ∧
    LogEntry.release q ∉ l₁ ∧ LogEntry.release q ∈ l₂

namespace CalledOnce

variable {d : ℕ} {q : Ptr} {entries entries' : List LogEntry}

theorem append_left (h : CalledOnce d q entries) (hno : ∀ e ∈ entries', e.widget ≠ q) :
    CalledOnce d q (entries' ++ entries) := by
  obtain ⟨l₁, l₂, rfl, hd, h₁, h₂⟩ := h
  refine ⟨entries' ++ l₁, l₂, by simp, fun d' => ⟨fun hmem => ?_, (hd d').2⟩, fun hmem => ?_, h₂⟩
  · exact (List.mem_append.mp hmem).elim (fun h => hno _ h rfl) (hd d').1
  · exact (List.mem_append.mp hmem).elim (fun h => hno _ h rfl) h₁

theorem append_right (h : CalledOnce d q entries)
    (hno : ∀ d', LogEntry.destructor d' q ∉ entries') : CalledOnce d q (entries ++ entries') := by
  obtain ⟨l₁, l₂, rfl, hd, h₁, h₂⟩ := h
  refine ⟨l₁, l₂ ++ entries', by simp, fun d' => ⟨(hd d').1, fun hmem => ?_⟩, h₁,
    List.mem_append_left _ h₂⟩
  exact (List.mem_append.mp hmem).elim (hd d').2 (hno d')

/-- The call comes first. -/
theorem cons (hd : ∀ d', LogEntry.destructor d' q ∉ entries) (h : LogEntry.release q ∈ entries) :
    CalledOnce d q (.destructor d q :: entries) :=
  ⟨[], entries, rfl, fun d' => ⟨List.not_mem_nil, hd d'⟩, List.not_mem_nil, h⟩

end CalledOnce

section Log

variable {destructors : Ptr → Option ℕ} {d : ℕ} {q : Ptr}

theorem mem_destructorLog {p : Ptr} {e : LogEntry} :
    e ∈ destructorLog destructors p ↔ ∃ d, destructors p = some d ∧ e = .destructor d p := by
  simp [destructorLog, eq_comm]

theorem mem_headLog {f : Forest Ptr} {e : LogEntry} :
    e ∈ f.roots.head?.elim [] (destructorLog destructors) ↔
      ∃ r d, r ∈ f.roots.head?.toList ∧ destructors r = some d ∧ e = .destructor d r := by
  cases h : f.roots.head? with
  | none => simp
  | some r => simp [mem_destructorLog]

/-- The entries of the log of a forest are about its widgets. -/
theorem widget_mem_of_mem_siblingsLog (f : Forest Ptr) :
    ∀ e ∈ siblingsLog destructors f, e.widget ∈ f.nodes := by
  induction f with
  | nil => simp [siblingsLog]
  | cons p kids rest ihk ihr =>
    intro e he
    simp only [siblingsLog, List.mem_append, List.mem_cons, mem_headLog] at he
    simp only [Forest.nodes_cons, List.mem_cons, List.mem_append]
    rcases he with (⟨r, d, hr, -, rfl⟩ | he) | rfl | he
    · exact Or.inr (Or.inl (head_toList_subset kids r hr))
    · exact Or.inr (Or.inl (ihk e he))
    · exact Or.inl rfl
    · exact Or.inr (Or.inr (ihr e he))

/-- The destructors called for a forest are those of the first widgets of its inner chains. -/
theorem destructor_mem_siblingsLog (f : Forest Ptr) :
    LogEntry.destructor d q ∈ siblingsLog destructors f ↔
      q ∈ innerHeads f ∧ destructors q = some d := by
  induction f with
  | nil => simp [siblingsLog, innerHeads]
  | cons p kids rest ihk ihr =>
    simp only [siblingsLog, innerHeads, List.mem_append, List.mem_cons, mem_headLog, ihk, ihr,
      LogEntry.destructor.injEq, reduceCtorEq, false_or]
    constructor
    · rintro ((⟨r, d', hr, hd, rfl, rfl⟩ | ⟨hq, hd⟩) | ⟨hq, hd⟩)
      · exact ⟨Or.inl (Or.inl hr), hd⟩
      · exact ⟨Or.inl (Or.inr hq), hd⟩
      · exact ⟨Or.inr hq, hd⟩
    · rintro ⟨(hq | hq) | hq, hd⟩
      · exact Or.inl (Or.inl ⟨q, d, hq, hd, rfl, rfl⟩)
      · exact Or.inl (Or.inr ⟨hq, hd⟩)
      · exact Or.inr ⟨hq, hd⟩

/-- Every widget of the forest is released. -/
theorem release_mem_siblingsLog (f : Forest Ptr) (hq : q ∈ f.nodes) :
    LogEntry.release q ∈ siblingsLog destructors f := by
  induction f with
  | nil => simp at hq
  | cons p kids rest ihk ihr =>
    simp only [siblingsLog, List.mem_append, List.mem_cons]
    rcases List.mem_cons.mp hq with rfl | hq
    · exact Or.inr (Or.inl rfl)
    · rcases List.mem_append.mp hq with hq | hq
      · exact Or.inl (Or.inr (ihk hq))
      · exact Or.inr (Or.inr (ihr hq))

/-- **The destructor of a first child is called once**, before the release. -/
theorem calledOnce_siblingsLog (f : Forest Ptr) (hf : f.nodes.Nodup) (hq : q ∈ innerHeads f)
    (hd : destructors q = some d) : CalledOnce d q (siblingsLog destructors f) := by
  induction f with
  | nil => simp [innerHeads] at hq
  | cons p kids rest ihk ihr =>
    rw [Forest.nodes_cons, List.nodup_cons, List.nodup_append, List.mem_append, not_or] at hf
    obtain ⟨⟨hpk, hpr⟩, hnk, hnr, hdisj⟩ := hf
    have hrest : q ∈ kids.nodes →
        ∀ d', LogEntry.destructor d' q ∉ LogEntry.release p :: siblingsLog destructors rest := by
      intro hk d' hmem
      rcases List.mem_cons.mp hmem with hmem | hmem
      · exact absurd hmem (by simp)
      · exact hdisj q hk q (widget_mem_of_mem_siblingsLog rest _ hmem) rfl
    rw [siblingsLog]
    simp only [innerHeads, List.mem_append] at hq
    rcases hq with (hq | hq) | hq
    · -- The first child of `p`.
      have hhead := Option.mem_toList.mp hq
      have hk := head_toList_subset kids q hq
      have hroot : q ∈ kids.roots := List.mem_of_head? hhead
      rw [hhead, Option.elim_some, destructorLog, hd, Option.map_some, Option.toList_some]
      refine CalledOnce.append_right (.cons (fun d' hmem => ?_) ?_) (hrest hk)
      · exact notMem_innerHeads kids hnk q hroot ((destructor_mem_siblingsLog kids).mp hmem).1
      · exact release_mem_siblingsLog kids hk
    · -- A first child below a child of `p`.
      have hk := innerHeads_subset kids q hq
      refine ((ihk hnk hq).append_left fun e he => ?_).append_right (hrest hk)
      obtain ⟨r, d', hr, -, rfl⟩ := mem_headLog.mp he
      rintro rfl
      exact notMem_innerHeads kids hnk _ (List.mem_of_head? (Option.mem_toList.mp hr)) hq
    · -- A first child below a later sibling.
      have hr := innerHeads_subset rest q hq
      rw [List.append_cons]
      refine (ihr hnr hq).append_left fun e he => ?_
      have hmem : e.widget ∈ kids.nodes ∨ e.widget = p := by
        simp only [List.mem_append, List.mem_singleton, mem_headLog] at he
        rcases he with (⟨r, d', hr, -, rfl⟩ | he) | rfl
        · exact Or.inl (head_toList_subset kids r hr)
        · exact Or.inl (widget_mem_of_mem_siblingsLog kids e he)
        · exact Or.inr rfl
      rintro rfl
      exact hmem.elim (fun h => hdisj _ h _ hr rfl) fun h => hpr (h ▸ hr)

end Log

/-! ### The calls of a destruction -/

/-- The log of a destruction is that of the widget as a chain of one, after its own destructor. -/
theorem widgetLog_eq (destructors : Ptr → Option ℕ) (p : Ptr) (kids : Forest Ptr) :
    widgetLog destructors p kids =
      destructorLog destructors p ++ siblingsLog destructors (.cons p kids .nil) := by
  rw [widgetLog, siblingsLog, siblingsLog, childrenLog, List.append_assoc, List.append_assoc]

/-- The log `s'.log` continues `s.log` with one call for each destructor of the subtree, before the
release of its widget, and with no call for a widget outside of it. -/
def DestructorsCalled (s s' : AppState) (p : Ptr) : Prop :=
  ∃ entries, s'.log = s.log ++ entries ∧
    (∀ q d, s.InSubtree q p → s.destructors q = some d → CalledOnce d q entries) ∧
    ∀ q d, LogEntry.destructor d q ∈ entries → s.InSubtree q p

section Destroy

variable {s : AppState} {p q : Ptr} {w : Widget} {f : Forest Ptr} {d : ℕ}

/-- Below a widget, the widgets that start an inner chain are the first children. -/
theorem mem_innerHeads_single (hs : WellFormed s) (hp : s.widgets p = some w)
    (hf : Represents nodeLinks s.nodes p w.childrenHead f) (hq : s.Below q p) :
    q ∈ innerHeads (.cons p f .nil) ↔ FirstChild s q := by
  have hn := AppState.nodes_of_widgets hp
  simp only [innerHeads, List.append_nil, List.mem_append, Option.mem_toList,
    mem_innerHeads_iff hf q]
  have hhead : w.childrenHead = f.roots.head? := hf.chain_roots.head_eq
  rw [← hhead]
  constructor
  · rintro (hq | ⟨x, -, v, hv, hq⟩)
    · exact ⟨p, w, hp, hq⟩
    · exact ⟨x, v, hv, hq⟩
  · rintro ⟨o, v, hv, ho⟩
    obtain ⟨l, hl, -, hmem⟩ := hs.exists_children (AppState.nodes_of_widgets hv)
    have hqo : nodeLinks.ChildOf s.nodes q o := by
      have hlhead : some q = l.head? := (show v.node.childrenHead = some q from ho) ▸ hl.head_eq
      exact (hmem q).mp (List.mem_of_head? hlhead.symm)
    rcases hq.parent_cases hqo with rfl | hop
    · obtain rfl := Option.some.inj (hp.symm.trans hv)
      exact Or.inl ho
    · exact Or.inr ⟨o, (hf.mem_nodes_iff hs.linked hn o).mpr hop, v, hv, ho⟩

/-- The nodes of a widget with its descendants. -/
theorem mem_subtree_iff (hs : WellFormed s) (hp : s.widgets p = some w)
    (hf : Represents nodeLinks s.nodes p w.childrenHead f) :
    q ∈ (Forest.cons p f .nil).nodes ↔ s.InSubtree q p := by
  rw [Forest.nodes_cons, Forest.nodes_nil, List.append_nil, List.mem_cons,
    hf.mem_nodes_iff hs.linked (AppState.nodes_of_widgets hp)]
  rfl

theorem nodup_subtree (hs : WellFormed s) (hf : Represents nodeLinks s.nodes p w.childrenHead f) :
    (Forest.cons p f .nil).nodes.Nodup := by
  rw [Forest.nodes_cons, Forest.nodes_nil, List.append_nil]
  exact List.nodup_cons.mpr
    ⟨fun h => hs.linked.not_below_self p (hf.below p h), hf.nodup_nodes hs.linked⟩

/-- A call in the log of a destruction is that of the widget or of a first child below it. -/
theorem mem_widgetLog (hs : WellFormed s) (hp : s.widgets p = some w)
    (hf : Represents nodeLinks s.nodes p w.childrenHead f)
    (h : LogEntry.destructor d q ∈ widgetLog s.destructors p f) :
    q = p ∨ s.Below q p ∧ FirstChild s q := by
  rw [widgetLog_eq, List.mem_append, destructor_mem_siblingsLog] at h
  rcases h with h | ⟨h, -⟩
  · obtain ⟨d', -, h⟩ := mem_destructorLog.mp h
    exact Or.inl (LogEntry.destructor.inj h).2
  · rcases (mem_subtree_iff hs hp hf).mp (innerHeads_subset _ q h) with hqp | hq
    · exact Or.inl hqp
    · exact Or.inr ⟨hq, (mem_innerHeads_single hs hp hf hq).mp h⟩

/-- The destructors of the widget and of the first children below it are called once. -/
theorem calledOnce_widgetLog (hs : WellFormed s) (hp : s.widgets p = some w)
    (hf : Represents nodeLinks s.nodes p w.childrenHead f)
    (hq : q = p ∨ s.Below q p ∧ FirstChild s q) (hd : s.destructors q = some d) :
    CalledOnce d q (widgetLog s.destructors p f) := by
  rw [widgetLog_eq]
  rcases hq with rfl | ⟨hq, hfirst⟩
  · rw [destructorLog, hd, Option.map_some, Option.toList_some, List.singleton_append]
    refine .cons (fun d' hmem => ?_) (release_mem_siblingsLog _ List.mem_cons_self)
    exact notMem_innerHeads _ (nodup_subtree hs hf) q List.mem_cons_self
      ((destructor_mem_siblingsLog _).mp hmem).1
  · refine (calledOnce_siblingsLog _ (nodup_subtree hs hf)
      ((mem_innerHeads_single hs hp hf hq).mpr hfirst) hd).append_left fun e he => ?_
    obtain ⟨d', -, rfl⟩ := mem_destructorLog.mp he
    rintro rfl
    exact hs.linked.not_below_self _ hq

/-- **Every destructor of the subtree is called, exactly when** no two neighbouring bindings stop
the destruction, and the widgets below that are not first children have no destructor. -/
theorem destructorsCalled_iff {l : List (Ptr × Binding)} (hs : WellFormed s)
    (hl : HasBindings s l) (hp : s.Live p) :
    (∃ s', eiWidgetDestroy s p = some s' ∧ DestructorsCalled s s' p) ↔
      NoAdjacentBindings p l ∧
        ∀ q, s.Below q p → ¬ FirstChild s q → s.destructors q = none := by
  obtain ⟨w, hw⟩ := AppState.live_iff.mp hp
  obtain ⟨f, hf⟩ := hs.exists_forest hw
  constructor
  · rintro ⟨s', h, entries, hlog, hcalled, -⟩
    obtain ⟨hadj, -⟩ := eiWidgetDestroy_of_eq_some hs hl h
    obtain ⟨s₁, h₁, -, hlog₁, -⟩ := eiWidgetDestroy_destroyed hs hl hw hf hadj
    obtain rfl := Option.some.inj (h₁.symm.trans h)
    obtain rfl := List.append_cancel_left (hlog₁.symm.trans hlog)
    refine ⟨hadj, fun q hq hfirst => Option.eq_none_iff_forall_not_mem.mpr fun d hd => ?_⟩
    obtain ⟨l₁, l₂, heq, -⟩ := hcalled q d (Or.inr hq) hd
    have hmem : LogEntry.destructor d q ∈ widgetLog s.destructors p f := by
      rw [heq]
      exact List.mem_append_right _ List.mem_cons_self
    rcases mem_widgetLog hs hw hf hmem with rfl | ⟨-, h⟩
    · exact hs.linked.not_below_self _ hq
    · exact hfirst h
  · rintro ⟨hadj, hnone⟩
    obtain ⟨s', h, -, hlog, -⟩ := eiWidgetDestroy_destroyed hs hl hw hf hadj
    refine ⟨s', h, _, hlog, fun q d hq hd => calledOnce_widgetLog hs hw hf ?_ hd,
      fun q d hmem => ?_⟩
    · refine hq.imp_right fun hq => ⟨hq, ?_⟩
      by_contra hfirst
      simp [hnone q hq hfirst] at hd
    · exact (mem_widgetLog hs hw hf hmem).imp_right And.left

end Destroy

section Sample

attribute [local instance] sampleHardware

/-- Two frames in a frame with a destructor, the first one with a destructor. -/
def createFirstChild : Option AppState := do
  let (s, outer) ← eiWidgetCreate (sampleApp ⟨640, 480⟩) .frame (some 0) (some 6)
  let (s, _) ← eiWidgetCreate s .frame (some outer) (some 7)
  let (s, _) ← eiWidgetCreate s .frame (some outer) none
  some s

theorem isSome_createFirstChild : createFirstChild.isSome := rfl

/-- The state after `createFirstChild`: the outer frame is at address 1, its children are at the
addresses 2 and 3. -/
def sampleFirstChild : AppState := createFirstChild.get isSome_createFirstChild

/-- A new frame is bound to nothing. -/
theorem frameCreated_bindings {s s' : AppState} {parent wid : Ptr} {d : Option ℕ}
    {bs : List Binding} (hs : WellFormed s ∧ ∃ l, HasBindings s l ∧ l.map Prod.snd = bs)
    (hparent : s.Live parent)
    (h : eiWidgetCreate s .frame (some parent) d = some (s', wid)) :
    (WellFormed s' ∧ ∃ l, HasBindings s' l ∧ l.map Prod.snd = bs) ∧ s'.Live wid := by
  obtain ⟨hs, l, hl, rfl⟩ := hs
  obtain ⟨hc, rfl⟩ := eiWidgetCreate_created hs hparent h
  obtain ⟨l', hl', hmap⟩ := hc.bindings l hl
  obtain ⟨n, hn, -⟩ := hc.node
  refine ⟨⟨hc.grown.wellFormed, _, hl', ?_⟩, n, hn⟩
  rw [List.map_append, hmap, createdBindings, List.append_nil]

theorem sampleFirstChild_invariant : WellFormed sampleFirstChild ∧
    ∃ l, HasBindings sampleFirstChild l ∧ l.map Prod.snd = appBindings.map appBinding := by
  have h : createFirstChild = some sampleFirstChild := (Option.some_get _).symm
  simp only [createFirstChild, Option.bind_eq_bind, Option.bind_eq_some_iff, Prod.exists,
    Option.some.injEq] at h
  obtain ⟨s₁, outer, h₁, s₂, _, h₂, s₃, _, h₃, rfl⟩ := h
  have hstart := sampleApp_started ⟨640, 480⟩
  obtain ⟨hs₁, hlive₁⟩ := frameCreated_bindings ⟨hstart.wellFormed, hstart.bindings⟩
    (sampleApp_live ⟨640, 480⟩) h₁
  obtain ⟨hs₂, -⟩ := frameCreated_bindings hs₁ hlive₁ h₂
  have hlive₂ : s₂.Live outer := by
    obtain ⟨hc, -⟩ := eiWidgetCreate_created hs₁.1 hlive₁ h₂
    obtain ⟨n, hn⟩ := hlive₁
    obtain ⟨n', hn', -⟩ := hc.grown.kept outer n hn
    exact ⟨n', hn'⟩
  exact (frameCreated_bindings hs₂ hlive₂ h₃).1

/-- The widgets below the outer frame are its first child and a frame without a destructor. -/
theorem sampleFirstChild_below {q : Ptr} (hq : sampleFirstChild.Below q 1) :
    FirstChild sampleFirstChild q ∨ sampleFirstChild.destructors q = none := by
  have hs := sampleFirstChild_invariant.1
  have hlive : sampleFirstChild.Live q := by
    obtain ⟨o, hqo, -⟩ := Relation.TransGen.head'_iff.mp hq
    obtain ⟨n, hn, -⟩ := hqo
    exact ⟨n, hn⟩
  have hnext : sampleFirstChild.nextWidget = 4 := rfl
  have hlt : q < 4 := hnext ▸ hs.lt_nextWidget hlive
  have hrank : 1 < q := hs.linked.rank_lt_of_below hq
  have hcases : ∀ n : ℕ, 1 < n → n < 4 → n = 2 ∨ n = 3 := by omega
  obtain rfl | rfl := hcases q hrank hlt
  · have hhead : (sampleFirstChild.widgets 1).map Widget.childrenHead = some (some 2) := rfl
    obtain ⟨w, hw, hchild⟩ := Option.map_eq_some_iff.mp hhead
    exact Or.inl ⟨1, w, hw, hchild⟩
  · exact Or.inr rfl

/-- The destructors of the outer frame and of its first child are called. -/
theorem destructorsCalled_iff_firstChild : sampleFirstChild.destructors 1 = some 6 ∧
    sampleFirstChild.destructors 2 = some 7 ∧
    ∃ s', eiWidgetDestroy sampleFirstChild 1 = some s' ∧
      DestructorsCalled sampleFirstChild s' 1 := by
  have hlive : (sampleFirstChild.nodes 1).isSome := rfl
  obtain ⟨hs, l, hl, hmap⟩ := sampleFirstChild_invariant
  refine ⟨rfl, rfl, (destructorsCalled_iff hs hl (Option.isSome_iff_exists.mp hlive)).mpr
    ⟨?_, fun q hq hfirst => (sampleFirstChild_below hq).resolve_left hfirst⟩⟩
  rw [noAdjacentBindings_iff, hmap]
  decide

/-- Two frames in a frame, the second one with a destructor. -/
def createSiblings : Option AppState := do
  let (s, outer) ← eiWidgetCreate (sampleApp ⟨640, 480⟩) .frame (some 0) none
  let (s, _) ← eiWidgetCreate s .frame (some outer) none
  let (s, _) ← eiWidgetCreate s .frame (some outer) (some 7)
  some s

theorem isSome_createSiblings : createSiblings.isSome := rfl

/-- The state after `createSiblings`: the outer frame is at address 1. -/
def sampleSiblings : AppState := createSiblings.get isSome_createSiblings

/-- The destructor of the second frame is not called when the outer frame is destroyed. -/
theorem sampleSiblings_destructor_missed : sampleSiblings.Live 1 ∧
    ¬ ∃ s', eiWidgetDestroy sampleSiblings 1 = some s' ∧
      DestructorsCalled sampleSiblings s' 1 := by
  have hlive : (sampleSiblings.nodes 1).isSome := rfl
  have hchild : (sampleSiblings.nodes 3).map Node.parent = some (some 1) := rfl
  have hdestructor : sampleSiblings.destructors 3 = some 7 := rfl
  have hlog : (eiWidgetDestroy sampleSiblings 1).map AppState.log =
      some (sampleSiblings.log ++ [.release 2, .release 3, .release 1]) := rfl
  refine ⟨Option.isSome_iff_exists.mp hlive, ?_⟩
  rintro ⟨s', hs', entries, hentries, hcalled, -⟩
  rw [hs', Option.map_some, Option.some.injEq, hentries] at hlog
  obtain rfl := List.append_cancel_left hlog
  obtain ⟨n, hn, hp⟩ := Option.map_eq_some_iff.mp hchild
  obtain ⟨l₁, l₂, heq, -⟩ := hcalled 3 7 (Or.inr (.single ⟨n, hn, hp⟩)) hdestructor
  have hmem : LogEntry.destructor 7 3 ∈ [LogEntry.release 2, .release 3, .release 1] := by
    rw [heq]
    exact List.mem_append_right _ List.mem_cons_self
  simp at hmem

end Sample

end GuiLibrary

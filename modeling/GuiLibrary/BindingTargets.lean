import GuiLibrary.Hierarchy

/-!
# The targets of the bindings over whole runs

`ei_widget_destroy` deletes the bindings of the widget it is called on, and
`ei_widget_destroy_recurs` deletes none: a binding of a descendant keeps its target, which is freed.
The two hidden buttons of a toplevel are bound, so destroying a toplevel leaves two such bindings.
Every target stays alive in the runs that only destroy widgets without bound descendants.

## Main definitions

* `BindStep`, `TargetsLive`, `Unbound`.

## Main results

* `targetsLive_of_run`.
-/

namespace GuiLibrary

open Cells

/-- Every binding with a widget target targets a live widget. -/
def TargetsLive (s : AppState) : Prop :=
  ∀ l, HasBindings s l → ∀ e ∈ l, ∀ p, e.2.widget = some p → s.Live p

/-- The widget can be destroyed: no two neighbouring bindings are bound to it, and none is bound
to a descendant of it. -/
def Unbound (s : AppState) (p : Ptr) : Prop :=
  ∀ l, HasBindings s l → NoAdjacentBindings p l ∧
    ∀ e ∈ l, ∀ q, e.2.widget = some q → ¬ s.Below q p

section Runs

variable [Hardware] {s s' : AppState} {l : List (Ptr × Binding)}

/-- One call of `ei_widget_create`, `ei_bind`, `ei_unbind` or `ei_widget_destroy` on live widgets,
when it completes; destructions are those that `may` allows. -/
inductive BindStep (may : AppState → Ptr → Prop) : AppState → AppState → Prop
  | create {s s' : AppState} {c : WidgetClass} {parent wid : Ptr} {d : Option ℕ}
      (hparent : s.Live parent) (h : eiWidgetCreate s c (some parent) d = some (s', wid)) :
      BindStep may s s'
  | bind {s s' : AppState} {eventtype : EventType} {widget : Option Ptr} {tag : Option Tag}
      {callback : Callback} {userParam : Option ℕ} (hlive : ∀ p, widget = some p → s.Live p)
      (h : eiBind s eventtype widget tag callback userParam = some s') : BindStep may s s'
  | unbind {s s' : AppState} {eventtype : EventType} {widget : Option Ptr} {tag : Option Tag}
      {callback : Callback} {userParam : Option ℕ}
      (h : eiUnbind s eventtype widget tag callback userParam = some s') : BindStep may s s'
  | destroy {s s' : AppState} {p : Ptr} (hp : s.Live p) (hmay : may s p)
      (h : eiWidgetDestroy s p = some s') : BindStep may s s'

omit [Hardware] in
theorem targetsLive_iff (hl : HasBindings s l) :
    TargetsLive s ↔ ∀ e ∈ l, ∀ p, e.2.widget = some p → s.Live p := by
  refine ⟨fun h => h l hl, fun h l' hl' => ?_⟩
  obtain rfl := hl.unique hl'
  exact h

omit [Hardware] in
theorem unbound_iff (hl : HasBindings s l) {p : Ptr} :
    Unbound s p ↔ NoAdjacentBindings p l ∧
      ∀ e ∈ l, ∀ q, e.2.widget = some q → ¬ s.Below q p := by
  refine ⟨fun h => h l hl, fun h l' hl' => ?_⟩
  obtain rfl := hl.unique hl'
  exact h

omit [Hardware] in
/-- Growing keeps targets alive. -/
theorem Grown.live (h : Grown s s') {p : Ptr} (hp : s.Live p) : s'.Live p := by
  obtain ⟨n, hn⟩ := hp
  obtain ⟨n', hn', -⟩ := h.kept p n hn
  exact ⟨n', hn'⟩

/-- The new bindings of a new widget have live targets. -/
theorem live_of_createdBindings {c : WidgetClass} {parent : Ptr} {d : Option ℕ}
    (h : Created s s' c parent d) :
    ∀ b ∈ createdBindings c s.nextWidget, ∀ p, b.widget = some p → s'.Live p := by
  cases c with
  | frame => simp [createdBindings]
  | button => simp [createdBindings]
  | toplevel =>
    obtain ⟨⟨m, hm, -⟩, q, hq, -⟩ := h.hidden rfl
    obtain ⟨n, hn, -⟩ := h.node
    intro b hb p hp
    simp only [createdBindings, List.mem_cons, List.not_mem_nil, or_false] at hb
    rcases hb with rfl | rfl | rfl
    · exact Option.some.inj hp ▸ ⟨m, hm⟩
    · exact Option.some.inj hp ▸ ⟨n, hn⟩
    · exact Option.some.inj hp ▸ ⟨q, hq⟩

omit [Hardware] in
/-- **A destruction keeps every target alive exactly when** the widget is unbound below. -/
theorem destroy_targetsLive_iff (hs : WellFormed s) (hl : HasBindings s l) (ht : TargetsLive s)
    {p : Ptr} (hp : s.Live p) :
    (∃ s', eiWidgetDestroy s p = some s' ∧ TargetsLive s') ↔ Unbound s p := by
  rw [unbound_iff hl]
  have hkept : ∀ s', Destroyed s s' p →
      HasBindings s' (l.filter fun e => e.2.widget ≠ some p) →
      (TargetsLive s' ↔ ∀ e ∈ l, ∀ q, e.2.widget = some q → ¬ s.Below q p) := by
    intro s' hd hl'
    rw [targetsLive_iff hl']
    simp only [List.mem_filter, decide_eq_true_eq, hd.live_iff]
    constructor
    · intro h e he q hq hb
      have hqp : q ≠ p := by
        rintro rfl
        exact hs.linked.not_below_self _ hb
      exact (h e ⟨he, fun h => hqp (Option.some.inj (hq.symm.trans h))⟩ q hq).2 (Or.inr hb)
    · rintro h e ⟨he, hne⟩ q hq
      refine ⟨ht l hl e he q hq, ?_⟩
      rintro (rfl | hb)
      · exact hne hq
      · exact h e he q hq hb
  constructor
  · rintro ⟨s', h, hlive⟩
    obtain ⟨hadj, hd, hl'⟩ := eiWidgetDestroy_of_eq_some hs hl h
    exact ⟨hadj, (hkept s' hd hl').mp hlive⟩
  · rintro ⟨hadj, hbelow⟩
    obtain ⟨w, hw⟩ := AppState.live_iff.mp hp
    obtain ⟨f, hf⟩ := hs.exists_forest hw
    obtain ⟨s', h, hd, -, hl'⟩ := eiWidgetDestroy_destroyed hs hl hw hf hadj
    exact ⟨s', h, (hkept s' hd hl').mpr hbelow⟩

/-- What the runs keep. -/
structure BindInvariant (s : AppState) : Prop where
  wellFormed : WellFormed s
  bindings : ∃ l, HasBindings s l

/-- **A step keeps every target alive**, when a destruction is one of an unbound widget. -/
theorem BindInvariant.step (hs : BindInvariant s) (ht : TargetsLive s)
    (h : BindStep Unbound s s') : BindInvariant s' ∧ TargetsLive s' := by
  obtain ⟨hw, l, hl⟩ := hs
  cases h with
  | create hparent h =>
    obtain ⟨hc, -⟩ := eiWidgetCreate_created hw hparent h
    obtain ⟨l', hl', hmap⟩ := hc.bindings l hl
    refine ⟨⟨hc.grown.wellFormed, l ++ l', hl'⟩, (targetsLive_iff hl').mpr fun e he p hp => ?_⟩
    rcases List.mem_append.mp he with he | he
    · exact hc.grown.live (ht l hl e he p hp)
    · exact live_of_createdBindings hc e.2 (hmap ▸ List.mem_map_of_mem he) p hp
  | @bind eventtype widget tag callback userParam hlive h =>
    by_cases hvalid : widget.isSome = tag.isSome
    · obtain rfl : s = s' := by
        cases widget <;> cases tag <;> simp [eiBind] at hvalid h <;> exact h
      exact ⟨⟨hw, l, hl⟩, ht⟩
    · obtain ⟨s₁, h₁, hl', ho⟩ := hl.eiBind eventtype widget tag callback userParam hvalid
      obtain rfl := Option.some.inj (h₁.symm.trans h)
      refine ⟨⟨hw.of_onlyBinds ho, _, hl'⟩, (targetsLive_iff hl').mpr fun e he p hp => ?_⟩
      rw [live_of_onlyBinds ho]
      rcases List.mem_append.mp he with he | he
      · exact ht l hl e he p hp
      · obtain rfl := List.mem_singleton.mp he
        exact hlive p hp
  | @unbind eventtype widget tag callback userParam h =>
    obtain ⟨s₁, h₁, hl', ho⟩ := hl.eiUnbind eventtype widget tag callback userParam
    obtain rfl := Option.some.inj (h₁.symm.trans h)
    refine ⟨⟨hw.of_onlyBinds ho, _, hl'⟩, (targetsLive_iff hl').mpr fun e he p hp => ?_⟩
    rw [live_of_onlyBinds ho]
    exact ht l hl e (List.mem_of_mem_eraseP he) p hp
  | destroy hp hmay h =>
    obtain ⟨-, hd, hl'⟩ := eiWidgetDestroy_of_eq_some hw hl h
    obtain ⟨s₁, h₁, ht'⟩ := (destroy_targetsLive_iff hw hl ht hp).mpr hmay
    obtain rfl := Option.some.inj (h₁.symm.trans h)
    exact ⟨⟨hd.wellFormed hw, _, hl'⟩, ht'⟩

/-- **No binding dangles in a run whose destructions are those of unbound widgets**, and in each
state of such a run the destruction of a live widget leaves no dangling binding exactly when the
widget is unbound. -/
theorem targetsLive_of_run {size : Size} {rootSurface pickSurface : Surface} {s₀ s : AppState}
    (h₀ : eiAppCreate size rootSurface pickSurface = some s₀)
    (h : Relation.ReflTransGen (BindStep Unbound) s₀ s) :
    TargetsLive s ∧
      ∀ p, s.Live p → ((∃ s', eiWidgetDestroy s p = some s' ∧ TargetsLive s') ↔ Unbound s p) := by
  have hinv : BindInvariant s ∧ TargetsLive s := by
    induction h with
    | refl =>
      have hstart : Started s₀ size pickSurface := .of_eq h₀
      obtain ⟨l, hl, hmap⟩ := hstart.bindings
      refine ⟨⟨hstart.wellFormed, l, hl⟩, (targetsLive_iff hl).mpr fun e he p hp => ?_⟩
      obtain ⟨b, -, hb⟩ := List.mem_map.mp (hmap ▸ List.mem_map_of_mem he)
      rw [← hb] at hp
      exact absurd hp (by simp [appBinding])
    | tail _ hstep ih => exact ih.1.step ih.2 hstep
  obtain ⟨⟨hs, l, hl⟩, ht⟩ := hinv
  exact ⟨ht, fun p hp => destroy_targetsLive_iff hs hl ht hp⟩

end Runs

section Sample

attribute [local instance] sampleHardware

/-- A run that creates a toplevel. -/
theorem targetsLive_of_run_toplevel : TargetsLive sampleToplevel ∧
    ∀ p, sampleToplevel.Live p →
      ((∃ s', eiWidgetDestroy sampleToplevel p = some s' ∧ TargetsLive s') ↔
        Unbound sampleToplevel p) :=
  targetsLive_of_run (eiAppCreate_sampleApp ⟨640, 480⟩)
    (.single (.create (sampleApp_live ⟨640, 480⟩) eiWidgetCreate_sampleToplevel))

/-- Creating a toplevel and destroying it leaves a binding to its resize button. -/
theorem sampleDestroyed_dangles :
    Relation.ReflTransGen (BindStep fun _ _ => True) (sampleApp ⟨640, 480⟩) sampleDestroyed ∧
      ¬ TargetsLive sampleDestroyed := by
  have hstep : BindStep (fun _ _ => True) (sampleApp ⟨640, 480⟩) sampleToplevel :=
    .create (sampleApp_live ⟨640, 480⟩) eiWidgetCreate_sampleToplevel
  refine ⟨(Relation.ReflTransGen.single hstep).tail (.destroy sampleToplevel_live trivial
    eiWidgetDestroy_sampleToplevel), ?_⟩
  intro ht
  have hs := treeInvariant_of_run (eiAppCreate_sampleApp ⟨640, 480⟩) run_sampleToplevel
  obtain ⟨l, hl, -⟩ := hs.bindings
  obtain ⟨-, -, hl'⟩ := eiWidgetDestroy_of_eq_some hs.wellFormed hl
    eiWidgetDestroy_sampleToplevel
  have hbound : some 2 ∈ (listBinds sampleDestroyed.binds sampleDestroyed.nextBind
      sampleDestroyed.topEventBind).map fun e => e.2.widget := by decide +kernel
  rw [hl'.listBinds_eq _ hl'.length_le] at hbound
  obtain ⟨e, he, htarget⟩ := List.mem_map.mp hbound
  obtain ⟨n, hn⟩ := ht _ hl' e he 2 htarget
  have hdead : sampleDestroyed.nodes 2 = none := by with_unfolding_all rfl
  simp [hdead] at hn

end Sample

end GuiLibrary

import GuiLibrary.Rounds

/-!
# What the callbacks are given

The body of the loop over the bindings finds out which widget an event is about: the one that the
binding is bound to, or the one that it searches for a tag. It calls the callback with the widget
of the binding in all cases, which is a null pointer for a binding to a tag: the widget that has
been found is only compared with null. A callback gets the widget that the event is about exactly
when it is bound to a widget, and this widget is still in the tree.

The handlers that `ei_app_create` binds to tags do not read their argument, and those that do are
bound to the widgets of a toplevel.

## Main definitions

* `Invocation`, `Visit.invocation`, `invocations`.
* `InTree`, `IsTarget`, `Invocation.GetsTarget`.
* `Binding.toCallback`.

## Main results

* `outcome_eq_of_mem_visits`: an invocation is what a visit runs.
* `getsTarget_iff`.
* `toCallback_isTarget`: the widget that the loop has found is the right one.
* `getsTarget_of_widgets`: rounds without bindings to tags.
-/

namespace GuiLibrary

open Cells

/-! ### The arguments of the calls -/

/-- A call of the callback of a binding, with the widget that it gets. -/
structure Invocation where
  before : AppState
  binding : Binding
  argument : Option Ptr

/-- The call that the body of the loop makes when the binding applies. On all paths its first
argument is `current_bind->widget`. -/
def Visit.invocation (event : Event) (v : Visit) : Option Invocation := do
  let b ← v.before.binds v.bind
  if b.eventtype = event.type ∧ b.toBinding.applies v.before event = some true then
    some ⟨v.before, b.toBinding, b.widget⟩
  else none

section Invocations

variable (user : ℕ → UserCallback)

/-- The calls of the callbacks in one round of the main loop. -/
def invocations (fuel : ℕ) (s : AppState) (event : Event) : List Invocation :=
  (visits user fuel s event s.topEventBind).filterMap (Visit.invocation event)

variable {user} {event : Event} {v : Visit} {c : Invocation}

theorem outcome_of_mem_visits (fuel : ℕ) : ∀ {s : AppState} {top : Option Ptr},
    v ∈ visits user fuel s event top → v.outcome = (v.before.binds v.bind).bind fun b =>
      runBinding user v.before event b.toBinding := by
  induction fuel with
  | zero =>
    intro s top hv
    cases top <;> simp [visits] at hv
  | succ fuel ih =>
    intro s top hv
    cases top with
    | none => simp [visits] at hv
    | some p =>
      rw [visits, List.mem_cons] at hv
      rcases hv with rfl | hv
      · rfl
      · split at hv
        · simp at hv
        · split at hv
          · simp at hv
          · split_ifs at hv
            · simp at hv
            · exact ih hv

theorem Visit.invocation_eq_some : v.invocation event = some c ↔
    ∃ b, v.before.binds v.bind = some b ∧ b.eventtype = event.type ∧
      b.toBinding.applies v.before event = some true ∧ c = ⟨v.before, b.toBinding, b.widget⟩ := by
  simp only [Visit.invocation, Option.bind_eq_bind, Option.bind_eq_some_iff]
  refine exists_congr fun b => and_congr_right fun _ => ?_
  split_ifs with h
  · simp [h, eq_comm]
  · rw [← and_assoc]
    simp [h]

/-- **A visit runs what its invocation says**: the callback of the binding, with the argument. -/
theorem outcome_eq_of_mem_visits {fuel : ℕ} {s : AppState}
    (hv : v ∈ visits user fuel s event s.topEventBind) (hc : v.invocation event = some c) :
    v.outcome = runCallback user c.binding.callback c.before c.argument event
      c.binding.userParam := by
  obtain ⟨b, hb, htype, happlies, rfl⟩ := Visit.invocation_eq_some.mp hc
  rw [outcome_of_mem_visits fuel hv, hb, Option.bind_some, runBinding, if_pos htype, happlies]
  rfl

/-- A visit without an invocation runs nothing. -/
theorem outcome_eq_of_invocation_eq_none {fuel : ℕ} {s : AppState}
    (hv : v ∈ visits user fuel s event s.topEventBind) (hc : v.invocation event = none) :
    v.outcome = none ∨ v.outcome = some (v.before, false) := by
  rw [outcome_of_mem_visits fuel hv]
  cases hb : v.before.binds v.bind with
  | none => exact Or.inl rfl
  | some b =>
    rw [Option.bind_some]
    cases hrun : runBinding user v.before event b.toBinding with
    | none => exact Or.inl rfl
    | some r =>
      rcases runBinding_runs hrun with ⟨htype, happlies, -⟩ | ⟨-, hstate, hprocessed⟩
      · rw [Visit.invocation_eq_some.mpr ⟨b, hb, htype, happlies, rfl⟩] at hc
        simp at hc
      · exact Or.inr (by rw [← hstate, ← hprocessed])

end Invocations

/-! ### The widget that an event is about -/

/-- The widget is in the tree of the application. -/
def InTree (s : AppState) (p : Ptr) : Prop :=
  s.Live p ∧ ∃ root, s.rootWidget = some root ∧ s.InSubtree p root

theorem inTree_iff {s : AppState} (hs : WellFormed s) {p : Ptr} : InTree s p ↔ s.Live p := by
  refine ⟨And.left, fun hp => ⟨hp, ?_⟩⟩
  obtain ⟨root, -, hroot, -, -, hsub⟩ := hs.inSubtree_root hp
  exact ⟨root, hroot, hsub⟩

/-- The widget that a binding is called for: the widget of the tree that it is bound to; for a tag
the one under the pointer, when the event is one of the mouse, and any one with the tag when it is
not. -/
def IsTarget (s : AppState) (event : Event) (b : Binding) (p : Ptr) : Prop :=
  InTree s p ∧
    match b.widget, b.tag with
    | some q, _ => p = q
    | none, some tag =>
        if event.type.pickable then IsPicked s event.mouse p
        else ∃ w, s.widgets p = some w ∧ tag.IsOf w
    | none, none => True

/-- The callback gets the widget that the event is about. -/
def Invocation.GetsTarget (c : Invocation) (event : Event) : Prop :=
  ∃ p, c.argument = some p ∧ IsTarget c.before event c.binding p

/-- One call: the widget is the right one when the binding has it, and it is in the tree. -/
theorem Visit.getsTarget_iff_inTree {v : Visit} {event : Event} {c : Invocation}
    (hc : v.invocation event = some c) :
    c.GetsTarget event ↔ ∃ p, c.binding.widget = some p ∧ InTree v.before p := by
  obtain ⟨b, -, -, -, rfl⟩ := Visit.invocation_eq_some.mp hc
  refine exists_congr fun p => and_congr_right fun hp => ?_
  have hp : b.toBinding.widget = some p := hp
  simp [IsTarget, hp]

/-- **The callbacks of a round get the widget that the event is about** exactly when every binding
that applies is one to a widget, which is in the tree. -/
theorem getsTarget_iff (user : ℕ → UserCallback) (fuel : ℕ) (s : AppState) (event : Event) :
    (∀ c ∈ invocations user fuel s event, c.GetsTarget event) ↔
      ∀ v ∈ visits user fuel s event s.topEventBind, ∀ b, v.before.binds v.bind = some b →
        b.eventtype = event.type → b.toBinding.applies v.before event = some true →
          ∃ p, b.widget = some p ∧ InTree v.before p := by
  constructor
  · intro h v hv b hb htype happlies
    have hc : v.invocation event = some ⟨v.before, b.toBinding, b.widget⟩ :=
      Visit.invocation_eq_some.mpr ⟨b, hb, htype, happlies, rfl⟩
    exact (Visit.getsTarget_iff_inTree hc).mp (h _ (List.mem_filterMap.mpr ⟨v, hv, hc⟩))
  · intro h c hc
    obtain ⟨v, hv, hc⟩ := List.mem_filterMap.mp hc
    obtain ⟨b, hb, htype, happlies, rfl⟩ := Visit.invocation_eq_some.mp hc
    exact (Visit.getsTarget_iff_inTree hc).mpr (h v hv b hb htype happlies)

/-! ### What the loop has found -/

/-- The widget that the body of the loop finds: the one of the binding, or `to_callback`. -/
def Binding.toCallback (s : AppState) (event : Event) (b : Binding) : Option (Option Ptr) :=
  match b.widget, b.tag with
  | some widget, _ => some (some widget)
  | none, some tag =>
      if b.pickable then findPickedTaggedWidget s event.mouse tag
      else s.rootWidget.bind (findUnlocalisedTaggedWidget s · tag)
  | none, none => some none

section Found

variable {s : AppState} {event : Event} {l : List (Ptr × Binding)} {e : Ptr × Binding}

/-- A binding to a tag applies when the loop has found a widget. -/
theorem applies_eq_toCallback (htag : e.2.widget = none) :
    e.2.applies s event = (e.2.toCallback s event).map Option.isSome := by
  rw [Binding.applies, Binding.toCallback, htag]
  cases e.2.tag with
  | none => rfl
  | some tag =>
    dsimp only
    cases (if e.2.pickable then findPickedTaggedWidget s event.mouse tag
      else s.rootWidget.bind (findUnlocalisedTaggedWidget s · tag)) <;> rfl

/-- **The widget that the loop has found is the one that the event is about**, for a binding to a
tag: had it been passed on, the callback would have got its target. -/
theorem toCallback_isTarget (hs : InOrder s event l) (he : e ∈ l)
    (htype : e.2.eventtype = event.type) (htag : e.2.widget = none)
    (happlies : e.2.applies s event = some true) :
    ∃ p, e.2.toCallback s event = some (some p) ∧ IsTarget s event e.2 p := by
  obtain ⟨hpick, hone⟩ := hs.registered e he
  rw [htype] at hpick
  obtain ⟨tag, hsome⟩ := Option.ne_none_iff_exists'.mp (hone.mp htag)
  rw [applies_eq_toCallback htag] at happlies
  obtain ⟨found, hfound, hisSome⟩ := Option.map_eq_some_iff.mp happlies
  obtain ⟨p, rfl⟩ := Option.isSome_iff_exists.mp hisSome
  refine ⟨p, hfound, ?_⟩
  simp only [Binding.toCallback, htag, hsome, hpick] at hfound
  simp only [IsTarget, htag, hsome]
  by_cases hmouse : event.type.pickable = true
  · rw [if_pos hmouse] at hfound ⊢
    obtain ⟨root, picked, hroot, hpicked, hiff, hlive⟩ := hs.findPicked event.mouse
    simp only [findPickedTaggedWidget, hroot, hpicked, Option.bind_eq_bind,
      Option.bind_some] at hfound
    cases picked with
    | none => simp at hfound
    | some q =>
      obtain ⟨w, -, hq⟩ := Option.bind_eq_some_iff.mp hfound
      split_ifs at hq
      · obtain rfl := Option.some.inj (Option.some.inj hq)
        exact ⟨(inTree_iff hs.wellFormed).mpr (hlive q rfl), (hiff q).mp rfl⟩
      · simp at hq
  · rw [if_neg hmouse] at hfound ⊢
    obtain ⟨root, hroot, hfound⟩ := Option.bind_eq_some_iff.mp hfound
    obtain ⟨w, hw, hof⟩ := AppState.search_found _ hs.wellFormed hfound
    exact ⟨(inTree_iff hs.wellFormed).mpr (AppState.live_iff.mpr ⟨w, hw⟩), w, hw,
      (tag.designates_iff w).mp hof⟩

end Found

/-! ### Rounds without bindings to tags -/

section Widgets

variable {user : ℕ → UserCallback} {s : AppState} {event : Event} {l : List (Ptr × Binding)}

/-- A mouse event only calls a binding to a widget that is in the tree: the test reads it. -/
theorem inTree_of_applies (hs : InOrder s event l) {e : Ptr × Binding} (he : e ∈ l)
    (htype : e.2.eventtype = event.type) (hmouse : event.type.pickable = true) {p : Ptr}
    (hp : e.2.widget = some p) : InTree s p :=
  (inTree_iff hs.wellFormed).mpr (hs.targets e he htype hmouse p hp)

variable {I : AppState → Prop} (hI : ∀ t, I t → InOrder t event l)
  (hcalls : ∀ t, I t → ∀ e ∈ l, e.2.eventtype = event.type → Matches t event e.2 →
    ∀ t' processed, runCallback user e.2.callback t e.2.widget event e.2.userParam =
      some (t', processed) → I t')

include hI hcalls

/-- The loop over the rest of the list visits records of the list, by induction on the rest, when
the callbacks that return leave the list and the tree in order. -/
theorem visits_inOrder : ∀ (l₂ l₁ : List (Ptr × Binding)) (t : AppState) (fuel : ℕ),
    l = l₁ ++ l₂ → I t → ∀ v ∈ visits user fuel t event (l₂.map Prod.fst).head?,
      I v.before ∧ ∃ e ∈ l, ∃ b, v.before.binds v.bind = some b ∧ b.toBinding = e.2 := by
  intro l₂
  induction l₂ with
  | nil => simp
  | cons e l₂ ih =>
    intro l₁ t fuel hl ht v hv
    have hl' : l = (l₁ ++ [e]) ++ l₂ := by simpa using hl
    have hmem : e ∈ l := by simp [hl]
    obtain ⟨b, hb, hbe, -⟩ := (hl ▸ (hI t ht).bindings : HasBindings t (l₁ ++ e :: l₂)).record
    rw [List.map_cons, List.head?_cons] at hv
    cases fuel with
    | zero => simp [visits] at hv
    | succ k =>
      simp only [visits, hb, Option.bind_some, hbe, List.mem_cons] at hv
      rcases hv with rfl | hv
      · exact ⟨ht, e, hmem, b, hb, hbe⟩
      cases hrun : runBinding user t event e.2 with
      | none => simp [hrun] at hv
      | some r =>
        obtain ⟨t', processed⟩ := r
        have ht' : I t' := by
          rcases runBinding_eq user (hI t ht) hmem with ⟨htype, hmatch, -, hcall⟩ | ⟨-, -, hskip⟩
          · exact hcalls t ht e hmem htype hmatch t' processed (hcall ▸ hrun)
          · obtain ⟨rfl, -⟩ := Prod.mk.inj (Option.some.inj (hskip.symm.trans hrun))
            exact ht
        obtain ⟨b', hb', -, hnext'⟩ := (hl ▸ (hI t' ht').bindings :
          HasBindings t' (l₁ ++ e :: l₂)).record
        simp only [hrun, hb', hnext'] at hv
        split_ifs at hv
        · simp at hv
        · exact ih (l₁ ++ [e]) t' k hl' ht' v hv

/-- **Without bindings to tags every callback gets its target**, when no binding of the type of the
event is left with a widget that has been destroyed. -/
theorem getsTarget_of_widgets (hs : I s)
    (hwidget : ∀ e ∈ l, e.2.eventtype = event.type → e.2.tag = none)
    (hlive : ∀ t, I t → ∀ e ∈ l, e.2.eventtype = event.type → event.type.pickable = false →
      ∀ p, e.2.widget = some p → t.Live p) (fuel : ℕ) :
    ∀ c ∈ invocations user fuel s event, c.GetsTarget event := by
  intro c hc
  obtain ⟨v, hv, hc⟩ := List.mem_filterMap.mp hc
  rw [(hI s hs).bindings.chain.head_eq] at hv
  obtain ⟨hv, e, he, b, hb, hbe⟩ := visits_inOrder hI hcalls l [] s fuel rfl hs v hv
  rw [Visit.getsTarget_iff_inTree hc]
  obtain ⟨b', hb', htype, -, rfl⟩ := Visit.invocation_eq_some.mp hc
  obtain rfl := Option.some.inj (hb.symm.trans hb')
  have htype : e.2.eventtype = event.type := hbe ▸ htype
  have hnotag := hwidget e he htype
  obtain ⟨p, hp⟩ := Option.ne_none_iff_exists'.mp fun hnone =>
    ((hI _ hv).registered e he).2.mp hnone hnotag
  refine ⟨p, (congrArg Binding.widget hbe).trans hp, ?_⟩
  by_cases hmouse : event.type.pickable = true
  · exact inTree_of_applies (hI _ hv) he htype hmouse hp
  · exact (inTree_iff (hI _ hv).wellFormed).mpr
      (hlive _ hv e he htype (Bool.eq_false_iff.mpr hmouse) p hp)

end Widgets

/-- **The handlers that are bound to tags do not read the widget**, so that the library does not
need it. -/
theorem runCallback_appBindings (user : ℕ → UserCallback) {b : EventType × Tag × Callback}
    (hb : b ∈ appBindings) (s : AppState) (widget widget' : Option Ptr) (event : Event)
    (userParam userParam' : Option ℕ) :
    runCallback user b.2.2 s widget event userParam =
      runCallback user b.2.2 s widget' event userParam' := by
  simp only [appBindings, List.mem_cons, List.not_mem_nil, or_false] at hb
  rcases hb with rfl | rfl | rfl | rfl | rfl | rfl | rfl <;> rfl

section Sample

attribute [local instance] sampleHardware

/-- A callback of the programmer that is bound to every widget gets none. -/
theorem not_getsTarget_keydown : (∃ l, InOrder sampleKeys ⟨.keydown, ⟨0, 0⟩, .left⟩ l) ∧
    ¬ ∀ c ∈ invocations (fun _ s _ _ _ => some (s, true)) sampleKeys.nextBind sampleKeys
      ⟨.keydown, ⟨0, 0⟩, .left⟩, c.GetsTarget ⟨.keydown, ⟨0, 0⟩, .left⟩ := by
  refine ⟨sampleKeys_inOrder, fun h => ?_⟩
  have harguments : (invocations (fun _ s _ _ _ => some (s, true)) sampleKeys.nextBind sampleKeys
      ⟨.keydown, ⟨0, 0⟩, .left⟩).map Invocation.argument = [none] := by with_unfolding_all rfl
  obtain ⟨c, hc, hnone⟩ :=
    List.mem_map.mp (harguments ▸ List.mem_singleton_self (none : Option Ptr))
  obtain ⟨p, hp, -⟩ := h c hc
  simp [hnone] at hp

end Sample

end GuiLibrary

import GuiLibrary.Picking

/-!
# One round of the main loop

The loop over the bindings is followed visit by visit: each visit reads a record of the list, runs
its callback when the binding applies, and reads the record once more for its link. The calls of a
round are the visits whose callback has run.

A round selects the bindings of the type of the event whose target matches. A widget matches a
mouse event when the pixel under the pointer is its pick value, and a tag when it designates the
picked widget; for any other event a widget matches always, and a tag when it designates some
widget of the tree. The calls come in the order of registration and stop after the first one that
has processed the event.

Callbacks may change the state as they like, provided that they leave the list and the tree in
order; a binding matches in the state that the calls before it have left.

## Main definitions

* `Visit`, `visits`, `Call`, `calls`.
* `IsPicked`, `Matches`, `InOrder`, `Round`.

## Main results

* `Binding.applies_iff`: the tests of the loop decide `Matches`.
* `dispatch_round`.
-/

namespace GuiLibrary

open Cells

/-! ### The visits of a round -/

/-- One pass through the body of the loop: the record, the state in which it is read first, and
what the body returns, which is nothing when it follows an invalid pointer. -/
structure Visit where
  bind : Ptr
  before : AppState
  outcome : Option (AppState × Bool)

/-- The call of a callback: the binding with the address of its record, the state afterwards, and
whether the event has been processed. -/
structure Call where
  bind : Ptr × Binding
  after : AppState
  processed : Bool

/-- The call of a visit, if the binding applies. -/
def Visit.call (event : Event) (v : Visit) : Option Call := do
  let b ← v.before.binds v.bind
  let (s, processed) ← v.outcome
  if b.eventtype = event.type ∧ b.toBinding.applies v.before event = some true then
    some ⟨(v.bind, b.toBinding), s, processed⟩
  else none

section Visits

variable (user : ℕ → UserCallback)

/-- The visits of the loop over the bindings, the last one being the first that fails, if any. -/
def visits : ℕ → AppState → Event → Option Ptr → List Visit
  | _, _, _, none => []
  | 0, _, _, some _ => []
  | fuel + 1, s, event, some currentBind =>
      let outcome := (s.binds currentBind).bind fun b => runBinding user s event b.toBinding
      ⟨currentBind, s, outcome⟩ ::
        match outcome with
        | none => []
        | some (s', processed) =>
            match s'.binds currentBind with
            | none => []
            | some b => if processed then [] else visits fuel s' event b.next

@[simp] theorem visits_none (fuel : ℕ) (s : AppState) (event : Event) :
    visits user fuel s event none = [] := by
  cases fuel <;> rfl

/-- The calls of a round. -/
def calls (fuel : ℕ) (s : AppState) (event : Event) (top : Option Ptr) : List Call :=
  (visits user fuel s event top).filterMap (Visit.call event)

end Visits

/-! ### Targets -/

/-- The widget under the pointer: the first one of the tree, in pre-order, whose pick value is the
pixel there. -/
def IsPicked (s : AppState) (mouse : Point) (p : Ptr) : Prop :=
  ∃ root w f, s.rootWidget = some root ∧ s.widgets root = some w ∧
    Represents nodeLinks s.nodes root w.childrenHead f ∧
    (root :: f.nodes).find? (s.matches fun w =>
      s.pickSurface.pixel mouse = eiMapRgba s.pickSurface w.pickColor) = some p

/-- The tag is the class of the widget, or designates every widget. -/
def Tag.IsOf (tag : Tag) (w : Widget) : Prop := tag.text = "all" ∨ tag.text = w.wclass.name

/-- The target of a binding matches the event. -/
def Matches (s : AppState) (event : Event) (b : Binding) : Prop :=
  match b.widget, b.tag with
  | some p, _ => event.type.pickable = true → ∃ w, s.widgets p = some w ∧
      s.pickSurface.pixel event.mouse = eiMapRgba s.pickSurface w.pickColor
  | none, some tag =>
      if event.type.pickable then ∃ p w, IsPicked s event.mouse p ∧
        s.widgets p = some w ∧ tag.IsOf w
      else ∃ p w, s.widgets p = some w ∧ tag.IsOf w
  | none, none => False

/-- The list holds the bindings `l`, registered by `ei_bind`, the widgets form a tree, and the
targets that the event has to be compared with are alive. -/
structure InOrder (s : AppState) (event : Event) (l : List (Ptr × Binding)) : Prop where
  bindings : HasBindings s l
  registered : ∀ e ∈ l, e.2.pickable = e.2.eventtype.pickable ∧ (e.2.widget = none ↔ e.2.tag ≠ none)
  wellFormed : WellFormed s
  root : ∃ root, s.rootWidget = some root ∧ s.Live root
  targets : ∀ e ∈ l, e.2.eventtype = event.type → event.type.pickable = true →
    ∀ p, e.2.widget = some p → s.Live p

section Targets

variable {s : AppState} {event : Event} {l : List (Ptr × Binding)}

@[simp] theorem Tag.designates_iff (tag : Tag) (w : Widget) :
    tag.designates w = true ↔ tag.IsOf w := by
  simp [Tag.designates, Tag.IsOf]

/-- The search for the picked widget finds it. -/
theorem InOrder.findPicked (hs : InOrder s event l) (mouse : Point) : ∃ root found,
    s.rootWidget = some root ∧
      findPickedInChildren s root (s.pickSurface.pixel mouse) s.pickSurface = some found ∧
      (∀ p, found = some p ↔ IsPicked s mouse p) ∧ ∀ p, found = some p → s.Live p := by
  obtain ⟨root, hroot, hlive⟩ := hs.root
  obtain ⟨w, hw⟩ := AppState.live_iff.mp hlive
  obtain ⟨f, hf⟩ := hs.wellFormed.exists_forest hw
  refine ⟨root, _, hroot, AppState.search_eq _ hs.wellFormed hw hf, fun p => ⟨fun hp => ?_, ?_⟩,
    fun p hp => ?_⟩
  · exact ⟨root, w, f, hroot, hw, hf, hp⟩
  · rintro ⟨root', w', f', hroot', hw', hf', hp⟩
    obtain rfl := Option.some.inj (hroot.symm.trans hroot')
    obtain rfl := Option.some.inj (hw.symm.trans hw')
    rwa [hf.unique hf']
  · rcases List.mem_cons.mp (List.mem_of_find?_eq_some hp) with rfl | hp
    · exact hlive
    · exact hf.live p hp

/-- The search for a tag finds a widget exactly when there is one in the tree. -/
theorem InOrder.findTagged (hs : InOrder s event l) (tag : Tag) : ∃ root found,
    s.rootWidget = some root ∧ findUnlocalisedTaggedWidget s root tag = some found ∧
      (found.isSome = true ↔ ∃ p w, s.widgets p = some w ∧ tag.IsOf w) := by
  obtain ⟨root, hroot, hlive⟩ := hs.root
  obtain ⟨w, hw⟩ := AppState.live_iff.mp hlive
  obtain ⟨f, hf⟩ := hs.wellFormed.exists_forest hw
  refine ⟨root, _, hroot, AppState.search_eq _ hs.wellFormed hw hf, ?_⟩
  rw [List.find?_isSome]
  constructor
  · rintro ⟨p, -, hp⟩
    rw [AppState.matches, Option.any_eq_true] at hp
    obtain ⟨v, hv, hp⟩ := hp
    exact ⟨p, v, hv, (tag.designates_iff v).mp hp⟩
  · rintro ⟨p, v, hv, htag⟩
    refine ⟨p, ?_, by rw [AppState.matches, hv, Option.any_some, tag.designates_iff]; exact htag⟩
    obtain ⟨r, n, hr, -, -, hp⟩ := hs.wellFormed.inSubtree_root (AppState.live_iff.mpr ⟨v, hv⟩)
    obtain rfl := Option.some.inj (hroot.symm.trans hr)
    rcases hp with rfl | hp
    · exact List.mem_cons_self
    · exact List.mem_cons_of_mem _
        ((hf.mem_nodes_iff hs.wellFormed.linked (AppState.nodes_of_widgets hw) p).mpr hp)

/-- **The tests of the loop decide whether the target matches.** -/
theorem Binding.applies_iff (hs : InOrder s event l) {e : Ptr × Binding} (he : e ∈ l)
    (htype : e.2.eventtype = event.type) :
    ∃ r, e.2.applies s event = some r ∧ (r = true ↔ Matches s event e.2) := by
  obtain ⟨hpick, hone⟩ := hs.registered e he
  rw [htype] at hpick
  cases hwidget : e.2.widget with
  | some p =>
    simp only [Binding.applies, Matches, hwidget, hpick]
    by_cases hmouse : event.type.pickable = true
    · obtain ⟨w, hw⟩ := AppState.live_iff.mp (hs.targets e he htype hmouse p hwidget)
      rw [if_pos hmouse]
      simp [isUnderMouse, hw, hmouse]
    · exact ⟨true, if_neg hmouse, by simp [hmouse]⟩
  | none =>
    obtain ⟨tag, htag⟩ := Option.ne_none_iff_exists'.mp (hone.mp hwidget)
    simp only [Binding.applies, Matches, hwidget, hpick, htag]
    by_cases hmouse : event.type.pickable = true
    · obtain ⟨root, found, hroot, hfound, hpicked, hlive⟩ := hs.findPicked event.mouse
      simp only [hmouse, if_true, findPickedTaggedWidget, hroot, hfound, Option.bind_eq_bind,
        Option.bind_some, ← hpicked]
      cases found with
      | none => simp
      | some p =>
        obtain ⟨w, hw⟩ := AppState.live_iff.mp (hlive p rfl)
        by_cases hof : tag.IsOf w
        · simp [hw, (tag.designates_iff w).mpr hof, hof]
        · have hdes : tag.designates w = false := by
            rw [← Bool.not_eq_true, tag.designates_iff]
            exact hof
          simp [hw, hdes, hof]
    · obtain ⟨root, found, hroot, hfound, hiff⟩ := hs.findTagged tag
      simp only [hmouse, Bool.false_eq_true, if_false, hroot, hfound, Option.bind_eq_bind,
        Option.bind_some, Option.some.injEq, exists_eq_left']
      exact hiff

end Targets

/-! ### Rounds -/

/-- The state that the calls of the bindings `l` leave. -/
def stateAfter (s : AppState) (calls : List Call) (l : List (Ptr × Binding)) : AppState :=
  (calls.filter (·.bind ∈ l)).getLast?.elim s Call.after

/-- The calls of a round over the bindings `l`: they come in the order of the list, each at most
once; a binding is called exactly when no call before it has processed the event, it is of the
type of the event, and its target matches; each call runs in the state that the one before has
left, and the last one leaves the state of the round. -/
structure Round (user : ℕ → UserCallback) (event : Event) (l : List (Ptr × Binding)) (s : AppState)
    (calls : List Call) (s' : AppState) : Prop where
  order : (calls.map Call.bind).Sublist l
  nodup : (calls.map Call.bind).Nodup
  called_iff : ∀ l₁ e l₂, l = l₁ ++ e :: l₂ → (e ∈ calls.map Call.bind ↔
    (∀ c ∈ calls, c.bind ∈ l₁ → c.processed = false) ∧ e.2.eventtype = event.type ∧
      Matches (stateAfter s calls l₁) event e.2)
  ran : ∀ l₁ c l₂, calls = l₁ ++ c :: l₂ →
    runCallback user c.bind.2.callback (l₁.getLast?.elim s Call.after) c.bind.2.widget event
      c.bind.2.userParam = some (c.after, c.processed)
  final : s' = calls.getLast?.elim s Call.after

namespace Round

variable {user : ℕ → UserCallback} {event : Event} {l : List (Ptr × Binding)} {s s₁ s' : AppState}
  {e : Ptr × Binding} {cs : List Call}

theorem nil : Round user event [] s [] s where
  order := .slnil
  nodup := List.nodup_nil
  called_iff l₁ e l₂ h := by simp at h
  ran l₁ c l₂ h := by simp at h
  final := rfl

theorem mem_of_mem (h : Round user event l s cs s') {c : Call} (hc : c ∈ cs) : c.bind ∈ l :=
  h.order.subset (List.mem_map_of_mem hc)

/-- A binding that does not match is passed over. -/
theorem skip (h : Round user event l s cs s') (he : e ∉ l)
    (hskip : ¬ (e.2.eventtype = event.type ∧ Matches s event e.2)) :
    Round user event (e :: l) s cs s' where
  order := h.order.cons e
  nodup := h.nodup
  called_iff l₁ x l₂ hl := by
    have hne : ∀ c ∈ cs, c.bind ≠ e := fun c hc hce => he (hce ▸ h.mem_of_mem hc)
    cases l₁ with
    | nil =>
      obtain ⟨rfl, rfl⟩ := List.cons.inj hl
      have hx : e ∉ cs.map Call.bind := fun hx => he (h.order.subset hx)
      simp only [hx, false_iff]
      rintro ⟨-, htype, hmatch⟩
      exact hskip ⟨htype, by simpa [stateAfter] using hmatch⟩
    | cons y l₁ =>
      obtain ⟨rfl, rfl⟩ := List.cons.inj hl
      rw [h.called_iff l₁ x l₂ rfl]
      have hstate : stateAfter s cs (e :: l₁) = stateAfter s cs l₁ := by
        rw [stateAfter, stateAfter]
        congr 2
        exact List.filter_congr fun c hc => by simp [hne c hc]
      rw [hstate]
      refine and_congr_left' (forall₂_congr fun c hc => ?_)
      simp [hne c hc]
  ran := h.ran
  final := h.final

/-- The call of a binding that processes the event ends the round. -/
theorem stop (he : e ∉ l) (htype : e.2.eventtype = event.type) (hmatch : Matches s event e.2)
    (hrun : runCallback user e.2.callback s e.2.widget event e.2.userParam = some (s', true)) :
    Round user event (e :: l) s [⟨e, s', true⟩] s' where
  order := (List.nil_sublist l).cons_cons e
  nodup := List.nodup_singleton e
  called_iff l₁ x l₂ hl := by
    cases l₁ with
    | nil =>
      obtain ⟨rfl, rfl⟩ := List.cons.inj hl
      simpa [stateAfter] using ⟨htype, hmatch⟩
    | cons y l₁ =>
      obtain ⟨rfl, rfl⟩ := List.cons.inj hl
      have hx : x ≠ e := fun hx => he (by simp [hx])
      simp [hx]
  ran l₁ c l₂ hl := by
    cases l₁ with
    | nil =>
      obtain ⟨rfl, rfl⟩ := List.cons.inj hl
      exact hrun
    | cons d l₁ => simp at hl
  final := rfl

/-- After a call that does not process the event the round goes on. -/
theorem go (he : e ∉ l) (htype : e.2.eventtype = event.type) (hmatch : Matches s event e.2)
    (hrun : runCallback user e.2.callback s e.2.widget event e.2.userParam = some (s₁, false))
    (h : Round user event l s₁ cs s') :
    Round user event (e :: l) s (⟨e, s₁, false⟩ :: cs) s' where
  order := h.order.cons_cons e
  nodup := List.nodup_cons.mpr ⟨fun hx => he (h.order.subset hx), h.nodup⟩
  called_iff l₁ x l₂ hl := by
    have hne : ∀ c ∈ cs, c.bind ≠ e := fun c hc hce => he (hce ▸ h.mem_of_mem hc)
    cases l₁ with
    | nil =>
      obtain ⟨rfl, rfl⟩ := List.cons.inj hl
      simpa [stateAfter] using ⟨htype, hmatch⟩
    | cons y l₁ =>
      obtain ⟨rfl, rfl⟩ := List.cons.inj hl
      have hx : x ≠ e := fun hx => he (by simp [hx])
      have hstate : stateAfter s (⟨e, s₁, false⟩ :: cs) (e :: l₁) = stateAfter s₁ cs l₁ := by
        have hfilter : cs.filter (·.bind ∈ e :: l₁) = cs.filter (·.bind ∈ l₁) :=
          List.filter_congr fun c hc => by simp [hne c hc]
        rw [stateAfter, stateAfter, List.filter_cons_of_pos (by simp), hfilter]
        cases cs.filter (·.bind ∈ l₁) with
        | nil => rfl
        | cons c cs => simp [List.getLast?_cons]
      have hmem : x ∈ (⟨e, s₁, false⟩ :: cs : List Call).map Call.bind ↔ x ∈ cs.map Call.bind := by
        simp [hx]
      rw [hstate, hmem, h.called_iff l₁ x l₂ rfl]
      refine and_congr_left' ?_
      rw [List.forall_mem_cons]
      simp only [implies_true, true_and]
      refine forall₂_congr fun c hc => ?_
      simp [hne c hc]
  ran l₁ c l₂ hl := by
    cases l₁ with
    | nil =>
      obtain ⟨rfl, rfl⟩ := List.cons.inj hl
      exact hrun
    | cons d l₁ =>
      obtain ⟨rfl, rfl⟩ := List.cons.inj hl
      have := h.ran l₁ c l₂ rfl
      cases l₁ with
      | nil => exact this
      | cons d l₁ => simpa [List.getLast?_cons] using this
  final := by
    rw [h.final]
    cases cs with
    | nil => rfl
    | cons c cs => simp [List.getLast?_cons]

end Round

section Rounds

variable (user : ℕ → UserCallback) {event : Event} {l : List (Ptr × Binding)} {s : AppState}

/-- The body of the loop runs the callback exactly when the binding matches. -/
theorem runBinding_eq (hs : InOrder s event l) {e : Ptr × Binding} (he : e ∈ l) :
    (e.2.eventtype = event.type ∧ Matches s event e.2 ∧
        e.2.applies s event = some true ∧ runBinding user s event e.2 =
          runCallback user e.2.callback s e.2.widget event e.2.userParam) ∨
      (¬ (e.2.eventtype = event.type ∧ Matches s event e.2) ∧
        ¬ (e.2.eventtype = event.type ∧ e.2.applies s event = some true) ∧
        runBinding user s event e.2 = some (s, false)) := by
  rw [runBinding]
  by_cases htype : e.2.eventtype = event.type
  · obtain ⟨r, happlies, hr⟩ := Binding.applies_iff hs he htype
    rw [if_pos htype, happlies]
    cases r with
    | true => exact Or.inl ⟨htype, hr.mp rfl, rfl, rfl⟩
    | false =>
      refine Or.inr ⟨fun h => Bool.false_ne_true (hr.mpr h.2), by simp, rfl⟩
  · exact Or.inr ⟨fun h => htype h.1, fun h => htype h.1, if_neg htype⟩

/-- **The loop over the rest of the list is a round**, by induction on the rest. -/
theorem dispatchLoop_round {I : AppState → Prop} (hI : ∀ t, I t → InOrder t event l)
    (hcalls : ∀ t, I t → ∀ e ∈ l, e.2.eventtype = event.type → Matches t event e.2 →
      ∃ t' processed, runCallback user e.2.callback t e.2.widget event e.2.userParam =
        some (t', processed) ∧ I t') :
    ∀ (l₂ l₁ : List (Ptr × Binding)) (t : AppState) (fuel : ℕ), l = l₁ ++ l₂ → I t →
      l₂.length ≤ fuel → ∃ t', dispatchLoop user fuel t event (l₂.map Prod.fst).head? = some t' ∧
        Round user event l₂ t (calls user fuel t event (l₂.map Prod.fst).head?) t' := by
  intro l₂
  induction l₂ with
  | nil =>
    intro l₁ t fuel _ _ _
    refine ⟨t, by cases fuel <;> rfl, ?_⟩
    have hnone : calls user fuel t event none = [] := by cases fuel <;> rfl
    exact hnone ▸ .nil
  | cons e l₂ ih =>
    intro l₁ t fuel hl ht hfuel
    obtain ⟨k, rfl⟩ : ∃ k, fuel = k + 1 := ⟨fuel - 1, by simp at hfuel; omega⟩
    have hk : l₂.length ≤ k := by simpa using hfuel
    have hl' : l = (l₁ ++ [e]) ++ l₂ := by simpa using hl
    have hmem : e ∈ l := by simp [hl]
    have hs := hI t ht
    obtain ⟨b, hb, hbe, -⟩ := (hl ▸ hs.bindings : HasBindings t (l₁ ++ e :: l₂)).record
    have hnotMem : e ∉ l₂ := by
      have hnodup := (hl ▸ hs.bindings : HasBindings t (l₁ ++ e :: l₂)).chain.nodup
      rw [List.map_append, List.map_cons, List.nodup_append] at hnodup
      exact fun he => (List.nodup_cons.mp hnodup.2.1).1 (List.mem_map_of_mem he)
    rw [List.map_cons, List.head?_cons]
    simp only [dispatchLoop, calls, visits, List.filterMap_cons, Visit.call, hb, hbe,
      Option.bind_eq_bind, Option.bind_some]
    rcases runBinding_eq user hs hmem with ⟨htype, hmatch, happlies, hrun⟩ | ⟨hskip, hskip', hrun⟩
    · obtain ⟨t', processed, hcall, ht'⟩ := hcalls t ht e hmem htype hmatch
      obtain ⟨b', hb', -, hnext'⟩ := (hl ▸ (hI t' ht').bindings :
        HasBindings t' (l₁ ++ e :: l₂)).record
      rw [hrun, hcall]
      simp only [Option.bind_some, hb', htype, happlies, true_and, if_true, hnext']
      cases processed with
      | true => exact ⟨t', rfl, .stop hnotMem htype hmatch hcall⟩
      | false =>
        obtain ⟨t'', hloop, hround⟩ := ih (l₁ ++ [e]) t' k hl' ht' hk
        exact ⟨t'', hloop, .go hnotMem htype hmatch hcall hround⟩
    · obtain ⟨b', hb', -, hnext'⟩ := (hl ▸ hs.bindings : HasBindings t (l₁ ++ e :: l₂)).record
      obtain rfl := Option.some.inj (hb.symm.trans hb')
      obtain ⟨t'', hloop, hround⟩ := ih (l₁ ++ [e]) t k hl' ht hk
      rw [hrun]
      simp only [Option.bind_some, hb, hnext', hskip', if_false]
      exact ⟨t'', hloop, hround.skip hnotMem hskip⟩

/-- **Dispatch selects and orders callbacks.** When every call of a callback returns and leaves the
bindings `l` and the tree in order, one round of the main loop returns, and its calls are those of
the bindings of the type of the event whose target matches, in the order of registration, each at
most once, up to the first one that processes the event. -/
theorem dispatch_round (I : AppState → Prop) (hI : ∀ t, I t → InOrder t event l)
    (hcalls : ∀ t, I t → ∀ e ∈ l, e.2.eventtype = event.type → Matches t event e.2 →
      ∃ t' processed, runCallback user e.2.callback t e.2.widget event e.2.userParam =
        some (t', processed) ∧ I t')
    (hs : I s) (fuel : ℕ) (hfuel : l.length ≤ fuel) :
    ∃ s', dispatch user fuel s event = some s' ∧
      Round user event l s (calls user fuel s event s.topEventBind) s' := by
  have htop : s.topEventBind = (l.map Prod.fst).head? := (hI s hs).bindings.chain.head_eq
  rw [dispatch, htop]
  exact dispatchLoop_round user hI hcalls l [] s fuel rfl hs hfuel

end Rounds

section Sample

attribute [local instance] sampleHardware

theorem isSome_eiBind_keydown : (eiBind (sampleApp ⟨640, 480⟩) .keydown none (some ⟨0, "all"⟩)
    (.user 0) none).isSome := by
  rfl

/-- An application whose programmer has bound the keyboard. -/
def sampleKeys : AppState :=
  (eiBind (sampleApp ⟨640, 480⟩) .keydown none (some ⟨0, "all"⟩) (.user 0) none).get
    isSome_eiBind_keydown

theorem eiBind_sampleKeys : eiBind (sampleApp ⟨640, 480⟩) .keydown none (some ⟨0, "all"⟩)
    (.user 0) none = some sampleKeys :=
  (Option.some_get _).symm

theorem sampleKeys_inOrder : ∃ l, InOrder sampleKeys ⟨.keydown, ⟨0, 0⟩, .left⟩ l := by
  have hstart := sampleApp_started ⟨640, 480⟩
  obtain ⟨l, hl, hmap⟩ := hstart.bindings
  obtain ⟨s', hs', hl', honly⟩ := hl.eiBind .keydown none (some ⟨0, "all"⟩) (.user 0) none
    (by decide)
  rw [← Option.some.inj (eiBind_sampleKeys.symm.trans hs')] at hl' honly
  refine ⟨_, hl', fun e he => ?_, ?_, ⟨0, honly.rootWidget.trans hstart.rootWidget,
    (live_of_onlyBinds honly).mpr (sampleApp_live _)⟩, fun e he _ hmouse => ?_⟩
  · rcases List.mem_append.mp he with he | he
    · have hb : e.2 ∈ appBindings.map appBinding := hmap ▸ List.mem_map_of_mem he
      have hall : ∀ b ∈ appBindings.map appBinding,
          b.pickable = b.eventtype.pickable ∧ (b.widget = none ↔ b.tag ≠ none) := by decide
      exact hall e.2 hb
    · obtain rfl := List.mem_singleton.mp he
      simp
  · exact (treeInvariant_of_run (eiAppCreate_sampleApp ⟨640, 480⟩) .refl).wellFormed.of_onlyBinds
      honly
  · exact absurd hmouse (by decide)

/-- A key press is given to the callback that the programmer has bound to the keyboard. -/
theorem dispatch_round_keydown : ∃ l, InOrder sampleKeys ⟨.keydown, ⟨0, 0⟩, .left⟩ l ∧ ∃ s',
    dispatch (fun _ s _ _ _ => some (s, true)) l.length sampleKeys ⟨.keydown, ⟨0, 0⟩, .left⟩ =
        some s' ∧
      Round (fun _ s _ _ _ => some (s, true)) ⟨.keydown, ⟨0, 0⟩, .left⟩ l sampleKeys
        (calls (fun _ s _ _ _ => some (s, true)) l.length sampleKeys ⟨.keydown, ⟨0, 0⟩, .left⟩
          sampleKeys.topEventBind) s' := by
  obtain ⟨l, hl⟩ := sampleKeys_inOrder
  have huser : ∀ e ∈ l, e.2.eventtype = .keydown → ∃ id, e.2.callback = .user id := by
    have hall : ∀ b ∈ (listBinds sampleKeys.binds sampleKeys.nextBind
        sampleKeys.topEventBind).map Prod.snd, b.eventtype = .keydown → b.callback = .user 0 := by
      decide +kernel
    rw [hl.bindings.listBinds_eq _ hl.bindings.length_le] at hall
    exact fun e he htype => ⟨0, hall e.2 (List.mem_map_of_mem he) htype⟩
  refine ⟨l, hl, dispatch_round _ (· = sampleKeys) (fun t ht => ht ▸ hl) ?_ rfl l.length
    (Nat.le_refl _)⟩
  rintro t rfl e he htype -
  obtain ⟨id, hid⟩ := huser e he htype
  exact ⟨sampleKeys, true, by rw [hid, runCallback], rfl⟩

end Sample

end GuiLibrary

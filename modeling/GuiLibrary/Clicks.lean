import GuiLibrary.Sessions
import GuiLibrary.Wiring

/-!
# Clicks

A click on a button is recognised by two handlers in two rounds of the main loop: one remembers the
button that the left mouse button goes down on, the other forgets it when the left mouse button
goes up over some widget, and calls the callback of the button when this is the widget.

The first handler is only called when the picked widget is a button, the second one when some
widget is picked: a release outside the window is missed, and the button stays armed. Every record
in front of these two leaves the state alone, and no later one calls their handlers or changes the
button that they remember, whatever the callbacks of the program do through the library.

## Main definitions

* `CallsLibrary`, `ProgramCallback`, `Turn`, `Turn.run`.
* `PressOn`, `ReleaseOn`, `Armed`, `Clicks`.
* `Visit.clickCall`, `clickCalls`.

## Main results

* `pressed_iff_armed`: the button that is remembered.
* `clicks_exact`.
-/

namespace GuiLibrary

open Cells Traces

section Runs

variable [Hardware] [Raster]

/-- Calls to the library, one after the other. -/
def CallsLibrary : AppState → AppState → Prop :=
  Relation.ReflTransGen fun s s' => ∃ c : LibraryCall, c.run s = some s'

/-- The calls of a list, in its order. -/
def LibraryCall.runAll (calls : List LibraryCall) (s : AppState) : Option AppState :=
  calls.foldlM (fun s c => c.run s) s

/-- A callback of the programmer, which changes the state by calls to the library. -/
structure ProgramCallback where
  run : UserCallback
  callsLibrary : ∀ s widget event userParam s' processed,
    run s widget event userParam = some (s', processed) → CallsLibrary s s'

/-- A call of the program outside of the main loop, or a round of the main loop. -/
inductive Turn
  | call (c : LibraryCall)
  | round (user : ℕ → ProgramCallback) (fuel : ℕ) (event : Event)

/-- What happens in a turn. -/
def Turn.run : Turn → AppState → Option AppState
  | call c, s => c.run s
  | round user fuel event, s => dispatch (fun id => (user id).run) fuel s event

/-- A run of the application with its history. -/
def Run : List (AppState × Turn) → AppState → Prop :=
  Traced (fun s => ∃ size rootSurface pickSurface,
    eiAppCreate size rootSurface pickSurface = some s) Turn.run fun _ _ _ => True

end Runs

/-! ### Presses and releases -/

/-- The left mouse button goes down on the button `b`. -/
def PressOn (s : AppState) (event : Event) (b : Ptr) : Prop :=
  event.IsLeftDown ∧ eiWidgetPick s event.mouse = some (some b) ∧
    ∃ w a, s.widgets b = some w ∧ w.attrs = .button a

/-- The left mouse button goes up over some widget. -/
def ReleaseOn (s : AppState) (event : Event) : Prop :=
  event.IsLeftUp ∧ ∃ p, eiWidgetPick s event.mouse = some (some p)

section Histories

variable [Hardware] [Raster]

/-- In the turn the left mouse button goes down on the button `b`. -/
def PressedIn (b : Ptr) (x : AppState × Turn) : Prop :=
  ∃ user fuel event, x.2 = .round user fuel event ∧ PressOn x.1 event b

/-- In the turn the left mouse button goes up over some widget. -/
def ReleasedIn (x : AppState × Turn) : Prop :=
  ∃ user fuel event, x.2 = .round user fuel event ∧ ReleaseOn x.1 event

/-- The last press on a button was on `b`, and there has been no release over a widget since. -/
def Armed (history : List (AppState × Turn)) (b : Ptr) : Prop :=
  Since (PressedIn b) (fun x => (∃ b', PressedIn b' x) ∨ ReleasedIn x) history

/-- The event is a click on the button `b`. -/
def Clicks (history : List (AppState × Turn)) (s : AppState) (event : Event) (b : Ptr) : Prop :=
  event.IsLeftUp ∧ eiWidgetPick s event.mouse = some (some b) ∧ Armed history b

end Histories

/-- The call that is made to the callback of a button in a visit of a record: the callback, the
button, and the parameter. -/
def Visit.clickCall (event : Event) (v : Visit) : Option (ℕ × Ptr × Option ℕ) := do
  let b ← v.before.binds v.bind
  if b.eventtype = event.type ∧ b.toBinding.applies v.before event = some true ∧
      b.callback = .eiHandleButtonUp then
    (buttonUpCall v.before event).map Prod.snd
  else none

/-- The calls that are made to the callbacks of buttons in a round. -/
def clickCalls (user : ℕ → UserCallback) (fuel : ℕ) (s : AppState) (event : Event) :
    List (ℕ × Ptr × Option ℕ) :=
  (visits user fuel s event s.topEventBind).filterMap (Visit.clickCall event)

/-! ### The handler of a release -/

section Handlers

variable {s s' : AppState} {event : Event} {b : Ptr}

/-- What a pick reads is the root widget first. -/
theorem hasWindow_of_eiWidgetPick {mouse : Point} {picked : Option Ptr}
    (h : eiWidgetPick s mouse = some picked) : ∃ window, s.HasWindow window := by
  simp only [eiWidgetPick, eiWidgetPickRec, AppState.search, searchFrom, Option.bind_eq_bind,
    Option.bind_eq_some_iff] at h
  obtain ⟨root, hroot, w, hw, -⟩ := h
  exact ⟨_, root, w, hroot, hw, rfl⟩

/-- The callback of a button is called when the button is released on itself. -/
theorem buttonUpCall_eq_some {w : Widget} {a : ButtonAttrs} {callback : ℕ}
    (hup : event.IsLeftUp) (hpick : eiWidgetPick s event.mouse = some (some b))
    (hpressed : s.buttonPressed = some b) (hb : s.widgets b = some w) (ha : w.attrs = .button a)
    (hcallback : a.callback = some callback) :
    ∃ s', buttonUpCall s event = some (s', callback, b, a.userParam.join) := by
  obtain ⟨window, hwin⟩ := hasWindow_of_eiWidgetPick hpick
  have hwin' : ({ s with buttonPressed := none } : AppState).HasWindow window := hwin
  obtain ⟨s₁, hshow⟩ := exists_showButton (p := b) hwin' hb ha .raised false
  obtain ⟨-, v, a', w', hv, ha', hw', hattrs⟩ := showButton_effect hshow
  obtain rfl := Option.some.inj (hb.symm.trans hv)
  obtain rfl := Attrs.button.inj (ha.symm.trans ha')
  have hleft : ¬ (event.type ≠ .mouseButtonup ∨ event.button ≠ .left) := by
    simp [hup.1, hup.2]
  refine ⟨s₁, ?_⟩
  simp only [buttonUpCall, if_neg hleft, hpick, hpressed, hshow, hw', hattrs, hcallback,
    Option.bind_eq_bind, Option.bind_some, ne_eq, not_true_eq_false, if_false, Option.map_some]

/-- Only the button that is released on itself has its callback called. -/
theorem buttonUpCall_cases {c : AppState × ℕ × Ptr × Option ℕ}
    (h : buttonUpCall s event = some c) : event.IsLeftUp ∧
      eiWidgetPick s event.mouse = some (some c.2.2.1) ∧ s.buttonPressed = some c.2.2.1 := by
  rw [buttonUpCall] at h
  split_ifs at h with hleft
  rw [not_or, not_not, not_not] at hleft
  simp only [Option.bind_eq_bind, Option.bind_eq_some_iff] at h
  obtain ⟨picked, hpick, button, rfl, h⟩ := h
  split_ifs at h with hpressed
  rw [not_not] at hpressed
  obtain ⟨s₁, -, h⟩ := Option.bind_eq_some_iff.mp h
  obtain ⟨w, -, h⟩ := Option.bind_eq_some_iff.mp h
  split at h
  · obtain ⟨callback, -, rfl⟩ := Option.map_eq_some_iff.mp h
    exact ⟨hleft, hpick, hpressed⟩
  · simp at h
  · simp at h

variable [Hardware] [Raster] {user : ℕ → ProgramCallback} {processed : Bool}

/-- The handler of a release may call a callback of the program at its end. -/
theorem eiHandleButtonUp_user
    (h : eiHandleButtonUp (fun id => (user id).run) s event = some (s', processed)) :
    processed = false ∧ ∃ s₁, eiHandleButtonUp noCallback s event = some (s₁, false) ∧
      CallsLibrary s₁ s' := by
  rw [eiHandleButtonUp_eq] at h
  have hnone := eiHandleButtonUp_eq noCallback s event
  cases hcall : buttonUpCall s event with
  | none =>
    rw [hcall] at h hnone
    have hrun : eiHandleButtonUp noCallback s event = some (s', processed) := hnone.trans h
    obtain ⟨rfl, -⟩ := eiHandleButtonUp_effect hrun
    exact ⟨rfl, s', hrun, .refl⟩
  | some c =>
    obtain ⟨s₁, callback, button, userParam⟩ := c
    rw [hcall] at h hnone
    obtain ⟨⟨s₂, p⟩, hrun, heq⟩ := Option.map_eq_some_iff.mp h
    obtain ⟨rfl, rfl⟩ := Prod.mk.inj heq
    exact ⟨rfl, s₁, hnone, (user callback).callsLibrary _ _ _ _ _ _ hrun⟩

end Handlers

/-! ### What a round keeps -/

/-- The widgets form a tree, the bindings a list, and the records of the library are in place. -/
structure Steady (s : AppState) : Prop where
  bind : BindInvariant s
  wired : Wired s

section Rounds

variable [Hardware] [Raster] {s s' : AppState} {event : Event}

theorem Steady.call {c : LibraryCall} (h : Steady s) (hrun : c.run s = some s') :
    Steady s' ∧ s'.buttonPressed = s.buttonPressed :=
  ⟨⟨h.bind.call hrun, h.wired.call hrun⟩,
    congrArg Prod.fst (Retains.call h.bind.wellFormed hrun).shared⟩

/-- The calls of a callback, by induction on their number. -/
theorem Steady.callsLibrary (h : Steady s) (hcalls : CallsLibrary s s') :
    Steady s' ∧ s'.buttonPressed = s.buttonPressed := by
  induction hcalls with
  | refl => exact ⟨h, rfl⟩
  | tail _ hcall ih =>
    obtain ⟨c, hrun⟩ := hcall
    obtain ⟨hsteady, hpressed⟩ := ih.1.call hrun
    exact ⟨hsteady, hpressed.trans ih.2⟩

omit [Hardware] [Raster] in
/-- A handler of the library keeps the wiring. -/
theorem Wired.callback {callback : Callback} {widget : Option Ptr} {userParam : Option ℕ}
    {processed : Bool} (h : Wired s)
    (hrun : runCallback noCallback callback s widget event userParam = some (s', processed)) :
    Wired s' := by
  rcases runCallback_cases hrun with hsets | ⟨-, p, t, n, resizable, s₁, -, -, -, -, hskel,
    hdestroy, -⟩
  · exact h.of_keepsBinds ⟨congrArg Skeleton.binds hsets.tree,
      congrArg Skeleton.topEventBind hsets.tree, congrArg Skeleton.nextBind hsets.tree⟩
  · exact (h.of_skeleton hskel).eiWidgetDestroy hdestroy

omit [Hardware] [Raster] in
theorem Steady.callback (callback : Callback) (widget : Option Ptr) (userParam : Option ℕ)
    {processed : Bool} (h : Steady s)
    (hrun : runCallback noCallback callback s widget event userParam = some (s', processed)) :
    Steady s' :=
  ⟨h.bind.callback hrun, h.wired.callback hrun⟩

/-- **A callback other than the two handlers** keeps the button that is remembered. -/
theorem Steady.quiet {user : ℕ → ProgramCallback} {callback : Callback} {widget : Option Ptr}
    {userParam : Option ℕ} {processed : Bool} (h : Steady s) (hquiet : ¬ callback.Animates)
    (hrun : runCallback (fun id => (user id).run) callback s widget event userParam =
      some (s', processed)) : Steady s' ∧ s'.buttonPressed = s.buttonPressed := by
  have hnone : (∀ id, callback ≠ .user id) →
      runCallback noCallback callback s widget event userParam = some (s', processed) :=
    fun huser => by
      cases callback with
      | user id => exact absurd rfl (huser id)
      | eiHandleButtonUp => exact absurd (Or.inr rfl) hquiet
      | _ => exact hrun
  by_cases huser : ∀ id, callback ≠ .user id
  · have hrun := hnone huser
    refine ⟨h.callback _ _ _ hrun, ?_⟩
    by_cases hmove : callback = .eiHandleButtonMove
    · subst hmove
      obtain ⟨-, rfl | ⟨p, relief, b, -, hshow⟩⟩ := eiHandleButtonMove_effect hrun
      · rfl
      · exact congrArg Prod.fst (showButton_effect hshow).1.shared
    · exact (runCallback_quiet (fun hdown => hquiet (Or.inl hdown)) (fun hup => hquiet (Or.inr hup))
        hmove hrun).1
  · simp only [ne_eq, not_forall, not_not] at huser
    obtain ⟨id, rfl⟩ := huser
    exact h.callsLibrary ((user id).callsLibrary _ _ _ _ _ _ hrun)

variable {user : ℕ → ProgramCallback} {processed : Bool}

theorem Steady.runBinding {b : Binding} (h : Steady s) (hquiet : ¬ b.callback.Animates)
    (hrun : GuiLibrary.runBinding (fun id => (user id).run) s event b = some (s', processed)) :
    Steady s' ∧ s'.buttonPressed = s.buttonPressed := by
  rcases runBinding_runs hrun with ⟨-, -, hrun⟩ | ⟨-, rfl, -⟩
  · exact h.quiet hquiet hrun
  · exact ⟨h, rfl⟩

/-- **The rest of a round keeps the button that is remembered**, by induction on the number of
records visited: the links ascend, so none of them is one of the two handlers. -/
theorem Steady.dispatchLoop (fuel : ℕ) : ∀ {s s' : AppState} {top : Option Ptr}, Steady s →
    (∀ p, top = some p → 1 < p) →
      GuiLibrary.dispatchLoop (fun id => (user id).run) fuel s event top = some s' →
        Steady s' ∧ s'.buttonPressed = s.buttonPressed := by
  induction fuel with
  | zero =>
    intro s s' top h _ hrun
    cases top with
    | none => exact Option.some.inj hrun ▸ ⟨h, rfl⟩
    | some p => simp [GuiLibrary.dispatchLoop] at hrun
  | succ fuel ih =>
    intro s s' top h htop hrun
    cases top with
    | none => exact Option.some.inj hrun ▸ ⟨h, rfl⟩
    | some p =>
      simp only [GuiLibrary.dispatchLoop, Option.bind_eq_bind, Option.bind_eq_some_iff,
        Prod.exists] at hrun
      obtain ⟨b, hb, s₁, processed, h₁, b', hb', hrun⟩ := hrun
      obtain ⟨hs₁, hpressed⟩ := h.runBinding (h.wired.others p b hb (htop p rfl)) h₁
      split_ifs at hrun
      · exact Option.some.inj hrun ▸ ⟨hs₁, hpressed⟩
      · obtain ⟨hs', hpressed'⟩ := ih hs₁ (fun q hq => Nat.lt_trans (htop p rfl)
          (hs₁.wired.ascend p b' q hb' hq).1) hrun
        exact ⟨hs', hpressed'.trans hpressed⟩

/-- **The first record** remembers the button that is pressed, or does nothing. -/
theorem runBinding_down
    (h : runBinding (fun id => (user id).run) s event buttonDownBinding = some (s', processed)) :
    processed = false ∧ ((∃ b, PressOn s event b ∧ s'.buttonPressed = some b) ∨
      (∀ b, ¬ PressOn s event b) ∧ s' = s) := by
  rcases runBinding_runs h with ⟨-, -, hrun⟩ | ⟨hnot, rfl, rfl⟩
  · obtain ⟨rfl, ⟨hno, rfl⟩ | ⟨hleft, b, hpick, hshow⟩⟩ := eiHandleButtonDown_effect hrun
    · refine ⟨rfl, Or.inr ⟨fun b hpress => ?_, rfl⟩⟩
      rcases hno with hno | hno
      · exact hno hpress.1
      · exact absurd (hno.symm.trans hpress.2.1) (by simp)
    · obtain ⟨hretains, w, a, w', hw, ha, -⟩ := showButton_effect hshow
      exact ⟨rfl, Or.inl ⟨b, ⟨hleft, hpick, w, a, hw, ha⟩, congrArg Prod.fst hretains.shared⟩⟩
  · refine ⟨rfl, Or.inr ⟨fun b hpress => hnot ?_, rfl⟩⟩
    obtain ⟨hleft, hpick, w, a, hw, ha⟩ := hpress
    refine ⟨hleft.1.symm, ?_⟩
    rw [applies_of_picked rfl rfl rfl hpick hw]
    simp [Tag.designates, tagButton, Widget.wclass, ha, Attrs.wclass, WidgetClass.name]

/-- **The second record** forgets the button at a release over a widget, or leaves it. -/
theorem runBinding_up (hs : Steady s)
    (h : runBinding (fun id => (user id).run) s event buttonUpBinding = some (s', processed)) :
    processed = false ∧ Steady s' ∧ (ReleaseOn s event ∧ s'.buttonPressed = none ∨
      ¬ ReleaseOn s event ∧ s'.buttonPressed = s.buttonPressed) := by
  rcases runBinding_runs h with ⟨-, happlies, hrun⟩ | ⟨hnot, rfl, rfl⟩
  · obtain ⟨p, hpick⟩ := exists_picked_of_applies rfl rfl rfl happlies
    obtain ⟨rfl, s₁, hnone, hcalls⟩ := eiHandleButtonUp_user hrun
    have hs₁ : Steady s₁ := hs.callback .eiHandleButtonUp none none hnone
    obtain ⟨hsteady, hpressed⟩ := hs₁.callsLibrary hcalls
    refine ⟨rfl, hsteady, ?_⟩
    rw [hpressed]
    obtain ⟨-, ⟨hnot, rfl⟩ | ⟨hup, picked, -, ⟨-, rfl⟩ | ⟨q, -, -, hshow⟩⟩⟩ :=
      eiHandleButtonUp_effect hnone
    · exact Or.inr ⟨fun hrelease => hnot hrelease.1, rfl⟩
    · exact Or.inl ⟨⟨hup, p, hpick⟩, rfl⟩
    · exact Or.inl ⟨⟨hup, p, hpick⟩, congrArg Prod.fst (showButton_effect hshow).1.shared⟩
  · refine ⟨rfl, hs, Or.inr ⟨fun ⟨hup, p, hpick⟩ => hnot ⟨hup.1.symm, ?_⟩, rfl⟩⟩
    obtain ⟨w, hw⟩ := AppState.live_iff.mp (live_of_eiWidgetPick hs.bind.wellFormed hpick)
    rw [applies_of_picked rfl rfl rfl hpick hw]
    simp [Tag.designates, tagAll]

/-- Every pass through the loop keeps the state steady. -/
theorem Steady.pass {b : Binding} (h : Steady s)
    (hrun : GuiLibrary.runBinding (fun id => (user id).run) s event b = some (s', processed)) :
    Steady s' := by
  rcases runBinding_runs hrun with ⟨-, -, hrun⟩ | ⟨-, rfl, -⟩
  · by_cases hquiet : b.callback.Animates
    · rcases hquiet with hdown | hup
      · rw [hdown] at hrun
        exact h.callback .eiHandleButtonDown none none hrun
      · rw [hup] at hrun
        obtain ⟨-, s₁, hnone, hcalls⟩ := eiHandleButtonUp_user hrun
        exact ((h.callback .eiHandleButtonUp none none hnone).callsLibrary hcalls).1
    · exact (h.quiet hquiet hrun).1
  · exact h

/-- **A round** visits the two records first, and then keeps the button that is remembered. -/
theorem dispatch_records {fuel : ℕ} (hs : Steady s)
    (h : dispatch (fun id => (user id).run) fuel s event = some s') :
    ∃ s₁ s₂, runBinding (fun id => (user id).run) s event buttonDownBinding = some (s₁, false) ∧
      runBinding (fun id => (user id).run) s₁ event buttonUpBinding = some (s₂, false) ∧
      Steady s' ∧ s'.buttonPressed = s₂.buttonPressed := by
  rw [dispatch, hs.wired.top] at h
  cases fuel with
  | zero => simp [dispatchLoop] at h
  | succ fuel =>
    simp only [dispatchLoop, hs.wired.down, Option.bind_eq_bind, Option.bind_some,
      Option.bind_eq_some_iff, Prod.exists] at h
    obtain ⟨s₁, processed, h₁, b, hb, h⟩ := h
    obtain ⟨rfl, -⟩ := runBinding_down h₁
    have hs₁ := hs.pass h₁
    obtain rfl := Option.some.inj (hb.symm.trans hs₁.wired.down)
    rw [if_neg Bool.false_ne_true] at h
    obtain ⟨next, hup⟩ := hs₁.wired.up
    cases fuel with
    | zero => simp [dispatchLoop] at h
    | succ fuel =>
      simp only [dispatchLoop, hup, Option.bind_eq_bind, Option.bind_some,
        Option.bind_eq_some_iff, Prod.exists] at h
      obtain ⟨s₂, processed, h₂, b', hb', h⟩ := h
      obtain ⟨rfl, hs₂, -⟩ := runBinding_up hs₁ h₂
      rw [if_neg Bool.false_ne_true] at h
      exact ⟨s₁, s₂, h₁, h₂, hs₂.dispatchLoop fuel
        (fun q hq => (hs₂.wired.ascend 1 b' q hb' hq).1) h⟩

omit [Hardware] [Raster] in
theorem not_press_of_release {b : Ptr} (h : ReleaseOn s event) : ¬ PressOn s event b := by
  rintro ⟨hdown, -⟩
  exact absurd (hdown.1.symm.trans h.1.1) (by simp)

/-- **The button that is remembered after a round**: the one that is pressed, none after a release
over a widget, and else the same as before. -/
theorem buttonPressed_of_dispatch {fuel : ℕ} (hs : Steady s)
    (h : dispatch (fun id => (user id).run) fuel s event = some s') : Steady s' ∧
      ((∃ b, PressOn s event b ∧ s'.buttonPressed = some b) ∨
        ReleaseOn s event ∧ s'.buttonPressed = none ∨
        (∀ b, ¬ PressOn s event b) ∧ ¬ ReleaseOn s event ∧
          s'.buttonPressed = s.buttonPressed) := by
  obtain ⟨s₁, s₂, h₁, h₂, hs', hpressed⟩ := dispatch_records hs h
  refine ⟨hs', ?_⟩
  rw [hpressed]
  rcases (runBinding_down h₁).2 with ⟨b, hpress, hb⟩ | ⟨hno, rfl⟩
  · -- A press is no release: the second record does not apply.
    refine Or.inl ⟨b, hpress, ?_⟩
    have hdown : buttonUpBinding.eventtype ≠ event.type := by
      rw [hpress.1.1]
      decide
    rw [runBinding, if_neg hdown] at h₂
    obtain ⟨rfl, -⟩ := Prod.mk.inj (Option.some.inj h₂)
    exact hb
  · rcases (runBinding_up hs h₂).2.2 with ⟨hrelease, hnone⟩ | ⟨hrelease, hsame⟩
    · exact Or.inr (Or.inl ⟨hrelease, hnone⟩)
    · exact Or.inr (Or.inr ⟨hno, hrelease, hsame⟩)

/-! ### Runs -/

variable {history : List (AppState × Turn)}

/-- The button that is remembered is the one that is armed. -/
structure Tracks (history : List (AppState × Turn)) (s : AppState) : Prop where
  steady : Steady s
  armed : ∀ b, s.buttonPressed = some b ↔ Armed history b

@[simp] theorem pressedIn_round {fuel : ℕ} {b : Ptr} :
    PressedIn b (s, .round user fuel event) ↔ PressOn s event b := by
  constructor
  · rintro ⟨_, _, _, h, hpress⟩
    obtain ⟨rfl, rfl, rfl⟩ := Turn.round.inj h
    exact hpress
  · exact fun h => ⟨user, fuel, event, rfl, h⟩

@[simp] theorem releasedIn_round {fuel : ℕ} :
    ReleasedIn (s, .round user fuel event) ↔ ReleaseOn s event := by
  constructor
  · rintro ⟨_, _, _, h, hrelease⟩
    obtain ⟨rfl, rfl, rfl⟩ := Turn.round.inj h
    exact hrelease
  · exact fun h => ⟨user, fuel, event, rfl, h⟩

@[simp] theorem not_pressedIn_call {c : LibraryCall} {b : Ptr} :
    ¬ PressedIn b (s, .call c) := by
  simp [PressedIn]

@[simp] theorem not_releasedIn_call {c : LibraryCall} : ¬ ReleasedIn (s, .call c) := by
  simp [ReleasedIn]

/-- A turn without a press on a button and without a release over a widget. -/
theorem Tracks.keep {turn : Turn} (h : Tracks history s) (hs' : Steady s')
    (hpressed : s'.buttonPressed = s.buttonPressed) (hpress : ∀ b, ¬ PressedIn b (s, turn))
    (hrelease : ¬ ReleasedIn (s, turn)) : Tracks (history ++ [(s, turn)]) s' := by
  refine ⟨hs', fun b => ?_⟩
  rw [hpressed, h.armed, Armed, Armed, since_concat_iff]
  simp [hpress, hrelease]

/-- **A turn keeps track of the button.** -/
theorem Tracks.step {turn : Turn} (h : Tracks history s) (hrun : turn.run s = some s') :
    Tracks (history ++ [(s, turn)]) s' := by
  cases turn with
  | call c =>
    obtain ⟨hs', hpressed⟩ := h.steady.call hrun
    exact h.keep hs' hpressed (by simp) (by simp)
  | round user fuel event =>
    obtain ⟨hs', ⟨b, hpress, hpressed⟩ | ⟨hrelease, hpressed⟩ | ⟨hpress, hrelease, hpressed⟩⟩ :=
      buttonPressed_of_dispatch h.steady hrun
    · refine ⟨hs', fun b' => ?_⟩
      rw [hpressed, Armed, since_concat_iff, pressedIn_round]
      constructor
      · intro hb
        exact Or.inl (Option.some.inj hb ▸ hpress)
      · rintro (hpress' | ⟨-, hnot⟩)
        · exact Option.some.inj (hpress.2.1.symm.trans hpress'.2.1)
        · exact absurd (Or.inl ⟨b, pressedIn_round.mpr hpress⟩) hnot
    · refine ⟨hs', fun b' => ?_⟩
      rw [hpressed, Armed, since_concat_iff, pressedIn_round]
      refine iff_of_false (by simp) ?_
      rintro (hpress | ⟨-, hnot⟩)
      · exact not_press_of_release hrelease hpress
      · exact hnot (Or.inr (releasedIn_round.mpr hrelease))
    · exact h.keep hs' hpressed (by simpa using hpress) (by simpa using hrelease)

/-- **The library remembers the button that is armed**, in every state of a run. -/
theorem Tracks.run (h : Run history s) : Tracks history s := by
  refine h.invariant (I := Tracks) ?_ fun _ _ _ _ htracks _ hrun => htracks.step hrun
  rintro s ⟨size, rootSurface, pickSurface, h⟩
  have hstart := Started.of_eq h
  refine ⟨⟨hstart.bindInvariant, wired_of_eiAppCreate h⟩, fun b => ?_⟩
  rw [hstart.buttonPressed]
  exact iff_of_false (by simp) (not_since_nil _ _)

/-- Calls of the program extend a run. -/
theorem Run.calls (calls : List LibraryCall) : ∀ {history s s'},
    Run history s → LibraryCall.runAll calls s = some s' → ∃ history', Run history' s' := by
  induction calls with
  | nil =>
    intro history s s' hrun h
    exact ⟨history, Option.some.inj h ▸ hrun⟩
  | cons c calls ih =>
    intro history s s' hrun h
    obtain ⟨s₁, h₁, h⟩ := Option.bind_eq_some_iff.mp h
    have hcall : (Turn.call c).run s = some s₁ := h₁
    exact ih (hrun.step trivial hcall) h

/-! ### The calls for a button -/

/-- The records that a round visits ascend from the first one, by induction on their number. -/
theorem Steady.visits (fuel : ℕ) : ∀ {s : AppState} {top : Option Ptr}, Steady s →
    ∀ v ∈ GuiLibrary.visits (fun id => (user id).run) fuel s event top,
      Steady v.before ∧ ∀ p, top = some p → p ≤ v.bind := by
  induction fuel with
  | zero =>
    intro s top _ v hv
    cases top with
    | none => simp [GuiLibrary.visits] at hv
    | some p => simp [GuiLibrary.visits] at hv
  | succ fuel ih =>
    intro s top h v hv
    cases top with
    | none => simp [GuiLibrary.visits] at hv
    | some p =>
      rcases List.mem_cons.mp hv with rfl | hv
      · exact ⟨h, fun q hq => Nat.le_of_eq (Option.some.inj hq).symm⟩
      · split at hv
        · simp at hv
        · next s₁ processed h₁ =>
          obtain ⟨b, hb, h₁⟩ := Option.bind_eq_some_iff.mp h₁
          have hs₁ := h.pass h₁
          split at hv
          · simp at hv
          · next b' hb' =>
            split_ifs at hv
            · simp at hv
            · obtain ⟨hbefore, hle⟩ := ih hs₁ v hv
              refine ⟨hbefore, fun q hq => ?_⟩
              obtain rfl := Option.some.inj hq
              cases hnext : b'.next with
              | none => simp [hnext] at hv
              | some q =>
                exact Nat.le_trans (Nat.le_of_lt (hs₁.wired.ascend p b' q hb' hnext).1)
                  (hle q hnext)

omit [Hardware] [Raster] in
/-- Only the second record makes a call for a button, at a release. -/
theorem clickCall_eq_none {v : Visit} (hs : Steady v.before)
    (h : v.bind ≠ 1 ∨ event.type ≠ .mouseButtonup) : v.clickCall event = none := by
  cases hb : v.before.binds v.bind with
  | none => simp [Visit.clickCall, hb]
  | some b =>
    obtain ⟨next, hone⟩ := hs.wired.up
    have hno : ¬ (b.eventtype = event.type ∧ b.toBinding.applies v.before event = some true ∧
        b.callback = .eiHandleButtonUp) := by
      rintro ⟨htype, -, hup⟩
      by_cases hbind : v.bind = 1
      · rw [hbind] at hb
        obtain rfl := Option.some.inj (hb.symm.trans hone)
        exact h.elim (absurd hbind) fun hne => hne htype.symm
      · by_cases hzero : v.bind = 0
        · rw [hzero] at hb
          obtain rfl := Option.some.inj (hb.symm.trans hs.wired.down)
          exact absurd hup (by decide)
        · have hlt : 1 < v.bind := Nat.lt_of_le_of_ne (Nat.one_le_iff_ne_zero.mpr hzero)
            (Ne.symm hbind)
          exact hs.wired.others _ b hb hlt (Or.inr hup)
    simp only [Visit.clickCall, hb, Option.bind_eq_bind, Option.bind_some, if_neg hno]

/-- A round only makes calls for a button at a release. -/
theorem clickCalls_eq_nil {fuel : ℕ} (hs : Steady s) (htype : event.type ≠ .mouseButtonup) :
    clickCalls (fun id => (user id).run) fuel s event = [] :=
  List.filterMap_eq_nil_iff.mpr fun v hv =>
    clickCall_eq_none (hs.visits fuel v hv).1 (Or.inr htype)

omit [Hardware] [Raster] in
/-- What the second record calls at a release. -/
theorem clickCall_record (hs : Steady s) (htype : event.type = .mouseButtonup)
    (outcome : Option (AppState × Bool)) :
    Visit.clickCall event ⟨1, s, outcome⟩ = (buttonUpCall s event).map Prod.snd := by
  obtain ⟨next, hone⟩ := hs.wired.up
  simp only [Visit.clickCall, hone, Option.bind_eq_bind, Option.bind_some]
  cases hcall : buttonUpCall s event with
  | none => split_ifs <;> rfl
  | some c =>
    have hpick := (buttonUpCall_cases hcall).2.1
    obtain ⟨w, hw⟩ := AppState.live_iff.mp (live_of_eiWidgetPick hs.bind.wellFormed hpick)
    have happlies : buttonUpBinding.applies s event = some true := by
      rw [applies_of_picked rfl rfl rfl hpick hw]
      simp [Tag.designates, tagAll]
    rw [if_pos ⟨htype.symm, happlies, rfl⟩]

/-- **A release makes the call of the second record**, and no other one. -/
theorem clickCalls_of_release {fuel : ℕ} (hs : Steady s) (hfuel : 2 ≤ fuel)
    (htype : event.type = .mouseButtonup) :
    clickCalls (fun id => (user id).run) fuel s event =
      ((buttonUpCall s event).map Prod.snd).toList := by
  obtain ⟨fuel, rfl⟩ := Nat.exists_eq_add_of_le' hfuel
  obtain ⟨next, hone⟩ := hs.wired.up
  have hdown : runBinding (fun id => (user id).run) s event buttonDownBinding =
      some (s, false) := by
    have hne : buttonDownBinding.eventtype ≠ event.type := by
      rw [htype]
      decide
    rw [runBinding, if_neg hne]
  have hfirst : Visit.clickCall event ⟨0, s, some (s, false)⟩ = none :=
    clickCall_eq_none hs (Or.inl (by simp))
  have hvisits : ∃ outcome rest, GuiLibrary.visits (fun id => (user id).run) (fuel + 2) s event
      s.topEventBind = ⟨0, s, some (s, false)⟩ :: ⟨1, s, outcome⟩ :: rest ∧
        ∀ v ∈ rest, Steady v.before ∧ 1 < v.bind := by
    simp only [GuiLibrary.visits, hs.wired.top, hs.wired.down, hone, hdown, Option.bind_some,
      Bool.false_eq_true, if_false]
    refine ⟨_, _, rfl, fun v hv => ?_⟩
    split at hv
    · simp at hv
    · next s₂ processed h₂ =>
      have hs₂ := hs.pass h₂
      split at hv
      · simp at hv
      · next b hb =>
        split_ifs at hv
        · simp at hv
        · obtain ⟨hbefore, hle⟩ := hs₂.visits fuel v hv
          cases hnext : b.next with
          | none => simp [hnext] at hv
          | some q =>
            exact ⟨hbefore, Nat.lt_of_lt_of_le (hs₂.wired.ascend 1 b q hb hnext).1 (hle q hnext)⟩
  obtain ⟨outcome, rest, hvisits, hrest⟩ := hvisits
  have hnil : rest.filterMap (Visit.clickCall event) = [] :=
    List.filterMap_eq_nil_iff.mpr fun v hv =>
      clickCall_eq_none (hrest v hv).1 (Or.inl (Nat.ne_of_gt (hrest v hv).2))
  rw [clickCalls, hvisits, List.filterMap_cons_none hfirst, List.filterMap_cons,
    clickCall_record hs htype, hnil]
  cases buttonUpCall s event <;> rfl

/-- **Clicks are recognised exactly.** In every run the callback of a button is called in a round
exactly when the event is a click on the button, and a click makes this call once, with the
parameter of the button, and no other one for a button. The callbacks of the program may do
anything through the library, and the fuel only has to suffice for the two records. -/
theorem clicks_exact (h : Run history s) {fuel : ℕ} (hfuel : 2 ≤ fuel) {b : Ptr} {w : Widget}
    {a : ButtonAttrs} {callback : ℕ} (hb : s.widgets b = some w) (ha : w.attrs = .button a)
    (hcallback : a.callback = some callback) :
    ((∃ call ∈ clickCalls (fun id => (user id).run) fuel s event, call.2.1 = b) ↔
        Clicks history s event b) ∧
      (Clicks history s event b → clickCalls (fun id => (user id).run) fuel s event =
        [(callback, b, a.userParam.join)]) := by
  have htracks := Tracks.run h
  have hclick : Clicks history s event b → clickCalls (fun id => (user id).run) fuel s event =
      [(callback, b, a.userParam.join)] := by
    rintro ⟨hup, hpick, harmed⟩
    obtain ⟨s', hcall⟩ := buttonUpCall_eq_some hup hpick ((htracks.armed b).mpr harmed) hb ha
      hcallback
    rw [clickCalls_of_release htracks.steady hfuel hup.1, hcall, Option.map_some,
      Option.toList_some]
  refine ⟨⟨?_, fun hc => ⟨_, by rw [hclick hc]; exact List.mem_singleton_self _, rfl⟩⟩, hclick⟩
  rintro ⟨call, hmem, rfl⟩
  by_cases htype : event.type = .mouseButtonup
  · rw [clickCalls_of_release htracks.steady hfuel htype, Option.mem_toList,
      Option.map_eq_some_iff] at hmem
    obtain ⟨c, hc, rfl⟩ := hmem
    obtain ⟨hup, hpick, hpressed⟩ := buttonUpCall_cases hc
    exact ⟨hup, hpick, (htracks.armed _).mp hpressed⟩
  · rw [clickCalls_eq_nil htracks.steady htype] at hmem
    exact absurd hmem List.not_mem_nil

end Rounds

section Sample

attribute [local instance] sampleHardware sampleRaster

/-- A program with one button, whose callback is the one with the number 7. -/
def oneButton : List LibraryCall :=
  [.create .button 0 none,
    .buttonConfigure 1
      { requestedSize := some ⟨50, 20⟩, cornerRadius := some 0, callback := some 7,
        userParam := some (some 3) },
    .place 1 { x := some 10, y := some 10 },
    .initialDraw]

/-- The callbacks of the program do nothing. -/
def idleProgram [Hardware] [Raster] (_ : ℕ) : ProgramCallback where
  run := noCallback 0
  callsLibrary _ _ _ _ _ _ h := (Prod.mk.inj (Option.some.inj h)).1 ▸ .refl

/-- The left mouse button goes down on the button. -/
def buttonPress : Event := ⟨.mouseButtondown, ⟨20, 15⟩, .left⟩

/-- The left mouse button goes up on the button. -/
def buttonRelease : Event := ⟨.mouseButtonup, ⟨30, 20⟩, .left⟩

theorem isSome_oneButton : (LibraryCall.runAll oneButton (sampleApp ⟨640, 480⟩)).isSome := by
  with_unfolding_all rfl

/-- The application with the button. -/
def sampleButton : AppState :=
  (LibraryCall.runAll oneButton (sampleApp ⟨640, 480⟩)).get isSome_oneButton

theorem isSome_buttonPress :
    (dispatch (fun id => (idleProgram id).run) 20 sampleButton buttonPress).isSome := by
  with_unfolding_all rfl

/-- The button is pressed. -/
def sampleButtonHeld : AppState :=
  (dispatch (fun id => (idleProgram id).run) 20 sampleButton buttonPress).get isSome_buttonPress

/-- The callback of a button, with its parameter. -/
def buttonCallback (w : Widget) : Option (Option ℕ × Option ℕ) :=
  match w.attrs with
  | .button a => some (a.callback, a.userParam.join)
  | .frame _ | .toplevel _ => none

/-- A press on a button and a release on it are a click. -/
theorem clicks_exact_oneButton : ∃ history, Clicks history sampleButtonHeld buttonRelease 1 ∧
    clickCalls (fun id => (idleProgram id).run) 20 sampleButtonHeld buttonRelease =
      [(7, 1, some 3)] := by
  have hstart : Run [] (sampleApp ⟨640, 480⟩) :=
    .start ⟨_, _, _, eiAppCreate_sampleApp ⟨640, 480⟩⟩
  obtain ⟨history, hbutton⟩ := Run.calls oneButton hstart (Option.some_get isSome_oneButton).symm
  have hround : (Turn.round idleProgram 20 buttonPress).run sampleButton = some sampleButtonHeld :=
    (Option.some_get isSome_buttonPress).symm
  have hheld := hbutton.step trivial hround
  have hpressed : sampleButtonHeld.buttonPressed = some 1 := by with_unfolding_all rfl
  have hpick : eiWidgetPick sampleButtonHeld buttonRelease.mouse = some (some 1) := by
    with_unfolding_all rfl
  have hclicks : Clicks _ sampleButtonHeld buttonRelease 1 :=
    ⟨⟨rfl, rfl⟩, hpick, ((Tracks.run hheld).armed 1).mp hpressed⟩
  have hcall : (sampleButtonHeld.widgets 1).bind buttonCallback = some (some 7, some 3) := by
    with_unfolding_all rfl
  obtain ⟨w, hw, hcall⟩ := Option.bind_eq_some_iff.mp hcall
  rw [buttonCallback] at hcall
  split at hcall
  · next a ha =>
    obtain ⟨hcallback, hparam⟩ := Prod.mk.inj (Option.some.inj hcall)
    exact ⟨_, hclicks, hparam ▸ (clicks_exact hheld (by decide) hw ha hcallback).2 hclicks⟩
  · simp at hcall
  · simp at hcall

end Sample

end GuiLibrary

import GuiLibrary.Handlers

/-!
# Sessions

A session is a run of the application from its creation: calls of the program to the library, and
calls of callbacks by the main loop, in any order and with any widgets and events. The callback of
a button is the last thing that its handler does; what the programmer does in it through the
library comes as further calls. The rounds of the main loop are sequences of such steps.

## Main definitions

* `Action`, `Action.run`, `Session`, `CallsFor`.

## Main results

* `BindInvariant.session`.
* `Session.dispatch`: a round of the main loop extends a session.
-/

namespace GuiLibrary

open Traces

/-- One step of a session: a call to the library, or the call of a callback by the main loop. -/
inductive Action
  | library (call : LibraryCall)
  | callback (callback : Callback) (widget : Option Ptr) (event : Event) (userParam : Option ℕ)

section Sessions

variable [Hardware] [Raster]

/-- What the step does. -/
def Action.run : Action → AppState → Option AppState
  | library call, s => call.run s
  | callback handler widget event userParam, s =>
      (runCallback noCallback handler s widget event userParam).map Prod.fst

/-- A session with its history, whose steps `may` allows. -/
def Session (may : List (AppState × Action) → AppState → Action → Prop) :
    List (AppState × Action) → AppState → Prop :=
  Traced (fun s => ∃ size rootSurface pickSurface,
    eiAppCreate size rootSurface pickSurface = some s) Action.run may

variable {may : List (AppState × Action) → AppState → Action → Prop}
  {history : List (AppState × Action)} {s s' : AppState}

theorem Action.callback_run {callback : Callback} {widget : Option Ptr} {event : Event}
    {userParam : Option ℕ} (h : (Action.callback callback widget event userParam).run s = some s') :
    ∃ processed, runCallback noCallback callback s widget event userParam =
      some (s', processed) := by
  obtain ⟨⟨s₁, processed⟩, hrun, rfl⟩ := Option.map_eq_some_iff.mp h
  exact ⟨processed, hrun⟩

omit [Hardware] [Raster] in
/-- A callback keeps the tree of the widgets and the list of the bindings. -/
theorem BindInvariant.callback {callback : Callback} {widget : Option Ptr} {event : Event}
    {userParam : Option ℕ} {processed : Bool} (h : BindInvariant s)
    (hrun : runCallback noCallback callback s widget event userParam = some (s', processed)) :
    BindInvariant s' := by
  have htree : ∀ {s₁ : AppState}, s₁.tree = s.tree → BindInvariant s₁ := fun {s₁} ht =>
    have hnodes : s₁.nodes = s.nodes := congrArg Skeleton.nodes ht
    h.sameTree ⟨fun q => by rw [hnodes], congrArg Skeleton.nextWidget ht,
      congrArg Skeleton.rootWidget ht, congrArg Skeleton.binds ht,
      congrArg Skeleton.topEventBind ht, congrArg Skeleton.nextBind ht⟩
  rcases runCallback_cases hrun with hsets | ⟨-, p, t, n, resizable, s₁, -, -, -, -, hskel,
    hdestroy, -⟩
  · exact htree hsets.tree
  · have hs₁ := htree (AppState.tree_of_skeleton hskel)
    obtain ⟨l, hl⟩ := hs₁.bindings
    obtain ⟨-, hd, hl'⟩ := eiWidgetDestroy_of_eq_some hs₁.wellFormed hl hdestroy
    exact ⟨hd.wellFormed hs₁.wellFormed, _, hl'⟩

theorem BindInvariant.action {a : Action} (h : BindInvariant s) (hrun : a.run s = some s') :
    BindInvariant s' := by
  cases a with
  | library call => exact h.call hrun
  | callback callback widget event userParam =>
    obtain ⟨processed, hrun⟩ := Action.callback_run hrun
    exact h.callback hrun

/-- **In a session the widgets form a tree and the bindings a list.** -/
theorem BindInvariant.session (h : Session may history s) : BindInvariant s := by
  refine h.invariant (I := fun _ s => BindInvariant s) ?_ fun _ _ _ _ hs _ hrun => hs.action hrun
  rintro s ⟨size, rootSurface, pickSurface, h⟩
  exact (Started.of_eq h).bindInvariant

/-- A call to the library extends a session. -/
theorem Session.library (hs : Session may history s) (call : LibraryCall)
    (hmay : may history s (.library call)) (h : call.run s = some s') :
    Session may (history ++ [(s, .library call)]) s' :=
  .step hs hmay h

/-- The steps are calls of callbacks for the event. -/
def CallsFor (event : Event) (history : List (AppState × Action)) : Prop :=
  ∀ x ∈ history, ∃ handler q u, x.2 = .callback handler q event u

/-- The rest of a round extends a session, by induction on the number of bindings visited. -/
theorem Session.dispatchLoop {event : Event} (fuel : ℕ) : ∀ {history : List (AppState × Action)}
    {s s' : AppState} {top : Option Ptr}, Session (fun _ _ _ => True) history s →
      GuiLibrary.dispatchLoop noCallback fuel s event top = some s' →
      ∃ history', CallsFor event history' ∧
        Session (fun _ _ _ => True) (history ++ history') s' := by
  induction fuel with
  | zero =>
    intro history s s' top hs h
    cases top with
    | none =>
      obtain rfl := Option.some.inj h
      exact ⟨[], by simp [CallsFor], by rwa [List.append_nil]⟩
    | some a => simp [GuiLibrary.dispatchLoop] at h
  | succ fuel ih =>
    intro history s s' top hs h
    cases top with
    | none =>
      obtain rfl := Option.some.inj h
      exact ⟨[], by simp [CallsFor], by rwa [List.append_nil]⟩
    | some a =>
      simp only [GuiLibrary.dispatchLoop, Option.bind_eq_bind, Option.bind_eq_some_iff,
        Prod.exists] at h
      obtain ⟨b, -, s₁, processed, h₁, b', -, h⟩ := h
      obtain ⟨history₁, hcalls₁, hs₁⟩ : ∃ history₁, CallsFor event history₁ ∧
          Session (fun _ _ _ => True) (history ++ history₁) s₁ := by
        rcases runBinding_runs h₁ with ⟨-, -, h₁⟩ | ⟨-, rfl, -⟩
        · exact ⟨[(s, .callback b.callback b.widget event b.userParam)], by simp [CallsFor],
            .step hs trivial (Option.map_eq_some_iff.mpr ⟨_, h₁, rfl⟩)⟩
        · exact ⟨[], by simp [CallsFor], by rwa [List.append_nil]⟩
      split_ifs at h
      · exact ⟨history₁, hcalls₁, Option.some.inj h ▸ hs₁⟩
      · obtain ⟨history₂, hcalls₂, hs₂⟩ := ih hs₁ h
        refine ⟨history₁ ++ history₂, fun x hx => ?_, List.append_assoc .. ▸ hs₂⟩
        exact (List.mem_append.mp hx).elim (hcalls₁ x) (hcalls₂ x)

/-- **A round of the main loop extends a session**, by the callbacks that it calls. -/
theorem Session.dispatch {event : Event} {fuel : ℕ} (hs : Session (fun _ _ _ => True) history s)
    (h : GuiLibrary.dispatch noCallback fuel s event = some s') :
    ∃ history', CallsFor event history' ∧
      Session (fun _ _ _ => True) (history ++ history') s' :=
  hs.dispatchLoop fuel h

end Sessions

section Sample

attribute [local instance] sampleHardware sampleRaster

/-- The placement of the toplevel of `sampleClickable`. -/
def clickablePlace : PlaceArgs where
  x := some 10
  y := some 10
  width := some 60
  height := some 40

theorem isSome_eiPlace_clickable : (eiPlace sampleToplevel 1 clickablePlace).isSome := by
  with_unfolding_all rfl

/-- A toplevel is created, placed and drawn. -/
def clickableHistory : List (AppState × Action) :=
  [(sampleApp ⟨640, 480⟩, .library (.create .toplevel 0 none)),
    (sampleToplevel, .library (.place 1 clickablePlace)),
    ((eiPlace sampleToplevel 1 clickablePlace).get isSome_eiPlace_clickable,
      .library .initialDraw)]

theorem session_sampleClickable {may : List (AppState × Action) → AppState → Action → Prop}
    (hmay : ∀ history s call, may history s (.library call)) :
    Session may clickableHistory sampleClickable := by
  have h : createClickable = some sampleClickable := (Option.some_get _).symm
  obtain ⟨s, hplace, hdraw⟩ := Option.bind_eq_some_iff.mp h
  have hplaced : (eiPlace sampleToplevel 1 clickablePlace).get isSome_eiPlace_clickable = s :=
    Option.some.inj ((Option.some_get _).trans hplace)
  have hstart : Session may [] (sampleApp ⟨640, 480⟩) :=
    .start ⟨_, _, _, eiAppCreate_sampleApp ⟨640, 480⟩⟩
  obtain ⟨w, hw⟩ := AppState.live_iff.mp (sampleApp_live ⟨640, 480⟩)
  have hcreate : (LibraryCall.create .toplevel 0 none).run (sampleApp ⟨640, 480⟩) =
      some sampleToplevel := by
    simp only [LibraryCall.run, hw, Option.bind_eq_bind, Option.bind_some,
      eiWidgetCreate_sampleToplevel, Option.map_some]
  have hsession := ((hstart.library _ (hmay _ _ _) hcreate).library (.place 1 clickablePlace)
    (hmay _ _ _) hplace).library .initialDraw (hmay _ _ _) hdraw
  rw [clickableHistory, hplaced]
  exact hsession

/-- The left mouse button goes down on the resize button. -/
def cornerPress : Event := ⟨.mouseButtondown, ⟨60, 68⟩, .left⟩

theorem isSome_dispatch_cornerPress :
    (dispatch noCallback 20 sampleClickable cornerPress).isSome := by with_unfolding_all rfl

/-- The state after the press on the resize button. -/
def sampleCornered : AppState :=
  (dispatch noCallback 20 sampleClickable cornerPress).get isSome_dispatch_cornerPress

end Sample

end GuiLibrary

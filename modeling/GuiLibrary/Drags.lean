import GuiLibrary.Sessions

/-!
# One drag at a time

A toplevel is resized by its resize button and moved by its top bar. The two drags share the offset
of the mouse: each handler that begins one writes it, and each handler that carries one out reads
it. The resize begins with the left mouse button, the move with any button, and every release ends
both, provided that it is over a widget.

So a second mouse button that goes down on a top bar while a toplevel is resized, or a release that
is missed, makes both drags active with the offset of the later one. When no drag begins while the
other kind is active, at most one is active, and the offset is its own.

## Main definitions

* `BeginsResize`, `BeginsMove`, `DecidesResize`, `DecidesMove`.
* `DragsExclusive`, `OneDrag`.

## Main results

* `DragsExclusive.step`, `drags_exclusive_of_session`.
-/

namespace GuiLibrary

open Traces

/-- The step begins to resize the toplevel `t` with this offset. -/
def BeginsResize (t : Ptr) (offset : BitVec 32 × BitVec 32) (x : AppState × Action) : Prop :=
  ∃ q event u, x.2 = .callback .begResize q event u ∧ ResizeBegins x.1 event q t offset

/-- The step begins to move the toplevel `t` with this offset. -/
def BeginsMove (t : Ptr) (offset : BitVec 32 × BitVec 32) (x : AppState × Action) : Prop :=
  ∃ q event u, x.2 = .callback .begMove q event u ∧ MoveBegins x.1 event q t offset

/-- The step begins or ends a resize. -/
def DecidesResize (x : AppState × Action) : Prop :=
  (∃ t offset, BeginsResize t offset x) ∨ ∃ q event u, x.2 = .callback .endResize q event u

/-- The step begins or ends a move. -/
def DecidesMove (x : AppState × Action) : Prop :=
  (∃ t offset, BeginsMove t offset x) ∨ ∃ q event u, x.2 = .callback .endMove q event u

/-- At most one drag is active, and the offset is the one that the last beginning of this drag has
recorded, since which no drag of its kind has begun or ended. -/
structure DragsExclusive (history : List (AppState × Action)) (s : AppState) : Prop where
  notBoth : s.resizingToplevel = none ∨ s.movingToplevel = none
  resizing : ∀ t, s.resizingToplevel = some t →
    Since (BeginsResize t s.offsetptr) DecidesResize history
  moving : ∀ t, s.movingToplevel = some t →
    Since (BeginsMove t s.offsetptr) DecidesMove history

/-- The condition on a step: a resize does not begin while a toplevel is moved, and a move does not
begin while one is resized. -/
def OneDrag (_ : List (AppState × Action)) (s : AppState) (a : Action) : Prop :=
  (∀ t offset, BeginsResize t offset (s, a) → s.movingToplevel = none) ∧
    ∀ t offset, BeginsMove t offset (s, a) → s.resizingToplevel = none

/-- The drags that are active, and the offset. -/
def AppState.drags (s : AppState) : Option Ptr × Option Ptr × BitVec 32 × BitVec 32 :=
  (s.resizingToplevel, s.movingToplevel, s.offsetptr)

theorem AppState.drags_of_shared {s s' : AppState} (h : s'.shared = s.shared) :
    s'.drags = s.drags := congrArg Prod.snd h

section Steps

variable {history : List (AppState × Action)} {s s' : AppState} {a : Action} {handler : Callback}
  {q : Option Ptr} {event : Event} {u : Option ℕ} {t : Ptr} {offset : BitVec 32 × BitVec 32}

@[simp] theorem beginsResize_callback : BeginsResize t offset (s, .callback handler q event u) ↔
    handler = .begResize ∧ ResizeBegins s event q t offset := by
  simp [BeginsResize, and_assoc]

@[simp] theorem beginsMove_callback : BeginsMove t offset (s, .callback handler q event u) ↔
    handler = .begMove ∧ MoveBegins s event q t offset := by
  simp [BeginsMove, and_assoc]

@[simp] theorem decidesResize_callback : DecidesResize (s, .callback handler q event u) ↔
    (handler = .begResize ∧ ∃ t offset, ResizeBegins s event q t offset) ∨
      handler = .endResize := by
  simp [DecidesResize]

@[simp] theorem decidesMove_callback : DecidesMove (s, .callback handler q event u) ↔
    (handler = .begMove ∧ ∃ t offset, MoveBegins s event q t offset) ∨ handler = .endMove := by
  simp [DecidesMove]

@[simp] theorem not_decidesResize_library {call : LibraryCall} :
    ¬ DecidesResize (s, .library call) := by
  simp [DecidesResize, BeginsResize]

@[simp] theorem not_decidesMove_library {call : LibraryCall} :
    ¬ DecidesMove (s, .library call) := by
  simp [DecidesMove, BeginsMove]

/-- A call to the library begins no drag. -/
theorem oneDrag_library (history : List (AppState × Action)) (s : AppState) (call : LibraryCall) :
    OneDrag history s (.library call) :=
  ⟨fun t o h => absurd (Or.inl ⟨t, o, h⟩) not_decidesResize_library,
    fun t o h => absurd (Or.inl ⟨t, o, h⟩) not_decidesMove_library⟩

/-- A step that neither begins nor ends a drag. -/
theorem DragsExclusive.keep (h : DragsExclusive history s) (hdrags : s'.drags = s.drags)
    (hresize : ¬ DecidesResize (s, a)) (hmove : ¬ DecidesMove (s, a)) :
    DragsExclusive (history ++ [(s, a)]) s' := by
  simp only [AppState.drags, Prod.mk.injEq] at hdrags
  obtain ⟨hr, hm, ho⟩ := hdrags
  refine ⟨by rw [hr, hm]; exact h.notBoth, fun t ht => ?_, fun t ht => ?_⟩
  · rw [ho, since_concat_iff]
    exact Or.inr ⟨h.resizing t (hr ▸ ht), hresize⟩
  · rw [ho, since_concat_iff]
    exact Or.inr ⟨h.moving t (hm ▸ ht), hmove⟩

/-- **A callback keeps the drags exclusive**, when it meets the condition. -/
theorem DragsExclusive.callback {processed : Bool} (h : DragsExclusive history s)
    (hmay : OneDrag history s (.callback handler q event u))
    (hrun : runCallback noCallback handler s q event u = some (s', processed)) :
    DragsExclusive (history ++ [(s, .callback handler q event u)]) s' := by
  cases handler with
  | eiHandleButtonDown =>
    refine h.keep ?_ (by simp) (by simp)
    obtain ⟨-, ⟨-, rfl⟩ | ⟨-, p, -, hshow⟩⟩ := eiHandleButtonDown_effect hrun
    · rfl
    · exact (AppState.drags_of_shared (showButton_effect hshow).1.shared).trans rfl
  | eiHandleButtonUp =>
    refine h.keep ?_ (by simp) (by simp)
    obtain ⟨-, ⟨-, rfl⟩ | ⟨-, picked, -, ⟨-, rfl⟩ | ⟨p, -, -, hshow⟩⟩⟩ :=
      eiHandleButtonUp_effect hrun
    · rfl
    · rfl
    · exact (AppState.drags_of_shared (showButton_effect hshow).1.shared).trans rfl
  | eiHandleButtonMove =>
    refine h.keep ?_ (by simp) (by simp)
    obtain ⟨-, rfl | ⟨p, relief, b, -, hshow⟩⟩ := eiHandleButtonMove_effect hrun
    · rfl
    · exact AppState.drags_of_shared (showButton_effect hshow).1.shared
  | begResize =>
    rcases begResize_effect hrun with ⟨hnot, rfl⟩ | ⟨t, offset, hbegin, rfl⟩
    · exact h.keep rfl (by simp [hnot]) (by simp)
    · have hmoving : s.movingToplevel = none :=
        hmay.1 t offset (beginsResize_callback.mpr ⟨rfl, hbegin⟩)
      refine ⟨Or.inr hmoving, fun t' ht' => ?_, fun t' ht' => ?_⟩
      · obtain rfl := Option.some.inj ht'
        exact since_concat_iff.mpr (Or.inl (beginsResize_callback.mpr ⟨rfl, hbegin⟩))
      · exact absurd (hmoving.symm.trans ht') (by simp)
  | resize =>
    exact h.keep (AppState.drags_of_shared (resize_effect hrun).1) (by simp) (by simp)
  | endResize =>
    obtain ⟨rfl, -⟩ := Prod.mk.inj (Option.some.inj hrun)
    refine ⟨Or.inl rfl, fun t ht => by simp at ht, fun t ht => ?_⟩
    exact since_concat_iff.mpr (Or.inr ⟨h.moving t ht, by simp⟩)
  | begMove =>
    rcases begMove_effect hrun with ⟨hnot, rfl⟩ | ⟨t, offset, hbegin, rfl⟩
    · exact h.keep rfl (by simp) (by simp [hnot])
    · have hresizing : s.resizingToplevel = none :=
        hmay.2 t offset (beginsMove_callback.mpr ⟨rfl, hbegin⟩)
      refine ⟨Or.inl hresizing, fun t' ht' => ?_, fun t' ht' => ?_⟩
      · exact absurd (hresizing.symm.trans ht') (by simp)
      · obtain rfl := Option.some.inj ht'
        exact since_concat_iff.mpr (Or.inl (beginsMove_callback.mpr ⟨rfl, hbegin⟩))
  | move =>
    exact h.keep (AppState.drags_of_shared (move_effect hrun).shared) (by simp) (by simp)
  | endMove =>
    obtain ⟨rfl, -⟩ := Prod.mk.inj (Option.some.inj hrun)
    refine ⟨Or.inr rfl, fun t ht => ?_, fun t ht => by simp at ht⟩
    exact since_concat_iff.mpr (Or.inr ⟨h.resizing t ht, by simp⟩)
  | quitToplevelEvent =>
    exact h.keep (AppState.drags_of_shared (quitToplevelEvent_effect hrun).shared)
      (by simp) (by simp)
  | user id =>
    obtain ⟨rfl, -⟩ := Prod.mk.inj (Option.some.inj hrun)
    exact h.keep rfl (by simp) (by simp)

variable [Hardware] [Raster]

/-- **A step keeps the drags exclusive**, when it meets the condition. -/
theorem DragsExclusive.step (h : DragsExclusive history s) (hs : WellFormed s)
    (hmay : OneDrag history s a) (hrun : a.run s = some s') :
    DragsExclusive (history ++ [(s, a)]) s' := by
  cases a with
  | library call =>
    exact h.keep (AppState.drags_of_shared (Retains.call hs hrun).shared) (by simp) (by simp)
  | callback callback q event u =>
    obtain ⟨processed, hrun⟩ := Action.callback_run hrun
    exact h.callback hmay hrun

/-- **At most one drag is active, and the offset is its own**, in every state of a session in which
no drag begins while the other kind is active. -/
theorem drags_exclusive_of_session (h : Session OneDrag history s) : DragsExclusive history s := by
  refine (h.invariant (I := fun history s => BindInvariant s ∧ DragsExclusive history s) ?_ ?_).2
  · rintro s ⟨size, rootSurface, pickSurface, h⟩
    have hstart := Started.of_eq h
    refine ⟨hstart.bindInvariant, Or.inl hstart.resizingToplevel, fun t ht => ?_, fun t ht => ?_⟩
    · exact absurd (hstart.resizingToplevel.symm.trans ht) (by simp)
    · exact absurd (hstart.movingToplevel.symm.trans ht) (by simp)
  · rintro history s a s' ⟨hs, hdrags⟩ hmay hrun
    exact ⟨hs.action hrun, hdrags.step hs.wellFormed hmay hrun⟩

end Steps

section Sample

attribute [local instance] sampleHardware sampleRaster

theorem isSome_begMove_barPress : (begMove sampleClickable (some 1) barPress).isSome := by
  with_unfolding_all rfl

/-- A session in which a toplevel is grabbed by its top bar. -/
theorem drags_exclusive_of_session_grabbed : ∃ history, DragsExclusive history
    ((begMove sampleClickable (some 1) barPress).get isSome_begMove_barPress).1 := by
  have h := session_sampleClickable oneDrag_library
  have hrun : (Action.callback .begMove (some 1) barPress none).run sampleClickable =
      some ((begMove sampleClickable (some 1) barPress).get isSome_begMove_barPress).1 :=
    Option.map_eq_some_iff.mpr ⟨_, (Option.some_get isSome_begMove_barPress).symm, rfl⟩
  have hresizing : sampleClickable.resizingToplevel = none := by with_unfolding_all rfl
  exact ⟨_, drags_exclusive_of_session
    (h.step ⟨fun t o hb => by simp at hb, fun _ _ _ => hresizing⟩ hrun)⟩

/-- Another mouse button goes down on the top bar. -/
def otherPress : Event := ⟨.mouseButtondown, ⟨50, 15⟩, .right⟩

/-- After both presses the toplevel is in both globals. -/
theorem globals_dispatch_otherPress : (dispatch noCallback 20 sampleCornered otherPress).map
    (fun s => (s.resizingToplevel, s.movingToplevel)) = some (some 1, some 1) := by
  decide +kernel

theorem isSome_dispatch_otherPress :
    (dispatch noCallback 20 sampleCornered otherPress).isSome := by
  rw [← Option.isSome_map, globals_dispatch_otherPress, Option.isSome_some]

/-- The state after both presses. -/
def sampleBoth : AppState :=
  (dispatch noCallback 20 sampleCornered otherPress).get isSome_dispatch_otherPress

/-- The toplevel is resized and moved at once. -/
theorem sampleBoth_not_exclusive :
    dispatch noCallback 20 sampleClickable cornerPress = some sampleCornered ∧
      dispatch noCallback 20 sampleCornered otherPress = some sampleBoth ∧
      ∃ history, Session (fun _ _ _ => True) history sampleBoth ∧
        ¬ DragsExclusive history sampleBoth := by
  have h₁ : dispatch noCallback 20 sampleClickable cornerPress = some sampleCornered :=
    (Option.some_get _).symm
  have h₂ : dispatch noCallback 20 sampleCornered otherPress = some sampleBoth :=
    (Option.some_get _).symm
  have h : Session (fun _ _ _ => True) clickableHistory sampleClickable :=
    session_sampleClickable fun _ _ _ => trivial
  obtain ⟨history₁, -, hcornered⟩ := h.dispatch h₁
  obtain ⟨history₂, -, hboth⟩ := hcornered.dispatch h₂
  refine ⟨h₁, h₂, _, hboth, fun hone => ?_⟩
  have hactive : sampleBoth.resizingToplevel = some 1 ∧ sampleBoth.movingToplevel = some 1 := by
    have hglobals := globals_dispatch_otherPress
    rwa [h₂, Option.map_some, Option.some.injEq, Prod.mk.injEq] at hglobals
  rcases hone.notBoth with hnone | hnone
  · exact absurd (hactive.1.symm.trans hnone) (by simp)
  · exact absurd (hactive.2.symm.trans hnone) (by simp)

end Sample

end GuiLibrary

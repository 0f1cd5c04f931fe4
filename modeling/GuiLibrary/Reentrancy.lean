import GuiLibrary.Rounds

/-!
# Callbacks that change the bindings

While the loop over the bindings runs a callback, it keeps the address of the record it has come
to, and reads the link of this record when the callback has returned. A callback may bind events,
unbind them, and destroy widgets, which deletes their bindings. The loop only reads records of the
list exactly when no callback deletes the record of its own binding: other records may come and go.

What a callback of the programmer does is a script: the calls that it makes to the library, and
anything else that leaves the bindings alone. The handlers of the library are scripts as well.

## Main definitions

* `KeepsBinds`, `CallbackOp`, `runOps`, `Script`, `callbackScript`.
* `CallbackOp.Removes`, `RemovesDuring`, `RemovesOwn`, `InList`, `Visit.reads`.

## Main results

* `runCallback_eq_script`: every callback is a script.
* `runOps_bindings`: a record stays in the list while no operation removes it.
* `reads_inList_iff`.
-/

namespace GuiLibrary

open Cells

/-! ### What leaves the bindings alone -/

/-- The states have the same bindings. -/
structure KeepsBinds (s s' : AppState) : Prop where
  binds : s'.binds = s.binds
  topEventBind : s'.topEventBind = s.topEventBind
  nextBind : s'.nextBind = s.nextBind

namespace KeepsBinds

variable {s s₁ s₂ s' : AppState}

theorem refl (s : AppState) : KeepsBinds s s := ⟨rfl, rfl, rfl⟩

theorem trans (h₁ : KeepsBinds s s₁) (h₂ : KeepsBinds s₁ s₂) : KeepsBinds s s₂ :=
  ⟨h₂.binds.trans h₁.binds, h₂.topEventBind.trans h₁.topEventBind,
    h₂.nextBind.trans h₁.nextBind⟩

theorem of_skeleton (h : s'.skeleton = s.skeleton) : KeepsBinds s s' :=
  ⟨congrArg Skeleton.binds h, congrArg Skeleton.topEventBind h, congrArg Skeleton.nextBind h⟩

theorem hasBindings {l : List (Ptr × Binding)} (h : KeepsBinds s s') (hl : HasBindings s l) :
    HasBindings s' l :=
  hl.of_binds h.binds h.topEventBind h.nextBind

theorem of_modifyWidget {p : Ptr} {f : Widget → Widget} (h : s.modifyWidget p f = some s') :
    KeepsBinds s s' := by
  obtain ⟨w, -, rfl⟩ := Option.map_eq_some_iff.mp h
  exact ⟨rfl, rfl, rfl⟩

theorem of_modifyToplevel {p : Ptr} {f : ToplevelAttrs → ToplevelAttrs}
    (h : modifyToplevel s p f = some s') : KeepsBinds s s' := by
  simp only [modifyToplevel, Option.bind_eq_bind, Option.bind_eq_some_iff] at h
  obtain ⟨w, -, h⟩ := h
  split at h
  · rw [← Option.some.inj h]
    exact ⟨rfl, rfl, rfl⟩
  · exact absurd h (by simp)
  · exact absurd h (by simp)

theorem of_showButton {p : Ptr} {relief : Relief} {b : Bool}
    (h : showButton s p relief b = some s') : KeepsBinds s s' := by
  simp only [showButton, Option.bind_eq_bind, Option.bind_eq_some_iff, modifyButton] at h
  obtain ⟨s₁, ⟨w, -, h₁⟩, h₂⟩ := h
  have hkeep : KeepsBinds s s₁ := by
    split at h₁
    · rw [← Option.some.inj h₁]
      exact ⟨rfl, rfl, rfl⟩
    · exact absurd h₁ (by simp)
    · exact absurd h₁ (by simp)
  exact hkeep.trans (.of_skeleton (skeleton_invalidateLocation h₂))

end KeepsBinds

/-! ### Destroying widgets -/

section Destroy

variable {s s' : AppState}

theorem keepsBinds_record (s : AppState) (e : LogEntry) : KeepsBinds s (s.record e) :=
  ⟨rfl, rfl, rfl⟩

theorem keepsBinds_releaseWidget {p : Ptr} (h : releaseWidget s p = some s') : KeepsBinds s s' := by
  obtain ⟨s₁, h₁, rfl⟩ := Option.map_eq_some_iff.mp h
  exact (KeepsBinds.of_skeleton (skeleton_eiGeometrymanagerUnmap h₁)).trans ⟨rfl, rfl, rfl⟩

/-- Destroying a widget deletes its own bindings and no others. -/
theorem eiWidgetDestroy_keepsBinds {p : Ptr} (h : eiWidgetDestroy s p = some s') :
    ∃ s₁ s₂, KeepsBinds s s₁ ∧ destroyEventBindedToWidget s₁ p = some s₂ ∧ KeepsBinds s₂ s' := by
  simp only [eiWidgetDestroy, Option.bind_eq_bind, Option.bind_eq_some_iff] at h
  obtain ⟨w, -, s₁, h₁, s₂, h₂, s₃, h₃, s₄, h₄, h₅⟩ := h
  refine ⟨s₁, s₂, .of_skeleton (skeleton_invalidateLocation h₁), h₂, ?_⟩
  have hcall := callDestructor_keeps KeepsBinds.refl keepsBinds_record s₂ w p
  have hkids := destroyChildren_keeps KeepsBinds.refl KeepsBinds.trans keepsBinds_record
    (destroySiblings_keeps .refl .trans keepsBinds_record keepsBinds_releaseWidget _) h₃
  have hunlink := unlinkFromParent_keeps KeepsBinds.refl .trans
    (fun h _ => .of_modifyWidget h) h₄
  exact ((hcall.trans hkids).trans hunlink).trans (keepsBinds_releaseWidget h₅)

end Destroy

/-! ### Scripts -/

/-- One thing that a callback does: a call to the library that changes the bindings, or anything
that leaves them alone. -/
inductive CallbackOp where
  | bind (eventtype : EventType) (widget : Option Ptr) (tag : Option Tag) (callback : Callback)
      (userParam : Option ℕ)
  | unbind (eventtype : EventType) (widget : Option Ptr) (tag : Option Tag) (callback : Callback)
      (userParam : Option ℕ)
  | destroy (widget : Ptr)
  | other (run : {f : AppState → Option AppState // ∀ s s', f s = some s' → KeepsBinds s s'})

/-- What the operation does to the state. -/
def CallbackOp.run : CallbackOp → AppState → Option AppState
  | bind eventtype widget tag callback userParam, s =>
      eiBind s eventtype widget tag callback userParam
  | unbind eventtype widget tag callback userParam, s =>
      eiUnbind s eventtype widget tag callback userParam
  | destroy widget, s => eiWidgetDestroy s widget
  | other run, s => run.val s

/-- The operations one after the other. -/
def runOps (ops : List CallbackOp) (s : AppState) : Option AppState :=
  ops.foldlM (fun s op => op.run s) s

/-- What a callback does, as a function of the state that it is called in and of its arguments, and
whether it has processed the event. -/
abbrev Script := AppState → Option Ptr → Event → Option ℕ → List CallbackOp × Bool

/-- The callback with this script. -/
def Script.callback (f : Script) : UserCallback := fun s widget event userParam =>
  (runOps (f s widget event userParam).1 s).map (·, (f s widget event userParam).2)

/-- The call that `ei_handle_button_up` makes to the callback of the button, with the state in
which it is made. -/
def buttonUpCall (s : AppState) (event : Event) : Option (AppState × ℕ × Ptr × Option ℕ) :=
  if event.type ≠ .mouseButtonup ∨ event.button ≠ .left then none
  else do
    let picked ← eiWidgetPick s event.mouse
    let button ← picked
    if s.buttonPressed ≠ some button then none
    else do
      let s ← showButton { s with buttonPressed := none } button .raised false
      let w ← s.widgets button
      match w.attrs with
      | .button a => a.callback.map fun callback => (s, callback, button, a.userParam.join)
      | .frame _ | .toplevel _ => none

/-- The script of a handler that leaves the bindings alone. -/
def keeping (run : AppState → Option (AppState × Bool))
    (hrun : ∀ s r, run s = some r → KeepsBinds s r.1) (s : AppState) : List CallbackOp × Bool :=
  ([.other ⟨fun s => (run s).map Prod.fst, fun s s' h => by
    obtain ⟨r, hr, rfl⟩ := Option.map_eq_some_iff.mp h
    exact hrun s r hr⟩], ((run s).map Prod.snd).getD false)

section Handlers

variable {s s' : AppState} {event : Event} {r : AppState × Bool}

theorem runOps_keeping {run : AppState → Option (AppState × Bool)}
    (hrun : ∀ s r, run s = some r → KeepsBinds s r.1) (s : AppState) :
    (runOps (keeping run hrun s).1 s).map (·, (keeping run hrun s).2) = run s := by
  simp only [keeping, runOps, List.foldlM_cons, List.foldlM_nil, CallbackOp.run]
  cases run s with
  | none => rfl
  | some r => rfl

theorem keepsBinds_eiHandleButtonDown (h : eiHandleButtonDown s event = some r) :
    KeepsBinds s r.1 := by
  rw [eiHandleButtonDown] at h
  split_ifs at h
  · rw [← Option.some.inj h]
    exact .refl s
  · simp only [Option.bind_eq_bind, Option.bind_eq_some_iff] at h
    obtain ⟨picked, -, h⟩ := h
    cases picked with
    | none =>
      rw [← Option.some.inj h]
      exact .refl s
    | some button =>
      obtain ⟨s₁, h₁, h⟩ := Option.bind_eq_some_iff.mp h
      rw [← Option.some.inj h]
      have hkeep := KeepsBinds.of_showButton h₁
      exact ⟨hkeep.binds, hkeep.topEventBind, hkeep.nextBind⟩

theorem keepsBinds_buttonUpCall {c : AppState × ℕ × Ptr × Option ℕ}
    (h : buttonUpCall s event = some c) : KeepsBinds s c.1 := by
  rw [buttonUpCall] at h
  split_ifs at h
  simp only [Option.bind_eq_bind, Option.bind_eq_some_iff] at h
  obtain ⟨picked, -, button, -, h⟩ := h
  split_ifs at h
  obtain ⟨s₁, h₁, h⟩ := Option.bind_eq_some_iff.mp h
  obtain ⟨w, -, h⟩ := Option.bind_eq_some_iff.mp h
  split at h
  · obtain ⟨callback, -, rfl⟩ := Option.map_eq_some_iff.mp h
    have hkeep := KeepsBinds.of_showButton h₁
    exact ⟨hkeep.binds, hkeep.topEventBind, hkeep.nextBind⟩
  · exact absurd h (by simp)
  · exact absurd h (by simp)

/-- Releasing a button either calls the callback of the button, or none. -/
theorem eiHandleButtonUp_eq (user : ℕ → UserCallback) (s : AppState) (event : Event) :
    eiHandleButtonUp user s event =
      match buttonUpCall s event with
      | none => eiHandleButtonUp (fun _ _ _ _ _ => none) s event
      | some (s', callback, button, userParam) =>
          (user callback s' (some button) event userParam).map fun r => (r.1, false) := by
  rw [eiHandleButtonUp, eiHandleButtonUp, buttonUpCall]
  split_ifs
  · rfl
  · cases hpick : eiWidgetPick s event.mouse with
    | none => rfl
    | some picked =>
      cases picked with
      | none => rfl
      | some button =>
        simp only [Option.bind_eq_bind, Option.bind_some]
        split_ifs
        · rfl
        · cases hshow : showButton { s with buttonPressed := none } button .raised false with
          | none => rfl
          | some s₁ =>
            simp only [Option.bind_some]
            cases hw : s₁.widgets button with
            | none => rfl
            | some w =>
              simp only [Option.bind_some]
              cases hattrs : w.attrs with
              | frame a => rfl
              | toplevel a => rfl
              | button a =>
                cases hcallback : a.callback with
                | none => simp only [hcallback, Option.map_none]
                | some callback =>
                  simp only [hcallback, Option.map_some]
                  cases user callback s₁ (some button) event a.userParam.join <;> rfl

theorem keepsBinds_eiHandleButtonUp
    (h : eiHandleButtonUp (fun _ _ _ _ _ => none) s event = some r) : KeepsBinds s r.1 := by
  rw [eiHandleButtonUp] at h
  split_ifs at h
  · rw [← Option.some.inj h]
    exact .refl s
  · simp only [Option.bind_eq_bind, Option.bind_eq_some_iff] at h
    obtain ⟨picked, -, h⟩ := h
    cases picked with
    | none =>
      rw [← Option.some.inj h]
      exact ⟨rfl, rfl, rfl⟩
    | some button =>
      dsimp only at h
      split_ifs at h
      · rw [← Option.some.inj h]
        exact ⟨rfl, rfl, rfl⟩
      · obtain ⟨s₁, h₁, h⟩ := Option.bind_eq_some_iff.mp h
        obtain ⟨w, -, h⟩ := Option.bind_eq_some_iff.mp h
        have hkeep : KeepsBinds s s₁ := by
          have hshow := KeepsBinds.of_showButton h₁
          exact ⟨hshow.binds, hshow.topEventBind, hshow.nextBind⟩
        split at h
        · split at h
          · rw [← Option.some.inj h]
            exact hkeep
          · exact absurd h (by simp)
        · exact absurd h (by simp)
        · exact absurd h (by simp)

theorem keepsBinds_eiHandleButtonMove (h : eiHandleButtonMove s event = some r) :
    KeepsBinds s r.1 := by
  rw [eiHandleButtonMove] at h
  cases hpressed : s.buttonPressed with
  | none =>
    rw [hpressed] at h
    rw [← Option.some.inj h]
    exact .refl s
  | some button =>
    rw [hpressed] at h
    dsimp only at h
    split_ifs at h
    · rw [← Option.some.inj h]
      exact .refl s
    · simp only [Option.bind_eq_bind, Option.bind_eq_some_iff] at h
      obtain ⟨picked, -, w, -, h⟩ := h
      split at h
      · split_ifs at h
        · obtain ⟨s₁, h₁, h⟩ := Option.bind_eq_some_iff.mp h
          rw [← Option.some.inj h]
          exact .of_showButton h₁
        · obtain ⟨s₁, h₁, h⟩ := Option.bind_eq_some_iff.mp h
          rw [← Option.some.inj h]
          exact .of_showButton h₁
        · rw [← Option.some.inj h]
          exact .refl s
      · exact absurd h (by simp)
      · exact absurd h (by simp)

theorem keepsBinds_begResize {wResizebutton : Option Ptr}
    (h : begResize s wResizebutton event = some r) : KeepsBinds s r.1 := by
  rw [begResize] at h
  split_ifs at h
  · rw [← Option.some.inj h]
    exact .refl s
  · obtain ⟨⟨toplevel, t, a⟩, -, h⟩ := Option.bind_eq_some_iff.mp h
    dsimp only at h
    split_ifs at h
    · rw [← Option.some.inj h]
      exact .refl s
    · simp only [Option.bind_eq_bind, Option.bind_eq_some_iff] at h
      obtain ⟨button, -, b, -, h⟩ := h
      rw [← Option.some.inj h]
      exact ⟨rfl, rfl, rfl⟩

theorem keepsBinds_resize (h : resize s event = some r) : KeepsBinds s r.1 := by
  rw [resize] at h
  cases hresizing : s.resizingToplevel with
  | none =>
    rw [hresizing] at h
    rw [← Option.some.inj h]
    exact .refl s
  | some toplevel =>
    rw [hresizing] at h
    obtain ⟨t, -, h⟩ := Option.bind_eq_some_iff.mp h
    split at h
    · dsimp only at h
      split_ifs at h
      · obtain ⟨s₁, h₁, h⟩ := Option.bind_eq_some_iff.mp h
        rw [← Option.some.inj h]
        have hkeep := KeepsBinds.of_skeleton (skeleton_eiPlace h₁)
        exact ⟨hkeep.binds, hkeep.topEventBind, hkeep.nextBind⟩
      · rw [← Option.some.inj h]
        exact ⟨rfl, rfl, rfl⟩
    · exact absurd h (by simp)
    · exact absurd h (by simp)

theorem keepsBinds_endResize (h : endResize s = some r) : KeepsBinds s r.1 := by
  rw [← Option.some.inj h]
  exact ⟨rfl, rfl, rfl⟩

theorem keepsBinds_begMove {wToplevel : Option Ptr} (h : begMove s wToplevel event = some r) :
    KeepsBinds s r.1 := by
  simp only [begMove, Option.bind_eq_bind, Option.bind_eq_some_iff] at h
  obtain ⟨toplevel, -, t, -, h⟩ := h
  split_ifs at h
  · rw [← Option.some.inj h]
    exact .refl s
  · rw [← Option.some.inj h]
    exact ⟨rfl, rfl, rfl⟩

theorem keepsBinds_move (h : move s event = some r) : KeepsBinds s r.1 := by
  rw [move] at h
  cases hmoving : s.movingToplevel with
  | none =>
    rw [hmoving] at h
    rw [← Option.some.inj h]
    exact .refl s
  | some toplevel =>
    rw [hmoving] at h
    simp only [Option.bind_eq_bind, Option.bind_eq_some_iff] at h
    obtain ⟨t, -, parent, -, p, -, s₁, h₁, h⟩ := h
    rw [← Option.some.inj h]
    exact .of_skeleton (skeleton_eiPlace h₁)

theorem keepsBinds_endMove (h : endMove s = some r) : KeepsBinds s r.1 := by
  rw [← Option.some.inj h]
  exact ⟨rfl, rfl, rfl⟩

end Handlers

/-- What `quit_toplevel_event` does before it destroys the toplevel. -/
def invalidateToplevel (toplevel : Ptr) (drawRect : Rect) (s : AppState) : Option AppState := do
  let (s, rect) ← eiAppInvalidateRect s drawRect
  modifyToplevel s toplevel ({ · with drawRect := rect })

theorem keepsBinds_invalidateToplevel {s s' : AppState} {toplevel : Ptr} {drawRect : Rect}
    (h : invalidateToplevel toplevel drawRect s = some s') : KeepsBinds s s' := by
  simp only [invalidateToplevel, Option.bind_eq_bind, Option.bind_eq_some_iff, Prod.exists] at h
  obtain ⟨s₁, rect, h₁, h₂⟩ := h
  exact (KeepsBinds.of_skeleton (eiAppInvalidateRect_frame h₁).2).trans (.of_modifyToplevel h₂)

/-- The scripts of the callbacks, given those of the programmer. -/
def callbackScript (user : ℕ → Script) (callback : Callback) : Script :=
  fun s widget event userParam =>
    match callback with
    | .user id => user id s widget event userParam
    | .eiHandleButtonDown =>
        keeping (eiHandleButtonDown · event) (fun _ _ => keepsBinds_eiHandleButtonDown) s
    | .eiHandleButtonUp =>
        match buttonUpCall s event with
        | none => keeping (eiHandleButtonUp (fun _ _ _ _ _ => none) · event)
            (fun _ _ => keepsBinds_eiHandleButtonUp) s
        | some (s', id, button, userParam) =>
            (.other ⟨fun s => (buttonUpCall s event).map Prod.fst, fun s s' h => by
              obtain ⟨c, hc, rfl⟩ := Option.map_eq_some_iff.mp h
              exact keepsBinds_buttonUpCall hc⟩ ::
              (user id s' (some button) event userParam).1, false)
    | .eiHandleButtonMove =>
        keeping (eiHandleButtonMove · event) (fun _ _ => keepsBinds_eiHandleButtonMove) s
    | .begResize => keeping (begResize · widget event) (fun _ _ => keepsBinds_begResize) s
    | .resize => keeping (resize · event) (fun _ _ => keepsBinds_resize) s
    | .endResize => keeping endResize (fun _ _ => keepsBinds_endResize) s
    | .begMove => keeping (begMove · widget event) (fun _ _ => keepsBinds_begMove) s
    | .move => keeping (move · event) (fun _ _ => keepsBinds_move) s
    | .endMove => keeping endMove (fun _ _ => keepsBinds_endMove) s
    | .quitToplevelEvent =>
        match toplevelOf s widget with
        | none => keeping (fun _ => none) (fun _ _ h => absurd h (by simp)) s
        | some (toplevel, _, a) =>
            let invalidate := .other ⟨invalidateToplevel toplevel a.drawRect,
              fun _ _ => keepsBinds_invalidateToplevel⟩
            if a.closable then ([invalidate, .destroy toplevel], true) else ([invalidate], false)

/-- **Every callback is a script.** -/
theorem runCallback_eq_script (user : ℕ → Script) (callback : Callback) (s : AppState)
    (widget : Option Ptr) (event : Event) (userParam : Option ℕ) :
    runCallback (fun id => (user id).callback) callback s widget event userParam =
      (callbackScript user callback).callback s widget event userParam := by
  cases callback with
  | user id => rfl
  | eiHandleButtonUp =>
    rw [runCallback, eiHandleButtonUp_eq]
    cases hcall : buttonUpCall s event with
    | none =>
      simp only [Script.callback, callbackScript, hcall]
      exact (runOps_keeping (fun _ _ => keepsBinds_eiHandleButtonUp) s).symm
    | some c =>
      obtain ⟨s', id, button, userParam⟩ := c
      simp only [Script.callback, callbackScript, runOps, List.foldlM_cons, CallbackOp.run, hcall,
        Option.map_some, Option.bind_eq_bind, Option.bind_some, Option.map_map]
      rfl
  | quitToplevelEvent =>
    rw [runCallback, quitToplevelEvent]
    cases htop : toplevelOf s widget with
    | none =>
      simp only [Script.callback, callbackScript, htop]
      rfl
    | some t =>
      obtain ⟨toplevel, t, a⟩ := t
      have hinv : invalidateToplevel toplevel a.drawRect s =
          (eiAppInvalidateRect s a.drawRect).bind fun x =>
            modifyToplevel x.1 toplevel ({ · with drawRect := x.2 }) := rfl
      cases hclosable : a.closable with
      | true =>
        simp only [Script.callback, callbackScript, htop, hclosable, if_true, runOps,
          List.foldlM_cons, List.foldlM_nil, CallbackOp.run, hinv, Option.bind_eq_bind,
          Option.bind_some]
        cases eiAppInvalidateRect s a.drawRect with
        | none => rfl
        | some x =>
          simp only [Option.bind_some]
          cases modifyToplevel x.1 toplevel ({ · with drawRect := x.2 }) with
          | none => rfl
          | some s₁ => cases hdestroy : eiWidgetDestroy s₁ toplevel <;> simp [hdestroy]
      | false =>
        simp only [Script.callback, callbackScript, htop, hclosable, Bool.false_eq_true, if_false,
          runOps, List.foldlM_cons, List.foldlM_nil, CallbackOp.run, hinv, Option.bind_eq_bind,
          Option.bind_some]
        cases eiAppInvalidateRect s a.drawRect with
        | none => rfl
        | some x =>
          simp only [Option.bind_some]
          cases modifyToplevel x.1 toplevel ({ · with drawRect := x.2 }) <;> simp
  | eiHandleButtonDown => exact (runOps_keeping (fun _ _ => keepsBinds_eiHandleButtonDown) s).symm
  | eiHandleButtonMove => exact (runOps_keeping (fun _ _ => keepsBinds_eiHandleButtonMove) s).symm
  | begResize => exact (runOps_keeping (fun _ _ => keepsBinds_begResize) s).symm
  | resize => exact (runOps_keeping (fun _ _ => keepsBinds_resize) s).symm
  | endResize => exact (runOps_keeping (fun _ _ => keepsBinds_endResize) s).symm
  | begMove => exact (runOps_keeping (fun _ _ => keepsBinds_begMove) s).symm
  | move => exact (runOps_keeping (fun _ _ => keepsBinds_move) s).symm
  | endMove => exact (runOps_keeping (fun _ _ => keepsBinds_endMove) s).symm

/-! ### The record of a running callback -/

/-- The operation deletes the record: it unbinds arguments whose first match is the record, or
destroys the widget that the record is bound to. -/
def CallbackOp.Removes (s : AppState) (p : Ptr) : CallbackOp → Prop
  | bind .. => False
  | unbind eventtype widget tag callback userParam =>
      ((listBinds s.binds s.nextBind s.topEventBind).find? fun e =>
        e.2.matches eventtype widget tag callback userParam).map Prod.fst = some p
  | destroy widget => ∃ b, s.binds p = some b ∧ b.widget = some widget
  | other _ => False

/-- One of the operations deletes the record, in the state that those before it leave. -/
def RemovesDuring : List CallbackOp → AppState → Ptr → Prop
  | [], _, _ => False
  | op :: ops, s, p => op.Removes s p ∨ ∃ t, op.run s = some t ∧ RemovesDuring ops t p

/-- The record is in the list. -/
def InList (s : AppState) (p : Ptr) : Prop := ∃ l, HasBindings s l ∧ p ∈ l.map Prod.fst

/-- The reads of a visit: the record, and once more when the callback has returned. -/
def Visit.reads (v : Visit) : List (AppState × Ptr) :=
  (v.before, v.bind) :: v.outcome.toList.map fun r => (r.1, v.bind)

/-- The callback of the visit runs, returns, and has deleted the record of its own binding. -/
def Visit.RemovesOwn (user : ℕ → Script) (event : Event) (v : Visit) : Prop :=
  ∃ b, v.before.binds v.bind = some b ∧ b.eventtype = event.type ∧
    b.toBinding.applies v.before event = some true ∧ v.outcome.isSome = true ∧
    RemovesDuring (callbackScript user b.callback v.before b.widget event b.userParam).1
      v.before v.bind

section Removal

variable {s s' : AppState} {l : List (Ptr × Binding)} {p : Ptr}

/-- Deleting the first match deletes its address. -/
theorem mem_map_eraseP_iff {found : Ptr × Binding → Bool} : ∀ {l : List (Ptr × Binding)},
    (l.map Prod.fst).Nodup → (p ∈ (l.eraseP found).map Prod.fst ↔
      p ∈ l.map Prod.fst ∧ (l.find? found).map Prod.fst ≠ some p) := by
  intro l
  induction l with
  | nil => simp
  | cons e l ih =>
    intro hnodup
    obtain ⟨he, hnodup⟩ := List.nodup_cons.mp hnodup
    by_cases hfound : found e
    · rw [List.eraseP_cons_of_pos hfound, List.find?_cons_of_pos hfound, Option.map_some,
        List.map_cons, List.mem_cons]
      constructor
      · intro hp
        refine ⟨Or.inr hp, fun hep => he ?_⟩
        rwa [Option.some.inj hep]
      · rintro ⟨rfl | hp, hep⟩
        · exact absurd rfl hep
        · exact hp
    · rw [List.eraseP_cons_of_neg hfound, List.find?_cons_of_neg hfound, List.map_cons,
        List.map_cons, List.mem_cons, List.mem_cons, ih hnodup]
      constructor
      · rintro (rfl | ⟨hp, hfind⟩)
        · refine ⟨Or.inl rfl, fun hfind => he ?_⟩
          obtain ⟨e', he', hee⟩ := Option.map_eq_some_iff.mp hfind
          exact hee ▸ List.mem_map_of_mem (List.mem_of_find?_eq_some he')
        · exact ⟨Or.inr hp, hfind⟩
      · rintro ⟨rfl | hp, hfind⟩
        · exact Or.inl rfl
        · exact Or.inr ⟨hp, hfind⟩

theorem nextBind_unlinkBind {last next : Option Ptr} {curr : Ptr}
    (h : unlinkBind s last curr next = some s') : s'.nextBind = s.nextBind := by
  cases last with
  | none => rw [← Option.some.inj h]; rfl
  | some last =>
    obtain ⟨b, -, h⟩ := Option.bind_eq_some_iff.mp h
    rw [← Option.some.inj h]
    rfl

theorem nextBind_unbindLoop (found : Binding → Bool) : ∀ (fuel : ℕ) {s s' : AppState}
    {last current : Option Ptr}, unbindLoop found fuel s last current = some s' →
      s'.nextBind = s.nextBind := by
  intro fuel
  induction fuel with
  | zero =>
    intro s s' last current h
    cases current with
    | none => rw [← Option.some.inj h]
    | some p => simp [unbindLoop] at h
  | succ fuel ih =>
    intro s s' last current h
    cases current with
    | none => rw [← Option.some.inj h]
    | some p =>
      obtain ⟨b, -, h⟩ := Option.bind_eq_some_iff.mp h
      split_ifs at h
      · exact nextBind_unlinkBind h
      · exact ih h

theorem nextBind_destroyEventLoop (widget : Ptr) : ∀ (fuel : ℕ) {s s' : AppState}
    {last curr : Option Ptr}, destroyEventLoop widget fuel s last curr = some s' →
      s'.nextBind = s.nextBind := by
  intro fuel
  induction fuel with
  | zero =>
    intro s s' last curr h
    cases curr with
    | none => rw [← Option.some.inj h]
    | some p => simp [destroyEventLoop] at h
  | succ fuel ih =>
    intro s s' last curr h
    cases curr with
    | none => rw [← Option.some.inj h]
    | some p =>
      simp only [destroyEventLoop, Option.bind_eq_bind, Option.bind_eq_some_iff] at h
      obtain ⟨b, -, s₁, h₁, h₂⟩ := h
      refine (ih h₂).trans ?_
      split_ifs at h₁
      · exact nextBind_unlinkBind h₁
      · rw [← Option.some.inj h₁]

/-- **One operation** keeps the list, and keeps a record in it unless it deletes the record. A
record that has been deleted does not come back. -/
theorem CallbackOp.run_bindings (hl : HasBindings s l) (hp : p < s.nextBind) {op : CallbackOp}
    (h : op.run s = some s') : ∃ l', HasBindings s' l' ∧ p < s'.nextBind ∧
      (p ∈ l'.map Prod.fst ↔ p ∈ l.map Prod.fst ∧ ¬ op.Removes s p) := by
  cases op with
  | bind eventtype widget tag callback userParam =>
    have h : eiBind s eventtype widget tag callback userParam = some s' := h
    by_cases hvalid : widget.isSome ≠ tag.isSome
    · obtain ⟨s₁, h₁, hl', -⟩ := hl.eiBind eventtype widget tag callback userParam hvalid
      obtain rfl := Option.some.inj (h₁.symm.trans h)
      have hlt : s.nextBind < s₁.nextBind := hl'.lt_nextBind (by simp)
      refine ⟨_, hl', Nat.lt_trans hp hlt, ?_⟩
      simp [CallbackOp.Removes, Nat.ne_of_lt hp]
    · have hsame : s = s' := by
        cases widget <;> cases tag <;> simp [eiBind] at hvalid h <;> exact h
      subst hsame
      exact ⟨l, hl, hp, by simp [CallbackOp.Removes]⟩
  | unbind eventtype widget tag callback userParam =>
    have h : eiUnbind s eventtype widget tag callback userParam = some s' := h
    obtain ⟨s₁, h₁, hl', -⟩ := hl.eiUnbind eventtype widget tag callback userParam
    obtain rfl := Option.some.inj (h₁.symm.trans h)
    refine ⟨_, hl', (nextBind_unbindLoop _ _ h).symm ▸ hp, ?_⟩
    rw [mem_map_eraseP_iff hl.chain.nodup, CallbackOp.Removes, hl.listBinds_eq _ hl.length_le]
  | destroy widget =>
    obtain ⟨s₁, s₂, hk₁, hevents, hk₂⟩ := eiWidgetDestroy_keepsBinds h
    have hl₁ := hk₁.hasBindings hl
    by_cases hadj : NoAdjacentBindings widget l
    · obtain ⟨s₃, h₃, hl₃, -⟩ := hl₁.destroyEventBindedToWidget hadj
      obtain rfl := Option.some.inj (h₃.symm.trans hevents)
      refine ⟨_, hk₂.hasBindings hl₃, ?_, ?_⟩
      · rw [hk₂.nextBind, nextBind_destroyEventLoop _ _ hevents, hk₁.nextBind]
        exact hp
      · simp only [List.mem_map, List.mem_filter, CallbackOp.Removes]
        constructor
        · rintro ⟨e, ⟨he, hw⟩, rfl⟩
          refine ⟨⟨e, he, rfl⟩, ?_⟩
          rintro ⟨b, hb, hbw⟩
          have hdata := hl.data e he
          rw [hb, Option.map_some, Option.some.injEq] at hdata
          rw [← hdata] at hw
          simp [hbw] at hw
        · rintro ⟨⟨e, he, rfl⟩, hremoves⟩
          refine ⟨e, ⟨he, ?_⟩, rfl⟩
          obtain ⟨b, hb, hbe⟩ := Option.map_eq_some_iff.mp (hl.data e he)
          rw [decide_eq_true_iff]
          exact fun hw => hremoves ⟨b, hb, by rw [← hw, ← hbe]⟩
    · exact absurd hevents (by simp [hl₁.destroyEventBindedToWidget_eq_none hadj])
  | other f =>
    have hkeep := f.property s s' h
    exact ⟨l, hkeep.hasBindings hl, hkeep.nextBind.symm ▸ hp, by simp [CallbackOp.Removes]⟩

/-- **A record stays in the list exactly when no operation deletes it**, by induction on the
operations. -/
theorem runOps_bindings : ∀ (ops : List CallbackOp) {s s' : AppState} {l : List (Ptr × Binding)},
    HasBindings s l → p < s.nextBind → runOps ops s = some s' → ∃ l', HasBindings s' l' ∧
      (p ∈ l'.map Prod.fst ↔ p ∈ l.map Prod.fst ∧ ¬ RemovesDuring ops s p) := by
  intro ops
  induction ops with
  | nil =>
    intro s s' l hl _ h
    rw [← Option.some.inj h]
    exact ⟨l, hl, by simp [RemovesDuring]⟩
  | cons op ops ih =>
    intro s s' l hl hp h
    obtain ⟨t, ht, h⟩ := Option.bind_eq_some_iff.mp h
    obtain ⟨l₁, hl₁, hp₁, hmem₁⟩ := CallbackOp.run_bindings hl hp ht
    obtain ⟨l', hl', hmem'⟩ := ih hl₁ hp₁ h
    refine ⟨l', hl', ?_⟩
    rw [hmem', hmem₁, RemovesDuring]
    simp [ht, and_assoc]

theorem inList_iff (hl : HasBindings s l) : InList s p ↔ p ∈ l.map Prod.fst := by
  refine ⟨?_, fun hp => ⟨l, hl, hp⟩⟩
  rintro ⟨l', hl', hp⟩
  rwa [hl.unique hl']

end Removal

section Reads

variable (user : ℕ → Script) {s : AppState} {event : Event} {p : Ptr}

/-- **A visit of a record of the list**: the record is in the list when the callback has returned
exactly when the callback has not deleted it. -/
theorem inList_after_iff (hp : InList s p) {b : LinkedBindedEvent} (hb : s.binds p = some b)
    {r : AppState × Bool}
    (hrun : runBinding (fun id => (user id).callback) s event b.toBinding = some r) :
    (∃ l, HasBindings r.1 l) ∧
      (InList r.1 p ↔ ¬ Visit.RemovesOwn user event ⟨p, s, some r⟩) := by
  obtain ⟨l, hl, hmem⟩ := hp
  have hsame : s = r.1 → (∃ l, HasBindings r.1 l) ∧ InList r.1 p := fun h =>
    h ▸ ⟨⟨l, hl⟩, l, hl, hmem⟩
  rw [runBinding] at hrun
  split_ifs at hrun with htype
  · obtain ⟨applies, happlies, hrun⟩ := Option.bind_eq_some_iff.mp hrun
    cases applies with
    | true =>
      rw [if_pos rfl, runCallback_eq_script, Script.callback, Option.map_eq_some_iff] at hrun
      obtain ⟨s', hops, rfl⟩ := hrun
      obtain ⟨l', hl', hmem'⟩ := runOps_bindings _ hl (hl.lt_nextBind hmem) hops
      refine ⟨⟨l', hl'⟩, ?_⟩
      rw [inList_iff hl', hmem', Visit.RemovesOwn]
      simp [hmem, hb, htype, happlies]
    | false =>
      obtain ⟨hl', hin⟩ := hsame (by rw [← Option.some.inj hrun])
      refine ⟨hl', iff_of_true hin ?_⟩
      rintro ⟨b', hb', -, happlies', -⟩
      obtain rfl := Option.some.inj (hb.symm.trans hb')
      simp [happlies] at happlies'
  · obtain ⟨hl', hin⟩ := hsame (by rw [← Option.some.inj hrun])
    refine ⟨hl', iff_of_true hin ?_⟩
    rintro ⟨b', hb', htype', -⟩
    obtain rfl := Option.some.inj (hb.symm.trans hb')
    exact htype htype'

/-- The record after a record of the list is in the list. -/
theorem InList.next {b : LinkedBindedEvent} (hp : InList s p) (hb : s.binds p = some b) {q : Ptr}
    (hq : b.next = some q) : InList s q := by
  obtain ⟨l, hl, hp⟩ := hp
  obtain ⟨e, he, rfl⟩ := List.mem_map.mp hp
  obtain ⟨l₁, l₂, rfl⟩ := List.append_of_mem he
  obtain ⟨b', hb', -, hnext⟩ := hl.record
  obtain rfl := Option.some.inj (hb.symm.trans hb')
  rw [hq] at hnext
  refine ⟨_, hl, ?_⟩
  rw [List.map_append, List.map_cons]
  exact List.mem_append_right _ (List.mem_cons_of_mem _ (List.mem_of_mem_head? hnext.symm))

/-- **The visits from a record of the list**, by induction on their number: while no callback
deletes its own record, the loop goes from a record of the list to the next one. -/
theorem reads_inList_of_visits : ∀ (fuel : ℕ) (s : AppState) (top : Option Ptr),
    (∀ p, top = some p → InList s p) →
    ((∀ v ∈ visits (fun id => (user id).callback) fuel s event top, ∀ r ∈ v.reads,
        InList r.1 r.2) ↔
      ∀ v ∈ visits (fun id => (user id).callback) fuel s event top, ¬ v.RemovesOwn user event) := by
  intro fuel
  induction fuel with
  | zero =>
    intro s top _
    cases top <;> simp [visits]
  | succ fuel ih =>
    intro s top htop
    cases top with
    | none => simp [visits]
    | some p =>
      have hp := htop p rfl
      obtain ⟨b, hb⟩ : ∃ b, s.binds p = some b := by
        obtain ⟨l, hl, hmem⟩ := hp
        exact hl.chain.live p hmem
      simp only [visits, hb, Option.bind_some, List.forall_mem_cons]
      cases hrun : runBinding (fun id => (user id).callback) s event b.toBinding with
      | none => simp [Visit.reads, Visit.RemovesOwn, hp]
      | some r =>
        obtain ⟨s', processed⟩ := r
        obtain ⟨hl', hin⟩ := inList_after_iff user hp hb hrun
        have hreads : (∀ r ∈ Visit.reads ⟨p, s, some (s', processed)⟩, InList r.1 r.2) ↔
            ¬ Visit.RemovesOwn user event ⟨p, s, some (s', processed)⟩ := by
          rw [← hin]
          simp [Visit.reads, hp]
        rw [hreads]
        refine and_congr_right fun hown => ?_
        have hp' : InList s' p := hin.mpr hown
        dsimp only
        cases hb' : s'.binds p with
        | none => simp only [List.not_mem_nil, IsEmpty.forall_iff, implies_true]
        | some b' =>
          cases processed with
          | true => simp only [if_true, List.not_mem_nil, IsEmpty.forall_iff, implies_true]
          | false => exact ih s' b'.next fun q hq => hp'.next hb' hq

/-- **Dispatch only reads records of the list** exactly when no callback that it runs deletes the
record of its own binding, by unbinding it or by destroying the widget it is bound to. -/
theorem reads_inList_iff {l : List (Ptr × Binding)} (hl : HasBindings s l) (fuel : ℕ) :
    (∀ v ∈ visits (fun id => (user id).callback) fuel s event s.topEventBind, ∀ r ∈ v.reads,
        InList r.1 r.2) ↔
      ∀ v ∈ visits (fun id => (user id).callback) fuel s event s.topEventBind,
        ¬ v.RemovesOwn user event := by
  refine reads_inList_of_visits user fuel s s.topEventBind fun p hp => ⟨l, hl, ?_⟩
  rw [hl.chain.head_eq] at hp
  exact List.mem_of_mem_head? hp

end Reads

section Sample

/-- A callback that unbinds itself, as one that is wanted once does. -/
def unbindSelf : ℕ → Script := fun _ _ _ _ _ =>
  ([.unbind .keydown none (some ⟨0, "all"⟩) (.user 0) none], false)

/-- The round of a key press with a callback that unbinds itself. -/
theorem reads_inList_iff_keydown :
    (∀ v ∈ visits (fun id => (unbindSelf id).callback) 8 sampleKeys ⟨.keydown, ⟨0, 0⟩, .left⟩
        sampleKeys.topEventBind, ∀ r ∈ v.reads, InList r.1 r.2) ↔
      ∀ v ∈ visits (fun id => (unbindSelf id).callback) 8 sampleKeys ⟨.keydown, ⟨0, 0⟩, .left⟩
        sampleKeys.topEventBind,
        ¬ v.RemovesOwn unbindSelf ⟨.keydown, ⟨0, 0⟩, .left⟩ := by
  obtain ⟨l, hl⟩ := sampleKeys_inOrder
  exact reads_inList_iff unbindSelf hl.bindings 8

/-- A callback that unbinds itself makes the loop read the link of a freed record. -/
theorem sampleKeys_reads_freed :
    ¬ ∀ v ∈ visits (fun id => (unbindSelf id).callback) 8 sampleKeys ⟨.keydown, ⟨0, 0⟩, .left⟩
      sampleKeys.topEventBind, ∀ r ∈ v.reads, InList r.1 r.2 := by
  have hfreed : ((visits (fun id => (unbindSelf id).callback) 8 sampleKeys
      ⟨.keydown, ⟨0, 0⟩, .left⟩ sampleKeys.topEventBind).any fun v =>
        v.reads.any fun r => (r.1.binds r.2).isNone) = true := rfl
  simp only [List.any_eq_true, Option.isNone_iff_eq_none] at hfreed
  obtain ⟨v, hv, r, hr, hnone⟩ := hfreed
  intro h
  obtain ⟨l, hl, hmem⟩ := h v hv r hr
  obtain ⟨b, hb⟩ := hl.chain.live r.2 hmem
  simp [hnone] at hb

end Sample

end GuiLibrary

import GuiLibrary.Creation

/-!
# Histories of bindings

A program binds and unbinds in any order, with any arguments. The list of bindings is then the
fold of the calls over its former contents: `ei_bind` appends the binding when its arguments are
accepted, `ei_unbind` erases the first binding that equals its arguments. So a binding that is
not in the list can be made and unmade around any calls about other bindings, and the list is the
one that these calls alone leave.

When a widget goes, its bindings are deleted by `destroy_event_binded_to_widget`. The loop takes
the record that it has just freed for the one before the next, and writes into it when the next
one is deleted too: it does what it is for exactly when no two neighbours of the list are bound
to the widget.

## Main definitions

* `BindArgs`, `BindingCall`: the arguments of a call and a call.
* `BindingCall.apply`: what a call does to the contents of the list.
* `DeletesBindings`: what the deletion of the bindings of a widget is for.

## Main results

* `bindings_of_history`: a history of calls refines the fold, and a binding cancels.
* `deletesBindings_iff`: when the bindings of a widget are deleted.
-/

namespace GuiLibrary

/-! ### Calls -/

/-- The arguments of `ei_bind` and of `ei_unbind`. -/
structure BindArgs where
  eventtype : EventType
  widget : Option Ptr
  tag : Option Tag
  callback : Callback
  userParam : Option ℕ
deriving DecidableEq, Repr

namespace BindArgs

/-- A binding has a widget or a tag, and not both. -/
def Accepted (a : BindArgs) : Prop := a.widget.isSome ≠ a.tag.isSome

instance (a : BindArgs) : Decidable a.Accepted := inferInstanceAs (Decidable (_ ≠ _))

/-- The binding that `ei_bind` makes of its arguments. -/
def binding (a : BindArgs) : Binding :=
  ⟨a.eventtype, a.widget, a.tag, a.callback, a.userParam, a.eventtype.pickable⟩

/-- The binding equals the arguments in all five fields, the tags as pointers. -/
def equals (a : BindArgs) (b : Binding) : Bool :=
  b.matches a.eventtype a.widget a.tag a.callback a.userParam

theorem equals_self (a : BindArgs) : a.equals a.binding = true := by
  simp [equals, Binding.matches, binding]

theorem equals_comm (a a' : BindArgs) : a.equals a'.binding = a'.equals a.binding := by
  have himp : ∀ c c' : BindArgs, c.equals c'.binding = true → c'.equals c.binding = true := by
    intro c c' h
    obtain ⟨h₁, h₂, h₃, h₄, h₅⟩ := of_decide_eq_true h
    exact decide_eq_true ⟨h₁.symm, h₂.symm, h₃.symm, h₄.symm, h₅.symm⟩
  exact Bool.eq_iff_iff.mpr ⟨himp a a', himp a' a⟩

end BindArgs

/-- A call of `ei_bind` or of `ei_unbind`. -/
inductive BindingCall where
  | bind (a : BindArgs)
  | unbind (a : BindArgs)
deriving DecidableEq, Repr

namespace BindingCall

/-- The arguments of a call. -/
def args : BindingCall → BindArgs
  | bind a => a
  | unbind a => a

/-- The call on the state of the library. -/
def run (s : AppState) : BindingCall → Option AppState
  | bind a => eiBind s a.eventtype a.widget a.tag a.callback a.userParam
  | unbind a => eiUnbind s a.eventtype a.widget a.tag a.callback a.userParam

/-- The call on the contents of the list. -/
def apply (l : List Binding) : BindingCall → List Binding
  | bind a => if a.Accepted then l ++ [a.binding] else l
  | unbind a => l.eraseP a.equals

end BindingCall

/-! ### The list is the fold of the calls -/

section History

variable {s : AppState} {l : List (Ptr × Binding)}

/-- One call does to the records what it does to the contents of the list. -/
theorem HasBindings.run (h : HasBindings s l) (call : BindingCall) : ∃ s' l',
    call.run s = some s' ∧ HasBindings s' l' ∧ l'.map Prod.snd = call.apply (l.map Prod.snd) := by
  cases call with
  | bind a =>
    by_cases ha : a.Accepted
    · obtain ⟨s', hs', hl', -⟩ :=
        h.eiBind a.eventtype a.widget a.tag a.callback a.userParam ha
      exact ⟨s', _, hs', hl', by simp [BindingCall.apply, ha, BindArgs.binding]⟩
    · refine ⟨s, l, ?_, h, by simp [BindingCall.apply, ha]⟩
      have ha : a.widget.isSome = a.tag.isSome := not_not.mp ha
      cases hw : a.widget <;> cases ht : a.tag <;> simp_all [BindingCall.run, GuiLibrary.eiBind]
  | unbind a =>
    obtain ⟨s', hs', hl', -⟩ :=
      h.eiUnbind a.eventtype a.widget a.tag a.callback a.userParam
    refine ⟨s', _, hs', hl', ?_⟩
    rw [BindingCall.apply, List.eraseP_map]
    rfl

/-- **The list is the fold of the calls.** -/
theorem HasBindings.foldlM_run (calls : List BindingCall) :
    ∀ {s : AppState} {l : List (Ptr × Binding)}, HasBindings s l →
      ∃ s' l', calls.foldlM BindingCall.run s = some s' ∧ HasBindings s' l' ∧
        l'.map Prod.snd = calls.foldl BindingCall.apply (l.map Prod.snd) := by
  induction calls with
  | nil => exact fun {s l} h => ⟨s, l, rfl, h, rfl⟩
  | cons call calls ih =>
    intro s l h
    obtain ⟨s₁, l₁, hs₁, hl₁, hmap⟩ := h.run call
    obtain ⟨s', l', hs', hl', hmap'⟩ := ih hl₁
    refine ⟨s', l', ?_, hl', by rw [hmap', hmap, List.foldl_cons]⟩
    rw [List.foldlM_cons, hs₁, Option.bind_eq_bind, Option.bind_some, hs']

end History

/-! ### A binding and its unbinding cancel -/

/-- The contents `l` of the list with the binding of `a` somewhere in it; no other one equals
`a`. -/
def HasOnce (a : BindArgs) (l l' : List Binding) : Prop :=
  ∃ l₁ l₂, l = l₁ ++ l₂ ∧ l' = l₁ ++ a.binding :: l₂ ∧ ∀ b ∈ l, a.equals b = false

/-- A call about another binding does the same with and without the binding of `a`. -/
theorem HasOnce.apply {a : BindArgs} {l l' : List Binding} (h : HasOnce a l l')
    {call : BindingCall} (hother : a.equals call.args.binding = false) :
    HasOnce a (call.apply l) (call.apply l') := by
  obtain ⟨l₁, l₂, rfl, rfl, hne⟩ := h
  cases call with
  | bind a' =>
    by_cases ha : a'.Accepted
    · refine ⟨l₁, l₂ ++ [a'.binding], by simp [BindingCall.apply, ha],
        by simp [BindingCall.apply, ha], fun b hb => ?_⟩
      rw [BindingCall.apply, if_pos ha] at hb
      rcases List.mem_append.mp hb with hb | hb
      · exact hne b hb
      · exact List.mem_singleton.mp hb ▸ hother
    · refine ⟨l₁, l₂, ?_, ?_, ?_⟩ <;> simp only [BindingCall.apply, if_neg ha]
      exact hne
  | unbind a' =>
    have hskip : a'.equals a.binding = false := (a'.equals_comm a).trans hother
    have hkeep : ∀ b ∈ (l₁ ++ l₂).eraseP a'.equals, a.equals b = false := fun b hb =>
      hne b (List.mem_of_mem_eraseP hb)
    -- The first match is on the same side of the binding of `a` in both lists.
    by_cases hany : l₁.any a'.equals
    · refine ⟨l₁.eraseP a'.equals, l₂, ?_, ?_, hkeep⟩ <;>
        simp only [BindingCall.apply, List.eraseP_append, if_pos hany]
    · refine ⟨l₁, l₂.eraseP a'.equals, ?_, ?_, hkeep⟩ <;>
        simp only [BindingCall.apply, List.eraseP_append, if_neg hany]
      rw [List.eraseP_cons_of_neg (by simp [hskip])]

theorem HasOnce.foldl {a : BindArgs} {calls : List BindingCall}
    (hother : ∀ call ∈ calls, a.equals call.args.binding = false) {l l' : List Binding}
    (h : HasOnce a l l') :
    HasOnce a (calls.foldl BindingCall.apply l) (calls.foldl BindingCall.apply l') := by
  induction calls generalizing l l' with
  | nil => exact h
  | cons call calls ih =>
    rw [List.foldl_cons, List.foldl_cons]
    exact ih (fun c hc => hother c (List.mem_cons_of_mem call hc))
      (h.apply (hother call List.mem_cons_self))

/-- Unbinding takes the binding out again. -/
theorem HasOnce.eraseP {a : BindArgs} {l l' : List Binding} (h : HasOnce a l l') :
    l'.eraseP a.equals = l := by
  obtain ⟨l₁, l₂, rfl, rfl, hne⟩ := h
  have hne₁ : ∀ b ∈ l₁, ¬ a.equals b = true := fun b hb => by
    simp [hne b (List.mem_append_left l₂ hb)]
  rw [List.eraseP_append_right _ hne₁, List.eraseP_cons_of_pos a.equals_self]

/-- On the contents of the list, a binding that is not in it cancels with its unbinding. -/
theorem foldl_apply_cancel {a : BindArgs} {calls : List BindingCall} {l : List Binding}
    (hne : ∀ b ∈ l, a.equals b = false)
    (hother : ∀ call ∈ calls, a.equals call.args.binding = false) :
    ((BindingCall.bind a :: calls) ++ [BindingCall.unbind a]).foldl BindingCall.apply l =
      calls.foldl BindingCall.apply l := by
  rw [List.foldl_append, List.foldl_cons, List.foldl_cons, List.foldl_nil]
  by_cases ha : a.Accepted
  · have h : HasOnce a l (BindingCall.apply l (.bind a)) :=
      ⟨l, [], by simp, by simp [BindingCall.apply, ha], hne⟩
    exact (h.foldl hother).eraseP
  · -- The binding is rejected, and there is nothing to unbind.
    rw [BindingCall.apply, BindingCall.apply, if_neg ha]
    have hstays : ∀ b ∈ calls.foldl BindingCall.apply l, a.equals b = false := by
      induction calls generalizing l with
      | nil => exact hne
      | cons call calls ih =>
        refine ih (fun b hb => ?_) fun c hc => hother c (List.mem_cons_of_mem call hc)
        have hcall := hother call List.mem_cons_self
        cases call with
        | bind a' =>
          by_cases ha' : a'.Accepted
          · rw [BindingCall.apply, if_pos ha', List.mem_append, List.mem_singleton] at hb
            rcases hb with hb | rfl
            · exact hne b hb
            · exact hcall
          · rw [BindingCall.apply, if_neg ha'] at hb
            exact hne b hb
        | unbind a' => exact hne b (List.mem_of_mem_eraseP hb)
    exact List.eraseP_of_forall_not fun b hb => by simp [hstays b hb]

/-- **The history of the bindings.** After any calls of `ei_bind` and `ei_unbind`, the list from
`top_event_bind` is finite, without a cycle, and holds the fold of the calls over its former
contents. A binding that is not in the list, any calls about other bindings and its unbinding
leave the contents that these calls alone leave. -/
theorem bindings_of_history {s : AppState} {l : List (Ptr × Binding)} (h : HasBindings s l)
    (calls : List BindingCall) :
    (∃ s' l', calls.foldlM BindingCall.run s = some s' ∧ HasBindings s' l' ∧
      (l'.map Prod.fst).Nodup ∧
        l'.map Prod.snd = calls.foldl BindingCall.apply (l.map Prod.snd)) ∧
    ∀ a : BindArgs, (∀ e ∈ l, a.equals e.2 = false) →
      (∀ call ∈ calls, a.equals call.args.binding = false) →
      ∃ s₁ l₁ s₂ l₂,
        ((BindingCall.bind a :: calls) ++ [BindingCall.unbind a]).foldlM BindingCall.run s =
          some s₁ ∧
        HasBindings s₁ l₁ ∧ calls.foldlM BindingCall.run s = some s₂ ∧ HasBindings s₂ l₂ ∧
          l₁.map Prod.snd = l₂.map Prod.snd := by
  obtain ⟨s₂, l₂, hs₂, hl₂, hmap₂⟩ := h.foldlM_run calls
  refine ⟨⟨s₂, l₂, hs₂, hl₂, hl₂.chain.nodup, hmap₂⟩, fun a hne hother => ?_⟩
  obtain ⟨s₁, l₁, hs₁, hl₁, hmap₁⟩ := h.foldlM_run ((.bind a :: calls) ++ [BindingCall.unbind a])
  refine ⟨s₁, l₁, s₂, l₂, hs₁, hl₁, hs₂, hl₂, ?_⟩
  rw [hmap₁, hmap₂, foldl_apply_cancel _ hother]
  intro b hb
  obtain ⟨e, he, rfl⟩ := List.mem_map.mp hb
  exact hne e he

section Sample

attribute [local instance] sampleHardware

/-- A press of a mouse button on the root, for a callback of the program. -/
def rootPress (id : ℕ) : BindArgs := ⟨.mouseButtondown, some 0, none, .user id, none⟩

/-- A new application, where a binding is made and unmade around another one. -/
theorem bindings_of_history_root : ∃ l, HasBindings (sampleApp ⟨640, 480⟩) l ∧
    (∃ s' l', [BindingCall.bind (rootPress 1)].foldlM BindingCall.run (sampleApp ⟨640, 480⟩) =
        some s' ∧ HasBindings s' l' ∧ (l'.map Prod.fst).Nodup ∧
          l'.map Prod.snd =
            [BindingCall.bind (rootPress 1)].foldl BindingCall.apply (l.map Prod.snd)) ∧
    ∃ s₁ l₁ s₂ l₂,
      ([BindingCall.bind (rootPress 2), .bind (rootPress 1)] ++
        [BindingCall.unbind (rootPress 2)]).foldlM BindingCall.run (sampleApp ⟨640, 480⟩) =
          some s₁ ∧ HasBindings s₁ l₁ ∧
      [BindingCall.bind (rootPress 1)].foldlM BindingCall.run (sampleApp ⟨640, 480⟩) = some s₂ ∧
        HasBindings s₂ l₂ ∧ l₁.map Prod.snd = l₂.map Prod.snd := by
  obtain ⟨l, hl, hmap⟩ := (sampleApp_started ⟨640, 480⟩).bindings
  have h := bindings_of_history hl [.bind (rootPress 1)]
  refine ⟨l, hl, h.1, h.2 (rootPress 2) (fun e he => ?_) (by decide)⟩
  have hall : ∀ b ∈ appBindings.map appBinding, (rootPress 2).equals b = false := by decide
  exact hall e.2 (hmap ▸ List.mem_map_of_mem he)

end Sample

/-! ### The bindings of a destroyed widget -/

/-- What `destroy_event_binded_to_widget` is for: the list keeps exactly the bindings of the
others, in order, the records of the widget are freed and no others, and nothing else changes.
The loop reads each record before it frees it and a freed record has no contents, so a record
that is freed twice stops it, as any other access to a freed record does. -/
def DeletesBindings (s : AppState) (widget : Ptr) (l : List (Ptr × Binding)) : Prop :=
  ∃ s', destroyEventBindedToWidget s widget = some s' ∧
    HasBindings s' (l.filter fun e => e.2.widget ≠ some widget) ∧ OnlyBinds s s' ∧
      FreesBound widget l s s'

/-- **The bindings of a widget are deleted** exactly when no two neighbours of the list are bound
to it. -/
theorem deletesBindings_iff {s : AppState} {l : List (Ptr × Binding)} (h : HasBindings s l)
    (widget : Ptr) : DeletesBindings s widget l ↔ NoAdjacentBindings widget l := by
  refine ⟨fun ⟨s', hs', _⟩ => ?_, h.destroyEventBindedToWidget_frees⟩
  by_contra hadj
  rw [h.destroyEventBindedToWidget_eq_none hadj] at hs'
  exact absurd hs' (by simp)

section Sample

attribute [local instance] sampleHardware

/-- A press of a mouse button on the widget at address 1. -/
def framePress (id : ℕ) : BindArgs := ⟨.mouseButtondown, some 1, none, .user id, none⟩

theorem isSome_eiWidgetCreate_bound :
    (eiWidgetCreate (sampleApp ⟨640, 480⟩) .frame (some 0) none).isSome := rfl

/-- An application with a frame, at address 1. -/
def sampleBound : AppState :=
  ((eiWidgetCreate (sampleApp ⟨640, 480⟩) .frame (some 0) none).get
    isSome_eiWidgetCreate_bound).1

/-- Two callbacks of the root around one of the frame. -/
def rootFrameRoot : List BindingCall :=
  [.bind (rootPress 1), .bind (framePress 2), .bind (rootPress 3)]

/-- The two bindings of the root are deleted, and the one of the frame between them is kept. -/
theorem deletesBindings_iff_root : ∃ s l,
    rootFrameRoot.foldlM BindingCall.run sampleBound = some s ∧ HasBindings s l ∧
      l.countP (fun e => e.2.widget = some 0) = 2 ∧ DeletesBindings s 0 l := by
  obtain ⟨l₀, hl₀, hmap₀⟩ := (sampleApp_started ⟨640, 480⟩).bindings
  have hcreate : eiWidgetCreate (sampleApp ⟨640, 480⟩) .frame (some 0) none =
      some (sampleBound, 1) := eq_some_of_get isSome_eiWidgetCreate_bound rfl
  obtain ⟨hc, -⟩ := eiWidgetCreate_created (sampleApp_started ⟨640, 480⟩).wellFormed
    (sampleApp_live ⟨640, 480⟩) hcreate
  obtain ⟨l₁, hl₁, hmap₁⟩ := hc.bindings l₀ hl₀
  obtain ⟨s, l, hs, hl, hmap⟩ := hl₁.foldlM_run rootFrameRoot
  have hbound : l.map Prod.snd =
      rootFrameRoot.foldl BindingCall.apply (appBindings.map appBinding) := by
    rw [hmap, List.map_append, hmap₀, hmap₁, createdBindings, List.append_nil]
  refine ⟨s, l, hs, hl, ?_, (deletesBindings_iff hl 0).mpr ?_⟩
  · have hcount : l.countP (fun e => e.2.widget = some 0) =
        (l.map Prod.snd).countP fun b => b.widget = some 0 := by
      rw [List.countP_map]
      rfl
    rw [hcount, hbound]
    rfl
  · rw [noAdjacentBindings_iff, hbound]
    decide

/-- Three callbacks bound in a row on the root. -/
def threePresses : List BindingCall :=
  [.bind (rootPress 1), .bind (rootPress 2), .bind (rootPress 3)]

/-- The first of three bindings in a row is freed, and the second one writes into it. -/
theorem threePresses_not_deleted : ∃ s l,
    threePresses.foldlM BindingCall.run (sampleApp ⟨640, 480⟩) = some s ∧ HasBindings s l ∧
      ¬ DeletesBindings s 0 l := by
  obtain ⟨l₀, hl₀, -⟩ := (sampleApp_started ⟨640, 480⟩).bindings
  obtain ⟨s, l, hs, hl, -⟩ := hl₀.foldlM_run threePresses
  refine ⟨s, l, hs, hl, fun ⟨s', hs', _⟩ => ?_⟩
  have hnone : (threePresses.foldlM BindingCall.run (sampleApp ⟨640, 480⟩)).bind
      (fun s => destroyEventBindedToWidget s 0) = none := by
    rfl
  rw [hs, Option.bind_some, hs'] at hnone
  exact absurd hnone (by simp)

end Sample

end GuiLibrary

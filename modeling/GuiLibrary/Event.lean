import GuiLibrary.Widget
import Mathlib.Data.List.Chain

/-!
# The list of bound events

`ei_bind` appends a binding to the list that starts at `top_event_bind`, `ei_unbind` deletes the
first binding equal to its arguments, and `destroy_event_binded_to_widget` deletes those of a
widget. The last function keeps the address of the record it has just freed as the previous one
of the list, so when two bindings of the widget follow each other it writes into freed memory.

`HasBindings s l` says that the list holds the bindings `l`, each with its address. On the
contents of the list the three functions are `l ++ [b]`, `List.eraseP` and `List.filter`, the last
one when no two neighbours are deleted.

## Main definitions

* `eiBind`, `eiUnbind`, `destroyEventBindedToWidget`.
* `HasBindings`, `OnlyBinds`, `NoAdjacentBindings`.

## Main results

* `HasBindings.eiBind`, `HasBindings.eiUnbind`.
* `HasBindings.destroyEventBindedToWidget`, `destroyEventBindedToWidget_eq_none`.
-/

namespace GuiLibrary

open Cells

/-! ### The functions of the library -/

/-- The event types that need picking, those of the mouse. -/
def EventType.pickable : EventType → Bool
  | mouseButtondown | mouseButtonup | mouseMove => true
  | none | app | keydown | keyup | last => false

namespace AppState

/-- Allocates a record for a binding. -/
def allocBind (s : AppState) (b : Binding) : AppState :=
  { s with
    binds := Function.update s.binds s.nextBind (some ⟨b, none⟩)
    nextBind := s.nextBind + 1 }

@[simp] theorem binds_allocBind_self (s : AppState) (b : Binding) :
    (s.allocBind b).binds s.nextBind = some ⟨b, none⟩ := Function.update_self ..

theorem binds_allocBind_of_ne (s : AppState) (b : Binding) {q : Ptr} (h : q ≠ s.nextBind) :
    (s.allocBind b).binds q = s.binds q := Function.update_of_ne h ..

/-- Writes `top_event_bind`. -/
def setTopEventBind (s : AppState) (top : Option Ptr) : AppState := { s with topEventBind := top }

end AppState

/-- The walk of `ei_bind` to the last record of the list. -/
def lastBind (binds : Ptr → Option LinkedBindedEvent) : ℕ → Ptr → Option Ptr
  | 0, _ => none
  | fuel + 1, current => do
      let b ← binds current
      match b.next with
      | none => some current
      | some next => lastBind binds fuel next

/-- The end of `ei_bind`: allocates a record and links it at the end of the list. -/
def appendBind (s : AppState) (b : Binding) : Option AppState :=
  let binded := s.nextBind
  let s := s.allocBind b
  match s.topEventBind with
  | none => some (s.setTopEventBind (some binded))
  | some top => do
      let last ← lastBind s.binds s.nextBind top
      let c ← s.binds last
      some (s.setBind last { c with next := some binded })

/-- `ei_bind`: a binding must have a widget or a tag, and not both. -/
def eiBind (s : AppState) (eventtype : EventType) (widget : Option Ptr) (tag : Option Tag)
    (callback : Callback) (userParam : Option ℕ) : Option AppState :=
  if widget.isSome && tag.isSome then some s
  else if widget.isNone && tag.isNone then some s
  else appendBind s ⟨eventtype, widget, tag, callback, userParam, eventtype.pickable⟩

/-- `last_bind->next = curr_bind->next`, or the same for the top of the list, and
`free(curr_bind)`. -/
def unlinkBind (s : AppState) (last : Option Ptr) (curr : Ptr) (next : Option Ptr) :
    Option AppState :=
  match last with
  | none => some ((s.setTopEventBind next).freeBind curr)
  | some last => do
      let b ← s.binds last
      some ((s.setBind last { b with next := next }).freeBind curr)

/-- The test of `ei_unbind`; tags are compared by address. -/
def Binding.matches (b : Binding) (eventtype : EventType) (widget : Option Ptr) (tag : Option Tag)
    (callback : Callback) (userParam : Option ℕ) : Bool :=
  b.eventtype = eventtype ∧ b.widget = widget ∧ b.tag.map Tag.addr = tag.map Tag.addr ∧
    b.callback = callback ∧ b.userParam = userParam

/-- The loop of `ei_unbind`. -/
def unbindLoop (found : Binding → Bool) : ℕ → AppState → Option Ptr → Option Ptr → Option AppState
  | _, s, _, none => some s
  | 0, _, _, some _ => none
  | fuel + 1, s, last, some current => do
      let b ← s.binds current
      if found b.toBinding then unlinkBind s last current b.next
      else unbindLoop found fuel s (some current) b.next

/-- `ei_unbind`. -/
def eiUnbind (s : AppState) (eventtype : EventType) (widget : Option Ptr) (tag : Option Tag)
    (callback : Callback) (userParam : Option ℕ) : Option AppState :=
  unbindLoop (fun b => b.matches eventtype widget tag callback userParam) s.nextBind s none
    s.topEventBind

/-- The loop of `destroy_event_binded_to_widget`: the previous record is the current one even when
it has just been freed. -/
def destroyEventLoop (widget : Ptr) : ℕ → AppState → Option Ptr → Option Ptr → Option AppState
  | _, s, _, none => some s
  | 0, _, _, some _ => none
  | fuel + 1, s, last, some curr => do
      let b ← s.binds curr
      let s ← (if b.widget = some widget then unlinkBind s last curr b.next else some s)
      destroyEventLoop widget fuel s (some curr) b.next

/-- `destroy_event_binded_to_widget`. -/
def destroyEventBindedToWidget (s : AppState) (widget : Ptr) : Option AppState :=
  destroyEventLoop widget s.nextBind s none s.topEventBind

/-! ### The contents of the list -/

/-- The list holds the bindings `l` in order, and records are allocated in order of address. -/
structure HasBindings (s : AppState) (l : List (Ptr × Binding)) : Prop where
  chain : Chain s.binds LinkedBindedEvent.next s.topEventBind (l.map Prod.fst)
  data : ∀ e ∈ l, (s.binds e.1).map LinkedBindedEvent.toBinding = some e.2
  fresh : ∀ p, s.nextBind ≤ p → s.binds p = none

/-- The bindings of a list, read from the records. -/
def listBinds (binds : Ptr → Option LinkedBindedEvent) :
    ℕ → Option Ptr → List (Ptr × Binding)
  | _, none => []
  | 0, some _ => []
  | fuel + 1, some p =>
      match binds p with
      | none => []
      | some b => (p, b.toBinding) :: listBinds binds fuel b.next

/-- The states differ in the bindings only. -/
def OnlyBinds (s s' : AppState) : Prop :=
  s' = { s with binds := s'.binds, nextBind := s'.nextBind, topEventBind := s'.topEventBind }

/-- No two neighbours of the list are bound to `widget`. -/
def NoAdjacentBindings (widget : Ptr) (l : List (Ptr × Binding)) : Prop :=
  l.IsChain fun e e' => ¬ (e.2.widget = some widget ∧ e'.2.widget = some widget)

instance (widget : Ptr) (l : List (Ptr × Binding)) : Decidable (NoAdjacentBindings widget l) :=
  inferInstanceAs (Decidable (List.IsChain _ l))

/-- The condition does not depend on where the records are. -/
theorem noAdjacentBindings_iff {widget : Ptr} {l : List (Ptr × Binding)} :
    NoAdjacentBindings widget l ↔ (l.map Prod.snd).IsChain fun b b' =>
      ¬ (b.widget = some widget ∧ b'.widget = some widget) := by
  rw [List.isChain_map]
  rfl

/-- Among the records, those of the list `l` that are bound to `widget` are freed, and no other. -/
def FreesBound (widget : Ptr) (l : List (Ptr × Binding)) (s s' : AppState) : Prop :=
  ∀ p, s'.binds p = none ↔
    s.binds p = none ∨ p ∈ (l.filter fun e => e.2.widget = some widget).map Prod.fst

theorem OnlyBinds.refl (s : AppState) : OnlyBinds s s := rfl

theorem OnlyBinds.trans {s s₁ s₂ : AppState} (h₁ : OnlyBinds s s₁) (h₂ : OnlyBinds s₁ s₂) :
    OnlyBinds s s₂ := by
  rw [OnlyBinds] at *
  rw [h₂, h₁]

theorem OnlyBinds.widgets {s s' : AppState} (h : OnlyBinds s s') : s'.widgets = s.widgets := by
  rw [h]

theorem OnlyBinds.rootWidget {s s' : AppState} (h : OnlyBinds s s') :
    s'.rootWidget = s.rootWidget := by
  rw [h]

/-- Operations on the bindings keep the hierarchy. -/
theorem WellFormed.of_onlyBinds {s s' : AppState} (hs : WellFormed s) (h : OnlyBinds s s') :
    WellFormed s' := by
  rw [OnlyBinds] at h
  rw [h]
  exact hs.of_links (fun _ => rfl) rfl rfl

theorem live_of_onlyBinds {s s' : AppState} (h : OnlyBinds s s') {p : Ptr} :
    s'.Live p ↔ s.Live p := by
  rw [AppState.live_iff, h.widgets, AppState.live_iff]

/-- Cutting a record out of the list frees it and no other. -/
theorem unlinkBind_eq_none_iff {s s' : AppState} {last next : Option Ptr} {curr : Ptr}
    (h : unlinkBind s last curr next = some s') (p : Ptr) :
    s'.binds p = none ↔ s.binds p = none ∨ p = curr := by
  have hfree : ∀ s₁ : AppState, (s₁.freeBind curr).binds p = none ↔
      s₁.binds p = none ∨ p = curr := by
    intro s₁
    by_cases hp : p = curr
    · simp [AppState.freeBind, hp]
    · simp [AppState.freeBind, hp]
  cases last with
  | none =>
    obtain rfl := Option.some.inj h
    exact hfree _
  | some last =>
    simp only [unlinkBind, Option.bind_eq_bind, Option.bind_eq_some_iff, Option.some.injEq] at h
    obtain ⟨b, hb, rfl⟩ := h
    rw [hfree]
    by_cases hp : p = last
    · simp [AppState.setBind, hp, hb]
    · simp [AppState.setBind, Function.update_of_ne hp]

/-- Binding writes the bindings only. -/
theorem appendBind_onlyBinds {s s' : AppState} {b : Binding} (h : appendBind s b = some s') :
    OnlyBinds s s' := by
  rw [appendBind] at h
  cases htop : (s.allocBind b).topEventBind with
  | none =>
    rw [htop, Option.some.injEq] at h
    exact h ▸ rfl
  | some top =>
    simp only [htop, Option.bind_eq_bind, Option.bind_eq_some_iff, Option.some.injEq] at h
    obtain ⟨last, -, c, -, rfl⟩ := h
    rfl

theorem eiBind_onlyBinds {s s' : AppState} {eventtype : EventType} {widget : Option Ptr}
    {tag : Option Tag} {callback : Callback} {userParam : Option ℕ}
    (h : eiBind s eventtype widget tag callback userParam = some s') : OnlyBinds s s' := by
  rw [eiBind] at h
  split_ifs at h
  · exact Option.some.inj h ▸ .refl s
  · exact Option.some.inj h ▸ .refl s
  · exact appendBind_onlyBinds h

theorem unlinkBind_onlyBinds {s s' : AppState} {last next : Option Ptr} {curr : Ptr}
    (h : unlinkBind s last curr next = some s') : OnlyBinds s s' := by
  cases last with
  | none => exact Option.some.inj h ▸ rfl
  | some last =>
    obtain ⟨b, -, h⟩ := Option.bind_eq_some_iff.mp h
    exact Option.some.inj h ▸ rfl

theorem unbindLoop_onlyBinds {found : Binding → Bool} (fuel : ℕ) : ∀ {s s' : AppState}
    {last curr : Option Ptr}, unbindLoop found fuel s last curr = some s' → OnlyBinds s s' := by
  induction fuel with
  | zero =>
    intro s s' last curr hrun
    cases curr with
    | none => exact Option.some.inj hrun ▸ .refl s
    | some b => simp [unbindLoop] at hrun
  | succ fuel ih =>
    intro s s' last curr hrun
    cases curr with
    | none => exact Option.some.inj hrun ▸ .refl s
    | some c =>
      simp only [unbindLoop, Option.bind_eq_bind, Option.bind_eq_some_iff] at hrun
      obtain ⟨b, -, hrun⟩ := hrun
      split_ifs at hrun
      · exact unlinkBind_onlyBinds hrun
      · exact ih hrun

theorem eiUnbind_onlyBinds {s s' : AppState} {eventtype : EventType} {widget : Option Ptr}
    {tag : Option Tag} {callback : Callback} {userParam : Option ℕ}
    (h : eiUnbind s eventtype widget tag callback userParam = some s') : OnlyBinds s s' :=
  unbindLoop_onlyBinds _ h

theorem destroyEventLoop_onlyBinds {p : Ptr} (fuel : ℕ) : ∀ {s s' : AppState}
    {last curr : Option Ptr}, destroyEventLoop p fuel s last curr = some s' → OnlyBinds s s' := by
  induction fuel with
  | zero =>
    intro s s' last curr hrun
    cases curr with
    | none => exact Option.some.inj hrun ▸ .refl s
    | some b => simp [destroyEventLoop] at hrun
  | succ fuel ih =>
    intro s s' last curr hrun
    cases curr with
    | none => exact Option.some.inj hrun ▸ .refl s
    | some c =>
      simp only [destroyEventLoop, Option.bind_eq_bind, Option.bind_eq_some_iff] at hrun
      obtain ⟨b, -, s₁, h₁, h₂⟩ := hrun
      refine OnlyBinds.trans ?_ (ih h₂)
      split_ifs at h₁
      · exact unlinkBind_onlyBinds h₁
      · exact Option.some.inj h₁ ▸ .refl s

theorem destroyEventBindedToWidget_onlyBinds {s s' : AppState} {p : Ptr}
    (h : destroyEventBindedToWidget s p = some s') : OnlyBinds s s' :=
  destroyEventLoop_onlyBinds _ h

namespace HasBindings

variable {s : AppState} {l l₁ l₂ : List (Ptr × Binding)} {e : Ptr × Binding}

/-- The contents of the list only depend on the records and the top of the list. -/
theorem of_binds {s' : AppState} (h : HasBindings s l) (hb : s'.binds = s.binds)
    (ht : s'.topEventBind = s.topEventBind) (hn : s'.nextBind = s.nextBind) : HasBindings s' l :=
  ⟨by rw [hb, ht]; exact h.chain, by rw [hb]; exact h.data, by rw [hb, hn]; exact h.fresh⟩

theorem congr {s' : AppState} (h : HasBindings s l) (hs : s'.skeleton = s.skeleton) :
    HasBindings s' l :=
  h.of_binds (congrArg Skeleton.binds hs) (congrArg Skeleton.topEventBind hs)
    (congrArg Skeleton.nextBind hs)

/-- The address of a record is in use. -/
theorem lt_nextBind (h : HasBindings s l) {p : Ptr} (hp : p ∈ l.map Prod.fst) :
    p < s.nextBind := by
  obtain ⟨b, hb⟩ := h.chain.live p hp
  by_contra hlt
  rw [h.fresh p (Nat.not_lt.mp hlt)] at hb
  exact absurd hb (by simp)

theorem length_le (h : HasBindings s l) : l.length ≤ s.nextBind := by
  have := h.chain.length_le fun p hp => h.lt_nextBind hp
  rwa [List.length_map] at this

/-- The list determines its contents. -/
theorem unique {l' : List (Ptr × Binding)} (h : HasBindings s l) (h' : HasBindings s l') :
    l = l' := by
  have hmap := h.chain.unique h'.chain
  refine List.ext_getElem (by simpa using congrArg List.length hmap) fun i hi hi' => ?_
  have hfst : l[i].1 = l'[i].1 := by
    have := List.getElem_of_eq hmap (by simpa using hi)
    simpa using this
  refine Prod.ext hfst (Option.some.inj ?_)
  rw [← h.data _ (List.getElem_mem hi), ← h'.data _ (List.getElem_mem hi'), hfst]

/-- Reading the records from the top of the list gives its contents. -/
theorem listBinds_eq (h : HasBindings s l) (fuel : ℕ) (hfuel : l.length ≤ fuel) :
    listBinds s.binds fuel s.topEventBind = l := by
  have hrun : ∀ (l : List (Ptr × Binding)) (fuel : ℕ) (top : Option Ptr),
      Chain s.binds LinkedBindedEvent.next top (l.map Prod.fst) →
      (∀ e ∈ l, (s.binds e.1).map LinkedBindedEvent.toBinding = some e.2) → l.length ≤ fuel →
      listBinds s.binds fuel top = l := by
    intro l
    induction l with
    | nil =>
      rintro fuel _ rfl _ _
      cases fuel <;> rfl
    | cons e l ih =>
      intro fuel top hl hdata hfuel
      obtain ⟨k, rfl⟩ : ∃ k, fuel = k + 1 := ⟨fuel - 1, by simp at hfuel; omega⟩
      obtain ⟨rfl, b, hb, hl⟩ := hl
      have he := hdata e List.mem_cons_self
      rw [hb, Option.map_some, Option.some.injEq] at he
      simp only [listBinds, hb, he]
      rw [ih k b.next hl (fun e' he' => hdata e' (List.mem_cons_of_mem e he'))
        (by simpa using hfuel)]
  exact hrun l fuel s.topEventBind h.chain h.data hfuel

/-- The record of a binding and its link. -/
theorem record (h : HasBindings s (l₁ ++ e :: l₂)) : ∃ b, s.binds e.1 = some b ∧
    b.toBinding = e.2 ∧ b.next = (l₂.map Prod.fst).head? := by
  have hchain := h.chain
  rw [List.map_append, List.map_cons] at hchain
  obtain ⟨-, b, hb, hrest⟩ := hchain.suffix
  have hdata := h.data e (by simp)
  rw [hb, Option.map_some, Option.some.injEq] at hdata
  exact ⟨b, hb, hdata, Chain.head_eq hrest⟩

/-- Cutting a record out of the list. -/
theorem unlink (h : HasBindings s (l₁ ++ e :: l₂)) {b : LinkedBindedEvent}
    (hb : s.binds e.1 = some b) : ∃ s', unlinkBind s (l₁.map Prod.fst).getLast? e.1 b.next =
      some s' ∧ HasBindings s' (l₁ ++ l₂) ∧ OnlyBinds s s' ∧ s'.nextBind = s.nextBind ∧
        s'.binds e.1 = none := by
  have hnodup := h.chain.nodup
  have hchain := h.chain
  rw [List.map_append, List.map_cons] at hnodup hchain
  obtain ⟨hn₁, hn₂, hdisj⟩ := List.nodup_append.mp hnodup
  obtain ⟨he₂, -⟩ := List.nodup_cons.mp hn₂
  have he₁ : e.1 ∉ l₁.map Prod.fst := fun hmem =>
    hdisj e.1 hmem e.1 List.mem_cons_self rfl
  obtain ⟨k, hseg, rfl, b', hb', hrest⟩ := segment_append_iff.mp hchain
  obtain rfl : b = b' := Option.some.inj (hb.symm.trans hb')
  rcases List.eq_nil_or_concat l₁ with rfl | ⟨l₀, c, rfl⟩
  · refine ⟨_, rfl, ⟨hrest.update_of_notMem he₂ none, fun x hx => ?_, fun p hp => ?_⟩, rfl, rfl,
      Function.update_self ..⟩
    · have hxe : x.1 ≠ e.1 := fun hxe => he₂ (hxe ▸ List.mem_map_of_mem hx)
      exact (congrArg _ (Function.update_of_ne hxe ..)).trans
        (h.data x (List.mem_append_right _ (List.mem_cons_of_mem e hx)))
    · by_cases hpe : p = e.1
      · exact hpe ▸ Function.update_self ..
      · exact (Function.update_of_ne hpe ..).trans (h.fresh p hp)
  · -- The previous record `c` gets the link of the record that is freed.
    rw [List.concat_eq_append, List.map_append, List.map_singleton] at *
    obtain ⟨hseg₀, d, hd, hdn⟩ := segment_snoc_iff.mp hseg
    have hce : c.1 ≠ e.1 := fun hce => he₁ (hce ▸ by simp)
    have hc₀ : c.1 ∉ l₀.map Prod.fst := by
      intro hmem
      rw [List.nodup_append] at hn₁
      exact hn₁.2.2 c.1 hmem c.1 (List.mem_singleton_self _) rfl
    have hc₂ : c.1 ∉ l₂.map Prod.fst := fun hmem =>
      hdisj c.1 (by simp) c.1 (List.mem_cons_of_mem _ hmem) rfl
    have he₀ : e.1 ∉ l₀.map Prod.fst := fun hmem => he₁ (List.mem_append_left _ hmem)
    let d' : LinkedBindedEvent := { d with next := b.next }
    have hc' : (s.setBind c.1 d').binds c.1 = some d' := Function.update_self ..
    refine ⟨(s.setBind c.1 d').freeBind e.1, ?_, ⟨?_, fun x hx => ?_, fun p hp => ?_⟩, rfl, rfl,
      Function.update_self ..⟩
    · simp [unlinkBind, hd, d']
    · rw [List.map_append, List.map_append, List.map_singleton, Chain, segment_append_iff]
      refine ⟨b.next, segment_snoc_iff.mpr
        ⟨(hseg₀.update_of_notMem hc₀ _).update_of_notMem he₀ none, d', ?_, rfl⟩,
        (Segment.update_of_notMem hrest hc₂ _).update_of_notMem he₂ none⟩
      exact (Function.update_of_ne hce ..).trans hc'
    · have hxe : x.1 ≠ e.1 := by
        intro hxe
        rcases List.mem_append.mp hx with hx | hx
        · exact he₁ (by rw [← hxe]; simpa using List.mem_map_of_mem (f := Prod.fst) hx)
        · exact he₂ (hxe ▸ List.mem_map_of_mem hx)
      refine (congrArg _ (Function.update_of_ne hxe ..)).trans ?_
      have hold : (s.binds x.1).map LinkedBindedEvent.toBinding = some x.2 := by
        refine h.data x ?_
        simp only [List.mem_append, List.mem_cons] at hx ⊢
        tauto
      by_cases hxc : x.1 = c.1
      · rw [hxc, hd, Option.map_some] at hold
        rw [hxc, hc', Option.map_some, ← hold]
      · exact (congrArg _ (Function.update_of_ne hxc ..)).trans hold
    · by_cases hpe : p = e.1
      · exact hpe ▸ Function.update_self ..
      · refine (Function.update_of_ne hpe ..).trans ?_
        have hpc : p ≠ c.1 := by
          rintro rfl
          have hlt : c.1 < s.nextBind := h.lt_nextBind (by simp)
          exact Nat.not_lt.mpr hp hlt
        exact (Function.update_of_ne hpc ..).trans (h.fresh p hp)

/-- The walk to the end of the list. -/
theorem lastBind_eq {binds : Ptr → Option LinkedBindedEvent} : (l : List Ptr) → (c : Ptr) →
    (fuel : ℕ) → Chain binds LinkedBindedEvent.next (some c) (c :: l) → l.length < fuel →
      lastBind binds fuel c = (c :: l).getLast?
  | _, _, 0, _, hlt => absurd hlt (Nat.not_lt_zero _)
  | [], c, fuel + 1, h, _ => by
      obtain ⟨-, b, hb, hn⟩ := h
      have hn : b.next = none := hn
      simp only [lastBind, hb, hn, Option.bind_eq_bind, Option.bind_some, List.getLast?_singleton]
  | d :: l, c, fuel + 1, h, hlt => by
      obtain ⟨-, b, hb, hl⟩ := h
      have hn : b.next = some d := hl.1
      simp only [lastBind, hb, hn, Option.bind_eq_bind, Option.bind_some]
      rw [lastBind_eq l d fuel (hn ▸ hl) (Nat.lt_of_succ_lt_succ hlt), List.getLast?_cons_cons]

/-- **Appending a record.** -/
theorem appendBind (h : HasBindings s l) (b : Binding) :
    ∃ s', GuiLibrary.appendBind s b = some s' ∧ HasBindings s' (l ++ [(s.nextBind, b)]) ∧
      OnlyBinds s s' := by
  have hnotMem : s.nextBind ∉ l.map Prod.fst := fun hmem => Nat.lt_irrefl _ (h.lt_nextBind hmem)
  have hnew : (s.allocBind b).binds s.nextBind = some ⟨b, none⟩ := Function.update_self ..
  have hold : ∀ x ∈ l, (s.allocBind b).binds x.1 = s.binds x.1 := fun x hx =>
    Function.update_of_ne (fun hxn => hnotMem (by
      rw [← hxn]
      exact List.mem_map_of_mem hx)) ..
  have hfresh : ∀ p, s.nextBind + 1 ≤ p → (s.allocBind b).binds p = none := fun p hp =>
    (Function.update_of_ne (Nat.ne_of_gt hp) ..).trans (h.fresh p (Nat.le_of_succ_le hp))
  rcases List.eq_nil_or_concat l with rfl | ⟨l₀, c, rfl⟩
  · have htop : (s.allocBind b).topEventBind = none := h.chain
    refine ⟨(s.allocBind b).setTopEventBind (some s.nextBind), ?_,
      ⟨⟨rfl, _, hnew, rfl⟩, fun x hx => ?_, hfresh⟩, rfl⟩
    · simp only [GuiLibrary.appendBind, htop]
    · obtain rfl := List.mem_singleton.mp hx
      exact congrArg _ hnew
  · rw [List.concat_eq_append] at *
    have hchain := h.chain
    rw [List.map_append, List.map_singleton] at hchain hnotMem
    obtain ⟨hseg, d, hd, hdn⟩ := segment_snoc_iff.mp hchain
    have hcn : c.1 ≠ s.nextBind := fun hcn => hnotMem (hcn ▸ by simp)
    have hc₀ : c.1 ∉ l₀.map Prod.fst := by
      have hnodup := hchain.nodup
      rw [List.nodup_append] at hnodup
      exact fun hmem => hnodup.2.2 c.1 hmem c.1 (List.mem_singleton_self _) rfl
    have hd₁ : (s.allocBind b).binds c.1 = some d := (hold c (by simp)).trans hd
    -- The last record `c` gets a link to the new one.
    let d' : LinkedBindedEvent := { d with next := some s.nextBind }
    let s' := (s.allocBind b).setBind c.1 d'
    have hc' : s'.binds c.1 = some d' := Function.update_self ..
    have hn' : s'.binds s.nextBind = some ⟨b, none⟩ :=
      (Function.update_of_ne hcn.symm ..).trans hnew
    have hmem₀ : s.nextBind ∉ l₀.map Prod.fst := fun hmem =>
      hnotMem (List.mem_append_left _ hmem)
    have hseg' : Segment s'.binds LinkedBindedEvent.next s'.topEventBind (l₀.map Prod.fst)
        (some c.1) := (hseg.update_of_notMem hmem₀ _).update_of_notMem hc₀ _
    refine ⟨s', ?_, ⟨?_, fun x hx => ?_, fun p hp => ?_⟩, rfl⟩
    · have hchain' : Chain (s.allocBind b).binds LinkedBindedEvent.next
          (s.allocBind b).topEventBind (l₀.map Prod.fst ++ [c.1]) :=
        hchain.update_of_notMem hnotMem _
      have hlen := h.length_le
      rw [List.length_append, List.length_singleton] at hlen
      cases hl : l₀.map Prod.fst ++ [c.1] with
      | nil => simp at hl
      | cons top l' =>
        have hlen' := congrArg List.length hl
        rw [List.length_append, List.length_map, List.length_singleton, List.length_cons] at hlen'
        rw [hl] at hchain'
        have htop : (s.allocBind b).topEventBind = some top := hchain'.1
        have hlast : lastBind (s.allocBind b).binds (s.allocBind b).nextBind top = some c.1 := by
          rw [lastBind_eq l' top _ (htop ▸ hchain'), ← hl, List.getLast?_concat]
          exact Nat.lt_succ_of_le (Nat.le_trans (by omega) hlen)
        simp only [GuiLibrary.appendBind, htop, hlast, hd₁, Option.bind_eq_bind,
          Option.bind_some]
        rfl
    · rw [List.map_append, List.map_append, List.map_singleton, List.map_singleton]
      exact segment_snoc_iff.mpr ⟨segment_snoc_iff.mpr ⟨hseg', d', hc', rfl⟩, _, hn', rfl⟩
    · rcases List.mem_append.mp hx with hx | hx
      · by_cases hxc : x.1 = c.1
        · have hdata := h.data x hx
          rw [hxc, hd, Option.map_some] at hdata
          rw [hxc, hc', Option.map_some, ← hdata]
        · exact (congrArg _ ((Function.update_of_ne hxc ..).trans (hold x hx))).trans
            (h.data x hx)
      · obtain rfl := List.mem_singleton.mp hx
        exact congrArg _ hn'
    · have hpc : p ≠ c.1 := by
        rintro rfl
        have hlt : c.1 < s.nextBind := h.lt_nextBind (by simp)
        exact Nat.not_lt.mpr (Nat.le_of_succ_le hp) hlt
      exact (Function.update_of_ne hpc ..).trans (hfresh p hp)

/-- **Binding appends.** A binding with a widget or a tag, and not both, goes to the end of the
list. -/
theorem eiBind (h : HasBindings s l) (eventtype : EventType) (widget : Option Ptr)
    (tag : Option Tag) (callback : Callback) (userParam : Option ℕ)
    (hvalid : widget.isSome ≠ tag.isSome) :
    ∃ s', GuiLibrary.eiBind s eventtype widget tag callback userParam = some s' ∧
      HasBindings s' (l ++ [(s.nextBind,
        ⟨eventtype, widget, tag, callback, userParam, eventtype.pickable⟩)]) ∧
      OnlyBinds s s' := by
  have hbind : GuiLibrary.eiBind s eventtype widget tag callback userParam =
      GuiLibrary.appendBind s
        ⟨eventtype, widget, tag, callback, userParam, eventtype.pickable⟩ := by
    cases widget <;> cases tag <;> simp [GuiLibrary.eiBind] at hvalid ⊢
  rw [hbind]
  exact h.appendBind _

/-- **Unbinding deletes the first match.** -/
theorem unbindLoop_spec (found : Binding → Bool) : (l₂ l₁ : List (Ptr × Binding)) →
    (s : AppState) → (fuel : ℕ) → HasBindings s (l₁ ++ l₂) → l₂.length ≤ fuel →
    ∃ s', unbindLoop found fuel s (l₁.map Prod.fst).getLast? (l₂.map Prod.fst).head? = some s' ∧
      HasBindings s' (l₁ ++ l₂.eraseP fun e => found e.2) ∧ OnlyBinds s s'
  | [], l₁, s, fuel, h, _ => ⟨s, by cases fuel <;> rfl, h, .refl s⟩
  | e :: l₂, l₁, s, fuel + 1, h, hfuel => by
      obtain ⟨b, hb, hbe, hnext⟩ := h.record
      simp only [unbindLoop, List.map_cons, List.head?_cons, hb, Option.bind_eq_bind,
        Option.bind_some, hbe]
      by_cases hf : found e.2
      · obtain ⟨s', hs', hbind, honly, -⟩ := h.unlink hb
        exact ⟨s', by rw [if_pos hf, hs'], by simpa [List.eraseP_cons, hf] using hbind, honly⟩
      · obtain ⟨s', hs', hbind, honly⟩ := unbindLoop_spec found l₂ (l₁ ++ [e]) s fuel
          (by simpa using h) (by simpa using hfuel)
        refine ⟨s', ?_, by simpa [List.eraseP_cons, hf] using hbind, honly⟩
        rw [if_neg hf, hnext, ← hs', List.map_append, List.map_singleton, List.getLast?_concat]

theorem eiUnbind (h : HasBindings s l) (eventtype : EventType) (widget : Option Ptr)
    (tag : Option Tag) (callback : Callback) (userParam : Option ℕ) :
    ∃ s', GuiLibrary.eiUnbind s eventtype widget tag callback userParam = some s' ∧
      HasBindings s' (l.eraseP fun e => e.2.matches eventtype widget tag callback userParam) ∧
      OnlyBinds s s' := by
  rw [GuiLibrary.eiUnbind, h.chain.head_eq]
  exact unbindLoop_spec _ l [] s _ h h.length_le

/-! ### Deleting the bindings of a widget -/

/-- What the loop of `destroy_event_binded_to_widget` makes of the rest of the list, when the
record before it has been freed or not: `none` when it writes into a freed record. -/
def deleteBound (widget : Ptr) : Bool → List (Ptr × Binding) → Option (List (Ptr × Binding))
  | _, [] => some []
  | freed, e :: l =>
      if e.2.widget = some widget then
        if freed then none else deleteBound widget true l
      else (deleteBound widget false l).map (e :: ·)

theorem destroyEventLoop_eq (widget : Ptr) : (l₂ : List (Ptr × Binding)) → (freed : Bool) →
    (l₁ : List (Ptr × Binding)) → (s : AppState) → (last : Option Ptr) → (fuel : ℕ) →
    HasBindings s (l₁ ++ l₂) →
    (if freed then ∃ c, last = some c ∧ s.binds c = none
      else last = (l₁.map Prod.fst).getLast?) → l₂.length ≤ fuel →
    match deleteBound widget freed l₂ with
    | none => destroyEventLoop widget fuel s last (l₂.map Prod.fst).head? = none
    | some r => ∃ s', destroyEventLoop widget fuel s last (l₂.map Prod.fst).head? = some s' ∧
        HasBindings s' (l₁ ++ r) ∧ OnlyBinds s s' ∧ FreesBound widget l₂ s s'
  | [], freed, l₁, s, last, fuel, h, _, _ =>
      ⟨s, by cases fuel <;> rfl, h, .refl s, fun p => by simp⟩
  | e :: l₂, freed, l₁, s, last, fuel + 1, h, hlast, hfuel => by
      obtain ⟨b, hb, hbe, hnext⟩ := h.record
      have hwe : e.2.widget = b.widget := by rw [← hbe]
      simp only [destroyEventLoop, List.map_cons, List.head?_cons, hb, Option.bind_eq_bind,
        Option.bind_some, deleteBound, hwe]
      by_cases hw : b.widget = some widget
      · cases freed with
        | true =>
          obtain ⟨c, rfl, hc⟩ := hlast
          simp [hw, unlinkBind, hc]
        | false =>
          obtain ⟨s₁, hs₁, hbind, honly, -, hfree⟩ := h.unlink hb
          have hnone := unlinkBind_eq_none_iff hs₁
          rw [hnext] at hs₁
          have hlast : last = (l₁.map Prod.fst).getLast? := hlast
          have ih := destroyEventLoop_eq widget l₂ true l₁ s₁ (some e.1) fuel hbind
            ⟨e.1, rfl, hfree⟩ (by simpa using hfuel)
          simp only [hw, if_true, hlast, hnext, hs₁, Option.bind_some, Bool.false_eq_true,
            if_false]
          cases hr : deleteBound widget true l₂ with
          | none => simpa [hr] using ih
          | some r =>
            rw [hr] at ih
            obtain ⟨s', hs', hbind', honly', hfrees⟩ := ih
            refine ⟨s', hs', hbind', honly.trans honly', fun p => ?_⟩
            rw [hfrees, hnone, or_assoc, List.filter_cons_of_pos (by simp [hwe, hw]),
              List.map_cons, List.mem_cons]
      · have ih := destroyEventLoop_eq widget l₂ false (l₁ ++ [e]) s (some e.1) fuel
          (by simpa using h) (by simp) (by simpa using hfuel)
        simp only [hw, if_false, Option.bind_some, hnext]
        cases hr : deleteBound widget false l₂ with
        | none => simpa [hr] using ih
        | some r =>
          rw [hr] at ih
          obtain ⟨s', hs', hbind', honly', hfrees⟩ := ih
          refine ⟨s', hs', by simpa using hbind', honly', fun p => ?_⟩
          rw [hfrees, List.filter_cons_of_neg (by simp [hwe, hw])]

/-- The loop writes into a freed record exactly when two neighbours are deleted; otherwise it
deletes all the bindings of the widget. -/
theorem deleteBound_eq (widget : Ptr) : (l : List (Ptr × Binding)) → (freed : Bool) →
    deleteBound widget freed l =
      if NoAdjacentBindings widget l ∧ (freed = true → ∀ e ∈ l.head?, e.2.widget ≠ some widget)
      then some (l.filter fun e => e.2.widget ≠ some widget) else none
  | [], freed => by simp [deleteBound, NoAdjacentBindings]
  | e :: l, freed => by
      have hcons : NoAdjacentBindings widget (e :: l) ↔
          (e.2.widget = some widget → ∀ e' ∈ l.head?, e'.2.widget ≠ some widget) ∧
            NoAdjacentBindings widget l := by
        cases l with
        | nil => simp [NoAdjacentBindings]
        | cons e' l => simp [NoAdjacentBindings, List.isChain_cons_cons]
      rw [deleteBound]
      by_cases hw : e.2.widget = some widget
      · cases freed with
        | true => simp [hw]
        | false =>
          rw [if_pos hw, if_neg Bool.false_ne_true, deleteBound_eq widget l true,
            List.filter_cons_of_neg (by simpa using hw)]
          refine if_congr ?_ rfl rfl
          rw [hcons]
          simp [hw, and_comm]
      · rw [if_neg hw, deleteBound_eq widget l false]
        by_cases hl : NoAdjacentBindings widget l <;> simp [hcons, hw, hl]

/-- When no two neighbours are bound to the widget, the loop completes and frees its records. -/
theorem destroyEventBindedToWidget_frees (h : HasBindings s l) {widget : Ptr}
    (hl : NoAdjacentBindings widget l) :
    ∃ s', GuiLibrary.destroyEventBindedToWidget s widget = some s' ∧
      HasBindings s' (l.filter fun e => e.2.widget ≠ some widget) ∧ OnlyBinds s s' ∧
        FreesBound widget l s s' := by
  have := destroyEventLoop_eq widget l false [] s none s.nextBind h rfl h.length_le
  rw [deleteBound_eq, if_pos ⟨hl, fun h => absurd h Bool.false_ne_true⟩] at this
  rwa [GuiLibrary.destroyEventBindedToWidget, h.chain.head_eq]

/-- **Deleting the bindings of a widget.** When no two neighbours are bound to it, exactly its
bindings go, and the others keep their order. -/
theorem destroyEventBindedToWidget (h : HasBindings s l) {widget : Ptr}
    (hl : NoAdjacentBindings widget l) :
    ∃ s', GuiLibrary.destroyEventBindedToWidget s widget = some s' ∧
      HasBindings s' (l.filter fun e => e.2.widget ≠ some widget) ∧ OnlyBinds s s' := by
  obtain ⟨s', hs', hbind, honly, -⟩ := h.destroyEventBindedToWidget_frees hl
  exact ⟨s', hs', hbind, honly⟩

/-- Two neighbours bound to the widget make the loop write into a freed record. -/
theorem destroyEventBindedToWidget_eq_none (h : HasBindings s l) {widget : Ptr}
    (hl : ¬ NoAdjacentBindings widget l) :
    GuiLibrary.destroyEventBindedToWidget s widget = none := by
  have := destroyEventLoop_eq widget l false [] s none s.nextBind h rfl h.length_le
  rw [deleteBound_eq, if_neg fun h => hl h.1] at this
  rwa [GuiLibrary.destroyEventBindedToWidget, h.chain.head_eq]

end HasBindings

end GuiLibrary

import GuiLibrary.BindingHistory
import GuiLibrary.Sessions
import GuiLibrary.Wiring

/-!
# The end of the application

`ei_app_free` destroys the root widget, unbinds the handlers of the library and frees the bindings
that are left, record by record. Through any session, no record of a binding leaves the list
without being freed, so the list still leads to all of them; and every widget hangs below the root.
So nothing is left when `ei_app_free` has run.

It runs to its end exactly when the root is still there, with no two neighbouring bindings of its
own. The top of the list is not reset by it: an application that is created again binds behind a
freed record, unless the handlers of the library were the only bindings left.

## Main definitions

* `freeBinds`, `eiAppFree`, `leftBindings`, `Released`, `RootDestroyable`.
* `TracksBindings`, `Tracked`, `BindsRule`.

## Main results

* `BindsRule.action`: what the operations on the list keep, every step of a session keeps.
* `eiAppFree_of_session`: when nothing is left behind.
* `appendBind_of_session`: what a further binding meets.
-/

namespace GuiLibrary

open Cells Traces

/-! ### Freeing everything -/

/-- The loop of `ei_app_free` over the bindings that are left. -/
def freeBinds : ℕ → AppState → Option Ptr → Option AppState
  | _, s, none => some s
  | 0, _, some _ => none
  | fuel + 1, s, some currentBind => do
      let b ← s.binds currentBind
      freeBinds fuel (s.freeBind currentBind) b.next

/-- `ei_app_free` on the widgets, the rectangles and the bindings. -/
def eiAppFree (s : AppState) : Option AppState := do
  let s ← s.rootWidget.elim (some s) (eiWidgetDestroy s)
  let s := { s with invalidatedRects := [] }
  let s ← appBindings.foldlM (fun s b => eiUnbind s b.1 none (some b.2.1) b.2.2 none) s
  freeBinds s.nextBind s s.topEventBind

/-- What is left of the list without the bindings of `ei_app_create`. -/
def unboundBindings (l : List (Ptr × Binding)) : List (Ptr × Binding) :=
  appBindings.foldl
    (fun l b => l.eraseP fun e => e.2.matches b.1 none (some b.2.1) b.2.2 none) l

/-- The bindings that the loop finds: neither those of the root, if there is one, nor those of
`ei_app_create`. -/
def leftBindings (root : Option Ptr) (l : List (Ptr × Binding)) : List (Ptr × Binding) :=
  unboundBindings (root.elim l fun root => l.filter fun e => e.2.widget ≠ some root)

/-- Nothing is left: no widget, no binding, no rectangle. -/
structure Released (s : AppState) : Prop where
  widgets : ∀ p, s.widgets p = none
  binds : ∀ p, s.binds p = none
  invalidatedRects : s.invalidatedRects = []

/-! ### No record is lost -/

/-- The list `l` holds every record that is not freed. -/
structure TracksBindings (s : AppState) (l : List (Ptr × Binding)) : Prop where
  hasBindings : HasBindings s l
  mem : ∀ p, (s.binds p).isSome → p ∈ l.map Prod.fst

/-- The list from `top_event_bind` holds every record that is not freed. -/
def Tracked (s : AppState) : Prop := ∃ l, TracksBindings s l

namespace TracksBindings

variable {s s' : AppState} {l l₁ l₂ : List (Ptr × Binding)} {e : Ptr × Binding}

theorem of_keepsBinds (h : TracksBindings s l) (hkeep : KeepsBinds s s') : TracksBindings s' l :=
  ⟨hkeep.hasBindings h.hasBindings, fun p hp => h.mem p (hkeep.binds ▸ hp)⟩

/-- Appending allocates the new record and no other. -/
theorem isSome_appendBind {b : Binding} (hrun : appendBind s b = some s') {p : Ptr}
    (hp : (s'.binds p).isSome) : (s.binds p).isSome ∨ p = s.nextBind := by
  by_cases hpn : p = s.nextBind
  · exact Or.inr hpn
  · refine Or.inl ?_
    have halloc := s.binds_allocBind_of_ne b hpn
    rw [appendBind] at hrun
    cases htop : (s.allocBind b).topEventBind with
    | none =>
      rw [htop, Option.some.injEq] at hrun
      subst hrun
      exact halloc ▸ hp
    | some top =>
      simp only [htop, Option.bind_eq_bind, Option.bind_eq_some_iff, Option.some.injEq] at hrun
      obtain ⟨last, -, c, hc, rfl⟩ := hrun
      by_cases hpl : p = last
      · subst hpl
        rw [← halloc, hc]
        rfl
      · rw [AppState.binds_setBind_of_ne _ _ hpl, halloc] at hp
        exact hp

theorem appendBind {b : Binding} (h : TracksBindings s l)
    (hrun : GuiLibrary.appendBind s b = some s') :
    TracksBindings s' (l ++ [(s.nextBind, b)]) := by
  obtain ⟨s₁, h₁, hl, -⟩ := h.hasBindings.appendBind b
  obtain rfl := Option.some.inj (h₁.symm.trans hrun)
  refine ⟨hl, fun p hp => ?_⟩
  rw [List.map_append, List.mem_append]
  rcases isSome_appendBind hrun hp with hp | rfl
  · exact Or.inl (h.mem p hp)
  · exact Or.inr List.mem_cons_self

/-- Cutting a record out of the list frees it, so that the list still holds all the others. -/
theorem unlink (h : TracksBindings s (l₁ ++ e :: l₂)) {b : LinkedBindedEvent}
    (hb : s.binds e.1 = some b) :
    ∃ s', unlinkBind s (l₁.map Prod.fst).getLast? e.1 b.next = some s' ∧
      TracksBindings s' (l₁ ++ l₂) := by
  obtain ⟨s', hs', hl, -⟩ := h.hasBindings.unlink hb
  refine ⟨s', hs', hl, fun p hp => ?_⟩
  have hfree := (unlinkBind_eq_none_iff hs' p).not
  rw [← ne_eq, Option.ne_none_iff_isSome, not_or] at hfree
  obtain ⟨hold, hpe⟩ := hfree.mp hp
  have hmem := h.mem p (Option.ne_none_iff_isSome.mp hold)
  rw [List.map_append, List.map_cons, List.mem_append, List.mem_cons] at hmem
  rw [List.map_append, List.mem_append]
  exact hmem.imp_right fun hmem => hmem.resolve_left hpe

/-- The loop of `ei_unbind`, by induction on the rest of the list. -/
theorem unbindLoop (found : Binding → Bool) : (l₂ l₁ : List (Ptr × Binding)) → (s : AppState) →
    (fuel : ℕ) → TracksBindings s (l₁ ++ l₂) → l₂.length ≤ fuel →
    ∃ s', GuiLibrary.unbindLoop found fuel s (l₁.map Prod.fst).getLast?
        (l₂.map Prod.fst).head? = some s' ∧
      TracksBindings s' (l₁ ++ l₂.eraseP fun e => found e.2)
  | [], l₁, s, fuel, h, _ => ⟨s, by cases fuel <;> rfl, h⟩
  | e :: l₂, l₁, s, fuel + 1, h, hfuel => by
      obtain ⟨b, hb, hbe, hnext⟩ := h.hasBindings.record
      simp only [GuiLibrary.unbindLoop, List.map_cons, List.head?_cons, hb, Option.bind_eq_bind,
        Option.bind_some, hbe]
      by_cases hf : found e.2
      · obtain ⟨s', hs', hl⟩ := h.unlink hb
        exact ⟨s', by rw [if_pos hf, hs'], by simpa [List.eraseP_cons, hf] using hl⟩
      · obtain ⟨s', hs', hl⟩ := unbindLoop found l₂ (l₁ ++ [e]) s fuel (by simpa using h)
          (by simpa using hfuel)
        refine ⟨s', ?_, by simpa [List.eraseP_cons, hf] using hl⟩
        rw [if_neg hf, hnext, ← hs', List.map_append, List.map_singleton, List.getLast?_concat]

theorem eiUnbind (h : TracksBindings s l) (eventtype : EventType) (widget : Option Ptr)
    (tag : Option Tag) (callback : Callback) (userParam : Option ℕ) :
    ∃ s', GuiLibrary.eiUnbind s eventtype widget tag callback userParam = some s' ∧
      TracksBindings s'
        (l.eraseP fun e => e.2.matches eventtype widget tag callback userParam) := by
  rw [GuiLibrary.eiUnbind, h.hasBindings.chain.head_eq]
  exact unbindLoop _ l [] s _ h h.hasBindings.length_le

theorem destroyEventBindedToWidget {p : Ptr} (h : TracksBindings s l)
    (hrun : GuiLibrary.destroyEventBindedToWidget s p = some s') :
    TracksBindings s' (l.filter fun e => e.2.widget ≠ some p) := by
  by_cases hadj : NoAdjacentBindings p l
  · obtain ⟨s₁, h₁, hl, -, hfrees⟩ := h.hasBindings.destroyEventBindedToWidget_frees hadj
    obtain rfl := Option.some.inj (h₁.symm.trans hrun)
    refine ⟨hl, fun q hq => ?_⟩
    have hfree := (hfrees q).not
    rw [← ne_eq, Option.ne_none_iff_isSome, not_or] at hfree
    obtain ⟨hold, hout⟩ := hfree.mp hq
    obtain ⟨e, he, rfl⟩ := List.mem_map.mp (h.mem q (Option.ne_none_iff_isSome.mp hold))
    refine List.mem_map_of_mem (List.mem_filter.mpr ⟨he, decide_eq_true fun hbound => hout ?_⟩)
    exact List.mem_map_of_mem (List.mem_filter.mpr ⟨he, decide_eq_true hbound⟩)
  · rw [h.hasBindings.destroyEventBindedToWidget_eq_none hadj] at hrun
    exact absurd hrun (by simp)

theorem eiWidgetDestroy {p : Ptr} (h : TracksBindings s l)
    (hrun : GuiLibrary.eiWidgetDestroy s p = some s') :
    TracksBindings s' (l.filter fun e => e.2.widget ≠ some p) := by
  obtain ⟨s₁, s₂, hbefore, hdestroy, hafter⟩ := eiWidgetDestroy_keepsBinds hrun
  exact ((h.of_keepsBinds hbefore).destroyEventBindedToWidget hdestroy).of_keepsBinds hafter

/-- The handlers of the library are unbound. -/
theorem foldlM_eiUnbind (bs : List (EventType × Tag × Callback)) : ∀ {s : AppState}
    {l : List (Ptr × Binding)}, TracksBindings s l →
    ∃ s', bs.foldlM (fun s b => GuiLibrary.eiUnbind s b.1 none (some b.2.1) b.2.2 none) s =
        some s' ∧
      TracksBindings s' (bs.foldl
        (fun l b => l.eraseP fun e => e.2.matches b.1 none (some b.2.1) b.2.2 none) l) ∧
      OnlyBinds s s' := by
  induction bs with
  | nil => exact fun {s l} h => ⟨s, rfl, h, .refl s⟩
  | cons b bs ih =>
    intro s l h
    obtain ⟨s₁, h₁, hl₁⟩ := h.eiUnbind b.1 none (some b.2.1) b.2.2 none
    obtain ⟨s', hs', hl', ho⟩ := ih hl₁
    refine ⟨s', ?_, hl', (eiUnbind_onlyBinds h₁).trans ho⟩
    rw [List.foldlM_cons, h₁, Option.bind_eq_bind, Option.bind_some, hs']

/-- **The last loop frees every record.** The state keeps the top of the list. -/
theorem freeBinds (l : List (Ptr × Binding)) : ∀ {s : AppState} (fuel : ℕ) {top : Option Ptr},
    Chain s.binds LinkedBindedEvent.next top (l.map Prod.fst) →
    (∀ p, (s.binds p).isSome → p ∈ l.map Prod.fst) → l.length ≤ fuel →
    ∃ s', GuiLibrary.freeBinds fuel s top = some s' ∧ (∀ p, s'.binds p = none) ∧
      s' = { s with binds := s'.binds } := by
  induction l with
  | nil =>
    intro s fuel top htop hmem _
    obtain rfl : top = none := htop
    refine ⟨s, by cases fuel <;> rfl, fun p => ?_, rfl⟩
    exact Option.not_isSome_iff_eq_none.mp fun hp => absurd (hmem p hp) (by simp)
  | cons e l ih =>
    intro s fuel top htop hmem hfuel
    have hnodup := htop.nodup
    obtain ⟨rfl, b, hb, hrest⟩ := htop
    rw [List.map_cons, List.nodup_cons] at hnodup
    cases fuel with
    | zero => simp at hfuel
    | succ fuel =>
      -- The record is freed after its link has been read.
      obtain ⟨s', hs', hnone, honly⟩ := ih (s := s.freeBind e.1) fuel
        (Segment.update_of_notMem hrest hnodup.1 none)
        (fun p hp => by
          have hpe : p ≠ e.1 := by
            rintro rfl
            rw [AppState.binds_freeBind_self] at hp
            exact absurd hp (by simp)
          rw [AppState.binds_freeBind_of_ne _ hpe] at hp
          exact (List.mem_cons.mp (hmem p hp)).resolve_left hpe)
        (by simpa using hfuel)
      refine ⟨s', ?_, hnone, ?_⟩
      · rw [GuiLibrary.freeBinds, hb, Option.bind_eq_bind, Option.bind_some, hs']
      · rw [honly]
        rfl

end TracksBindings

/-! ### What the operations on the list keep -/

/-- The property is about the bindings only, and each operation on the list keeps it. -/
structure BindsRule (P : AppState → Prop) : Prop where
  keeps : ∀ {s s'}, KeepsBinds s s' → P s → P s'
  append : ∀ {s s' b}, appendBind s b = some s' → P s → P s'
  unbind : ∀ {s s' eventtype widget tag callback userParam},
    eiUnbind s eventtype widget tag callback userParam = some s' → P s → P s'
  destroy : ∀ {s s' p}, destroyEventBindedToWidget s p = some s' → P s → P s'

theorem bindsRule_tracked : BindsRule Tracked where
  keeps := fun hkeep ⟨l, h⟩ => ⟨l, h.of_keepsBinds hkeep⟩
  append := fun hrun ⟨_, h⟩ => ⟨_, h.appendBind hrun⟩
  unbind := fun {s s' eventtype widget tag callback userParam} hrun ⟨l, h⟩ => by
    obtain ⟨s₁, h₁, hl⟩ := h.eiUnbind eventtype widget tag callback userParam
    obtain rfl := Option.some.inj (h₁.symm.trans hrun)
    exact ⟨_, hl⟩
  destroy := fun hrun ⟨_, h⟩ => ⟨_, h.destroyEventBindedToWidget hrun⟩

namespace BindsRule

variable {P : AppState → Prop} {s s' : AppState}

theorem of_skeleton (rule : BindsRule P) (hskel : s'.skeleton = s.skeleton) (h : P s) : P s' :=
  rule.keeps (.of_skeleton hskel) h

theorem of_sameTree (rule : BindsRule P) (htree : SameTree s s') (h : P s) : P s' :=
  rule.keeps ⟨htree.keepsBinds.1, htree.keepsBinds.2.1, htree.keepsBinds.2.2⟩ h

theorem eiBind {eventtype : EventType} {widget : Option Ptr} {tag : Option Tag}
    {callback : Callback} {userParam : Option ℕ} (rule : BindsRule P)
    (hrun : GuiLibrary.eiBind s eventtype widget tag callback userParam = some s') (h : P s) :
    P s' := by
  rw [GuiLibrary.eiBind] at hrun
  split_ifs at hrun
  · exact Option.some.inj hrun ▸ h
  · exact Option.some.inj hrun ▸ h
  · exact rule.append hrun h

theorem eiWidgetDestroy {p : Ptr} (rule : BindsRule P)
    (hrun : GuiLibrary.eiWidgetDestroy s p = some s') (h : P s) : P s' := by
  obtain ⟨s₁, s₂, hbefore, hdestroy, hafter⟩ := eiWidgetDestroy_keepsBinds hrun
  exact rule.keeps hafter (rule.destroy hdestroy (rule.keeps hbefore h))

theorem withdrawButton {isButton : Widget → Bool} {p : Ptr} (rule : BindsRule P)
    (hrun : GuiLibrary.withdrawButton isButton s p = some s') (h : P s) : P s' :=
  withdrawButton_keeps (R := fun s s' => P s → P s') (fun _ h => h)
    (fun h₁ h₂ h => h₂ (h₁ h)) (fun hmodify _ => rule.keeps (.of_modifyWidget hmodify))
    rule.eiWidgetDestroy hrun h

theorem eiToplevelConfigure {p : Ptr} {args : ToplevelArgs} (rule : BindsRule P)
    (hrun : GuiLibrary.eiToplevelConfigure s p args = some s') (h : P s) : P s' := by
  rw [eiToplevelConfigure_eq] at hrun
  obtain ⟨s₁, h₁, hrun⟩ := Option.bind_eq_some_iff.mp hrun
  refine rule.of_skeleton (skeleton_refresh hrun) ?_
  exact toplevelAssign_of_steps (R := P)
    (fun _ _ _ ht hmodify => rule.keeps (.of_modifyWidget hmodify) ht)
    (fun _ _ _ ht hmodify _ => rule.keeps (.of_modifyToplevel hmodify) ht)
    (fun _ _ _ _ ht hwithdraw _ _ => rule.withdrawButton hwithdraw ht) h h₁

theorem callback {callback : Callback} {widget : Option Ptr} {event : Event}
    {userParam : Option ℕ} {processed : Bool} (rule : BindsRule P)
    (hrun : runCallback noCallback callback s widget event userParam = some (s', processed))
    (h : P s) : P s' := by
  have hkeep : ∀ {s₁ : AppState}, s₁.tree = s.tree → KeepsBinds s s₁ := fun {s₁} ht =>
    ⟨congrArg Skeleton.binds ht, congrArg Skeleton.topEventBind ht,
      congrArg Skeleton.nextBind ht⟩
  rcases runCallback_cases hrun with hsets | ⟨-, p, t, n, resizable, s₁, -, -, -, -, hskel,
    hdestroy, -⟩
  · exact rule.keeps (hkeep hsets.tree) h
  · exact rule.eiWidgetDestroy hdestroy (rule.of_skeleton hskel h)

variable [Hardware]

theorem eiButtonConfigure {p : Ptr} {args : ButtonArgs} (rule : BindsRule P)
    (hrun : GuiLibrary.eiButtonConfigure s p args = some s') (h : P s) : P s' := by
  rw [eiButtonConfigure_eq] at hrun
  obtain ⟨s₁, h₁, hrun⟩ := Option.bind_eq_some_iff.mp hrun
  obtain ⟨w, a, label, -, -, hassigned⟩ := buttonAssign_assigned h₁
  refine rule.of_skeleton (skeleton_refresh hrun) (rule.keeps ?_ h)
  rw [hassigned.eq]
  exact ⟨rfl, rfl, rfl⟩

theorem createHiddenButton {toplevel : Ptr} {config : ButtonArgs} {setFlags : Widget → Widget}
    {place : PlaceArgs} {callback : Callback} (rule : BindsRule P)
    (hrun : GuiLibrary.createHiddenButton s toplevel config setFlags place callback = some s')
    (h : P s) : P s' := by
  simp only [GuiLibrary.createHiddenButton, eiWidgetCreateWith, Option.elim_some,
    Option.bind_eq_bind, Option.bind_eq_some_iff, Prod.exists, Option.some.injEq,
    Prod.mk.injEq] at hrun
  obtain ⟨s₁, button, ⟨s₀, h₁, _, rfl, rfl, rfl⟩, s₂, h₂, s₃, h₃, s₄, h₄, h₅⟩ := hrun
  have hs₂ := rule.eiButtonConfigure h₂ (rule.keeps (Wired.keepsBinds_insertChild h₁) h)
  have hs₃ := rule.keeps (.of_modifyWidget h₃) hs₂
  exact rule.eiBind h₅ (rule.of_skeleton (skeleton_eiPlace h₄) hs₃)

theorem eiWidgetCreate {c : WidgetClass} {parent wid : Ptr} {d : Option ℕ} (rule : BindsRule P)
    (hrun : GuiLibrary.eiWidgetCreate s c (some parent) d = some (s', wid)) (h : P s) : P s' := by
  simp only [GuiLibrary.eiWidgetCreate, eiWidgetCreateWith, Option.elim_some,
    Option.bind_eq_bind, Option.bind_eq_some_iff, Option.some.injEq, Prod.mk.injEq] at hrun
  obtain ⟨s₁, h₁, s₂, h₂, rfl, -⟩ := hrun
  have hs₁ := rule.keeps (Wired.keepsBinds_insertChild h₁) h
  cases c with
  | frame => exact Option.some.inj h₂ ▸ hs₁
  | button => exact Option.some.inj h₂ ▸ hs₁
  | toplevel =>
    simp only [setdefaultsfunc, setdefaultstoplevel, Option.bind_eq_bind,
      Option.bind_eq_some_iff] at h₂
    obtain ⟨s₃, h₃, s₄, h₄, h₅⟩ := h₂
    have hs₃ := rule.createHiddenButton h₃ hs₁
    exact rule.createHiddenButton h₅ (rule.eiBind h₄ hs₃)

variable [Raster]

theorem call {c : LibraryCall} (rule : BindsRule P) (hrun : c.run s = some s') (h : P s) :
    P s' := by
  cases c with
  | create cls parent d =>
    obtain ⟨-, wid, hcreate⟩ := LibraryCall.created hrun
    exact rule.eiWidgetCreate hcreate h
  | destroy p => exact rule.eiWidgetDestroy hrun h
  | place p args => exact rule.of_skeleton (skeleton_eiPlace hrun) h
  | unmap p => exact rule.of_skeleton (skeleton_eiGeometrymanagerUnmap hrun) h
  | frameConfigure p args => exact rule.of_skeleton (skeleton_eiFrameConfigure hrun) h
  | buttonConfigure p args => exact rule.eiButtonConfigure hrun h
  | toplevelConfigure p args => exact rule.eiToplevelConfigure hrun h
  | bind eventtype widget tag callback userParam => exact rule.eiBind hrun h
  | unbind eventtype widget tag callback userParam => exact rule.unbind hrun h
  | initialDraw => exact rule.of_sameTree (.initialDraw hrun) h
  | redraw drawfunc fuel => exact rule.of_sameTree (.redraw drawfunc.property hrun) h

/-- **What the operations on the list keep, every step of a session keeps.** -/
theorem action {a : Action} (rule : BindsRule P) (hrun : a.run s = some s') (h : P s) :
    P s' := by
  cases a with
  | library call => exact rule.call hrun h
  | callback callback widget event userParam =>
    obtain ⟨processed, hrun⟩ := Action.callback_run hrun
    exact rule.callback hrun h

end BindsRule

/-! ### The end of a session -/

section Sessions

variable [Hardware] [Raster]
variable {may : List (AppState × Action) → AppState → Action → Prop}
  {history : List (AppState × Action)} {s s' : AppState} {l : List (Ptr × Binding)} {root : Ptr}

omit [Raster] in
theorem tracked_of_eiAppCreate {size : Size} {rootSurface pickSurface : Surface}
    (h : eiAppCreate size rootSurface pickSurface = some s) : Tracked s := by
  rw [eiAppCreate_eq] at h
  have hstart : Tracked (unboundState size rootSurface pickSurface) :=
    ⟨[], ⟨rfl, by simp, fun _ _ => rfl⟩,
      fun p hp => absurd hp (by simp [unboundState, initialState])⟩
  have hfold : ∀ (bs : List (EventType × Tag × Callback)) {s₁ : AppState}, Tracked s₁ →
      bs.foldlM (fun s b => eiBind s b.1 none (some b.2.1) b.2.2 none) s₁ = some s →
      Tracked s := by
    intro bs
    induction bs with
    | nil => exact fun {s₁} hs₁ hrun => Option.some.inj hrun ▸ hs₁
    | cons b bs ih =>
      intro s₁ hs₁ hrun
      obtain ⟨s₂, h₂, hrun⟩ := Option.bind_eq_some_iff.mp hrun
      exact ih (bindsRule_tracked.eiBind h₂ hs₁) hrun
  exact hfold appBindings hstart h

/-- **In a session no record is lost.** -/
theorem Tracked.session (h : Session may history s) : Tracked s := by
  refine h.invariant (I := fun _ s => Tracked s) ?_
    fun _ _ _ _ hs _ hrun => bindsRule_tracked.action hrun hs
  rintro s ⟨size, rootSurface, pickSurface, h⟩
  exact tracked_of_eiAppCreate h

omit [Hardware] [Raster] in
/-- Without widgets, the rest of `ei_app_free` frees every record of the list. -/
theorem exists_released (hl : TracksBindings s l) (hdead : ∀ q, s.widgets q = none) :
    ∃ s', (appBindings.foldlM (fun s b => eiUnbind s b.1 none (some b.2.1) b.2.2 none)
        { s with invalidatedRects := [] }).bind (fun s => freeBinds s.nextBind s s.topEventBind) =
          some s' ∧
      Released s' ∧ s'.topEventBind = ((unboundBindings l).map Prod.fst).head? ∧
      ∀ p, s'.topEventBind = some p → p < s'.nextBind := by
  have hl₁ : TracksBindings { s with invalidatedRects := [] } l := hl.of_keepsBinds ⟨rfl, rfl, rfl⟩
  obtain ⟨s₂, h₂, hl₂, ho₂⟩ := TracksBindings.foldlM_eiUnbind appBindings hl₁
  obtain ⟨s₃, h₃, hnone, ho₃⟩ := TracksBindings.freeBinds _ (s := s₂) s₂.nextBind
    hl₂.hasBindings.chain hl₂.mem hl₂.hasBindings.length_le
  have htop : s₃.topEventBind = ((unboundBindings l).map Prod.fst).head? := by
    rw [ho₃]
    exact hl₂.hasBindings.chain.head_eq
  refine ⟨s₃, by rw [h₂, Option.bind_some, h₃], ⟨fun q => ?_, hnone, ?_⟩, htop, fun p hp => ?_⟩
  · rw [ho₃, ho₂]
    exact hdead q
  · rw [ho₃, ho₂]
  · rw [htop] at hp
    rw [ho₃]
    exact hl₂.hasBindings.lt_nextBind (List.mem_of_head? hp)

omit [Hardware] [Raster] in
/-- With the root all widgets are destroyed. -/
theorem widgets_eq_none_of_destroyed (hs : WellFormed s) (hroot : s.rootWidget = some root)
    (hd : Destroyed s s' root) (q : Ptr) : s'.widgets q = none := by
  refine Option.map_eq_none_iff.mp (show s'.nodes q = none from ?_)
  cases hq : s.nodes q with
  | none => exact hd.pruned.fresh q hq
  | some n =>
    obtain ⟨r, v, hr, -, -, hqr⟩ := hs.inSubtree_root ⟨n, hq⟩
    obtain rfl := Option.some.inj (hroot.symm.trans hr)
    exact hd.pruned.dead q hqr

omit [Hardware] [Raster] in
/-- A released state binds nothing when the top of its list is a freed record. -/
theorem appendBind_eq_none_iff (hs : Released s) (htop : ∀ p, s.topEventBind = some p →
    p < s.nextBind) (b : Binding) : appendBind s b = none ↔ s.topEventBind ≠ none := by
  cases hp : s.topEventBind with
  | none =>
    have htop₁ : (s.allocBind b).topEventBind = none := hp
    simp [appendBind, htop₁]
  | some p =>
    have htop₁ : (s.allocBind b).topEventBind = some p := hp
    have hfreed : (s.allocBind b).binds p = none := by
      rw [s.binds_allocBind_of_ne b (Nat.ne_of_lt (htop p hp)), hs.binds]
    have hwalk : lastBind (s.allocBind b).binds (s.nextBind + 1) p = none := by
      rw [lastBind, hfreed, Option.bind_eq_bind, Option.bind_none]
    have hnext : (s.allocBind b).nextBind = s.nextBind + 1 := rfl
    simp [appendBind, htop₁, hnext, hwalk]

/-- The root can be destroyed, if there is one: it is there, and no two neighbours of the list are
bound to it. -/
def RootDestroyable (s : AppState) (l : List (Ptr × Binding)) : Prop :=
  ∀ root, s.rootWidget = some root → s.Live root ∧ NoAdjacentBindings root l

omit [Hardware] [Raster] in
/-- **What `ei_app_free` does.** -/
theorem eiAppFree_spec (hs : WellFormed s) (hl : TracksBindings s l) :
    (RootDestroyable s l → ∃ s', eiAppFree s = some s' ∧ Released s' ∧
      s'.topEventBind = ((leftBindings s.rootWidget l).map Prod.fst).head? ∧
      ∀ p, s'.topEventBind = some p → p < s'.nextBind) ∧
    (¬ RootDestroyable s l → eiAppFree s = none) := by
  cases hroot : s.rootWidget with
  | none =>
    refine ⟨fun _ => ?_, fun h => absurd (fun r hr => ?_) h⟩
    · have hdead : ∀ q, s.widgets q = none := by
        intro q
        refine Option.eq_none_iff_forall_ne_some.mpr fun w hw => ?_
        obtain ⟨r, v, hr, -⟩ := hs.inSubtree_root (AppState.live_iff.mpr ⟨w, hw⟩)
        exact absurd (hroot.symm.trans hr) (by simp)
      rw [eiAppFree, hroot]
      exact exists_released hl hdead
    · exact absurd (hroot.symm.trans hr) (by simp)
  | some root =>
    have hiff : RootDestroyable s l ↔ s.Live root ∧ NoAdjacentBindings root l :=
      ⟨fun h => h root hroot, fun h r hr => Option.some.inj (hroot.symm.trans hr) ▸ h⟩
    rw [hiff, eiAppFree, hroot, Option.elim_some]
    constructor
    · rintro ⟨hlive, hadj⟩
      obtain ⟨w, hw⟩ := AppState.live_iff.mp hlive
      obtain ⟨f, hf⟩ := hs.exists_forest hw
      obtain ⟨s₁, h₁, hd, -, -⟩ := eiWidgetDestroy_destroyed hs hl.hasBindings hw hf hadj
      rw [h₁, Option.bind_eq_bind, Option.bind_some]
      exact exists_released (hl.eiWidgetDestroy h₁) (widgets_eq_none_of_destroyed hs hroot hd)
    · intro hnot
      have hnone : eiWidgetDestroy s root = none := by
        by_cases hadj : NoAdjacentBindings root l
        · have hdead : s.widgets root = none := Option.eq_none_iff_forall_ne_some.mpr fun w hw =>
            hnot ⟨AppState.live_iff.mpr ⟨w, hw⟩, hadj⟩
          rw [eiWidgetDestroy, hdead, Option.bind_eq_bind, Option.bind_none]
        · exact eiWidgetDestroy_eq_none hl.hasBindings hadj
      rw [hnone, Option.bind_eq_bind, Option.bind_none]

/-- **`ei_app_free` at the end of a session** runs to its end exactly when the root can be
destroyed. Then nothing is left: every widget that has been created, every binding that has been
made and every rectangle is freed. -/
theorem eiAppFree_of_session (h : Session may history s) : ∃ l, HasBindings s l ∧
    ((∃ s', eiAppFree s = some s') ↔ RootDestroyable s l) ∧
    ∀ s', eiAppFree s = some s' → Released s' := by
  obtain ⟨l, hl⟩ := Tracked.session h
  obtain ⟨hfree, hnone⟩ := eiAppFree_spec (BindInvariant.session h).wellFormed hl
  refine ⟨l, hl.hasBindings, ⟨fun ⟨s', hs'⟩ => ?_, fun hroot => ?_⟩, fun s' hs' => ?_⟩
  · by_contra hroot
    rw [hnone hroot] at hs'
    exact absurd hs' (by simp)
  · obtain ⟨s', hs', -⟩ := hfree hroot
    exact ⟨s', hs'⟩
  · by_cases hroot : RootDestroyable s l
    · obtain ⟨s₁, h₁, hreleased, -⟩ := hfree hroot
      exact Option.some.inj (h₁.symm.trans hs') ▸ hreleased
    · rw [hnone hroot] at hs'
      exact absurd hs' (by simp)

/-- **The list after `ei_app_free`.** Its top is not reset, so that a further binding, as those of
an application that is created again, follows the link to a freed record, exactly when other
bindings were left than those of the root and of the library. -/
theorem appendBind_of_session (h : Session may history s) (hrun : eiAppFree s = some s')
    (b : Binding) : ∃ l, HasBindings s l ∧
      (appendBind s' b = none ↔ leftBindings s.rootWidget l ≠ []) := by
  obtain ⟨l, hl⟩ := Tracked.session h
  obtain ⟨hfree, hnone⟩ := eiAppFree_spec (BindInvariant.session h).wellFormed hl
  refine ⟨l, hl.hasBindings, ?_⟩
  by_cases hroot : RootDestroyable s l
  · obtain ⟨s₁, h₁, hreleased, htop, hlt⟩ := hfree hroot
    obtain rfl := Option.some.inj (h₁.symm.trans hrun)
    rw [appendBind_eq_none_iff hreleased hlt, htop, ne_eq, List.head?_eq_none_iff,
      List.map_eq_nil_iff]
  · rw [hnone hroot] at hrun
    exact absurd hrun (by simp)

end Sessions

section Sample

attribute [local instance] sampleHardware sampleRaster

theorem session_clickable : Session (fun _ _ _ => True) clickableHistory sampleClickable :=
  session_sampleClickable fun _ _ _ => trivial

theorem isSome_eiAppFree_sampleClickable : (eiAppFree sampleClickable).isSome := by
  with_unfolding_all rfl

/-- The application with a toplevel ends, and leaves nothing. -/
theorem eiAppFree_of_session_clickable :
    ∃ s', eiAppFree sampleClickable = some s' ∧ Released s' := by
  obtain ⟨s', hs'⟩ := Option.isSome_iff_exists.mp isSome_eiAppFree_sampleClickable
  obtain ⟨l, -, -, hreleased⟩ := eiAppFree_of_session session_clickable
  exact ⟨s', hs', hreleased s' hs'⟩

/-- The bindings of the buttons of the toplevel are left to the last loop, so that the list keeps
the address of a freed record. -/
theorem appendBind_of_session_clickable : ∃ l s', HasBindings sampleClickable l ∧
    eiAppFree sampleClickable = some s' ∧
    (appendBind s' (rootPress 1).binding = none ↔
      leftBindings sampleClickable.rootWidget l ≠ []) := by
  obtain ⟨s', hs'⟩ := Option.isSome_iff_exists.mp isSome_eiAppFree_sampleClickable
  obtain ⟨l, hl, hiff⟩ := appendBind_of_session session_clickable hs' (rootPress 1).binding
  exact ⟨l, s', hl, hs', hiff⟩

end Sample

end GuiLibrary

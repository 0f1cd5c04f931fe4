import GuiLibrary.Calls
import GuiLibrary.Reentrancy

/-!
# The wiring of the library

`ei_app_create` binds the handlers of the library before the program binds anything. The list of
bound events starts with the records that handle a press and a release of a button, at the
addresses 0 and 1. Bindings are only appended, and only those of the program and of the widgets are
deleted, so these two records keep their place, no other record calls their handlers, and the links
of the records lead to higher addresses.

## Main definitions

* `buttonDownBinding`, `buttonUpBinding`, `Callback.Animates`, `Wired`.

## Main results

* `Wired.eiBind`, `Wired.eiUnbind`, `Wired.eiWidgetDestroy`, `Wired.call`.
* `wired_of_eiAppCreate`.
-/

namespace GuiLibrary

open Cells

/-- The binding of `ei_handle_button_down`. -/
def buttonDownBinding : Binding := appBinding (.mouseButtondown, tagButton, .eiHandleButtonDown)

/-- The binding of `ei_handle_button_up`. -/
def buttonUpBinding : Binding := appBinding (.mouseButtonup, tagAll, .eiHandleButtonUp)

/-- The callback is one of the two handlers that begin and end a press. -/
def Callback.Animates (c : Callback) : Prop := c = .eiHandleButtonDown ∨ c = .eiHandleButtonUp

/-- The records of the library are in their places. -/
structure Wired (s : AppState) : Prop where
  top : s.topEventBind = some 0
  down : s.binds 0 = some ⟨buttonDownBinding, some 1⟩
  up : ∃ next, s.binds 1 = some ⟨buttonUpBinding, next⟩
  ascend : ∀ p b q, s.binds p = some b → b.next = some q → p < q ∧ q < s.nextBind
  others : ∀ p b, s.binds p = some b → 1 < p → ¬ b.callback.Animates
  fresh : ∀ p, s.nextBind ≤ p → s.binds p = none

namespace Wired

variable {s s' : AppState}

/-- What leaves the bindings alone keeps the wiring. -/
theorem of_keepsBinds (h : Wired s) (hkeep : KeepsBinds s s') : Wired s' := by
  obtain ⟨hbinds, htop, hnext⟩ := hkeep
  constructor
  · rw [htop, h.top]
  · rw [hbinds, h.down]
  · rw [hbinds]
    exact h.up
  · rw [hbinds, hnext]
    exact h.ascend
  · rw [hbinds]
    exact h.others
  · rw [hbinds, hnext]
    exact h.fresh

theorem of_skeleton (h : Wired s) (hskel : s'.skeleton = s.skeleton) : Wired s' :=
  h.of_keepsBinds (.of_skeleton hskel)

theorem of_sameTree (h : Wired s) (htree : SameTree s s') : Wired s' :=
  h.of_keepsBinds ⟨htree.keepsBinds.1, htree.keepsBinds.2.1, htree.keepsBinds.2.2⟩

theorem lt_nextBind (h : Wired s) {p : Ptr} {b : LinkedBindedEvent} (hb : s.binds p = some b) :
    p < s.nextBind := by
  by_contra hle
  rw [h.fresh p (Nat.not_lt.mp hle)] at hb
  exact absurd hb (by simp)

/-! ### Binding -/

/-- The walk to the last record ends at a record without a link, below a bound of the links. -/
theorem lastBind_spec {binds : Ptr → Option LinkedBindedEvent} {n : Ptr}
    (hlinks : ∀ p b q, p < n → binds p = some b → b.next = some q → q < n) (fuel : ℕ) :
    ∀ {p r : Ptr}, p < n → lastBind binds fuel p = some r →
      r < n ∧ ∃ b, binds r = some b ∧ b.next = none := by
  induction fuel with
  | zero => intro p r _ h; simp [lastBind] at h
  | succ fuel ih =>
    intro p r hp h
    obtain ⟨b, hb, h⟩ := Option.bind_eq_some_iff.mp h
    cases hnext : b.next with
    | none =>
      rw [hnext] at h
      obtain rfl := Option.some.inj h
      exact ⟨hp, b, hb, hnext⟩
    | some q =>
      rw [hnext] at h
      exact ih (hlinks p b q hp hb hnext) h

/-- A binding of another callback is appended behind the records of the library. -/
theorem appendBind {b : Binding} (h : Wired s) (hb : ¬ b.callback.Animates)
    (hrun : GuiLibrary.appendBind s b = some s') : Wired s' := by
  obtain ⟨next, hup⟩ := h.up
  have hone : 1 < s.nextBind := h.lt_nextBind hup
  have hold : ∀ p, p < s.nextBind → (s.allocBind b).binds p = s.binds p := fun p hp =>
    s.binds_allocBind_of_ne b (Nat.ne_of_lt hp)
  have hnew := s.binds_allocBind_self b
  have htop : (s.allocBind b).topEventBind = some 0 := h.top
  simp only [GuiLibrary.appendBind, htop, Option.bind_eq_bind, Option.bind_eq_some_iff,
    Option.some.injEq] at hrun
  obtain ⟨last, hlast, c, hc, rfl⟩ := hrun
  have hzero : 0 < s.nextBind := Nat.lt_trans Nat.zero_lt_one hone
  obtain ⟨hlt, c', hc', hnone⟩ := lastBind_spec (n := s.nextBind)
    (fun p b q hp hb hq => (h.ascend p b q (hold p hp ▸ hb) hq).2) _ hzero hlast
  obtain rfl := Option.some.inj (hc.symm.trans hc')
  rw [hold last hlt] at hc
  have hne : last ≠ 0 := by
    rintro rfl
    rw [Option.some.inj (hc.symm.trans h.down)] at hnone
    simp at hnone
  -- The last record gets a link to the new one; the others are as before.
  have hself := (s.allocBind b).binds_setBind_self last { c with next := some s.nextBind }
  have hother := fun p (hp : p ≠ last) =>
    (s.allocBind b).binds_setBind_of_ne { c with next := some s.nextBind } hp
  refine ⟨htop, ?_, ?_, fun p d q hp hq => ?_, fun p d hp hlt' => ?_, fun p hp => ?_⟩
  · rw [hother 0 hne.symm, hold 0 hzero, h.down]
  · by_cases hlast₁ : last = 1
    · subst hlast₁
      obtain rfl := Option.some.inj (hc.symm.trans hup)
      exact ⟨_, hself⟩
    · exact ⟨next, by rw [hother 1 (Ne.symm hlast₁), hold 1 hone, hup]⟩
  · by_cases hpl : p = last
    · subst hpl
      obtain rfl := Option.some.inj (hself.symm.trans hp)
      obtain rfl := Option.some.inj hq
      exact ⟨hlt, Nat.lt_succ_self _⟩
    · rw [hother p hpl] at hp
      by_cases hpn : p = s.nextBind
      · subst hpn
        obtain rfl := Option.some.inj (hnew.symm.trans hp)
        exact absurd hq (by simp)
      · rw [s.binds_allocBind_of_ne b hpn] at hp
        exact (h.ascend p d q hp hq).imp_right Nat.lt_succ_of_lt
  · by_cases hpl : p = last
    · subst hpl
      obtain rfl := Option.some.inj (hself.symm.trans hp)
      exact h.others p c hc hlt'
    · rw [hother p hpl] at hp
      by_cases hpn : p = s.nextBind
      · subst hpn
        obtain rfl := Option.some.inj (hnew.symm.trans hp)
        exact hb
      · rw [s.binds_allocBind_of_ne b hpn] at hp
        exact h.others p d hp hlt'
  · have hle : s.nextBind ≤ p := Nat.le_of_succ_le hp
    rw [hother p (Nat.ne_of_gt (Nat.lt_of_lt_of_le hlt hle))]
    exact (s.binds_allocBind_of_ne b (Nat.ne_of_gt hp)).trans (h.fresh p hle)

theorem eiBind {eventtype : EventType} {widget : Option Ptr} {tag : Option Tag}
    {callback : Callback} {userParam : Option ℕ} (h : Wired s) (hb : ¬ callback.Animates)
    (hrun : GuiLibrary.eiBind s eventtype widget tag callback userParam = some s') : Wired s' := by
  rw [GuiLibrary.eiBind] at hrun
  split_ifs at hrun
  · exact Option.some.inj hrun ▸ h
  · exact Option.some.inj hrun ▸ h
  · exact h.appendBind hb hrun

/-! ### Deleting bindings -/

/-- The previous record of a loop that has come to the record `curr`: none at the start of the list,
else a record that leads to `curr`, unless it has just been freed. -/
structure Behind (s : AppState) (last : Option Ptr) (curr : Option Ptr) : Prop where
  start : last = none → curr = s.topEventBind
  link : ∀ p b, last = some p → s.binds p = some b → b.next = curr

/-- A record of another binding is cut out. -/
theorem unlinkBind {last : Option Ptr} {curr : Ptr} {b : LinkedBindedEvent} (h : Wired s)
    (hb : s.binds curr = some b) (hcurr : 1 < curr) (hbehind : Behind s last (some curr))
    (hrun : GuiLibrary.unlinkBind s last curr b.next = some s') :
    Wired s' ∧ s'.binds curr = none := by
  cases last with
  | none =>
    -- The top of the list is the first record of the library.
    have htop := (hbehind.start rfl).trans h.top
    exact absurd hcurr (by simp [Option.some.inj htop])
  | some l =>
    obtain ⟨c, hc, hrun⟩ := Option.bind_eq_some_iff.mp hrun
    obtain rfl := Option.some.inj hrun
    have hnext := hbehind.link l c rfl hc
    have hlc : l < curr := (h.ascend l c curr hc hnext).1
    have hzero : l ≠ 0 := by
      rintro rfl
      obtain rfl := Option.some.inj (h.down.symm.trans hc)
      exact absurd hcurr (by simp [← Option.some.inj hnext])
    have hfreed := (s.setBind l { c with next := b.next }).binds_freeBind_self curr
    have hother := fun p (hp : p ≠ curr) =>
      (s.setBind l { c with next := b.next }).binds_freeBind_of_ne hp
    have hself := s.binds_setBind_self l { c with next := b.next }
    have hold := fun p (hp : p ≠ l) => s.binds_setBind_of_ne { c with next := b.next } hp
    obtain ⟨next, hup⟩ := h.up
    refine ⟨⟨h.top, ?_, ?_, fun p d q hp hq => ?_, fun p d hp hlt => ?_, fun p hp => ?_⟩, hfreed⟩
    · rw [hother 0 (Nat.ne_of_lt (Nat.lt_trans Nat.zero_lt_one hcurr)), hold 0 hzero.symm, h.down]
    · rw [hother 1 (Nat.ne_of_lt hcurr)]
      by_cases hl : l = 1
      · subst hl
        obtain rfl := Option.some.inj (hc.symm.trans hup)
        exact ⟨_, hself⟩
      · exact ⟨next, by rw [hold 1 (Ne.symm hl), hup]⟩
    · have hpc : p ≠ curr := by
        rintro rfl
        exact absurd (hfreed.symm.trans hp) (by simp)
      rw [hother p hpc] at hp
      by_cases hpl : p = l
      · subst hpl
        obtain rfl := Option.some.inj (hself.symm.trans hp)
        have hbq := h.ascend curr b q hb hq
        exact ⟨Nat.lt_trans hlc hbq.1, hbq.2⟩
      · exact h.ascend p d q (hold p hpl ▸ hp) hq
    · have hpc : p ≠ curr := by
        rintro rfl
        exact absurd (hfreed.symm.trans hp) (by simp)
      rw [hother p hpc] at hp
      by_cases hpl : p = l
      · subst hpl
        obtain rfl := Option.some.inj (hself.symm.trans hp)
        exact h.others p c hc hlt
      · exact h.others p d (hold p hpl ▸ hp) hlt
    · have hlt : ∀ k, k < s.nextBind → p ≠ k := fun k hk => Nat.ne_of_gt (Nat.lt_of_lt_of_le hk hp)
      rw [hother p (hlt curr (h.lt_nextBind hb)), hold p (hlt l (h.lt_nextBind hc))]
      exact h.fresh p hp

/-- A record that is found is none of the two of the library. -/
theorem one_lt (found : Binding → Bool) {p : Ptr} {b : LinkedBindedEvent} (h : Wired s)
    (hb : s.binds p = some b) (hdown : found buttonDownBinding = false)
    (hup : found buttonUpBinding = false) (hfound : found b.toBinding = true) : 1 < p := by
  obtain ⟨next, hone⟩ := h.up
  by_contra hle
  rcases Nat.le_one_iff_eq_zero_or_eq_one.mp (Nat.not_lt.mp hle) with rfl | rfl
  · rw [Option.some.inj (hb.symm.trans h.down), hdown] at hfound
    exact absurd hfound (by simp)
  · rw [Option.some.inj (hb.symm.trans hone), hup] at hfound
    exact absurd hfound (by simp)

/-- The loop of `ei_unbind`, by induction on its steps. -/
theorem unbindLoop {found : Binding → Bool} (hdown : found buttonDownBinding = false)
    (hup : found buttonUpBinding = false) (fuel : ℕ) : ∀ {s s' : AppState}
    {last curr : Option Ptr}, Wired s → Behind s last curr →
      GuiLibrary.unbindLoop found fuel s last curr = some s' → Wired s' := by
  induction fuel with
  | zero =>
    intro s s' last curr h _ hrun
    cases curr with
    | none => exact Option.some.inj hrun ▸ h
    | some p => simp [GuiLibrary.unbindLoop] at hrun
  | succ fuel ih =>
    intro s s' last curr h hbehind hrun
    cases curr with
    | none => exact Option.some.inj hrun ▸ h
    | some p =>
      obtain ⟨b, hb, hrun⟩ := Option.bind_eq_some_iff.mp hrun
      split_ifs at hrun with hfound
      · exact (h.unlinkBind hb (h.one_lt _ hb hdown hup hfound) hbehind hrun).1
      · refine ih h ⟨fun hnone => absurd hnone (by simp), fun q c hq hc => ?_⟩ hrun
        obtain rfl := Option.some.inj hq
        rw [Option.some.inj (hc.symm.trans hb)]

theorem behind_top (s : AppState) : Behind s none s.topEventBind :=
  ⟨fun _ => rfl, fun _ _ hnone => absurd hnone (by simp)⟩

/-- A program unbinds its own callbacks. -/
theorem eiUnbind {eventtype : EventType} {widget : Option Ptr} {tag : Option Tag} {id : ℕ}
    {userParam : Option ℕ} (h : Wired s)
    (hrun : GuiLibrary.eiUnbind s eventtype widget tag (.user id) userParam = some s') :
    Wired s' :=
  unbindLoop (by simp [Binding.matches, buttonDownBinding, appBinding])
    (by simp [Binding.matches, buttonUpBinding, appBinding]) _ h (behind_top s) hrun

/-- The loop of `destroy_event_binded_to_widget`, by induction on its steps. -/
theorem destroyEventLoop {widget : Ptr} (fuel : ℕ) : ∀ {s s' : AppState}
    {last curr : Option Ptr}, Wired s → Behind s last curr →
      GuiLibrary.destroyEventLoop widget fuel s last curr = some s' → Wired s' := by
  induction fuel with
  | zero =>
    intro s s' last curr h _ hrun
    cases curr with
    | none => exact Option.some.inj hrun ▸ h
    | some p => simp [GuiLibrary.destroyEventLoop] at hrun
  | succ fuel ih =>
    intro s s' last curr h hbehind hrun
    cases curr with
    | none => exact Option.some.inj hrun ▸ h
    | some p =>
      simp only [GuiLibrary.destroyEventLoop, Option.bind_eq_bind, Option.bind_eq_some_iff] at hrun
      obtain ⟨b, hb, s₁, h₁, hrun⟩ := hrun
      split_ifs at h₁ with hwidget
      · -- The loop goes on from the freed record.
        obtain ⟨hs₁, hfreed⟩ := h.unlinkBind hb (h.one_lt (fun b => b.widget = some widget) hb
          (by simp [buttonDownBinding, appBinding]) (by simp [buttonUpBinding, appBinding])
          (by simpa using hwidget)) hbehind h₁
        refine ih hs₁ ⟨fun hnone => absurd hnone (by simp), fun q c hq hc => ?_⟩ hrun
        obtain rfl := Option.some.inj hq
        exact absurd (hfreed.symm.trans hc) (by simp)
      · obtain rfl := Option.some.inj h₁
        refine ih h ⟨fun hnone => absurd hnone (by simp), fun q c hq hc => ?_⟩ hrun
        obtain rfl := Option.some.inj hq
        rw [Option.some.inj (hc.symm.trans hb)]

theorem destroyEventBindedToWidget {widget : Ptr} (h : Wired s)
    (hrun : GuiLibrary.destroyEventBindedToWidget s widget = some s') : Wired s' :=
  destroyEventLoop _ h (behind_top s) hrun

/-! ### Widgets -/

theorem eiWidgetDestroy {p : Ptr} (h : Wired s) (hrun : GuiLibrary.eiWidgetDestroy s p = some s') :
    Wired s' := by
  obtain ⟨s₁, s₂, hbefore, hdestroy, hafter⟩ := eiWidgetDestroy_keepsBinds hrun
  exact ((h.of_keepsBinds hbefore).destroyEventBindedToWidget hdestroy).of_keepsBinds hafter

theorem withdrawButton {isButton : Widget → Bool} {p : Ptr} (h : Wired s)
    (hrun : GuiLibrary.withdrawButton isButton s p = some s') : Wired s' :=
  withdrawButton_keeps (R := fun s s' => Wired s → Wired s') (fun _ h => h)
    (fun h₁ h₂ h => h₂ (h₁ h)) (fun hmodify _ h => h.of_keepsBinds (.of_modifyWidget hmodify))
    (fun hdestroy h => h.eiWidgetDestroy hdestroy) hrun h

theorem eiToplevelConfigure {p : Ptr} {args : ToplevelArgs} (h : Wired s)
    (hrun : GuiLibrary.eiToplevelConfigure s p args = some s') : Wired s' := by
  rw [eiToplevelConfigure_eq] at hrun
  obtain ⟨s₁, h₁, hrun⟩ := Option.bind_eq_some_iff.mp hrun
  refine of_skeleton ?_ (skeleton_refresh hrun)
  exact toplevelAssign_of_steps (R := Wired)
    (fun _ _ _ ht hmodify => ht.of_keepsBinds (.of_modifyWidget hmodify))
    (fun _ _ _ ht hmodify _ => ht.of_keepsBinds (.of_modifyToplevel hmodify))
    (fun _ _ _ _ ht hwithdraw _ _ => ht.withdrawButton hwithdraw) h h₁

variable [Hardware]

theorem eiButtonConfigure {p : Ptr} {args : ButtonArgs} (h : Wired s)
    (hrun : GuiLibrary.eiButtonConfigure s p args = some s') : Wired s' := by
  rw [eiButtonConfigure_eq] at hrun
  obtain ⟨s₁, h₁, hrun⟩ := Option.bind_eq_some_iff.mp hrun
  obtain ⟨w, a, label, -, -, hassigned⟩ := buttonAssign_assigned h₁
  refine of_skeleton (h.of_keepsBinds ?_) (skeleton_refresh hrun)
  rw [hassigned.eq]
  exact ⟨rfl, rfl, rfl⟩

omit [Hardware] in
/-- Linking a new widget leaves the bindings alone. -/
theorem keepsBinds_insertChild {w : Widget} {parent wid : Ptr}
    (h : insertChild (s.allocWidget w) parent wid = some s') : KeepsBinds s s' := by
  have halloc : KeepsBinds s (s.allocWidget w) := ⟨rfl, rfl, rfl⟩
  have hmodify := fun {s s' : AppState} {p : Ptr} {f : Widget → Widget}
    (h : s.modifyWidget p f = some s') (_ : ∀ w, (f w).body = w.body) =>
      KeepsBinds.of_modifyWidget h
  exact halloc.trans (insertChild_keeps (R := KeepsBinds) .trans hmodify h)

theorem createHiddenButton {toplevel : Ptr} {config : ButtonArgs} {setFlags : Widget → Widget}
    {place : PlaceArgs} {callback : Callback} (h : Wired s) (hcallback : ¬ callback.Animates)
    (hrun : GuiLibrary.createHiddenButton s toplevel config setFlags place callback = some s') :
    Wired s' := by
  simp only [GuiLibrary.createHiddenButton, eiWidgetCreateWith, Option.elim_some,
    Option.bind_eq_bind, Option.bind_eq_some_iff, Prod.exists, Option.some.injEq,
    Prod.mk.injEq] at hrun
  obtain ⟨s₁, button, ⟨s₀, h₁, _, rfl, rfl, rfl⟩, s₂, h₂, s₃, h₃, s₄, h₄, h₅⟩ := hrun
  have hs₂ := (h.of_keepsBinds (keepsBinds_insertChild h₁)).eiButtonConfigure h₂
  exact ((hs₂.of_keepsBinds (.of_modifyWidget h₃)).of_skeleton (skeleton_eiPlace h₄)).eiBind
    hcallback h₅

theorem eiWidgetCreate {c : WidgetClass} {parent wid : Ptr} {d : Option ℕ} (h : Wired s)
    (hrun : GuiLibrary.eiWidgetCreate s c (some parent) d = some (s', wid)) : Wired s' := by
  simp only [GuiLibrary.eiWidgetCreate, eiWidgetCreateWith, Option.elim_some,
    Option.bind_eq_bind, Option.bind_eq_some_iff, Option.some.injEq, Prod.mk.injEq] at hrun
  obtain ⟨s₁, h₁, s₂, h₂, rfl, -⟩ := hrun
  have hs₁ := h.of_keepsBinds (keepsBinds_insertChild h₁)
  cases c with
  | frame => exact Option.some.inj h₂ ▸ hs₁
  | button => exact Option.some.inj h₂ ▸ hs₁
  | toplevel =>
    simp only [setdefaultsfunc, setdefaultstoplevel, Option.bind_eq_bind,
      Option.bind_eq_some_iff] at h₂
    obtain ⟨s₃, h₃, s₄, h₄, h₅⟩ := h₂
    have hs₃ := hs₁.createHiddenButton (by simp [Callback.Animates]) h₃
    have hs₄ := hs₃.eiBind (by simp [Callback.Animates]) h₄
    exact hs₄.createHiddenButton (by simp [Callback.Animates]) h₅

/-- **Every call of a program keeps the wiring.** -/
theorem call [Raster] {c : LibraryCall} (h : Wired s) (hrun : c.run s = some s') : Wired s' := by
  cases c with
  | create cls parent d =>
    obtain ⟨-, wid, hcreate⟩ := LibraryCall.created hrun
    exact h.eiWidgetCreate hcreate
  | destroy p => exact h.eiWidgetDestroy hrun
  | place p args => exact h.of_skeleton (skeleton_eiPlace hrun)
  | unmap p => exact h.of_skeleton (skeleton_eiGeometrymanagerUnmap hrun)
  | frameConfigure p args => exact h.of_skeleton (skeleton_eiFrameConfigure hrun)
  | buttonConfigure p args => exact h.eiButtonConfigure hrun
  | toplevelConfigure p args => exact h.eiToplevelConfigure hrun
  | bind eventtype widget tag callback userParam =>
    exact h.eiBind (by simp [Callback.Animates]) hrun
  | unbind eventtype widget tag callback userParam => exact h.eiUnbind hrun
  | initialDraw => exact h.of_sameTree (.initialDraw hrun)
  | redraw drawfunc fuel => exact h.of_sameTree (.redraw drawfunc.property hrun)

end Wired

/-! ### The start of the application -/

/-- Binding the two handlers of the buttons first. -/
theorem wired_of_two {s s₁ s₂ : AppState} (hbinds : s.binds = fun _ => none)
    (hnext : s.nextBind = 0)
    (htop : s.topEventBind = none) (h₁ : appendBind s buttonDownBinding = some s₁)
    (h₂ : appendBind s₁ buttonUpBinding = some s₂) : Wired s₂ := by
  have hs₁ : s₁ = (s.allocBind buttonDownBinding).setTopEventBind (some 0) := by
    have htop₀ : (s.allocBind buttonDownBinding).topEventBind = none := htop
    simp only [appendBind, htop₀, Option.some.injEq] at h₁
    rw [← h₁, hnext]
  have hfirst : s₁.binds 0 = some ⟨buttonDownBinding, none⟩ := by
    rw [hs₁]
    exact hnext ▸ s.binds_allocBind_self buttonDownBinding
  have hrest : ∀ p, p ≠ 0 → s₁.binds p = none := fun p hp => by
    rw [hs₁]
    exact (s.binds_allocBind_of_ne _ (hnext ▸ hp)).trans (congrFun hbinds p)
  have hnext₁ : s₁.nextBind = 1 := by rw [hs₁]; exact congrArg (· + 1) hnext
  have htop₁ : s₁.topEventBind = some 0 := by rw [hs₁]; rfl
  -- The second record is linked behind the first one.
  have hs₂ : s₂ = (s₁.allocBind buttonUpBinding).setBind 0 ⟨buttonDownBinding, some 1⟩ := by
    have hzero : (s₁.allocBind buttonUpBinding).binds 0 = some ⟨buttonDownBinding, none⟩ :=
      (s₁.binds_allocBind_of_ne _ (by simp [hnext₁])).trans hfirst
    have htop₂ : (s₁.allocBind buttonUpBinding).topEventBind = some 0 := htop₁
    have hfuel : (s₁.allocBind buttonUpBinding).nextBind = 2 := congrArg (· + 1) hnext₁
    have hlast : lastBind (s₁.allocBind buttonUpBinding).binds
        (s₁.allocBind buttonUpBinding).nextBind 0 = some 0 := by
      simp only [hfuel, lastBind, hzero, Option.bind_eq_bind, Option.bind_some]
    simp only [appendBind, htop₂, hlast, hzero, hnext₁, Option.bind_eq_bind, Option.bind_some,
      Option.some.injEq] at h₂
    exact h₂.symm
  have hbinds₂ : ∀ p, s₂.binds p = if p = 0 then some ⟨buttonDownBinding, some 1⟩
      else if p = 1 then some ⟨buttonUpBinding, none⟩ else none := fun p => by
    rw [hs₂]
    by_cases hp : p = 0
    · subst hp
      rw [if_pos rfl, AppState.binds_setBind_self]
    · rw [if_neg hp, AppState.binds_setBind_of_ne _ _ hp]
      by_cases hp₁ : p = 1
      · rw [if_pos hp₁, hp₁]
        exact hnext₁ ▸ s₁.binds_allocBind_self buttonUpBinding
      · rw [if_neg hp₁, s₁.binds_allocBind_of_ne _ (hnext₁ ▸ hp₁), hrest p hp]
  have hnext₂ : s₂.nextBind = 2 := by rw [hs₂]; exact congrArg (· + 1) hnext₁
  refine ⟨by rw [hs₂]; exact htop₁, hbinds₂ 0, ⟨none, hbinds₂ 1⟩, fun p b q hb hq => ?_,
    fun p b hb hlt => ?_, fun p hp => ?_⟩
  · rw [hbinds₂] at hb
    split_ifs at hb with hp hp₁
    · obtain rfl := Option.some.inj hb
      obtain rfl := Option.some.inj hq
      rw [hp, hnext₂]
      exact ⟨Nat.zero_lt_one, Nat.one_lt_two⟩
    · obtain rfl := Option.some.inj hb
      exact absurd hq (by simp)
  · rw [hbinds₂, if_neg (Nat.ne_of_gt (Nat.lt_trans Nat.zero_lt_one hlt)),
      if_neg (Nat.ne_of_gt hlt)] at hb
    exact absurd hb (by simp)
  · rw [hnext₂] at hp
    rw [hbinds₂, if_neg (Nat.ne_of_gt (Nat.lt_of_lt_of_le Nat.zero_lt_two hp)),
      if_neg (Nat.ne_of_gt (Nat.lt_of_lt_of_le Nat.one_lt_two hp))]

/-- **The application starts wired.** -/
theorem wired_of_eiAppCreate [Hardware] {s : AppState} {size : Size}
    {rootSurface pickSurface : Surface}
    (h : eiAppCreate size rootSurface pickSurface = some s) : Wired s := by
  rw [eiAppCreate_eq] at h
  simp only [appBindings, List.foldlM_cons, List.foldlM_nil, Option.bind_eq_bind,
    Option.bind_eq_some_iff] at h
  obtain ⟨s₁, h₁, s₂, h₂, s₃, h₃, s₄, h₄, s₅, h₅, s₆, h₆, s₇, h₇, h⟩ := h
  have h₁ : appendBind (unboundState size rootSurface pickSurface) buttonDownBinding = some s₁ := h₁
  have h₂ : appendBind s₁ buttonUpBinding = some s₂ := h₂
  have hs₂ : Wired s₂ := wired_of_two rfl rfl rfl h₁ h₂
  have hs₃ := hs₂.eiBind (by simp [Callback.Animates]) h₃
  have hs₄ := hs₃.eiBind (by simp [Callback.Animates]) h₄
  have hs₅ := hs₄.eiBind (by simp [Callback.Animates]) h₅
  have hs₆ := hs₅.eiBind (by simp [Callback.Animates]) h₆
  exact Option.some.inj h ▸ hs₆.eiBind (by simp [Callback.Animates]) h₇

end GuiLibrary

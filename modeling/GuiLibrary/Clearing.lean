import GuiLibrary.Repaint
import GuiLibrary.Withdrawal

/-!
# What leaves the window

A widget that is destroyed leaves the window: its location is invalidated as it is unmapped, and the
location of the widget that `ei_widget_destroy` is called on once more before. `Clears` says this of
any part of the program that frees widgets and changes other things than the geometry; it composes,
so that it passes through the recursive destruction and the configuration of a toplevel, which may
destroy a button.

## Main definitions

* `Widget.look`, `Widget.outline`, `Clears`.

## Main results

* `eiWidgetDestroy_clears`, `toplevelAssign_clears`.
-/

namespace GuiLibrary

open Cells

/-! ### Looks and outlines -/

/-- What the drawing of a widget reads of its record. -/
def Widget.look (w : Widget) : Option Ptr × Bool × Rect × ContentRect × Attrs :=
  (w.parent, w.geomParams.isSome, w.screenLocation, w.contentRect, w.attrs)

/-- The location of a widget, and the painted rectangle of a toplevel. -/
def Widget.outline (w : Widget) : Rect × Option Rect :=
  (w.screenLocation, match w.attrs with
    | .frame _ | .button _ => none
    | .toplevel a => some a.drawRect)

namespace Widget

variable {w w' : Widget}

theorem look_of_body (h : w'.body = w.body) : w'.look = w.look :=
  show w'.body.look = w.body.look by rw [h]

theorem outline_of_look (h : w'.look = w.look) : w'.outline = w.outline := by
  simp only [look, Prod.mk.injEq] at h
  rw [outline, outline, h.2.2.1, h.2.2.2.2]

theorem extent_of_outline (h : w'.outline = w.outline) : w'.extent = w.extent := by
  have hextent : ∀ w : Widget, w.extent = w.outline.2.getD w.outline.1 := by
    intro w
    rw [extent, outline]
    cases w.attrs <;> rfl
  rw [hextent, hextent, h]

end Widget

/-- The record is freed, or keeps what `f` reads of it. -/
def FreedOrKeeps {α : Type*} (f : Widget → α) (w w' : Option Widget) : Prop :=
  w' = none ∨ w'.map f = w.map f

namespace FreedOrKeeps

variable {α : Type*} {f : Widget → α} {w w₁ w₂ : Option Widget}

theorem of_eq (h : w₁ = w) : FreedOrKeeps f w w₁ := Or.inr (by rw [h])

theorem trans (h₁ : FreedOrKeeps f w w₁) (h₂ : FreedOrKeeps f w₁ w₂) : FreedOrKeeps f w w₂ := by
  rcases h₂ with h₂ | h₂
  · exact Or.inl h₂
  · rcases h₁ with rfl | h₁
    · exact Or.inl (Option.map_eq_none_iff.mp h₂)
    · exact Or.inr (h₂.trans h₁)

theorem exists_old {v : Widget} (h : FreedOrKeeps f w (some v)) :
    ∃ u, w = some u ∧ f v = f u := by
  rcases h with h | h
  · exact absurd h (by simp)
  · rw [Option.map_some, eq_comm, Option.map_eq_some_iff] at h
    obtain ⟨u, hu, huv⟩ := h
    exact ⟨u, hu, huv.symm⟩

end FreedOrKeeps

/-! ### Clearing -/

/-- The root, when it is allocated, is the window. -/
def RootFits (window : Size) (s : AppState) : Prop :=
  ∀ r w, s.rootWidget = some r → s.widgets r = some w → w.screenLocation = Rect.ofSize window

/-- Between the two states widgets are freed, and those that were mapped have their locations
invalidated. The other widgets keep their outlines, and their looks but for the one at `p`. -/
structure Clears (window : Size) (p : Ptr) (s s' : AppState) : Prop where
  rootWidget : s'.rootWidget = s.rootWidget
  damage : DamageMonotone s s'
  outline : ∀ q, FreedOrKeeps Widget.outline (s.widgets q) (s'.widgets q)
  look : ∀ q, q ≠ p → FreedOrKeeps Widget.look (s.widgets q) (s'.widgets q)
  mapped : ∀ q w w', s.widgets q = some w → s'.widgets q = some w' → w.geomParams.isSome →
    w'.geomParams.isSome
  covered : ∀ q w, s.widgets q = some w → w.geomParams.isSome → s'.widgets q = none →
    ∀ x ∈ Rect.ofSize window, x ∈ w.screenLocation → Covered s'.invalidatedRects x

namespace Clears

variable {window : Size} {p : Ptr} {s s₁ s₂ : AppState}

theorem of_widgets (hroot : s₁.rootWidget = s.rootWidget) (hdamage : DamageMonotone s s₁)
    (hwidgets : s₁.widgets = s.widgets) : Clears window p s s₁ := by
  refine ⟨hroot, hdamage, fun q => .of_eq (congrFun hwidgets q),
    fun q _ => .of_eq (congrFun hwidgets q), fun q w w' hw hw' => ?_, fun q w hw _ hnone => ?_⟩
  · rw [hwidgets, hw] at hw'
    obtain rfl := Option.some.inj hw'
    exact id
  · rw [hwidgets, hw] at hnone
    exact absurd hnone (by simp)

theorem refl (s : AppState) : Clears window p s s := .of_widgets rfl (.refl s) rfl

theorem trans (h₁ : Clears window p s s₁) (h₂ : Clears window p s₁ s₂) : Clears window p s s₂ := by
  refine ⟨h₂.rootWidget.trans h₁.rootWidget, h₁.damage.trans h₂.damage,
    fun q => (h₁.outline q).trans (h₂.outline q),
    fun q hq => (h₁.look q hq).trans (h₂.look q hq), fun q w w₂ hw hw₂ hg => ?_,
    fun q w hw hg hnone x hx hloc => ?_⟩
  · obtain ⟨w₁, hw₁, -⟩ := (hw₂ ▸ h₂.outline q).exists_old
    exact h₂.mapped q w₁ w₂ hw₁ hw₂ (h₁.mapped q w w₁ hw hw₁ hg)
  · -- A widget that the first part leaves alone is freed by the second one.
    cases hw₁ : s₁.widgets q with
    | none => exact h₂.damage x (h₁.covered q w hw hg hw₁ x hx hloc)
    | some w₁ =>
      obtain ⟨u, hu, hout⟩ := (hw₁ ▸ h₁.outline q).exists_old
      obtain rfl := Option.some.inj (hw.symm.trans hu)
      have hloc₁ : w₁.screenLocation = w.screenLocation := congrArg Prod.fst hout
      exact h₂.covered q w₁ hw₁ (h₁.mapped q w w₁ hw hw₁ hg) hnone x hx (hloc₁ ▸ hloc)

theorem rootFits (h : Clears window p s s₁) (hs : RootFits window s) : RootFits window s₁ := by
  intro r w₁ hr hw₁
  obtain ⟨w, hw, hout⟩ := (hw₁ ▸ h.outline r).exists_old
  rw [show w₁.screenLocation = w.screenLocation from congrArg Prod.fst hout]
  exact hs r w (h.rootWidget.symm.trans hr) hw

/-- Writing the record at `p`, with the outline kept. -/
theorem setWidget {w w' : Widget} (hp : s.widgets p = some w) (hout : w'.outline = w.outline)
    (hg : w.geomParams.isSome → w'.geomParams.isSome) : Clears window p s (s.setWidget p w') := by
  have hother : ∀ q, q ≠ p → (s.setWidget p w').widgets q = s.widgets q :=
    fun q hq => s.widgets_setWidget_of_ne w' hq
  have hself : (s.setWidget p w').widgets p = some w' := s.widgets_setWidget_self p w'
  refine ⟨rfl, .of_eq rfl, fun q => ?_, fun q hq => .of_eq (hother q hq), ?_, ?_⟩
  · by_cases hq : q = p
    · subst hq
      exact Or.inr (by rw [hself, hp, Option.map_some, Option.map_some, hout])
    · exact .of_eq (hother q hq)
  · intro q v v' hv hv'
    by_cases hq : q = p
    · subst hq
      obtain rfl := Option.some.inj (hp.symm.trans hv)
      obtain rfl := Option.some.inj (hself.symm.trans hv')
      exact hg
    · rw [hother q hq, hv] at hv'
      obtain rfl := Option.some.inj hv'
      exact id
  · intro q v hv _ hnone
    by_cases hq : q = p
    · subst hq
      exact absurd (hself.symm.trans hnone) (by simp)
    · rw [hother q hq, hv] at hnone
      exact absurd hnone (by simp)

/-- Writing a record, with the look kept. -/
theorem modifyWidget {q : Ptr} {f : Widget → Widget} (h : s.modifyWidget q f = some s₁)
    (hf : ∀ w, (f w).look = w.look) : Clears window p s s₁ := by
  obtain ⟨w, hq, rfl⟩ := Option.map_eq_some_iff.mp h
  have hg : (f w).geomParams.isSome = w.geomParams.isSome := congrArg (fun l => l.2.1) (hf w)
  have hset : Clears window q s (s.setWidget q (f w)) :=
    .setWidget hq (Widget.outline_of_look (hf w)) (fun h => hg ▸ h)
  refine { hset with look := fun r hr => ?_ }
  by_cases hrq : r = q
  · subst hrq
    exact Or.inr (by rw [s.widgets_setWidget_self, hq, Option.map_some, Option.map_some, hf])
  · exact hset.look r hrq

/-- Writing attributes of the toplevel at `p` other than the painted rectangle. -/
theorem modifyToplevel {f : ToplevelAttrs → ToplevelAttrs}
    (h : GuiLibrary.modifyToplevel s p f = some s₁) (hf : ∀ a, (f a).drawRect = a.drawRect) :
    Clears window p s s₁ := by
  obtain ⟨w, hp, h⟩ := Option.bind_eq_some_iff.mp h
  split at h
  · next a ha =>
    obtain rfl := Option.some.inj h
    exact .setWidget hp (by simp only [Widget.outline, ha, hf]) id
  · simp at h
  · simp at h

end Clears

theorem RootFits.eq_of_hasWindow {window window' : Size} {s : AppState} (hs : RootFits window s)
    (h : s.HasWindow window') : window' = window := by
  obtain ⟨r, w, hr, hw, rfl⟩ := h
  rw [hs r w hr hw, Rect.ofSize]

/-! ### Destroying -/

section Destroy

variable {window : Size} {o p : Ptr} {s s' : AppState}

/-- **Releasing a widget invalidates its location**, when it is mapped. -/
theorem releaseWidget_clears (hs : RootFits window s) (h : releaseWidget s p = some s') :
    Clears window o s s' ∧ s'.widgets p = none := by
  obtain ⟨s₁, h₁, rfl⟩ := Option.map_eq_some_iff.mp h
  obtain ⟨w, hp, h₁⟩ := Option.bind_eq_some_iff.mp h₁
  -- Freed, the widget leaves the others as they are.
  have hfreed : ∀ s₁ : AppState, s₁.rootWidget = s.rootWidget → DamageMonotone s s₁ →
      (∀ q, q ≠ p → s₁.widgets q = s.widgets q) →
      (w.geomParams.isSome → ∀ x ∈ Rect.ofSize window, x ∈ w.screenLocation →
        Covered s₁.invalidatedRects x) →
      Clears window o s ((s₁.record (.release p)).freeWidget p) ∧
        ((s₁.record (.release p)).freeWidget p).widgets p = none := by
    intro s₁ hroot hdamage hother hcov
    have hself : ((s₁.record (.release p)).freeWidget p).widgets p = none :=
      Function.update_self ..
    have hrest : ∀ q, q ≠ p →
        ((s₁.record (.release p)).freeWidget p).widgets q = s.widgets q := fun q hq =>
      (Function.update_of_ne hq ..).trans (hother q hq)
    have hkeeps : ∀ {α : Type _} (f : Widget → α) q, FreedOrKeeps f (s.widgets q)
        (((s₁.record (.release p)).freeWidget p).widgets q) := fun f q => by
      by_cases hq : q = p
      · exact Or.inl (hq ▸ hself)
      · exact .of_eq (hrest q hq)
    refine ⟨⟨hroot, hdamage, hkeeps _, fun q _ => hkeeps _ q, fun q v v' hv hv' => ?_,
      fun q v hv hg hnone => ?_⟩, hself⟩
    · by_cases hq : q = p
      · subst hq
        exact absurd (hself.symm.trans hv') (by simp)
      · rw [hrest q hq, hv] at hv'
        obtain rfl := Option.some.inj hv'
        exact id
    · by_cases hq : q = p
      · subst hq
        obtain rfl := Option.some.inj (hp.symm.trans hv)
        exact hcov hg
      · rw [hrest q hq, hv] at hnone
        exact absurd hnone (by simp)
  cases hg : w.geomParams with
  | none =>
    rw [hg] at h₁
    obtain rfl := Option.some.inj h₁
    exact hfreed s rfl (.refl s) (fun _ _ => rfl) fun hsome => by simp [hg] at hsome
  | some params =>
    simp only [hg, Option.bind_eq_bind, Option.bind_eq_some_iff, Prod.exists, Option.some.injEq]
      at h₁
    obtain ⟨s₂, rect, h₂, rfl⟩ := h₁
    obtain ⟨window', hwin⟩ := hasWindow_of_eiAppInvalidateRect h₂
    have hfits : RootFits window (s.setWidget p (w.setGeomParams none)) := by
      intro r v hr hv
      by_cases hrp : r = p
      · subst hrp
        obtain rfl := Option.some.inj ((s.widgets_setWidget_self r _).symm.trans hv)
        exact hs r w hr hp
      · exact hs r v hr (by rwa [s.widgets_setWidget_of_ne _ hrp] at hv)
    obtain rfl := hfits.eq_of_hasWindow hwin
    rw [eiAppInvalidateRect_eq hwin, Option.some.injEq, Prod.mk.injEq] at h₂
    obtain ⟨rfl, -⟩ := h₂
    refine hfreed _ rfl (.addDamage s window' w.screenLocation) (fun q hq => ?_)
      fun _ x hx hloc => covered_addDamage hx hloc (s.setWidget p (w.setGeomParams none))
    rw [AppState.widgets_setWidget_of_ne _ _ hq, AppState.widgets_addDamage,
      AppState.widgets_setWidget_of_ne _ _ hq]

/-- What clears a window that fits clears it in sequence. -/
theorem clears_trans {s₁ s₂ : AppState} (h₁ : RootFits window s → Clears window o s s₁)
    (h₂ : RootFits window s₁ → Clears window o s₁ s₂) (hs : RootFits window s) :
    Clears window o s s₂ :=
  (h₁ hs).trans (h₂ ((h₁ hs).rootFits hs))

theorem clears_record (s : AppState) (e : LogEntry) (_ : RootFits window s) :
    Clears window o s (s.record e) :=
  .of_widgets rfl (.of_eq rfl) rfl

theorem callDestructor_clears (s : AppState) (w : Widget) (p : Ptr) (hs : RootFits window s) :
    Clears window o s (callDestructor s w p) :=
  callDestructor_keeps (R := fun s s' => RootFits window s → Clears window o s s')
    (fun s _ => .refl s) clears_record s w p hs

theorem destroySiblings_clears (fuel : ℕ) (s : AppState) (h : Option Ptr) (s' : AppState)
    (hrun : destroySiblings fuel s h = some s') (hs : RootFits window s) : Clears window o s s' :=
  destroySiblings_keeps (R := fun s s' => RootFits window s → Clears window o s s')
    (fun s _ => .refl s) clears_trans clears_record (fun h hs => (releaseWidget_clears hs h).1)
    fuel s h s' hrun hs

theorem invalidatedRects_of_onlyBinds (h : OnlyBinds s s') :
    s'.invalidatedRects = s.invalidatedRects := by rw [h]

/-- **Destroying a widget invalidates what leaves the window.** The location of the widget itself is
cut at the edges of the window before it is unmapped. -/
theorem eiWidgetDestroy_clears (hs : RootFits window s) (h : eiWidgetDestroy s p = some s') :
    Clears window o s s' := by
  simp only [eiWidgetDestroy, Option.bind_eq_bind, Option.bind_eq_some_iff] at h
  obtain ⟨w, hp, s₁, h₁, s₂, h₂, s₃, h₃, s₄, h₄, h₅⟩ := h
  simp only [invalidateLocation, hp, Option.bind_eq_bind, Option.bind_some,
    Option.bind_eq_some_iff, Prod.exists, Option.some.injEq] at h₁
  obtain ⟨s₀, rect, h₀, rfl⟩ := h₁
  obtain ⟨window', hwin⟩ := hasWindow_of_eiAppInvalidateRect h₀
  obtain rfl := hs.eq_of_hasWindow hwin
  rw [eiAppInvalidateRect_eq hwin, Option.some.injEq, Prod.mk.injEq] at h₀
  obtain ⟨rfl, rfl⟩ := h₀
  have honly : OnlyBinds _ s₂ := destroyEventBindedToWidget_onlyBinds h₂
  have hbinds : Clears window' p _ s₂ := .of_widgets honly.rootWidget
    (.of_eq (invalidatedRects_of_onlyBinds honly)) honly.widgets
  have hfits : RootFits window' ((s.addDamage window' w.screenLocation).setWidget p
      (w.setScreenLocation (normalizeRect w.screenLocation window'))) := by
    intro r v hr hv
    by_cases hrp : r = p
    · subst hrp
      obtain rfl := Option.some.inj ((AppState.widgets_setWidget_self _ _ _).symm.trans hv)
      rw [Widget.screenLocation_setScreenLocation, hs r w hr hp]
      exact normalizeRect_eq_self_iff.mpr (Rect.inWindow_ofSize window')
    · rw [AppState.widgets_setWidget_of_ne _ _ hrp] at hv
      exact hs r v hr hv
  have hcall := hbinds.trans (callDestructor_clears s₂ w p (hbinds.rootFits hfits))
  have hkids := hcall.trans (destroyChildren_keeps (R := fun s s' => RootFits window' s →
    Clears window' p s s') (fun s _ => .refl s) clears_trans clears_record
    (destroySiblings_clears _) h₃ (hcall.rootFits hfits))
  have hunlink := unlinkFromParent_keeps (R := Clears window' p) .refl .trans
    (fun h hf => .modifyWidget h fun w => Widget.look_of_body (hf w)) h₄
  have hlinks := hkids.trans hunlink
  obtain ⟨hrelease, hfreed⟩ := releaseWidget_clears (o := p) (hlinks.rootFits hfits) h₅
  have hall := hlinks.trans hrelease
  -- The other widgets have not changed before; the widget itself is freed.
  have hother : ∀ q, q ≠ p → ((s.addDamage window' w.screenLocation).setWidget p
      (w.setScreenLocation (normalizeRect w.screenLocation window'))).widgets q = s.widgets q :=
    fun q hq => AppState.widgets_setWidget_of_ne _ _ hq
  have hlook : ∀ q, FreedOrKeeps Widget.look (s.widgets q) (s'.widgets q) := fun q => by
    by_cases hq : q = p
    · exact Or.inl (hq ▸ hfreed)
    · exact hother q hq ▸ hall.look q hq
  have hdamage : DamageMonotone (s.addDamage window' w.screenLocation) s' := hall.damage
  refine ⟨hall.rootWidget, (DamageMonotone.addDamage s window' w.screenLocation).trans hdamage,
    fun q => ?_, fun q _ => hlook q, fun q v v' hv hv' => ?_, fun q v hv hg hnone x hx hloc => ?_⟩
  · by_cases hq : q = p
    · exact Or.inl (hq ▸ hfreed)
    · exact hother q hq ▸ hall.outline q
  · have hq : q ≠ p := fun hq => absurd ((hq ▸ hfreed).symm.trans hv') (by simp)
    exact hall.mapped q v v' ((hother q hq).trans hv) hv'
  · by_cases hq : q = p
    · subst hq
      obtain rfl := Option.some.inj (hp.symm.trans hv)
      exact hdamage x (covered_addDamage hx hloc s)
    · exact hall.covered q v ((hother q hq).trans hv) hg hnone x hx hloc

/-! ### Configuring a toplevel -/

/-- Withdrawing a button writes links and destroys the button. -/
theorem withdrawButton_clears {isButton : Widget → Bool} {t : Ptr} (hs : RootFits window s)
    (h : withdrawButton isButton s t = some s') : Clears window o s s' :=
  withdrawButton_keeps (R := fun s s' => RootFits window s → Clears window o s s')
    (fun s _ => .refl s) clears_trans
    (fun h hf _ => .modifyWidget h fun w => Widget.look_of_body (hf w))
    (fun h hs => eiWidgetDestroy_clears hs h) h hs

/-- **The assignments of `ei_toplevel_configure`** keep the painted rectangle of the toplevel, and
invalidate the buttons that they withdraw. -/
theorem toplevelAssign_clears {args : ToplevelArgs} (hs : RootFits window s)
    (h : toplevelAssign s p args = some s') : Clears window p s s' := by
  exact toplevelAssign_of_steps (R := Clears window p s)
    (fun s₁ s₂ size h₁ h₂ => h₁.trans (.modifyWidget h₂ fun _ => rfl))
    (fun s₁ s₂ f h₁ h₂ hf => h₁.trans (.modifyToplevel h₂ fun a => (hf a).1))
    (fun s₁ s₂ isButton flag h₁ h₂ _ _ => h₁.trans (withdrawButton_clears (h₁.rootFits hs) h₂))
    (.refl s) h

end Destroy

end GuiLibrary

import GuiLibrary.Cascade
import GuiLibrary.Create

/-!
# What other widgets keep

The operations on one widget leave the geometry and the attributes of most other widgets alone. The
*body* of a widget is everything but its links to children and siblings; linking a new child
changes no body, and placing or configuring a widget changes bodies in its subtree only.

## Main definitions

* `KeepsBodies`.

## Main results

* `insertChild_bodies`, `eiButtonConfigure_unmapped`.
-/

namespace GuiLibrary

open Cells

namespace Widget

variable {w w' : Widget}

theorem parent_of_body (h : w'.body = w.body) : w'.parent = w.parent :=
  show w'.body.parent = w.body.parent by rw [h]

theorem attrs_of_body (h : w'.body = w.body) : w'.attrs = w.attrs :=
  show w'.body.attrs = w.body.attrs by rw [h]

theorem geomParams_of_body (h : w'.body = w.body) : w'.geomParams = w.geomParams :=
  show w'.body.geomParams = w.body.geomParams by rw [h]

theorem screenLocation_of_body (h : w'.body = w.body) : w'.screenLocation = w.screenLocation :=
  show w'.body.screenLocation = w.body.screenLocation by rw [h]

theorem content_of_body (h : w'.body = w.body) : w'.content = w.content :=
  show w'.body.content = w.body.content by rw [h]

theorem target_of_body (h : w'.body = w.body) (K : Rect) : w'.target K = w.target K :=
  show w'.body.target K = w.body.target K by rw [h]

end Widget

/-- The widgets at the addresses `P` keep their bodies. -/
def KeepsBodies (P : Ptr → Prop) (s s' : AppState) : Prop :=
  ∀ q, P q → (s'.widgets q).map Widget.body = (s.widgets q).map Widget.body

namespace KeepsBodies

variable {P P' : Ptr → Prop} {s s₁ s₂ : AppState}

theorem refl (s : AppState) : KeepsBodies P s s := fun _ _ => rfl

theorem trans (h₁ : KeepsBodies P s s₁) (h₂ : KeepsBodies P s₁ s₂) : KeepsBodies P s s₂ :=
  fun q hq => (h₂ q hq).trans (h₁ q hq)

theorem mono (h : KeepsBodies P s s₁) (hP : ∀ q, P' q → P q) : KeepsBodies P' s s₁ :=
  fun q hq => h q (hP q hq)

theorem of_widgets (h : ∀ q, P q → s₁.widgets q = s.widgets q) : KeepsBodies P s s₁ :=
  fun q hq => congrArg _ (h q hq)

theorem setWidget {p : Ptr} (w : Widget) (hp : ¬ P p) : KeepsBodies P s (s.setWidget p w) :=
  .of_widgets fun _ hq => s.widgets_setWidget_of_ne w fun h => hp (h ▸ hq)

theorem modifyWidget {p : Ptr} {f : Widget → Widget} (h : s.modifyWidget p f = some s₁)
    (hf : ∀ w, (f w).body = w.body) : KeepsBodies P s s₁ := by
  obtain ⟨w, hw, rfl⟩ := Option.map_eq_some_iff.mp h
  intro q _
  by_cases hq : q = p
  · subst hq
    rw [AppState.widgets_setWidget_self, hw, Option.map_some, Option.map_some, hf]
  · rw [s.widgets_setWidget_of_ne _ hq]

/-- The old widget of a widget with the same body. -/
theorem exists_old (h : KeepsBodies P s s₁) {q : Ptr} {w : Widget} (hq : P q)
    (hw : s₁.widgets q = some w) : ∃ v, s.widgets q = some v ∧ w.body = v.body := by
  have := h q hq
  rw [hw, Option.map_some, eq_comm, Option.map_eq_some_iff] at this
  obtain ⟨v, hv, hb⟩ := this
  exact ⟨v, hv, hb.symm⟩

end KeepsBodies

/-! ### Linking a child -/

/-- **Linking a new child changes no body.** -/
theorem insertChild_bodies {P : Ptr → Prop} {s s' : AppState} {parent wid : Ptr}
    (h : insertChild s parent wid = some s') : KeepsBodies P s s' :=
  insertChild_keeps (R := KeepsBodies P) .trans .modifyWidget h

/-! ### Placing and configuring -/

section Place

variable {s s' : AppState} {p : Ptr} {w : Widget}

/-- A widget of a well-formed hierarchy may change but for its links. -/
theorem WellFormed.setWidget (hs : WellFormed s) {w' : Widget} (hp : s.widgets p = some w)
    (h : w'.node.links = w.node.links) : WellFormed (s.setWidget p w') := by
  refine hs.of_links (fun q => ?_) rfl rfl
  rw [AppState.nodes_setWidget]
  by_cases hq : q = p
  · subst hq
    rw [Function.update_self, AppState.nodes_of_widgets hp, Option.map_some, Option.map_some, h]
  · rw [Function.update_of_ne hq]

/-- Configuring a button that is not mapped only writes the button. -/
theorem eiButtonConfigure_unmapped [Hardware] {args : ButtonArgs} (hp : s.widgets p = some w)
    (hg : w.geomParams = none) (h : eiButtonConfigure s p args = some s') :
    ∃ w', s' = s.setWidget p w' := by
  simp only [eiButtonConfigure, hp, Option.bind_eq_bind, Option.bind_some] at h
  split at h
  · obtain ⟨label, -, h⟩ := Option.bind_eq_some_iff.mp h
    rw [refresh, AppState.widgets_setWidget_self] at h
    simp only [Widget.reconfigure, hg, Option.isSome_none, Option.bind_eq_bind,
      Option.bind_some] at h
    exact ⟨_, (Option.some.inj h).symm⟩
  · simp at h
  · simp at h

end Place

end GuiLibrary

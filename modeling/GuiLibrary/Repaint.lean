import GuiLibrary.Drawing
import GuiLibrary.Locations

/-!
# Damage and painting

What a widget shows of itself is its painted extent: the location of a frame or of a button, the
painted rectangle of a toplevel. When an operation moves, recolours or removes a widget, the
pixels of the window in its old and new extent must be invalidated where their painting changes.
The placer asks for the old location and for a rectangle of the class: the new location of a frame,
the content area of a button, the painted rectangle of a toplevel; the configure functions ask for
the new location as well, unmapping and destroying for the old one.

## Main definitions

* `Widget.extent`, `painting`, `Repaints`, `DamageComplete`.
* `DamageMonotone`: no invalidated pixel is forgotten.

## Main results

* `covered_foldl_linkRect`, `covered_addDamage`.
* `runplacer_covers`: what a run of the placer covers.
* `Widget.extent_settled`, `Widget.extent_subset`: what of the extents that is.
-/

namespace GuiLibrary

open Cells

/-! ### Extents and paintings -/

/-- The painted extent of a widget. -/
def Widget.extent (w : Widget) : Rect :=
  match w.attrs with
  | .frame _ | .button _ => w.screenLocation
  | .toplevel a => a.drawRect

/-- The widget is mapped, and the point belongs to its painted extent. -/
def InExtentOf (w : Option Widget) (x : Point) : Prop :=
  ∃ v, w = some v ∧ v.geomParams.isSome ∧ x ∈ v.extent

section Painting

variable [Hardware] [Raster] [TextRendering]

/-- What drawing the widget inside the window makes of a pixel of the root surface. A widget that is
not allocated or not mapped is not drawn. -/
def painting (s : AppState) (q : Ptr) (buffer : ℤ → BitVec 32) (x : Point) : BitVec 32 :=
  let surface := { s.rootSurface with buffer := buffer }
  match (s.widgets q).bind fun w =>
    if w.geomParams.isSome then drawing s q w (Rect.ofSize surface.size) else none with
  | some d => (runPrimitives d.surface surface).pixel x
  | none => surface.pixel x

/-- The painting of the pixel changes, whatever the surface contained. -/
def Repaints (s s' : AppState) (q : Ptr) (x : Point) : Prop :=
  ∃ buffer, painting s q buffer x ≠ painting s' q buffer x

/-- Every pixel of the window in the painted extent of the widget, before or after, whose painting
changes is invalidated. -/
def DamageComplete (window : Size) (s s' : AppState) (q : Ptr) : Prop :=
  ∀ x ∈ Rect.ofSize window, InExtentOf (s.widgets q) x ∨ InExtentOf (s'.widgets q) x →
    Repaints s s' q x → Covered s'.invalidatedRects x

end Painting

/-! ### Rectangles that stay -/

/-- The pixels that were invalidated still are. -/
def DamageMonotone (s s' : AppState) : Prop :=
  ∀ x, Covered s.invalidatedRects x → Covered s'.invalidatedRects x

namespace DamageMonotone

variable {s s₁ s₂ : AppState}

theorem refl (s : AppState) : DamageMonotone s s := fun _ h => h

theorem trans (h₁ : DamageMonotone s s₁) (h₂ : DamageMonotone s₁ s₂) : DamageMonotone s s₂ :=
  fun x h => h₂ x (h₁ x h)

theorem of_eq (h : s₁.invalidatedRects = s.invalidatedRects) : DamageMonotone s s₁ := fun x hx => by
  rwa [h]

theorem addDamage (s : AppState) (window : Size) (rect : Rect) :
    DamageMonotone s (s.addDamage window rect) :=
  fun _ h => h.linkRect_of_covered _ _

end DamageMonotone

section Fold

variable {window : Size} {x : Point}

theorem covered_foldl_of_covered (rects : List Rect) : ∀ {l : List Rect}, Covered l x →
    Covered (rects.foldl (fun l rect => linkRect l (normalizeRect rect window)) l) x := by
  induction rects with
  | nil => exact id
  | cons rect rects ih => exact fun h => ih (h.linkRect_of_covered _ _)

/-- Every pixel of the window in a requested rectangle is invalidated. -/
theorem covered_foldl_linkRect (hx : x ∈ Rect.ofSize window) {r : Rect} (hr : x ∈ r)
    (rects : List Rect) : ∀ {l : List Rect}, r ∈ rects →
      Covered (rects.foldl (fun l rect => linkRect l (normalizeRect rect window)) l) x := by
  induction rects with
  | nil => exact fun h => absurd h List.not_mem_nil
  | cons rect rects ih =>
    intro l h
    rcases List.mem_cons.mp h with rfl | h
    · exact covered_foldl_of_covered rects
        (Covered.linkRect_of_mem (mem_normalizeRect.mpr ⟨hr, hx⟩) l)
    · exact ih h

theorem covered_addDamage (hx : x ∈ Rect.ofSize window) {rect : Rect} (hr : x ∈ rect)
    (s : AppState) : Covered (s.addDamage window rect).invalidatedRects x :=
  Covered.linkRect_of_mem (mem_normalizeRect.mpr ⟨hr, hx⟩) _

end Fold

/-! ### The placer -/

/-- Every widget of a forest that settles is unchanged, or has moved, and then its old location and
the rectangle of its class are requested. -/
theorem Settled.requested {window : Size} {m m' : Ptr → Option Widget} {K : Rect} {f : Forest Ptr}
    (h : Settled window m m' K f) : ∀ q ∈ f.nodes, m' q = m q ∨ ∃ w rect, m q = some w ∧
      m' q = some (w.settled window rect) ∧ extendRect w.screenLocation ∈ requests m K f ∧
        (w.moved rect).damage ∈ requests m K f := by
  induction h with
  | nil => simp
  | @stay K p w kids rest hw ht hp hkids hrest ih =>
    intro q hq
    have hreq : requests m K (.cons p kids rest) = requests m K rest := by
      simp only [requests, hw, ht, if_true, List.nil_append]
    rw [hreq]
    simp only [Forest.nodes_cons, List.mem_cons, List.mem_append] at hq
    rcases hq with rfl | hq | hq
    · exact Or.inl (hp.trans hw.symm)
    · exact Or.inl (hkids q hq)
    · exact ih q hq
  | @move K p w kids rest hw ht hp hkids hrest ihk ihr =>
    intro q hq
    have hreq : requests m K (.cons p kids rest) = (extendRect w.screenLocation ::
        requests m (w.moved (w.target K)).content kids ++ [(w.moved (w.target K)).damage]) ++
          requests m K rest := by
      simp only [requests, hw, ht, if_false]
    rw [hreq]
    simp only [Forest.nodes_cons, List.mem_cons, List.mem_append] at hq
    rcases hq with rfl | hq | hq
    · exact Or.inr ⟨w, _, hw, hp, by simp, by simp⟩
    · refine (ihk q hq).imp_right ?_
      rintro ⟨v, rect, hv, hv', hold, hnew⟩
      exact ⟨v, rect, hv, hv', by simp [hold], by simp [hnew]⟩
    · refine (ihr q hq).imp_right ?_
      rintro ⟨v, rect, hv, hv', hold, hnew⟩
      exact ⟨v, rect, hv, hv', by simp [hold], by simp [hnew]⟩

section Placer

variable {window : Size} {s s' : AppState} {p q : Ptr}

/-- **What a run of the placer covers**, for each widget that it comes to or that lies below. -/
theorem runplacer_covers (hs : WellFormed s) (hwin : s.HasWindow window)
    (h : runplacer s p = some s') (hq : s.InSubtree q p) :
    s'.widgets q = s.widgets q ∨ ∃ w rect, s.widgets q = some w ∧
      s'.widgets q = some (w.settled window rect) ∧
      ∀ x ∈ Rect.ofSize window, x ∈ extendRect w.screenLocation ∨ x ∈ (w.moved rect).damage →
        Covered s'.invalidatedRects x := by
  obtain ⟨w, hp⟩ : ∃ w, s.widgets p = some w := by
    obtain ⟨w, hp, -⟩ := Option.bind_eq_some_iff.mp h
    exact ⟨w, hp⟩
  cases hg : w.geomParams with
  | none =>
    simp only [runplacer, runplacerWith, hp, hg, Option.bind_eq_bind, Option.bind_some] at h
    exact Or.inl (by rw [Option.some.inj h])
  | some params =>
    obtain ⟨o, pw, -, -, -, ho, hpo, -⟩ := runplacer_of_eq_some hs hp (by rw [hg]; rfl) h
    obtain ⟨f, hf⟩ := hs.exists_forest hp
    obtain ⟨m', hrun, hset, -⟩ := runplacer_settles hs hwin hp ho hpo hf
    obtain rfl := Option.some.inj (hrun.symm.trans h)
    have hmem : q ∈ (Forest.cons p f .nil).nodes := by
      rw [Forest.nodes_cons, Forest.nodes_nil, List.append_nil, List.mem_cons]
      exact hq.imp_right (hf.mem_nodes_iff hs.linked (AppState.nodes_of_widgets hp) q).mpr
    refine (hset.requested q hmem).imp_right ?_
    rintro ⟨v, rect, hv, hv', hold, hnew⟩
    refine ⟨v, rect, hv, hv', fun x hx hr => ?_⟩
    rcases hr with hr | hr
    · exact covered_foldl_linkRect hx hr _ hold
    · exact covered_foldl_linkRect hx hr _ hnew

theorem runplacer_monotone (hs : WellFormed s) (hwin : s.HasWindow window)
    (h : runplacer s p = some s') : DamageMonotone s s' := by
  obtain ⟨w, -, ⟨-, rfl⟩ | ⟨o, pw, m', rects, -, -, rfl, -⟩⟩ := rerun_of_runplacer hs hwin h
  · exact .refl s'
  · exact fun x hx => covered_foldl_of_covered rects hx

/-- Widgets outside of the subtree are left alone. -/
theorem widgets_runplacer_of_outside (hs : WellFormed s) (hwin : s.HasWindow window)
    (h : runplacer s p = some s') (hq : ¬ s.InSubtree q p) : s'.widgets q = s.widgets q := by
  obtain ⟨w, -, ⟨-, rfl⟩ | ⟨o, pw, m', rects, -, -, rfl, hrelaid⟩⟩ := rerun_of_runplacer hs hwin h
  · rfl
  · exact hrelaid.outside q hq

end Placer

/-! ### The extents of a moved widget -/

namespace Widget

variable {window : Size} {w : Widget} {rect : Rect} {x : Point}

/-- The new extent of a moved widget lies in the rectangle of its class, the border of a button
apart. -/
theorem extent_settled (h : x ∈ (w.settled window rect).extent) :
    x ∈ (w.moved rect).damage ∨ ∃ a, (w.settled window rect).attrs = .button a ∧
      x ∈ (w.settled window rect).screenLocation ∧ x ∉ (w.settled window rect).content := by
  obtain ⟨_, _, _, _, _, _, _, _, _, loc, rectOf, attrs⟩ := w
  cases attrs with
  | frame a =>
    left
    simp only [settled, moved, notified, setScreenLocation, writeDamage, damage] at h ⊢
    split_ifs at h ⊢ <;> exact (mem_normalizeRect.mp h).1
  | button a =>
    by_cases hb : a.borderWidth = 0
    · left
      simp only [settled, moved, notified, setScreenLocation, writeDamage, damage, hb, ne_eq,
        not_true_eq_false, if_false, content, setContent] at h ⊢
      exact (mem_normalizeRect.mp h).1
    · simp only [settled, moved, notified, setScreenLocation, writeDamage, damage, hb, ne_eq,
        not_false_eq_true, if_true, content, setContent] at h ⊢
      by_cases hin : x ∈ insetRect rect a.borderWidth
      · exact Or.inl hin
      · exact Or.inr ⟨a, rfl, h, fun hc => hin (mem_normalizeRect.mp hc).1⟩
  | toplevel a => exact Or.inl (extendRect_mem h)

/-- What a notification writes back is a part of the rectangle of the class. -/
theorem mem_damage_of_settled (h : x ∈ (w.settled window rect).damage) :
    x ∈ (w.moved rect).damage := by
  obtain ⟨_, _, _, _, _, _, _, _, _, loc, rectOf, attrs⟩ := w
  cases attrs with
  | frame a =>
    simp only [settled, moved, notified, setScreenLocation, writeDamage, damage] at h ⊢
    split_ifs at h ⊢ <;> exact (mem_normalizeRect.mp h).1
  | button a =>
    by_cases hb : a.borderWidth = 0 <;>
    · simp only [settled, moved, notified, setScreenLocation, writeDamage, damage, hb, ne_eq,
        not_true_eq_false, not_false_eq_true, if_false, if_true, content, setContent] at h ⊢
      exact (mem_normalizeRect.mp h).1
  | toplevel a => exact h

/-- The old extent lies in the old location, that of a toplevel apart. -/
theorem extent_subset (h : x ∈ w.extent) :
    x ∈ w.screenLocation ∨ ∃ a, w.attrs = .toplevel a ∧ x ∈ a.drawRect := by
  rw [extent] at h
  split at h
  · exact Or.inl h
  · exact Or.inl h
  · next a ha => exact Or.inr ⟨a, ha, h⟩

end Widget

end GuiLibrary

import GuiLibrary.Creation

/-!
# No damage is lost

Between two redraws the list of invalidated rectangles only changes by calls of
`ei_app_invalidate_rect`. Whatever rectangles they are given, and whatever else happens to the
state in between, the list covers every pixel of the window that was requested, and no pixel
outside the window.

A rectangle that is cut away whole keeps a negative side, and is added to the list all the same
unless it merges with the last rectangle.

## Main definitions

* `Invalidates`.
* `Rect.Touches`, `Rect.Genuine`, `Accepts`.

## Main results

* `invalidates_covered`.
* `genuine_iff`: when every rectangle of the list is a part of the window.
-/

namespace GuiLibrary

/-- The rectangles that were requested since the list was empty, and a state after these calls. The
rest of the state may change between the calls, the window apart. -/
inductive Invalidates (window : Size) : List Rect → AppState → Prop
  | empty {s : AppState} (hwin : s.HasWindow window) (hs : s.invalidatedRects = []) :
      Invalidates window [] s
  | call {requested : List Rect} {s s' : AppState} {rect rect' : Rect}
      (h : Invalidates window requested s) (hs : eiAppInvalidateRect s rect = some (s', rect')) :
      Invalidates window (requested ++ [rect]) s'
  | other {requested : List Rect} {s s' : AppState} (h : Invalidates window requested s)
      (hwin : s'.HasWindow window) (hs : s'.invalidatedRects = s.invalidatedRects) :
      Invalidates window requested s'

namespace Invalidates

variable {window : Size} {requested : List Rect} {s : AppState}

theorem hasWindow (h : Invalidates window requested s) : s.HasWindow window := by
  induction h with
  | empty hwin _ => exact hwin
  | call _ hs ih =>
    rw [eiAppInvalidateRect_eq ih, Option.some.injEq, Prod.mk.injEq] at hs
    obtain ⟨rfl, -⟩ := hs
    exact ih
  | other _ hwin _ _ => exact hwin

/-- One call adds the part of its rectangle that lies in the window. -/
theorem rects_of_call (h : Invalidates window requested s) {s' : AppState} {rect rect' : Rect}
    (hs : eiAppInvalidateRect s rect = some (s', rect')) :
    s'.invalidatedRects = linkRect s.invalidatedRects (normalizeRect rect window) := by
  rw [eiAppInvalidateRect_eq h.hasWindow, Option.some.injEq, Prod.mk.injEq] at hs
  rw [← hs.1]
  rfl

theorem covered (h : Invalidates window requested s) {p : Point} (hp : p ∈ Rect.ofSize window)
    (hr : ∃ r ∈ requested, p ∈ r) : Covered s.invalidatedRects p := by
  induction h with
  | empty _ _ => simp at hr
  | @call requested s s' rect rect' h hs ih =>
    rw [h.rects_of_call hs]
    obtain ⟨r, hr, hpr⟩ := hr
    rcases List.mem_append.mp hr with hr | hr
    · exact Covered.linkRect_of_covered _ _ (ih ⟨r, hr, hpr⟩)
    · obtain rfl := List.mem_singleton.mp hr
      exact Covered.linkRect_of_mem (mem_normalizeRect.mpr ⟨hpr, hp⟩) _
  | other _ _ hs ih =>
    rw [hs]
    exact ih hr

theorem inWindow (h : Invalidates window requested s) :
    ∀ r ∈ s.invalidatedRects, r.InWindow window := by
  induction h with
  | empty _ hs => simp [hs]
  | @call requested s s' rect rect' h hs ih =>
    rw [h.rects_of_call hs]
    exact inWindow_linkRect (normalizeRect_inWindow rect window) _ ih
  | other _ _ hs ih =>
    rw [hs]
    exact ih

end Invalidates

/-- **No damage is lost, and none is invented.** After any calls of `ei_app_invalidate_rect` since
the list was empty, every requested pixel of the window lies in a rectangle of the list, every
rectangle of the list only has pixels of the window, and a further call completes. -/
theorem invalidates_covered {window : Size} {requested : List Rect} {s : AppState}
    (h : Invalidates window requested s) :
    (∀ p ∈ Rect.ofSize window, (∃ r ∈ requested, p ∈ r) → Covered s.invalidatedRects p) ∧
      (∀ r ∈ s.invalidatedRects, ∀ p ∈ r, p ∈ Rect.ofSize window) ∧
      ∀ rect, (eiAppInvalidateRect s rect).isSome := by
  refine ⟨fun p hp hr => h.covered hp hr, fun r hr p hp => (h.inWindow r hr).mem_ofSize hp,
    fun rect => ?_⟩
  rw [eiAppInvalidateRect_eq h.hasWindow, Option.isSome_some]

attribute [local instance] sampleHardware in
/-- Two rectangles, one of them across the corner of the window and one outside of it. -/
theorem invalidates_covered_corner :
    let s := ((sampleApp ⟨640, 480⟩).addDamage ⟨640, 480⟩ ⟨⟨-10, -10⟩, ⟨30, 30⟩⟩).addDamage
      ⟨640, 480⟩ ⟨⟨700, 20⟩, ⟨40, 40⟩⟩
    (∀ p ∈ Rect.ofSize ⟨640, 480⟩,
      (∃ r ∈ ([⟨⟨-10, -10⟩, ⟨30, 30⟩⟩, ⟨⟨700, 20⟩, ⟨40, 40⟩⟩] : List Rect), p ∈ r) →
        Covered s.invalidatedRects p) ∧
      (∀ r ∈ s.invalidatedRects, ∀ p ∈ r, p ∈ Rect.ofSize ⟨640, 480⟩) ∧
      ∀ rect, (eiAppInvalidateRect s rect).isSome := by
  have hwin := (sampleApp_started ⟨640, 480⟩).hasWindow
  have h₀ : Invalidates ⟨640, 480⟩ [] (sampleApp ⟨640, 480⟩) :=
    .empty hwin (sampleApp_started ⟨640, 480⟩).invalidatedRects
  have h₁ := h₀.call (eiAppInvalidateRect_eq hwin ⟨⟨-10, -10⟩, ⟨30, 30⟩⟩)
  exact invalidates_covered (h₁.call (eiAppInvalidateRect_eq h₁.hasWindow _))

/-! ### Parts of the window -/

/-- The rectangle meets the window or touches one of its edges. -/
def Rect.Touches (r : Rect) (window : Size) : Prop :=
  (r.topLeft.x ≤ window.width ∧ 0 ≤ r.topLeft.x + r.size.width) ∧
    r.topLeft.y ≤ window.height ∧ 0 ≤ r.topLeft.y + r.size.height

/-- A rectangle inside the window whose size is not negative. -/
structure Rect.Genuine (r : Rect) (window : Size) : Prop where
  inWindow : r.InWindow window
  width : 0 ≤ r.size.width
  height : 0 ≤ r.size.height

/-- A rectangle that touches the window, or that merges with the last one of the list. -/
def Accepts (window : Size) (rects : List Rect) (r : Rect) : Prop :=
  r.Touches window ∨ ∃ last, rects.getLast? = some last ∧ nearLast last (normalizeRect r window)

section Genuine

variable {window : Size}

theorem normalizeRect_genuine_iff (hw : 0 ≤ window.width) (hh : 0 ≤ window.height) {r : Rect}
    (hrw : 0 ≤ r.size.width) (hrh : 0 ≤ r.size.height) :
    (normalizeRect r window).Genuine window ↔ r.Touches window := by
  have hsize : 0 ≤ (normalizeRect r window).size.width ∧
      0 ≤ (normalizeRect r window).size.height ↔ r.Touches window := by
    simp only [normalizeRect, Rect.Touches]
    split_ifs <;> omega
  rw [← hsize]
  exact ⟨fun h => ⟨h.width, h.height⟩, fun h => ⟨normalizeRect_inWindow r window, h.1, h.2⟩⟩

/-- Merging never shrinks the last rectangle. -/
theorem genuine_mergeLast {last rect : Rect} (hl : last.Genuine window)
    (hr : rect.InWindow window) : (mergeLast last rect).Genuine window := by
  obtain ⟨hin, hw, hh⟩ := hl
  refine ⟨inWindow_mergeLast hin hr, ?_, ?_⟩ <;>
  · simp only [mergeLast]
    omega

/-- **One more rectangle.** -/
theorem genuine_linkRect_iff (hw : 0 ≤ window.width) (hh : 0 ≤ window.height) {r : Rect}
    (hrw : 0 ≤ r.size.width) (hrh : 0 ≤ r.size.height) : (rects : List Rect) →
    (∀ x ∈ rects, x.Genuine window) →
    ((∀ x ∈ linkRect rects (normalizeRect r window), x.Genuine window) ↔ Accepts window rects r)
  | [], _ => by
      rw [linkRect, List.forall_mem_singleton, normalizeRect_genuine_iff hw hh hrw hrh, Accepts]
      simp
  | [last], h => by
      have hlast := h last (List.mem_singleton_self last)
      rw [linkRect, Accepts]
      split_ifs with hnear
      · rw [List.forall_mem_singleton]
        exact iff_of_true (genuine_mergeLast hlast (normalizeRect_inWindow r window))
          (Or.inr ⟨last, rfl, hnear⟩)
      · rw [List.forall_mem_cons, List.forall_mem_singleton,
          normalizeRect_genuine_iff hw hh hrw hrh, and_iff_right hlast]
        simp [hnear]
  | current :: next :: rects, h => by
      have hnext := genuine_linkRect_iff hw hh hrw hrh (next :: rects)
        fun x hx => h x (List.mem_cons_of_mem _ hx)
      rw [linkRect, List.forall_mem_cons, and_iff_right (h current List.mem_cons_self), hnext,
        Accepts, Accepts, List.getLast?_cons_cons]

/-- **Every rectangle of the list is a part of the window exactly when each rectangle, as it is
invalidated, touches the window or merges with the last one of the list.** -/
theorem genuine_iff (hw : 0 ≤ window.width) (hh : 0 ≤ window.height) {requested : List Rect}
    (hsizes : ∀ r ∈ requested, 0 ≤ r.size.width ∧ 0 ≤ r.size.height) :
    (∀ done s, done <+: requested → Invalidates window done s →
      ∀ r ∈ s.invalidatedRects, r.Genuine window) ↔
    ∀ done r s, done ++ [r] <+: requested → Invalidates window done s →
      Accepts window s.invalidatedRects r := by
  have hsize : ∀ {done r}, done ++ [r] <+: requested → 0 ≤ r.size.width ∧ 0 ≤ r.size.height :=
    fun hpre => hsizes _ (hpre.subset (List.mem_append_right _ (List.mem_singleton_self _)))
  have hshorter : ∀ {done r}, done ++ [r] <+: requested → done <+: requested :=
    fun hpre => (List.prefix_append _ _).trans hpre
  constructor
  · intro h done r s hpre hs
    obtain ⟨hrw, hrh⟩ := hsize hpre
    have hcall := hs.call (eiAppInvalidateRect_eq hs.hasWindow r)
    exact (genuine_linkRect_iff hw hh hrw hrh s.invalidatedRects
      (h done s (hshorter hpre) hs)).mp (h _ _ hpre hcall)
  · intro h done s hpre hs
    induction hs with
    | empty _ hs => simp [hs]
    | @call done s s' rect rect' hs hcall ih =>
      obtain ⟨hrw, hrh⟩ := hsize hpre
      rw [hs.rects_of_call hcall]
      exact (genuine_linkRect_iff hw hh hrw hrh s.invalidatedRects (ih (hshorter hpre))).mpr
        (h done rect s hpre hs)
    | other _ _ hs ih =>
      rw [hs]
      exact ih hpre

end Genuine

/-- A rectangle, a second one across an edge of the window, which is linked, and a third one outside
the window, which merges with the second one. -/
def edgeRects : List Rect :=
  [⟨⟨400, 300⟩, ⟨20, 20⟩⟩, ⟨⟨-10, 20⟩, ⟨30, 30⟩⟩, ⟨⟨-8, 30⟩, ⟨5, 5⟩⟩]

theorem genuine_iff_edge :
    (∀ done s, done <+: edgeRects → Invalidates ⟨640, 480⟩ done s →
      ∀ r ∈ s.invalidatedRects, r.Genuine ⟨640, 480⟩) ↔
    ∀ done r s, done ++ [r] <+: edgeRects → Invalidates ⟨640, 480⟩ done s →
      Accepts ⟨640, 480⟩ s.invalidatedRects r :=
  genuine_iff (by decide) (by decide) (by simp [edgeRects])

attribute [local instance] sampleHardware in
/-- A rectangle to the left of the window, whose width becomes negative. -/
theorem not_genuine_left :
    ∃ s, Invalidates ⟨640, 480⟩ [⟨⟨-20, 5⟩, ⟨10, 10⟩⟩] s ∧
      s.invalidatedRects = [⟨⟨0, 5⟩, ⟨-10, 10⟩⟩] ∧
      ¬ ∀ r ∈ s.invalidatedRects, r.Genuine ⟨640, 480⟩ := by
  have hwin := (sampleApp_started ⟨640, 480⟩).hasWindow
  have hempty := (sampleApp_started ⟨640, 480⟩).invalidatedRects
  have h₀ : Invalidates ⟨640, 480⟩ [] (sampleApp ⟨640, 480⟩) := .empty hwin hempty
  have hcall := eiAppInvalidateRect_eq hwin ⟨⟨-20, 5⟩, ⟨10, 10⟩⟩
  have hrects := h₀.rects_of_call hcall
  rw [hempty, show linkRect [] (normalizeRect ⟨⟨-20, 5⟩, ⟨10, 10⟩⟩ ⟨640, 480⟩) =
    [⟨⟨0, 5⟩, ⟨-10, 10⟩⟩] by decide] at hrects
  refine ⟨_, h₀.call hcall, hrects, fun h => ?_⟩
  rw [hrects, List.forall_mem_singleton] at h
  exact absurd h.width (by decide)

end GuiLibrary

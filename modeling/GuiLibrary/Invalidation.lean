import GuiLibrary.Widget

/-!
# The invalidated rectangles

`ei_app_invalidate_rect` cuts a rectangle at the edges of the window, through the pointer it is
given, and adds a copy to the list of the rectangles to redraw: merged with the last one when the
two are near, at the end of the list otherwise. The model returns the rectangle as it is after the
call; a caller that passed a pointer into a widget writes it back.

Pixels are never lost by merging (`Covered.linkRect_of_covered`, `Covered.linkRect_of_mem`), and
rectangles inside the window merge into rectangles inside the window (`inWindow_linkRect`).

## Main definitions

* `nearLast`, `mergeLast`, `linkRect`, `eiAppInvalidateRect`, `invalidateLocation`.
* `AppState.HasWindow`, `AppState.addDamage`, `Covered`.

## Main results

* `eiAppInvalidateRect_eq`: with a root widget the call completes and only changes the list.
-/

namespace GuiLibrary

/-! ### Linking a rectangle -/

/-- The test for merging a rectangle with the last one of the list. -/
def nearLast (last rect : Rect) : Prop :=
  last.topLeft.x - rect.topLeft.x < (max last.size.width rect.size.width).tdiv 2 ∧
    last.topLeft.y - rect.topLeft.y < (max last.size.height rect.size.height).tdiv 2

instance (last rect : Rect) : Decidable (nearLast last rect) := inferInstanceAs (Decidable (_ ∧ _))

/-- The "union" of the last rectangle of the list and a new one. -/
def mergeLast (last rect : Rect) : Rect :=
  let newTopleft : Point :=
    ⟨min last.topLeft.x rect.topLeft.x, min last.topLeft.y rect.topLeft.y⟩
  ⟨newTopleft,
    ⟨max (last.topLeft.x + last.size.width) (rect.topLeft.x + rect.size.width) - newTopleft.x,
      max (last.topLeft.y + last.size.height) (rect.topLeft.y + rect.size.height) - newTopleft.y⟩⟩

/-- Adds a rectangle to the list of the invalidated ones. -/
def linkRect : List Rect → Rect → List Rect
  | [], rect => [rect]
  | [last], rect => if nearLast last rect then [mergeLast last rect] else [last, rect]
  | current :: next :: rects, rect => current :: linkRect (next :: rects) rect

/-- Some rectangle of the list contains the pixel. -/
def Covered (rects : List Rect) (p : Point) : Prop := ∃ r ∈ rects, p ∈ r

theorem mem_mergeLast {last rect : Rect} {p : Point} (h : p ∈ last ∨ p ∈ rect) :
    p ∈ mergeLast last rect := by
  simp only [mergeLast, Rect.mem_iff] at *
  omega

theorem inWindow_mergeLast {last rect : Rect} {window : Size} (hl : last.InWindow window)
    (hr : rect.InWindow window) : (mergeLast last rect).InWindow window := by
  simp only [mergeLast, Rect.InWindow] at *
  omega

/-- Adding a rectangle to the list uncovers nothing. -/
theorem Covered.linkRect_of_covered {p : Point} (rect : Rect) : (rects : List Rect) →
    Covered rects p → Covered (linkRect rects rect) p
  | [], h => by simp [Covered] at h
  | [last], h => by
      obtain ⟨r, hr, hp⟩ := h
      obtain rfl := List.mem_singleton.mp hr
      rw [linkRect]
      split_ifs
      · exact ⟨_, List.mem_singleton_self _, mem_mergeLast (Or.inl hp)⟩
      · exact ⟨r, List.mem_cons_self, hp⟩
  | current :: next :: rects, ⟨r, hr, hp⟩ => by
      rw [linkRect]
      rcases List.mem_cons.mp hr with rfl | hr
      · exact ⟨r, List.mem_cons_self, hp⟩
      · obtain ⟨q, hq, hpq⟩ := linkRect_of_covered rect (next :: rects) ⟨r, hr, hp⟩
        exact ⟨q, List.mem_cons_of_mem _ hq, hpq⟩

/-- The added rectangle is covered. -/
theorem Covered.linkRect_of_mem {p : Point} {rect : Rect} (hp : p ∈ rect) : (rects : List Rect) →
    Covered (linkRect rects rect) p
  | [] => ⟨rect, List.mem_singleton_self rect, hp⟩
  | [last] => by
      rw [linkRect]
      split_ifs
      · exact ⟨_, List.mem_singleton_self _, mem_mergeLast (Or.inr hp)⟩
      · exact ⟨rect, List.mem_cons_of_mem _ (List.mem_singleton_self rect), hp⟩
  | current :: next :: rects => by
      obtain ⟨q, hq, hpq⟩ := linkRect_of_mem hp (next :: rects)
      exact ⟨q, List.mem_cons_of_mem _ hq, hpq⟩

/-- Rectangles inside the window merge into rectangles inside the window. -/
theorem inWindow_linkRect {window : Size} {rect : Rect} (hr : rect.InWindow window) :
    (rects : List Rect) → (∀ r ∈ rects, r.InWindow window) →
      ∀ r ∈ linkRect rects rect, r.InWindow window
  | [], _ => by simpa [linkRect] using hr
  | [last], h => by
      have hl := h last (List.mem_singleton_self last)
      rw [linkRect]
      split_ifs
      · simpa using inWindow_mergeLast hl hr
      · simpa using ⟨hl, hr⟩
  | current :: next :: rects, h => by
      rw [linkRect]
      intro r hmem
      rcases List.mem_cons.mp hmem with rfl | hmem
      · exact h r List.mem_cons_self
      · exact inWindow_linkRect hr (next :: rects)
          (fun r hr => h r (List.mem_cons_of_mem _ hr)) r hmem

/-- The list never shrinks. -/
theorem length_le_linkRect (rect : Rect) : (rects : List Rect) →
    rects.length ≤ (linkRect rects rect).length
  | [] => Nat.zero_le _
  | [last] => by
      rw [linkRect]
      split_ifs <;> simp
  | current :: next :: rects => by
      simpa [linkRect] using length_le_linkRect rect (next :: rects)

/-! ### Invalidating -/

/-- The state with one more invalidated rectangle, cut at the edges of the window. -/
def AppState.addDamage (s : AppState) (window : Size) (rect : Rect) : AppState :=
  { s with invalidatedRects := linkRect s.invalidatedRects (normalizeRect rect window) }

/-- `ei_app_invalidate_rect`. The second component is the rectangle as the call leaves it. -/
def eiAppInvalidateRect (s : AppState) (rect : Rect) : Option (AppState × Rect) := do
  let root ← s.rootWidget
  let rootWidget ← s.widgets root
  let windowSize := rootWidget.screenLocation.size
  some (s.addDamage windowSize rect, normalizeRect rect windowSize)

/-- `ei_app_invalidate_rect(&widget->screen_location)`. -/
def invalidateLocation (s : AppState) (p : Ptr) : Option AppState := do
  let w ← s.widgets p
  let (s, rect) ← eiAppInvalidateRect s w.screenLocation
  some (s.setWidget p (w.setScreenLocation rect))

namespace AppState

/-- The root widget is allocated and as large as the window. -/
def HasWindow (s : AppState) (window : Size) : Prop :=
  ∃ r w, s.rootWidget = some r ∧ s.widgets r = some w ∧ w.screenLocation.size = window

@[simp] theorem widgets_addDamage (s : AppState) (window : Size) (rect : Rect) :
    (s.addDamage window rect).widgets = s.widgets := rfl

@[simp] theorem skeleton_addDamage (s : AppState) (window : Size) (rect : Rect) :
    (s.addDamage window rect).skeleton = s.skeleton := rfl

@[simp] theorem rootWidget_addDamage (s : AppState) (window : Size) (rect : Rect) :
    (s.addDamage window rect).rootWidget = s.rootWidget := rfl

/-- The two fields of the root that the window depends on. -/
theorem HasWindow.of_map {s : AppState} {window : Size} {r : Ptr} (hr : s.rootWidget = some r)
    (h : (s.widgets r).map (fun w => w.screenLocation.size) = some window) :
    s.HasWindow window := by
  obtain ⟨w, hw, hsize⟩ := Option.map_eq_some_iff.mp h
  exact ⟨r, w, hr, hw, hsize⟩

theorem HasWindow.unique {s : AppState} {window window' : Size} (h : s.HasWindow window)
    (h' : s.HasWindow window') : window = window' := by
  obtain ⟨r, w, hr, hw, rfl⟩ := h
  obtain ⟨r', w', hr', hw', rfl⟩ := h'
  obtain rfl : r = r' := Option.some.inj (hr.symm.trans hr')
  rw [Option.some.inj (hw.symm.trans hw')]

/-- Writing another widget, or the root with its size kept, keeps the window. -/
theorem HasWindow.setWidget {s : AppState} {window : Size} (h : s.HasWindow window) {p : Ptr}
    {w : Widget} (hw : s.rootWidget = some p → w.screenLocation.size = window) :
    (s.setWidget p w).HasWindow window := by
  obtain ⟨r, v, hr, hv, rfl⟩ := h
  by_cases hp : r = p
  · subst hp
    exact ⟨r, w, hr, widgets_setWidget_self s r w, hw hr⟩
  · exact ⟨r, v, hr, (widgets_setWidget_of_ne s w hp).trans hv, rfl⟩

end AppState

/-- **With a root widget, invalidating completes and only changes the list.** -/
theorem eiAppInvalidateRect_eq {s : AppState} {window : Size} (h : s.HasWindow window)
    (rect : Rect) :
    eiAppInvalidateRect s rect = some (s.addDamage window rect, normalizeRect rect window) := by
  obtain ⟨r, w, hr, hw, rfl⟩ := h
  simp only [eiAppInvalidateRect, hr, hw, Option.bind_eq_bind, Option.bind_some]

/-- A call that completes had a root widget. -/
theorem hasWindow_of_eiAppInvalidateRect {s s' : AppState} {rect rect' : Rect}
    (h : eiAppInvalidateRect s rect = some (s', rect')) : ∃ window, s.HasWindow window := by
  simp only [eiAppInvalidateRect, Option.bind_eq_bind, Option.bind_eq_some_iff] at h
  obtain ⟨r, hr, w, hw, -⟩ := h
  exact ⟨_, r, w, hr, hw, rfl⟩

/-- Invalidating changes neither the widgets nor the skeleton. -/
theorem eiAppInvalidateRect_frame {s s' : AppState} {rect rect' : Rect}
    (h : eiAppInvalidateRect s rect = some (s', rect')) :
    s'.widgets = s.widgets ∧ s'.skeleton = s.skeleton := by
  obtain ⟨window, hwin⟩ := hasWindow_of_eiAppInvalidateRect h
  rw [eiAppInvalidateRect_eq hwin, Option.some.injEq, Prod.mk.injEq] at h
  obtain ⟨rfl, -⟩ := h
  exact ⟨rfl, rfl⟩

/-- Invalidating the location of a widget completes with a root widget, and cuts the location at
the edges of the window. -/
theorem invalidateLocation_eq {s : AppState} {window : Size} (h : s.HasWindow window) {p : Ptr}
    {w : Widget} (hp : s.widgets p = some w) :
    invalidateLocation s p = some ((s.addDamage window w.screenLocation).setWidget p
      (w.setScreenLocation (normalizeRect w.screenLocation window))) := by
  simp only [invalidateLocation, hp, eiAppInvalidateRect_eq h, Option.bind_eq_bind,
    Option.bind_some]

theorem skeleton_invalidateLocation {s s' : AppState} {p : Ptr}
    (h : invalidateLocation s p = some s') : s'.skeleton = s.skeleton := by
  simp only [invalidateLocation, Option.bind_eq_bind, Option.bind_eq_some_iff, Prod.exists,
    Option.some.injEq] at h
  obtain ⟨w, hw, s₁, r, h₁, rfl⟩ := h
  obtain ⟨hwidgets, hskel⟩ := eiAppInvalidateRect_frame h₁
  rw [AppState.skeleton_setWidget (hwidgets ▸ hw) (Widget.node_setScreenLocation w r), hskel]

end GuiLibrary

import Mathlib.Logic.Function.Basic
import Mathlib.Data.Int.Basic
import Mathlib.Order.MinMax

/-!
# Points, rectangles and their calculations

The geometric types of `ei_types.h` and the rectangle operations of `ei_calculations.c`. A
rectangle is a corner and a size; the size may be negative, and such a rectangle contains no
pixel. Machine integers are taken without overflow.

The pixels of an intersection are the common pixels (`mem_getEiRectIntersection`), also when the
result has a negative side, and normalizing a rectangle keeps exactly the pixels inside the window
(`mem_normalizeRect`).

## Main definitions

* `Point`, `Size`, `Rect`, with `p ∈ r` for the pixels of a rectangle; `Rect.InWindow`.
* `getEiRectIntersection`, `normalizeRect`, `extendRect`.

## Main results

* `mem_getEiRectIntersection`, `mem_normalizeRect`, `normalizeRect_eq_self_iff`.
-/

namespace GuiLibrary

/-- `ei_point_t`: a 2-D point with integer coordinates. -/
structure Point where
  x : ℤ
  y : ℤ
deriving DecidableEq, Repr

/-- `ei_size_t`: a 2-D size with integer dimensions. -/
structure Size where
  width : ℤ
  height : ℤ
deriving DecidableEq, Repr

/-- `ei_rect_t`: a rectangle defined by its top-left corner and its size. -/
structure Rect where
  topLeft : Point
  size : Size
deriving DecidableEq, Repr

/-- `ei_rect_zero` of `ei_utils.h`. -/
def eiRectZero : Rect := ⟨⟨0, 0⟩, ⟨0, 0⟩⟩

namespace Rect

/-- The pixels of a rectangle: the right and bottom edges are excluded. -/
instance : Membership Point Rect where
  mem r p := (r.topLeft.x ≤ p.x ∧ p.x < r.topLeft.x + r.size.width) ∧
    r.topLeft.y ≤ p.y ∧ p.y < r.topLeft.y + r.size.height

theorem mem_iff {p : Point} {r : Rect} : p ∈ r ↔
    (r.topLeft.x ≤ p.x ∧ p.x < r.topLeft.x + r.size.width) ∧
      r.topLeft.y ≤ p.y ∧ p.y < r.topLeft.y + r.size.height := Iff.rfl

instance (p : Point) (r : Rect) : Decidable (p ∈ r) := decidable_of_iff _ mem_iff.symm

/-- The area of a window of the given size. -/
def ofSize (window : Size) : Rect := ⟨⟨0, 0⟩, window⟩

/-- Every edge of the rectangle lies between the edges of the window. -/
def InWindow (r : Rect) (window : Size) : Prop :=
  (0 ≤ r.topLeft.x ∧ r.topLeft.x + r.size.width ≤ window.width) ∧
    0 ≤ r.topLeft.y ∧ r.topLeft.y + r.size.height ≤ window.height

instance (r : Rect) (window : Size) : Decidable (r.InWindow window) :=
  inferInstanceAs (Decidable (_ ∧ _))

theorem InWindow.mem_ofSize {r : Rect} {window : Size} (h : r.InWindow window) {p : Point}
    (hp : p ∈ r) : p ∈ ofSize window := by
  simp only [InWindow, mem_iff, ofSize] at *
  omega

theorem inWindow_ofSize (window : Size) : (ofSize window).InWindow window := by
  simp only [InWindow, ofSize]
  omega

end Rect

/-! ### The calculations -/

/-- `get_ei_rect_intersection`: the intersection of two rectangles, of negative size when they
are apart. -/
def getEiRectIntersection (rect1 rect2 : Rect) : Rect :=
  let x := max rect1.topLeft.x rect2.topLeft.x
  let y := max rect1.topLeft.y rect2.topLeft.y
  ⟨⟨x, y⟩,
    ⟨min (rect1.topLeft.x + rect1.size.width) (rect2.topLeft.x + rect2.size.width) - x,
      min (rect1.topLeft.y + rect1.size.height) (rect2.topLeft.y + rect2.size.height) - y⟩⟩

/-- `normalize_rect`: cuts a rectangle at the edges of the window, in place. -/
def normalizeRect (rect : Rect) (windowSize : Size) : Rect :=
  let width := rect.size.width + min 0 rect.topLeft.x
  let height := rect.size.height + min 0 rect.topLeft.y
  let x := max 0 rect.topLeft.x
  let y := max 0 rect.topLeft.y
  ⟨⟨x, y⟩,
    ⟨if x + width ≥ windowSize.width then windowSize.width - x else width,
      if y + height ≥ windowSize.height then windowSize.height - y else height⟩⟩

/-- `extend_rect`: a rectangle two pixels larger on each side. -/
def extendRect (rect : Rect) : Rect :=
  ⟨⟨rect.topLeft.x - 2, rect.topLeft.y - 2⟩, ⟨rect.size.width + 4, rect.size.height + 4⟩⟩

/-- **The pixels of an intersection are the common pixels.** -/
@[simp] theorem mem_getEiRectIntersection {p : Point} {r₁ r₂ : Rect} :
    p ∈ getEiRectIntersection r₁ r₂ ↔ p ∈ r₁ ∧ p ∈ r₂ := by
  simp only [getEiRectIntersection, Rect.mem_iff]
  omega

theorem getEiRectIntersection_comm (r₁ r₂ : Rect) :
    getEiRectIntersection r₁ r₂ = getEiRectIntersection r₂ r₁ := by
  simp only [getEiRectIntersection, max_comm r₁.topLeft.x, max_comm r₁.topLeft.y,
    min_comm (r₁.topLeft.x + _), min_comm (r₁.topLeft.y + _)]

theorem getEiRectIntersection_right_comm (r₁ r₂ r₃ : Rect) :
    getEiRectIntersection (getEiRectIntersection r₁ r₂) r₃ =
      getEiRectIntersection (getEiRectIntersection r₁ r₃) r₂ := by
  have hcancel (a b : ℤ) : a + (b - a) = b := by omega
  simp only [getEiRectIntersection, hcancel, max_right_comm _ _ r₃.topLeft.x,
    max_right_comm _ _ r₃.topLeft.y, min_right_comm _ _ (r₃.topLeft.x + r₃.size.width),
    min_right_comm _ _ (r₃.topLeft.y + r₃.size.height)]

/-- A part of a rectangle inside the window lies inside the window. -/
theorem inWindow_intersection {window : Size} {r₁ : Rect} (h : r₁.InWindow window) (r₂ : Rect) :
    (getEiRectIntersection r₁ r₂).InWindow window := by
  simp only [Rect.InWindow, getEiRectIntersection] at *
  omega

/-- **Normalizing keeps exactly the pixels of the window**, whatever the position and the sign of
the size of the rectangle. -/
@[simp] theorem mem_normalizeRect {p : Point} {r : Rect} {window : Size} :
    p ∈ normalizeRect r window ↔ p ∈ r ∧ p ∈ Rect.ofSize window := by
  simp only [normalizeRect, Rect.mem_iff, Rect.ofSize]
  split_ifs <;> omega

theorem normalizeRect_inWindow (r : Rect) (window : Size) :
    (normalizeRect r window).InWindow window := by
  simp only [normalizeRect, Rect.InWindow]
  split_ifs <;> omega

/-- Normalizing leaves a rectangle alone exactly when it lies inside the window. -/
theorem normalizeRect_eq_self_iff {r : Rect} {window : Size} :
    normalizeRect r window = r ↔ r.InWindow window := by
  refine ⟨fun h => h ▸ normalizeRect_inWindow r window, fun h => ?_⟩
  obtain ⟨⟨x, y⟩, ⟨w, h'⟩⟩ := r
  simp only [Rect.InWindow] at h
  simp only [normalizeRect, Rect.mk.injEq, Point.mk.injEq, Size.mk.injEq]
  split_ifs <;> omega

theorem extendRect_mem {p : Point} {r : Rect} (hp : p ∈ r) : p ∈ extendRect r := by
  simp only [extendRect, Rect.mem_iff] at *
  omega

end GuiLibrary

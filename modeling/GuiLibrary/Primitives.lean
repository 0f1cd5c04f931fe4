import GuiLibrary.Widget

/-!
# The primitives that widgets are drawn with

The drawing functions of the three classes paint with four primitives: `ei_draw_polygon`, `ei_fill`,
`ei_copy_surface`, and `ei_draw_text`, which copies a surface that the hardware layer has rendered.
The two loops that write pixels check no bounds: they walk over the addresses of a rectangle, line
by line, and an address outside a line of the surface lies on another line, or outside the buffer.

A drawing is the list of the primitives that are called on the root surface, and of those that are
called on the pick surface; none of their arguments depends on the pixels of these surfaces.

## Main definitions

* `eiCopySurface`, `eiDrawText`, `TextRendering`.
* `rectPtrs`: the addresses that a loop over a rectangle visits.
* `Primitive`, `Primitive.run`, `Drawing`.

## Main results

* `mem_rectPtrs`, `buffer_eiFill_of_notMem`, `buffer_eiCopySurface_of_notMem`.
* `buffer_eiCopySurface`, `buffer_runPrimitives_of_notMem`.
-/

namespace GuiLibrary

/-! ### The addresses of a rectangle -/

/-- The address of a pixel, from the pixel `(0, 0)` on. -/
def Point.index (size : Size) (p : Point) : ℤ := p.x + p.y * size.width

/-- The addresses of `m` lines of `n` pixels from `ptr` on, `skip` pixels being skipped after
each. -/
def blockPtrs (n : ℕ) (skip : ℤ) : ℕ → ℤ → List ℤ
  | 0, _ => []
  | m + 1, ptr => (List.range n).map (fun x : ℕ => ptr + x) ++ blockPtrs n skip m (ptr + n + skip)

/-- The addresses of a rectangle of a surface of this size. -/
def rectPtrs (size : Size) (rect : Rect) : List ℤ :=
  blockPtrs rect.size.width.toNat (size.width - rect.size.width) rect.size.height.toNat
    (rect.topLeft.index size)

theorem mem_blockPtrs {n : ℕ} {skip i : ℤ} : (m : ℕ) → (ptr : ℤ) → (i ∈ blockPtrs n skip m ptr ↔
    ∃ k < m, ptr + k * (n + skip) ≤ i ∧ i < ptr + k * (n + skip) + n)
  | 0, ptr => by simp [blockPtrs]
  | m + 1, ptr => by
      have hline : i ∈ (List.range n).map (fun x : ℕ => ptr + x) ↔ ptr ≤ i ∧ i < ptr + n := by
        simp only [List.mem_map, List.mem_range]
        constructor
        · rintro ⟨x, hx, rfl⟩
          omega
        · rintro ⟨h₁, h₂⟩
          exact ⟨(i - ptr).toNat, by omega, by omega⟩
      have hshift : ∀ k : ℕ, ptr + n + skip + k * (n + skip) = ptr + (k + 1 : ℕ) * (n + skip) := by
        intro k
        push_cast
        ring
      rw [blockPtrs, List.mem_append, hline, mem_blockPtrs m]
      constructor
      · rintro (h | ⟨k, hk, h⟩)
        · exact ⟨0, by omega, by simpa using h⟩
        · rw [hshift] at h
          exact ⟨k + 1, by omega, h⟩
      · rintro ⟨k, hk, h⟩
        rcases k with _ | k
        · exact Or.inl (by simpa using h)
        · exact Or.inr ⟨k, by omega, by rw [hshift]; exact h⟩

/-- **The addresses of a rectangle are those of its pixels.** -/
theorem mem_rectPtrs {size : Size} {rect : Rect} {i : ℤ} :
    i ∈ rectPtrs size rect ↔ ∃ p ∈ rect, p.index size = i := by
  simp only [rectPtrs, mem_blockPtrs, Point.index]
  constructor
  · rintro ⟨k, hk, h₁, h₂⟩
    have hw : 0 < rect.size.width := by omega
    rw [Int.toNat_of_nonneg hw.le] at h₁ h₂
    refine ⟨⟨i - (rect.topLeft.y + k) * size.width, rect.topLeft.y + k⟩, ?_, by ring⟩
    refine Rect.mem_iff.mpr ⟨⟨?_, ?_⟩, ?_, ?_⟩
    · linarith
    · linarith
    · exact Int.le_add_of_nonneg_right (Int.natCast_nonneg k)
    · exact Int.add_lt_add_left (by omega) _
  · rintro ⟨p, ⟨⟨h₁, h₂⟩, h₃, h₄⟩, rfl⟩
    have hrow : ((p.y - rect.topLeft.y).toNat : ℤ) = p.y - rect.topLeft.y := by omega
    refine ⟨(p.y - rect.topLeft.y).toNat, by omega, ?_, ?_⟩ <;>
    · rw [Int.toNat_of_nonneg (by omega : 0 ≤ rect.size.width), hrow]
      linarith

/-- The pixels of a surface have different addresses. -/
theorem index_inj {size : Size} {x y : Point} (hx : x ∈ Rect.ofSize size)
    (hy : y ∈ Rect.ofSize size) (h : x.index size = y.index size) : x = y := by
  obtain ⟨⟨hx₁, hx₂⟩, -⟩ := hx
  obtain ⟨⟨hy₁, hy₂⟩, -⟩ := hy
  simp only [Rect.ofSize, zero_add] at hx₁ hx₂ hy₁ hy₂
  simp only [Point.index] at h
  have hrow : x.y = y.y :=
    line_eq_of_between (le_refl 0) (le_refl size.width) hx₁ hx₂ (by linarith) (by linarith)
  obtain ⟨x₁, x₂⟩ := x
  obtain ⟨y₁, y₂⟩ := y
  obtain rfl : x₂ = y₂ := hrow
  simpa using h

/-- A rectangle inside the surface visits the addresses of its own pixels only. -/
theorem index_mem_rectPtrs {size : Size} {rect : Rect} {x : Point} (hx : x ∈ Rect.ofSize size)
    (hrect : ∀ y ∈ rect, y ∈ Rect.ofSize size) : x.index size ∈ rectPtrs size rect ↔ x ∈ rect := by
  rw [mem_rectPtrs]
  constructor
  · rintro ⟨y, hy, hi⟩
    exact index_inj (hrect y hy) hx hi ▸ hy
  · exact fun h => ⟨x, h, rfl⟩

/-- The loops of `ei_fill` write at these addresses, in this order. -/
theorem fillRow_eq (intColor : BitVec 32) : (n : ℕ) → (ptr : ℤ) → (buffer : ℤ → BitVec 32) →
    fillRow intColor n ptr buffer = ((List.range n).map fun x : ℕ => ptr + x).foldl
      (fun buffer i => Function.update buffer i intColor) buffer
  | 0, _, _ => rfl
  | n + 1, ptr, buffer => by
      rw [fillRow, fillRow_eq intColor n, List.range_succ_eq_map, List.map_cons, List.foldl_cons,
        List.map_map]
      have hshift : (fun x : ℕ => ptr + 1 + x) = (fun x : ℕ => ptr + x) ∘ Nat.succ := by
        funext x
        simp only [Function.comp_apply, Nat.succ_eq_add_one]
        push_cast
        ring
      rw [hshift, Nat.cast_zero, add_zero]

theorem fillRows_eq (intColor : BitVec 32) (n : ℕ) (skip : ℤ) : (m : ℕ) → (ptr : ℤ) →
    (buffer : ℤ → BitVec 32) → fillRows intColor n skip m ptr buffer =
      (blockPtrs n skip m ptr).foldl (fun buffer i => Function.update buffer i intColor) buffer
  | 0, _, _ => rfl
  | m + 1, ptr, buffer => by
      rw [fillRows, fillRows_eq intColor n skip m, fillRow_eq, blockPtrs, List.foldl_append]

/-- `ei_fill` writes the addresses of its clipper, and no others. -/
theorem buffer_eiFill (surface : Surface) (color : Color) (clipper : Rect) :
    (eiFill surface color (some clipper)).buffer = (rectPtrs surface.size clipper).foldl
      (fun buffer i => Function.update buffer i (eiMapRgba surface color)) surface.buffer :=
  fillRows_eq ..

/-! ### Copying a surface -/

/-- The mean of two channels weighted by the alpha channel of the source. The floating-point
calculation of it is exact. -/
def blend (alpha src dst : BitVec 8) : BitVec 8 :=
  BitVec.ofNat 8 ((src.toNat * alpha.toNat + dst.toNat * (256 - alpha.toNat)) / 256)

/-- The pixel that `ei_copy_surface` writes over a pixel of the destination. -/
def copyPixel (destination source : Surface) (alpha : Bool) (srcPixel dstPixel : BitVec 32) :
    BitVec 32 :=
  let srcColor := colorOf source.channels srcPixel
  if alpha then
    let dstColor := colorOf destination.channels dstPixel
    eiMapRgba destination
      ⟨blend srcColor.alpha srcColor.red dstColor.red,
        blend srcColor.alpha srcColor.green dstColor.green,
        blend srcColor.alpha srcColor.blue dstColor.blue, 255⟩
  else eiMapRgba destination srcColor

/-- The inner loop of `ei_copy_surface`. -/
def copyRow (pixel : BitVec 32 → BitVec 32 → BitVec 32) (source : ℤ → BitVec 32) :
    ℕ → ℤ → ℤ → (ℤ → BitVec 32) → ℤ → BitVec 32
  | 0, _, _, buffer => buffer
  | n + 1, srcPtr, dstPtr, buffer =>
      copyRow pixel source n (srcPtr + 1) (dstPtr + 1)
        (Function.update buffer dstPtr (pixel (source srcPtr) (buffer dstPtr)))

/-- The outer loop of `ei_copy_surface`. -/
def copyRows (pixel : BitVec 32 → BitVec 32 → BitVec 32) (source : ℤ → BitVec 32) (n : ℕ)
    (srcSkip dstSkip : ℤ) : ℕ → ℤ → ℤ → (ℤ → BitVec 32) → ℤ → BitVec 32
  | 0, _, _, buffer => buffer
  | m + 1, srcPtr, dstPtr, buffer =>
      copyRows pixel source n srcSkip dstSkip m (srcPtr + n + srcSkip) (dstPtr + n + dstSkip)
        (copyRow pixel source n srcPtr dstPtr buffer)

/-- `ei_copy_surface`: nothing is copied when the sizes differ. A missing rectangle stands for the
whole surface. -/
def eiCopySurface (destination : Surface) (dstRect : Option Rect) (source : Surface)
    (srcRect : Option Rect) (alpha : Bool) : ℤ × Surface :=
  let srcRect := srcRect.getD (Rect.ofSize source.size)
  let dstRect := dstRect.getD (Rect.ofSize destination.size)
  if dstRect.size.width ≠ srcRect.size.width ∨ dstRect.size.height ≠ srcRect.size.height then
    (1, destination)
  else
    (0, { destination with
      buffer := copyRows (copyPixel destination source alpha) source.buffer
        srcRect.size.width.toNat (source.size.width - srcRect.size.width)
        (destination.size.width - srcRect.size.width) srcRect.size.height.toNat
        (srcRect.topLeft.x + srcRect.topLeft.y * source.size.width)
        (dstRect.topLeft.x + dstRect.topLeft.y * destination.size.width) destination.buffer })

section Copy

variable {pixel : BitVec 32 → BitVec 32 → BitVec 32} {source : ℤ → BitVec 32}

theorem copyRow_apply : (n : ℕ) → (srcPtr dstPtr : ℤ) → (buffer : ℤ → BitVec 32) → (i : ℤ) →
    copyRow pixel source n srcPtr dstPtr buffer i =
      if dstPtr ≤ i ∧ i < dstPtr + n then pixel (source (srcPtr + (i - dstPtr))) (buffer i)
      else buffer i
  | 0, srcPtr, dstPtr, buffer, i => by
      rw [copyRow, if_neg (by omega)]
  | n + 1, srcPtr, dstPtr, buffer, i => by
      rw [copyRow, copyRow_apply n]
      by_cases hi : i = dstPtr
      · subst hi
        rw [if_neg (by omega), Function.update_self, if_pos (by omega), sub_self, add_zero]
      · rw [Function.update_of_ne hi]
        have hshift : srcPtr + 1 + (i - (dstPtr + 1)) = srcPtr + (i - dstPtr) := by ring
        rw [hshift]
        exact if_congr (by omega) rfl rfl

/-- A copy leaves the addresses outside of its rectangle alone. -/
theorem copyRows_of_notMem {n : ℕ} {srcSkip dstSkip i : ℤ} : (m : ℕ) → (srcPtr dstPtr : ℤ) →
    (buffer : ℤ → BitVec 32) → i ∉ blockPtrs n dstSkip m dstPtr →
    copyRows pixel source n srcSkip dstSkip m srcPtr dstPtr buffer i = buffer i
  | 0, _, _, _, _ => rfl
  | m + 1, srcPtr, dstPtr, buffer, hi => by
      rw [blockPtrs, List.mem_append, not_or] at hi
      rw [copyRows, copyRows_of_notMem m _ _ _ hi.2, copyRow_apply, if_neg]
      rintro ⟨h₁, h₂⟩
      refine hi.1 (List.mem_map.mpr ⟨(i - dstPtr).toNat, List.mem_range.mpr ?_, ?_⟩) <;> omega

/-- Two buffers that a copied pixel cannot tell apart at an address of the rectangle are equal there
after the copy. -/
theorem copyRows_congr {n : ℕ} {srcSkip dstSkip i : ℤ} : (m : ℕ) → (srcPtr dstPtr : ℤ) →
    {buffer buffer' : ℤ → BitVec 32} → i ∈ blockPtrs n dstSkip m dstPtr →
    (∀ v, pixel v (buffer i) = pixel v (buffer' i)) →
    copyRows pixel source n srcSkip dstSkip m srcPtr dstPtr buffer i =
      copyRows pixel source n srcSkip dstSkip m srcPtr dstPtr buffer' i
  | 0, _, _, _, _, hi, _ => absurd hi List.not_mem_nil
  | m + 1, srcPtr, dstPtr, buffer, buffer', hi, hbuffer => by
      rw [copyRows, copyRows]
      have hrow : ∀ b : ℤ → BitVec 32, copyRow pixel source n srcPtr dstPtr b i =
          if dstPtr ≤ i ∧ i < dstPtr + n then pixel (source (srcPtr + (i - dstPtr))) (b i)
            else b i :=
        fun b => copyRow_apply n srcPtr dstPtr b i
      by_cases hi' : i ∈ blockPtrs n dstSkip m (dstPtr + n + dstSkip)
      · refine copyRows_congr m _ _ hi' fun v => ?_
        rw [hrow, hrow]
        split_ifs
        · rw [hbuffer]
        · exact hbuffer v
      · rw [copyRows_of_notMem m _ _ _ hi', copyRows_of_notMem m _ _ _ hi', hrow, hrow]
        rw [blockPtrs, List.mem_append, or_iff_left hi', List.mem_map] at hi
        obtain ⟨x, hx, rfl⟩ := hi
        have hx := List.mem_range.mp hx
        rw [if_pos (by omega), if_pos (by omega), hbuffer]

/-- One step of the loops of `ei_copy_surface`. -/
def copyStep (pixel : BitVec 32 → BitVec 32 → BitVec 32) (source buffer : ℤ → BitVec 32)
    (ptrs : ℤ × ℤ) : ℤ → BitVec 32 :=
  Function.update buffer ptrs.2 (pixel (source ptrs.1) (buffer ptrs.2))

theorem copyRow_eq : (n : ℕ) → (srcPtr dstPtr : ℤ) → (buffer : ℤ → BitVec 32) →
    copyRow pixel source n srcPtr dstPtr buffer =
      (((List.range n).map fun x : ℕ => srcPtr + x).zip
        ((List.range n).map fun x : ℕ => dstPtr + x)).foldl (copyStep pixel source) buffer
  | 0, _, _, _ => rfl
  | n + 1, srcPtr, dstPtr, buffer => by
      have hshift : ∀ ptr : ℤ, (fun x : ℕ => ptr + x) ∘ Nat.succ = fun x : ℕ => ptr + 1 + x := by
        intro ptr
        funext x
        simp only [Function.comp_apply, Nat.succ_eq_add_one]
        push_cast
        ring
      rw [copyRow, copyRow_eq n, List.range_succ_eq_map, List.map_cons, List.map_cons,
        List.zip_cons_cons, List.foldl_cons, List.map_map, List.map_map, hshift, hshift,
        Nat.cast_zero, add_zero, add_zero, copyStep]

/-- The loops of `ei_copy_surface` read and write at these addresses, in this order. -/
theorem copyRows_eq {n : ℕ} {srcSkip dstSkip : ℤ} : (m : ℕ) → (srcPtr dstPtr : ℤ) →
    (buffer : ℤ → BitVec 32) → copyRows pixel source n srcSkip dstSkip m srcPtr dstPtr buffer =
      ((blockPtrs n srcSkip m srcPtr).zip (blockPtrs n dstSkip m dstPtr)).foldl
        (copyStep pixel source) buffer
  | 0, _, _, _ => rfl
  | m + 1, srcPtr, dstPtr, buffer => by
      rw [copyRows, copyRows_eq m, copyRow_eq, blockPtrs, blockPtrs, List.zip_append,
        List.foldl_append]
      rw [List.length_map, List.length_map]

end Copy

/-- `ei_copy_surface` reads the addresses of the one rectangle and writes those of the other. -/
theorem buffer_eiCopySurface (destination source : Surface) (alpha : Bool) {dstRect srcRect : Rect}
    (hsize : dstRect.size = srcRect.size) :
    (eiCopySurface destination (some dstRect) source (some srcRect) alpha).2.buffer =
      ((rectPtrs source.size srcRect).zip (rectPtrs destination.size dstRect)).foldl
        (copyStep (copyPixel destination source alpha) source.buffer) destination.buffer := by
  simp only [eiCopySurface, Option.getD_some, hsize, ne_eq, not_true_eq_false, or_self, if_false,
    copyRows_eq]
  rw [rectPtrs, rectPtrs, hsize]
  rfl

theorem buffer_eiFill_of_notMem (surface : Surface) (color : Color) {clipper : Rect} {i : ℤ}
    (hi : i ∉ rectPtrs surface.size clipper) :
    (eiFill surface color (some clipper)).buffer i = surface.buffer i := by
  simp only [eiFill, fillRows_apply]
  rw [if_neg]
  rwa [rectPtrs, mem_blockPtrs] at hi

theorem buffer_eiCopySurface_of_notMem (destination source : Surface) (alpha : Bool)
    {dstRect srcRect : Rect} {i : ℤ} (hi : i ∉ rectPtrs destination.size dstRect) :
    (eiCopySurface destination (some dstRect) source (some srcRect) alpha).2.buffer i =
      destination.buffer i := by
  simp only [eiCopySurface, Option.getD_some]
  split_ifs with hsize
  · rfl
  · rw [not_or, not_not, not_not] at hsize
    refine copyRows_of_notMem _ _ _ _ ?_
    rwa [← hsize.1, ← hsize.2]

/-- The copies onto two surfaces agree at an address of the rectangle where a copied pixel cannot
tell the two apart. -/
theorem buffer_eiCopySurface_congr (destination destination' source : Surface) (alpha : Bool)
    {dstRect srcRect : Rect} {i : ℤ} (hsize : destination'.size = destination.size)
    (hchannels : destination'.channels = destination.channels) (hrect : dstRect.size = srcRect.size)
    (hi : i ∈ rectPtrs destination.size dstRect)
    (hpixel : ∀ v, copyPixel destination source alpha v (destination.buffer i) =
      copyPixel destination source alpha v (destination'.buffer i)) :
    (eiCopySurface destination (some dstRect) source (some srcRect) alpha).2.buffer i =
      (eiCopySurface destination' (some dstRect) source (some srcRect) alpha).2.buffer i := by
  have hcopy : copyPixel destination' source alpha = copyPixel destination source alpha := by
    funext v v'
    simp only [copyPixel, eiMapRgba, hchannels]
  simp only [eiCopySurface, Option.getD_some, hrect, ne_eq, not_true_eq_false, or_self, if_false,
    hcopy, hsize]
  refine copyRows_congr _ _ _ ?_ hpixel
  rwa [rectPtrs, hrect] at hi

/-- A byte of a pixel that is none of the three colours. -/
theorem exists_sparePixel (channels : ChannelIndices) : ∃ v : BitVec 32, v ≠ 0 ∧
    byteAt v channels.ir = 0 ∧ byteAt v channels.ig = 0 ∧ byteAt v channels.ib = 0 := by
  obtain ⟨ir, ig, ib, ia, hr, hg, hb, -, -⟩ := channels
  obtain ⟨j, hj, hjr, hjg, hjb⟩ : ∃ j : ℤ, (0 ≤ j ∧ j ≤ 3) ∧ j ≠ ir ∧ j ≠ ig ∧ j ≠ ib := by
    by_contra! h
    have h₀ := h 0 (by omega)
    have h₁ := h 1 (by omega)
    have h₂ := h 2 (by omega)
    have h₃ := h 3 (by omega)
    omega
  have hcases : ∀ i : ℤ, 0 ≤ i ∧ i ≤ 3 → i = 0 ∨ i = 1 ∨ i = 2 ∨ i = 3 := fun i hi => by omega
  have hbyte : ∀ i : ℤ, 0 ≤ i ∧ i ≤ 3 → j ≠ i →
      byteAt ((1 : BitVec 32) <<< (8 * j).toNat) i = 0 := by
    intro i hi hji
    rcases hcases i hi with rfl | rfl | rfl | rfl <;> rcases hcases j hj with rfl | rfl | rfl | rfl
    all_goals first | exact absurd rfl hji | decide
  refine ⟨(1 : BitVec 32) <<< (8 * j).toNat, ?_, hbyte ir hr hjr, hbyte ig hg hjg, hbyte ib hb hjb⟩
  rcases hcases j hj with rfl | rfl | rfl | rfl <;> decide

/-- A copied pixel does not depend on the spare byte of the pixel that it replaces. -/
theorem copyPixel_spare (destination source : Surface) (alpha : Bool) {v : BitVec 32}
    (hr : byteAt v destination.channels.ir = 0) (hg : byteAt v destination.channels.ig = 0)
    (hb : byteAt v destination.channels.ib = 0) (srcPixel : BitVec 32) :
    copyPixel destination source alpha srcPixel v =
      copyPixel destination source alpha srcPixel 0 := by
  have hzero : ∀ i, byteAt 0 i = 0 := fun i => by simp [byteAt]
  simp only [copyPixel, colorOf, hr, hg, hb, hzero]

/-! ### Drawing -/

/-- The rendering of text by the hardware layer: `hw_text_create_surface`. -/
class TextRendering where
  hwTextCreateSurface : Text → Font → Color → Surface

/-- A call of a primitive: `ei_draw_polygon`, `ei_fill` with a clipper, or `ei_copy_surface` with
two rectangles. -/
inductive Primitive where
  | polygon (firstPoint : List Point) (color : Color) (clipper : Rect)
  | fill (color : Color) (clipper : Rect)
  | copy (dstRect : Rect) (source : Surface) (srcRect : Rect) (alpha : Bool)

/-- `ei_draw_text` with a clipper: the part of the text that lies in the clipper is copied. -/
def eiDrawText [TextRendering] (whereAt : Point) (text : Text) (font : Font) (color : Color)
    (clipper : Rect) : Primitive :=
  let txtSurface := TextRendering.hwTextCreateSurface text font color
  let dstRect := getEiRectIntersection ⟨whereAt, txtSurface.size⟩ clipper
  .copy dstRect txtSurface
    ⟨⟨max 0 (dstRect.topLeft.x - whereAt.x), max 0 (dstRect.topLeft.y - whereAt.y)⟩, dstRect.size⟩
    true

namespace Primitive

variable [Raster]

/-- The call, on a surface. -/
def run (surface : Surface) : Primitive → Surface
  | polygon firstPoint color clipper => eiDrawPolygon surface firstPoint color clipper
  | fill color clipper => eiFill surface color (some clipper)
  | copy dstRect source srcRect alpha =>
      (eiCopySurface surface (some dstRect) source (some srcRect) alpha).2

@[simp] theorem size_run (surface : Surface) (primitive : Primitive) :
    (primitive.run surface).size = surface.size := by
  cases primitive with
  | polygon firstPoint color clipper => rfl
  | fill color clipper => rfl
  | copy dstRect source srcRect alpha =>
    simp only [run, eiCopySurface]
    split_ifs <;> rfl

@[simp] theorem channels_run (surface : Surface) (primitive : Primitive) :
    (primitive.run surface).channels = surface.channels := by
  cases primitive with
  | polygon firstPoint color clipper => rfl
  | fill color clipper => rfl
  | copy dstRect source srcRect alpha =>
    simp only [run, eiCopySurface]
    split_ifs <;> rfl

/-- The rectangle that the call writes in. -/
def area : Primitive → Rect
  | polygon _ _ clipper => clipper
  | fill _ clipper => clipper
  | copy dstRect _ _ _ => dstRect

/-- **A call writes the addresses of its area only.** -/
theorem buffer_run_of_notMem (surface : Surface) (primitive : Primitive) {i : ℤ}
    (hi : i ∉ rectPtrs surface.size primitive.area) :
    (primitive.run surface).buffer i = surface.buffer i := by
  cases primitive with
  | polygon firstPoint color clipper =>
    simp only [run, eiDrawPolygon]
    rw [if_neg]
    rintro ⟨-, -, hclip, -⟩
    refine hi (mem_rectPtrs.mpr ⟨_, hclip, ?_⟩)
    rw [Point.index, Int.mul_comm]
    exact Int.emod_add_mul_ediv i _
  | fill color clipper => exact buffer_eiFill_of_notMem surface color hi
  | copy dstRect source srcRect alpha =>
      exact buffer_eiCopySurface_of_notMem surface source alpha hi

end Primitive

/-- What a drawing function calls: primitives on the root surface, and primitives on the pick
surface. -/
structure Drawing where
  surface : List Primitive
  pickSurface : List Primitive

/-- The calls, on a surface. -/
def runPrimitives [Raster] (primitives : List Primitive) (surface : Surface) : Surface :=
  primitives.foldl Primitive.run surface

section Run

variable [Raster] (primitives : List Primitive) (surface : Surface)

@[simp] theorem size_runPrimitives : (runPrimitives primitives surface).size = surface.size := by
  rw [runPrimitives]
  induction primitives generalizing surface with
  | nil => rfl
  | cons primitive primitives ih => rw [List.foldl_cons, ih, Primitive.size_run]

@[simp] theorem channels_runPrimitives :
    (runPrimitives primitives surface).channels = surface.channels := by
  rw [runPrimitives]
  induction primitives generalizing surface with
  | nil => rfl
  | cons primitive primitives ih => rw [List.foldl_cons, ih, Primitive.channels_run]

theorem buffer_runPrimitives_of_notMem {i : ℤ}
    (hi : ∀ primitive ∈ primitives, i ∉ rectPtrs surface.size primitive.area) :
    (runPrimitives primitives surface).buffer i = surface.buffer i := by
  rw [runPrimitives]
  induction primitives generalizing surface with
  | nil => rfl
  | cons primitive primitives ih =>
    rw [List.foldl_cons, ih _ fun q hq => ?_]
    · exact primitive.buffer_run_of_notMem surface (hi primitive List.mem_cons_self)
    · rw [Primitive.size_run]
      exact hi q (List.mem_cons_of_mem primitive hq)

end Run

end GuiLibrary

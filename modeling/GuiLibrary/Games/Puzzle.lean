import GuiLibrary.Data.Sliding
import GuiLibrary.Geometry
import Mathlib.Algebra.Ring.NegOnePow

/-!
# The sliding puzzle

The program `puzzle.c` cuts an image into tiles, one of which is left out. A tile that is pressed
slides into the hole when it is next to it. The tiles keep their positions in two ways: each one has
its own, and the array `current` has the tile on each cell.

After any presses both agree with one permutation of the cells, and the buttons are placed
accordingly. As in every sliding puzzle, half of the permutations are out of reach: two tiles are
never swapped with all else in place.

## Main definitions

* `Puzzle`, `Puzzle.handleTilePress`, `createPuzzleWindow`.
* `Arranged`: the tiles lie as a permutation says.

## Main results

* `arranged_of_presses`, `not_presses_swap`: what the presses reach.
* `handleTilePress_twice`: a press is undone by the same press.
-/

namespace GuiLibrary

open Sliding Equiv

/-! ### The program -/

/-- `k_tile_size`. -/
def kTileSize : ℤ := 128

/-- `place_coordinates`. -/
def placeCoordinates (pos : Point) : Point := ⟨pos.x * kTileSize, pos.y * kTileSize⟩

/-- `tile_t`. The button is known by the coordinates at which it was placed last. -/
structure Tile where
  originalPosition : Point
  currentPosition : Point
  coordinates : Point
deriving DecidableEq, Repr

/-- `puzzle_t`: the tiles, and for each cell the index of the tile that is on it. -/
structure Puzzle where
  n : Size
  tiles : ℤ → Tile
  current : ℤ → Option ℤ

namespace Puzzle

/-- `valid`. -/
def Valid (z : Puzzle) (position : Point) : Prop :=
  0 ≤ position.x ∧ position.x < z.n.width ∧ 0 ≤ position.y ∧ position.y < z.n.height

instance (z : Puzzle) (position : Point) : Decidable (z.Valid position) :=
  inferInstanceAs (Decidable (_ ∧ _))

/-- `index_at`. -/
def indexAt (z : Puzzle) (position : Point) : ℤ := position.y * z.n.width + position.x

/-- `tile_at`. -/
def tileAt (z : Puzzle) (position : Point) : Option ℤ := z.current (z.indexAt position)

/-- The assignments of `handle_tile_press` to the puzzle, with the placement of the button. -/
def slide (z : Puzzle) (tile : ℤ) (current swapPos : Point) : Puzzle where
  n := z.n
  tiles := Function.update z.tiles tile
    { z.tiles tile with currentPosition := swapPos, coordinates := placeCoordinates swapPos }
  current := Function.update (Function.update z.current (z.indexAt current) none)
    (z.indexAt swapPos) (some tile)

/-- `offsets`. -/
def offsets : List Point := [⟨0, -1⟩, ⟨-1, 0⟩, ⟨1, 0⟩, ⟨0, 1⟩]

/-- One pass of the loop of `handle_tile_press`. -/
def tryOffset (tile : ℤ) (current : Point) (z : Puzzle) (offset : Point) : Puzzle :=
  let swapPos : Point := ⟨current.x + offset.x, current.y + offset.y⟩
  if z.Valid swapPos ∧ z.tileAt swapPos = none then z.slide tile current swapPos else z

/-- `handle_tile_press`: the loop goes on after a tile has moved, from its former position. -/
def handleTilePress (z : Puzzle) (tile : ℤ) : Puzzle :=
  offsets.foldl (tryOffset tile (z.tiles tile).currentPosition) z

/-- The body of the loops of `create_puzzle_window`. -/
def createTile (z : Puzzle) (x y : ℕ) : Puzzle :=
  let currentPosition : Point := ⟨x, y⟩
  let index := z.indexAt currentPosition
  if (x : ℤ) = z.n.width - 1 ∧ (y : ℤ) = z.n.height - 1 then
    { z with current := Function.update z.current index none }
  else
    { z with
      tiles := Function.update z.tiles index
        ⟨currentPosition, currentPosition, placeCoordinates currentPosition⟩
      current := Function.update z.current index (some index) }

end Puzzle

/-- The loops of `create_puzzle_window`, over the arrays as they are allocated. -/
def createPuzzleWindow (n : Size) (tiles : ℤ → Tile) (current : ℤ → Option ℤ) : Puzzle :=
  (List.range n.height.toNat).foldl
    (fun z y => (List.range n.width.toNat).foldl (fun z x => z.createTile x y) z)
    ⟨n, tiles, current⟩

/-! ### Arrangements -/

/-- The cells of a puzzle with `w + 1` columns and `h + 1` rows. -/
abbrev PuzzleCell (w h : ℕ) := Fin (w + 1) × Fin (h + 1)

namespace PuzzleCell

variable {w h : ℕ}

/-- The position of a cell. -/
def point (c : PuzzleCell w h) : Point := ⟨c.1.val, c.2.val⟩

/-- The index of a cell. -/
def index (c : PuzzleCell w h) : ℤ := c.2.val * (w + 1 : ℕ) + c.1.val

/-- The cell that is left out at the beginning. -/
def last : PuzzleCell w h := (Fin.last w, Fin.last h)

/-- The tile whose home is the cell: none for the cell that is left out. -/
def tile (c : PuzzleCell w h) : Option ℤ := if c = last then none else some c.index

/-- Two cells have a side in common. -/
def Adjacent (c d : PuzzleCell w h) : Prop :=
  ∃ o ∈ Puzzle.offsets, d.point = ⟨c.point.x + o.x, c.point.y + o.y⟩

/-- The colours of a chessboard. -/
def colour (c : PuzzleCell w h) : ℤˣ := Int.negOnePow (c.1.val + c.2.val)

theorem index_injective : Function.Injective (index (w := w) (h := h)) := by
  rintro ⟨x, y⟩ ⟨x', y'⟩ heq
  have hlt := x.isLt
  have hlt' := x'.isLt
  have hx : (x.val : ℤ) = x'.val := by
    have hmod := congrArg (· % ((w + 1 : ℕ) : ℤ)) heq
    simp only [index, Int.mul_add_emod_self_right] at hmod
    rwa [Int.emod_eq_of_lt (Int.natCast_nonneg _) (by omega),
      Int.emod_eq_of_lt (Int.natCast_nonneg _) (by omega)] at hmod
  have hy : (y.val : ℤ) = y'.val := by
    simp only [index, hx, Int.add_left_inj] at heq
    exact Int.eq_of_mul_eq_mul_right (by omega) heq
  exact Prod.ext (Fin.ext (Int.ofNat.inj hx)) (Fin.ext (Int.ofNat.inj hy))

theorem tile_eq_none_iff {c : PuzzleCell w h} : c.tile = none ↔ c = last := by
  rw [tile]
  split_ifs with hc <;> simp [hc]

theorem tile_of_ne {c : PuzzleCell w h} (hc : c ≠ last) : c.tile = some c.index := if_neg hc

theorem Adjacent.symm {c d : PuzzleCell w h} (hadj : Adjacent c d) : Adjacent d c := by
  obtain ⟨o, ho, hd⟩ := hadj
  refine ⟨⟨-o.x, -o.y⟩, ?_, ?_⟩
  · revert ho
    simp only [Puzzle.offsets, List.mem_cons, List.not_mem_nil, or_false]
    rintro (rfl | rfl | rfl | rfl) <;> decide
  · rw [hd]
    simp

theorem Adjacent.colour_eq {c d : PuzzleCell w h} (hadj : Adjacent c d) :
    c.colour = - d.colour := by
  obtain ⟨o, ho, hd⟩ := hadj
  simp only [Puzzle.offsets, List.mem_cons, List.not_mem_nil, or_false] at ho
  simp only [point, Point.mk.injEq] at hd
  have hodd : (c.1.val + c.2.val : ℤ) = d.1.val + d.2.val + 1 ∨
      (d.1.val + d.2.val : ℤ) = c.1.val + c.2.val + 1 := by
    rcases ho with rfl | rfl | rfl | rfl <;> simp only at hd <;> omega
  rcases hodd with hodd | hodd
  · rw [colour, hodd, Int.negOnePow_succ, colour]
  · rw [colour, colour, hodd, Int.negOnePow_succ, neg_neg]

end PuzzleCell

open PuzzleCell

/-- The tiles lie as the permutation says: on the cell `c` there is the tile of the cell `σ c`, and
the hole where this is the last cell. -/
structure Arranged {w h : ℕ} (z : Puzzle) (σ : Perm (PuzzleCell w h)) : Prop where
  n : z.n = ⟨(w + 1 : ℕ), (h + 1 : ℕ)⟩
  current : ∀ c, z.current c.index = (σ c).tile
  tiles : ∀ c, σ c ≠ last →
    z.tiles (σ c).index = ⟨(σ c).point, c.point, placeCoordinates c.point⟩

namespace Arranged

variable {w h : ℕ} {z : Puzzle} {σ : Perm (PuzzleCell w h)} {c : PuzzleCell w h}

theorem indexAt_point (hz : Arranged z σ) (c : PuzzleCell w h) : z.indexAt c.point = c.index := by
  rw [Puzzle.indexAt, hz.n]
  rfl

theorem valid_iff (hz : Arranged z σ) (p : Point) :
    z.Valid p ↔ ∃ c : PuzzleCell w h, p = c.point := by
  rw [Puzzle.Valid, hz.n]
  constructor
  · rintro ⟨hx, hx', hy, hy'⟩
    obtain ⟨x, hpx⟩ := Int.eq_ofNat_of_zero_le hx
    obtain ⟨y, hpy⟩ := Int.eq_ofNat_of_zero_le hy
    simp only at hx' hy'
    exact ⟨(⟨x, by omega⟩, ⟨y, by omega⟩), by cases p; exact Point.mk.injEq .. ▸ ⟨hpx, hpy⟩⟩
  · rintro ⟨c, rfl⟩
    have hx := c.1.isLt
    have hy := c.2.isLt
    simp only [point]
    omega

/-- The only free cell is the one of the hole. -/
theorem free_iff (hz : Arranged z σ) (p : Point) :
    (z.Valid p ∧ z.tileAt p = none) ↔ p = (σ.symm last).point := by
  rw [hz.valid_iff]
  constructor
  · rintro ⟨⟨c, rfl⟩, hfree⟩
    rw [Puzzle.tileAt, hz.indexAt_point, hz.current, tile_eq_none_iff] at hfree
    rw [← hfree, Equiv.symm_apply_apply]
  · rintro rfl
    refine ⟨⟨_, rfl⟩, ?_⟩
    rw [Puzzle.tileAt, hz.indexAt_point, hz.current, Equiv.apply_symm_apply, tile_eq_none_iff]

/-- **A tile slides into the hole**: the contents of the two cells are swapped. -/
theorem slide (hz : Arranged z σ) (hc : σ c ≠ last) :
    Arranged (z.slide (σ c).index c.point (σ.symm last).point)
      (σ * swap c (σ.symm last)) := by
  have hne : c ≠ σ.symm last := fun heq => hc (by rw [heq, Equiv.apply_symm_apply])
  refine ⟨hz.n, fun e => ?_, fun e he => ?_⟩
  · simp only [Puzzle.slide, hz.indexAt_point, Perm.mul_apply]
    by_cases hed : e = σ.symm last
    · subst hed
      rw [Function.update_self, swap_apply_right, tile_of_ne hc]
    · rw [Function.update_of_ne fun heq => hed (index_injective heq)]
      by_cases hec : e = c
      · subst hec
        rw [Function.update_self, swap_apply_left, Equiv.apply_symm_apply, eq_comm,
          tile_eq_none_iff]
      · rw [Function.update_of_ne fun heq => hec (index_injective heq),
          swap_apply_of_ne_of_ne hec hed, hz.current]
  · simp only [Puzzle.slide, Perm.mul_apply] at he ⊢
    by_cases hed : e = σ.symm last
    · subst hed
      rw [swap_apply_right, Function.update_self, hz.tiles c hc]
    · by_cases hec : e = c
      · subst hec
        rw [swap_apply_left, Equiv.apply_symm_apply] at he
        exact absurd rfl he
      · rw [swap_apply_of_ne_of_ne hec hed] at he ⊢
        have htile : (σ e).index ≠ (σ c).index := fun heq =>
          hec (σ.injective (index_injective heq))
        rw [Function.update_of_ne htile, hz.tiles e he]

/-! ### One press -/

/-- Offsets that do not lead to a free cell do nothing. -/
theorem foldl_tryOffset (hz : Arranged z σ) {tile : ℤ} {current : Point} {os : List Point}
    (hno : ∀ o ∈ os, (σ.symm last).point ≠ ⟨current.x + o.x, current.y + o.y⟩) :
    os.foldl (Puzzle.tryOffset tile current) z = z := by
  induction os with
  | nil => rfl
  | cons o os ih =>
    have hskip : Puzzle.tryOffset tile current z o = z := by
      rw [Puzzle.tryOffset, if_neg]
      exact fun hfree => hno o List.mem_cons_self ((hz.free_iff _).mp hfree).symm
    rw [List.foldl_cons, hskip]
    exact ih fun o' ho' => hno o' (List.mem_cons_of_mem o ho')

/-- **A press** slides the tile when its cell has a side in common with the hole. The passes of the
loop after the slide do nothing: the hole is then where the tile was. -/
theorem handleTilePress_of_adjacent (hz : Arranged z σ) (hc : σ c ≠ last)
    (hadj : Adjacent c (σ.symm last)) :
    z.handleTilePress (σ c).index = z.slide (σ c).index c.point (σ.symm last).point := by
  obtain ⟨o, ho, hhole⟩ := hadj
  obtain ⟨before, after, hos⟩ := List.append_of_mem ho
  have hnodup : Puzzle.offsets.Nodup := by decide
  rw [hos] at hnodup
  obtain ⟨-, hafter, hbefore⟩ := List.nodup_append.mp hnodup
  have hother : ∀ o', o' ≠ o →
      (σ.symm last).point ≠ ⟨c.point.x + o'.x, c.point.y + o'.y⟩ := by
    intro o' hne heq
    rw [hhole, Point.mk.injEq, Int.add_right_inj, Int.add_right_inj] at heq
    exact hne (by cases o; cases o'; simp_all)
  have hposition : (z.tiles (σ c).index).currentPosition = c.point := by rw [hz.tiles c hc]
  have hslide : Puzzle.tryOffset (σ c).index c.point z o =
      z.slide (σ c).index c.point (σ.symm last).point := by
    rw [Puzzle.tryOffset, if_pos ((hz.free_iff _).mpr hhole.symm), hhole]
  rw [Puzzle.handleTilePress, hposition, hos, List.foldl_append, List.foldl_cons,
    hz.foldl_tryOffset fun o' ho' => hother o' fun heq => hbefore o' ho' o List.mem_cons_self heq,
    hslide]
  refine (hz.slide hc).foldl_tryOffset fun o' ho' heq => ?_
  rw [symm_mul_swap] at heq
  have hzero : o' = ⟨0, 0⟩ := by
    cases o'
    simp only [point, Point.mk.injEq] at heq ⊢
    omega
  have hmem : o' ∈ Puzzle.offsets := by
    rw [hos]
    exact List.mem_append_right _ (List.mem_cons_of_mem o ho')
  rw [hzero] at hmem
  exact absurd hmem (by decide)

theorem handleTilePress_of_not_adjacent (hz : Arranged z σ) (hc : σ c ≠ last)
    (hadj : ¬ Adjacent c (σ.symm last)) : z.handleTilePress (σ c).index = z := by
  have hposition : (z.tiles (σ c).index).currentPosition = c.point := by rw [hz.tiles c hc]
  rw [Puzzle.handleTilePress, hposition]
  exact hz.foldl_tryOffset fun o ho heq => hadj ⟨o, ho, heq⟩

end Arranged

/-! ### The new puzzle -/

section Create

variable {w h : ℕ} {z : Puzzle} {S : PuzzleCell w h → Prop}

/-- The cells in `S` have been given their tiles, each of which is at home. -/
structure LaidOut (z : Puzzle) (S : PuzzleCell w h → Prop) : Prop where
  n : z.n = ⟨(w + 1 : ℕ), (h + 1 : ℕ)⟩
  current : ∀ c, S c → z.current c.index = c.tile
  tiles : ∀ c, S c → c ≠ last → z.tiles c.index = ⟨c.point, c.point, placeCoordinates c.point⟩

namespace LaidOut

theorem mono {S' : PuzzleCell w h → Prop} (hz : LaidOut z S) (hS : ∀ c, S' c → S c) :
    LaidOut z S' :=
  ⟨hz.n, fun c hc => hz.current c (hS c hc), fun c hc => hz.tiles c (hS c hc)⟩

theorem createTile (hz : LaidOut z S) (c : PuzzleCell w h) :
    LaidOut (z.createTile c.1.val c.2.val) fun d => S d ∨ d = c := by
  have hindex : z.indexAt ⟨c.1.val, c.2.val⟩ = c.index := by
    rw [Puzzle.indexAt, hz.n]
    rfl
  have hlast : ((c.1.val : ℤ) = z.n.width - 1 ∧ (c.2.val : ℤ) = z.n.height - 1) ↔ c = last := by
    rw [hz.n, last, Prod.ext_iff, Fin.ext_iff, Fin.ext_iff, Fin.val_last, Fin.val_last]
    simp only
    omega
  simp only [Puzzle.createTile, hindex]
  split_ifs with hif
  · have hc := hlast.mp hif
    refine ⟨hz.n, fun d hd => ?_, fun d hd hne => hz.tiles d (hd.resolve_right ?_) hne⟩
    · by_cases hdc : d = c
      · subst hdc
        exact (Function.update_self ..).trans (tile_eq_none_iff.mpr hc).symm
      · exact (Function.update_of_ne (fun heq => hdc (index_injective heq)) ..).trans
          (hz.current d (hd.resolve_right hdc))
    · exact fun hdc => hne (hdc.trans hc)
  · have hc : c ≠ last := fun hc => hif (hlast.mpr hc)
    refine ⟨hz.n, fun d hd => ?_, fun d hd hne => ?_⟩
    · by_cases hdc : d = c
      · subst hdc
        exact (Function.update_self ..).trans (tile_of_ne hc).symm
      · exact (Function.update_of_ne (fun heq => hdc (index_injective heq)) ..).trans
          (hz.current d (hd.resolve_right hdc))
    · by_cases hdc : d = c
      · subst hdc
        exact Function.update_self ..
      · exact (Function.update_of_ne (fun heq => hdc (index_injective heq)) ..).trans
          (hz.tiles d (hd.resolve_right hdc) hne)

/-- The loop over a row, by induction on the number of passes. -/
theorem row (hz : LaidOut z S) (y : Fin (h + 1)) (k : ℕ) (hk : k ≤ w + 1) :
    LaidOut ((List.range k).foldl (fun z x => z.createTile x y.val) z)
      fun d => S d ∨ d.2 = y ∧ d.1.val < k := by
  induction k with
  | zero => exact hz.mono fun d hd => hd.resolve_right fun hlt => Nat.not_lt_zero _ hlt.2
  | succ k ih =>
    rw [List.range_succ, List.foldl_append]
    refine ((ih (Nat.le_of_succ_le hk)).createTile (⟨k, hk⟩, y)).mono fun d hd => ?_
    rcases hd with hd | ⟨rfl, hlt⟩
    · exact Or.inl (Or.inl hd)
    · rcases Nat.lt_succ_iff_lt_or_eq.mp hlt with hlt | heq
      · exact Or.inl (Or.inr ⟨rfl, hlt⟩)
      · exact Or.inr (Prod.ext (Fin.ext heq) rfl)

/-- The loop over the rows. -/
theorem rows (hz : LaidOut z fun _ : PuzzleCell w h => False) (k : ℕ) (hk : k ≤ h + 1) :
    LaidOut ((List.range k).foldl
      (fun z y => (List.range (w + 1)).foldl (fun z x => z.createTile x y) z) z)
      fun d : PuzzleCell w h => d.2.val < k := by
  induction k with
  | zero => exact hz.mono fun d hd => Nat.not_lt_zero _ hd
  | succ k ih =>
    rw [List.range_succ (n := k), List.foldl_append]
    refine ((ih (Nat.le_of_succ_le hk)).row ⟨k, hk⟩ (w + 1) (Nat.le_refl _)).mono fun d hd => ?_
    rcases Nat.lt_succ_iff_lt_or_eq.mp hd with hlt | heq
    · exact Or.inl hlt
    · exact Or.inr ⟨Fin.ext heq, d.1.isLt⟩

end LaidOut

/-- **A new puzzle** has every tile at home. -/
theorem arranged_createPuzzleWindow (w h : ℕ) (tiles : ℤ → Tile) (current : ℤ → Option ℤ) :
    Arranged (createPuzzleWindow ⟨(w + 1 : ℕ), (h + 1 : ℕ)⟩ tiles current)
      (1 : Perm (PuzzleCell w h)) := by
  have hstart : LaidOut (⟨⟨(w + 1 : ℕ), (h + 1 : ℕ)⟩, tiles, current⟩ : Puzzle)
      fun _ : PuzzleCell w h => False := ⟨rfl, fun _ h => absurd h id, fun _ h => absurd h id⟩
  have hall := hstart.rows (h + 1) (Nat.le_refl _)
  exact ⟨hall.n, fun c => hall.current c c.2.isLt, fun c hc => hall.tiles c c.2.isLt hc⟩

end Create

/-! ### Presses -/

section Presses

variable {w h : ℕ} {z z' : Puzzle} {σ τ : Perm (PuzzleCell w h)}

/-- A tile of the puzzle is pressed. -/
def Presses (w h : ℕ) (z z' : Puzzle) : Prop :=
  ∃ c : PuzzleCell w h, c ≠ last ∧ z' = z.handleTilePress c.index

/-- **A press slides a tile or does nothing.** -/
theorem Arranged.press (hz : Arranged z σ) (hpress : Presses w h z z') :
    z' = z ∨ ∃ τ, Slides Adjacent last σ τ ∧ Arranged z' τ := by
  obtain ⟨home, hhome, rfl⟩ := hpress
  obtain ⟨c, rfl⟩ := σ.surjective home
  by_cases hadj : Adjacent c (σ.symm last)
  · rw [hz.handleTilePress_of_adjacent hhome hadj]
    exact Or.inr ⟨_, ⟨c, hadj, rfl⟩, hz.slide hhome⟩
  · exact Or.inl (hz.handleTilePress_of_not_adjacent hhome hadj)

/-- The presses are moves of the permutation. -/
theorem Arranged.presses (hz : Arranged z σ)
    (hrun : Relation.ReflTransGen (Presses w h) z z') :
    ∃ τ, Relation.ReflTransGen (Slides Adjacent last) σ τ ∧ Arranged z' τ := by
  induction hrun with
  | refl => exact ⟨σ, .refl, hz⟩
  | tail _ hpress ih =>
    obtain ⟨τ, hslides, hτ⟩ := ih
    rcases hτ.press hpress with rfl | ⟨τ', hslide, hτ'⟩
    · exact ⟨τ, hslides, hτ⟩
    · exact ⟨τ', hslides.tail hslide, hτ'⟩

/-- The arrangement can be read off the puzzle. -/
theorem Arranged.unique (hz : Arranged z σ) (hz' : Arranged z τ) : σ = τ := by
  ext1 c
  have heq := (hz.current c).symm.trans (hz'.current c)
  by_cases hc : τ c = last
  · rw [tile_eq_none_iff.mpr hc, tile_eq_none_iff] at heq
    rw [hc, heq]
  · have hc' : σ c ≠ last := fun hc' => by
      rw [tile_eq_none_iff.mpr hc', eq_comm, tile_eq_none_iff] at heq
      exact hc heq
    rw [tile_of_ne hc, tile_of_ne hc', Option.some.injEq] at heq
    exact index_injective heq

/-- **The arrangement of the tiles** after any presses on a new puzzle: every tile is on one cell,
its own position and its button say so too, and the other cell is the hole. The permutation is even
exactly when the hole is an even number of steps from the last cell. -/
theorem arranged_of_presses {tiles : ℤ → Tile} {current : ℤ → Option ℤ}
    (hrun : Relation.ReflTransGen (Presses w h)
      (createPuzzleWindow ⟨(w + 1 : ℕ), (h + 1 : ℕ)⟩ tiles current) z) :
    ∃ σ : Perm (PuzzleCell w h), Arranged z σ ∧
      Perm.sign σ = (σ.symm last).colour * (last : PuzzleCell w h).colour := by
  obtain ⟨σ, hslides, hσ⟩ := (arranged_createPuzzleWindow w h tiles current).presses hrun
  refine ⟨σ, hσ, ?_⟩
  have hcharge : charge colour last σ = _ :=
    charge_of_slides (fun c d hadj => hadj.colour_eq) hslides
  rw [charge, charge, Perm.sign_one, one_mul] at hcharge
  have hone : (last : PuzzleCell w h).colour =
      Perm.sign σ * (σ.symm last).colour := hcharge.symm
  rw [hone, mul_comm (Perm.sign σ), ← mul_assoc, Int.units_mul_self, one_mul]

/-- **Two tiles are never swapped** while everything else is in place. -/
theorem not_presses_swap {a b : PuzzleCell w h} (hab : a ≠ b) (ha : a ≠ last) (hb : b ≠ last)
    {tiles : ℤ → Tile} {current : ℤ → Option ℤ}
    (hz : Arranged z (swap a b)) : ¬ Relation.ReflTransGen (Presses w h)
      (createPuzzleWindow ⟨(w + 1 : ℕ), (h + 1 : ℕ)⟩ tiles current) z := by
  intro hrun
  obtain ⟨σ, hslides, hσ⟩ := (arranged_createPuzzleWindow w h tiles current).presses hrun
  rw [hσ.unique hz, ← one_mul (swap a b)] at hslides
  exact not_slides_swap (fun c d hadj => hadj.colour_eq) hab ha hb hslides

/-- Sliding a tile and sliding it back. -/
theorem Arranged.slide_slide (hz : Arranged z σ) {c : PuzzleCell w h} (hc : σ c ≠ last) :
    (z.slide (σ c).index c.point (σ.symm last).point).slide (σ c).index (σ.symm last).point
      c.point = z := by
  have hne : (σ.symm last).index ≠ c.index := fun heq => hc (by
    rw [← index_injective heq, Equiv.apply_symm_apply])
  have hcurrent : z.current c.index = some (σ c).index := by rw [hz.current, tile_of_ne hc]
  have hhole : z.current (σ.symm last).index = none := by
    rw [hz.current, Equiv.apply_symm_apply, tile_eq_none_iff]
  have htile := hz.tiles c hc
  obtain ⟨n, tiles, current⟩ := z
  have hindex : ∀ d : PuzzleCell w h, Puzzle.indexAt ⟨n, tiles, current⟩ d.point = d.index :=
    hz.indexAt_point
  simp only [Puzzle.slide, Puzzle.indexAt, Puzzle.mk.injEq, true_and] at hindex hcurrent hhole ⊢
  constructor
  · funext i
    by_cases hi : i = (σ c).index
    · subst hi
      have htile : tiles (σ c).index = ⟨(σ c).point, c.point, placeCoordinates c.point⟩ := htile
      rw [Function.update_self, Function.update_self, htile]
    · rw [Function.update_of_ne hi, Function.update_of_ne hi]
  · funext i
    rw [hindex, hindex]
    by_cases hi : i = c.index
    · rw [hi, Function.update_self, hcurrent]
    · rw [Function.update_of_ne hi]
      by_cases hi' : i = (σ.symm last).index
      · rw [hi', Function.update_self, hhole]
      · rw [Function.update_of_ne hi', Function.update_of_ne hi', Function.update_of_ne hi]

/-- **A press is undone by the same press**, after any presses. -/
theorem handleTilePress_twice {tiles : ℤ → Tile} {current : ℤ → Option ℤ}
    (hrun : Relation.ReflTransGen (Presses w h)
      (createPuzzleWindow ⟨(w + 1 : ℕ), (h + 1 : ℕ)⟩ tiles current) z)
    {e : PuzzleCell w h} (he : e ≠ last) :
    (z.handleTilePress e.index).handleTilePress e.index = z := by
  obtain ⟨σ, -, hσ⟩ := (arranged_createPuzzleWindow w h tiles current).presses hrun
  obtain ⟨c, rfl⟩ := σ.surjective e
  by_cases hadj : Adjacent c (σ.symm last)
  · -- The tile is now where the hole was, and the hole next to it.
    have hslid := hσ.slide he
    have hback : (σ * swap c (σ.symm last)) (σ.symm last) = σ c := by
      rw [Perm.mul_apply, swap_apply_right]
    have hpress := hslid.handleTilePress_of_adjacent (c := σ.symm last) (by rwa [hback])
      (by rw [symm_mul_swap]; exact hadj.symm)
    rw [hback, symm_mul_swap] at hpress
    rw [hσ.handleTilePress_of_adjacent he hadj, hpress, hσ.slide_slide he]
  · have hpress := hσ.handleTilePress_of_not_adjacent he hadj
    rw [hpress, hpress]

end Presses

section Sample

/-- A puzzle of two rows and two columns. -/
def samplePuzzle : Puzzle :=
  createPuzzleWindow ⟨(1 + 1 : ℕ), (1 + 1 : ℕ)⟩ (fun _ => ⟨⟨0, 0⟩, ⟨0, 0⟩, ⟨0, 0⟩⟩) fun _ => none

/-- The tile above the hole is pressed. -/
theorem presses_samplePuzzle :
    Relation.ReflTransGen (Presses 1 1) samplePuzzle (samplePuzzle.handleTilePress 1) :=
  .single ⟨(1, 0), by decide, rfl⟩

theorem arranged_of_presses_samplePuzzle :
    ∃ σ : Perm (PuzzleCell 1 1), Arranged (samplePuzzle.handleTilePress 1) σ ∧
      Perm.sign σ = (σ.symm last).colour * (last : PuzzleCell 1 1).colour :=
  arranged_of_presses presses_samplePuzzle

theorem handleTilePress_twice_samplePuzzle :
    ((samplePuzzle.handleTilePress 1).handleTilePress 1).handleTilePress 1 =
      samplePuzzle.handleTilePress 1 :=
  handleTilePress_twice presses_samplePuzzle (e := ((1, 0) : PuzzleCell 1 1)) (by decide)

/-- The first two tiles are swapped. -/
def sampleSwapped : Puzzle where
  n := ⟨2, 2⟩
  tiles i := if i = 0 then ⟨⟨0, 0⟩, ⟨1, 0⟩, ⟨128, 0⟩⟩
    else if i = 1 then ⟨⟨1, 0⟩, ⟨0, 0⟩, ⟨0, 0⟩⟩ else ⟨⟨0, 1⟩, ⟨0, 1⟩, ⟨0, 128⟩⟩
  current i := if i = 0 then some 1 else if i = 1 then some 0 else if i = 2 then some 2 else none

theorem not_presses_swap_sampleSwapped :
    ¬ Relation.ReflTransGen (Presses 1 1) samplePuzzle sampleSwapped :=
  not_presses_swap (a := (0, 0)) (b := (1, 0)) (by decide) (by decide) (by decide)
    ⟨rfl, by decide, by decide⟩

end Sample

end GuiLibrary

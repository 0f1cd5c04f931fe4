import GuiLibrary.Data.Lines
import Mathlib.Algebra.Order.BigOperators.Group.List
import Mathlib.Data.List.Chain
import Mathlib.Data.List.ProdSigma
import Mathlib.Tactic.Linarith
import Mathlib.Tactic.Ring

/-!
# The game 2048

The program `two048.c` has a board of tiles, each with the logarithm of the number on it. A
direction key moves the tiles of every row to one side, and tiles with the same number that meet are
merged; when something has moved, a new tile is placed on an empty cell. After that the program
runs the key of each direction once more, without writing to the board, to see whether a move is
left.

This module has the program and what it does to one row.

## Main definitions

* `Game`, `Game.handleDirKey`, `Game.addTile`, `newGame`.
* `slideRow`: what becomes of a row.

## Main results

* `IsRow.mergeLoop_scanRow`: the loops over a row compute the rule, and whether the row changes.
* `IsRow.sum_slideRow`: the total of the numbers is kept.
* `IsRow.isStuckRow_iff`: when a row cannot move in either direction.
-/

namespace GuiLibrary

open Lines

/-! ### The program -/

/-- `direction_t`; `stop` is its `end`. -/
structure Direction where
  start : ℤ
  stop : ℤ
  incr : ℤ
  tEnd : ℤ
  tMul : ℤ
  sMul : ℤ
deriving DecidableEq, Repr

/-- The indices of the array `dirs`. -/
inductive DirCode where
  | up
  | down
  | right
  | left
deriving DecidableEq, Repr

namespace DirCode

/-- All of them, in the order of the array. -/
def codes : List DirCode := [up, down, right, left]

theorem mem_codes (d : DirCode) : d ∈ codes := by
  cases d <;> simp [codes]

end DirCode

namespace Direction

/-- The values of `s` in the loops from `start` to `end`, in at most as many passes as the given
number. -/
def scanFrom (dd : Direction) : ℕ → ℤ → List ℤ
  | 0, _ => []
  | passes + 1, s => if s = dd.stop then [] else s :: dd.scanFrom passes (s + dd.incr)

/-- The values of `s`. As `incr` is `1` or `-1`, there are as many as `start` is away from `end`. -/
def scan (dd : Direction) : List ℤ := dd.scanFrom (dd.stop - dd.start).natAbs dd.start

/-- The values of `tile_n` for one value of `t`. -/
def line (dd : Direction) (t : ℕ) : List ℤ := dd.scan.map fun s => t * dd.tMul + s * dd.sMul

/-- The values of `tile_n` for each value of `t`. -/
def lines (dd : Direction) : List (List ℤ) := (List.range dd.tEnd.toNat).map dd.line

end Direction

/-- `game_t`, without the widgets and their sizes. -/
structure Game where
  nbTileX : ℕ
  nbTileY : ℕ
  tileValues : ℤ → ℤ

/-- What the scan of a row has found. -/
structure RowScan where
  valList : List ℤ
  spaceArmed : Bool
  move : Bool
deriving DecidableEq, Repr

/-- One pass of the first loop over `s`. -/
def RowScan.add (c : RowScan) (value : ℤ) : RowScan :=
  if value ≠ -1 then { c with valList := c.valList ++ [value], move := c.move || c.spaceArmed }
  else { c with spaceArmed := true }

/-- The first loop over `s`. -/
def scanRow (row : List ℤ) (move : Bool) : RowScan := row.foldl RowScan.add ⟨[], false, move⟩

/-- The loop over `q`, from `val_list` to `new_list` and `move`. -/
def mergeLoop : List ℤ → List ℤ → Bool → List ℤ × Bool
  | v :: w :: rest, newList, move =>
      if v = w then mergeLoop rest (newList ++ [v + 1]) true
      else mergeLoop (w :: rest) (newList ++ [v]) move
  | rest, newList, move => (newList ++ rest, move)

/-- The result of `random`. -/
abbrev RandomValue := Fin (2 ^ 31)

/-- The largest result of `random`, for which `randomf` is `1`. -/
def randMax : ℕ := 2 ^ 31 - 1

/-- The second loop of `add_tile`, over the cells that are left. -/
def placeTile (nNew : ℕ) (valNew : ℤ) : List ℤ → ℕ → (ℤ → ℤ) → ℤ → ℤ
  | [], _, values => values
  | i :: rest, nbEmpty, values =>
      if values i = -1 then
        if nbEmpty = nNew then Function.update values i valNew
        else placeTile nNew valNew rest (nbEmpty + 1) values
      else placeTile nNew valNew rest nbEmpty values

namespace Game

/-- `nb_tile`, as `new_game` sets it. -/
def nbTile (g : Game) : ℕ := g.nbTileX * g.nbTileY

/-- `dirs`, as `new_game` sets it. -/
def dirs (g : Game) : DirCode → Direction
  | .up => ⟨0, g.nbTileY, 1, g.nbTileX, 1, g.nbTileX⟩
  | .down => ⟨g.nbTileY - 1, -1, -1, g.nbTileX, 1, g.nbTileX⟩
  | .right => ⟨g.nbTileX - 1, -1, -1, g.nbTileY, g.nbTileX, 1⟩
  | .left => ⟨0, g.nbTileX, 1, g.nbTileY, g.nbTileX, 1⟩

/-- One pass of the loop over `t` in `handle_dir_key`, with the tile values and `move`. When the
key is only tested, the loop has stopped as soon as a move was found. -/
def rowPass (testing : Bool) (c : (ℤ → ℤ) × Bool) (line : List ℤ) : (ℤ → ℤ) × Bool :=
  if testing && c.2 then c
  else
    let row := scanRow (line.map c.1) c.2
    let new := mergeLoop row.valList [] row.move
    (if testing then c.1 else rewriteLine (-1) line new.1 c.1, new.2)

/-- The loop over `t` in `handle_dir_key`. -/
def move (g : Game) (dirCode : DirCode) (testing : Bool) : (ℤ → ℤ) × Bool :=
  (g.dirs dirCode).lines.foldl (rowPass testing) (g.tileValues, false)

/-- `handle_dir_key` with `can_move`: it leaves the board as it is. -/
def canMove (g : Game) (dirCode : DirCode) : Bool := (g.move dirCode true).2

/-- The indices of the array `tile_values`. -/
def cells (g : Game) : List ℤ := (List.range g.nbTile).map fun (i : ℕ) => (i : ℤ)

/-- `nb_empty`, after the first loop of `add_tile`. -/
def nbEmpty (g : Game) : ℕ := g.cells.countP fun i => g.tileValues i = -1

/-- `n_new`. The floating-point number is off by less than the quotient is from the next integer, as
long as the board has less than a million cells. -/
def nNew (g : Game) (r : RandomValue) : ℕ := g.nbEmpty * r / randMax

/-- `val_new`: `randomf() > 0.8`. -/
def valNew (r : RandomValue) : ℤ := if 5 * r.val > 4 * randMax then 2 else 1

/-- `add_tile`, with the results of `random`: the new board, and whether the game is lost. -/
def addTile (g : Game) (first second : RandomValue) : Game × Bool :=
  let g' := { g with
    tileValues := placeTile (g.nNew first) (valNew second) g.cells 0 g.tileValues }
  (g', !DirCode.codes.any g'.canMove)

/-- `handle_dir_key` without `can_move`. -/
def handleDirKey (g : Game) (dirCode : DirCode) (first second : RandomValue) : Game × Bool :=
  let result := g.move dirCode false
  let g' := { g with tileValues := result.1 }
  if result.2 then g'.addTile first second else (g', false)

end Game

/-- `new_game`, over the array as it is allocated. -/
def newGame (nbTileX nbTileY : ℕ) (memory : ℤ → ℤ) (first second : RandomValue) : Game × Bool :=
  let g : Game := ⟨nbTileX, nbTileY, memory⟩
  Game.addTile
    { g with tileValues := g.cells.foldl (fun values i => Function.update values i (-1)) memory }
    first second

/-! ### Rows -/

/-- The tiles of a row. -/
def rowTiles (row : List ℤ) : List ℤ := row.filter (· ≠ -1)

/-- Tiles with the same number are merged, in pairs from the front. -/
def mergeTiles : List ℤ → List ℤ
  | v :: w :: rest => if v = w then (v + 1) :: mergeTiles rest else v :: mergeTiles (w :: rest)
  | rest => rest

/-- The tiles at the front, and empty cells behind. -/
def padRow (length : ℕ) (tiles : List ℤ) : List ℤ :=
  tiles ++ List.replicate (length - tiles.length) (-1)

/-- What becomes of a row. -/
def slideRow (row : List ℤ) : List ℤ := padRow row.length (mergeTiles (rowTiles row))

/-- The number on a tile. -/
def tileNumber (value : ℤ) : ℕ := if value = -1 then 0 else 2 ^ value.toNat

section Rows

variable {row tiles : List ℤ}

theorem mem_rowTiles {v : ℤ} : v ∈ rowTiles row ↔ v ∈ row ∧ v ≠ -1 := by
  simp [rowTiles]

theorem length_rowTiles_le : (rowTiles row).length ≤ row.length :=
  List.length_filter_le _ _

theorem length_mergeTiles_le (tiles : List ℤ) : (mergeTiles tiles).length ≤ tiles.length := by
  fun_induction mergeTiles tiles with
  | case1 v rest ih => simp only [List.length_cons]; omega
  | case2 v w rest hne ih => simpa using ih
  | case3 rest => exact le_rfl

/-- When no tiles are merged, nothing happens. -/
theorem mergeTiles_eq_of_length (h : tiles.length ≤ (mergeTiles tiles).length) :
    mergeTiles tiles = tiles := by
  fun_induction mergeTiles tiles with
  | case1 v rest ih =>
    have hle := length_mergeTiles_le rest
    simp only [List.length_cons] at h
    omega
  | case2 v w rest hne ih => rw [ih (by simpa using h)]
  | case3 rest => rfl

theorem mergeTiles_eq_iff : mergeTiles tiles = tiles ↔ tiles.IsChain (· ≠ ·) := by
  fun_induction mergeTiles tiles with
  | case1 v rest ih => simp [List.isChain_cons_cons]
  | case2 v w rest hne ih => simp [List.isChain_cons_cons, hne, ih]
  | case3 rest h =>
    rcases rest with _ | ⟨v, _ | ⟨w, rest⟩⟩
    · simp
    · simp
    · exact (h v w rest rfl).elim

theorem mergeTiles_pos (htiles : ∀ v ∈ tiles, 0 < v) : ∀ v ∈ mergeTiles tiles, 0 < v := by
  fun_induction mergeTiles tiles with
  | case1 v rest ih =>
    have hv := htiles v List.mem_cons_self
    refine List.forall_mem_cons.mpr ⟨by omega, ih fun w hw => htiles w ?_⟩
    exact List.mem_cons_of_mem _ (List.mem_cons_of_mem _ hw)
  | case2 v w rest hne ih =>
    exact List.forall_mem_cons.mpr ⟨htiles v List.mem_cons_self,
      ih fun u hu => htiles u (List.mem_cons_of_mem _ hu)⟩
  | case3 rest => exact htiles

theorem tileNumber_succ {v : ℤ} (hv : 0 < v) :
    tileNumber (v + 1) = tileNumber v + tileNumber v := by
  have hne : v ≠ -1 := by omega
  have hne' : v + 1 ≠ -1 := by omega
  rw [tileNumber, tileNumber, if_neg hne, if_neg hne', Int.toNat_add hv.le (by omega), pow_add]
  simp only [Int.toNat_one, pow_one]
  ring

/-- **Merging keeps the total of the numbers.** -/
theorem sum_mergeTiles (htiles : ∀ v ∈ tiles, 0 < v) :
    ((mergeTiles tiles).map tileNumber).sum = (tiles.map tileNumber).sum := by
  fun_induction mergeTiles tiles with
  | case1 v rest ih =>
    have hrest : ∀ w ∈ rest, 0 < w := fun w hw =>
      htiles w (List.mem_cons_of_mem _ (List.mem_cons_of_mem _ hw))
    rw [List.map_cons, List.sum_cons, ih hrest, tileNumber_succ (htiles v List.mem_cons_self)]
    simp only [List.map_cons, List.sum_cons]
    ring
  | case2 v w rest hne ih =>
    rw [List.map_cons, List.sum_cons, ih fun u hu => htiles u (List.mem_cons_of_mem _ hu)]
    rfl
  | case3 rest => rfl

theorem sum_rowTiles : ((rowTiles row).map tileNumber).sum = (row.map tileNumber).sum := by
  induction row with
  | nil => rfl
  | cons v row ih =>
    by_cases hv : v = -1
    · simpa [rowTiles, hv, tileNumber] using ih
    · simpa [rowTiles, hv] using ih

theorem sum_padRow {length : ℕ} :
    ((padRow length tiles).map tileNumber).sum = (tiles.map tileNumber).sum := by
  simp [padRow, tileNumber]

theorem length_padRow {length : ℕ} (hlen : tiles.length ≤ length) :
    (padRow length tiles).length = length := by
  rw [padRow, List.length_append, List.length_replicate]
  omega

theorem rowTiles_padRow {length : ℕ} (htiles : ∀ v ∈ tiles, 0 < v) :
    rowTiles (padRow length tiles) = tiles := by
  have hne : tiles.filter (· ≠ -1) = tiles := by
    refine List.filter_eq_self.mpr fun v hv => ?_
    have hv := htiles v hv
    simp only [ne_eq, decide_eq_true_eq]
    omega
  rw [rowTiles, padRow, List.filter_append, hne]
  simp

@[simp] theorem length_slideRow : (slideRow row).length = row.length :=
  length_padRow ((length_mergeTiles_le _).trans length_rowTiles_le)

/-- The contents of a row: each cell is empty or has a tile. -/
def IsRow (row : List ℤ) : Prop := ∀ v ∈ row, v = -1 ∨ 0 < v

theorem IsRow.rowTiles_pos (hrow : IsRow row) : ∀ v ∈ rowTiles row, 0 < v := by
  intro v hv
  obtain ⟨hmem, hne⟩ := mem_rowTiles.mp hv
  exact (hrow v hmem).resolve_left hne

theorem IsRow.sum_slideRow (hrow : IsRow row) :
    ((slideRow row).map tileNumber).sum = (row.map tileNumber).sum := by
  rw [slideRow, sum_padRow, sum_mergeTiles hrow.rowTiles_pos, sum_rowTiles]

theorem IsRow.slideRow (hrow : IsRow row) : IsRow (slideRow row) := by
  intro v hv
  rw [GuiLibrary.slideRow, padRow, List.mem_append] at hv
  rcases hv with hv | hv
  · exact .inr (mergeTiles_pos hrow.rowTiles_pos v hv)
  · exact .inl (List.eq_of_mem_replicate hv)

/-- A row stays as it is when its tiles are at the front and no two neighbours can be merged. -/
theorem IsRow.slideRow_eq_iff (hrow : IsRow row) :
    GuiLibrary.slideRow row = row ↔
      row = padRow row.length (rowTiles row) ∧ mergeTiles (rowTiles row) = rowTiles row := by
  constructor
  · intro heq
    have htiles : mergeTiles (rowTiles row) = rowTiles row := by
      have h := congrArg rowTiles heq
      rwa [GuiLibrary.slideRow,
        rowTiles_padRow (mergeTiles_pos hrow.rowTiles_pos)] at h
    rw [GuiLibrary.slideRow, htiles] at heq
    exact ⟨heq.symm, htiles⟩
  · rintro ⟨hfill, htiles⟩
    rw [GuiLibrary.slideRow, htiles, ← hfill]

/-- A row that changes has an empty cell afterwards. -/
theorem empty_mem_slideRow (hne : slideRow row ≠ row) : -1 ∈ slideRow row := by
  have hlen : (mergeTiles (rowTiles row)).length < row.length := by
    by_contra hge
    have hmerge := length_mergeTiles_le (rowTiles row)
    have hfilter : (rowTiles row).length ≤ row.length := length_rowTiles_le
    have htiles : rowTiles row = row :=
      List.filter_sublist.eq_of_length (by rw [← rowTiles]; omega)
    rw [htiles] at hge
    have hsame := mergeTiles_eq_of_length (not_lt.mp hge)
    rw [slideRow, htiles, hsame, padRow, Nat.sub_self, List.replicate_zero, List.append_nil] at hne
    exact hne rfl
  refine List.mem_append_right _ (List.mem_replicate.mpr ⟨?_, rfl⟩)
  omega

theorem rowTiles_cons_of_ne {v : ℤ} (hv : v ≠ -1) : rowTiles (v :: row) = v :: rowTiles row := by
  simp [rowTiles, hv]

theorem rowTiles_cons_empty : rowTiles (-1 :: row) = rowTiles row := by
  simp [rowTiles]

theorem padRow_cons {v : ℤ} {length : ℕ} :
    padRow (length + 1) (v :: tiles) = v :: padRow length tiles := by
  simp [padRow]

/-- With an empty cell in front, the tiles are at the front only when there are none. -/
theorem eq_padRow_cons_empty :
    -1 :: row = padRow (row.length + 1) (rowTiles row) ↔
      rowTiles row = [] ∧ row = padRow row.length (rowTiles row) := by
  cases htiles : rowTiles row with
  | nil => simp [padRow, List.replicate_succ]
  | cons w tiles =>
    have hw : w ≠ -1 := (mem_rowTiles.mp (htiles ▸ List.mem_cons_self)).2
    simp [padRow_cons, hw.symm]

/-- **The scan finds the tiles**, and whether some of them are not at the front. -/
theorem foldl_add (c : RowScan) :
    row.foldl RowScan.add c =
      ⟨c.valList ++ rowTiles row, c.spaceArmed || row.any (· = -1),
        c.move || (c.spaceArmed && (rowTiles row ≠ [])) ||
          (row ≠ padRow row.length (rowTiles row))⟩ := by
  induction row generalizing c with
  | nil => simp [rowTiles, padRow]
  | cons v row ih =>
    rw [List.foldl_cons, ih, List.length_cons]
    by_cases hv : v = -1
    · subst hv
      simp only [rowTiles_cons_empty, ne_eq, eq_padRow_cons_empty]
      by_cases htiles : rowTiles row = [] <;> simp [RowScan.add, htiles]
    · rw [rowTiles_cons_of_ne hv, padRow_cons]
      cases harmed : c.spaceArmed <;> simp [RowScan.add, hv, harmed]

theorem mergeLoop_eq (newList : List ℤ) (move : Bool) :
    mergeLoop tiles newList move =
      (newList ++ mergeTiles tiles, move || (mergeTiles tiles ≠ tiles)) := by
  fun_induction mergeLoop tiles newList move with
  | case1 v rest newList move ih => simp [ih, mergeTiles]
  | case2 v w rest newList move hne ih => simp [ih, mergeTiles, hne]
  | case3 rest newList move h =>
    have hsame : mergeTiles rest = rest := by
      rw [mergeTiles]
      exact h
    simp [hsame]

/-- **The two loops rewrite a row by the rule** and find out whether it changes. -/
theorem IsRow.mergeLoop_scanRow (hrow : IsRow row) (move : Bool) :
    mergeLoop (scanRow row move).valList [] (scanRow row move).move =
      (mergeTiles (rowTiles row), move || (GuiLibrary.slideRow row ≠ row)) := by
  rw [scanRow, foldl_add, mergeLoop_eq]
  simp only [List.nil_append, Bool.false_and, Bool.or_false, Bool.or_assoc, decide_not,
    decide_eq_decide.mpr hrow.slideRow_eq_iff, Bool.decide_and, Bool.not_and]

/-- A row from which nothing moves in either direction: it has no tile, or it is full and has no
neighbours to merge. -/
def IsStuckRow (row : List ℤ) : Prop :=
  (∀ v ∈ row, v = -1) ∨ (∀ v ∈ row, v ≠ -1) ∧ row.IsChain (· ≠ ·)

theorem rowTiles_eq_nil (h : ∀ v ∈ row, v = -1) : rowTiles row = [] :=
  List.filter_eq_nil_iff.mpr fun v hv => by simpa using h v hv

theorem rowTiles_eq_self (h : ∀ v ∈ row, v ≠ -1) : rowTiles row = row :=
  List.filter_eq_self.mpr fun v hv => by simpa using h v hv

theorem rowTiles_reverse : rowTiles row.reverse = (rowTiles row).reverse :=
  List.filter_reverse ..

theorem IsRow.reverse (hrow : IsRow row) : IsRow row.reverse :=
  fun v hv => hrow v (List.mem_reverse.mp hv)

theorem IsStuckRow.reverse (h : IsStuckRow row) : IsStuckRow row.reverse := by
  simp only [IsStuckRow, List.mem_reverse, List.isChain_reverse]
  refine h.imp_right fun h => ⟨h.1, h.2.imp fun v w hne => hne.symm⟩

theorem IsStuckRow.slideRow_eq (hrow : IsRow row) (h : IsStuckRow row) :
    GuiLibrary.slideRow row = row := by
  rw [hrow.slideRow_eq_iff]
  rcases h with hempty | ⟨hfull, hchain⟩
  · rw [rowTiles_eq_nil hempty]
    refine ⟨?_, rfl⟩
    rw [padRow, List.nil_append, List.length_nil, Nat.sub_zero]
    exact List.eq_replicate_of_mem hempty
  · rw [rowTiles_eq_self hfull]
    exact ⟨by simp [padRow], mergeTiles_eq_iff.mpr hchain⟩

/-- Nothing moves in either direction exactly when the row is stuck. -/
theorem IsRow.isStuckRow_iff (hrow : IsRow row) :
    IsStuckRow row ↔
      GuiLibrary.slideRow row = row ∧ GuiLibrary.slideRow row.reverse = row.reverse := by
  refine ⟨fun h => ⟨h.slideRow_eq hrow, h.reverse.slideRow_eq hrow.reverse⟩, ?_⟩
  rintro ⟨hfront, hback⟩
  obtain ⟨hfront, hmerge⟩ := hrow.slideRow_eq_iff.mp hfront
  obtain ⟨hback, -⟩ := hrow.reverse.slideRow_eq_iff.mp hback
  cases htiles : rowTiles row with
  | nil =>
    left
    intro v hv
    rw [hfront, htiles, padRow, List.nil_append] at hv
    exact List.eq_of_mem_replicate hv
  | cons w tiles =>
    -- The tiles are at both ends, so there is no room for an empty cell.
    have hnum : row.length ≤ (rowTiles row).length := by
      by_contra hlt
      obtain ⟨n, hn⟩ := Nat.exists_eq_add_one_of_ne_zero (Nat.sub_ne_zero_of_lt (not_le.mp hlt))
      have hends : rowTiles row ++ List.replicate (n + 1) (-1) =
          List.replicate (n + 1) (-1) ++ rowTiles row := by
        rw [rowTiles_reverse, padRow, List.length_reverse, List.length_reverse, hn,
          List.reverse_eq_iff, List.reverse_append, List.reverse_reverse,
          List.reverse_replicate] at hback
        rw [padRow, hn] at hfront
        exact hfront.symm.trans hback
      have hw := (mem_rowTiles.mp (htiles ▸ List.mem_cons_self : w ∈ rowTiles row)).2
      rw [htiles, List.replicate_succ, List.cons_append, List.cons_append, List.cons.injEq] at hends
      exact hw hends.1
    have hself : rowTiles row = row := List.filter_sublist.eq_of_length (by
      rw [← rowTiles]
      exact le_antisymm length_rowTiles_le hnum)
    refine .inr ⟨fun v hv => ?_, ?_⟩
    · rw [← hself] at hv
      exact (mem_rowTiles.mp hv).2
    · rw [hself] at hmerge
      exact mergeTiles_eq_iff.mp hmerge

end Rows

end GuiLibrary

import GuiLibrary.Games.Two048
import Mathlib.Data.List.ProdSigma

/-!
# The board of the game 2048

The scanning parameters of the four directions describe the rows and columns of the board, each from
the side to which a key moves its tiles. As they have no cell in common, a key rewrites each of them
as if it were alone. The new tile goes to an empty cell.

## Main definitions

* `Game.sides`: the rows and columns. `Game.moved`: the board after the tiles have moved.
* `Game.total`: the total of the numbers.

## Main results

* `Game.lines_dirs`: the scanning parameters.
* `Game.IsBoard.move_key`, `Game.IsBoard.move_testing`: the key, and the test for a move.
* `Game.IsBoard.total_moved`, `Game.total_addTile`: the total.
-/

namespace GuiLibrary

open Lines

/-! ### One key -/

section Lines

variable {lines : List (List ℤ)} {values : ℤ → ℤ} {line : List ℤ}

/-- Some line changes. -/
def someChange (lines : List (List ℤ)) (values : ℤ → ℤ) : Bool :=
  lines.any fun line => slideRow (line.map values) ≠ line.map values

theorem rowPass_testing (hrow : IsRow (line.map values)) (move : Bool) :
    Game.rowPass true (values, move) line =
      (values, move || (slideRow (line.map values) ≠ line.map values)) := by
  cases move with
  | true => rfl
  | false => simp [Game.rowPass, hrow.mergeLoop_scanRow]

theorem rowPass_key (hrow : IsRow (line.map values)) (move : Bool) :
    Game.rowPass false (values, move) line =
      (rewriteLine (-1) line (slideRow (line.map values)) values,
        move || (slideRow (line.map values) ≠ line.map values)) := by
  simp only [Game.rowPass, Bool.false_and, Bool.false_eq_true, if_false, hrow.mergeLoop_scanRow]
  rw [slideRow, padRow, rewriteLine_append_replicate]

/-- A test looks for a line that changes. -/
theorem foldl_rowPass_testing (hrows : ∀ line ∈ lines, IsRow (line.map values)) (move : Bool) :
    lines.foldl (Game.rowPass true) (values, move) = (values, move || someChange lines values) := by
  induction lines generalizing move with
  | nil => simp [someChange]
  | cons line lines ih =>
    obtain ⟨hrow, hrows⟩ := List.forall_mem_cons.mp hrows
    rw [List.foldl_cons, rowPass_testing hrow, ih hrows, Bool.or_assoc]
    rfl

/-- A key rewrites all lines: what comes before on the board does not matter for a line. -/
theorem foldl_rowPass_key (hlines : lines.flatten.Nodup)
    (hrows : ∀ line ∈ lines, IsRow (line.map values)) (move : Bool) :
    lines.foldl (Game.rowPass false) (values, move) =
      (rewriteAll (-1) slideRow lines values, move || someChange lines values) := by
  induction lines generalizing values move with
  | nil => simp [someChange, rewriteAll]
  | cons line lines ih =>
    obtain ⟨hrow, hrows⟩ := List.forall_mem_cons.mp hrows
    rw [List.flatten_cons, List.nodup_append] at hlines
    obtain ⟨-, hrest, hdisjoint⟩ := hlines
    have hsame : ∀ other ∈ lines,
        other.map (rewriteLine (-1) line (slideRow (line.map values)) values) =
          other.map values := fun other hother =>
      map_rewriteLine_of_disjoint fun i hi hmem =>
        hdisjoint i hmem i (List.mem_flatten_of_mem hother hi) rfl
    rw [List.foldl_cons, rowPass_key hrow, ih hrest fun other hother => by
      rw [hsame other hother]
      exact hrows other hother, Bool.or_assoc]
    refine congrArg₂ Prod.mk rfl (congrArg (move || ·) ?_)
    rw [someChange, someChange, List.any_cons]
    refine congrArg (_ || ·) ?_
    rw [Bool.eq_iff_iff, List.any_eq_true, List.any_eq_true]
    refine exists_congr fun other => and_congr_right fun hother => ?_
    rw [hsame other hother]

end Lines

/-! ### The rows of the board -/

namespace Direction

variable {dd : Direction}

/-- The loops over `s` end: `start` is a multiple of `incr` away from `end`. More passes than that
are never made. -/
theorem scanFrom_eq (hincr : dd.incr ≠ 0) (n more : ℕ) (s : ℤ) (hstop : dd.stop = s + n * dd.incr) :
    dd.scanFrom (n + more) s = (List.range n).map fun i : ℕ => s + i * dd.incr := by
  induction n generalizing s with
  | zero =>
    rw [Nat.zero_add]
    cases more with
    | zero => rfl
    | succ more => simp [scanFrom, hstop]
  | succ n ih =>
    have hne : s ≠ dd.stop := by
      have hmul : (n + 1 : ℤ) * dd.incr ≠ 0 := mul_ne_zero (by omega) hincr
      push_cast at hstop
      omega
    have hnext : dd.stop = s + dd.incr + n * dd.incr := by
      push_cast at hstop
      linarith
    rw [Nat.succ_add, scanFrom, if_neg hne, ih _ hnext, List.range_succ_eq_map, List.map_cons,
      List.map_map]
    refine congrArg₂ List.cons (by simp) (List.map_congr_left fun i _ => ?_)
    simp only [Function.comp_apply, Nat.cast_succ]
    ring

theorem scan_forth {n : ℕ} (hstart : dd.start = 0) (hstop : dd.stop = n) (hincr : dd.incr = 1) :
    dd.scan = (List.range n).map fun i : ℕ => (i : ℤ) := by
  have hpasses : (dd.stop - dd.start).natAbs = n := by omega
  have hfrom : dd.scanFrom (n + 0) dd.start = _ :=
    scanFrom_eq (by omega) n 0 dd.start (by rw [hstart, hstop, hincr]; omega)
  rw [scan, hpasses]
  refine hfrom.trans (List.map_congr_left fun i _ => ?_)
  rw [hstart, hincr, zero_add, mul_one]

theorem scan_back {n : ℕ} (hstart : dd.start = n - 1) (hstop : dd.stop = -1)
    (hincr : dd.incr = -1) :
    dd.scan = ((List.range n).map fun i : ℕ => (i : ℤ)).reverse := by
  have hpasses : (dd.stop - dd.start).natAbs = n := by omega
  have hfrom : dd.scanFrom (n + 0) dd.start = _ :=
    scanFrom_eq (by omega) n 0 dd.start (by rw [hstart, hstop, hincr]; omega)
  rw [scan, hpasses, ← List.map_reverse, List.range_eq_range', List.reverse_range', List.map_map]
  refine hfrom.trans (List.map_congr_left fun i hi => ?_)
  have hlt := List.mem_range.mp hi
  simp only [Function.comp_apply, hstart, hincr]
  omega

end Direction

namespace Game

variable {g : Game}

/-- The cell in the column `x` and the row `y`. -/
def cell (g : Game) (x y : ℕ) : ℤ := (y * g.nbTileX + x : ℕ)

/-- A column, from the top. -/
def column (g : Game) (x : ℕ) : List ℤ := (List.range g.nbTileY).map fun y => g.cell x y

/-- A row, from the left. -/
def row (g : Game) (y : ℕ) : List ℤ := (List.range g.nbTileX).map fun x => g.cell x y

/-- The rows and columns that a key moves, from the side to which it moves them. -/
def sides (g : Game) : DirCode → List (List ℤ)
  | .up => (List.range g.nbTileX).map g.column
  | .down => (List.range g.nbTileX).map fun x => (g.column x).reverse
  | .right => (List.range g.nbTileY).map fun y => (g.row y).reverse
  | .left => (List.range g.nbTileY).map g.row

/-- The scan of a direction runs over its rows and columns. -/
theorem lines_dirs (d : DirCode) : (g.dirs d).lines = g.sides d := by
  cases d with
  | up =>
    refine List.map_congr_left (l := List.range g.nbTileX) fun x _ => ?_
    rw [Direction.line, Direction.scan_forth (n := g.nbTileY) rfl rfl rfl, List.map_map]
    refine List.map_congr_left fun y _ => ?_
    simp [dirs, cell, add_comm]
  | down =>
    refine List.map_congr_left (l := List.range g.nbTileX) fun x _ => ?_
    rw [Direction.line, Direction.scan_back (n := g.nbTileY) rfl rfl rfl, List.map_reverse,
      List.map_map]
    refine congrArg List.reverse (List.map_congr_left fun y _ => ?_)
    simp [dirs, cell, add_comm]
  | right =>
    refine List.map_congr_left (l := List.range g.nbTileY) fun y _ => ?_
    rw [Direction.line, Direction.scan_back (n := g.nbTileX) rfl rfl rfl, List.map_reverse,
      List.map_map]
    refine congrArg List.reverse (List.map_congr_left fun x _ => ?_)
    simp [dirs, cell]
  | left =>
    refine List.map_congr_left (l := List.range g.nbTileY) fun y _ => ?_
    rw [Direction.line, Direction.scan_forth (n := g.nbTileX) rfl rfl rfl, List.map_map]
    refine List.map_congr_left fun x _ => ?_
    simp [dirs, cell]

theorem cell_inj {x y x' y' : ℕ} (hx : x < g.nbTileX) (hx' : x' < g.nbTileX)
    (heq : g.cell x y = g.cell x' y') : x = x' ∧ y = y' := by
  have heq : y * g.nbTileX + x = y' * g.nbTileX + x' := Int.ofNat_inj.mp heq
  have hmod := congrArg (· % g.nbTileX) heq
  simp only [Nat.mul_add_mod_self_right, Nat.mod_eq_of_lt hx, Nat.mod_eq_of_lt hx'] at hmod
  refine ⟨hmod, Nat.eq_of_mul_eq_mul_right (Nat.zero_lt_of_lt hx) ?_⟩
  omega

theorem mem_cells {i : ℤ} :
    i ∈ g.cells ↔ ∃ x < g.nbTileX, ∃ y < g.nbTileY, g.cell x y = i := by
  simp only [cells, nbTile, List.mem_map, List.mem_range, cell]
  constructor
  · rintro ⟨k, hk, rfl⟩
    have hX : 0 < g.nbTileX := Nat.pos_of_ne_zero fun h => by simp [h] at hk
    refine ⟨k % g.nbTileX, Nat.mod_lt _ hX, k / g.nbTileX, Nat.div_lt_of_lt_mul hk, ?_⟩
    rw [mul_comm, Nat.div_add_mod]
  · rintro ⟨x, hx, y, hy, rfl⟩
    refine ⟨_, ?_, rfl⟩
    calc y * g.nbTileX + x < (y + 1) * g.nbTileX := by rw [Nat.add_mul]; omega
      _ ≤ g.nbTileY * g.nbTileX := Nat.mul_le_mul_right _ hy
      _ = g.nbTileX * g.nbTileY := mul_comm _ _

theorem mem_flatten_sides {d : DirCode} {i : ℤ} : i ∈ (g.sides d).flatten ↔ i ∈ g.cells := by
  have hswap : (∃ y < g.nbTileY, ∃ x < g.nbTileX, g.cell x y = i) ↔
      ∃ x < g.nbTileX, ∃ y < g.nbTileY, g.cell x y = i :=
    ⟨fun ⟨y, hy, x, hx, heq⟩ => ⟨x, hx, y, hy, heq⟩, fun ⟨x, hx, y, hy, heq⟩ => ⟨y, hy, x, hx, heq⟩⟩
  rw [mem_cells]
  cases d <;>
    simp only [sides, column, row, List.mem_flatten, List.mem_map, List.mem_range,
      exists_exists_and_eq_and, List.mem_reverse, hswap]

theorem nodup_flatten_map {m n : ℕ} {f : ℕ → ℕ → ℤ}
    (hinj : ∀ a < m, ∀ b < n, ∀ a' < m, ∀ b' < n, f a b = f a' b' → a = a' ∧ b = b') :
    ((List.range m).map fun a => (List.range n).map (f a)).flatten.Nodup := by
  have heq : ((List.range m).map fun a => (List.range n).map (f a)).flatten =
      (List.product (List.range m) (List.range n)).map fun p => f p.1 p.2 := by
    rw [← List.flatMap_def, List.product, List.map_flatMap]
    simp only [List.map_map, Function.comp_def]
  rw [heq]
  refine List.Nodup.map_on ?_ (List.nodup_range.product List.nodup_range)
  rintro ⟨a, b⟩ hab ⟨a', b'⟩ hab' hf
  simp only [List.pair_mem_product, List.mem_range] at hab hab'
  exact Prod.ext_iff.mpr (hinj a hab.1 b hab.2 a' hab'.1 b' hab'.2 hf)

theorem nodup_flatten_sides (d : DirCode) : (g.sides d).flatten.Nodup := by
  have hcolumns : ((List.range g.nbTileX).map g.column).flatten.Nodup :=
    nodup_flatten_map fun x hx y _ x' hx' y' _ heq => cell_inj hx hx' heq
  have hrows : ((List.range g.nbTileY).map g.row).flatten.Nodup :=
    nodup_flatten_map fun y _ x hx y' _ x' hx' heq => (cell_inj hx hx' heq).symm
  cases d with
  | up => exact hcolumns
  | left => exact hrows
  | down =>
    rw [← List.flatMap_def] at hcolumns
    rw [sides, ← List.flatMap_def]
    exact (List.Perm.flatMap_left _ fun x _ =>
      List.reverse_perm (g.column x)).nodup_iff.mpr hcolumns
  | right =>
    rw [← List.flatMap_def] at hrows
    rw [sides, ← List.flatMap_def]
    exact (List.Perm.flatMap_left _ fun y _ =>
      List.reverse_perm (g.row y)).nodup_iff.mpr hrows

/-! ### Boards -/

/-- Each cell is empty or has a tile. -/
def IsBoard (g : Game) : Prop := ∀ i ∈ g.cells, IsRow [g.tileValues i]

/-- The total of the numbers on the tiles. -/
def total (g : Game) : ℕ := (g.cells.map fun i => tileNumber (g.tileValues i)).sum

theorem nodup_cells : g.cells.Nodup :=
  List.nodup_range.map Nat.cast_injective

theorem flatten_sides_perm (d : DirCode) : (g.sides d).flatten.Perm g.cells :=
  (List.perm_ext_iff_of_nodup (nodup_flatten_sides d) nodup_cells).mpr fun _ => mem_flatten_sides

theorem mem_cells_of_mem_side {d : DirCode} {line : List ℤ} (hline : line ∈ g.sides d) {i : ℤ}
    (hi : i ∈ line) : i ∈ g.cells :=
  mem_flatten_sides.mp (List.mem_flatten_of_mem hline hi)

theorem IsBoard.isRow (hg : g.IsBoard) {d : DirCode} {line : List ℤ} (hline : line ∈ g.sides d) :
    IsRow (line.map g.tileValues) := by
  intro v hv
  obtain ⟨i, hi, rfl⟩ := List.mem_map.mp hv
  exact hg i (mem_cells_of_mem_side hline hi) _ List.mem_cons_self

/-- The board when the key has moved the tiles. -/
def moved (g : Game) (d : DirCode) : Game :=
  { g with tileValues := rewriteAll (-1) slideRow (g.sides d) g.tileValues }

theorem IsBoard.move_testing (hg : g.IsBoard) (d : DirCode) :
    g.move d true = (g.tileValues, someChange (g.sides d) g.tileValues) := by
  rw [move, lines_dirs, foldl_rowPass_testing fun line hline => hg.isRow hline, Bool.false_or]

theorem IsBoard.move_key (hg : g.IsBoard) (d : DirCode) :
    g.move d false = ((g.moved d).tileValues, someChange (g.sides d) g.tileValues) := by
  rw [move, lines_dirs,
    foldl_rowPass_key (nodup_flatten_sides d) (fun line hline => hg.isRow hline), Bool.false_or]
  rfl

theorem IsBoard.canMove_eq (hg : g.IsBoard) (d : DirCode) :
    g.canMove d = someChange (g.sides d) g.tileValues := by
  rw [canMove, hg.move_testing]

theorem map_moved {d : DirCode} {line : List ℤ} (hline : line ∈ g.sides d) :
    line.map (g.moved d).tileValues = slideRow (line.map g.tileValues) :=
  map_rewriteAll (nodup_flatten_sides d) (fun _ => length_slideRow) hline

/-- The test for a move is right. -/
theorem IsBoard.canMove_iff (hg : g.IsBoard) (d : DirCode) :
    g.canMove d = true ↔ (g.moved d).tileValues ≠ g.tileValues := by
  rw [hg.canMove_eq, someChange, List.any_eq_true, moved,
    rewriteAll_ne_iff (nodup_flatten_sides d) fun _ => length_slideRow]
  simp only [decide_eq_true_eq]

theorem IsBoard.moved (hg : g.IsBoard) (d : DirCode) : (g.moved d).IsBoard := by
  intro i hi
  have hside : i ∈ (g.sides d).flatten := mem_flatten_sides.mpr hi
  obtain ⟨line, hline, hmem⟩ := List.mem_flatten.mp hside
  refine List.forall_mem_singleton.mpr ((hg.isRow hline).slideRow _ ?_)
  rw [← map_moved hline]
  exact List.mem_map_of_mem hmem

/-- **A key keeps the total.** -/
theorem IsBoard.total_moved (hg : g.IsBoard) (d : DirCode) : (g.moved d).total = g.total := by
  have hperm := flatten_sides_perm (g := g) d
  calc (g.moved d).total
      = ((g.sides d).flatten.map fun i => tileNumber ((g.moved d).tileValues i)).sum :=
        ((hperm.map _).sum_eq).symm
    _ = ((g.sides d).flatten.map fun i => tileNumber (g.tileValues i)).sum :=
        sum_rewriteAll (nodup_flatten_sides d) (fun _ => length_slideRow) fun line hline =>
          (hg.isRow hline).sum_slideRow
    _ = g.total := (hperm.map _).sum_eq

/-- A key that moves something leaves an empty cell. -/
theorem IsBoard.exists_empty_moved (hg : g.IsBoard) {d : DirCode} (hmove : g.canMove d = true) :
    ∃ i ∈ g.cells, (g.moved d).tileValues i = -1 := by
  rw [hg.canMove_eq, someChange, List.any_eq_true] at hmove
  obtain ⟨line, hline, hne⟩ := hmove
  have hempty := empty_mem_slideRow (of_decide_eq_true hne)
  rw [← map_moved hline] at hempty
  obtain ⟨i, hi, heq⟩ := List.mem_map.mp hempty
  exact ⟨i, mem_cells_of_mem_side hline hi, heq⟩

/-! ### New tiles -/

/-- The new tile goes to the cell with the number `n_new` among the empty ones, if there is one. -/
theorem placeTile_eq {nNew nbEmpty : ℕ} {valNew : ℤ} {cells : List ℤ} {values : ℤ → ℤ}
    (hle : nbEmpty ≤ nNew) :
    placeTile nNew valNew cells nbEmpty values =
      (cells.filter fun i => values i = -1)[nNew - nbEmpty]?.elim values
        fun i => Function.update values i valNew := by
  induction cells generalizing nbEmpty with
  | nil => rfl
  | cons i cells ih =>
    rw [placeTile]
    by_cases hi : values i = -1
    · rw [if_pos hi, List.filter_cons_of_pos (by simpa using hi)]
      by_cases heq : nbEmpty = nNew
      · simp [heq]
      · have hsub : nNew - nbEmpty = nNew - (nbEmpty + 1) + 1 := by omega
        rw [if_neg heq, ih (by omega), hsub, List.getElem?_cons_succ]
    · rw [if_neg hi, List.filter_cons_of_neg (by simpa using hi), ih hle]

theorem nNew_lt_iff {r : RandomValue} : g.nNew r < g.nbEmpty ↔ 0 < g.nbEmpty ∧ r.val ≠ randMax := by
  have hr : r.val ≤ randMax := Nat.le_of_lt_succ r.isLt
  rw [nNew, Nat.div_lt_iff_lt_mul (by decide : 0 < randMax)]
  constructor
  · intro hlt
    have hpos : 0 < g.nbEmpty := Nat.pos_of_ne_zero fun h => by simp [h] at hlt
    exact ⟨hpos, (Nat.lt_of_mul_lt_mul_left hlt).ne⟩
  · rintro ⟨hpos, hne⟩
    exact Nat.mul_lt_mul_of_pos_left (lt_of_le_of_ne hr hne) hpos

theorem tileNumber_valNew (r : RandomValue) :
    tileNumber (valNew r) = if 5 * r.val > 4 * randMax then 4 else 2 := by
  rw [valNew]
  split_ifs <;> rfl

theorem valNew_pos (r : RandomValue) : 0 < valNew r := by
  rw [valNew]
  split_ifs <;> decide

/-- **What `add_tile` does**: an empty cell gets a tile, unless `randomf` is `1`. -/
theorem addTile_spec (first second : RandomValue) :
    (first.val = randMax ∨ g.nbEmpty = 0) ∧ (g.addTile first second).1 = g ∨
      first.val ≠ randMax ∧ ∃ i ∈ g.cells, g.tileValues i = -1 ∧ (g.addTile first second).1 =
        { g with tileValues := Function.update g.tileValues i (valNew second) } := by
  have hcount : g.nbEmpty = (g.cells.filter fun i => g.tileValues i = -1).length :=
    List.countP_eq_length_filter
  have hvalues : placeTile (g.nNew first) (valNew second) g.cells 0 g.tileValues = _ :=
    placeTile_eq (Nat.zero_le _)
  rw [Nat.sub_zero] at hvalues
  by_cases hlt : g.nNew first < g.nbEmpty
  · obtain ⟨hpos, hne⟩ := nNew_lt_iff.mp hlt
    rw [List.getElem?_eq_getElem (hcount ▸ hlt)] at hvalues
    have hmem := List.mem_filter.mp (List.getElem_mem (hcount ▸ hlt))
    exact .inr ⟨hne, _, hmem.1, of_decide_eq_true hmem.2, by rw [addTile, hvalues]; rfl⟩
  · rw [List.getElem?_eq_none (by omega)] at hvalues
    refine .inl ⟨?_, by rw [addTile, hvalues]; rfl⟩
    by_contra hnot
    rw [not_or] at hnot
    exact hlt (nNew_lt_iff.mpr ⟨Nat.pos_of_ne_zero hnot.2, hnot.1⟩)

theorem IsBoard.addTile (hg : g.IsBoard) (first second : RandomValue) :
    (g.addTile first second).1.IsBoard := by
  rcases g.addTile_spec first second with ⟨-, heq⟩ | ⟨-, i, hi, -, heq⟩
  · rwa [heq]
  · rw [heq]
    intro j hj
    by_cases hji : j = i
    · subst hji
      simpa [IsRow] using Or.inr (valNew_pos second)
    · simpa [Function.update_of_ne hji] using hg j hj

/-- What a new tile adds to the total. -/
theorem total_addTile (first second : RandomValue) :
    (g.addTile first second).1.total =
      g.total + if first.val ≠ randMax ∧ 0 < g.nbEmpty then tileNumber (valNew second) else 0 := by
  rcases g.addTile_spec first second with ⟨hnone, heq⟩ | ⟨hne, i, hi, hempty, heq⟩
  · have hnot : ¬ (first.val ≠ randMax ∧ 0 < g.nbEmpty) := by omega
    rw [heq, if_neg hnot, add_zero]
  · have hpos : 0 < g.nbEmpty := List.countP_pos_iff.mpr ⟨i, hi, by simpa using hempty⟩
    have hsum := sum_update (f := g.tileValues) tileNumber nodup_cells hi (valNew second)
    rw [heq, if_pos ⟨hne, hpos⟩]
    rwa [hempty, show tileNumber (-1) = 0 from rfl, add_zero] at hsum

end Game

end GuiLibrary

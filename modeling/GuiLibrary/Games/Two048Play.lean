import GuiLibrary.Games.Two048Board
import Mathlib.Algebra.Order.BigOperators.Group.List

/-!
# Games of 2048

A game is a sequence of direction keys from a new board on. A key that moves something brings in one
tile, so the total of the numbers tells how many there were. The game is lost when the board is full
and no two neighbours have the same number.

## Main definitions

* `KeyPress`, `Game.press`, `playGame`.
* `Game.Stuck`: the board of a lost game.

## Main results

* `move_of_keys`: the rows and columns after a key.
* `total_of_keys`: the total in the course of a game.
* `lost_of_keys`: when a game is lost.
-/

namespace GuiLibrary

open Lines

/-! ### Games -/

/-- A direction key, with the results that `random` has if it is called. -/
structure KeyPress where
  dirCode : DirCode
  first : RandomValue
  second : RandomValue
deriving DecidableEq, Repr

namespace Game

variable {g : Game}

/-- The game after a direction key. -/
def press (g : Game) (k : KeyPress) : Game := (g.handleDirKey k.dirCode k.first k.second).1

/-- What a key adds to the total. -/
def gain (g : Game) (k : KeyPress) : ℕ :=
  if g.canMove k.dirCode ∧ k.first.val ≠ randMax then
    if 5 * k.second.val > 4 * randMax then 4 else 2
  else 0

/-- What the keys of a game add to the total, one after the other. -/
def gains : Game → List KeyPress → ℕ
  | _, [] => 0
  | g, k :: keys => g.gain k + (g.press k).gains keys

theorem IsBoard.handleDirKey_eq (hg : g.IsBoard) (d : DirCode) (first second : RandomValue) :
    g.handleDirKey d first second =
      if g.canMove d then (g.moved d).addTile first second else (g, false) := by
  have hvalues : ¬ g.canMove d = true → (g.moved d).tileValues = g.tileValues := fun hnot =>
    not_not.mp (mt (hg.canMove_iff d).mpr hnot)
  rw [handleDirKey, hg.move_key, ← hg.canMove_eq]
  split_ifs with hmove
  · rfl
  · rw [hvalues hmove]

theorem IsBoard.press (hg : g.IsBoard) (k : KeyPress) : (g.press k).IsBoard := by
  rw [Game.press, hg.handleDirKey_eq]
  split_ifs
  · exact (hg.moved _).addTile _ _
  · exact hg

/-- **A key adds one tile**, or nothing. -/
theorem IsBoard.total_press (hg : g.IsBoard) (k : KeyPress) :
    (g.press k).total = g.total + g.gain k := by
  rw [Game.press, hg.handleDirKey_eq, gain]
  by_cases hmove : g.canMove k.dirCode = true
  · obtain ⟨i, hi, hempty⟩ := hg.exists_empty_moved hmove
    have hpos : 0 < (g.moved k.dirCode).nbEmpty :=
      List.countP_pos_iff.mpr ⟨i, hi, by simpa using hempty⟩
    rw [if_pos hmove, total_addTile, hg.total_moved, tileNumber_valNew]
    simp [hmove, hpos]
  · simp [hmove]

theorem IsBoard.foldl_press (hg : g.IsBoard) (keys : List KeyPress) :
    (keys.foldl Game.press g).IsBoard ∧
      (keys.foldl Game.press g).total = g.total + g.gains keys := by
  induction keys generalizing g with
  | nil => exact ⟨hg, rfl⟩
  | cons k keys ih =>
    obtain ⟨hboard, htotal⟩ := ih (hg.press k)
    exact ⟨hboard, htotal.trans (by rw [hg.total_press, gains, add_assoc])⟩

theorem gains_le (keys : List KeyPress) : g.gains keys ≤ 4 * keys.length := by
  induction keys generalizing g with
  | nil => exact le_rfl
  | cons k keys ih =>
    have hgain : g.gain k ≤ 4 := by
      rw [gain]
      split_ifs <;> omega
    have hrest := ih (g := g.press k)
    rw [gains, List.length_cons]
    omega

theorem tileNumber_le_total {i : ℤ} (hi : i ∈ g.cells) : tileNumber (g.tileValues i) ≤ g.total :=
  List.single_le_sum (fun _ _ => Nat.zero_le _) _ (List.mem_map_of_mem hi)

end Game

/-! ### Lost games -/

namespace Game

variable {g : Game}

/-- The board is full and no two neighbours have the same number. -/
structure Stuck (g : Game) : Prop where
  full : ∀ i ∈ g.cells, g.tileValues i ≠ -1
  vertical : ∀ x < g.nbTileX, ∀ y, y + 1 < g.nbTileY →
    g.tileValues (g.cell x y) ≠ g.tileValues (g.cell x (y + 1))
  horizontal : ∀ y < g.nbTileY, ∀ x, x + 1 < g.nbTileX →
    g.tileValues (g.cell x y) ≠ g.tileValues (g.cell (x + 1) y)

theorem isChain_map_range {n : ℕ} {f : ℕ → ℤ} :
    ((List.range n).map f).IsChain (· ≠ ·) ↔ ∀ i, i + 1 < n → f i ≠ f (i + 1) := by
  simp [List.isChain_iff_getElem]

theorem IsBoard.canMove_eq_false_iff (hg : g.IsBoard) {d : DirCode} :
    g.canMove d = false ↔
      ∀ line ∈ g.sides d, slideRow (line.map g.tileValues) = line.map g.tileValues := by
  simp [hg.canMove_eq, someChange]

/-- No key moves anything exactly when every row and column is stuck. -/
theorem IsBoard.forall_canMove_eq_false (hg : g.IsBoard) :
    (∀ d, g.canMove d = false) ↔
      (∀ x < g.nbTileX, IsStuckRow ((g.column x).map g.tileValues)) ∧
        ∀ y < g.nbTileY, IsStuckRow ((g.row y).map g.tileValues) := by
  have hcolumn : ∀ x < g.nbTileX, IsRow ((g.column x).map g.tileValues) := fun x hx =>
    hg.isRow (d := .up) (List.mem_map_of_mem (List.mem_range.mpr hx))
  have hrow : ∀ y < g.nbTileY, IsRow ((g.row y).map g.tileValues) := fun y hy =>
    hg.isRow (d := .left) (List.mem_map_of_mem (List.mem_range.mpr hy))
  have hcodes : ∀ P : DirCode → Prop, (∀ d, P d) ↔ (P .up ∧ P .down) ∧ P .left ∧ P .right :=
    fun P => ⟨fun h => ⟨⟨h _, h _⟩, h _, h _⟩, fun h d => by cases d <;> tauto⟩
  rw [hcodes]
  simp only [hg.canMove_eq_false_iff, sides, List.mem_map, List.mem_range,
    forall_exists_index, and_imp, forall_apply_eq_imp_iff₂, List.map_reverse]
  refine and_congr ⟨fun h x hx => ?_, fun h => ?_⟩ ⟨fun h y hy => ?_, fun h => ?_⟩
  · exact (hcolumn x hx).isStuckRow_iff.mpr ⟨h.1 x hx, h.2 x hx⟩
  · exact ⟨fun x hx => ((hcolumn x hx).isStuckRow_iff.mp (h x hx)).1,
      fun x hx => ((hcolumn x hx).isStuckRow_iff.mp (h x hx)).2⟩
  · exact (hrow y hy).isStuckRow_iff.mpr ⟨h.1 y hy, h.2 y hy⟩
  · exact ⟨fun y hy => ((hrow y hy).isStuckRow_iff.mp (h y hy)).1,
      fun y hy => ((hrow y hy).isStuckRow_iff.mp (h y hy)).2⟩

theorem mem_map_column {x : ℕ} {v : ℤ} :
    v ∈ (g.column x).map g.tileValues ↔ ∃ y < g.nbTileY, g.tileValues (g.cell x y) = v := by
  simp [column]

theorem mem_map_row {y : ℕ} {v : ℤ} :
    v ∈ (g.row y).map g.tileValues ↔ ∃ x < g.nbTileX, g.tileValues (g.cell x y) = v := by
  simp [row]

/-- **No key moves anything** exactly when there is no tile, or when the board is stuck. -/
theorem IsBoard.forall_canMove_eq_false_iff (hg : g.IsBoard) :
    (∀ d, g.canMove d = false) ↔ (∀ i ∈ g.cells, g.tileValues i = -1) ∨ g.Stuck := by
  rw [hg.forall_canMove_eq_false]
  constructor
  · rintro ⟨hcolumns, hrows⟩
    by_cases hempty : ∀ i ∈ g.cells, g.tileValues i = -1
    · exact .inl hempty
    -- One tile fills its column, whose tiles fill all the rows, whose tiles fill all the columns.
    push Not at hempty
    obtain ⟨i, hi, htile⟩ := hempty
    obtain ⟨x₀, hx₀, y₀, hy₀, rfl⟩ := mem_cells.mp hi
    have hcolumn := ((hcolumns x₀ hx₀).resolve_left fun h =>
      htile (h _ (mem_map_column.mpr ⟨y₀, hy₀, rfl⟩))).1
    have hfullRow : ∀ y < g.nbTileY, (∀ v ∈ (g.row y).map g.tileValues, v ≠ -1) ∧ _ := fun y hy =>
      (hrows y hy).resolve_left fun h => hcolumn _ (mem_map_column.mpr ⟨y, hy, rfl⟩)
        (h _ (mem_map_row.mpr ⟨x₀, hx₀, rfl⟩))
    have hfullColumn : ∀ x < g.nbTileX, (∀ v ∈ (g.column x).map g.tileValues, v ≠ -1) ∧ _ :=
      fun x hx => (hcolumns x hx).resolve_left fun h => (hfullRow y₀ hy₀).1 _
        (mem_map_row.mpr ⟨x, hx, rfl⟩) (h _ (mem_map_column.mpr ⟨y₀, hy₀, rfl⟩))
    refine .inr ⟨fun i hi => ?_, fun x hx => ?_, fun y hy => ?_⟩
    · obtain ⟨x, hx, y, hy, rfl⟩ := mem_cells.mp hi
      exact (hfullRow y hy).1 _ (mem_map_row.mpr ⟨x, hx, rfl⟩)
    · have hchain := (hfullColumn x hx).2
      rwa [column, List.map_map, isChain_map_range] at hchain
    · have hchain := (hfullRow y hy).2
      rwa [row, List.map_map, isChain_map_range] at hchain
  · rintro (hempty | hstuck)
    · refine ⟨fun x hx => .inl fun v hv => ?_, fun y hy => .inl fun v hv => ?_⟩
      · obtain ⟨y, hy, rfl⟩ := mem_map_column.mp hv
        exact hempty _ (mem_cells.mpr ⟨x, hx, y, hy, rfl⟩)
      · obtain ⟨x, hx, rfl⟩ := mem_map_row.mp hv
        exact hempty _ (mem_cells.mpr ⟨x, hx, y, hy, rfl⟩)
    · refine ⟨fun x hx => .inr ⟨fun v hv => ?_, ?_⟩, fun y hy => .inr ⟨fun v hv => ?_, ?_⟩⟩
      · obtain ⟨y, hy, rfl⟩ := mem_map_column.mp hv
        exact hstuck.full _ (mem_cells.mpr ⟨x, hx, y, hy, rfl⟩)
      · rw [column, List.map_map, isChain_map_range]
        exact hstuck.vertical x hx
      · obtain ⟨x, hx, rfl⟩ := mem_map_row.mp hv
        exact hstuck.full _ (mem_cells.mpr ⟨x, hx, y, hy, rfl⟩)
      · rw [row, List.map_map, isChain_map_range]
        exact hstuck.horizontal y hy

/-- The total of a board without tiles. -/
theorem total_eq_zero_iff : g.total = 0 ↔ ∀ i ∈ g.cells, g.tileValues i = -1 := by
  have hzero : ∀ v, tileNumber v = 0 ↔ v = -1 := fun v => by
    rw [tileNumber]
    split_ifs with hv <;> simp [hv]
  simp [total, List.sum_eq_zero_iff, hzero]

/-- A lost game stays as it is. -/
theorem IsBoard.press_of_stuck (hg : g.IsBoard) (h : g.Stuck) (k : KeyPress) : g.press k = g := by
  have hmove := hg.forall_canMove_eq_false_iff.mpr (.inr h) k.dirCode
  rw [Game.press, hg.handleDirKey_eq, hmove]
  rfl

theorem addTile_lost_iff (first second : RandomValue) :
    (g.addTile first second).2 = true ↔ ∀ d, (g.addTile first second).1.canMove d = false := by
  rw [Game.addTile, Bool.not_eq_true', List.any_eq_false]
  exact ⟨fun h d => by simpa using h d d.mem_codes, fun h d _ => by simp [h d]⟩

/-- **When a key loses the game**: it has moved something, and the board is stuck afterwards. -/
theorem IsBoard.lost_iff (hg : g.IsBoard) (k : KeyPress) :
    (g.handleDirKey k.dirCode k.first k.second).2 = true ↔
      g.canMove k.dirCode = true ∧ (g.press k).Stuck := by
  have hafter := (hg.press k).forall_canMove_eq_false_iff
  have htotal := hg.total_press k
  rw [Game.press, hg.handleDirKey_eq] at *
  by_cases hmove : g.canMove k.dirCode = true
  · rw [if_pos hmove] at *
    have hsome : ¬ ∀ i ∈ g.cells, g.tileValues i = -1 := fun hempty => by
      have hfalse := hg.forall_canMove_eq_false_iff.mpr (.inl hempty) k.dirCode
      rw [hmove] at hfalse
      cases hfalse
    have hsome' : ¬ ∀ i ∈ ((g.moved k.dirCode).addTile k.first k.second).1.cells,
        ((g.moved k.dirCode).addTile k.first k.second).1.tileValues i = -1 := by
      rw [← total_eq_zero_iff] at hsome ⊢
      omega
    rw [or_iff_right hsome'] at hafter
    rw [addTile_lost_iff, hafter, and_iff_right hmove]
  · simp [hmove]

end Game

section NewGame

variable (nbTileX nbTileY : ℕ) (memory : ℤ → ℤ) (first second : RandomValue)

/-- A game after some keys. -/
def playGame (keys : List KeyPress) : Game :=
  keys.foldl Game.press (newGame nbTileX nbTileY memory first second).1

/-- The board of a new game before the first tile. -/
theorem newGame_eq :
    ∃ g : Game, g.nbTileX = nbTileX ∧ g.nbTileY = nbTileY ∧ (∀ i ∈ g.cells, g.tileValues i = -1) ∧
      newGame nbTileX nbTileY memory first second = g.addTile first second := by
  refine ⟨_, rfl, rfl, fun i hi => ?_, rfl⟩
  have hcells : (⟨nbTileX, nbTileY, memory⟩ : Game).cells.Nodup := Game.nodup_cells
  have hmap : (⟨nbTileX, nbTileY, memory⟩ : Game).cells.map (rewriteLine (-1) _ [] memory) = _ :=
    map_rewriteLine hcells (Nat.zero_le _)
  rw [rewriteLine_nil] at hmap
  exact List.eq_of_mem_replicate (hmap ▸ List.mem_map_of_mem hi)

theorem newGame_isBoard : (newGame nbTileX nbTileY memory first second).1.IsBoard := by
  obtain ⟨g, -, -, hempty, heq⟩ := newGame_eq nbTileX nbTileY memory first second
  rw [heq]
  refine Game.IsBoard.addTile (fun i hi => ?_) first second
  simp [IsRow, hempty i hi]

theorem total_newGame_le : (newGame nbTileX nbTileY memory first second).1.total ≤ 4 := by
  obtain ⟨g, -, -, hempty, heq⟩ := newGame_eq nbTileX nbTileY memory first second
  have htotal := Game.total_addTile (g := g) first second
  rw [Game.total_eq_zero_iff.mpr hempty, ← heq, Game.tileNumber_valNew] at htotal
  split_ifs at htotal <;> omega

theorem playGame_isBoard (keys : List KeyPress) :
    (playGame nbTileX nbTileY memory first second keys).IsBoard :=
  ((newGame_isBoard nbTileX nbTileY memory first second).foldl_press keys).1

/-- **The rows after a key.** Each row or column, read from the side to which the key moves it,
becomes what the rule says of its own former contents. The key reports a move exactly when the board
changes, and so does the test, which leaves the board as it is. -/
theorem move_of_keys (keys : List KeyPress) (d : DirCode) :
    let g := playGame nbTileX nbTileY memory first second keys
    (∀ line ∈ g.sides d, line.map (g.move d false).1 = slideRow (line.map g.tileValues)) ∧
      (∀ i ∉ g.cells, (g.move d false).1 i = g.tileValues i) ∧
      ((g.move d false).2 = true ↔ (g.move d false).1 ≠ g.tileValues) ∧
      g.move d true = (g.tileValues, (g.move d false).2) := by
  intro g
  have hg : g.IsBoard := playGame_isBoard nbTileX nbTileY memory first second keys
  rw [hg.move_key, hg.move_testing, ← hg.canMove_eq]
  refine ⟨fun line hline => Game.map_moved hline, fun i hi => ?_, hg.canMove_iff d, rfl⟩
  exact rewriteAll_of_notMem (mt Game.mem_flatten_sides.mp hi)

/-- **The total in the course of a game.** Each key that moves something brings in a tile with 2 or
4 (none, when `randomf` is `1`), and nothing else changes the total. A cell is empty or has a
positive value. A number on the board is at most four times the number of keys and the first tile,
so that the 14 colours are enough for 4094 keys. -/
theorem total_of_keys (keys : List KeyPress) :
    let g := (newGame nbTileX nbTileY memory first second).1
    let g' := playGame nbTileX nbTileY memory first second keys
    g'.total = g.total + g.gains keys ∧
      (∀ i ∈ g'.cells, g'.tileValues i = -1 ∨ 0 < g'.tileValues i) ∧
      (∀ i ∈ g'.cells, tileNumber (g'.tileValues i) ≤ 4 * (keys.length + 1)) ∧
        (keys.length ≤ 4094 → ∀ i ∈ g'.cells, g'.tileValues i < 14) := by
  intro g g'
  have htotal : g'.total = g.total + g.gains keys :=
    ((newGame_isBoard nbTileX nbTileY memory first second).foldl_press keys).2
  have hnumber : ∀ i ∈ g'.cells, tileNumber (g'.tileValues i) ≤ 4 * (keys.length + 1) := by
    intro i hi
    have hle := Game.tileNumber_le_total hi
    have hfirst : g.total ≤ 4 := total_newGame_le nbTileX nbTileY memory first second
    have hgains := Game.gains_le (g := g) keys
    omega
  have hvalue : ∀ i ∈ g'.cells, g'.tileValues i = -1 ∨ 0 < g'.tileValues i := fun i hi =>
    playGame_isBoard nbTileX nbTileY memory first second keys i hi _ (List.mem_singleton_self _)
  refine ⟨htotal, hvalue, hnumber, fun hkeys i hi => ?_⟩
  by_contra hge
  have hpow : (2 : ℕ) ^ 14 ≤ tileNumber (g'.tileValues i) := by
    rw [tileNumber, if_neg (by omega)]
    exact Nat.pow_le_pow_right (by decide) (by omega)
  have hle := hnumber i hi
  omega

/-- **A key loses the game** exactly when it moves something and leaves a full board on which no two
neighbours have the same number. No key changes the board any more then. -/
theorem lost_of_keys (keys : List KeyPress) (k : KeyPress) :
    let g := playGame nbTileX nbTileY memory first second keys
    ((g.handleDirKey k.dirCode k.first k.second).2 = true ↔
        (g.move k.dirCode false).1 ≠ g.tileValues ∧ (g.press k).Stuck) ∧
      ((g.press k).Stuck →
        ∀ more : List KeyPress, more.foldl Game.press (g.press k) = g.press k) := by
  intro g
  have hg : g.IsBoard := playGame_isBoard nbTileX nbTileY memory first second keys
  refine ⟨by rw [hg.lost_iff, hg.canMove_iff, hg.move_key], fun hstuck more => ?_⟩
  induction more with
  | nil => rfl
  | cons k' more ih => rw [List.foldl_cons, (hg.press k).press_of_stuck hstuck, ih]

end NewGame

end GuiLibrary

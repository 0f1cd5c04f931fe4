import Mathlib.Algebra.BigOperators.Group.List.Basic
import Mathlib.Data.List.Nodup
import Mathlib.Logic.Function.Basic

/-!
# Rewriting the lines of a board

A board is a function on its cells, and a line is a list of cells. A line is rewritten with new
contents, cell by cell. When the lines have no cell in common, the lines of a board can be rewritten
one after the other, each by a function of its contents: every line is then as if it had been
rewritten alone.

## Main definitions

* `rewriteLine`, `rewriteAll`.

## Main results

* `map_rewriteAll`: the contents of each line. `sum_rewriteAll`: a weight that every line keeps.
* `rewriteAll_ne_iff`: the board changes when a line does.
-/

namespace Lines

variable {ι V : Type*} [DecidableEq ι]

/-- Writes the contents along the line; a cell without contents gets `empty`. -/
def rewriteLine (empty : V) : List ι → List V → (ι → V) → ι → V
  | [], _, f => f
  | i :: line, contents, f =>
      rewriteLine empty line contents.tail (Function.update f i (contents.headD empty))

/-- Rewrites the lines one after the other, each by `rule`. -/
def rewriteAll (empty : V) (rule : List V → List V) (lines : List (List ι)) (f : ι → V) : ι → V :=
  lines.foldl (fun f line => rewriteLine empty line (rule (line.map f)) f) f

section Line

variable {empty : V} {line : List ι} {contents : List V} {f : ι → V} {i : ι}

/-- A cell outside of the line keeps its contents. -/
theorem rewriteLine_of_notMem (hi : i ∉ line) : rewriteLine empty line contents f i = f i := by
  induction line generalizing contents f with
  | nil => rfl
  | cons j line ih =>
    rw [List.mem_cons, not_or] at hi
    rw [rewriteLine, ih hi.2, Function.update_of_ne hi.1]

theorem map_rewriteLine_of_disjoint {other : List ι} (hother : ∀ i ∈ other, i ∉ line) :
    other.map (rewriteLine empty line contents f) = other.map f :=
  List.map_congr_left fun i hi => rewriteLine_of_notMem (hother i hi)

/-- The line has the contents, and is filled up. -/
theorem map_rewriteLine (hline : line.Nodup) (hlen : contents.length ≤ line.length) :
    line.map (rewriteLine empty line contents f) =
      contents ++ List.replicate (line.length - contents.length) empty := by
  induction line generalizing contents f with
  | nil => simpa using hlen
  | cons j line ih =>
    obtain ⟨hj, hline⟩ := List.nodup_cons.mp hline
    rw [rewriteLine, List.map_cons, rewriteLine_of_notMem hj, Function.update_self]
    cases contents with
    | nil =>
      rw [List.tail_nil, ih hline (Nat.zero_le _)]
      simp [List.replicate_succ]
    | cons v contents =>
      rw [List.tail_cons, ih hline (Nat.le_of_succ_le_succ hlen)]
      simp

/-- Filling up the contents makes no difference. -/
theorem rewriteLine_append_replicate (n : ℕ) :
    rewriteLine empty line (contents ++ List.replicate n empty) f =
      rewriteLine empty line contents f := by
  induction line generalizing contents f n with
  | nil => rfl
  | cons j line ih =>
    rw [rewriteLine, rewriteLine]
    cases contents with
    | nil =>
      have hhead : (List.replicate n empty).headD empty = empty := by cases n <;> rfl
      rw [List.nil_append, hhead, List.tail_replicate,
        ← List.nil_append (List.replicate (n - 1) empty), ih]
      rfl
    | cons v contents => exact ih n

/-- Without contents the line is emptied. -/
theorem rewriteLine_nil :
    rewriteLine empty line [] f = line.foldl (fun f i => Function.update f i empty) f := by
  induction line generalizing f with
  | nil => rfl
  | cons j line ih => exact ih

/-- Changing one cell changes the sum by the difference. -/
theorem sum_update {M : Type*} [AddCommMonoid M] (weight : V → M) (hline : line.Nodup)
    (hi : i ∈ line) (v : V) :
    (line.map fun j => weight (Function.update f i v j)).sum + weight (f i) =
      (line.map fun j => weight (f j)).sum + weight v := by
  induction line with
  | nil => simp at hi
  | cons j line ih =>
    obtain ⟨hj, hline⟩ := List.nodup_cons.mp hline
    simp only [List.map_cons, List.sum_cons]
    rcases List.mem_cons.mp hi with rfl | hmem
    · have hrest : line.map (fun j => weight (Function.update f i v j)) =
          line.map fun j => weight (f j) := List.map_congr_left fun k hk => by
        have hne : k ≠ i := fun heq => hj (heq ▸ hk)
        rw [Function.update_of_ne hne]
      rw [Function.update_self, hrest, add_comm (weight v), add_right_comm, add_comm (weight (f i))]
    · have hne : j ≠ i := fun heq => hj (heq ▸ hmem)
      rw [Function.update_of_ne hne, add_assoc, ih hline hmem, add_assoc]

end Line

section All

variable {empty : V} {rule : List V → List V} {lines : List (List ι)} {f : ι → V}

theorem rewriteAll_of_notMem {i : ι} (hi : i ∉ lines.flatten) :
    rewriteAll empty rule lines f i = f i := by
  induction lines generalizing f with
  | nil => rfl
  | cons line lines ih =>
    rw [List.flatten_cons, List.mem_append, not_or] at hi
    rw [rewriteAll, List.foldl_cons]
    exact (ih hi.2).trans (rewriteLine_of_notMem hi.1)

/-- **Each line is rewritten by the rule**, when no two lines have a cell in common. -/
theorem map_rewriteAll (hlines : lines.flatten.Nodup) (hrule : ∀ l, (rule l).length = l.length)
    {line : List ι} (hline : line ∈ lines) :
    line.map (rewriteAll empty rule lines f) = rule (line.map f) := by
  induction lines generalizing f with
  | nil => simp at hline
  | cons first lines ih =>
    rw [List.flatten_cons, List.nodup_append] at hlines
    obtain ⟨hfirst, hrest, hdisjoint⟩ := hlines
    rw [rewriteAll, List.foldl_cons]
    rcases List.mem_cons.mp hline with rfl | hline
    · have hout : ∀ i ∈ line, i ∉ lines.flatten := fun i hi hmem => hdisjoint i hi i hmem rfl
      have hlen : (rule (line.map f)).length = line.length := by rw [hrule, List.length_map]
      refine (List.map_congr_left fun i hi => rewriteAll_of_notMem (hout i hi)).trans ?_
      rw [map_rewriteLine hfirst (Nat.le_of_eq hlen), hlen, Nat.sub_self, List.replicate_zero,
        List.append_nil]
    · refine (ih hrest hline).trans ?_
      rw [map_rewriteLine_of_disjoint fun i hi hmem => ?_]
      exact hdisjoint i hmem i (List.mem_flatten_of_mem hline hi) rfl

/-- A weight that the rule keeps on every line is kept on the board. -/
theorem sum_rewriteAll {M : Type*} [AddCommMonoid M] {weight : V → M} (hlines : lines.flatten.Nodup)
    (hrule : ∀ l, (rule l).length = l.length)
    (hweight : ∀ line ∈ lines,
      ((rule (line.map f)).map weight).sum = ((line.map f).map weight).sum) :
    (lines.flatten.map fun i => weight (rewriteAll empty rule lines f i)).sum =
      (lines.flatten.map fun i => weight (f i)).sum := by
  rw [List.map_flatten, List.map_flatten, List.sum_flatten, List.sum_flatten, List.map_map,
    List.map_map]
  congr 1
  refine List.map_congr_left fun line hline => ?_
  have heq : line.map (rewriteAll empty rule lines f) = _ := map_rewriteAll hlines hrule hline
  have hsum := hweight line hline
  rw [← heq, List.map_map, List.map_map] at hsum
  exact hsum

/-- The board changes exactly when some line does. -/
theorem rewriteAll_ne_iff (hlines : lines.flatten.Nodup) (hrule : ∀ l, (rule l).length = l.length) :
    rewriteAll empty rule lines f ≠ f ↔ ∃ line ∈ lines, rule (line.map f) ≠ line.map f := by
  rw [← not_iff_not, not_not]
  push Not
  constructor
  · intro heq line hline
    have hmap : line.map (rewriteAll empty rule lines f) = _ := map_rewriteAll hlines hrule hline
    rw [← hmap, heq]
  · intro hsame
    funext i
    by_cases hi : i ∈ lines.flatten
    · obtain ⟨line, hline, hi⟩ := List.mem_flatten.mp hi
      have heq : line.map (rewriteAll empty rule lines f) = _ :=
        map_rewriteAll hlines hrule hline
      rw [hsame line hline] at heq
      exact List.map_inj_left.mp heq i hi
    · exact rewriteAll_of_notMem hi

end All

end Lines

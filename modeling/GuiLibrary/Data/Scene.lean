import GuiLibrary.Data.Effect
import GuiLibrary.Data.Forest
import Mathlib.Data.Set.Operations

/-!
# Pictures of scenes

A scene says what each node of a forest makes of a picture, whether the node is shown at all, and
in which area what is below the node is shown. The picture of a forest at a position is painted
node by node, parents before children and siblings in order: a node that is not shown hides what is
below it, and so does a node whose area does not contain the position.

Two scenes on two forests have the same picture at a position when they differ only in nodes that
are blank there: nodes that are not shown, or neither paint the position nor show anything below
themselves there. Blank nodes may change, come, go and move among their siblings.

## Main definitions

* `Scene`, `Scene.picture`.
* `Scene.Blank`, `Scene.SameAt`.

## Main results

* `Scene.picture_prune`: blank nodes may be left out, with what is below them.
* `Scene.picture_eq`: when two pictures agree at a position.
* `Scene.hides_picture`: a first node that hides the old value.
-/

namespace Pictures

open Cells

/-- What each node paints, whether it is shown, and the area where its children are shown. -/
structure Scene (ι X V : Type*) where
  shown : ι → Prop
  area : ι → Set X
  effect : ι → Effect X V

namespace Scene

variable {ι X V : Type*}

open Classical in
/-- **The picture of a forest**: what its nodes make of the old value at a position. -/
noncomputable def picture (S : Scene ι X V) (x : X) : Forest ι → V → V
  | .nil => id
  | .cons q kids rest => S.picture x rest ∘
      if S.shown q then (if x ∈ S.area q then S.picture x kids else id) ∘ S.effect q x else id

/-- Nothing of the node and of what is below it shows at the position. -/
def Blank (S : Scene ι X V) (x : X) (q : ι) : Prop :=
  S.shown q → S.effect q x = id ∧ x ∉ S.area q

/-- The node shows the same at the position. -/
structure SameAt (S S' : Scene ι X V) (x : X) (q : ι) : Prop where
  shown : S'.shown q ↔ S.shown q
  area : x ∈ S'.area q ↔ x ∈ S.area q
  effect : S'.effect q x = S.effect q x

variable {S S' : Scene ι X V} {x : X} {q : ι} {f f' kids rest : Forest ι}

@[simp] theorem picture_nil : S.picture x .nil = id := rfl

theorem picture_cons_of_blank (h : S.Blank x q) :
    S.picture x (.cons q kids rest) = S.picture x rest := by
  rw [picture]
  split_ifs with hshown harea
  · exact absurd harea (h hshown).2
  · rw [(h hshown).1]
    rfl
  · rfl

/-- **Blank nodes may be left out**, with what is below them. -/
theorem picture_prune {keep : ι → Prop} [DecidablePred keep]
    (h : ∀ q ∈ f.nodes, ¬ keep q → S.Blank x q) : S.picture x (f.prune keep) = S.picture x f := by
  induction f with
  | nil => rfl
  | cons q kids rest ihk ihr =>
    simp only [Forest.nodes_cons, List.forall_mem_cons, List.forall_mem_append] at h
    obtain ⟨hq, hkids, hrest⟩ := h
    rw [Forest.prune]
    split_ifs with hkeep
    · rw [picture, picture, ihk hkids, ihr hrest]
    · rw [picture_cons_of_blank (hq hkeep), ihr hrest]

/-- Scenes whose nodes show the same, or are blank in both, have the same picture. -/
theorem picture_congr (h : ∀ q ∈ f.nodes, SameAt S S' x q ∨ S.Blank x q ∧ S'.Blank x q) :
    S'.picture x f = S.picture x f := by
  classical
  induction f with
  | nil => rfl
  | cons q kids rest ihk ihr =>
    simp only [Forest.nodes_cons, List.forall_mem_cons, List.forall_mem_append] at h
    obtain ⟨hq, hkids, hrest⟩ := h
    rcases hq with hsame | ⟨hblank, hblank'⟩
    · rw [picture, picture, ihk hkids, ihr hrest, hsame.effect]
      exact congrArg _ (if_congr hsame.shown (congrArg (· ∘ _) (if_congr hsame.area rfl rfl)) rfl)
    · rw [picture_cons_of_blank hblank, picture_cons_of_blank hblank', ihr hrest]

/-- **When two pictures agree at a position**: the forests are the same but for nodes that are
blank there, and the other nodes show the same. -/
theorem picture_eq {keep : ι → Prop} [DecidablePred keep] (hf : f'.prune keep = f.prune keep)
    (hout : ∀ q ∈ f.nodes, ¬ keep q → S.Blank x q)
    (hout' : ∀ q ∈ f'.nodes, ¬ keep q → S'.Blank x q)
    (hkept : ∀ q ∈ f.nodes, keep q → SameAt S S' x q ∨ S.Blank x q ∧ S'.Blank x q) :
    S'.picture x f' = S.picture x f := by
  rw [← picture_prune hout', ← picture_prune hout, hf]
  exact picture_congr fun q hq =>
    hkept q (Forest.mem_of_mem_prune hq).1 (Forest.mem_of_mem_prune hq).2

/-- A first node that hides the old value hides it in the picture. -/
theorem hides_picture (hshown : S.shown q) (h : (S.effect q).Hides x) (v v' : V) :
    S.picture x (.cons q kids rest) v = S.picture x (.cons q kids rest) v' := by
  rw [picture, if_pos hshown]
  simp only [Function.comp_apply, h v v']

end Scene

end Pictures

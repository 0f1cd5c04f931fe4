import Mathlib.Algebra.Ring.CharZero
import Mathlib.GroupTheory.Perm.Sign
import Mathlib.Logic.Relation

/-!
# Sliding permutations

An arrangement of tiles on cells is a permutation `σ` of the cells: `σ c` is the home of the tile on
the cell `c`, and the tile whose home is `h` is the hole. A tile slides into the hole when their
cells are adjacent, so that the contents of the two cells are swapped.

Colour the cells with `1` and `-1` such that adjacent cells have opposite colours. A move negates
the sign of the permutation and the colour of the cell of the hole, hence keeps their product. So no
moves swap two tiles and leave all else in place.

## Main definitions

* `Slides`: one move. `charge`: the product that the moves keep.

## Main results

* `charge_of_slides`: the moves keep the charge.
* `not_slides_swap`: two tiles are not swapped.
-/

namespace Sliding

open Equiv

variable {α : Type*} [DecidableEq α] {adj : α → α → Prop} {h : α} {σ τ : Perm α}

/-- The tile of the cell `c` slides into the hole. -/
def Slides (adj : α → α → Prop) (h : α) (σ τ : Perm α) : Prop :=
  ∃ c, adj c (σ.symm h) ∧ τ = σ * swap c (σ.symm h)

/-- After a move the hole is where the tile was. -/
theorem symm_mul_swap (σ : Perm α) (c : α) (h : α) :
    (σ * swap c (σ.symm h)).symm h = c := by
  rw [Equiv.symm_apply_eq, Perm.mul_apply, swap_apply_left, Equiv.apply_symm_apply]

/-- Moves are undone by moves. -/
theorem Slides.symm (hadj : ∀ c d, adj c d → adj d c) (hslides : Slides adj h σ τ) :
    Slides adj h τ σ := by
  obtain ⟨c, hc, rfl⟩ := hslides
  refine ⟨σ.symm h, ?_, ?_⟩
  · rw [symm_mul_swap]
    exact hadj _ _ hc
  · rw [symm_mul_swap, mul_assoc, swap_comm, swap_mul_self, mul_one]

variable [Fintype α] {colour : α → ℤˣ}

/-- The sign of the arrangement and the colour of the cell of the hole. -/
def charge (colour : α → ℤˣ) (h : α) (σ : Perm α) : ℤˣ := Perm.sign σ * colour (σ.symm h)

/-- **A move keeps the charge.** -/
theorem Slides.charge_eq (hcolour : ∀ c d, adj c d → colour c = - colour d)
    (hslides : Slides adj h σ τ) : charge colour h τ = charge colour h σ := by
  obtain ⟨c, hc, rfl⟩ := hslides
  have hcol := hcolour _ _ hc
  have hne : c ≠ σ.symm h := by
    intro heq
    rw [heq] at hcol
    exact units_ne_neg_self _ hcol
  rw [charge, symm_mul_swap, Perm.sign_mul, Perm.sign_swap hne, hcol, charge]
  simp

/-- The moves keep the charge. -/
theorem charge_of_slides (hcolour : ∀ c d, adj c d → colour c = - colour d)
    (hrun : Relation.ReflTransGen (Slides adj h) σ τ) :
    charge colour h τ = charge colour h σ := by
  induction hrun with
  | refl => rfl
  | tail _ hslides ih => rw [hslides.charge_eq hcolour, ih]

/-- **Two tiles are not swapped** by moves that leave everything else in place. -/
theorem not_slides_swap (hcolour : ∀ c d, adj c d → colour c = - colour d) {a b : α} (hab : a ≠ b)
    (ha : σ a ≠ h) (hb : σ b ≠ h) :
    ¬ Relation.ReflTransGen (Slides adj h) σ (σ * swap a b) := by
  intro hrun
  have hhole : (σ * swap a b).symm h = σ.symm h := by
    rw [Equiv.symm_apply_eq, Perm.mul_apply, swap_apply_of_ne_of_ne, Equiv.apply_symm_apply]
    · rintro rfl
      exact ha (Equiv.apply_symm_apply σ h)
    · rintro rfl
      exact hb (Equiv.apply_symm_apply σ h)
  have hcharge := charge_of_slides hcolour hrun
  rw [charge, charge, hhole, Perm.sign_mul, Perm.sign_swap hab, mul_neg, mul_one,
    neg_mul] at hcharge
  exact units_ne_neg_self _ hcharge.symm

end Sliding

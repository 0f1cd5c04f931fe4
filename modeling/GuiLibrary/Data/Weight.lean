import Mathlib.Algebra.Group.Nat.Defs
import Mathlib.Data.Nat.Init
import Mathlib.Tactic.SplitIfs

/-!
# Sets of numbers as binary numbers

The weight of a set of natural numbers below a bound is the number whose binary digits say which of
them are in the set, the least one being the most significant digit. It falls when a number leaves
the set and only greater ones join it, which makes it a measure for work that creates new work
further on only.

## Main definitions

* `weight`.

## Main results

* `weight_mono`, `weight_lt`.
-/

namespace GuiLibrary

open Classical in
/-- The number whose digits, from the most significant one on, say which of `0, …, n - 1` are in the
set. -/
noncomputable def weight : ℕ → (ℕ → Prop) → ℕ
  | 0, _ => 0
  | n + 1, A => (if A 0 then 2 ^ n else 0) + weight n fun q => A (q + 1)

theorem weight_lt_two_pow (n : ℕ) : ∀ A : ℕ → Prop, weight n A < 2 ^ n := by
  induction n with
  | zero => exact fun _ => Nat.one_pos
  | succ n ih =>
    intro A
    have hrest := ih fun q => A (q + 1)
    rw [weight, Nat.pow_succ]
    split_ifs <;> omega

/-- A larger set weighs at least as much. -/
theorem weight_mono {n : ℕ} : ∀ {A B : ℕ → Prop}, (∀ q < n, A q → B q) →
    weight n A ≤ weight n B := by
  induction n with
  | zero => exact fun _ => Nat.le_refl 0
  | succ n ih =>
    intro A B h
    have hrest : weight n (fun q => A (q + 1)) ≤ weight n fun q => B (q + 1) :=
      ih fun q hq => h (q + 1) (Nat.succ_lt_succ hq)
    have hfirst := h 0 (Nat.succ_pos n)
    rw [weight, weight]
    split_ifs with hA hB
    · omega
    · exact absurd (hfirst hA) hB
    · exact Nat.add_le_add (Nat.zero_le _) hrest
    · omega

/-- **The weight falls** when a number leaves the set and only greater ones join it. -/
theorem weight_lt {n p : ℕ} (hp : p < n) : ∀ {A B : ℕ → Prop}, ¬ A p → B p →
    (∀ q < p, A q → B q) → weight n A < weight n B := by
  induction n generalizing p with
  | zero => exact absurd hp (Nat.not_lt_zero p)
  | succ n ih =>
    intro A B hA hB h
    rw [weight, weight]
    cases p with
    | zero =>
      have hrest := weight_lt_two_pow n fun q => A (q + 1)
      rw [if_neg hA, if_pos hB]
      omega
    | succ p =>
      have hrest : weight n (fun q => A (q + 1)) < weight n fun q => B (q + 1) :=
        ih (Nat.lt_of_succ_lt_succ hp) hA hB fun q hq => h (q + 1) (Nat.succ_lt_succ hq)
      have hfirst := h 0 (Nat.succ_pos p)
      split_ifs with hA' hB'
      · omega
      · exact absurd (hfirst hA') hB'
      · exact Nat.add_lt_add_of_le_of_lt (Nat.zero_le _) hrest
      · omega

end GuiLibrary

import GuiLibrary.Data.Memory

/-!
# Cells that are lost

A cell of a record is lost when it is allocated and no slot leads to it: nobody can release it any
more. Writing through a slot and releasing a cell lose nothing; a slot that gets a new cell or is
cleared loses the cell that it had. So the release of all slots restores the heap exactly when
nothing was lost before.

## Main definitions

* `Memory.Lost`, `Memory.Leaks`.

## Main results

* `leaks_malloc_iff`, `leaks_null_iff`, `leaks_store_iff`, `leaks_free_null_iff`,
  `leaks_free_malloc_iff`, `leaks_ensure_iff`, `leaks_assign_iff`: what loses a cell.
* `restores_iff`: the release of all slots.
* `foldlM_iff`: what a run of calls has lost.
-/

namespace Slots

namespace Memory

variable {σ α : Type*} {h₀ : Heap α} {m : Memory σ α} {x : σ} {i : ℕ}

/-! ### Lost cells -/

/-- The cell `i` was allocated after `h₀`, and no slot leads to it. -/
def Lost (h₀ : Heap α) (m : Memory σ α) (i : ℕ) : Prop :=
  h₀.next ≤ i ∧ m.heap.Allocated i ∧ ∀ x, m.slot x ≠ some i

/-- Some cell is lost. -/
def Leaks (h₀ : Heap α) (m : Memory σ α) : Prop := ∃ i, m.Lost h₀ i

theorem not_leaks_start (h₀ : Heap α) : ¬ (⟨h₀, fun _ => none, []⟩ : Memory σ α).Leaks h₀ :=
  fun ⟨_, hle, hi, _⟩ => absurd hi.lt (Nat.not_lt.mpr hle)

theorem leaks_fault_iff (f : Fault) : (m.fault f).Leaks h₀ ↔ m.Leaks h₀ := Iff.rfl

theorem allocated_put_iff {h : Heap α} {j : ℕ} {v : α} (hj : h.Allocated j) :
    (h.put j v).Allocated i ↔ h.Allocated i := by
  by_cases hij : i = j
  · subst hij
    exact iff_of_true (hj.put v) hj
  · rw [Heap.Allocated, h.cell_put_of_ne v hij, Heap.Allocated]

/-- Writing loses nothing. -/
theorem leaks_store_iff {v : α} : (m.store x v).Leaks h₀ ↔ m.Leaks h₀ := by
  refine exists_congr fun i => ?_
  rw [Lost, Lost, slot_store]
  refine and_congr_right fun _ => and_congr_left fun _ => ?_
  rw [store]
  split
  · rfl
  · split_ifs with hj
    · exact allocated_put_iff hj
    · rfl

variable [DecidableEq σ]

theorem lost_null_iff (h : m.Owned h₀) :
    (m.null x).Lost h₀ i ↔ m.Lost h₀ i ∨ m.slot x = some i := by
  constructor
  · rintro ⟨hle, hi, hslot⟩
    refine or_iff_not_imp_right.mpr fun hx => ⟨hle, hi, fun y hy => ?_⟩
    by_cases hyx : y = x
    · exact hx (hyx ▸ hy)
    · exact hslot y ((slot_null_of_ne m hyx).trans hy)
  · rintro (⟨hle, hi, hslot⟩ | hx)
    · refine ⟨hle, hi, fun y hy => ?_⟩
      by_cases hyx : y = x
      · rw [hyx, slot_null_self] at hy
        exact absurd hy (by simp)
      · exact hslot y ((slot_null_of_ne m hyx).symm.trans hy)
    · refine ⟨h.own x i hx, h.allocated x i hx, fun y hy => ?_⟩
      by_cases hyx : y = x
      · rw [hyx, slot_null_self] at hy
        exact absurd hy (by simp)
      · exact hyx (h.alone y x i ((slot_null_of_ne m hyx).symm.trans hy) hx)

/-- A slot that is cleared loses its cell. -/
theorem leaks_null_iff (h : m.Owned h₀) : (m.null x).Leaks h₀ ↔ m.Leaks h₀ ∨ m.slot x ≠ none := by
  rw [Leaks, Leaks, Option.ne_none_iff_exists', ← exists_or]
  exact exists_congr fun i => lost_null_iff h

theorem lost_malloc_iff {v : α} (h : m.Owned h₀) :
    (m.malloc x v).Lost h₀ i ↔ m.Lost h₀ i ∨ m.slot x = some i := by
  have hheap : ∀ j, j ≠ m.heap.next →
      ((m.malloc x v).heap.Allocated j ↔ m.heap.Allocated j) := fun j hj => by
    rw [Heap.Allocated, heap_malloc, m.heap.cell_push_of_ne v hj, Heap.Allocated]
  rw [← lost_null_iff h]
  by_cases hi : i = m.heap.next
  · -- The new cell is in the slot, and was not allocated before.
    subst hi
    refine iff_of_false (fun hlost => hlost.2.2 x (slot_malloc_self m v x)) fun hlost => ?_
    exact absurd hlost.2.1.lt (Nat.lt_irrefl _)
  · refine and_congr_right fun _ => and_congr (hheap i hi) (forall_congr' fun y => ?_)
    by_cases hyx : y = x
    · subst hyx
      rw [slot_malloc_self, slot_null_self]
      exact iff_of_true (fun hy => hi (Option.some.inj hy).symm) (by simp)
    · rw [slot_malloc_of_ne m v hyx, slot_null_of_ne m hyx]

/-- A slot that gets a new cell loses the one that it had. -/
theorem leaks_malloc_iff {v : α} (h : m.Owned h₀) :
    (m.malloc x v).Leaks h₀ ↔ m.Leaks h₀ ∨ m.slot x ≠ none := by
  rw [Leaks, Leaks, Option.ne_none_iff_exists', ← exists_or]
  exact exists_congr fun i => lost_malloc_iff h

/-- Nothing is lost when the cell of a slot is released before the slot is cleared. -/
theorem leaks_free_null_iff (h : m.Owned h₀) : ((m.free x).null x).Leaks h₀ ↔ m.Leaks h₀ := by
  cases hx : m.slot x with
  | none =>
    rw [free_of_none hx, leaks_null_iff h, hx]
    simp
  | some j =>
    rw [free_of_allocated hx (h.allocated x j hx)]
    refine exists_congr fun i => and_congr_right fun _ => ?_
    constructor
    · rintro ⟨hi, hslot⟩
      have hij : i ≠ j := by
        rintro rfl
        exact m.heap.not_allocated_erase i hi
      have hi : m.heap.Allocated i := by
        rwa [Heap.Allocated, heap_null, m.heap.cell_erase_of_ne hij] at hi
      refine ⟨hi, fun y hy => ?_⟩
      by_cases hyx : y = x
      · subst hyx
        exact hij (Option.some.inj (hy.symm.trans hx))
      · exact hslot y ((Function.update_of_ne hyx ..).trans hy)
    · rintro ⟨hi, hslot⟩
      have hij : i ≠ j := fun hij => hslot x (hij ▸ hx)
      refine ⟨hi.erase hij, fun y hy => ?_⟩
      by_cases hyx : y = x
      · rw [hyx, slot_null_self] at hy
        exact absurd hy (by simp)
      · exact hslot y ((Function.update_of_ne hyx ..).symm.trans hy)

theorem leaks_free_malloc_iff {v : α} (h : m.Owned h₀) :
    ((m.free x).malloc x v).Leaks h₀ ↔ m.Leaks h₀ := by
  rw [free_malloc_eq, leaks_malloc_iff (h.free_null x), leaks_free_null_iff h, slot_null_self]
  simp

theorem leaks_ensure_iff {v : α} (h : m.Owned h₀) :
    (m.ensure x v).Leaks h₀ ↔ m.Leaks h₀ := by
  rw [ensure]
  split_ifs with hx
  · rw [leaks_malloc_iff h, hx]
    simp
  · exact leaks_store_iff

theorem leaks_assign_iff {given : Option α} {default : α} (h : m.Owned h₀) :
    (m.assign x given default).Leaks h₀ ↔ m.Leaks h₀ := by
  cases given with
  | some v => exact leaks_store_iff
  | none =>
    rw [assign]
    split_ifs with hx
    · rw [leaks_malloc_iff h, hx]
      simp
    · rfl

/-! ### Releasing all slots -/

omit [DecidableEq σ] in
theorem cell_freeAll_of_ne (xs : List σ) : ∀ {m : Memory σ α}, (∀ x ∈ xs, m.slot x ≠ some i) →
    (m.freeAll xs).heap.cell i = m.heap.cell i := by
  induction xs with
  | nil => exact fun _ => rfl
  | cons x xs ih =>
    intro m hslot
    refine (ih (m := m.free x) fun y hy => ?_).trans ?_
    · rw [slot_free]
      exact hslot y (List.mem_cons_of_mem x hy)
    · rw [free]
      split
      · rfl
      · next j hj =>
        split_ifs
        · refine m.heap.cell_erase_of_ne fun hij => ?_
          exact hslot x List.mem_cons_self (hij ▸ hj)
        · rfl

omit [DecidableEq σ] in
/-- The release of slots leaves the cells of the heap before as they were. -/
theorem Owned.cell_freeAll (h : m.Owned h₀) (xs : List σ) (hi : i < h₀.next) :
    (m.freeAll xs).heap.cell i = h₀.cell i :=
  (cell_freeAll_of_ne xs fun x _ hx => Nat.not_le_of_lt hi (h.own x i hx)).trans (h.frame i hi)

omit [DecidableEq σ] in
/-- **The release of all slots restores the heap** exactly when no cell has been lost. -/
theorem restores_iff {xs : List σ} (hxs : xs.Nodup) (hall : ∀ x, x ∈ xs) (h : m.Owned h₀)
    (hm : m.NoMisuse) : (∀ i, (m.freeAll xs).heap.cell i = h₀.cell i) ↔ ¬ m.Leaks h₀ := by
  obtain ⟨-, hfreed⟩ := noMisuse_freeAll hxs (fun x _ => h.allocated x) h.alone hm
  constructor
  · rintro hrestores ⟨i, hle, hi, hslot⟩
    rw [Heap.Allocated, ← cell_freeAll_of_ne xs fun x _ => hslot x, hrestores i,
      h₀.fresh i hle] at hi
    exact absurd hi (by simp)
  · intro hleaks i
    by_cases hslot : ∃ x, m.slot x = some i
    · obtain ⟨x, hx⟩ := hslot
      rw [h₀.fresh i (h.own x i hx)]
      exact Option.not_isSome_iff_eq_none.mp (hfreed x (hall x) i hx)
    · by_cases hle : h₀.next ≤ i
      · rw [cell_freeAll_of_ne xs fun x _ hx => hslot ⟨x, hx⟩, h₀.fresh i hle]
        refine Option.not_isSome_iff_eq_none.mp fun hi => hleaks ⟨i, hle, hi, ?_⟩
        exact fun x hx => hslot ⟨x, hx⟩
      · exact h.cell_freeAll xs (Nat.lt_of_not_le hle)

end Memory

/-! ### Runs -/

section Runs

variable {M Op : Type*} {step : M → Op → Option M} {K L : M → Prop} {forgets : M → Op → Prop}

/-- When every call adds to `L` exactly by `forgets`, a run ends with `L` exactly when it begins
with it or some call forgets. The invariant is `K`. -/
theorem foldlM_iff
    (hstep : ∀ {m op m'}, K m → step m op = some m' → K m' ∧ (L m' ↔ L m ∨ forgets m op))
    (ops : List Op) : ∀ {m m' : M}, K m → ops.foldlM step m = some m' →
      K m' ∧ (L m' ↔ L m ∨ ∃ pre op post m₁, ops = pre ++ op :: post ∧
        pre.foldlM step m = some m₁ ∧ forgets m₁ op) := by
  induction ops with
  | nil =>
    intro m m' hm hrun
    obtain rfl := Option.some.inj hrun
    exact ⟨hm, by simp⟩
  | cons op ops ih =>
    intro m m' hm hrun
    rw [List.foldlM_cons] at hrun
    obtain ⟨m₁, h₁, hrun⟩ := Option.bind_eq_some_iff.mp hrun
    obtain ⟨hm₁, hiff₁⟩ := hstep hm h₁
    obtain ⟨hm', hiff⟩ := ih hm₁ hrun
    refine ⟨hm', ?_⟩
    rw [hiff, hiff₁, or_assoc]
    refine or_congr_right ⟨?_, ?_⟩
    · rintro (hforgets | ⟨pre, op', post, m₂, rfl, h₂, hforgets⟩)
      · exact ⟨[], op, ops, m, rfl, rfl, hforgets⟩
      · refine ⟨op :: pre, op', post, m₂, rfl, ?_, hforgets⟩
        rw [List.foldlM_cons, h₁]
        exact h₂
    · rintro ⟨pre, op', post, m₂, hops, h₂, hforgets⟩
      cases pre with
      | nil =>
        obtain ⟨rfl, rfl⟩ := List.cons_eq_cons.mp hops
        obtain rfl := Option.some.inj h₂
        exact Or.inl hforgets
      | cons op₁ pre =>
        obtain ⟨rfl, rfl⟩ := List.cons_eq_cons.mp hops
        rw [List.foldlM_cons, h₁] at h₂
        exact Or.inr ⟨pre, op', post, m₂, rfl, h₂, hforgets⟩

end Runs

end Slots

import Mathlib.Logic.Function.Basic
import Mathlib.Data.List.Nodup
import Mathlib.Order.Basic

/-!
# Slots that own cells of a heap

A heap is a partial map from addresses to cells, with the next address to be given: no address is
given twice. A record has slots, each of which is the null pointer or the address of a cell, and
allocates, writes and releases cells through its slots. A memory does not stop at a fault: an
access through a null slot, a write to a cell that is not allocated and a release of such a cell
are logged, and change nothing.

The slots *own* their cells when each of them is null or has an allocated cell to itself. Every
operation keeps this, the release of a cell apart, which must be followed by a new value of the
slot. Some slots of a record always have a cell.

## Main definitions

* `Heap`, `Fault`, `Memory`, with `malloc`, `store`, `free`, `null` and `read`.
* `Memory.ensure`, `Memory.assign`: the usual ways to give a slot a value.
* `Memory.Owned`, `Memory.NoMisuse`.
* `Memory.Kept`: ownership, with the slots that always have a cell.

## Main results

* `Owned.malloc`, `Owned.store`, `Owned.free_malloc`, `Owned.free_null`: what keeps ownership.
* `Owned.read_malloc`, `Owned.read_store`, `Owned.read_free_null`: what is read afterwards.
* `noMisuse_freeAll`: releasing slots, one after the other.
-/

namespace Slots

variable {σ α : Type*}

/-- Cells at addresses that have been given, all of them before `next`. -/
structure Heap (α : Type*) where
  cell : ℕ → Option α
  next : ℕ
  fresh : ∀ i, next ≤ i → cell i = none

/-- The three misuses of a pointer. -/
inductive Fault where
  | null
  | write (i : ℕ)
  | free (i : ℕ)
deriving DecidableEq

namespace Heap

variable (h : Heap α)

/-- The address `i` is that of an allocated cell. -/
def Allocated (i : ℕ) : Prop := (h.cell i).isSome

instance (i : ℕ) : Decidable (h.Allocated i) := inferInstanceAs (Decidable (_ = true))

theorem Allocated.lt {h : Heap α} {i : ℕ} (hi : h.Allocated i) : i < h.next := by
  by_contra hlt
  rw [Allocated, h.fresh i (Nat.not_lt.mp hlt)] at hi
  exact Bool.false_ne_true hi

/-- A new cell. -/
def push (v : α) : Heap α where
  cell := Function.update h.cell h.next (some v)
  next := h.next + 1
  fresh := fun i hi => by
    rw [Function.update_of_ne (by omega)]
    exact h.fresh i (by omega)

/-- A new value in an allocated cell. -/
def put (i : ℕ) (v : α) : Heap α where
  cell := Function.update h.cell i ((h.cell i).map fun _ => v)
  next := h.next
  fresh := fun j hj => by
    by_cases hij : j = i
    · subst hij
      rw [Function.update_self, h.fresh j hj, Option.map_none]
    · rw [Function.update_of_ne hij, h.fresh j hj]

/-- Without the cell. -/
def erase (i : ℕ) : Heap α where
  cell := Function.update h.cell i none
  next := h.next
  fresh := fun j hj => by
    by_cases hij : j = i
    · subst hij
      exact Function.update_self ..
    · rw [Function.update_of_ne hij, h.fresh j hj]

section Cells

variable {h : Heap α} {i : ℕ} {v : α}

@[simp] theorem cell_push_self (h : Heap α) (v : α) : (h.push v).cell h.next = some v :=
  Function.update_self ..

theorem cell_push_of_ne (h : Heap α) (v : α) (hi : i ≠ h.next) : (h.push v).cell i = h.cell i :=
  Function.update_of_ne hi ..

theorem cell_put_self (hi : h.Allocated i) : (h.put i v).cell i = some v := by
  obtain ⟨w, hw⟩ := Option.isSome_iff_exists.mp hi
  exact (Function.update_self ..).trans (by rw [hw, Option.map_some])

theorem cell_put_of_ne (h : Heap α) (v : α) {j : ℕ} (hj : j ≠ i) :
    (h.put i v).cell j = h.cell j := Function.update_of_ne hj ..

@[simp] theorem cell_erase_self (h : Heap α) (i : ℕ) : (h.erase i).cell i = none :=
  Function.update_self ..

theorem cell_erase_of_ne (h : Heap α) {j : ℕ} (hj : j ≠ i) : (h.erase i).cell j = h.cell j :=
  Function.update_of_ne hj ..

theorem Allocated.push (hi : h.Allocated i) (v : α) : (h.push v).Allocated i := by
  rwa [Allocated, h.cell_push_of_ne v (Nat.ne_of_lt hi.lt)]

theorem Allocated.put {j : ℕ} (hj : h.Allocated j) (v : α) : (h.put i v).Allocated j := by
  by_cases hji : j = i
  · subst hji
    rw [Allocated, cell_put_self hj]
    rfl
  · rwa [Allocated, h.cell_put_of_ne v hji]

theorem Allocated.erase {j : ℕ} (hj : h.Allocated j) (hji : j ≠ i) : (h.erase i).Allocated j := by
  rwa [Allocated, h.cell_erase_of_ne hji]

theorem not_allocated_erase (h : Heap α) (i : ℕ) : ¬ (h.erase i).Allocated i := by
  simp [Allocated]

end Cells

end Heap

/-- A heap, the slots of a record and the faults so far. -/
structure Memory (σ α : Type*) where
  heap : Heap α
  slot : σ → Option ℕ
  faults : List Fault

namespace Memory

/-- A fault is logged. -/
def fault (m : Memory σ α) (f : Fault) : Memory σ α := { m with faults := m.faults ++ [f] }

/-- `*slot = v`. -/
def store (m : Memory σ α) (x : σ) (v : α) : Memory σ α :=
  match m.slot x with
  | none => m.fault .null
  | some i => if m.heap.Allocated i then { m with heap := m.heap.put i v } else m.fault (.write i)

/-- `free(slot)`: the slot keeps its value. Releasing the null pointer does nothing. -/
def free (m : Memory σ α) (x : σ) : Memory σ α :=
  match m.slot x with
  | none => m
  | some i => if m.heap.Allocated i then { m with heap := m.heap.erase i } else m.fault (.free i)

/-- Releases the cells of the slots, in this order. -/
def freeAll (m : Memory σ α) (xs : List σ) : Memory σ α := xs.foldl free m

/-- `*slot`, if the slot has a cell. -/
def read (m : Memory σ α) (x : σ) : Option α := (m.slot x).bind m.heap.cell

/-- No cell that was not allocated has been written or released. -/
def NoMisuse (m : Memory σ α) : Prop := ∀ f ∈ m.faults, f = .null

/-- The slots own their cells: each of them is null or has an allocated cell, which no other slot
has and which was not in the heap `h₀`. The cells of this heap are as they were. -/
structure Owned (h₀ : Heap α) (m : Memory σ α) : Prop where
  allocated : ∀ x i, m.slot x = some i → m.heap.Allocated i
  alone : ∀ x y i, m.slot x = some i → m.slot y = some i → x = y
  own : ∀ x i, m.slot x = some i → h₀.next ≤ i
  next : h₀.next ≤ m.heap.next
  frame : ∀ i < h₀.next, m.heap.cell i = h₀.cell i

section Slot

variable {m : Memory σ α} {x : σ} {v : α}

theorem store_of_allocated {i : ℕ} (hx : m.slot x = some i) (hi : m.heap.Allocated i) :
    m.store x v = { m with heap := m.heap.put i v } := by
  simp only [store, hx, if_pos hi]

theorem store_of_none (hx : m.slot x = none) : m.store x v = m.fault .null := by
  simp only [store, hx]

theorem free_of_allocated {i : ℕ} (hx : m.slot x = some i) (hi : m.heap.Allocated i) :
    m.free x = { m with heap := m.heap.erase i } := by
  simp only [free, hx, if_pos hi]

theorem free_of_none (hx : m.slot x = none) : m.free x = m := by
  simp only [free, hx]

@[simp] theorem slot_fault (m : Memory σ α) (f : Fault) : (m.fault f).slot = m.slot := rfl

@[simp] theorem slot_store (m : Memory σ α) (x : σ) (v : α) : (m.store x v).slot = m.slot := by
  rw [store]
  split
  · rfl
  · split_ifs <;> rfl

@[simp] theorem slot_free (m : Memory σ α) (x : σ) : (m.free x).slot = m.slot := by
  rw [free]
  split
  · rfl
  · split_ifs <;> rfl

end Slot

variable [DecidableEq σ]

/-- `slot = malloc(..); *slot = v`. -/
def malloc (m : Memory σ α) (x : σ) (v : α) : Memory σ α :=
  { m with heap := m.heap.push v, slot := Function.update m.slot x (some m.heap.next) }

/-- `slot = NULL`. -/
def null (m : Memory σ α) (x : σ) : Memory σ α :=
  { m with slot := Function.update m.slot x none }

section Slot

variable (m : Memory σ α) (v : α) {x y : σ}

@[simp] theorem heap_malloc (x : σ) : (m.malloc x v).heap = m.heap.push v := rfl

@[simp] theorem heap_null (x : σ) : (m.null x).heap = m.heap := rfl

@[simp] theorem slot_malloc_self (x : σ) : (m.malloc x v).slot x = some m.heap.next :=
  Function.update_self ..

theorem slot_malloc_of_ne (h : y ≠ x) : (m.malloc x v).slot y = m.slot y :=
  Function.update_of_ne h ..

@[simp] theorem slot_null_self (x : σ) : (m.null x).slot x = none := Function.update_self ..

theorem slot_null_of_ne (h : y ≠ x) : (m.null x).slot y = m.slot y := Function.update_of_ne h ..

end Slot

theorem free_malloc_eq (m : Memory σ α) (x : σ) (v : α) :
    (m.free x).malloc x v = ((m.free x).null x).malloc x v := by
  simp only [Memory.malloc, Memory.null, Function.update_idem]

theorem read_null (m : Memory σ α) (x : σ) :
    (m.null x).read = Function.update m.read x none := by
  funext y
  by_cases hyx : y = x
  · rw [hyx, read, slot_null_self, Option.bind_none, Function.update_self]
  · rw [read, slot_null_of_ne m hyx, heap_null, Function.update_of_ne hyx, read]

/-! ### Ownership -/

namespace Owned

variable {h₀ : Heap α} {m : Memory σ α}

omit [DecidableEq σ] in
/-- No slot of the record has a cell yet. -/
theorem start (h₀ : Heap α) : Owned h₀ (⟨h₀, fun _ => none, []⟩ : Memory σ α) :=
  ⟨by simp, by simp, by simp, Nat.le_refl _, fun _ _ => rfl⟩

omit [DecidableEq σ] in
theorem fault (h : m.Owned h₀) (f : Fault) : (m.fault f).Owned h₀ :=
  ⟨h.allocated, h.alone, h.own, h.next, h.frame⟩

omit [DecidableEq σ] in
theorem lt_next (h : m.Owned h₀) {x : σ} {i : ℕ} (hx : m.slot x = some i) : i < m.heap.next :=
  (h.allocated x i hx).lt

theorem malloc (h : m.Owned h₀) (x : σ) (v : α) : (m.malloc x v).Owned h₀ := by
  -- The slot has the new cell, and every other slot the one that it had.
  have hslot : ∀ {y i}, (m.malloc x v).slot y = some i →
      (y = x ∧ i = m.heap.next) ∨ (y ≠ x ∧ m.slot y = some i) := by
    intro y i hy
    by_cases hyx : y = x
    · rw [hyx, slot_malloc_self, Option.some.injEq] at hy
      exact Or.inl ⟨hyx, hy.symm⟩
    · exact Or.inr ⟨hyx, (slot_malloc_of_ne m v hyx).symm.trans hy⟩
  refine ⟨fun y i hy => ?_, fun y z i hy hz => ?_, fun y i hy => ?_,
    Nat.le_succ_of_le h.next, fun i hi => ?_⟩
  · rcases hslot hy with ⟨-, rfl⟩ | ⟨-, hy⟩
    · simp [Heap.Allocated]
    · exact (h.allocated y i hy).push v
  · rcases hslot hy with ⟨hyx, hi⟩ | ⟨-, hy⟩ <;> rcases hslot hz with ⟨hzx, hi'⟩ | ⟨-, hz⟩
    · rw [hyx, hzx]
    · exact absurd (h.lt_next hz) (by omega)
    · exact absurd (h.lt_next hy) (by omega)
    · exact h.alone y z i hy hz
  · rcases hslot hy with ⟨-, rfl⟩ | ⟨-, hy⟩
    · exact h.next
    · exact h.own y i hy
  · have hnext := h.next
    rw [heap_malloc, m.heap.cell_push_of_ne v (by omega)]
    exact h.frame i hi

theorem null (h : m.Owned h₀) (x : σ) : (m.null x).Owned h₀ := by
  have hold : ∀ {y i}, (m.null x).slot y = some i → m.slot y = some i := by
    intro y i hy
    by_cases hyx : y = x
    · simp [hyx] at hy
    · exact (slot_null_of_ne m hyx).symm.trans hy
  exact ⟨fun y i hy => h.allocated y i (hold hy),
    fun y z i hy hz => h.alone y z i (hold hy) (hold hz), fun y i hy => h.own y i (hold hy),
    h.next, h.frame⟩

omit [DecidableEq σ] in
theorem store (h : m.Owned h₀) (x : σ) (v : α) : (m.store x v).Owned h₀ := by
  cases hx : m.slot x with
  | none =>
    rw [store_of_none hx]
    exact h.fault .null
  | some i =>
    rw [store_of_allocated hx (h.allocated x i hx)]
    refine ⟨fun y j hy => (h.allocated y j hy).put v, h.alone, h.own, h.next, fun j hj => ?_⟩
    have hown := h.own x i hx
    exact (m.heap.cell_put_of_ne v (by omega)).trans (h.frame j hj)

/-- A cell is released and its slot is cleared. -/
theorem free_null (h : m.Owned h₀) (x : σ) : ((m.free x).null x).Owned h₀ := by
  cases hx : m.slot x with
  | none =>
    rw [free_of_none hx]
    exact h.null x
  | some i =>
    have hnull := h.null x
    rw [free_of_allocated hx (h.allocated x i hx)]
    refine ⟨fun y j hy => ?_, hnull.alone, hnull.own, h.next, fun j hj => ?_⟩
    · have hyx : y ≠ x := fun hyx => by
        rw [hyx, slot_null_self] at hy
        simp at hy
      have hy' : m.slot y = some j := (slot_null_of_ne m hyx).symm.trans hy
      exact (h.allocated y j hy').erase fun hji => hyx (h.alone y x i (hji ▸ hy') hx)
    · have hown := h.own x i hx
      exact (m.heap.cell_erase_of_ne (by omega)).trans (h.frame j hj)

/-- A cell is released and its slot is given a new one. -/
theorem free_malloc (h : m.Owned h₀) (x : σ) (v : α) : ((m.free x).malloc x v).Owned h₀ := by
  rw [free_malloc_eq]
  exact (h.free_null x).malloc x v

/-! ### What is read -/

omit [DecidableEq σ] in
/-- A slot is null exactly when there is nothing to read. -/
theorem read_eq_none_iff (h : m.Owned h₀) {x : σ} : m.read x = none ↔ m.slot x = none := by
  cases hx : m.slot x with
  | none => simp [read, hx]
  | some i =>
    obtain ⟨v, hv⟩ := Option.isSome_iff_exists.mp (h.allocated x i hx)
    simp [read, hx, hv]

theorem read_malloc (h : m.Owned h₀) (x : σ) (v : α) :
    (m.malloc x v).read = Function.update m.read x (some v) := by
  funext y
  by_cases hyx : y = x
  · rw [hyx, read, slot_malloc_self, Option.bind_some, heap_malloc, Heap.cell_push_self,
      Function.update_self]
  · rw [read, slot_malloc_of_ne m v hyx, heap_malloc, Function.update_of_ne hyx]
    exact Option.bind_congr fun i hi => m.heap.cell_push_of_ne v (Nat.ne_of_lt (h.lt_next hi))

theorem read_store (h : m.Owned h₀) {x : σ} (hx : m.slot x ≠ none) (v : α) :
    (m.store x v).read = Function.update m.read x (some v) := by
  obtain ⟨i, hi⟩ := Option.ne_none_iff_exists'.mp hx
  rw [store_of_allocated hi (h.allocated x i hi)]
  funext y
  by_cases hyx : y = x
  · rw [hyx, read, hi, Option.bind_some, Heap.cell_put_self (h.allocated x i hi),
      Function.update_self]
  · rw [Function.update_of_ne hyx]
    refine Option.bind_congr fun j hj => m.heap.cell_put_of_ne v fun hji => ?_
    exact hyx (h.alone y x i (hji ▸ hj) hi)

theorem read_free_null (h : m.Owned h₀) (x : σ) :
    ((m.free x).null x).read = Function.update m.read x none := by
  cases hx : m.slot x with
  | none => rw [free_of_none hx, read_null]
  | some i =>
    rw [read_null, free_of_allocated hx (h.allocated x i hx)]
    funext y
    by_cases hyx : y = x
    · rw [hyx, Function.update_self, Function.update_self]
    · rw [Function.update_of_ne hyx, Function.update_of_ne hyx]
      refine Option.bind_congr fun j hj => m.heap.cell_erase_of_ne fun hji => ?_
      exact hyx (h.alone y x i (hji ▸ hj) hx)

theorem read_free_malloc (h : m.Owned h₀) (x : σ) (v : α) :
    ((m.free x).malloc x v).read = Function.update m.read x (some v) := by
  rw [free_malloc_eq, (h.free_null x).read_malloc, h.read_free_null, Function.update_idem]

end Owned

/-! ### Faults -/

section Faults

variable {h₀ : Heap α} {m : Memory σ α}

@[simp] theorem faults_malloc (m : Memory σ α) (x : σ) (v : α) :
    (m.malloc x v).faults = m.faults := rfl

@[simp] theorem faults_null (m : Memory σ α) (x : σ) : (m.null x).faults = m.faults := rfl

omit [DecidableEq σ] in
theorem faults_subset_fault (m : Memory σ α) (f : Fault) : m.faults ⊆ (m.fault f).faults :=
  List.subset_append_left ..

omit [DecidableEq σ] in
theorem faults_subset_store (m : Memory σ α) (x : σ) (v : α) :
    m.faults ⊆ (m.store x v).faults := by
  rw [Memory.store]
  split
  · exact m.faults_subset_fault _
  · split_ifs
    · exact List.Subset.refl _
    · exact m.faults_subset_fault _

omit [DecidableEq σ] in
theorem faults_subset_free (m : Memory σ α) (x : σ) : m.faults ⊆ (m.free x).faults := by
  rw [Memory.free]
  split
  · exact List.Subset.refl _
  · split_ifs
    · exact List.Subset.refl _
    · exact m.faults_subset_fault _

omit [DecidableEq σ] in
theorem faults_subset_freeAll (xs : List σ) : ∀ m : Memory σ α,
    m.faults ⊆ (m.freeAll xs).faults := by
  induction xs with
  | nil => exact fun _ => List.Subset.refl _
  | cons x xs ih => exact fun m f hf => ih (m.free x) (m.faults_subset_free x hf)

omit [DecidableEq σ] in
theorem NoMisuse.fault_null (hm : m.NoMisuse) : (m.fault .null).NoMisuse := by
  intro f hf
  rcases List.mem_append.mp hf with hf | hf
  · exact hm f hf
  · exact List.mem_singleton.mp hf

omit [DecidableEq σ] in
theorem NoMisuse.store (hm : m.NoMisuse) (h : m.Owned h₀) (x : σ) (v : α) :
    (m.store x v).NoMisuse := by
  cases hx : m.slot x with
  | none =>
    rw [store_of_none hx]
    exact hm.fault_null
  | some i =>
    rw [store_of_allocated hx (h.allocated x i hx)]
    exact hm

omit [DecidableEq σ] in
theorem NoMisuse.free (hm : m.NoMisuse) (h : m.Owned h₀) (x : σ) : (m.free x).NoMisuse := by
  cases hx : m.slot x with
  | none => rwa [free_of_none hx]
  | some i =>
    rw [free_of_allocated hx (h.allocated x i hx)]
    exact hm

omit [DecidableEq σ] in
/-- Releasing cells allocates none. -/
theorem allocated_of_free {x : σ} {j : ℕ} (hj : (m.free x).heap.Allocated j) :
    m.heap.Allocated j := by
  rw [Memory.free] at hj
  split at hj
  · exact hj
  · next i hx =>
    split_ifs at hj
    · by_cases hji : j = i
      · exact absurd (hji ▸ hj) (m.heap.not_allocated_erase i)
      · rwa [Heap.Allocated, m.heap.cell_erase_of_ne hji] at hj
    · exact hj

omit [DecidableEq σ] in
theorem allocated_of_freeAll {j : ℕ} (xs : List σ) : ∀ {m : Memory σ α},
    (m.freeAll xs).heap.Allocated j → m.heap.Allocated j := by
  induction xs with
  | nil => exact id
  | cons x xs ih => exact fun hj => allocated_of_free (ih hj)

omit [DecidableEq σ] in
/-- **Releasing distinct slots with cells of their own** releases each cell once, by induction on
the slots: the cells of those that are left stay allocated. -/
theorem noMisuse_freeAll {xs : List σ} (hxs : xs.Nodup) : ∀ {m : Memory σ α},
    (∀ x ∈ xs, ∀ i, m.slot x = some i → m.heap.Allocated i) →
    (∀ x y i, m.slot x = some i → m.slot y = some i → x = y) → m.NoMisuse →
      (m.freeAll xs).NoMisuse ∧
        ∀ x ∈ xs, ∀ i, m.slot x = some i → ¬ (m.freeAll xs).heap.Allocated i := by
  induction xs with
  | nil => exact fun _ _ hm => ⟨hm, by simp⟩
  | cons x xs ih =>
    intro m hallocated halone hm
    obtain ⟨hxxs, hxs⟩ := List.nodup_cons.mp hxs
    obtain ⟨hm', hleft, hgone⟩ : (m.free x).NoMisuse ∧
        (∀ y ∈ xs, ∀ i, m.slot y = some i → (m.free x).heap.Allocated i) ∧
        ∀ i, m.slot x = some i → ¬ (m.free x).heap.Allocated i := by
      cases hx : m.slot x with
      | none =>
        rw [free_of_none hx]
        exact ⟨hm, fun y hy => hallocated y (List.mem_cons_of_mem x hy), by simp⟩
      | some i =>
        rw [free_of_allocated hx (hallocated x List.mem_cons_self i hx)]
        refine ⟨hm, fun y hy j hj => ?_, fun j hj => ?_⟩
        · refine (hallocated y (List.mem_cons_of_mem x hy) j hj).erase fun hji => ?_
          exact hxxs (halone y x i (hji ▸ hj) hx ▸ hy)
        · obtain rfl := Option.some.inj hj
          exact m.heap.not_allocated_erase _
    obtain ⟨hrest, hfreed⟩ := ih hxs (m := m.free x) (by rwa [slot_free]) (by rwa [slot_free]) hm'
    refine ⟨hrest, fun y hy i hi hi' => ?_⟩
    rcases List.mem_cons.mp hy with rfl | hy
    · exact hgone i hi (allocated_of_freeAll xs hi')
    · exact hfreed y hy i (by rwa [slot_free]) hi'

end Faults

/-! ### Giving a slot a value -/

/-- `if(slot == NULL) slot = malloc(..); *slot = v`. -/
def ensure (m : Memory σ α) (x : σ) (v : α) : Memory σ α :=
  if m.slot x = none then m.malloc x v else m.store x v

/-- A given value is written, and a missing cell is allocated with the default. -/
def assign (m : Memory σ α) (x : σ) (given : Option α) (default : α) : Memory σ α :=
  match given with
  | some v => m.store x v
  | none => if m.slot x = none then m.malloc x default else m

section Giving

variable {m : Memory σ α} {x y : σ} {v : α}

/-- Another slot keeps its cell. -/
theorem slot_ensure_of_ne (hyx : y ≠ x) : (m.ensure x v).slot y = m.slot y := by
  rw [ensure]
  split_ifs
  · exact slot_malloc_of_ne m v hyx
  · rw [slot_store]

theorem slot_ensure_ne_none : (m.ensure x v).slot x ≠ none := by
  rw [ensure]
  split_ifs with hx
  · simp
  · rwa [slot_store]

theorem slot_assign_of_ne {given : Option α} {default : α} (hyx : y ≠ x) :
    (m.assign x given default).slot y = m.slot y := by
  cases given with
  | some v => rw [assign, slot_store]
  | none =>
    rw [assign]
    split_ifs
    · exact slot_malloc_of_ne m default hyx
    · rfl

theorem faults_subset_ensure : m.faults ⊆ (m.ensure x v).faults := by
  rw [ensure]
  split_ifs
  · exact List.Subset.refl _
  · exact m.faults_subset_store x v

theorem faults_subset_assign {given : Option α} {default : α} :
    m.faults ⊆ (m.assign x given default).faults := by
  cases given with
  | some v => exact m.faults_subset_store x v
  | none =>
    rw [assign]
    split_ifs <;> exact List.Subset.refl _

end Giving

/-! ### Slots that always have a cell -/

/-- The slots own their cells, nothing has been misused, and the slots in `D` have a cell. -/
structure Kept (D : σ → Prop) (h₀ : Heap α) (m : Memory σ α) : Prop where
  owned : m.Owned h₀
  noMisuse : m.NoMisuse
  filled : ∀ x, D x → m.slot x ≠ none

/-- The slots own their cells, and nothing has been misused: any slot may be null. -/
abbrev Sound (h₀ : Heap α) (m : Memory σ α) : Prop := m.Kept (fun _ => False) h₀

omit [DecidableEq σ] in
theorem sound_start (h₀ : Heap α) : (⟨h₀, fun _ => none, []⟩ : Memory σ α).Sound h₀ :=
  ⟨.start h₀, by simp [NoMisuse], fun _ h => absurd h id⟩

namespace Kept

variable {D : σ → Prop} {h₀ : Heap α} {m : Memory σ α} {x : σ}

theorem malloc (h : m.Kept D h₀) (x : σ) (v : α) : (m.malloc x v).Kept D h₀ := by
  refine ⟨h.owned.malloc x v, h.noMisuse, fun y hy => ?_⟩
  by_cases hyx : y = x
  · subst hyx
    simp
  · rw [slot_malloc_of_ne m v hyx]
    exact h.filled y hy

theorem null (h : m.Kept D h₀) (hx : ¬ D x) : (m.null x).Kept D h₀ := by
  refine ⟨h.owned.null x, h.noMisuse, fun y hy => ?_⟩
  have hyx : y ≠ x := fun hyx => hx (hyx ▸ hy)
  rw [slot_null_of_ne m hyx]
  exact h.filled y hy

omit [DecidableEq σ] in
theorem store (h : m.Kept D h₀) (x : σ) (v : α) : (m.store x v).Kept D h₀ :=
  ⟨h.owned.store x v, h.noMisuse.store h.owned x v, fun y hy => by
    rw [slot_store]
    exact h.filled y hy⟩

theorem free_null (h : m.Kept D h₀) (hx : ¬ D x) : ((m.free x).null x).Kept D h₀ := by
  refine ⟨h.owned.free_null x, h.noMisuse.free h.owned x, fun y hy => ?_⟩
  have hyx : y ≠ x := fun hyx => hx (hyx ▸ hy)
  rw [slot_null_of_ne _ hyx, slot_free]
  exact h.filled y hy

theorem free_malloc (h : m.Kept D h₀) (x : σ) (v : α) : ((m.free x).malloc x v).Kept D h₀ := by
  refine ⟨h.owned.free_malloc x v, h.noMisuse.free h.owned x, fun y hy => ?_⟩
  by_cases hyx : y = x
  · subst hyx
    simp
  · rw [slot_malloc_of_ne _ v hyx, slot_free]
    exact h.filled y hy

omit [DecidableEq σ] in
theorem fault_null (h : m.Kept D h₀) : (m.fault .null).Kept D h₀ :=
  ⟨h.owned.fault .null, h.noMisuse.fault_null, h.filled⟩

theorem ensure (h : m.Kept D h₀) (x : σ) (v : α) : (m.ensure x v).Kept D h₀ := by
  rw [Memory.ensure]
  split_ifs
  · exact h.malloc x v
  · exact h.store x v

theorem assign (h : m.Kept D h₀) (x : σ) (given : Option α) (default : α) :
    (m.assign x given default).Kept D h₀ := by
  cases given with
  | some v => exact h.store x v
  | none =>
    rw [Memory.assign]
    split_ifs
    · exact h.malloc x default
    · exact h

end Kept

end Memory

end Slots

import Mathlib.Logic.Function.Basic
import Mathlib.Data.List.Nodup
import Mathlib.Data.List.Perm.Subperm
import Mathlib.Data.List.Basic

/-!
# Singly linked lists in a memory of cells

A memory is a partial map `cell : α → Option β` from addresses to cells, and `next : β → Option α`
reads the link of a cell, `none` being the null pointer. A *segment* from `h` to `m` through the
addresses `l` follows `next` from `h`, visits exactly the cells `l` in order, and reaches `m`; a
*chain* is a segment that ends at the null pointer.

A chain is determined by its first address (`Chain.unique`), it never repeats an address
(`Chain.nodup`), and it only depends on the links of its own cells (`Segment.congr`), which gives
the frame rules for updates of other cells.

## Main definitions

* `Segment`, `Chain`.

## Main results

* `segment_append_iff`, `segment_snoc_iff`: cutting a segment.
* `Chain.nodup`, `Chain.unique`, `Chain.length_le`.
* `Segment.congr`: frame rule.
-/

namespace Cells

variable {α β : Type*} {cell cell' : α → Option β} {next : β → Option α}

/-- Following `next` from `h` visits the cells `l` in order and reaches `m`. -/
def Segment (cell : α → Option β) (next : β → Option α) : Option α → List α → Option α → Prop
  | h, [], m => h = m
  | h, p :: l, m => h = some p ∧ ∃ b, cell p = some b ∧ Segment cell next (next b) l m

/-- Following `next` from `h` visits the cells `l` in order and ends at the null pointer. -/
def Chain (cell : α → Option β) (next : β → Option α) (h : Option α) (l : List α) : Prop :=
  Segment cell next h l none

@[simp] theorem segment_nil_iff {h m : Option α} : Segment cell next h [] m ↔ h = m := Iff.rfl

@[simp] theorem segment_cons_iff {h m : Option α} {p : α} {l : List α} :
    Segment cell next h (p :: l) m ↔
      h = some p ∧ ∃ b, cell p = some b ∧ Segment cell next (next b) l m := Iff.rfl

@[simp] theorem chain_nil_iff {h : Option α} : Chain cell next h [] ↔ h = none := Iff.rfl

@[simp] theorem chain_cons_iff {h : Option α} {p : α} {l : List α} :
    Chain cell next h (p :: l) ↔
      h = some p ∧ ∃ b, cell p = some b ∧ Chain cell next (next b) l := Iff.rfl

theorem segment_append_iff {m : Option α} {l₂ : List α} :
    ∀ {l₁ : List α} {h : Option α}, Segment cell next h (l₁ ++ l₂) m ↔
      ∃ k, Segment cell next h l₁ k ∧ Segment cell next k l₂ m
  | [], h => by simp
  | p :: l₁, h => by
      rw [List.cons_append]
      constructor
      · rintro ⟨rfl, b, hb, h₂⟩
        obtain ⟨k, h₁, h₂⟩ := segment_append_iff.mp h₂
        exact ⟨k, ⟨rfl, b, hb, h₁⟩, h₂⟩
      · rintro ⟨k, ⟨rfl, b, hb, h₁⟩, h₂⟩
        exact ⟨rfl, b, hb, segment_append_iff.mpr ⟨k, h₁, h₂⟩⟩

/-- A segment through `l ++ [p]` reaches `p` first and leaves it by its link. -/
theorem segment_snoc_iff {h m : Option α} {l : List α} {p : α} :
    Segment cell next h (l ++ [p]) m ↔
      Segment cell next h l (some p) ∧ ∃ b, cell p = some b ∧ next b = m := by
  rw [segment_append_iff]
  constructor
  · rintro ⟨k, h₁, rfl, b, hb, h₂⟩
    exact ⟨h₁, b, hb, h₂⟩
  · rintro ⟨h₁, b, hb, h₂⟩
    exact ⟨some p, h₁, rfl, b, hb, h₂⟩

namespace Segment

/-- The cells of a segment are allocated. -/
theorem live : ∀ {l : List α} {h m : Option α}, Segment cell next h l m →
    ∀ p ∈ l, ∃ b, cell p = some b
  | [], _, _, _ => by simp
  | p :: l, h, m, ⟨_, b, hb, hl⟩ => by
      intro q hq
      rcases List.mem_cons.mp hq with rfl | hq
      · exact ⟨b, hb⟩
      · exact hl.live q hq

/-- **Frame rule.** A segment only reads the links of its own cells. -/
theorem congr : ∀ {l : List α} {h m : Option α}, Segment cell next h l m →
    (∀ p ∈ l, (cell' p).map next = (cell p).map next) → Segment cell' next h l m
  | [], _, _, h, _ => h
  | p :: l, h, m, ⟨hp, b, hb, hl⟩, hc => by
      have hpc := hc p List.mem_cons_self
      rw [hb, Option.map_some, Option.map_eq_some_iff] at hpc
      obtain ⟨b', hb', hn⟩ := hpc
      exact ⟨hp, b', hb', hn ▸ hl.congr fun q hq => hc q (List.mem_cons_of_mem p hq)⟩

/-- Writing a cell outside a segment leaves the segment alone. -/
theorem update_of_notMem [DecidableEq α] {l : List α} {h m : Option α}
    (hs : Segment cell next h l m) {p : α} (hp : p ∉ l) (b : Option β) :
    Segment (Function.update cell p b) next h l m :=
  hs.congr fun q hq => by rw [Function.update_of_ne fun hqp : q = p => hp (hqp ▸ hq)]

end Segment

namespace Chain

theorem head_eq : ∀ {l : List α} {h : Option α}, Chain cell next h l → h = l.head?
  | [], _, h => h
  | _ :: _, _, h => h.1

/-- The addresses of a chain are determined by the first one. -/
theorem unique : ∀ {l l' : List α} {h : Option α}, Chain cell next h l → Chain cell next h l' →
    l = l'
  | [], [], _, _, _ => rfl
  | [], _ :: _, _, h, h' => by simp [chain_nil_iff.mp h] at h'
  | _ :: _, [], _, h, h' => by simp [chain_nil_iff.mp h'] at h
  | p :: l, q :: l', h, ⟨hp, b, hb, hl⟩, ⟨hq, b', hb', hl'⟩ => by
      obtain rfl : p = q := Option.some.inj (hp.symm.trans hq)
      obtain rfl : b = b' := Option.some.inj (hb.symm.trans hb')
      rw [unique hl hl']

/-- A cell of a chain starts the rest of the chain. -/
theorem suffix {l₁ l₂ : List α} {p : α} {h : Option α} (hc : Chain cell next h (l₁ ++ p :: l₂)) :
    Chain cell next (some p) (p :: l₂) := by
  obtain ⟨k, -, h₂⟩ := segment_append_iff.mp hc
  obtain rfl := h₂.1
  exact h₂

/-- A list that ends never visits a cell twice. -/
theorem nodup : ∀ {l : List α} {h : Option α}, Chain cell next h l → l.Nodup
  | [], _, _ => List.nodup_nil
  | p :: l, h, hc => by
      obtain ⟨hp, b, hb, hl⟩ := hc
      refine List.nodup_cons.mpr ⟨fun hmem => ?_, nodup hl⟩
      obtain ⟨l₁, l₂, rfl⟩ := List.append_of_mem hmem
      have hpos : Chain cell next (some p) (p :: (l₁ ++ p :: l₂)) := ⟨rfl, b, hb, hl⟩
      have := congrArg List.length (unique hpos (suffix hl))
      simp at this
      omega

/-- The last cell of a chain has a null link. -/
theorem next_getLast {l : List α} {p : α} {h : Option α} (hc : Chain cell next h l)
    (hp : l.getLast? = some p) : ∃ b, cell p = some b ∧ next b = none := by
  obtain ⟨l₁, rfl⟩ := List.getLast?_eq_some_iff.mp hp
  exact (segment_snoc_iff.mp hc).2

theorem eq_none_iff {l : List α} {h : Option α} (hc : Chain cell next h l) :
    h = none ↔ l = [] := by
  rw [hc.head_eq, List.head?_eq_none_iff]

/-- A chain of numbered cells is at most as long as the numbers in use. -/
theorem length_le {cell : ℕ → Option β} {next : β → Option ℕ} {l : List ℕ} {h : Option ℕ} {n : ℕ}
    (hc : Chain cell next h l) (hn : ∀ p ∈ l, p < n) : l.length ≤ n := by
  have hsub : l ⊆ List.range n := fun p hp => List.mem_range.mpr (hn p hp)
  simpa using (List.subperm_of_subset hc.nodup hsub).length_le

end Chain

end Cells

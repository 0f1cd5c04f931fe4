import Mathlib.Data.List.Basic

/-!
# Runs with their history

A run of a machine whose steps may fail is recorded as the list of its actions, oldest first, each
with the state in which it is taken. What the machine is said to remember is a function of this
list: the value that the last action of a kind has given, or whether an action of one kind has
been taken and none of another kind since.

## Main definitions

* `Traced`: the runs that start in `start` and take the actions that `may` allows.
* `lastSome`, `Since`, `AtLast`.

## Main results

* `Traced.invariant`: the induction over a run.
* `lastSome_concat`, `since_concat_iff`, `atLast_concat_iff`: one more action.
-/

namespace Traces

variable {σ α β : Type*}

/-- A run with its history. -/
inductive Traced (start : σ → Prop) (step : α → σ → Option σ) (may : List (σ × α) → σ → α → Prop) :
    List (σ × α) → σ → Prop
  | start {s : σ} (h : start s) : Traced start step may [] s
  | step {history : List (σ × α)} {s s' : σ} {a : α} (h : Traced start step may history s)
      (hmay : may history s a) (hrun : step a s = some s') :
      Traced start step may (history ++ [(s, a)]) s'

/-- **What holds at the start and is kept by every allowed step holds along a run.** -/
theorem Traced.invariant {start : σ → Prop} {step : α → σ → Option σ}
    {may : List (σ × α) → σ → α → Prop} {I : List (σ × α) → σ → Prop}
    (hstart : ∀ s, start s → I [] s)
    (hstep : ∀ history s a s', I history s → may history s a → step a s = some s' →
      I (history ++ [(s, a)]) s')
    {history : List (σ × α)} {s : σ} (h : Traced start step may history s) : I history s := by
  induction h with
  | start h => exact hstart _ h
  | step _ hmay hrun ih => exact hstep _ _ _ _ ih hmay hrun

/-- The last value that `f` reads in the list. -/
def lastSome (f : α → Option β) (l : List α) : Option β := (l.filterMap f).getLast?

@[simp] theorem lastSome_nil (f : α → Option β) : lastSome f [] = none := rfl

theorem lastSome_concat (f : α → Option β) (l : List α) (x : α) :
    lastSome f (l ++ [x]) = (f x).or (lastSome f l) := by
  rw [lastSome, lastSome, List.filterMap_append]
  cases h : f x with
  | none => simp [h]
  | some y => simp [h]

/-- A value that is kept by every entry in which `f` reads nothing. -/
theorem getD_lastSome_concat (f : α → Option β) (l : List α) (x : α) (d : β) :
    (lastSome f (l ++ [x])).getD d = (f x).getD ((lastSome f l).getD d) := by
  rw [lastSome_concat]
  cases f x <;> rfl

/-- Entries in which `f` reads nothing do not count. -/
theorem lastSome_append_of_none {f : α → Option β} {l l' : List α} (h : ∀ x ∈ l', f x = none) :
    lastSome f (l ++ l') = lastSome f l := by
  have hnil : l'.filterMap f = [] := List.filterMap_eq_nil_iff.mpr h
  rw [lastSome, lastSome, List.filterMap_append, hnil, List.append_nil]

/-- Some entry has `P`, and none after it has `Q`. -/
def Since (P Q : α → Prop) (l : List α) : Prop :=
  ∃ l₁ x l₂, l = l₁ ++ x :: l₂ ∧ P x ∧ ∀ y ∈ l₂, ¬ Q y

theorem not_since_nil (P Q : α → Prop) : ¬ Since P Q [] := by
  rintro ⟨l₁, x, l₂, h, -⟩
  simp at h

/-- One more entry either has `P` or must not have `Q`. -/
theorem since_concat_iff {P Q : α → Prop} {l : List α} {x : α} :
    Since P Q (l ++ [x]) ↔ P x ∨ Since P Q l ∧ ¬ Q x := by
  constructor
  · rintro ⟨l₁, y, l₂, h, hy, hl₂⟩
    rcases List.eq_nil_or_concat l₂ with rfl | ⟨l₂, z, rfl⟩
    · obtain ⟨-, hxy⟩ := List.append_inj' h rfl
      exact Or.inl (List.singleton_inj.mp hxy ▸ hy)
    · rw [List.concat_eq_append, ← List.cons_append, ← List.append_assoc] at h
      obtain ⟨rfl, hxz⟩ := List.append_inj' h rfl
      obtain rfl := List.singleton_inj.mp hxz
      exact Or.inr ⟨⟨l₁, y, l₂, rfl, hy, fun v hv => hl₂ v (by simp [hv])⟩, hl₂ x (by simp)⟩
  · rintro (hx | ⟨⟨l₁, y, l₂, rfl, hy, hl₂⟩, hx⟩)
    · exact ⟨l, x, [], rfl, hx, by simp⟩
    · refine ⟨l₁, y, l₂ ++ [x], by simp, hy, fun v hv => ?_⟩
      rcases List.mem_append.mp hv with hv | hv
      · exact hl₂ v hv
      · exact List.mem_singleton.mp hv ▸ hx

/-- The last entry that has `P`, if there is one, has `Q` after the entries before it. -/
def AtLast (P : α → Prop) (Q : List α → α → Prop) (l : List α) : Prop :=
  ∀ l₁ x l₂, l = l₁ ++ x :: l₂ → P x → (∀ y ∈ l₂, ¬ P y) → Q l₁ x

theorem atLast_of_none {P : α → Prop} {Q : List α → α → Prop} {l : List α}
    (h : ∀ x ∈ l, ¬ P x) : AtLast P Q l := by
  rintro l₁ x l₂ rfl hx -
  exact absurd hx (h x (by simp))

/-- One more entry that has `P` is the last one. -/
theorem atLast_concat_iff {P : α → Prop} {Q : List α → α → Prop} {l : List α} {x : α}
    (hx : P x) : AtLast P Q (l ++ [x]) ↔ Q l x := by
  constructor
  · intro h
    exact h l x [] rfl hx (by simp)
  · rintro h l₁ y l₂ heq hy hl₂
    rcases List.eq_nil_or_concat l₂ with rfl | ⟨l₂, z, rfl⟩
    · obtain ⟨rfl, hxy⟩ := List.append_inj' heq rfl
      exact List.singleton_inj.mp hxy ▸ h
    · rw [List.concat_eq_append, ← List.cons_append, ← List.append_assoc] at heq
      obtain ⟨-, hxz⟩ := List.append_inj' heq rfl
      obtain rfl := List.singleton_inj.mp hxz
      exact absurd hx (hl₂ x (by simp))

/-- One more entry that has not leaves the last one as it is. -/
theorem atLast_concat_of_not {P : α → Prop} {Q : List α → α → Prop} {l : List α} {x : α}
    (hx : ¬ P x) : AtLast P Q (l ++ [x]) ↔ AtLast P Q l := by
  constructor
  · rintro h l₁ y l₂ rfl hy hl₂
    refine h l₁ y (l₂ ++ [x]) (by simp) hy fun v hv => ?_
    rcases List.mem_append.mp hv with hv | hv
    · exact hl₂ v hv
    · exact List.mem_singleton.mp hv ▸ hx
  · rintro h l₁ y l₂ heq hy hl₂
    rcases List.eq_nil_or_concat l₂ with rfl | ⟨l₂, z, rfl⟩
    · obtain ⟨-, hxy⟩ := List.append_inj' heq rfl
      exact absurd (List.singleton_inj.mp hxy ▸ hy) hx
    · rw [List.concat_eq_append, ← List.cons_append, ← List.append_assoc] at heq
      obtain ⟨rfl, -⟩ := List.append_inj' heq rfl
      exact h l₁ y l₂ rfl hy fun v hv => hl₂ v (by simp [hv])

end Traces

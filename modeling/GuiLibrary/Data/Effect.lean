import Mathlib.Data.List.ProdSigma
import Mathlib.Logic.Function.Basic

/-!
# Effects on pictures

An operation that writes a picture is local when the new value at a position depends on the old
value there and on nothing else. Its effect is one function of values for each position, and the
effect of a sequence of operations is the composition of theirs.

A part of a sequence may be run once more on the picture that the whole sequence has made. A
position keeps its value where the part has no effect. It also does where, from some operation on
that hides the old value, the operations of the part have the same effects as those of the sequence.

## Main definitions

* `Effect`, `Effect.Hides`, `seq`.

## Main results

* `seq_repeat`: running a part of a sequence once more.
-/

namespace Pictures

variable {ι X V : Type*} {x : X}

/-- What an operation makes of the value at each position. -/
abbrev Effect (X V : Type*) := X → V → V

/-- The operation hides the old value at the position. -/
def Effect.Hides (e : Effect X V) (x : X) : Prop := ∀ v v', e x v = e x v'

/-- The effect of a sequence of operations, the first one first. -/
def seq (effects : List (Effect X V)) : Effect X V := fun x v => effects.foldl (fun v e => e x v) v

@[simp] theorem seq_nil : seq ([] : List (Effect X V)) x = id := rfl

@[simp] theorem seq_cons (e : Effect X V) (es : List (Effect X V)) :
    seq (e :: es) x = seq es x ∘ e x := rfl

@[simp] theorem seq_append (es es' : List (Effect X V)) :
    seq (es ++ es') x = seq es' x ∘ seq es x := by
  funext v
  simp only [seq, List.foldl_append, Function.comp_apply]

theorem seq_eq_id {es : List (Effect X V)} (h : ∀ e ∈ es, e x = id) : seq es x = id := by
  induction es with
  | nil => rfl
  | cons e es ih =>
    rw [seq_cons, h e List.mem_cons_self, ih fun e' he' => h e' (List.mem_cons_of_mem e he')]
    rfl

theorem seq_congr {l : List ι} {f g : ι → Effect X V} (h : ∀ i ∈ l, f i x = g i x) :
    seq (l.map f) x = seq (l.map g) x := by
  induction l with
  | nil => rfl
  | cons i l ih =>
    rw [List.map_cons, List.map_cons, seq_cons, seq_cons, h i List.mem_cons_self,
      ih fun j hj => h j (List.mem_cons_of_mem i hj)]

/-- Operations that consist of parts, in the same way. -/
theorem seq_product {κ : Type*} (l : List ι) (l' : List κ) (e : ι × κ → Effect X V) :
    seq ((l ×ˢ l').map e) x = seq (l.map fun i => seq (l'.map fun j => e (i, j))) x := by
  induction l with
  | nil => rfl
  | cons i l ih =>
    rw [List.product_cons, List.map_append, seq_append, ih, List.map_map, List.map_cons, seq_cons]
    rfl

/-- Operations that are left out have no effect. -/
theorem seq_filterMap {κ : Type*} (l : List ι) (g : ι → Option κ) (e : κ → Effect X V) :
    seq ((l.filterMap g).map e) x = seq (l.map fun i => (g i).elim (fun _ => id) e) x := by
  induction l with
  | nil => rfl
  | cons i l ih =>
    rw [List.map_cons, seq_cons]
    cases hi : g i with
    | none =>
      rw [List.filterMap_cons_none hi, ih]
      rfl
    | some j =>
      rw [List.filterMap_cons_some hi, List.map_cons, seq_cons, ih]
      rfl

/-- What one operation hides, the sequence hides. -/
theorem hides_seq {e : Effect X V} {es : List (Effect X V)} (he : e ∈ es) (h : e.Hides x) :
    Effect.Hides (seq es) x := by
  obtain ⟨es₁, es₂, rfl⟩ := List.append_of_mem he
  intro v v'
  rw [seq_append, seq_cons]
  exact congrArg (seq es₂ x) (h _ _)

/-- **Running a part of a sequence once more** changes nothing at a position where, from some
operation on that hides the old value, the part has the same effects as the sequence. -/
theorem seq_repeat {full part : ι → Effect X V} (l₁ : List ι) {i : ι} {l₂ : List ι}
    (hhides : (full i).Hides x) (hsame : ∀ j ∈ i :: l₂, part j x = full j x) (v : V) :
    seq ((l₁ ++ i :: l₂).map part) x (seq ((l₁ ++ i :: l₂).map full) x v) =
      seq ((l₁ ++ i :: l₂).map full) x v := by
  rw [List.map_append, List.map_append, seq_append, seq_append, seq_congr hsame]
  exact hides_seq (List.mem_map_of_mem List.mem_cons_self) hhides _ _

end Pictures

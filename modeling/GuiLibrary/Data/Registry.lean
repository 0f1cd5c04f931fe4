import GuiLibrary.Data.Chain

/-!
# Registries of named records

A registry is a linked list of named records in a memory of cells. A record is looked up by its
name, from the first record on. A new record becomes the first one, unless its name is in the list
already: then the record is released, and the list stays. The link of a new record is written only
when the list is not empty, so the first record of all must have a null link from the start.

The list is finite, has no two records of one name, and holds all the records that are allocated.
What a lookup finds is the record that was registered first under the name, whatever was registered
later. Releasing the records one after the other releases each of them once; a lookup that follows
reads a released record.

## Main definitions

* `Record`, `Registry`, `Registry.fromName`, `Registry.register`, `Registry.freeList`.
* `Registry.Holds`: what the list is.

## Main results

* `Registry.Holds.fromName_eq`, `Registry.Holds.registerNew`.
* `Registry.Holds.foldlM_registerNew`, `Registry.find?_foldl_entered`: the first one wins.
* `Registry.Holds.freeList`: every record is released once.
-/

namespace Cells

/-- A named record in a list. -/
structure Record (ν δ : Type*) where
  name : ν
  data : δ
  next : Option ℕ
deriving DecidableEq, Repr

/-- The records that are allocated, the next address to be given, and the first record. -/
structure Registry (ν δ : Type*) where
  cell : ℕ → Option (Record ν δ)
  fresh : ℕ
  top : Option ℕ

namespace Registry

variable {ν δ : Type*} [DecidableEq ν]

/-- No record. -/
def empty : Registry ν δ := ⟨fun _ => none, 0, none⟩

/-- A new record. -/
def alloc (R : Registry ν δ) (b : Record ν δ) : Registry ν δ :=
  { R with cell := Function.update R.cell R.fresh (some b), fresh := R.fresh + 1 }

/-- Releases a record. -/
def free (R : Registry ν δ) (p : ℕ) : Registry ν δ :=
  { R with cell := Function.update R.cell p none }

/-- The search for a name from a record on. There is no result when it reads a record that is not
allocated, or does not end. -/
def search (cell : ℕ → Option (Record ν δ)) (name : ν) : ℕ → Option ℕ → Option (Option ℕ)
  | _, none => some none
  | 0, some _ => none
  | fuel + 1, some p => (cell p).bind fun b =>
      if b.name = name then some (some p) else search cell name fuel b.next

/-- Looks up a name. -/
def fromName (R : Registry ν δ) (name : ν) : Option (Option ℕ) :=
  search R.cell name R.fresh R.top

/-- Registers an allocated record, or releases it. -/
def register (R : Registry ν δ) (p : ℕ) : Option (Registry ν δ) :=
  (R.cell p).bind fun b => (R.fromName b.name).map fun found =>
    if found.isSome then R.free p
    else
      let R := if R.top.isSome then
        { R with cell := Function.update R.cell p (some { b with next := R.top }) } else R
      { R with top := some p }

/-- Allocates a record and registers it. -/
def registerNew (R : Registry ν δ) (b : Record ν δ) : Option (Registry ν δ) :=
  (R.alloc b).register R.fresh

/-- Releases the records from one on. The first one is not written. -/
def freeFrom : ℕ → Registry ν δ → Option ℕ → Option (Registry ν δ)
  | _, R, none => some R
  | 0, _, some _ => none
  | fuel + 1, R, some p => (R.cell p).bind fun b => freeFrom fuel (R.free p) b.next

/-- Releases all the records of the list. -/
def freeList (R : Registry ν δ) : Option (Registry ν δ) := freeFrom R.fresh R R.top

/-- **The list of the registry** holds the records `l` in order, with distinct names, and no other
record is allocated. -/
structure Holds (R : Registry ν δ) (l : List (ℕ × ν × δ)) : Prop where
  chain : Chain R.cell Record.next R.top (l.map Prod.fst)
  records : ∀ e ∈ l, (R.cell e.1).map (fun b => (b.name, b.data)) = some e.2
  names : (l.map fun e => e.2.1).Nodup
  listed : ∀ p, (R.cell p).isSome → p ∈ l.map Prod.fst
  unused : ∀ p, R.fresh ≤ p → R.cell p = none

omit [DecidableEq ν] in
theorem holds_empty : (empty : Registry ν δ).Holds [] :=
  ⟨rfl, by simp, List.nodup_nil, by simp [empty], fun _ _ => rfl⟩

variable {R R' : Registry ν δ} {l : List (ℕ × ν × δ)} {b : Record ν δ} {name : ν}

/-! ### Looking up -/

/-- The search goes to the first record of the name. -/
theorem search_eq {cell : ℕ → Option (Record ν δ)} : (l : List (ℕ × ν × δ)) → (fuel : ℕ) →
    {h : Option ℕ} → Chain cell Record.next h (l.map Prod.fst) →
    (∀ e ∈ l, (cell e.1).map (fun b => (b.name, b.data)) = some e.2) → l.length ≤ fuel →
    search cell name fuel h = some ((l.find? fun e => e.2.1 = name).map Prod.fst)
  | [], fuel, h, hl, _, _ => by
      obtain rfl := chain_nil_iff.mp hl
      cases fuel <;> rfl
  | e :: l, 0, h, _, _, hfuel => absurd hfuel (by simp)
  | e :: l, fuel + 1, h, hl, hrec, hfuel => by
      obtain ⟨rfl, b, hb, hl⟩ := chain_cons_iff.mp hl
      have he := hrec e List.mem_cons_self
      rw [hb, Option.map_some, Option.some.injEq] at he
      have ih := search_eq l fuel hl (fun e he => hrec e (List.mem_cons_of_mem _ he))
        (Nat.le_of_succ_le_succ hfuel)
      simp only [search, hb, Option.bind_some, ih, List.find?_cons, ← he]
      split_ifs with hname <;> simp [hname]

namespace Holds

omit [DecidableEq ν] in
theorem lt_fresh (h : R.Holds l) {p : ℕ} (hp : p ∈ l.map Prod.fst) : p < R.fresh := by
  obtain ⟨b, hb⟩ := h.chain.live p hp
  by_contra hle
  rw [h.unused p (Nat.le_of_not_lt hle)] at hb
  simp at hb

omit [DecidableEq ν] in
theorem length_le (h : R.Holds l) : l.length ≤ R.fresh := by
  simpa using h.chain.length_le fun p hp => h.lt_fresh hp

/-- **A lookup returns the record of the name**, or none. -/
theorem fromName_eq (h : R.Holds l) (name : ν) :
    R.fromName name = some ((l.find? fun e => e.2.1 = name).map Prod.fst) :=
  search_eq l R.fresh h.chain h.records h.length_le

/-! ### Registering -/

omit [DecidableEq ν] in
theorem fresh_notMem (h : R.Holds l) : R.fresh ∉ l.map Prod.fst := fun hmem =>
  Nat.lt_irrefl _ (h.lt_fresh hmem)

omit [DecidableEq ν] in
/-- Other contents of the next cell to be given do not matter to the list. -/
theorem records_update (h : R.Holds l) (c : Option (Record ν δ)) : ∀ e ∈ l,
    (Function.update R.cell R.fresh c e.1).map (fun b => (b.name, b.data)) = some e.2 := by
  intro e he
  rw [Function.update_of_ne]
  · exact h.records e he
  · rintro heq
    exact h.fresh_notMem (heq ▸ List.mem_map_of_mem he)

omit [DecidableEq ν] in
/-- A record that is released at once leaves the list. -/
theorem free_alloc (h : R.Holds l) (b : Record ν δ) : ((R.alloc b).free R.fresh).Holds l := by
  have hcell : ((R.alloc b).free R.fresh).cell = R.cell := by
    show Function.update (Function.update R.cell R.fresh (some b)) R.fresh none = R.cell
    rw [Function.update_idem, ← h.unused R.fresh (Nat.le_refl _), Function.update_eq_self]
  refine ⟨hcell ▸ h.chain, hcell ▸ h.records, h.names, hcell ▸ h.listed, fun p hp => ?_⟩
  rw [hcell]
  exact h.unused p (Nat.le_of_succ_le hp)

omit [DecidableEq ν] in
/-- A record that is linked in front of the list. -/
theorem cons (h : R.Holds l) (hname : b.name ∉ l.map fun e => e.2.1) (hnext : b.next = R.top) :
    Holds ⟨Function.update R.cell R.fresh (some b), R.fresh + 1, some R.fresh⟩
      ((R.fresh, b.name, b.data) :: l) := by
  refine ⟨⟨rfl, b, Function.update_self .., ?_⟩, ?_, ?_, fun p hp => ?_, fun p hp => ?_⟩
  · rw [hnext]
    exact h.chain.update_of_notMem h.fresh_notMem _
  · rw [List.forall_mem_cons]
    exact ⟨by simp, h.records_update _⟩
  · rw [List.map_cons, List.nodup_cons]
    exact ⟨hname, h.names⟩
  · by_cases hpf : p = R.fresh
    · exact hpf ▸ List.mem_cons_self
    · have hp : (Function.update R.cell R.fresh (some b) p).isSome := hp
      rw [Function.update_of_ne hpf] at hp
      exact List.mem_cons_of_mem _ (h.listed p hp)
  · have hp : R.fresh + 1 ≤ p := hp
    show Function.update R.cell R.fresh (some b) p = none
    rw [Function.update_of_ne (by omega)]
    exact h.unused p (by omega)

/-- **What registering a new record does**: nothing when its name is in the list, and otherwise the
record becomes the first one. -/
theorem registerNew (h : R.Holds l) (hb : l ≠ [] ∨ b.next = none) :
    ∃ R', R.registerNew b = some R' ∧ R'.Holds (if b.name ∈ l.map fun e => e.2.1 then l
      else (R.fresh, b.name, b.data) :: l) := by
  have hcell : (R.alloc b).cell R.fresh = some b := Function.update_self ..
  have hfound : (R.alloc b).fromName b.name =
      some ((l.find? fun e => e.2.1 = b.name).map Prod.fst) :=
    search_eq l (R.fresh + 1) (h.chain.update_of_notMem h.fresh_notMem _) (h.records_update _)
      (Nat.le_succ_of_le h.length_le)
  have hmem : ((l.find? fun e => e.2.1 = b.name).map Prod.fst).isSome ↔
      b.name ∈ l.map fun e => e.2.1 := by
    simp [List.find?_isSome]
  refine ⟨_, by rw [Registry.registerNew, Registry.register, hcell, Option.bind_some, hfound,
    Option.map_some], ?_⟩
  by_cases hname : b.name ∈ l.map fun e => e.2.1
  · rw [if_pos hname, if_pos (hmem.mpr hname)]
    exact h.free_alloc b
  · rw [if_neg hname, if_neg (fun hsome => hname (hmem.mp hsome))]
    cases htop : R.top with
    | some q =>
      simp only [Registry.alloc, htop, Option.isSome_some, if_true, Function.update_idem]
      exact h.cons (b := { b with next := some q }) hname htop.symm
    | none =>
      have hnil : l = [] := h.chain.eq_none_iff.mp htop |> List.map_eq_nil_iff.mp
      simp only [Registry.alloc, htop, Option.isSome_none, Bool.false_eq_true, if_false]
      exact h.cons hname ((hb.resolve_left (not_not.mpr hnil)).trans htop.symm)

end Holds

/-! ### Histories -/

/-- The entries of the list after a record is registered. -/
def entered (m : List (ν × δ)) (b : Record ν δ) : List (ν × δ) :=
  if b.name ∈ m.map Prod.fst then m else (b.name, b.data) :: m

/-- **The first record of a name wins**: what is found afterwards is what was there before, or else
the first of the new records. -/
theorem find?_foldl_entered (name : ν) (bs : List (Record ν δ)) : ∀ m : List (ν × δ),
    (bs.foldl entered m).find? (fun e => e.1 = name) =
      (m.find? fun e => e.1 = name).or
        ((bs.find? fun b => b.name = name).map fun b => (b.name, b.data)) := by
  induction bs with
  | nil => intro m; simp
  | cons b bs ih =>
    intro m
    rw [List.foldl_cons, ih, List.find?_cons, entered]
    by_cases hmem : b.name ∈ m.map Prod.fst
    · rw [if_pos hmem]
      by_cases hname : b.name = name
      · -- The name is there already, and the new record does not count.
        have hsome : (m.find? fun e => e.1 = name).isSome := by
          obtain ⟨e, he, heq⟩ := List.mem_map.mp hmem
          exact List.find?_isSome.mpr ⟨e, he, by simpa using heq.trans hname⟩
        obtain ⟨e, he⟩ := Option.isSome_iff_exists.mp hsome
        simp [he]
      · simp [hname]
    · rw [if_neg hmem, List.find?_cons]
      by_cases hname : b.name = name
      · have hnone : (m.find? fun e => e.1 = name) = none := by
          refine List.find?_eq_none.mpr fun e he heq => hmem ?_
          rw [hname, ← of_decide_eq_true heq]
          exact List.mem_map_of_mem he
        simp [hname, hnone]
      · simp [hname]

/-- **After any records are registered** the list is their history: every step completes. -/
theorem Holds.foldlM_registerNew (bs : List (Record ν δ)) : ∀ {R : Registry ν δ}
    {l : List (ℕ × ν × δ)}, R.Holds l → (l ≠ [] ∨ ∀ b ∈ bs.head?, b.next = none) →
      ∃ R' l', bs.foldlM Registry.registerNew R = some R' ∧ R'.Holds l' ∧
        l'.map Prod.snd = bs.foldl entered (l.map Prod.snd) := by
  induction bs with
  | nil => exact fun {R l} h _ => ⟨R, l, rfl, h, rfl⟩
  | cons b bs ih =>
    intro R l h hb
    obtain ⟨R₁, h₁, hholds⟩ := h.registerNew (b := b) (hb.imp_right fun h => h b rfl)
    obtain ⟨R', l', hrun, hl', hmap⟩ := ih hholds (Or.inl (by
      split_ifs with hmem
      · rintro rfl
        simp at hmem
      · simp))
    refine ⟨R', l', ?_, hl', hmap.trans ?_⟩
    · rw [List.foldlM_cons, h₁]
      exact hrun
    · rw [List.foldl_cons, entered]
      have hnames : (l.map Prod.snd).map Prod.fst = l.map fun e => e.2.1 := by
        rw [List.map_map]
        rfl
      rw [hnames]
      split_ifs <;> rfl

/-! ### Releasing the list -/

omit [DecidableEq ν] in
/-- Releasing the records from one on releases each of them. -/
theorem freeFrom_eq : (l : List ℕ) → (fuel : ℕ) → {R : Registry ν δ} → {h : Option ℕ} →
    Chain R.cell Record.next h l → l.length ≤ fuel →
    ∃ R', freeFrom fuel R h = some R' ∧ (∀ p, R'.cell p = if p ∈ l then none else R.cell p) ∧
      R'.top = R.top ∧ R'.fresh = R.fresh
  | [], fuel, R, h, hl, _ => by
      obtain rfl := chain_nil_iff.mp hl
      cases fuel <;> exact ⟨R, rfl, by simp, rfl, rfl⟩
  | p :: l, 0, R, h, _, hfuel => absurd hfuel (by simp)
  | p :: l, fuel + 1, R, h, hl, hfuel => by
      have hp : p ∉ l := (List.nodup_cons.mp hl.nodup).1
      obtain ⟨rfl, b, hb, hl⟩ := chain_cons_iff.mp hl
      obtain ⟨R', hrun, hcell, htop, hfresh⟩ := freeFrom_eq l fuel
        (R := R.free p) (hl.update_of_notMem hp none) (Nat.le_of_succ_le_succ hfuel)
      refine ⟨R', by rw [freeFrom, hb, Option.bind_some, hrun], fun q => ?_, htop, hfresh⟩
      rw [hcell]
      show (if q ∈ l then none else Function.update R.cell p none q) = _
      by_cases hq : q = p
      · subst hq
        rw [Function.update_self, ite_self, if_pos List.mem_cons_self]
      · rw [Function.update_of_ne hq]
        simp only [List.mem_cons, hq, false_or]

/-- **Releasing the list** completes and leaves no record allocated. The first record is still read
by a lookup, which does not complete. -/
theorem Holds.freeList (h : R.Holds l) : ∃ R', R.freeList = some R' ∧ (∀ p, R'.cell p = none) ∧
    (l ≠ [] → ∀ name, R'.fromName name = none) := by
  obtain ⟨R', hrun, hcell, htop, hfresh⟩ :=
    freeFrom_eq (l.map Prod.fst) R.fresh h.chain (by simpa using h.length_le)
  have hnone : ∀ p, R'.cell p = none := by
    intro p
    rw [hcell]
    split_ifs with hp
    · rfl
    · exact Option.not_isSome_iff_eq_none.mp fun hsome => hp (h.listed p hsome)
  refine ⟨R', hrun, hnone, fun hl name => ?_⟩
  have hhead := h.chain.head_eq
  cases hl' : l with
  | nil => exact absurd hl' hl
  | cons e l' =>
    rw [hl', List.map_cons, List.head?_cons] at hhead
    have hlt : e.1 < R.fresh := h.lt_fresh (by rw [hl']; exact List.mem_cons_self)
    obtain ⟨k, hk⟩ := Nat.exists_eq_add_of_lt hlt
    rw [Registry.fromName, htop, hhead, hfresh, hk, search, hnone]
    rfl

end Registry

end Cells

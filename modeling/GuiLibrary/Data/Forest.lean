import GuiLibrary.Data.Chain
import Mathlib.Logic.Relation

/-!
# Forests linked by parent, first child and next sibling

A memory of cells carries a forest when every cell has a link to its parent, to its first child
and to its next sibling. `Forest` is the inductive type of such forests in the shape in which a
program walks them: a first node, the forest of its children, and the forest of its later
siblings. `Represents L cell o h f` says that the cells reachable from the first-child link `h` of
the cell `o` form the forest `f`.

A memory is *well linked* when the sibling chain of every cell lists exactly the cells whose
parent it is, parents are allocated, and some bounded rank grows from parents to children. Then
every cell carries a forest (`WellLinked.exists_represents`), whose nodes are the cells below it
(`Represents.mem_nodes_iff`), each visited once (`Represents.nodup_nodes`).

## Main definitions

* `Forest`, `Forest.nodes`, `Forest.roots`.
* `Links`, `Links.ChildOf`, `Links.Below`, `Represents`, `WellLinked`.

## Main results

* `Represents.congr`: frame rule; `Represents.unique`.
* `WellLinked.exists_represents`, `Represents.mem_nodes_iff`, `Represents.nodup_nodes`.
-/

namespace Cells

/-- A forest: a first node with the forest of its children, and the forest of its siblings. -/
inductive Forest (α : Type*) where
  | nil : Forest α
  | cons (node : α) (kids rest : Forest α) : Forest α

namespace Forest

variable {α : Type*}

/-- The nodes of a forest, parents before children, siblings in order. -/
def nodes : Forest α → List α
  | nil => []
  | cons p kids rest => p :: (kids.nodes ++ rest.nodes)

/-- The nodes at the top of a forest, in order. -/
def roots : Forest α → List α
  | nil => []
  | cons p _ rest => p :: rest.roots

@[simp] theorem nodes_nil : (nil : Forest α).nodes = [] := rfl

@[simp] theorem nodes_cons (p : α) (kids rest : Forest α) :
    (cons p kids rest).nodes = p :: (kids.nodes ++ rest.nodes) := rfl

@[simp] theorem roots_nil : (nil : Forest α).roots = [] := rfl

@[simp] theorem roots_cons (p : α) (kids rest : Forest α) :
    (cons p kids rest).roots = p :: rest.roots := rfl

theorem roots_subset_nodes : (f : Forest α) → f.roots ⊆ f.nodes
  | nil => by simp
  | cons p kids rest => by
      simp only [roots_cons, nodes_cons]
      exact List.cons_subset_cons p
        (List.Subset.trans (roots_subset_nodes rest) (List.subset_append_right _ _))

end Forest

namespace Forest

variable {α : Type*} (keep : α → Prop) [DecidablePred keep]

/-- The forest without the nodes that are not kept, and without what is below them. -/
def prune : Forest α → Forest α
  | nil => nil
  | cons p kids rest => if keep p then cons p (prune kids) (prune rest) else prune rest

/-- The forest lists, from its top on, what `children` lists. -/
def Unfolds (children : α → List α) : List α → Forest α → Prop
  | l, nil => l = []
  | l, cons p kids rest => ∃ l', l = p :: l' ∧ Unfolds children (children p) kids ∧
      Unfolds children l' rest

variable {keep} {children children' : α → List α}

/-- What stays when a forest is pruned. -/
theorem mem_of_mem_prune {q : α} {f : Forest α} :
    q ∈ (f.prune keep).nodes → q ∈ f.nodes ∧ keep q := by
  induction f with
  | nil => simp [Forest.prune]
  | cons p kids rest ihk ihr =>
    rw [Forest.prune]
    split_ifs with hkeep
    · simp only [Forest.nodes_cons, List.mem_cons, List.mem_append]
      rintro (rfl | hq | hq)
      · exact ⟨Or.inl rfl, hkeep⟩
      · exact ⟨Or.inr (Or.inl (ihk hq).1), (ihk hq).2⟩
      · exact ⟨Or.inr (Or.inr (ihr hq).1), (ihr hq).2⟩
    · exact fun hq => ⟨List.mem_cons_of_mem _ (List.mem_append_right _ (ihr hq).1), (ihr hq).2⟩

theorem Unfolds.unique : {f g : Forest α} → {l : List α} → Unfolds children l f →
    Unfolds children l g → f = g
  | nil, nil, _, _, _ => rfl
  | nil, cons .., _, hf, ⟨_, hl, _⟩ => absurd (hf.symm.trans hl) (by simp)
  | cons .., nil, _, ⟨_, hl, _⟩, hg => absurd (hg.symm.trans hl) (by simp)
  | cons p kids rest, cons q kids' rest', _, ⟨l, hl, hk, hr⟩, ⟨l', hl', hk', hr'⟩ => by
      obtain ⟨rfl, rfl⟩ := List.cons.inj (hl.symm.trans hl')
      rw [unique hk hk', unique hr hr']

/-- Pruning a forest is filtering the lists. -/
theorem Unfolds.prune : {f : Forest α} → {l : List α} → Unfolds children l f →
    (∀ p ∈ (f.prune keep).nodes, keep p → children' p = (children p).filter keep) →
      Unfolds children' (l.filter keep) (f.prune keep)
  | nil, _, hf, _ => by rw [show _ = [] from hf]; rfl
  | cons p kids rest, _, ⟨l, hl, hk, hr⟩, h => by
      subst hl
      rw [Forest.prune] at h ⊢
      by_cases hkeep : keep p
      · simp only [if_pos hkeep, nodes_cons, List.forall_mem_cons, List.forall_mem_append] at h ⊢
        obtain ⟨hp, hkids, hrest⟩ := h
        rw [List.filter_cons_of_pos (by simpa using hkeep)]
        refine ⟨_, rfl, ?_, hr.prune hrest⟩
        rw [hp hkeep]
        exact hk.prune hkids
      · rw [if_neg hkeep] at h ⊢
        rw [List.filter_cons_of_neg (by simpa using hkeep)]
        exact hr.prune h

end Forest

/-- How a cell is linked into a forest. -/
structure Links (α β : Type*) where
  /-- The parent of a cell. -/
  parent : β → Option α
  /-- The first child of a cell. -/
  kid : β → Option α
  /-- The next sibling of a cell. -/
  sib : β → Option α

variable {α β : Type*} {L : Links α β} {cell cell' : α → Option β}

/-- `c` is allocated and its parent is `p`. -/
def Links.ChildOf (L : Links α β) (cell : α → Option β) (c p : α) : Prop :=
  ∃ b, cell c = some b ∧ L.parent b = some p

/-- `c` is a proper descendant of `p`. -/
def Links.Below (L : Links α β) (cell : α → Option β) (c p : α) : Prop :=
  Relation.TransGen (L.ChildOf cell) c p

theorem Links.ChildOf.right_unique {c p q : α} (hp : L.ChildOf cell c p)
    (hq : L.ChildOf cell c q) : p = q := by
  obtain ⟨b, hb, hbp⟩ := hp
  obtain ⟨b', hb', hbq⟩ := hq
  obtain rfl : b = b' := Option.some.inj (hb.symm.trans hb')
  exact Option.some.inj (hbp.symm.trans hbq)

/-- The first step of a descent goes to the parent. -/
theorem Links.Below.parent_cases {c p q : α} (h : L.Below cell c p) (hq : L.ChildOf cell c q) :
    q = p ∨ L.Below cell q p := by
  rcases Relation.TransGen.head'_iff.mp h with ⟨d, hcd, hdp⟩
  obtain rfl := hq.right_unique hcd
  rcases Relation.reflTransGen_iff_eq_or_transGen.mp hdp with rfl | hdp
  · exact Or.inl rfl
  · exact Or.inr hdp

/-- Following first children and siblings from the first child `h` of `o` walks the forest `f`. -/
def Represents (L : Links α β) (cell : α → Option β) : α → Option α → Forest α → Prop
  | _, h, .nil => h = none
  | o, h, .cons p kids rest => h = some p ∧ ∃ b, cell p = some b ∧ L.parent b = some o ∧
      Represents L cell p (L.kid b) kids ∧ Represents L cell o (L.sib b) rest

@[simp] theorem represents_nil_iff {o : α} {h : Option α} :
    Represents L cell o h .nil ↔ h = none := Iff.rfl

@[simp] theorem represents_cons_iff {o : α} {h : Option α} {p : α} {kids rest : Forest α} :
    Represents L cell o h (.cons p kids rest) ↔ h = some p ∧ ∃ b, cell p = some b ∧
      L.parent b = some o ∧ Represents L cell p (L.kid b) kids ∧
        Represents L cell o (L.sib b) rest := Iff.rfl

namespace Represents

/-- The top nodes of a represented forest form a chain of siblings. -/
theorem chain_roots : {f : Forest α} → {o : α} → {h : Option α} → Represents L cell o h f →
    Chain cell L.sib h f.roots
  | .nil, _, _, hf => hf
  | .cons _ _ _, _, _, ⟨hp, b, hb, _, _, hrest⟩ => ⟨hp, b, hb, hrest.chain_roots⟩

theorem live : {f : Forest α} → {o : α} → {h : Option α} → Represents L cell o h f →
    ∀ q ∈ f.nodes, ∃ b, cell q = some b
  | .nil, _, _, _ => by simp
  | .cons p kids rest, _, _, ⟨_, b, hb, _, hkids, hrest⟩ => by
      intro q hq
      simp only [Forest.nodes_cons, List.mem_cons, List.mem_append] at hq
      rcases hq with rfl | hq | hq
      · exact ⟨b, hb⟩
      · exact hkids.live q hq
      · exact hrest.live q hq

/-- **Frame rule.** A representation only reads the links of its own cells. -/
theorem congr : {f : Forest α} → {o : α} → {h : Option α} → Represents L cell o h f →
    (∀ q ∈ f.nodes, (cell' q).map (fun b => (L.parent b, L.kid b, L.sib b)) =
      (cell q).map fun b => (L.parent b, L.kid b, L.sib b)) → Represents L cell' o h f
  | .nil, _, _, hf, _ => hf
  | .cons p kids rest, o, h, ⟨hp, b, hb, ho, hkids, hrest⟩, hc => by
      have hpc := hc p List.mem_cons_self
      rw [hb, Option.map_some, Option.map_eq_some_iff] at hpc
      obtain ⟨b', hb', hl⟩ := hpc
      obtain ⟨h₁, h₂, h₃⟩ : L.parent b' = L.parent b ∧ L.kid b' = L.kid b ∧ L.sib b' = L.sib b := by
        simpa using hl
      refine ⟨hp, b', hb', h₁.trans ho, h₂ ▸ hkids.congr fun q hq => hc q ?_,
        h₃ ▸ hrest.congr fun q hq => hc q ?_⟩
      · exact List.mem_cons_of_mem _ (List.mem_append_left _ hq)
      · exact List.mem_cons_of_mem _ (List.mem_append_right _ hq)

/-- Every node of the forest under `o` lies below `o`. -/
theorem below : {f : Forest α} → {o : α} → {h : Option α} → Represents L cell o h f →
    ∀ q ∈ f.nodes, L.Below cell q o
  | .nil, _, _, _ => by simp
  | .cons p kids rest, _, _, ⟨_, b, hb, ho, hkids, hrest⟩ => by
      intro q hq
      simp only [Forest.nodes_cons, List.mem_cons, List.mem_append] at hq
      rcases hq with rfl | hq | hq
      · exact .single ⟨b, hb, ho⟩
      · exact (hkids.below q hq).tail ⟨b, hb, ho⟩
      · exact hrest.below q hq

theorem root_childOf : {f : Forest α} → {o : α} → {h : Option α} → Represents L cell o h f →
    ∀ q ∈ f.roots, L.ChildOf cell q o
  | .nil, _, _, _ => by simp
  | .cons p kids rest, _, _, ⟨_, b, hb, ho, _, hrest⟩ => by
      intro q hq
      rcases List.mem_cons.mp hq with rfl | hq
      · exact ⟨b, hb, ho⟩
      · exact hrest.root_childOf q hq

/-- A node of a represented forest is a top node or lies below one. -/
theorem mem_roots_or_below : {f : Forest α} → {o : α} → {h : Option α} →
    Represents L cell o h f → ∀ q ∈ f.nodes, q ∈ f.roots ∨ ∃ r ∈ f.roots, L.Below cell q r
  | .nil, _, _, _ => by simp
  | .cons p kids rest, _, _, ⟨_, b, hb, ho, hkids, hrest⟩ => by
      intro q hq
      simp only [Forest.nodes_cons, List.mem_cons, List.mem_append] at hq
      rcases hq with rfl | hq | hq
      · exact Or.inl List.mem_cons_self
      · exact Or.inr ⟨p, List.mem_cons_self, hkids.below q hq⟩
      · rcases hrest.mem_roots_or_below q hq with hq | ⟨r, hr, hq⟩
        · exact Or.inl (List.mem_cons_of_mem p hq)
        · exact Or.inr ⟨r, List.mem_cons_of_mem p hr, hq⟩

/-- Every node of a represented forest carries the forest of its own children. -/
theorem exists_kids : {f : Forest α} → {o : α} → {h : Option α} → Represents L cell o h f →
    ∀ q ∈ f.nodes, ∃ b kids, cell q = some b ∧ Represents L cell q (L.kid b) kids ∧
      kids.nodes ⊆ f.nodes
  | .nil, _, _, _ => by simp
  | .cons p kids rest, _, _, ⟨_, b, hb, ho, hkids, hrest⟩ => by
      intro q hq
      simp only [Forest.nodes_cons, List.mem_cons, List.mem_append] at hq
      rcases hq with rfl | hq | hq
      · exact ⟨b, kids, hb, hkids, fun x hx => List.mem_cons_of_mem _ (List.mem_append_left _ hx)⟩
      · obtain ⟨b', kids', hb', hk', hs⟩ := hkids.exists_kids q hq
        exact ⟨b', kids', hb', hk',
          fun x hx => List.mem_cons_of_mem _ (List.mem_append_left _ (hs hx))⟩
      · obtain ⟨b', kids', hb', hk', hs⟩ := hrest.exists_kids q hq
        exact ⟨b', kids', hb', hk',
          fun x hx => List.mem_cons_of_mem _ (List.mem_append_right _ (hs hx))⟩

theorem unique : {f g : Forest α} → {o : α} → {h : Option α} → Represents L cell o h f →
    Represents L cell o h g → f = g
  | .nil, .nil, _, _, _, _ => rfl
  | .nil, .cons _ _ _, _, _, hf, hg => by simp [represents_nil_iff.mp hf] at hg
  | .cons _ _ _, .nil, _, _, hf, hg => by simp [represents_nil_iff.mp hg] at hf
  | .cons p _ _, .cons q _ _, _, _, ⟨hp, b, hb, _, hk, hr⟩, ⟨hq, b', hb', _, hk', hr'⟩ => by
      obtain rfl : p = q := Option.some.inj (hp.symm.trans hq)
      obtain rfl : b = b' := Option.some.inj (hb.symm.trans hb')
      rw [unique hk hk', unique hr hr']

end Represents

/-- The cells form a forest: the sibling chain of every cell lists its children, parents are
allocated, and a bounded rank grows from parents to children. -/
structure WellLinked (L : Links α β) (cell : α → Option β) (rank : α → ℕ) (bound : ℕ) : Prop where
  children : ∀ p b, cell p = some b →
    ∃ l, Chain cell L.sib (L.kid b) l ∧ ∀ c, c ∈ l ↔ L.ChildOf cell c p
  parent_live : ∀ c p, L.ChildOf cell c p → ∃ b, cell p = some b
  rank_lt : ∀ c p, L.ChildOf cell c p → rank p < rank c
  rank_bound : ∀ p b, cell p = some b → rank p < bound

namespace WellLinked

variable {rank : α → ℕ} {bound : ℕ}

theorem rank_lt_of_below (hw : WellLinked L cell rank bound) {c p : α}
    (h : L.Below cell c p) : rank p < rank c := by
  induction h using Relation.TransGen.head_induction_on with
  | single h => exact hw.rank_lt _ _ h
  | head h _ ih => exact Nat.lt_trans ih (hw.rank_lt _ _ h)

theorem not_below_self (hw : WellLinked L cell rank bound) (p : α) : ¬ L.Below cell p p :=
  fun h => Nat.lt_irrefl _ (hw.rank_lt_of_below h)

/-- Siblings are not below one another. -/
theorem not_below_sibling (hw : WellLinked L cell rank bound) {p q o : α}
    (hp : L.ChildOf cell p o) (hq : L.ChildOf cell q o) : ¬ L.Below cell p q := by
  intro h
  rcases h.parent_cases hp with rfl | ho
  · exact hw.not_below_self o (.single hq)
  · exact hw.not_below_self o (ho.tail hq)

/-- Nothing lies below two siblings. -/
theorem eq_of_below_siblings (hw : WellLinked L cell rank bound) {x p q o : α}
    (hp : L.ChildOf cell p o) (hq : L.ChildOf cell q o) (hxp : L.Below cell x p)
    (hxq : L.Below cell x q) : p = q := by
  have huniq : Relator.RightUnique (L.ChildOf cell) := fun _ _ _ h h' => h.right_unique h'
  rcases Relation.ReflTransGen.total_of_right_unique huniq hxp.to_reflTransGen
    hxq.to_reflTransGen with h | h
  · rcases Relation.reflTransGen_iff_eq_or_transGen.mp h with h | h
    · exact h.symm
    · exact absurd h (hw.not_below_sibling hp hq)
  · rcases Relation.reflTransGen_iff_eq_or_transGen.mp h with h | h
    · exact h
    · exact absurd h (hw.not_below_sibling hq hp)

private theorem exists_represents_chain {p : α}
    (ih : ∀ c b, L.ChildOf cell c p → cell c = some b →
      ∃ f, Represents L cell c (L.kid b) f) :
    ∀ {l : List α} {h : Option α}, Chain cell L.sib h l → (∀ c ∈ l, L.ChildOf cell c p) →
      ∃ f, Represents L cell p h f ∧ f.roots = l
  | [], _, hl, _ => ⟨.nil, hl, rfl⟩
  | c :: l, _, ⟨hh, b, hb, hl⟩, hc => by
      have hcp := hc c List.mem_cons_self
      obtain ⟨kids, hkids⟩ := ih c b hcp hb
      obtain ⟨rest, hrest, hroots⟩ :=
        exists_represents_chain ih hl fun d hd => hc d (List.mem_cons_of_mem c hd)
      obtain ⟨b', hb', hpar⟩ := hcp
      obtain rfl : b = b' := Option.some.inj (hb.symm.trans hb')
      exact ⟨.cons c kids rest, ⟨hh, b, hb, hpar, hkids, hrest⟩, by rw [Forest.roots_cons, hroots]⟩

/-- Every allocated cell of a well-linked memory carries the forest of its descendants. -/
theorem exists_represents (hw : WellLinked L cell rank bound) {p : α} {b : β}
    (hp : cell p = some b) : ∃ f, Represents L cell p (L.kid b) f := by
  induction hn : bound - rank p using Nat.strongRecOn generalizing p b with
  | ind n ih =>
    obtain ⟨l, hl, hmem⟩ := hw.children p b hp
    obtain ⟨f, hf, -⟩ := exists_represents_chain (p := p) (fun c b' hc hb' => by
      have h₁ := hw.rank_lt c p hc
      have h₂ := hw.rank_bound c b' hb'
      exact ih (bound - rank c) (by omega) hb' rfl) hl fun c hc => (hmem c).mp hc
    exact ⟨f, hf⟩

end WellLinked

namespace Represents

variable {rank : α → ℕ} {bound : ℕ}

/-- The top nodes of the forest of a cell are its children. -/
theorem mem_roots_iff (hw : WellLinked L cell rank bound) {p : α} {b : β} {f : Forest α}
    (hp : cell p = some b) (hf : Represents L cell p (L.kid b) f) (c : α) :
    c ∈ f.roots ↔ L.ChildOf cell c p := by
  obtain ⟨l, hl, hmem⟩ := hw.children p b hp
  rw [hf.chain_roots.unique hl, hmem]

/-- **The forest of a cell consists of the cells below it.** -/
theorem mem_nodes_iff (hw : WellLinked L cell rank bound) {p : α} {b : β} {f : Forest α}
    (hp : cell p = some b) (hf : Represents L cell p (L.kid b) f) (c : α) :
    c ∈ f.nodes ↔ L.Below cell c p := by
  refine ⟨hf.below c, fun h => ?_⟩
  induction h using Relation.TransGen.head_induction_on with
  | single h => exact f.roots_subset_nodes ((mem_roots_iff hw hp hf _).mpr h)
  | head h _ ih =>
    obtain ⟨b', kids, hb', hkids, hsub⟩ := hf.exists_kids _ ih
    exact hsub (kids.roots_subset_nodes ((mem_roots_iff hw hb' hkids _).mpr h))

/-- **Each node is visited once.** -/
theorem nodup_nodes (hw : WellLinked L cell rank bound) : {f : Forest α} → {o : α} →
    {h : Option α} → Represents L cell o h f → f.nodes.Nodup
  | .nil, _, _, _ => List.nodup_nil
  | .cons p kids rest, o, h, hf => by
      obtain ⟨hp, b, hb, ho, hkids, hrest⟩ := id hf
      have hpo : L.ChildOf cell p o := ⟨b, hb, ho⟩
      have hpr : p ∉ rest.roots := (List.nodup_cons.mp hf.chain_roots.nodup).1
      refine List.nodup_cons.mpr ⟨fun hmem => ?_, List.nodup_append.mpr
        ⟨nodup_nodes hw hkids, nodup_nodes hw hrest, ?_⟩⟩
      · rcases List.mem_append.mp hmem with hmem | hmem
        · exact hw.not_below_self p (hkids.below p hmem)
        · rcases hrest.mem_roots_or_below p hmem with hr | ⟨r, hr, hpr'⟩
          · exact hpr hr
          · exact hw.not_below_sibling hpo (hrest.root_childOf r hr) hpr'
      · rintro x hx y hy rfl
        have hxp := hkids.below x hx
        rcases hrest.mem_roots_or_below x hy with hr | ⟨r, hr, hxr⟩
        · exact hw.not_below_sibling (hrest.root_childOf x hr) hpo hxp
        · obtain rfl := hw.eq_of_below_siblings hpo (hrest.root_childOf r hr) hxp hxr
          exact hpr hr

/-- A represented forest lists the children lists. -/
theorem unfolds {children : α → List α}
    (hchildren : ∀ p b, cell p = some b → Chain cell L.sib (L.kid b) (children p)) :
    {f : Forest α} → {o : α} → {h : Option α} → Represents L cell o h f →
      f.Unfolds children f.roots
  | .nil, _, _, _ => rfl
  | .cons p kids rest, o, h, ⟨hp, b, hb, _, hkids, hrest⟩ => by
      refine ⟨rest.roots, rfl, ?_, hrest.unfolds hchildren⟩
      rw [(hchildren p b hb).unique hkids.chain_roots]
      exact hkids.unfolds hchildren

/-- What stays when a forest is pruned has been kept, and so has its parent. -/
theorem keep_of_mem_prune {keep : α → Prop} [DecidablePred keep] : {f : Forest α} → {o : α} →
    {h : Option α} → Represents L cell o h f → ∀ q ∈ (f.prune keep).nodes, ∀ p,
      L.ChildOf cell q p → p = o ∨ keep p
  | .nil, _, _, _, _, hq, _, _ => absurd hq List.not_mem_nil
  | .cons c kids rest, o, _, ⟨_, b, hb, hpar, hkids, hrest⟩, q, hq, p, hqp => by
      rw [Forest.prune] at hq
      split_ifs at hq with hkeep
      · simp only [Forest.nodes_cons, List.mem_cons, List.mem_append] at hq
        rcases hq with rfl | hq | hq
        · exact Or.inl (hqp.right_unique ⟨b, hb, hpar⟩)
        · rcases hkids.keep_of_mem_prune q hq p hqp with rfl | hp
          · exact Or.inr hkeep
          · exact Or.inr hp
        · exact hrest.keep_of_mem_prune q hq p hqp
      · exact hrest.keep_of_mem_prune q hq p hqp

/-- **Forests with the same lists of kept nodes**, at their tops and at the kept nodes, are the same
when they are pruned. -/
theorem prune_eq {keep : α → Prop} [DecidablePred keep] {bound' : ℕ} {rank' : α → ℕ}
    (hw : WellLinked L cell rank bound) (hw' : WellLinked L cell' rank' bound') {f f' : Forest α}
    {o o' : α} {h h' : Option α} (hf : Represents L cell o h f) (hf' : Represents L cell' o' h' f')
    (hroots : f'.roots.filter keep = f.roots.filter keep)
    (hkept : ∀ p b b' l l', keep p → cell p = some b → cell' p = some b' →
      Chain cell L.sib (L.kid b) l → Chain cell' L.sib (L.kid b') l' →
        l'.filter keep = l.filter keep)
    (hlive : ∀ p ∈ (f'.prune keep).nodes, ∃ b, cell p = some b) :
    f'.prune keep = f.prune keep := by
  -- The children lists of a memory, as a function.
  have hlists : ∀ {M : α → Option β} {r : α → ℕ} {n : ℕ}, WellLinked L M r n →
      ∃ children : α → List α, ∀ p b, M p = some b → Chain M L.sib (L.kid b) (children p) := by
    intro M r n hM
    have hone : ∀ p, ∃ l, ∀ b, M p = some b → Chain M L.sib (L.kid b) l := by
      intro p
      cases hp : M p with
      | none => exact ⟨[], fun b hb => absurd hb (by simp)⟩
      | some b =>
        obtain ⟨l, hl, -⟩ := hM.children p b hp
        exact ⟨l, fun b' hb' => Option.some.inj hb' ▸ hl⟩
    choose children hchildren using hone
    exact ⟨children, hchildren⟩
  obtain ⟨children, hc⟩ := hlists hw
  obtain ⟨children', hc'⟩ := hlists hw'
  have hpruned : Forest.Unfolds (fun p => (children p).filter keep) _ (f.prune keep) :=
    (hf.unfolds hc).prune fun p _ _ => rfl
  have hpruned' : Forest.Unfolds (fun p => (children p).filter keep) _ (f'.prune keep) :=
    (hf'.unfolds hc').prune fun p hp hkeep => by
      obtain ⟨b', hb'⟩ := hf'.live p (Forest.mem_of_mem_prune hp).1
      obtain ⟨b, hb⟩ := hlive p hp
      exact (hkept p b b' _ _ hkeep hb hb' (hc p b hb) (hc' p b' hb')).symm
  rw [hroots] at hpruned'
  exact hpruned'.unique hpruned

end Represents

end Cells

import GuiLibrary.Dispatch
import GuiLibrary.Hierarchy

/-!
# Searching the tree by pick colour

The searches of the tree visit the widgets in pre-order, each once, and return the first match.
Pick colours encode creation numbers modulo `2 ^ 24`, so while at most that many widgets have been
created the search for the colour of a widget returns this widget while it is alive, and nothing
afterwards.

## Main results

* `AppState.search_eq`: a search finds the first match in pre-order.
* `eiMapRgba_pickColorOf_eq_iff`, `pickColors_roundTrip`.
-/

namespace GuiLibrary

open Cells

/-! ### The searches -/

section Search

variable {s : AppState} (found : Widget → Bool)

/-- Whether the widget at an address matches. -/
def AppState.matches (s : AppState) (q : Ptr) : Bool := (s.widgets q).any found

/-- **The loop on siblings finds the first match in pre-order**, when the bound on its depth
reaches the number of widgets of the forest. -/
theorem searchSiblings_eq (f : Forest Ptr) : ∀ (fuel : ℕ) {o : Ptr} {h : Option Ptr},
    Represents nodeLinks s.nodes o h f → f.nodes.length ≤ fuel →
      searchSiblings s.widgets found fuel h = some (f.nodes.find? (s.matches found)) := by
  induction f with
  | nil =>
    rintro fuel o _ rfl -
    cases fuel <;> rfl
  | cons p kids rest ihk ihr =>
    rintro fuel o h ⟨rfl, n, hn, -, hkids, hrest⟩ hfuel
    obtain ⟨w, hw, rfl⟩ := AppState.nodes_eq_some.mp hn
    rw [Forest.nodes_cons, List.length_cons, List.length_append] at hfuel
    obtain ⟨k, rfl⟩ : ∃ k, fuel = k + 1 := ⟨fuel - 1, by omega⟩
    have hk : searchSiblings s.widgets found k w.childrenHead =
        some (kids.nodes.find? (s.matches found)) := ihk k hkids (by omega)
    have hr : searchSiblings s.widgets found k w.nextSibling =
        some (rest.nodes.find? (s.matches found)) := ihr k hrest (by omega)
    have hp : s.matches found p = found w := by rw [AppState.matches, hw, Option.any_some]
    simp only [searchSiblings, searchFrom, hw, Option.bind_eq_bind, Option.bind_some, hk, hr,
      Forest.nodes_cons, List.find?_cons, hp, List.find?_append]
    by_cases hfound : found w
    · simp [hfound]
    · cases hfind : kids.nodes.find? (s.matches found) with
      | none => simp [hfound]
      | some q => simp [hfound]

/-- **A search finds the first match in pre-order.** -/
theorem AppState.search_eq (hs : WellFormed s) {p : Ptr} {w : Widget} {f : Forest Ptr}
    (hp : s.widgets p = some w) (hf : Represents nodeLinks s.nodes p w.childrenHead f) :
    s.search found p = some ((p :: f.nodes).find? (s.matches found)) := by
  rw [AppState.search, searchFrom, hp, Option.bind_eq_bind, Option.bind_some,
    searchSiblings_eq found f s.nextWidget hf (hs.length_nodes_le hf), List.find?_cons,
    AppState.matches, hp, Option.any_some]
  by_cases hfound : found w <;> simp [hfound]

/-- What a search finds is alive. -/
theorem AppState.search_live (hs : WellFormed s) {p q : Ptr}
    (h : s.search found p = some (some q)) : s.Live q := by
  obtain ⟨w, hw, -⟩ := Option.bind_eq_some_iff.mp (id h)
  obtain ⟨f, hf⟩ := hs.exists_forest hw
  rw [search_eq found hs hw hf, Option.some.injEq] at h
  rcases List.mem_cons.mp (List.mem_of_find?_eq_some h) with rfl | hmem
  · exact live_iff.mpr ⟨w, hw⟩
  · exact hf.live q hmem

/-- What a search finds matches. -/
theorem AppState.search_found (hs : WellFormed s) {p q : Ptr}
    (h : s.search found p = some (some q)) : ∃ w, s.widgets q = some w ∧ found w = true := by
  obtain ⟨w, hw, -⟩ := Option.bind_eq_some_iff.mp (id h)
  obtain ⟨f, hf⟩ := hs.exists_forest hw
  rw [search_eq found hs hw hf, Option.some.injEq] at h
  have hmatch : s.matches found q = true := List.find?_some h
  exact (Option.any_eq_true _ _).mp hmatch

end Search

theorem live_of_eiWidgetPick {s : AppState} (hs : WellFormed s) {mouse : Point} {p : Ptr}
    (h : eiWidgetPick s mouse = some (some p)) : s.Live p := by
  obtain ⟨root, -, h⟩ := Option.bind_eq_some_iff.mp h
  exact AppState.search_live _ hs h

/-! ### Pick colours -/

/-- **The pixels of two pick colours are equal exactly when** the creation numbers agree modulo
`2 ^ 24`. -/
theorem eiMapRgba_pickColorOf_eq_iff (surface : Surface) (i j : BitVec 32) :
    eiMapRgba surface (pickColorOf i) = eiMapRgba surface (pickColorOf j) ↔
      i.toNat % 2 ^ 24 = j.toNat % 2 ^ 24 := by
  rw [eiMapRgba_inj surface ((alpha_pickColorOf i).trans (alpha_pickColorOf j).symm),
    pickColorOf_eq_iff]

/-- Among the first `2 ^ 24` addresses the pixel of a pick colour determines the address. -/
theorem eiMapRgba_pickColor_inj (surface : Surface) {p q : Ptr} (hp : p < 2 ^ 24)
    (hq : q < 2 ^ 24) :
    eiMapRgba surface (pickColorOf (BitVec.ofNat 32 p)) =
      eiMapRgba surface (pickColorOf (BitVec.ofNat 32 q)) ↔ p = q := by
  rw [eiMapRgba_pickColorOf_eq_iff, BitVec.toNat_ofNat, BitVec.toNat_ofNat]
  have h₁ : p % 2 ^ 32 % 2 ^ 24 = p := by
    rw [Nat.mod_eq_of_lt (Nat.lt_trans hp (by decide)), Nat.mod_eq_of_lt hp]
  have h₂ : q % 2 ^ 32 % 2 ^ 24 = q := by
    rw [Nat.mod_eq_of_lt (Nat.lt_trans hq (by decide)), Nat.mod_eq_of_lt hq]
  rw [h₁, h₂]

theorem Numbered.pickColor_eq {s : AppState} (hs : Numbered s) {p : Ptr} {w : Widget}
    (hp : s.widgets p = some w) : w.pickColor = pickColorOf (BitVec.ofNat 32 p) := by
  have hn := AppState.nodes_of_widgets hp
  have hcolor : w.pickColor = pickColorOf w.pickId := hs.pickColor p w.node hn
  have hid : w.pickId = BitVec.ofNat 32 p := hs.pickId p w.node hn
  rw [hcolor, hid]

/-- Pick colours are opaque. -/
theorem Numbered.alpha_pickColor {s : AppState} (hs : Numbered s) {p : Ptr} {w : Widget}
    (hp : s.widgets p = some w) : w.pickColor.alpha = 255 := by
  rw [hs.pickColor_eq hp, alpha_pickColorOf]

/-- **The search for the pixel of an address** returns the address when a widget is there, and
nothing otherwise. -/
theorem search_pickColor {s : AppState} (hs : WellFormed s) (hnum : Numbered s)
    (hle : s.nextWidget ≤ 2 ^ 24) {root : Ptr} (hroot : s.rootWidget = some root)
    (hlive : s.Live root) (surface : Surface) {k : Ptr} (hk : k < s.nextWidget) :
    s.search (fun w => eiMapRgba surface (pickColorOf (BitVec.ofNat 32 k)) =
      eiMapRgba surface w.pickColor) root = some ((s.widgets k).map fun _ => k) := by
  obtain ⟨w, hw⟩ := AppState.live_iff.mp hlive
  obtain ⟨f, hf⟩ := hs.exists_forest hw
  rw [AppState.search_eq _ hs hw hf, Option.some.injEq]
  have hmatch : ∀ q v, s.widgets q = some v → (eiMapRgba surface (pickColorOf (BitVec.ofNat 32 k)) =
      eiMapRgba surface v.pickColor ↔ k = q) := by
    intro q v hv
    rw [hnum.pickColor_eq hv]
    exact eiMapRgba_pickColor_inj surface (Nat.lt_of_lt_of_le hk hle)
      (Nat.lt_of_lt_of_le (hs.lt_nextWidget (AppState.live_iff.mpr ⟨v, hv⟩)) hle)
  cases hkv : s.widgets k with
  | none =>
    rw [Option.map_none, List.find?_eq_none]
    intro q hq
    obtain ⟨v, hv⟩ : ∃ v, s.widgets q = some v := by
      rcases List.mem_cons.mp hq with rfl | hq
      · exact ⟨w, hw⟩
      · exact AppState.live_iff.mp (hf.live q hq)
    rw [AppState.matches, hv, Option.any_some, decide_eq_true_iff, hmatch q v hv]
    rintro rfl
    simp [hkv] at hv
  | some v =>
    have hmem : k ∈ root :: f.nodes := by
      obtain ⟨r, n, hr, -, -, hkr⟩ := hs.inSubtree_root (AppState.live_iff.mpr ⟨v, hkv⟩)
      obtain rfl := Option.some.inj (hroot.symm.trans hr)
      rcases hkr with rfl | hkr
      · exact List.mem_cons_self
      · exact List.mem_cons_of_mem _
          ((hf.mem_nodes_iff hs.linked (AppState.nodes_of_widgets hw) k).mpr hkr)
    have hfound : ∃ q, (root :: f.nodes).find? (s.matches fun w =>
        eiMapRgba surface (pickColorOf (BitVec.ofNat 32 k)) = eiMapRgba surface w.pickColor) =
          some q := by
      rw [← Option.isSome_iff_exists, List.find?_isSome]
      refine ⟨k, hmem, ?_⟩
      rw [AppState.matches, hkv, Option.any_some, decide_eq_true_iff, hmatch k v hkv]
    obtain ⟨q, hq⟩ := hfound
    have hmatches := List.find?_some hq
    obtain ⟨u, hu⟩ : ∃ u, s.widgets q = some u := by
      cases hu : s.widgets q with
      | none => simp [AppState.matches, hu] at hmatches
      | some u => exact ⟨u, rfl⟩
    rw [AppState.matches, hu, Option.any_some, decide_eq_true_iff, hmatch q u hu] at hmatches
    rw [hq, Option.map_some, hmatches]

/-! ### Histories -/

section Histories

variable [Hardware]

theorem TreeStep.nextWidget_le {s s' : AppState} (hs : TreeInvariant s) (h : TreeStep s s') :
    s.nextWidget ≤ s'.nextWidget := by
  obtain ⟨l, hl, -⟩ := hs.bindings
  cases h with
  | create hparent h =>
    exact (eiWidgetCreate_created hs.wellFormed hparent h).1.grown.nextWidget_le
  | destroy _ h =>
    exact (eiWidgetDestroy_of_eq_some hs.wellFormed hl h).2.1.nextWidget.ge

theorem nextWidget_le_of_run {s s' : AppState} (hs : TreeInvariant s)
    (h : Relation.ReflTransGen TreeStep s s') : s.nextWidget ≤ s'.nextWidget := by
  have hinv : TreeInvariant s' ∧ s.nextWidget ≤ s'.nextWidget := by
    induction h with
    | refl => exact ⟨hs, Nat.le_refl _⟩
    | tail _ hstep ih => exact ⟨ih.1.step hstep, Nat.le_trans ih.2 (hstep.nextWidget_le ih.1)⟩
  exact hinv.2

/-- **Pick colours round-trip.** For every layout of the channels, the pixels of two pick colours
agree exactly when the creation numbers agree modulo `2 ^ 24`; and after any history with at most
`2 ^ 24` creations, searching the tree for the pixel that a widget had at any time returns that
widget if it is still in the tree, and nothing otherwise. -/
theorem pickColors_roundTrip (surface : Surface) :
    (∀ i j : BitVec 32, eiMapRgba surface (pickColorOf i) = eiMapRgba surface (pickColorOf j) ↔
      i.toNat % 2 ^ 24 = j.toNat % 2 ^ 24) ∧
    ∀ (size : Size) (rootSurface pickSurface : Surface) (s₀ s₁ s₂ : AppState) (root k : Ptr)
      (w : Widget), eiAppCreate size rootSurface pickSurface = some s₀ →
      Relation.ReflTransGen TreeStep s₀ s₁ → Relation.ReflTransGen TreeStep s₁ s₂ →
      s₂.nextWidget ≤ 2 ^ 24 → s₁.widgets k = some w → s₂.rootWidget = some root →
      s₂.Live root →
      eiWidgetPickRec s₂ root (eiMapRgba surface w.pickColor) surface =
          some ((s₂.widgets k).map fun _ => k) ∧
        findPickedInChildren s₂ root (eiMapRgba surface w.pickColor) surface =
          some ((s₂.widgets k).map fun _ => k) := by
  refine ⟨eiMapRgba_pickColorOf_eq_iff surface, ?_⟩
  intro size rootSurface pickSurface s₀ s₁ s₂ root k w h₀ h₁ h₂ hle hk hroot hlive
  have hinv₁ := treeInvariant_of_run h₀ h₁
  have hinv₂ := treeInvariant_of_run h₀ (h₁.trans h₂)
  have hlt := Nat.lt_of_lt_of_le
    (hinv₁.wellFormed.lt_nextWidget (AppState.live_iff.mpr ⟨w, hk⟩)) (nextWidget_le_of_run hinv₁ h₂)
  have hsearch := search_pickColor hinv₂.wellFormed hinv₂.numbered hle hroot hlive surface hlt
  rw [hinv₁.numbered.pickColor_eq hk]
  exact ⟨hsearch, hsearch⟩

end Histories

attribute [local instance] sampleHardware in
/-- The pixel of a toplevel finds the toplevel, and finds nothing once it is destroyed. -/
theorem pickColors_roundTrip_toplevel : ∃ w, sampleToplevel.widgets 1 = some w ∧
    eiWidgetPickRec sampleToplevel 0
        (eiMapRgba (sampleSurface ⟨640, 480⟩) w.pickColor) (sampleSurface ⟨640, 480⟩) =
      some ((sampleToplevel.widgets 1).map fun _ => 1) ∧
    eiWidgetPickRec sampleDestroyed 0
        (eiMapRgba (sampleSurface ⟨640, 480⟩) w.pickColor) (sampleSurface ⟨640, 480⟩) =
      some ((sampleDestroyed.widgets 1).map fun _ => 1) := by
  obtain ⟨w, hw⟩ := AppState.live_iff.mp sampleToplevel_live
  have hlive : (sampleToplevel.nodes 0).isSome ∧ (sampleDestroyed.nodes 0).isSome := by
    decide +kernel
  refine ⟨w, hw, ?_, ?_⟩
  · exact ((pickColors_roundTrip (sampleSurface ⟨640, 480⟩)).2 _ _ _ _ sampleToplevel _ 0 1 w
      (eiAppCreate_sampleApp ⟨640, 480⟩) run_sampleToplevel .refl (by decide +kernel) hw
      (by with_unfolding_all rfl) (Option.isSome_iff_exists.mp hlive.1)).1
  · exact ((pickColors_roundTrip (sampleSurface ⟨640, 480⟩)).2 _ _ _ _ _ sampleDestroyed 0 1 w
      (eiAppCreate_sampleApp ⟨640, 480⟩) run_sampleToplevel
      (.single (.destroy sampleToplevel_live eiWidgetDestroy_sampleToplevel)) (by decide +kernel)
      hw (by with_unfolding_all rfl) (Option.isSome_iff_exists.mp hlive.2)).1

end GuiLibrary

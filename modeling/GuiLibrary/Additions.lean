import GuiLibrary.Adoption
import GuiLibrary.Updates

/-!
# Creating a widget announces nothing

A new widget is not mapped, and neither is what is created with it, the hidden buttons of a
toplevel, shown before their toplevel is. The other widgets keep their records but for their links,
and the children lists stay the same but for the new widget: the scene does not change at all, at
any pixel.

## Main definitions

* `Additions`.

## Main results

* `additions_create`, `announces_create`.
-/

namespace GuiLibrary

open Cells Pictures

/-- The children lists at the addresses of `s` are the same in `s'`, but for the address `t`, whose
own list does not matter; what is invalidated besides lies in the window. -/
structure Additions (window : Size) (t : Ptr) (s s' : AppState) : Prop where
  screen : KeepsScreen s s'
  damage : DamageMonotone s s'
  rects : RectsFit window s → RectsFit window s'
  lists : ∀ q n l, q ≠ t → s.nodes q = some n → Chain s.nodes Node.nextSibling n.childrenHead l →
    ∃ n' l', s'.nodes q = some n' ∧ Chain s'.nodes Node.nextSibling n'.childrenHead l' ∧
      l'.filter (· ≠ t) = l.filter (· ≠ t)

namespace Additions

variable {window : Size} {t p : Ptr} {s s₁ s₂ s' : AppState}

theorem trans (h₁ : Additions window t s s₁) (h₂ : Additions window t s₁ s₂) :
    Additions window t s s₂ := by
  refine ⟨h₁.screen.trans h₂.screen, h₁.damage.trans h₂.damage, h₂.rects ∘ h₁.rects,
    fun q n l hq hn hl => ?_⟩
  obtain ⟨n₁, l₁, hn₁, hl₁, heq₁⟩ := h₁.lists q n l hq hn hl
  obtain ⟨n₂, l₂, hn₂, hl₂, heq₂⟩ := h₂.lists q n₁ l₁ hq hn₁ hl₁
  exact ⟨n₂, l₂, hn₂, hl₂, heq₂.trans heq₁⟩

/-- A step that keeps the links. -/
theorem of_links (hscreen : KeepsScreen s s') (hdamage : DamageMonotone s s')
    (hrects : RectsFit window s → RectsFit window s')
    (hlinks : ∀ q, (s'.nodes q).map Node.links = (s.nodes q).map Node.links) :
    Additions window t s s' := by
  refine ⟨hscreen, hdamage, hrects, fun q n l _ hn hl => ?_⟩
  have hq := hlinks q
  rw [hn, Option.map_some, Option.map_eq_some_iff] at hq
  obtain ⟨n', hn', heq⟩ := hq
  have hhead : n'.childrenHead = n.childrenHead := congrArg (fun l => l.2.1) heq
  refine ⟨n', l, hn', ?_, rfl⟩
  rw [hhead]
  refine hl.congr fun p _ => ?_
  have hp := congrArg (Option.map fun l => l.2.2.2) (hlinks p)
  rwa [Option.map_map, Option.map_map] at hp

theorem onlyBinds (h : OnlyBinds s s') : Additions window t s s' :=
  .of_links (.onlyCells h.onlyCells) (.of_eq (by rw [h])) (fun hr => hr.of_eq (by rw [h]))
    fun q => by rw [show s'.nodes = s.nodes by rw [h]; rfl]

/-- Linking a new widget: it is the one that does not count, or a child of it. -/
theorem insertChild [Hardware] {c : WidgetClass} {parent : Ptr} {d : Option ℕ}
    (hs : WellFormed s) (hparent : s.Live parent)
    (h : GuiLibrary.insertChild (s.allocWidget (newWidget s.widId c (some parent) d)) parent
      s.nextWidget = some s') (ht : s.nextWidget = t ∨ parent = t) : Additions window t s s' := by
  obtain ⟨pn, hpn⟩ := hparent
  obtain ⟨l, hl, htail, -⟩ := hs.exists_children hpn
  have hwl := hs.nextWidget_notMem hl
  have hne : parent ≠ s.nextWidget := by
    rintro rfl
    simp [hs.nodes_nextWidget] at hpn
  have hN := s.nodes_allocWidget (newWidget s.widId c (some parent) d)
  obtain ⟨l₁, l₂, rfl, hsp, honly⟩ := insertChild_inserted
    (n := (newWidget s.widId c (some parent) d).node) hne
    (by rw [hN, Function.update_of_ne hne, hpn]) (by rw [hN, Function.update_self])
    (hN ▸ hl.update_of_notMem hwl _) htail (hs.notMem_children hpn hl) hwl h
  obtain ⟨hgrown, hnext, -⟩ := insertChild_grown hs ⟨pn, hpn⟩ h
  have hadopted : Adopted s s' parent (newWidget s.widId c (some parent) d).node.nodeClass l₁ l₂ :=
    ⟨hgrown, hnext, _, rfl, rfl, rfl, hN ▸ hsp⟩
  refine ⟨?_, .of_eq (by rw [honly]; rfl), fun hr => hr.of_eq (by rw [honly]; rfl),
    fun q n l hq hn hlq => ?_⟩
  · apply KeepsScreen.of_eq <;> rw [honly] <;> rfl
  · by_cases hqp : q = parent
    · subst hqp
      obtain rfl := Option.some.inj (hpn.symm.trans hn)
      obtain rfl := hlq.unique hl
      obtain ⟨n', hn', -, -, hl'⟩ := hadopted.children hs hpn hl
      refine ⟨n', _, hn', hl', ?_⟩
      rw [ht.resolve_right hq, List.filter_append, List.filter_append,
        List.filter_cons_of_neg (by simp)]
    · obtain ⟨n', hn', -, -, hl'⟩ := hadopted.children_of_ne hs hpn hl hqp hn hlq
      exact ⟨n', l, hn', hl', rfl⟩

end Additions

section Create

variable [Hardware] {window : Size} {t wid : Ptr} {s s' : AppState} {c : WidgetClass}
  {d : Option ℕ} {x : Point}

omit [Hardware] in
/-- Keeping the old widgets keeps the window. -/
theorem KeepsBodies.hasWindow (hs : WellFormed s) (h : KeepsBodies (· < s.nextWidget) s s')
    (hroot : s'.rootWidget = s.rootWidget) (hwin : s.HasWindow window) : s'.HasWindow window := by
  obtain ⟨r, w, hr, hw, rfl⟩ := hwin
  have hbody := h r (hs.rootWidget_lt r hr)
  rw [hw, Option.map_some, Option.map_eq_some_iff] at hbody
  obtain ⟨w', hw', hbody⟩ := hbody
  exact ⟨r, w', hroot.trans hr, hw', by rw [Widget.screenLocation_of_body hbody]⟩

omit [Hardware] in
theorem links_setResizeButton (w : Widget) : w.setResizeButton.node.links = w.node.links := by
  rw [Widget.setResizeButton]
  split <;> rfl

omit [Hardware] in
theorem links_setQuitButton (w : Widget) : w.setQuitButton.node.links = w.node.links := by
  rw [Widget.setQuitButton]
  split <;> rfl

/-- How a hidden button is created: it is linked, its record is written, it is placed and bound. -/
theorem exists_of_createHiddenButton {config : ButtonArgs} {setFlags : Widget → Widget}
    {place : PlaceArgs} {callback : Callback} (hs : WellFormed s) (hwin : s.HasWindow window)
    (ht : s.Live t) (hflags : ∀ w, (setFlags w).node.links = w.node.links)
    (h : createHiddenButton s t config setFlags place callback = some s') :
    ∃ s₁ s₃ s₄, insertChild (s.allocWidget (newWidget s.widId .button (some t) none)) t
        s.nextWidget = some s₁ ∧ SameTree s₁ s₃ ∧ OnlyCells s₁ s₃ ∧
      s₃.invalidatedRects = s₁.invalidatedRects ∧ WellFormed s₃ ∧ s₃.HasWindow window ∧
      eiPlace s₃ s.nextWidget place = some s₄ ∧ OnlyBinds s₄ s' := by
  simp only [createHiddenButton, eiWidgetCreateWith, Option.elim_some, Option.bind_eq_bind,
    Option.bind_eq_some_iff, Prod.exists, Option.some.injEq, Prod.mk.injEq] at h
  obtain ⟨s₁, button, ⟨s₀, h₁, _, rfl, rfl, rfl⟩, s₂, h₂, s₃, h₃, s₄, h₄, h₅⟩ := h
  obtain ⟨hgrown, -, -, hold, ⟨w, hw, hbody⟩, -⟩ := insertChild_grown hs ht h₁
  have hwin₁ := hold.hasWindow hs hgrown.rootWidget hwin
  have hne : s₀.rootWidget ≠ some s.nextWidget := fun hr =>
    Nat.lt_irrefl _ (hs.rootWidget_lt _ (hgrown.rootWidget ▸ hr))
  -- The configuration and the flags only change the record of the button.
  have hconfigure : Update window _ s₂ := Update.eiButtonConfigure hgrown.wellFormed hwin₁ h₂
  obtain ⟨w', rfl⟩ := eiButtonConfigure_unmapped hw (Widget.geomParams_of_body hbody) h₂
  obtain ⟨w₂, hw₂, rfl⟩ := Option.map_eq_some_iff.mp h₃
  have htree := hconfigure.tree.trans (.of_setWidget hw₂ (hflags w₂))
  exact ⟨s₀, _, s₄, h₁, htree, rfl, rfl, htree.wellFormed hgrown.wellFormed,
    (hwin₁.setWidget fun hr => absurd hr hne).setWidget fun hr => absurd hr hne, h₄,
    eiBind_onlyBinds h₅⟩

/-- A hidden button of the new toplevel. -/
theorem additions_createHiddenButton {config : ButtonArgs} {setFlags : Widget → Widget}
    {place : PlaceArgs} {callback : Callback} (hs : WellFormed s) (hwin : s.HasWindow window)
    (ht : s.Live t) (hflags : ∀ w, (setFlags w).node.links = w.node.links)
    (h : createHiddenButton s t config setFlags place callback = some s') :
    Additions window t s s' := by
  obtain ⟨s₁, s₃, s₄, h₁, htree, honly, hrects, hwf₃, hwin₃, h₄, hbinds⟩ :=
    exists_of_createHiddenButton hs hwin ht hflags h
  have hplace := Update.eiPlace hwf₃ hwin₃ h₄
  have hset : Additions window t s₁ s₃ := .of_links (.onlyCells honly) (.of_eq hrects)
    (fun hr => hr.of_eq hrects) htree.links
  have hplaced : Additions window t s₃ s₄ :=
    .of_links hplace.screen hplace.damage hplace.rects hplace.tree.links
  exact (((Additions.insertChild hs ht h₁ (Or.inr rfl)).trans hset).trans hplaced).trans
    (.onlyBinds hbinds)

/-- **What creating a widget adds.** -/
theorem additions_create {parent : Ptr} (hs : WellFormed s) (hwin : s.HasWindow window)
    (hparent : s.Live parent) (h : eiWidgetCreate s c (some parent) d = some (s', wid)) :
    Additions window s.nextWidget s s' := by
  simp only [eiWidgetCreate, eiWidgetCreateWith, Option.elim_some, Option.bind_eq_bind,
    Option.bind_eq_some_iff, Option.some.injEq, Prod.mk.injEq] at h
  obtain ⟨s₁, h₁, s₂, h₂, rfl, -⟩ := h
  have hinsert : Additions window s.nextWidget s s₁ :=
    Additions.insertChild hs hparent h₁ (Or.inl rfl)
  cases c with
  | frame | button => exact Option.some.inj h₂ ▸ hinsert
  | toplevel =>
    obtain ⟨hgrown, hnext, ⟨n, hn, -⟩, hold, -, -⟩ := insertChild_grown hs hparent h₁
    have hwin₁ := hold.hasWindow hs hgrown.rootWidget hwin
    simp only [setdefaultsfunc, setdefaultstoplevel, Option.bind_eq_bind,
      Option.bind_eq_some_iff] at h₂
    obtain ⟨s₃, h₃, s₄, h₄, h₅⟩ := h₂
    have hresize := additions_createHiddenButton hgrown.wellFormed hwin₁ ⟨n, hn⟩
      links_setResizeButton h₃
    obtain ⟨hgrown₃, -, -, hold₃, -⟩ := createHiddenButton_grown hgrown.wellFormed
      ⟨n, hn⟩ rfl node_setResizeButton h₃
    have hwin₃ := hold₃.hasWindow hgrown.wellFormed hgrown₃.rootWidget hwin₁
    have honly : OnlyBinds s₃ s₄ := eiBind_onlyBinds h₄
    have hwf₄ : WellFormed s₄ := (hgrown₃.onlyBinds honly).wellFormed
    have hwin₄ : s₄.HasWindow window := by
      rw [honly]
      exact hwin₃
    obtain ⟨n₃, hn₃, -⟩ := hgrown₃.kept _ n hn
    have hlive₄ : s₄.Live s.nextWidget := ⟨n₃, by rw [honly]; exact hn₃⟩
    have hquit := additions_createHiddenButton hwf₄ hwin₄ hlive₄ links_setQuitButton h₅
    exact ((hinsert.trans hresize).trans (.onlyBinds honly)).trans hquit

/-- **Creating a widget changes nothing that shows**, at any pixel. -/
theorem announces_create {parent : Ptr} (hs : WellFormed s) (hwin : s.HasWindow window)
    (hparent : s.Live parent) (h : eiWidgetCreate s c (some parent) d = some (s', wid))
    (x : Point) :
    Announces x (· ≠ s.nextWidget) s s' := by
  have hadd := additions_create hs hwin hparent h
  obtain ⟨hc, -⟩ := eiWidgetCreate_created hs hparent h
  have hview : ∀ q, s.Live q → s'.view q = s.view q := by
    intro q hq
    obtain ⟨w, hw⟩ := AppState.live_iff.mp hq
    obtain ⟨w', hw', hbody⟩ : ∃ w', s'.widgets q = some w' ∧ w'.body = w.body := by
      have hbody := hc.bodies q (hs.lt_nextWidget hq)
      rwa [hw, Option.map_some, Option.map_eq_some_iff] at hbody
    refine view_eq_of_look hadd.screen ?_ (not_not.mpr ?_)
    · rw [hw, hw', Option.map_some, Option.map_some]
      exact congrArg some (show w'.body.pickColor = w.body.pickColor by rw [hbody])
    · rw [hw, hw', Option.map_some, Option.map_some, Widget.look_of_body hbody]
  refine ⟨hadd.screen.surfaces, hadd.screen.rootWidget, fun r hr => ?_, hadd.damage x,
    fun q hq _ hne => absurd (hview q hq) hne, fun q hq hext => ?_,
    fun root r r' f f' hr hr' hf hf' => ?_⟩
  · obtain ⟨r', v, hr', hv, -⟩ := hs.rootWidget_live hparent
    obtain rfl := Option.some.inj (hr.symm.trans hr')
    exact ⟨Nat.ne_of_lt (hs.rootWidget_lt r hr), hview r (AppState.live_iff.mpr ⟨v, hv⟩)⟩
  · -- The new widget is not mapped, before or after.
    obtain rfl : q = s.nextWidget := not_not.mp hq
    obtain ⟨u, hu, hunmapped⟩ := hc.unmapped
    have hnone : s.widgets s.nextWidget = none := by
      have := hs.nodes_nextWidget
      rwa [AppState.nodes, Option.map_eq_none_iff] at this
    rw [hu, hnone] at hext
    rcases hext with ⟨v, hv, -⟩ | ⟨v, hv, hg, -⟩
    · simp at hv
    · rw [← Option.some.inj hv, hunmapped] at hg
      simp at hg
  · have hs' := hc.grown.wellFormed
    have hlists : ∀ q n n' l l', q ≠ s.nextWidget → s.nodes q = some n → s'.nodes q = some n' →
        Chain s.nodes Node.nextSibling n.childrenHead l →
        Chain s'.nodes Node.nextSibling n'.childrenHead l' →
          l'.filter (· ≠ s.nextWidget) = l.filter (· ≠ s.nextWidget) := by
      intro q n n' l l' hq hn hn' hl hl'
      obtain ⟨m, k, hm, hk, heq⟩ := hadd.lists q n l hq hn hl
      obtain rfl := Option.some.inj (hm.symm.trans hn')
      rw [hl'.unique hk, heq]
    have hrn : root ≠ s.nextWidget := by
      rintro rfl
      have hdead := hs.nodes_nextWidget
      rw [AppState.nodes_of_widgets hr] at hdead
      exact absurd hdead (by simp)
    refine hf.prune_eq hs.linked hs'.linked hf' ?_ hlists fun q hq => ?_
    · exact hlists root r.node r'.node _ _ hrn (AppState.nodes_of_widgets hr)
        (AppState.nodes_of_widgets hr') hf.chain_roots hf'.chain_roots
    · -- What is new and is kept is a hidden button, and its parent is not kept.
      obtain ⟨hmem, hne⟩ := Forest.mem_of_mem_prune hq
      obtain ⟨n', hn'⟩ := hf'.live q hmem
      by_contra hold
      have hge : ¬ q < s.nextWidget := fun hlt =>
        absurd (hc.grown.fresh q hlt (Option.eq_none_iff_forall_not_mem.mpr fun n hn =>
          hold ⟨n, hn⟩)) (by simp [hn'])
      obtain ⟨m, hm, -, hparent⟩ := hc.hidden_of_lt
        (Nat.lt_of_le_of_ne (Nat.le_of_not_lt hge) (Ne.symm hne)) ⟨n', hn'⟩
      rcases hf'.keep_of_mem_prune q hq s.nextWidget ⟨m, hm, hparent⟩ with heq | hkept
      · exact hrn heq.symm
      · exact hkept rfl

end Create

end GuiLibrary

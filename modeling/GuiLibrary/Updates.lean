import GuiLibrary.Announcements
import GuiLibrary.Decorations

/-!
# The operations announce their changes

Placing, configuring and unmapping leave the tree of the widgets alone; what they change of a
widget they ask for, but for the strips of `Missed`. Destroying takes a widget out of the tree, and
creating adds one that is not mapped: the other widgets keep their order. Pressing a button and
letting it go changes the button that is invalidated.

## Main definitions

* `KeepsScreen`, `RectsFit`, `Update`.

## Main results

* `ConsistentGeometry.announces`, `announces_destroy`, `announces_create`, `announces_showButton`.
-/

namespace GuiLibrary

open Cells Pictures

/-! ### What all operations keep -/

/-- The surfaces, the root and the button that is pressed are as before. -/
structure KeepsScreen (s s' : AppState) : Prop where
  surfaces : ∀ π, s'.surfaceOf π = s.surfaceOf π
  rootWidget : s'.rootWidget = s.rootWidget
  buttonPressed : s'.buttonPressed = s.buttonPressed
  pressingOver : s'.pressingOver = s.pressingOver

/-- The invalidated rectangles lie in the window. -/
def RectsFit (window : Size) (s : AppState) : Prop :=
  ∀ r ∈ s.invalidatedRects, r.InWindow window

/-- A step that leaves the tree and the pick colours alone, and invalidates parts of the window. -/
structure Update (window : Size) (s s' : AppState) : Prop where
  screen : KeepsScreen s s'
  tree : SameTree s s'
  pickColor : ∀ q, (s'.widgets q).map Widget.pickColor = (s.widgets q).map Widget.pickColor
  rects : RectsFit window s → RectsFit window s'
  damage : DamageMonotone s s'

namespace KeepsScreen

variable {s s₁ s₂ s' : AppState}

theorem refl (s : AppState) : KeepsScreen s s := ⟨fun _ => rfl, rfl, rfl, rfl⟩

theorem trans (h₁ : KeepsScreen s s₁) (h₂ : KeepsScreen s₁ s₂) : KeepsScreen s s₂ :=
  ⟨fun π => (h₂.surfaces π).trans (h₁.surfaces π), h₂.rootWidget.trans h₁.rootWidget,
    h₂.buttonPressed.trans h₁.buttonPressed, h₂.pressingOver.trans h₁.pressingOver⟩

theorem of_eq (hroot : s'.rootSurface = s.rootSurface) (hpick : s'.pickSurface = s.pickSurface)
    (h : s'.rootWidget = s.rootWidget) (hpressed : s'.buttonPressed = s.buttonPressed)
    (hover : s'.pressingOver = s.pressingOver) : KeepsScreen s s' :=
  ⟨fun π => by cases π <;> assumption, h, hpressed, hover⟩

theorem onlyCells (h : OnlyCells s s') : KeepsScreen s s' := by
  apply of_eq <;> rw [h]

end KeepsScreen

namespace RectsFit

variable {window : Size} {s s' : AppState}

theorem of_eq (h : RectsFit window s) (heq : s'.invalidatedRects = s.invalidatedRects) :
    RectsFit window s' := by
  rwa [RectsFit, heq]

theorem addDamage (h : RectsFit window s) (rect : Rect) :
    RectsFit window (s.addDamage window rect) :=
  inWindow_linkRect (normalizeRect_inWindow rect window) _ h

theorem relayout (h : RectsFit window s) (m : Ptr → Option Widget) (rects : List Rect) :
    RectsFit window (s.relayout window m rects) := by
  have hfold : ∀ (rects l : List Rect), (∀ r ∈ l, r.InWindow window) →
      ∀ r ∈ rects.foldl (fun l rect => linkRect l (normalizeRect rect window)) l,
        r.InWindow window := by
    intro rects
    induction rects with
    | nil => exact fun _ h => h
    | cons rect rects ih =>
      exact fun l hl => ih _ (inWindow_linkRect (normalizeRect_inWindow rect window) l hl)
  exact hfold rects _ h

end RectsFit

/-- Where the links are the same, the forest below a widget is. -/
theorem forest_eq_of_links {s s' : AppState} {root : Ptr} {r r' : Widget} {f f' : Forest Ptr}
    (h : ∀ q, (s'.nodes q).map Node.links = (s.nodes q).map Node.links)
    (hr : s.widgets root = some r) (hr' : s'.widgets root = some r')
    (hf : Represents nodeLinks s.nodes root r.childrenHead f)
    (hf' : Represents nodeLinks s'.nodes root r'.childrenHead f') : f' = f := by
  have hlinks := h root
  rw [AppState.nodes_of_widgets hr, AppState.nodes_of_widgets hr', Option.map_some,
    Option.map_some, Option.some.injEq] at hlinks
  have hhead : r'.childrenHead = r.childrenHead := congrArg (fun l => l.2.1) hlinks
  refine hf'.unique (hhead ▸ hf.congr fun q _ => ?_)
  have hq := congrArg (Option.map fun l => (l.1, l.2.1, l.2.2.2)) (h q)
  rwa [Option.map_map, Option.map_map] at hq

section Update

variable {window : Size} {s s₁ s₂ s' : AppState} {p : Ptr} {w w' : Widget}

namespace Update

theorem refl (s : AppState) : Update window s s := ⟨.refl s, .refl s, fun _ => rfl, id, .refl s⟩

theorem trans (h₁ : Update window s s₁) (h₂ : Update window s₁ s₂) : Update window s s₂ :=
  ⟨h₁.screen.trans h₂.screen, h₁.tree.trans h₂.tree,
    fun q => (h₂.pickColor q).trans (h₁.pickColor q), h₂.rects ∘ h₁.rects,
    h₁.damage.trans h₂.damage⟩

theorem setWidget (hp : s.widgets p = some w) (hlinks : w'.node.links = w.node.links)
    (hcolor : w'.pickColor = w.pickColor) : Update window s (s.setWidget p w') := by
  refine ⟨.of_eq rfl rfl rfl rfl rfl, .of_setWidget hp hlinks, fun q => ?_, id, .of_eq rfl⟩
  by_cases hq : q = p
  · subst hq
    rw [AppState.widgets_setWidget_self, hp, Option.map_some, Option.map_some, hcolor]
  · rw [s.widgets_setWidget_of_ne _ hq]

theorem addDamage (s : AppState) (window : Size) (rect : Rect) :
    Update window s (s.addDamage window rect) :=
  ⟨.of_eq rfl rfl rfl rfl rfl, .of_skeleton rfl, fun _ => rfl, fun h => h.addDamage rect,
    .addDamage s window rect⟩

theorem assigned (ha : Assigned s s₁ p w w') (hcolor : w'.pickColor = w.pickColor) :
    Update window s s₁ :=
  ha.eq ▸ .setWidget ha.old ha.links hcolor

theorem rerun (h : Rerun window s s' p) : Update window s s' := by
  have hskel := h.skeleton_eq
  have hnodes := AppState.nodes_eq_of_skeleton hskel
  refine ⟨?_, .of_skeleton hskel, fun q => ?_, ?_, ?_⟩
  · obtain ⟨w, -, ⟨-, rfl⟩ | ⟨o, pw, m', rects, -, -, rfl, -⟩⟩ := h
    · exact .refl s'
    · exact .of_eq rfl rfl rfl rfl rfl
  · have hnode := congrArg (Option.map Node.pickColor) (congrFun hnodes q)
    rwa [AppState.nodes, AppState.nodes, Option.map_map, Option.map_map] at hnode
  · obtain ⟨w, -, ⟨-, rfl⟩ | ⟨o, pw, m', rects, -, -, rfl, -⟩⟩ := h
    · exact id
    · exact fun h => h.relayout m' rects
  · obtain ⟨w, -, ⟨-, rfl⟩ | ⟨o, pw, m', rects, -, -, rfl, -⟩⟩ := h
    · exact .refl s'
    · exact fun x hx => covered_foldl_of_covered rects hx

/-- A record is assigned, then the placer runs on its widget. -/
theorem relaid (hs : WellFormed s) (hwin : s.HasWindow window) (ha : Assigned s s₁ p w w')
    (hcolor : w'.pickColor = w.pickColor)
    (hrun : runplacer s₁ p = some s' ∨ refresh s₁ p = some s') : Update window s s' := by
  have hs₁ := ha.wellFormed hs
  have hwin₁ := ha.hasWindow hwin
  have hrerun : Rerun window s₁ s' p :=
    hrun.elim (rerun_of_runplacer hs₁ hwin₁) (rerun_of_refresh hs₁ hwin₁)
  exact (Update.assigned ha hcolor).trans (.rerun hrerun)

theorem eiPlace (hs : WellFormed s) (hwin : s.HasWindow window) {args : PlaceArgs}
    (h : GuiLibrary.eiPlace s p args = some s') : Update window s s' := by
  rw [eiPlace_eq] at h
  obtain ⟨s₁, h₁, hrun⟩ := Option.bind_eq_some_iff.mp h
  obtain ⟨w, ha⟩ := placeAssign_assigned h₁
  exact .relaid hs hwin ha rfl (Or.inl hrun)

theorem eiFrameConfigure [Hardware] (hs : WellFormed s) (hwin : s.HasWindow window)
    {args : LabelArgs} (h : GuiLibrary.eiFrameConfigure s p args = some s') :
    Update window s s' := by
  rw [eiFrameConfigure_eq] at h
  obtain ⟨s₁, h₁, hrun⟩ := Option.bind_eq_some_iff.mp h
  obtain ⟨w, a, a', -, -, ha⟩ := frameAssign_assigned h₁
  exact .relaid hs hwin ha rfl (Or.inr hrun)

theorem eiButtonConfigure [Hardware] (hs : WellFormed s) (hwin : s.HasWindow window)
    {args : ButtonArgs} (h : GuiLibrary.eiButtonConfigure s p args = some s') :
    Update window s s' := by
  rw [eiButtonConfigure_eq] at h
  obtain ⟨s₁, h₁, hrun⟩ := Option.bind_eq_some_iff.mp h
  obtain ⟨w, a, label, -, -, ha⟩ := buttonAssign_assigned h₁
  exact .relaid hs hwin ha rfl (Or.inr hrun)

theorem eiGeometrymanagerUnmap (hwin : s.HasWindow window)
    (h : GuiLibrary.eiGeometrymanagerUnmap s p = some s') : Update window s s' := by
  obtain ⟨w, hp, -⟩ := Option.bind_eq_some_iff.mp h
  rw [eiGeometrymanagerUnmap_eq hwin hp, Option.some.injEq] at h
  split_ifs at h
  · subst h
    exact (Update.addDamage s window _).trans (.setWidget hp rfl rfl)
  · exact h ▸ .refl s

end Update

end Update

/-! ### The operations on a widget -/

namespace DamageOp

/-- The operation leaves the tree alone whatever its arguments are. -/
def Plain : DamageOp → Prop
  | place _ _ | frameConfigure _ _ | buttonConfigure _ _ | unmap _ => True
  | runplacer _ | toplevelConfigure _ _ | destroy _ => False

theorem update [Hardware] {window : Size} {s s' : AppState} (hs : WellFormed s)
    (hwin : s.HasWindow window) {op : DamageOp} (hop : op.Plain) (h : op.run s = some s') :
    Update window s s' := by
  cases op with
  | place => exact .eiPlace hs hwin h
  | frameConfigure => exact .eiFrameConfigure hs hwin h
  | buttonConfigure => exact .eiButtonConfigure hs hwin h
  | unmap => exact .eiGeometrymanagerUnmap hwin h
  | runplacer | toplevelConfigure | destroy => exact hop.elim

end DamageOp

section Operations

variable {window : Size} {s s' : AppState} {p q : Ptr} {x : Point}

/-- A widget with the same look and the same pick colour has the same view, when no button is
pressed or let go. -/
theorem view_eq_of_look (hscreen : KeepsScreen s s')
    (hcolor : (s'.widgets q).map Widget.pickColor = (s.widgets q).map Widget.pickColor)
    (hlook : ¬ Changes (s.widgets q) (s'.widgets q)) : s'.view q = s.view q := by
  rw [Changes, not_not] at hlook
  rw [AppState.view, AppState.view, hscreen.buttonPressed, hscreen.pressingOver]
  cases hw : s.widgets q with
  | none =>
    rw [hw, Option.map_none, Option.map_eq_none_iff] at hcolor
    rw [hcolor]
  | some w =>
    rw [hw, Option.map_some, Option.map_eq_some_iff] at hcolor hlook
    obtain ⟨w', hw', hcolor⟩ := hcolor
    obtain ⟨v, hv, hlook⟩ := hlook
    obtain rfl := Option.some.inj (hw'.symm.trans hv)
    rw [hw', Option.map_some, Option.map_some, hlook, hcolor]

/-- The condition on an operation at the pixel: the root does not change, and the strips that are
not asked for are invalidated all the same. -/
def StripsCovered (op : DamageOp) (s s' : AppState) (x : Point) : Prop :=
  ∀ q, Changes (s.widgets q) (s'.widgets q) → s.rootWidget ≠ some q ∧
    (Missed op q (s.widgets q) (s'.widgets q) x → Covered s'.invalidatedRects x)

/-- **An operation announces its changes**, the strips apart. -/
theorem ConsistentGeometry.announces [Hardware] (hs : ConsistentGeometry window s) {op : DamageOp}
    (hop : op.Plain) (h : op.run s = some s') (hx : x ∈ Rect.ofSize window)
    (hstrips : StripsCovered op s s' x) : Announces x (fun _ => True) s s' := by
  have hupdate := DamageOp.update hs.wellFormed hs.hasWindow hop h
  have hview : ∀ q, ¬ Changes (s.widgets q) (s'.widgets q) → s'.view q = s.view q := fun q hq =>
    view_eq_of_look hupdate.screen (hupdate.pickColor q) hq
  refine ⟨hupdate.screen.surfaces, hupdate.screen.rootWidget, fun r hr => ⟨trivial, hview r ?_⟩,
    hupdate.damage x, fun q _ _ hne hext => ?_, fun q hq => absurd trivial hq,
    fun root r r' f f' hr hr' hf hf' => ?_⟩
  · exact fun hchange => (hstrips r hchange).1 hr
  · have hchange : Changes (s.widgets q) (s'.widgets q) := by
      by_contra hnot
      exact hne (hview q hnot)
    exact (hs.covers h hchange hx hext).elim id (hstrips q hchange).2
  · rw [forest_eq_of_links hupdate.tree.links hr hr' hf hf']

/-! ### Destroying -/

/-- The lists of the widgets that are left only lose the widget that is destroyed. -/
theorem Destroyed.prune_eq (h : Destroyed s s' p) (hs : WellFormed s) {root : Ptr} {r r' : Widget}
    {f f' : Forest Ptr} (hr : s.widgets root = some r)
    (hr' : s'.widgets root = some r')
    (hf : Represents nodeLinks s.nodes root r.childrenHead f)
    (hf' : Represents nodeLinks s'.nodes root r'.childrenHead f') :
    f'.prune (· ≠ p) = f.prune (· ≠ p) := by
  have hlists : ∀ q n n' l l', s.nodes q = some n → s'.nodes q = some n' →
      Chain s.nodes Node.nextSibling n.childrenHead l →
      Chain s'.nodes Node.nextSibling n'.childrenHead l' →
        l'.filter (· ≠ p) = l.filter (· ≠ p) := by
    intro q n n' l l' hn hn' hl hl'
    obtain ⟨hout, -⟩ := h.pruned.of_some hn'
    obtain ⟨n₁, hn₁, -, hchain⟩ := h.pruned.kept q n hn hout
    obtain rfl := Option.some.inj (hn₁.symm.trans hn')
    rw [hl'.unique (hchain l hl (hs.tail q n l hn hl)).1, List.filter_filter]
    simp only [Bool.and_self]
  refine hf.prune_eq hs.linked (h.wellFormed hs).linked hf' ?_
    (fun q n n' l l' _ hn hn' hl hl' => hlists q n n' l l' hn hn' hl hl') fun q hq => ?_
  · exact hlists root r.node r'.node _ _ (AppState.nodes_of_widgets hr)
      (AppState.nodes_of_widgets hr') hf.chain_roots hf'.chain_roots
  · obtain ⟨n', hn'⟩ := hf'.live q (Forest.mem_of_mem_prune hq).1
    obtain ⟨-, n, hn, -⟩ := h.pruned.of_some hn'
    exact ⟨n, hn⟩

/-- **A destruction announces its changes**, the painted rectangles of toplevels apart. -/
theorem announces_destroy (hs : WellFormed s) (hfits : RootFits window s)
    {bs : List (Ptr × Binding)} (hl : HasBindings s bs) (hroot : s.rootWidget ≠ some p)
    (h : eiWidgetDestroy s p = some s') (hx : x ∈ Rect.ofSize window)
    (hstrips : ∀ q, s'.widgets q = none → OldBar (s.widgets q) none x →
      Covered s'.invalidatedRects x) : Announces x (· ≠ p) s s' := by
  obtain ⟨-, hd, -⟩ := eiWidgetDestroy_of_eq_some hs hl h
  have hclear : Clears window p s s' := eiWidgetDestroy_clears hfits h
  have hscreen := KeepsScreen.onlyCells hd.onlyCells
  have hfreed : ∀ q, s'.widgets q = none →
      InExtentOf (s.widgets q) x ∨ InExtentOf (s'.widgets q) x →
      Covered s'.invalidatedRects x := by
    intro q hq hext
    have hold : InExtentOf (s.widgets q) x := hext.resolve_right fun hnew => by
      rw [hq] at hnew
      simpa [IsMapped] using hnew.isMapped
    exact (hclear.covers_of_freed hq hx hold).elim id (hstrips q hq)
  -- A widget that is left keeps its look and its pick colour.
  have hview : ∀ q, q ≠ p → s'.widgets q ≠ none → s'.view q = s.view q := by
    intro q hq hlive
    refine view_eq_of_look hscreen ?_ (not_not.mpr ((hclear.look q hq).resolve_left hlive))
    obtain ⟨w', hw'⟩ := Option.ne_none_iff_exists'.mp hlive
    obtain ⟨-, n, hn, hid⟩ := hd.pruned.of_some (AppState.nodes_of_widgets hw')
    obtain ⟨w, hw, rfl⟩ := AppState.nodes_eq_some.mp hn
    rw [hw, hw', Option.map_some, Option.map_some]
    exact congrArg some (congrArg (fun i => i.2.2.1) hid)
  refine ⟨hscreen.surfaces, hscreen.rootWidget, fun r hr => ?_, hclear.damage x,
    fun q _ hq hne hext => ?_, fun q hq hext => ?_, fun root r r' f f' hr hr' hf hf' => ?_⟩
  · have hne : r ≠ p := fun hrp => hroot (hrp ▸ hr)
    refine ⟨hne, hview r hne fun hdead => ?_⟩
    -- The root is left: it lies below no widget.
    obtain ⟨w, hp, -⟩ := Option.bind_eq_some_iff.mp h
    obtain ⟨r', v, hr', hv, -⟩ := hs.rootWidget_live (AppState.live_iff.mpr ⟨w, hp⟩)
    obtain rfl := Option.some.inj (hr.symm.trans hr')
    obtain ⟨n, hn, -⟩ := hd.pruned.kept r v.node (AppState.nodes_of_widgets hv) fun hsub =>
      hsub.elim hne (root_top hs hr hv p)
    rw [AppState.nodes, hdead] at hn
    exact absurd hn (by simp)
  · by_cases hlive : s'.widgets q = none
    · exact hfreed q hlive hext
    · exact absurd (hview q hq hlive) hne
  · obtain rfl : q = p := not_not.mp hq
    exact hfreed q (by simpa [AppState.nodes] using hd.pruned.dead q (Or.inl rfl)) hext
  · by_cases hrp : root = p
    · have hdead : s'.nodes root = none := hd.pruned.dead root (Or.inl hrp)
      rw [AppState.nodes_of_widgets hr'] at hdead
      exact absurd hdead (by simp)
    · exact hd.prune_eq hs hr hr' hf hf'

/-- An invalidated rectangle is cut at the edges of the window. -/
theorem RootFits.rectsFit_of_invalidates (hs : RootFits window s) {rect rect' : Rect}
    (h : eiAppInvalidateRect s rect = some (s', rect')) :
    RectsFit window s → RectsFit window s' := by
  obtain ⟨window', hwin⟩ := hasWindow_of_eiAppInvalidateRect h
  obtain rfl := hs.eq_of_hasWindow hwin
  rw [eiAppInvalidateRect_eq hwin, Option.some.injEq, Prod.mk.injEq] at h
  exact h.1 ▸ fun hrects => hrects.addDamage rect

theorem RootFits.setWidget (hs : RootFits window s) {w w' : Widget} (hp : s.widgets p = some w)
    (hloc : s.rootWidget = some p → w'.screenLocation = w.screenLocation) :
    RootFits window (s.setWidget p w') := by
  intro r v hr hv
  by_cases hrp : r = p
  · subst hrp
    obtain rfl := Option.some.inj ((s.widgets_setWidget_self r _).symm.trans hv)
    exact (hloc hr).trans (hs r w hr hp)
  · exact hs r v hr (by rwa [s.widgets_setWidget_of_ne _ hrp] at hv)

theorem RootFits.rectsFit_of_releaseWidget (hs : RootFits window s)
    (h : releaseWidget s p = some s') : RectsFit window s → RectsFit window s' := by
  obtain ⟨s₁, h₁, rfl⟩ := Option.map_eq_some_iff.mp h
  obtain ⟨w, hp, h₁⟩ := Option.bind_eq_some_iff.mp h₁
  cases hg : w.geomParams with
  | none =>
    rw [hg] at h₁
    exact Option.some.inj h₁ ▸ id
  | some params =>
    simp only [hg, Option.bind_eq_bind, Option.bind_eq_some_iff, Prod.exists, Option.some.injEq]
      at h₁
    obtain ⟨s₂, rect, h₂, rfl⟩ := h₁
    have hs₁ : RootFits window (s.setWidget p (w.setGeomParams none)) :=
      hs.setWidget hp fun _ => rfl
    have hrects := hs₁.rectsFit_of_invalidates h₂
    exact hrects

/-- Invalidating the location of a widget keeps the root, whose location is the window. -/
theorem RootFits.invalidateLocation (hs : RootFits window s)
    (h : GuiLibrary.invalidateLocation s p = some s') :
    RootFits window s' ∧ (RectsFit window s → RectsFit window s') := by
  simp only [GuiLibrary.invalidateLocation, Option.bind_eq_bind, Option.bind_eq_some_iff,
    Prod.exists, Option.some.injEq] at h
  obtain ⟨w, hp, s₁, rect, h₁, rfl⟩ := h
  have hrects := hs.rectsFit_of_invalidates h₁
  obtain ⟨window', hwin⟩ := hasWindow_of_eiAppInvalidateRect h₁
  obtain rfl := hs.eq_of_hasWindow hwin
  rw [eiAppInvalidateRect_eq hwin, Option.some.injEq, Prod.mk.injEq] at h₁
  obtain ⟨rfl, rfl⟩ := h₁
  have hs₁ : RootFits window' (s.addDamage window' w.screenLocation) := hs
  refine ⟨hs₁.setWidget hp fun hr => ?_, hrects⟩
  rw [Widget.screenLocation_setScreenLocation, hs p w hr hp]
  exact normalizeRect_eq_self_iff.mpr (Rect.inWindow_ofSize window')

/-- The rectangles that a destruction invalidates lie in the window. -/
theorem RectsFit.destroy (h : RectsFit window s) (hfits : RootFits window s)
    (hrun : eiWidgetDestroy s p = some s') : RectsFit window s' := by
  refine (eiWidgetDestroy_keeps (R := fun s s' => RootFits window s → RootFits window s' ∧
    (RectsFit window s → RectsFit window s')) (fun s hs => ⟨hs, id⟩)
    (fun h₁ h₂ hs => ⟨(h₂ (h₁ hs).1).1, (h₂ (h₁ hs).1).2 ∘ (h₁ hs).2⟩)
    (fun s e hs => ⟨hs, id⟩) (fun hmodify hbody hs => ?_) (fun hrelease hs => ?_)
    (fun hlocation hs => hs.invalidateLocation hlocation) (fun hbinds hs => ?_) hrun hfits).2 h
  · obtain ⟨w, hp, rfl⟩ := Option.map_eq_some_iff.mp hmodify
    exact ⟨hs.setWidget hp fun _ => Widget.screenLocation_of_body (hbody w), id⟩
  · exact ⟨(releaseWidget_clears (o := 0) hs hrelease).1.rootFits hs,
      hs.rectsFit_of_releaseWidget hrelease⟩
  · have honly := destroyEventBindedToWidget_onlyBinds hbinds
    exact ⟨(Clears.of_widgets (p := 0) honly.rootWidget
      (.of_eq (invalidatedRects_of_onlyBinds honly)) honly.widgets).rootFits hs,
      fun hrects => hrects.of_eq (invalidatedRects_of_onlyBinds honly)⟩

end Operations

end GuiLibrary

import GuiLibrary.Placer

/-!
# What a run of the placer computes

Over the forest of the children of a widget, a run of the placer is described without a bound on
the recursion and without order of execution. `Settled` compares two memories: a widget whose
location does not change is left alone with everything below it; the others are moved, their
content area is assigned, and the rectangle they invalidate is cut at the edges of the window.
`requests` lists the rectangles invalidated on the way.

## Main definitions

* `Widget.target`, `Widget.moved`, `Widget.settled`.
* `Settled`, `requests`, `AppState.relayout`, `Settles`.

## Main results

* `runSiblings_settles`, `runplacer_settles`: the placer computes `Settled` and `requests`.
-/

namespace GuiLibrary

open Cells

namespace Widget

/-- Where the placer puts a widget under the content area of its parent; a widget that is not
mapped stays where it is. -/
def target (w : Widget) (parentSl : Rect) : Rect :=
  match w.geomParams with
  | none => w.screenLocation
  | some params => placerRect params w.requestedSize parentSl

/-- The widget when the placer goes on to its children. -/
def moved (w : Widget) (rect : Rect) : Widget := (w.setScreenLocation rect).notified

/-- The widget when its notification is over. -/
def settled (w : Widget) (window : Size) (rect : Rect) : Widget :=
  (w.moved rect).writeDamage (normalizeRect (w.moved rect).damage window)

@[simp] theorem node_moved (w : Widget) (rect : Rect) : (w.moved rect).node = w.node := by
  rw [moved, node_notified, node_setScreenLocation]

@[simp] theorem node_settled (w : Widget) (window : Size) (rect : Rect) :
    (w.settled window rect).node = w.node := by
  rw [settled, node_writeDamage, node_moved]

end Widget

/-! ### The result of a run -/

/-- The memory `m'` is what the placer makes of `m` on a forest of siblings, when the content area
of their parent is the given rectangle. -/
inductive Settled (window : Size) (m m' : Ptr → Option Widget) : Rect → Forest Ptr → Prop
  | nil {K : Rect} : Settled window m m' K .nil
  | stay {K : Rect} {p : Ptr} {w : Widget} {kids rest : Forest Ptr} (hw : m p = some w)
      (ht : w.target K = w.screenLocation) (hp : m' p = some w)
      (hkids : ∀ q ∈ kids.nodes, m' q = m q) (hrest : Settled window m m' K rest) :
      Settled window m m' K (.cons p kids rest)
  | move {K : Rect} {p : Ptr} {w : Widget} {kids rest : Forest Ptr} (hw : m p = some w)
      (ht : w.target K ≠ w.screenLocation)
      (hp : m' p = some (w.settled window (w.target K)))
      (hkids : Settled window m m' (w.moved (w.target K)).content kids)
      (hrest : Settled window m m' K rest) :
      Settled window m m' K (.cons p kids rest)

/-- The rectangles that a run of the placer on a forest of siblings invalidates, in order. -/
def requests (m : Ptr → Option Widget) : Rect → Forest Ptr → List Rect
  | _, .nil => []
  | K, .cons p kids rest =>
      (match m p with
        | none => []
        | some w =>
            if w.target K = w.screenLocation then []
            else extendRect w.screenLocation ::
              requests m (w.moved (w.target K)).content kids ++ [(w.moved (w.target K)).damage]) ++
        requests m K rest

theorem requests_congr {m₁ m₂ : Ptr → Option Widget} : {f : Forest Ptr} → {K : Rect} →
    (∀ q ∈ f.nodes, m₁ q = m₂ q) → requests m₁ K f = requests m₂ K f
  | .nil, _, _ => rfl
  | .cons p kids rest, K, h => by
      have hkids : ∀ K', requests m₁ K' kids = requests m₂ K' kids := fun K' =>
        requests_congr fun q hq => h q (List.mem_cons_of_mem p (List.mem_append_left _ hq))
      have hrest : requests m₁ K rest = requests m₂ K rest :=
        requests_congr fun q hq => h q (List.mem_cons_of_mem p (List.mem_append_right _ hq))
      simp only [requests, h p List.mem_cons_self, hkids, hrest]

namespace Settled

variable {window : Size} {m m' m₁ m₁' m₂ m₂' : Ptr → Option Widget}

theorem congr {K : Rect} {f : Forest Ptr} (h : Settled window m₁ m₁' K f) :
    (∀ q ∈ f.nodes, m₁ q = m₂ q) → (∀ q ∈ f.nodes, m₁' q = m₂' q) →
      Settled window m₂ m₂' K f := by
  induction h with
  | nil => exact fun _ _ => .nil
  | @stay K p w kids rest hw ht hp hkids _ ihrest =>
    intro h h'
    have hk : ∀ q ∈ kids.nodes, q ∈ (Forest.cons p kids rest).nodes := fun q hq =>
      List.mem_cons_of_mem p (List.mem_append_left _ hq)
    have hr : ∀ q ∈ rest.nodes, q ∈ (Forest.cons p kids rest).nodes := fun q hq =>
      List.mem_cons_of_mem p (List.mem_append_right _ hq)
    refine .stay ((h p List.mem_cons_self).symm.trans hw) ht
      ((h' p List.mem_cons_self).symm.trans hp) (fun q hq => ?_)
      (ihrest (fun q hq => h q (hr q hq)) fun q hq => h' q (hr q hq))
    rw [← h' q (hk q hq), ← h q (hk q hq), hkids q hq]
  | @move K p w kids rest hw ht hp _ _ ihkids ihrest =>
    intro h h'
    have hk : ∀ q ∈ kids.nodes, q ∈ (Forest.cons p kids rest).nodes := fun q hq =>
      List.mem_cons_of_mem p (List.mem_append_left _ hq)
    have hr : ∀ q ∈ rest.nodes, q ∈ (Forest.cons p kids rest).nodes := fun q hq =>
      List.mem_cons_of_mem p (List.mem_append_right _ hq)
    exact .move ((h p List.mem_cons_self).symm.trans hw) ht
      ((h' p List.mem_cons_self).symm.trans hp)
      (ihkids (fun q hq => h q (hk q hq)) fun q hq => h' q (hk q hq))
      (ihrest (fun q hq => h q (hr q hq)) fun q hq => h' q (hr q hq))

/-- A forest where nothing changed below a widget that stays. -/
theorem single {K : Rect} {p : Ptr} {kids rest : Forest Ptr}
    (h : Settled window m m' K (.cons p kids .nil)) (hrest : Settled window m m' K rest) :
    Settled window m m' K (.cons p kids rest) := by
  cases h with
  | stay hw ht hp hkids _ => exact .stay hw ht hp hkids hrest
  | move hw ht hp hkids _ => exact .move hw ht hp hkids hrest

end Settled

/-- The requests of a first widget come before those of its siblings. -/
theorem requests_cons (m : Ptr → Option Widget) (K : Rect) (p : Ptr) (kids rest : Forest Ptr) :
    requests m K (.cons p kids rest) = requests m K (.cons p kids .nil) ++ requests m K rest := by
  simp only [requests, List.append_nil]

/-- The state with a new memory of widgets and more invalidated rectangles. -/
def AppState.relayout (s : AppState) (window : Size) (m : Ptr → Option Widget)
    (rects : List Rect) : AppState :=
  { s with
    widgets := m
    invalidatedRects :=
      rects.foldl (fun l rect => linkRect l (normalizeRect rect window)) s.invalidatedRects }

namespace AppState

variable (s : AppState) (window : Size) (m m' : Ptr → Option Widget)

@[simp] theorem widgets_relayout (rects : List Rect) :
    (s.relayout window m rects).widgets = m := rfl

@[simp] theorem rootWidget_relayout (rects : List Rect) :
    (s.relayout window m rects).rootWidget = s.rootWidget := rfl

theorem relayout_relayout (rects rects' : List Rect) :
    (s.relayout window m rects).relayout window m' rects' =
      s.relayout window m' (rects ++ rects') := by
  simp only [relayout, List.foldl_append]

theorem relayout_addDamage (rects : List Rect) (rect : Rect) :
    (s.relayout window m rects).addDamage window rect =
      s.relayout window m (rects ++ [rect]) := by
  simp only [relayout, addDamage, List.foldl_append, List.foldl_cons, List.foldl_nil]

theorem setWidget_eq_relayout (p : Ptr) (w : Widget) :
    s.setWidget p w = s.relayout window (Function.update s.widgets p (some w)) [] := rfl

theorem relayout_self : s.relayout window s.widgets [] = s := rfl

variable {s window m}

theorem HasWindow.relayout (h : s.HasWindow window)
    (hroot : ∀ r, s.rootWidget = some r → m r = s.widgets r) (rects : List Rect) :
    (s.relayout window m rects).HasWindow window := by
  obtain ⟨r, w, hr, hw, rfl⟩ := h
  exact ⟨r, w, hr, (hroot r hr).trans hw, rfl⟩

end AppState

/-- The result of a run is the state where the forest has settled under the content area `K`. -/
def Settles (window : Size) (s : AppState) (K : Rect) (f : Forest Ptr)
    (result : Option AppState) : Prop :=
  ∃ m', result = some (s.relayout window m' (requests s.widgets K f)) ∧
    Settled window s.widgets m' K f ∧ ∀ q, q ∉ f.nodes → m' q = s.widgets q

/-! ### The placer settles -/

section Runs

variable {window : Size} {kids : AppState → Option Ptr → Option AppState} {s : AppState}
  {p o : Ptr} {w pw : Widget} {f : Forest Ptr}

/-- What the placer assumes of its run on the children of `p`. -/
def KidsSettle (window : Size) (kids : AppState → Option Ptr → Option AppState) (s : AppState)
    (p : Ptr) (head : Option Ptr) (f : Forest Ptr) : Prop :=
  ∀ s₁ : AppState, s₁.nodes = s.nodes → s₁.rootWidget = s.rootWidget → s₁.HasWindow window →
    ∀ w₁, s₁.widgets p = some w₁ → Settles window s₁ w₁.content f (kids s₁ head)

/-- A notification assigns the content area, settles the children, and cuts the damage. -/
theorem geomnotifyfunc_settles (hp : s.widgets p = some w) (hwin : s.HasWindow window)
    (hroot : s.rootWidget ≠ some p) (hpf : p ∉ f.nodes)
    (hrootf : ∀ q ∈ f.nodes, s.rootWidget ≠ some q)
    (hkids : KidsSettle window kids s p w.childrenHead f) :
    ∃ m', geomnotifyfunc kids w.wclass s p = some (s.relayout window
        (Function.update m' p (some (w.notified.writeDamage
          (normalizeRect w.notified.damage window))))
        (requests s.widgets w.notified.content f ++ [w.notified.damage])) ∧
      Settled window s.widgets m' w.notified.content f ∧
      ∀ q, q ∉ f.nodes → q ≠ p → m' q = s.widgets q := by
  have hne : ∀ q ∈ f.nodes, q ≠ p := fun q hq h => hpf (h ▸ hq)
  -- The children run in the state where `p` has its new content area.
  obtain ⟨m', hrun, hset, hframe⟩ := hkids (s.setWidget p w.notified)
    (AppState.nodes_eq_of_skeleton (AppState.skeleton_setWidget hp w.node_notified)) rfl
    (hwin.setWidget fun h => absurd h hroot) w.notified (s.widgets_setWidget_self p _)
  have hreq : requests (s.setWidget p w.notified).widgets w.notified.content f =
      requests s.widgets w.notified.content f :=
    requests_congr fun q hq => s.widgets_setWidget_of_ne _ (hne q hq)
  have hm'p : m' p = some w.notified := (hframe p hpf).trans (s.widgets_setWidget_self p _)
  have hwin' : (s.relayout window m' (requests s.widgets w.notified.content f)).HasWindow
      window := by
    refine hwin.relayout (fun r hr => ?_) _
    have hrp : r ≠ p := fun h => hroot (h ▸ hr)
    rw [hframe r fun h => hrootf r h hr, s.widgets_setWidget_of_ne _ hrp]
  rw [hreq, AppState.setWidget_eq_relayout s window, AppState.relayout_relayout,
    List.nil_append, ← AppState.setWidget_eq_relayout s window] at hrun
  refine ⟨m', ?_, hset.congr (fun q hq => s.widgets_setWidget_of_ne _ (hne q hq)) fun _ _ => rfl,
    fun q hq hqp => (hframe q hq).trans (s.widgets_setWidget_of_ne _ hqp)⟩
  have hbody : ∀ (damage : Widget → Rect) (write : Widget → Rect → Widget),
      geomnotify kids Widget.notified damage write s p = some (s.relayout window
        (Function.update m' p (some (write w.notified
          (normalizeRect (damage w.notified) window))))
        (requests s.widgets w.notified.content f ++ [damage w.notified])) := by
    intro damage write
    simp only [geomnotify, hp, Option.bind_eq_bind, Option.bind_some, hrun,
      AppState.widgets_relayout, hm'p, eiAppInvalidateRect_eq hwin',
      AppState.relayout_addDamage]
    rfl
  have hattrs : ∀ {c}, w.attrs.wclass = c → w.notified.attrs.wclass = c := by
    intro c hc
    rw [← hc, Widget.notified]
    split
    · split_ifs <;> rfl
    · split_ifs <;> rfl
    · next ha => simp only [ha, Attrs.wclass]
  rw [Widget.wclass]
  cases hc : w.attrs.wclass with
  | frame =>
    have := hattrs hc
    rw [geomnotifyfunc, geomnotifyframe, hbody]
    simp only [Widget.damage, Widget.writeDamage]
    cases ha : w.notified.attrs with
    | frame a => rfl
    | button a => simp [ha, Attrs.wclass] at this
    | toplevel a => simp [ha, Attrs.wclass] at this
  | button =>
    have := hattrs hc
    rw [geomnotifyfunc, geomnotifybutton, hbody]
    simp only [Widget.damage, Widget.writeDamage]
    cases ha : w.notified.attrs with
    | frame a => simp [ha, Attrs.wclass] at this
    | button a => rfl
    | toplevel a => simp [ha, Attrs.wclass] at this
  | toplevel =>
    have := hattrs hc
    rw [geomnotifyfunc, geomnotifytoplevel, hbody]
    simp only [Widget.damage, Widget.writeDamage]
    cases ha : w.notified.attrs with
    | frame a => simp [ha, Attrs.wclass] at this
    | button a => simp [ha, Attrs.wclass] at this
    | toplevel a => rfl

/-- The placer leaves alone a widget that is where it should be. -/
theorem runplacerWith_self (hp : s.widgets p = some w) (ho : w.parent = some o)
    (hpo : s.widgets o = some pw) (ht : w.target pw.content = w.screenLocation) :
    runplacerWith kids s p = some s := by
  cases hg : w.geomParams with
  | none => simp only [runplacerWith, hp, hg, Option.bind_eq_bind, Option.bind_some]
  | some params =>
    have htarget : placerRect params w.requestedSize pw.content = w.screenLocation := by
      rw [← ht, Widget.target, hg]
    have hself : s.setWidget p w = s := by
      rw [AppState.setWidget, Function.update_eq_self_iff.mpr hp.symm]
    simp only [runplacerWith, hp, hg, ho, hpo, Option.bind_eq_bind, Option.bind_some, htarget,
      if_true, Widget.setScreenLocation_self, hself]

/-- The placer on a widget with a parent. -/
theorem runplacerWith_settles (hp : s.widgets p = some w) (ho : w.parent = some o)
    (hpo : s.widgets o = some pw) (hwin : s.HasWindow window) (hroot : s.rootWidget ≠ some p)
    (hpf : p ∉ f.nodes) (hrootf : ∀ q ∈ f.nodes, s.rootWidget ≠ some q)
    (hkids : KidsSettle window kids s p w.childrenHead f) :
    Settles window s pw.content (.cons p f .nil) (runplacerWith kids s p) := by
  by_cases ht : w.target pw.content = w.screenLocation
  · refine ⟨s.widgets, ?_, .stay hp ht hp (fun _ _ => rfl) .nil, fun _ _ => rfl⟩
    rw [runplacerWith_self hp ho hpo ht]
    simp only [requests, hp, ht, if_true, List.nil_append, AppState.relayout_self]
  · cases hg : w.geomParams with
    | none => exact absurd (by rw [Widget.target, hg]) ht
    | some params =>
      have htarget : placerRect params w.requestedSize pw.content = w.target pw.content := by
        rw [Widget.target, hg]
      have hset : ∀ r, (s.setWidget p (w.setScreenLocation r)).HasWindow window := fun r =>
        hwin.setWidget fun h => absurd h hroot
      -- The widget moves: the old location is invalidated, then its class is notified.
      let w₁ := w.setScreenLocation (w.target pw.content)
      let s₁ := (s.setWidget p w₁).addDamage window (extendRect w.screenLocation)
      have hp₁ : s₁.widgets p = some w₁ := s.widgets_setWidget_self p w₁
      have hs₁ : ∀ q ∈ f.nodes, s₁.widgets q = s.widgets q := fun q hq =>
        s.widgets_setWidget_of_ne w₁ fun h => hpf (by rwa [← h])
      have hkids₁ : KidsSettle window kids s₁ p w₁.childrenHead f := fun s₂ hn hr =>
        hkids s₂ (hn.trans (AppState.nodes_eq_of_skeleton (AppState.skeleton_setWidget hp rfl))) hr
      obtain ⟨m', hrun, hsettled, hframe⟩ := geomnotifyfunc_settles hp₁ (hset _) hroot hpf hrootf
        hkids₁
      refine ⟨Function.update m' p (some (w.settled window (w.target pw.content))), ?_,
        .move hp ht (Function.update_self ..) (hsettled.congr hs₁ fun q hq => ?_) .nil, ?_⟩
      · simp only [runplacerWith, hp, hg, ho, hpo, Option.bind_eq_bind, Option.bind_some, htarget,
          ht, if_false, eiAppInvalidateRect_eq (hset _)]
        refine hrun.trans ?_
        rw [requests_congr hs₁, requests, hp]
        simp only [ht, if_false, requests, List.append_nil]
        rfl
      · exact (Function.update_of_ne (fun h : q = p => hpf (h ▸ hq)) ..).symm
      · intro q hq
        simp only [Forest.nodes_cons, Forest.nodes_nil, List.append_nil, List.mem_cons,
          not_or] at hq
        rw [Function.update_of_ne hq.1, hframe q hq.2 hq.1, AppState.widgets_addDamage,
          s.widgets_setWidget_of_ne _ hq.1]

end Runs

/-- **The loop on the children settles the whole forest below them**, when the bound on its depth
reaches the number of widgets of the forest. -/
theorem runSiblings_settles {window : Size} : (f : Forest Ptr) → (fuel : ℕ) → {o : Ptr} →
    {h : Option Ptr} → {s : AppState} → {pw : Widget} → Represents nodeLinks s.nodes o h f →
    f.nodes.Nodup → o ∉ f.nodes → s.widgets o = some pw → s.HasWindow window →
    (∀ q ∈ f.nodes, s.rootWidget ≠ some q) → f.nodes.length ≤ fuel →
    Settles window s pw.content f (runSiblings fuel s h)
  | .nil, fuel, o, h, s, pw, hf, _, _, _, _, _, _ => by
      obtain rfl := represents_nil_iff.mp hf
      refine ⟨s.widgets, ?_, .nil, fun _ _ => rfl⟩
      cases fuel <;> rw [runSiblings, requests, AppState.relayout_self]
  | .cons p kids rest, fuel, o, h, s, pw, hf, hnodup, ho, hpo, hwin, hroot, hfuel => by
      obtain ⟨rfl, n, hn, hpar, hkids, hrest⟩ := hf
      obtain ⟨w, hp, rfl⟩ := AppState.nodes_eq_some.mp hn
      rw [Forest.nodes_cons, List.nodup_cons, List.nodup_append, List.mem_append, not_or] at hnodup
      obtain ⟨⟨hpk, hpr⟩, hnk, hnr, hdisj⟩ := hnodup
      simp only [Forest.nodes_cons, List.mem_cons, List.mem_append, not_or] at ho hroot
      obtain ⟨hop, hok, hor⟩ := ho
      rw [Forest.nodes_cons, List.length_cons, List.length_append] at hfuel
      obtain ⟨fuel, rfl⟩ : ∃ k, fuel = k + 1 := ⟨fuel - 1, by omega⟩
      -- The first widget and the forest below it.
      have hk : KidsSettle window (runSiblings fuel) s p w.childrenHead kids :=
        fun s₁ hs₁ hr₁ hwin₁ w₁ hw₁ => runSiblings_settles kids fuel (hs₁ ▸ hkids) hnk hpk hw₁ hwin₁
          (fun q hq => hr₁ ▸ hroot q (Or.inr (Or.inl hq))) (by omega)
      obtain ⟨m₁, hrun₁, hset₁, hframe₁⟩ := runplacerWith_settles hp hpar hpo hwin
        (hroot p (Or.inl rfl)) hpk (fun q hq => hroot q (Or.inr (Or.inl hq))) hk
      rw [Forest.nodes_cons, Forest.nodes_nil, List.append_nil] at hframe₁
      have hskel := skeleton_runplacerWith hrun₁
      -- Its later siblings.
      have hpo₁ : m₁ o = some pw := (hframe₁ o (by simp [hop, hok])).trans hpo
      have hwin₁ : (s.relayout window m₁ (requests s.widgets pw.content
          (.cons p kids .nil))).HasWindow window := by
        refine hwin.relayout (fun r hr => hframe₁ r fun hmem => ?_) _
        rcases List.mem_cons.mp hmem with rfl | hmem
        · exact hroot r (Or.inl rfl) hr
        · exact hroot r (Or.inr (Or.inl hmem)) hr
      obtain ⟨m₂, hrun₂, hset₂, hframe₂⟩ := runSiblings_settles rest fuel
        (AppState.nodes_eq_of_skeleton hskel ▸ hrest) hnr hor hpo₁ hwin₁
        (fun q hq => hroot q (Or.inr (Or.inr hq))) (by omega)
      have hrest₁ : ∀ q ∈ rest.nodes, m₁ q = s.widgets q := fun q hq => hframe₁ q fun hmem => by
        rcases List.mem_cons.mp hmem with rfl | hmem
        · exact hpr hq
        · exact hdisj q hmem q hq rfl
      have hkids₂ : ∀ q ∈ (Forest.cons p kids .nil).nodes, m₁ q = m₂ q := fun q hq =>
        (hframe₂ q fun hmem => by
          rw [Forest.nodes_cons, Forest.nodes_nil, List.append_nil] at hq
          rcases List.mem_cons.mp hq with rfl | hq
          · exact hpr hmem
          · exact hdisj q hq q hmem rfl).symm
      refine ⟨m₂, ?_, (hset₁.congr (fun _ _ => rfl) hkids₂).single
        (hset₂.congr hrest₁ fun _ _ => rfl), fun q hq => ?_⟩
      · have hnext : ∃ w₁, m₁ p = some w₁ ∧ w₁.nextSibling = w.nextSibling := by
          have := congrFun (AppState.nodes_eq_of_skeleton hskel) p
          rw [AppState.nodes_of_widgets hp] at this
          obtain ⟨w₁, hw₁, hnode⟩ := AppState.nodes_eq_some.mp this
          exact ⟨w₁, hw₁, congrArg Node.nextSibling hnode⟩
        obtain ⟨w₁, hw₁, hnext⟩ := hnext
        have hrunMapped : runMapped (runSiblings fuel) s w p =
            some (s.relayout window m₁ (requests s.widgets pw.content (.cons p kids .nil))) := by
          rw [runMapped, ← hrun₁]
          cases hg : w.geomParams with
          | some params => rfl
          | none => simp [runplacerWith, hp, hg]
        rw [runSiblings]
        simp only [hp, Option.bind_eq_bind, Option.bind_some, hrunMapped,
          AppState.widgets_relayout, hw₁, hnext]
        refine hrun₂.trans ?_
        rw [AppState.relayout_relayout, AppState.widgets_relayout, requests_congr hrest₁,
          ← requests_cons]
      · simp only [Forest.nodes_cons, List.mem_cons, List.mem_append, not_or] at hq
        rw [hframe₂ q hq.2.2, AppState.widgets_relayout, hframe₁ q (by simp [hq.1, hq.2.1])]

/-- The forest of a widget is no larger than the number of widgets created. -/
theorem WellFormed.length_nodes_le {s : AppState} (hs : WellFormed s) {o : Ptr} {h : Option Ptr}
    {f : Forest Ptr} (hf : Represents nodeLinks s.nodes o h f) :
    f.nodes.length ≤ s.nextWidget := by
  have hsub : f.nodes ⊆ List.range s.nextWidget := fun q hq =>
    List.mem_range.mpr (hs.lt_nextWidget (hf.live q hq))
  simpa using (List.subperm_of_subset (hf.nodup_nodes hs.linked) hsub).length_le

/-- The root has no parent, so it is in no forest. -/
theorem WellFormed.rootWidget_notMem {s : AppState} (hs : WellFormed s) {o : Ptr} {h : Option Ptr}
    {f : Forest Ptr} (hf : Represents nodeLinks s.nodes o h f) :
    ∀ q ∈ f.nodes, s.rootWidget ≠ some q := by
  intro q hq
  obtain ⟨d, ⟨n, hn, hd⟩, -⟩ := Relation.TransGen.head'_iff.mp (hf.below q hq)
  obtain ⟨w, hw, rfl⟩ := AppState.nodes_eq_some.mp hn
  exact hs.rootWidget_ne hw hd

/-- **The placer on a widget of a well-formed hierarchy** completes, settles the widget and the
forest below it, and changes no other widget. -/
theorem runplacer_settles {window : Size} {s : AppState} (hs : WellFormed s)
    (hwin : s.HasWindow window) {p o : Ptr} {w pw : Widget} (hp : s.widgets p = some w)
    (ho : w.parent = some o) (hpo : s.widgets o = some pw) {f : Forest Ptr}
    (hf : Represents nodeLinks s.nodes p w.childrenHead f) :
    Settles window s pw.content (.cons p f .nil) (runplacer s p) := by
  have hpf : p ∉ f.nodes := fun h => hs.linked.not_below_self p (hf.below p h)
  have hroot := hs.rootWidget_ne hp ho
  refine runplacerWith_settles hp ho hpo hwin hroot hpf (hs.rootWidget_notMem hf) ?_
  intro s₁ hn hr hwin₁ w₁ hw₁
  exact runSiblings_settles f s.nextWidget (hn ▸ hf) (hf.nodup_nodes hs.linked) hpf hw₁ hwin₁
    (fun q hq => hr ▸ hs.rootWidget_notMem hf q hq) (hs.length_nodes_le hf)

end GuiLibrary

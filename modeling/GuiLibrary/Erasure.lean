import GuiLibrary.Destroy

/-!
# Destroying a forest

`ei_widget_destroy_recurs` frees a chain of siblings with everything below them. The state after
it is the state before with these widgets erased, more invalidated rectangles, and a longer log of
destructions. The log has a shape of its own: the destructor of the first widget of every chain is
called when the chain is entered, and the other ones are never called.

## Main definitions

* `AppState.erase`, `siblingsLog`, `childrenLog`, `widgetLog`.

## Main results

* `destroyChildren_of`, `destroySiblings_eq`: what the recursion computes.
-/

namespace GuiLibrary

open Cells

/-! ### Erasing widgets -/

namespace AppState

/-- The state without the widgets of a list, with more entries in the log. -/
def erase (s : AppState) (l : List Ptr) (entries : List LogEntry) (rects : List Rect) : AppState :=
  { s with
    widgets := fun q => if q ∈ l then none else s.widgets q
    log := s.log ++ entries
    invalidatedRects := rects }

/-- The destructors of the programmer. -/
def destructors (s : AppState) (p : Ptr) : Option ℕ := (s.nodes p).bind Node.destructor

variable (s : AppState) (l l' : List Ptr) (entries entries' : List LogEntry)
  (rects rects' : List Rect)

theorem widgets_erase (q : Ptr) :
    (s.erase l entries rects).widgets q = if q ∈ l then none else s.widgets q := rfl

theorem nodes_erase (q : Ptr) :
    (s.erase l entries rects).nodes q = if q ∈ l then none else s.nodes q := by
  rw [nodes, widgets_erase]
  split_ifs
  · rfl
  · rfl

theorem destructors_erase (q : Ptr) :
    (s.erase l entries rects).destructors q = if q ∈ l then none else s.destructors q := by
  rw [destructors, nodes_erase]
  split_ifs
  · rfl
  · rfl

theorem erase_erase : (s.erase l entries rects).erase l' entries' rects' =
    s.erase (l ++ l') (entries ++ entries') rects' := by
  rw [erase, erase, erase, List.append_assoc, mk.injEq]
  refine ⟨funext fun q => ?_, rfl, rfl, rfl, rfl, rfl, rfl, rfl, rfl, rfl, rfl, rfl, rfl, rfl,
    rfl, rfl⟩
  by_cases hq : q ∈ l <;> by_cases hq' : q ∈ l' <;> simp [hq, hq']

variable {s l l'}

/-- The order of the erased widgets does not matter. -/
theorem erase_congr (h : ∀ q, q ∈ l ↔ q ∈ l') :
    s.erase l entries rects = s.erase l' entries rects := by
  rw [erase, erase, funext fun q => if_congr (h q) rfl rfl]

theorem HasWindow.erase {window : Size} (h : s.HasWindow window)
    (hroot : ∀ q ∈ l, s.rootWidget ≠ some q) : (s.erase l entries rects).HasWindow window := by
  obtain ⟨r, w, hr, hw, rfl⟩ := h
  refine ⟨r, w, hr, ?_, rfl⟩
  rw [widgets_erase, if_neg fun hrl => hroot r hrl hr, hw]

theorem erase_nil_self : s.erase [] [] s.invalidatedRects = s := by
  simp [erase]

end AppState

/-- Erasing other widgets keeps a represented forest. -/
theorem represents_erase {s : AppState} {l : List Ptr} {entries : List LogEntry}
    {rects : List Rect} {o : Ptr} {h : Option Ptr} {f : Forest Ptr}
    (hf : Represents nodeLinks s.nodes o h f) (hl : ∀ q ∈ f.nodes, q ∉ l) :
    Represents nodeLinks (s.erase l entries rects).nodes o h f :=
  hf.congr fun q hq => by rw [s.nodes_erase, if_neg (hl q hq)]

/-! ### The log of a destruction -/

section Log

variable (destructors : Ptr → Option ℕ)

/-- The call of the destructor of a widget, if it has one. -/
def destructorLog (p : Ptr) : List LogEntry :=
  ((destructors p).map (LogEntry.destructor · p)).toList

/-- The log of `ei_widget_destroy_recurs` on a chain of siblings, after the first destructor. -/
def siblingsLog : Forest Ptr → List LogEntry
  | .nil => []
  | .cons p kids rest =>
      kids.roots.head?.elim [] (destructorLog destructors) ++ siblingsLog kids ++
        LogEntry.release p :: siblingsLog rest

/-- The log of `ei_widget_destroy_recurs` on the children of a widget, if it has any. -/
def childrenLog (kids : Forest Ptr) : List LogEntry :=
  kids.roots.head?.elim [] (destructorLog destructors) ++ siblingsLog destructors kids

/-- The log of `ei_widget_destroy` on a widget with the forest of its descendants. -/
def widgetLog (p : Ptr) (kids : Forest Ptr) : List LogEntry :=
  destructorLog destructors p ++ childrenLog destructors kids ++ [LogEntry.release p]

end Log

theorem roots_head_mem {f : Forest Ptr} {q : Ptr} (h : f.roots.head? = some q) : q ∈ f.nodes :=
  f.roots_subset_nodes (List.mem_of_head? h)

theorem siblingsLog_congr {d d' : Ptr → Option ℕ} : {f : Forest Ptr} →
    (∀ q ∈ f.nodes, d q = d' q) → siblingsLog d f = siblingsLog d' f
  | .nil, _ => rfl
  | .cons p kids rest, h => by
      have hkids : ∀ q ∈ kids.nodes, d q = d' q := fun q hq =>
        h q (List.mem_cons_of_mem p (List.mem_append_left _ hq))
      have hrest : ∀ q ∈ rest.nodes, d q = d' q := fun q hq =>
        h q (List.mem_cons_of_mem p (List.mem_append_right _ hq))
      rw [siblingsLog, siblingsLog, siblingsLog_congr hkids, siblingsLog_congr hrest]
      cases hr : kids.roots.head? with
      | none => rfl
      | some q =>
        simp only [Option.elim_some, destructorLog, hkids q (roots_head_mem hr)]

/-! ### The recursion -/

theorem callDestructor_eq {s : AppState} {p : Ptr} {w : Widget} (hp : s.widgets p = some w) :
    callDestructor s w p = s.erase [] (destructorLog s.destructors p) s.invalidatedRects := by
  have hd : s.destructors p = w.destructor := by
    rw [AppState.destructors, AppState.nodes_of_widgets hp]
    rfl
  rw [callDestructor, destructorLog, hd]
  cases w.destructor with
  | none => exact AppState.erase_nil_self.symm
  | some d => simp [AppState.record, AppState.erase]

theorem releaseWidget_eq {window : Size} {s : AppState} (hwin : s.HasWindow window) {p : Ptr}
    {w : Widget} (hp : s.widgets p = some w) :
    ∃ rects, releaseWidget s p = some (s.erase [p] [.release p] rects) := by
  rw [releaseWidget, eiGeometrymanagerUnmap_eq hwin hp, Option.map_some]
  have hfun : ∀ m : Ptr → Option Widget, Function.update m p none =
      fun q => if q ∈ [p] then none else m q := fun m => by
    funext q
    simp [Function.update_apply]
  split_ifs
  · refine ⟨linkRect s.invalidatedRects (normalizeRect w.screenLocation window), ?_⟩
    rw [AppState.freeWidget, AppState.record, AppState.setWidget, AppState.addDamage,
      AppState.erase, Function.update_idem]
    simp only [hfun]
  · refine ⟨s.invalidatedRects, ?_⟩
    rw [AppState.freeWidget, AppState.record, AppState.erase]
    simp only [hfun]

/-- What the loop on siblings is assumed to do in the states where it is called. -/
def ErasesSiblings (siblings : AppState → Option Ptr → Option AppState) (s : AppState)
    (h : Option Ptr) (f : Forest Ptr) : Prop :=
  ∀ s₁ : AppState, s₁.widgets = s.widgets → s₁.rootWidget = s.rootWidget → ∃ rects,
    siblings s₁ h = some (s₁.erase f.nodes (siblingsLog s.destructors f) rects)

theorem ErasesSiblings.of_run {window : Size}
    {siblings : AppState → Option Ptr → Option AppState} {s : AppState} {o : Ptr} {h : Option Ptr}
    {f : Forest Ptr} (hf : Represents nodeLinks s.nodes o h f) (hwin : s.HasWindow window)
    (hroot : ∀ q ∈ f.nodes, s.rootWidget ≠ some q)
    (hrun : ∀ s₁ : AppState, Represents nodeLinks s₁.nodes o h f → s₁.HasWindow window →
      (∀ q ∈ f.nodes, s₁.rootWidget ≠ some q) → ∃ rects,
        siblings s₁ h = some (s₁.erase f.nodes (siblingsLog s₁.destructors f) rects)) :
    ErasesSiblings siblings s h f := by
  intro s₁ hs₁ hr₁
  have hn₁ : s₁.nodes = s.nodes := by
    funext q
    rw [AppState.nodes, hs₁, AppState.nodes]
  have hd₁ : s₁.destructors = s.destructors := by
    funext q
    rw [AppState.destructors, hn₁, AppState.destructors]
  obtain ⟨r, v, hr, hv, hsize⟩ := hwin
  obtain ⟨rects, h₁⟩ := hrun s₁ (hn₁ ▸ hf) ⟨r, v, hr₁ ▸ hr, hs₁ ▸ hv, hsize⟩ (hr₁ ▸ hroot)
  exact ⟨rects, hd₁ ▸ h₁⟩

/-- `ei_widget_destroy_recurs` on the first child of a widget, if it has one. -/
theorem destroyChildren_of {siblings : AppState → Option Ptr → Option AppState} {s : AppState}
    {o : Ptr} {h : Option Ptr} {f : Forest Ptr} (hf : Represents nodeLinks s.nodes o h f)
    (hrun : ErasesSiblings siblings s h f) :
    ∃ rects, h.elim (some s) (destroyRecursWith siblings s) =
      some (s.erase f.nodes (childrenLog s.destructors f) rects) := by
  cases f with
  | nil =>
    obtain rfl := represents_nil_iff.mp hf
    exact ⟨s.invalidatedRects, congrArg some AppState.erase_nil_self.symm⟩
  | cons p kids rest =>
    obtain ⟨rfl, n, hn, -⟩ := hf
    obtain ⟨w, hw, rfl⟩ := AppState.nodes_eq_some.mp hn
    obtain ⟨rects, h₁⟩ := hrun (callDestructor s w p)
      (by simp [callDestructor_eq hw, AppState.erase])
      (by simp [callDestructor_eq hw, AppState.erase])
    refine ⟨rects, ?_⟩
    simp only [Option.elim_some, destroyRecursWith, hw, Option.bind_eq_bind, Option.bind_some, h₁]
    rw [callDestructor_eq hw, AppState.erase_erase, List.nil_append]
    rfl

/-- **The loop on a chain of siblings** erases the forest below it, when the bound on its depth
reaches the number of widgets of the forest. -/
theorem destroySiblings_eq {window : Size} : (f : Forest Ptr) → (fuel : ℕ) → {o : Ptr} →
    {h : Option Ptr} → {s : AppState} → Represents nodeLinks s.nodes o h f → f.nodes.Nodup →
    s.HasWindow window → (∀ q ∈ f.nodes, s.rootWidget ≠ some q) → f.nodes.length ≤ fuel →
    ∃ rects, destroySiblings fuel s h =
      some (s.erase f.nodes (siblingsLog s.destructors f) rects)
  | .nil, fuel, o, h, s, hf, _, _, _, _ => by
      obtain rfl := represents_nil_iff.mp hf
      refine ⟨s.invalidatedRects, ?_⟩
      rw [siblingsLog, Forest.nodes_nil, AppState.erase_nil_self]
      cases fuel <;> rfl
  | .cons p kids rest, fuel, o, h, s, hf, hnodup, hwin, hroot, hfuel => by
      obtain ⟨rfl, n, hn, hpar, hkids, hrest⟩ := hf
      obtain ⟨w, hp, rfl⟩ := AppState.nodes_eq_some.mp hn
      rw [Forest.nodes_cons, List.nodup_cons, List.nodup_append, List.mem_append, not_or] at hnodup
      obtain ⟨⟨hpk, hpr⟩, hnk, hnr, hdisj⟩ := hnodup
      simp only [Forest.nodes_cons, List.mem_cons, List.mem_append] at hroot
      rw [Forest.nodes_cons, List.length_cons, List.length_append] at hfuel
      obtain ⟨fuel, rfl⟩ : ∃ k, fuel = k + 1 := ⟨fuel - 1, by omega⟩
      -- The children, then the widget itself.
      have hrun : ErasesSiblings (destroySiblings fuel) s w.childrenHead kids :=
        .of_run hkids hwin (fun q hq => hroot q (Or.inr (Or.inl hq))) fun s₁ hk hw hr =>
          destroySiblings_eq kids fuel hk hnk hw hr (by omega)
      obtain ⟨rects₁, h₁⟩ : ∃ rects, w.childrenHead.elim (some s)
          (destroyRecursWith (destroySiblings fuel) s) =
            some (s.erase kids.nodes (childrenLog s.destructors kids) rects) :=
        destroyChildren_of hkids hrun
      have hwin₁ := hwin.erase (childrenLog s.destructors kids) rects₁
        fun q hq => hroot q (Or.inr (Or.inl hq))
      obtain ⟨rects₂, h₂⟩ := releaseWidget_eq hwin₁ (p := p) (w := w)
        (by rw [AppState.widgets_erase, if_neg hpk, hp])
      rw [AppState.erase_erase] at h₂
      have hmem : ∀ q ∈ kids.nodes ++ [p], q ∈ kids.nodes ∨ q = p := fun q hq => by
        simpa using hq
      -- The later siblings.
      have hout : ∀ q ∈ rest.nodes, q ∉ kids.nodes ++ [p] := fun q hq hmem' => by
        rcases hmem q hmem' with hk | rfl
        · exact hdisj q hk q hq rfl
        · exact hpr hq
      obtain ⟨rects₃, h₃⟩ := destroySiblings_eq rest fuel (o := o)
        (s := s.erase (kids.nodes ++ [p]) (childrenLog s.destructors kids ++ [.release p]) rects₂)
        (represents_erase hrest hout) hnr (hwin.erase _ _ fun q hq => by
          rcases hmem q hq with hk | rfl
          · exact hroot q (Or.inr (Or.inl hk))
          · exact hroot q (Or.inl rfl))
        (fun q hq => hroot q (Or.inr (Or.inr hq))) (by omega)
      refine ⟨rects₃, ?_⟩
      simp only [destroySiblings, hp, Option.bind_eq_bind, Option.bind_some, h₁, h₂]
      refine h₃.trans ?_
      have hlog : siblingsLog (s.erase (kids.nodes ++ [p])
          (childrenLog s.destructors kids ++ [.release p]) rects₂).destructors rest =
            siblingsLog s.destructors rest := siblingsLog_congr fun q hq => by
        rw [s.destructors_erase, if_neg (hout q hq)]
      rw [AppState.erase_erase, hlog]
      rw [Forest.nodes_cons, siblingsLog, childrenLog]
      simp only [List.append_assoc, List.singleton_append]
      exact congrArg some (AppState.erase_congr _ _ fun q => by
        simp only [List.mem_append, List.mem_cons, or_left_comm])

end GuiLibrary

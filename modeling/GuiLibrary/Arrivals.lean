import GuiLibrary.Data.Weight
import GuiLibrary.QuitButtons

/-!
# What a redraw can come to

A pass of the loop over the invalidated rectangles runs the placer on the widgets that it comes to.
The placer compares the location that the formula gives with the one that is stored, but
`ei_app_invalidate_rect` cuts the stored one at the edges of the window, through the pointer it is
given: a widget that has been cut is moved, and invalidated, by every pass that comes to it.

Which widgets the passes can come to follows from the list of rectangles alone. A pass stops at the
root when its rectangle is of negative size, and at a widget when the part of the rectangle in its
content area is; below a widget that it moves the placer goes on whatever the rectangle. What the
placer invalidates joins the list, or is merged into its last rectangle. `CanCome` collects these
possibilities. It is an upper bound: a rectangle of the list may be merged with any other one.

A widget that is not cut, nor below one that is, is moved a bounded number of times, since a widget
only unsettles those below it.

## Main definitions

* `Arrival`, `CanCome`: what a redraw can come to.
* `IsCut`, `Unsteady`, `Redone`: the widgets that keep moving, and their rectangles.
* `Drifted`, `Advances`: the states of a redraw, and its parts.

## Main results

* `runplacer_advances`: what a run of the placer can do.
-/

namespace GuiLibrary

open Cells

/-! ### Moving again -/

namespace Widget

variable (w : Widget) (window : Size) (rect rect' : Rect)

/-- What the placer writes into a widget does not depend on what it wrote before. -/
theorem moved_settled : (w.settled window rect).moved rect' = w.moved rect' := by
  obtain ⟨_, _, _, _, _, _, _, _, _, _, contentRect, attrs⟩ := w
  cases attrs with
  | frame a =>
    by_cases hb : a.borderWidth = 0 <;>
      simp [settled, moved, notified, setScreenLocation, writeDamage, hb]
  | button a =>
    by_cases hb : a.borderWidth = 0 <;>
      simp [settled, moved, notified, setScreenLocation, writeDamage, setContent, hb]
  | toplevel a => rfl

end Widget

/-! ### Arrivals -/

/-- What a redraw comes to: a rectangle of the list; the loop over the children of `p`, with its
content area and the clipper; a run of the placer on the widget `w` at `p`, under the content area
of its parent; a move of that widget, from a location. -/
inductive Arrival where
  | listed (rect : Rect)
  | loop (p : Ptr) (content clipper : Rect)
  | placed (p : Ptr) (w : Widget) (content : Rect)
  | moved (p : Ptr) (w : Widget) (content location : Rect)

/-- The rectangle is one of the two that the placer invalidates when it moves the widget from
`location`, under the content area `K` of its parent. -/
def Widget.Invalidates (window : Size) (w : Widget) (K location rect : Rect) : Prop :=
  rect = normalizeRect (extendRect location) window ∨
    rect = normalizeRect (w.moved (w.target K)).damage window

section CanCome

variable (window : Size) (s : AppState)

/-- **What a redraw that starts in the state `s` can come to.** -/
inductive CanCome : Arrival → Prop
  | initial {rect : Rect} (h : rect ∈ s.invalidatedRects) : CanCome (.listed rect)
  | request {p : Ptr} {w : Widget} {K location rect : Rect}
      (h : CanCome (.moved p w K location)) (hrect : w.Invalidates window K location rect) :
      CanCome (.listed rect)
  | merge {p : Ptr} {w : Widget} {K location last rect : Rect} (hlast : CanCome (.listed last))
      (h : CanCome (.moved p w K location)) (hrect : w.Invalidates window K location rect)
      (hnear : nearLast last rect) : CanCome (.listed (mergeLast last rect))
  | root {p : Ptr} {w : Widget} {rect : Rect} (hroot : s.rootWidget = some p)
      (hp : s.widgets p = some w) (h : CanCome (.listed rect)) (hrect : ¬ rect.Negative) :
      CanCome (.loop p w.content rect)
  -- The widget is where the formula puts it.
  | stay {o p : Ptr} {w : Widget} {K clipper : Rect} (h : CanCome (.loop o K clipper))
      (hp : s.widgets p = some w) (ho : w.parent = some o) (hg : w.geomParams.isSome)
      (hloc : w.target K = w.screenLocation)
      (hpart : ¬ (getEiRectIntersection clipper w.content).Negative) :
      CanCome (.loop p w.content (getEiRectIntersection clipper w.content))
  -- It has just been moved, or is where an earlier move has left it.
  | settled {o p : Ptr} {w : Widget} {K K' location clipper : Rect}
      (h : CanCome (.loop o K clipper)) (hmoved : CanCome (.moved p w K' location))
      (ho : w.parent = some o) (hrests : K' = K ∨ w.landing window (w.target K') = w.target K)
      (hpart : ¬ (getEiRectIntersection clipper
        (w.settled window (w.target K')).content).Negative) :
      CanCome (.loop p (w.settled window (w.target K')).content
        (getEiRectIntersection clipper (w.settled window (w.target K')).content))
  | visit {o p : Ptr} {w : Widget} {K clipper : Rect} (h : CanCome (.loop o K clipper))
      (hp : s.widgets p = some w) (ho : w.parent = some o) (hg : w.geomParams.isSome) :
      CanCome (.placed p w K)
  | follow {o p : Ptr} {pw w : Widget} {K location : Rect} (h : CanCome (.moved o pw K location))
      (hp : s.widgets p = some w) (ho : w.parent = some o) (hg : w.geomParams.isSome) :
      CanCome (.placed p w (pw.moved (pw.target K)).content)
  | first {p : Ptr} {w : Widget} {K : Rect} (h : CanCome (.placed p w K))
      (hne : w.target K ≠ w.screenLocation) : CanCome (.moved p w K w.screenLocation)
  | again {p : Ptr} {w : Widget} {K K' location : Rect} (h : CanCome (.placed p w K))
      (hmoved : CanCome (.moved p w K' location))
      (hne : w.target K ≠ w.landing window (w.target K')) :
      CanCome (.moved p w K (w.landing window (w.target K')))

/-- A pass can move the widget to where the edges of the window cut it. -/
def IsCut (p : Ptr) : Prop :=
  ∃ w K location, CanCome window s (.moved p w K location) ∧
    w.landing window (w.target K) ≠ w.target K

/-- The widget is cut, or below one that is. -/
def Unsteady (p : Ptr) : Prop := ∃ a, IsCut window s a ∧ s.InSubtree p a

/-- The rectangles that a redraw can invalidate. -/
def Requested (rect : Rect) : Prop :=
  ∃ p w K location, CanCome window s (.moved p w K location) ∧
    w.Invalidates window K location rect

/-- The rectangles that a redraw can invalidate again and again: an unsteady widget is moved from
where it was cut under one content area to where it is put under another, or the same. -/
def Redone (rect : Rect) : Prop :=
  ∃ p w K K' location, Unsteady window s p ∧ CanCome window s (.moved p w K' location) ∧
    CanCome window s (.moved p w K (w.landing window (w.target K'))) ∧
    w.Invalidates window K (w.landing window (w.target K')) rect

/-- The rectangles that are invalidated again and again are merged with one another. -/
def Merging : Prop := ∀ last rect, Redone window s last → Redone window s rect → nearLast last rect

/-- The placer can come to the children of the widget, with this content area: in the loop over
them, or in the notification of the widget. -/
def Shows (p : Ptr) (K : Rect) : Prop :=
  (∃ clipper, CanCome window s (.loop p K clipper)) ∨
    ∃ w L location, CanCome window s (.moved p w L location) ∧ K = (w.moved (w.target L)).content

end CanCome

section Spec

variable {window : Size} {s : AppState} {p o : Ptr} {w : Widget} {K location rect : Rect}

theorem Shows.placed (h : Shows window s o K) (hp : s.widgets p = some w)
    (ho : w.parent = some o) (hg : w.geomParams.isSome) : CanCome window s (.placed p w K) := by
  rcases h with ⟨clipper, h⟩ | ⟨pw, L, location, h, rfl⟩
  · exact .visit h hp ho hg
  · exact .follow h hp ho hg

theorem CanCome.widget (h : CanCome window s (.placed p w K)) :
    s.widgets p = some w ∧ w.geomParams.isSome ∧ ∃ o, w.parent = some o := by
  cases h with
  | visit _ hp ho hg => exact ⟨hp, hg, _, ho⟩
  | follow _ hp ho hg => exact ⟨hp, hg, _, ho⟩

/-- A widget that is moved is away from where the formula puts it. -/
theorem CanCome.away (h : CanCome window s (.moved p w K location)) :
    CanCome window s (.placed p w K) ∧ w.target K ≠ location := by
  cases h with
  | first h hne => exact ⟨h, hne⟩
  | again h _ hne => exact ⟨h, hne⟩

/-- A rectangle that joins the list can stand in it. -/
theorem Requested.listed_of_mem (h : Requested window s rect) : ∀ {l : List Rect},
    (∀ r ∈ l, CanCome window s (.listed r)) → ∀ r ∈ linkRect l rect, CanCome window s (.listed r)
  | [], _, r, hr => by
      obtain ⟨p, w, K, location, hmoved, hrect⟩ := h
      rw [linkRect, List.mem_singleton] at hr
      exact hr ▸ .request hmoved hrect
  | [last], hl, r, hr => by
      obtain ⟨p, w, K, location, hmoved, hrect⟩ := h
      rw [linkRect] at hr
      split_ifs at hr with hnear
      · rw [List.mem_singleton] at hr
        exact hr ▸ .merge (hl last List.mem_cons_self) hmoved hrect hnear
      · simp only [List.mem_cons, List.not_mem_nil, or_false] at hr
        rcases hr with rfl | rfl
        · exact hl r List.mem_cons_self
        · exact .request hmoved hrect
  | current :: next :: rects, hl, r, hr => by
      rw [linkRect, List.mem_cons] at hr
      rcases hr with rfl | hr
      · exact hl r List.mem_cons_self
      · exact h.listed_of_mem (fun r hr => hl r (List.mem_cons_of_mem current hr)) r hr

theorem listed_foldl_linkRect {rects : List Rect} (h : ∀ rect ∈ rects, Requested window s rect) :
    ∀ {l : List Rect}, (∀ r ∈ l, CanCome window s (.listed r)) →
      ∀ r ∈ rects.foldl linkRect l, CanCome window s (.listed r) := by
  induction rects with
  | nil => exact fun hl => hl
  | cons rect rects ih =>
    intro l hl
    exact ih (fun r hr => h r (List.mem_cons_of_mem rect hr))
      ((h rect List.mem_cons_self).listed_of_mem hl)

end Spec

/-! ### What the placer does -/

/-- Widgets that the placer does not tell apart: what it computes and writes is the same. -/
structure Alike (window : Size) (w w₁ : Widget) : Prop where
  node : w₁.node = w.node
  geomParams : w₁.geomParams = w.geomParams
  target : w.geomParams.isSome → ∀ K, w₁.target K = w.target K
  moved : ∀ rect, w₁.moved rect = w.moved rect
  landing : ∀ rect, w₁.landing window rect = w.landing window rect

namespace Alike

variable {window : Size} {w w₁ : Widget}

theorem refl (window : Size) (w : Widget) : Alike window w w :=
  ⟨rfl, rfl, fun _ _ => rfl, fun _ => rfl, fun _ => rfl⟩

theorem of_settled (window : Size) (w : Widget) (rect : Rect) :
    Alike window w (w.settled window rect) :=
  ⟨w.node_settled window rect, (w.placement_settled window rect).1,
    fun hg K => Widget.target_settled hg window rect K, w.moved_settled window rect,
    w.landing_settled window rect⟩

theorem settled (h : Alike window w w₁) (rect : Rect) :
    w₁.settled window rect = w.settled window rect := by
  rw [Widget.settled, Widget.settled, h.moved]

theorem parent (h : Alike window w w₁) : w₁.parent = w.parent := congrArg Node.parent h.node

end Alike

/-- A state of the redraw that started in `s`: every widget is as it was, or as the placer has left
it. -/
structure Drifted (window : Size) (s s₁ : AppState) : Prop where
  nodes : s₁.nodes = s.nodes
  nextWidget : s₁.nextWidget = s.nextWidget
  rootWidget : s₁.rootWidget = s.rootWidget
  hasWindow : s₁.HasWindow window
  widgets : ∀ p, s₁.widgets p = s.widgets p ∨ ∃ w K location,
    CanCome window s (.moved p w K location) ∧
      s₁.widgets p = some (w.settled window (w.target K))
  listed : ∀ rect ∈ s₁.invalidatedRects, CanCome window s (.listed rect)

/-- The placer finds a widget away from where the formula puts it. -/
structure PlacerMoves (window : Size) (s s₁ : AppState) (p : Ptr) (w w₁ : Widget) (K : Rect) :
    Prop where
  now : s₁.widgets p = some w₁
  moved : CanCome window s (.moved p w K w₁.screenLocation)

namespace PlacerMoves

variable {window : Size} {s s₁ : AppState} {p : Ptr} {w w₁ : Widget} {K : Rect}

theorem widget (h : PlacerMoves window s s₁ p w w₁ K) : s.widgets p = some w :=
  h.moved.away.1.widget.1

theorem mapped (h : PlacerMoves window s s₁ p w w₁ K) : w.geomParams.isSome :=
  h.moved.away.1.widget.2.1

theorem away (h : PlacerMoves window s s₁ p w w₁ K) : w.target K ≠ w₁.screenLocation :=
  h.moved.away.2

end PlacerMoves

section Drifted

variable {window : Size} {s s₁ s₂ : AppState} {p o : Ptr} {w w₁ pw : Widget} {K : Rect}

theorem Drifted.refl (hwin : s.HasWindow window) : Drifted window s s :=
  ⟨rfl, rfl, rfl, hwin, fun _ => Or.inl rfl, fun _ => .initial⟩

theorem Drifted.wellFormed (h : Drifted window s s₁) (hs : WellFormed s) : WellFormed s₁ :=
  hs.of_links (fun q => by rw [h.nodes]) h.nextWidget h.rootWidget

/-- The widget at the start of the redraw. -/
theorem Drifted.exists_alike (h : Drifted window s s₁) (hp : s₁.widgets p = some w₁) :
    ∃ w, s.widgets p = some w ∧ Alike window w w₁ := by
  rcases h.widgets p with heq | ⟨w, K, location, hmoved, heq⟩
  · exact ⟨w₁, heq.symm.trans hp, .refl window w₁⟩
  · obtain rfl := Option.some.inj (heq.symm.trans hp)
    exact ⟨w, hmoved.away.1.widget.1, .of_settled window w _⟩

/-- The placer comes to a mapped widget under the content area that its parent shows. -/
theorem Drifted.exists_placed (h : Drifted window s s₁) (hp : s₁.widgets p = some w₁)
    (hg : w₁.geomParams.isSome) (ho : w₁.parent = some o) (hshows : Shows window s o K) :
    ∃ w, CanCome window s (.placed p w K) ∧ Alike window w w₁ := by
  obtain ⟨w, hw, halike⟩ := h.exists_alike hp
  exact ⟨w, hshows.placed hw (halike.parent ▸ ho) (halike.geomParams ▸ hg), halike⟩

/-- The placer moves a widget that it finds away from where the formula puts it. -/
theorem Drifted.moves (h : Drifted window s s₁) (hp : s₁.widgets p = some w₁)
    (hplaced : CanCome window s (.placed p w K)) (haway : w.target K ≠ w₁.screenLocation) :
    PlacerMoves window s s₁ p w w₁ K := by
  obtain ⟨hw, -⟩ := hplaced.widget
  rcases h.widgets p with heq | ⟨v, L, location, hmoved, heq⟩
  · obtain rfl := Option.some.inj (hw.symm.trans (heq.symm.trans hp))
    exact ⟨hp, .first hplaced haway⟩
  · obtain rfl := Option.some.inj (hw.symm.trans hmoved.away.1.widget.1)
    obtain rfl := Option.some.inj (heq.symm.trans hp)
    refine ⟨hp, ?_⟩
    rw [Widget.screenLocation_settled] at haway ⊢
    exact .again hplaced hmoved haway

/-- What the placer makes of a widget under the content area `K` of its parent: it leaves it where
it is, which is where the formula puts it, or it has put it there. -/
def RestsAt (window : Size) (s : AppState) (p : Ptr) (K : Rect) (w₁ : Widget) : Prop :=
  (s.widgets p = some w₁ ∧ w₁.geomParams.isSome ∧ w₁.target K = w₁.screenLocation) ∨
    ∃ w K' location, CanCome window s (.moved p w K' location) ∧
      (K' = K ∨ w.landing window (w.target K') = w.target K) ∧
      w₁ = w.settled window (w.target K')

theorem Drifted.restsAt (h : Drifted window s s₁) (hp : s₁.widgets p = some w₁)
    (hplaced : CanCome window s (.placed p w K)) (hloc : w.target K = w₁.screenLocation) :
    RestsAt window s p K w₁ := by
  obtain ⟨hw, hg, -⟩ := hplaced.widget
  rcases h.widgets p with heq | ⟨v, L, location, hmoved, heq⟩
  · obtain rfl := Option.some.inj (hw.symm.trans (heq.symm.trans hp))
    exact Or.inl ⟨hw, hg, hloc⟩
  · obtain rfl := Option.some.inj (hw.symm.trans hmoved.away.1.widget.1)
    obtain rfl := Option.some.inj (heq.symm.trans hp)
    rw [Widget.screenLocation_settled] at hloc
    exact Or.inr ⟨w, L, location, hmoved, Or.inr hloc.symm, rfl⟩

/-- The loop goes on to the children of a widget that rests, unless the clipper misses it. -/
theorem RestsAt.loop {clipper : Rect} (h : RestsAt window s p K w₁) (ho : w₁.parent = some o)
    (hloop : CanCome window s (.loop o K clipper))
    (hpart : ¬ (getEiRectIntersection clipper w₁.content).Negative) :
    CanCome window s (.loop p w₁.content (getEiRectIntersection clipper w₁.content)) := by
  rcases h with ⟨hp, hg, hloc⟩ | ⟨w, K', location, hmoved, hrests, rfl⟩
  · exact .stay hloop hp ho hg hloc hpart
  · have hparent : w.parent = some o :=
      (congrArg Node.parent (w.node_settled window _)).symm.trans ho
    exact .settled hloop hmoved hparent hrests hpart

end Drifted

/-- What a run of the placer makes of these widgets, and the rectangles that it invalidates for
them. -/
structure Accounts (window : Size) (s s₁ : AppState) (m' : Ptr → Option Widget) (nodes : List Ptr)
    (rects : List Rect) : Prop where
  widgets : ∀ x ∈ nodes, m' x = s₁.widgets x ∨ ∃ w w₁ K, PlacerMoves window s s₁ x w w₁ K ∧
    m' x = some (w.settled window (w.target K))
  rects : ∀ rect ∈ rects, ∃ x ∈ nodes, ∃ w w₁ K, PlacerMoves window s s₁ x w w₁ K ∧
    m' x = some (w.settled window (w.target K)) ∧
    (rect = extendRect w₁.screenLocation ∨ rect = (w.moved (w.target K)).damage)

section Accounts

variable {window : Size} {s s₁ : AppState} {m' : Ptr → Option Widget} {l l' : List Ptr}
  {rects rects' : List Rect} {p : Ptr} {w w₁ : Widget} {K : Rect}

theorem Accounts.stay (h : ∀ x ∈ l, m' x = s₁.widgets x) : Accounts window s s₁ m' l [] :=
  ⟨fun x hx => Or.inl (h x hx), fun _ hrect => absurd hrect List.not_mem_nil⟩

theorem Accounts.append (h : Accounts window s s₁ m' l rects)
    (h' : Accounts window s s₁ m' l' rects') :
    Accounts window s s₁ m' (l ++ l') (rects ++ rects') where
  widgets x hx := (List.mem_append.mp hx).elim (h.widgets x) (h'.widgets x)
  rects rect hrect := by
    rcases List.mem_append.mp hrect with hrect | hrect
    · obtain ⟨x, hx, hmoves⟩ := h.rects rect hrect
      exact ⟨x, List.mem_append_left _ hx, hmoves⟩
    · obtain ⟨x, hx, hmoves⟩ := h'.rects rect hrect
      exact ⟨x, List.mem_append_right _ hx, hmoves⟩

/-- A widget that moves, and the children that the placer goes on to. -/
theorem Accounts.move (hmoves : PlacerMoves window s s₁ p w w₁ K)
    (hp : m' p = some (w.settled window (w.target K))) (h : Accounts window s s₁ m' l rects) :
    Accounts window s s₁ m' (p :: l) (extendRect w₁.screenLocation :: rects ++
      [(w.moved (w.target K)).damage]) where
  widgets x hx := by
    rcases List.mem_cons.mp hx with rfl | hx
    · exact Or.inr ⟨w, w₁, K, hmoves, hp⟩
    · exact h.widgets x hx
  rects rect hrect := by
    simp only [List.mem_append, List.mem_cons, List.not_mem_nil, or_false] at hrect
    rcases hrect with (rfl | hrect) | rfl
    · exact ⟨p, List.mem_cons_self, w, w₁, K, hmoves, hp, Or.inl rfl⟩
    · obtain ⟨x, hx, hrest⟩ := h.rects rect hrect
      exact ⟨x, List.mem_cons_of_mem p hx, hrest⟩
    · exact ⟨p, List.mem_cons_self, w, w₁, K, hmoves, hp, Or.inr rfl⟩

/-- **The widgets of a forest under a content area that its parent shows**, after a run of the
placer. -/
theorem Drifted.accounts (h : Drifted window s s₁) {f : Forest Ptr}
    (hset : Settled window s₁.widgets m' K f) : ∀ {o : Ptr} {head : Option Ptr},
    Represents nodeLinks s₁.nodes o head f → Shows window s o K →
      Accounts window s s₁ m' f.nodes (requests s₁.widgets K f) := by
  induction hset with
  | nil => exact fun _ _ => .stay fun _ hx => absurd hx List.not_mem_nil
  | @stay K p w₁ kids rest hw ht hp hkids _ ihrest =>
    rintro o _ ⟨rfl, n, hn, ho, hrk, hrr⟩ hshows
    simp only [requests, hw, ht, if_true, List.nil_append]
    refine Accounts.append (l := p :: kids.nodes) (.stay fun x hx => ?_) (ihrest hrr hshows)
    rcases List.mem_cons.mp hx with rfl | hx
    · exact hp.trans hw.symm
    · exact hkids x hx
  | @move K p w₁ kids rest hw ht hp _ _ ihkids ihrest =>
    rintro o _ ⟨rfl, n, hn, ho, hrk, hrr⟩ hshows
    obtain rfl := Option.some.inj ((AppState.nodes_of_widgets hw).symm.trans hn)
    obtain ⟨w, hplaced, halike⟩ := h.exists_placed hw (Widget.isSome_of_moves ht) ho hshows
    have htarget := halike.target hplaced.widget.2.1 K
    rw [htarget, halike.moved] at ihkids
    rw [htarget, halike.settled] at hp
    rw [htarget] at ht
    have hmoves := h.moves hw hplaced ht
    simp only [requests, hw, htarget, halike.moved, ht, if_false]
    exact Accounts.append (l := p :: kids.nodes) (.move hmoves hp
      (ihkids hrk (Or.inr ⟨w, K, _, hmoves.moved, rfl⟩))) (ihrest hrr hshows)

end Accounts

/-! ### Advancing -/

section Advances

variable (window : Size) (s : AppState)

/-- A widget that the placer can still move for the first time: an unsteady one, until the placer
has put it somewhere; another one, while it is away from where the formula puts it. -/
def Pending (s₁ : AppState) (p : Ptr) : Prop :=
  ∃ w₁, s₁.widgets p = some w₁ ∧ w₁.geomParams.isSome ∧
    ((Unsteady window s p ∧
        ∀ w K location, CanCome window s (.moved p w K location) →
          w₁ ≠ w.settled window (w.target K)) ∨
      (¬ Unsteady window s p ∧ ∃ o pw, w₁.parent = some o ∧ s₁.widgets o = some pw ∧
        w₁.target pw.content ≠ w₁.screenLocation))

/-- A part of the redraw that started in `s`: it makes progress, or it only invalidates rectangles
that are invalidated again and again. -/
structure Advances (s₁ s₂ : AppState) : Prop where
  drifted : Drifted window s s₂
  requested : ∃ rects : List Rect, (∀ rect ∈ rects, Requested window s rect) ∧
    s₂.invalidatedRects = rects.foldl linkRect s₁.invalidatedRects
  progress :
    weight s.nextWidget (Pending window s s₂) < weight s.nextWidget (Pending window s s₁) ∨
      weight s.nextWidget (Pending window s s₂) ≤ weight s.nextWidget (Pending window s s₁) ∧
        ∃ rects : List Rect, (∀ rect ∈ rects, Redone window s rect) ∧
          s₂.invalidatedRects = rects.foldl linkRect s₁.invalidatedRects

end Advances

section Progress

variable {window : Size} {s s₁ s₂ s₃ : AppState} {p o : Ptr} {w₁ pw : Widget}

theorem Advances.refl (h : Drifted window s s₁) : Advances window s s₁ s₁ :=
  ⟨h, ⟨[], by simp, rfl⟩, Or.inr ⟨Nat.le_refl _, [], by simp, rfl⟩⟩

theorem Advances.trans (h₁ : Advances window s s₁ s₂) (h₂ : Advances window s s₂ s₃) :
    Advances window s s₁ s₃ := by
  obtain ⟨l₁, hl₁, heq₁⟩ := h₁.requested
  obtain ⟨l₂, hl₂, heq₂⟩ := h₂.requested
  refine ⟨h₂.drifted, ⟨l₁ ++ l₂, fun rect hrect => ?_, by rw [heq₂, heq₁, List.foldl_append]⟩, ?_⟩
  · exact (List.mem_append.mp hrect).elim (hl₁ rect) (hl₂ rect)
  rcases h₁.progress with hlt₁ | ⟨hle₁, l₁, hl₁, heq₁⟩ <;>
  rcases h₂.progress with hlt₂ | ⟨hle₂, l₂, hl₂, heq₂⟩
  · exact Or.inl (hlt₂.trans hlt₁)
  · exact Or.inl (hle₂.trans_lt hlt₁)
  · exact Or.inl (hlt₂.trans_le hle₁)
  · refine Or.inr ⟨hle₂.trans hle₁, l₁ ++ l₂, fun rect hrect => ?_, ?_⟩
    · exact (List.mem_append.mp hrect).elim (hl₁ rect) (hl₂ rect)
    · rw [heq₂, heq₁, List.foldl_append]

/-- Drawing is no progress. -/
theorem Advances.of_onlySurfaces (h : Drifted window s s₁) (ho : OnlySurfaces s₁ s₂) :
    Advances window s s₁ s₂ := by
  have hw := ho.widgets_eq
  have hrects : s₂.invalidatedRects = s₁.invalidatedRects := by rw [ho]
  have hpending : Pending window s s₂ = Pending window s s₁ := by
    funext p
    simp only [Pending, hw]
  obtain ⟨r, v, hr, hv, hsize⟩ := h.hasWindow
  have hnext : s₂.nextWidget = s₁.nextWidget := by rw [ho]
  exact ⟨⟨ho.nodes_eq.trans h.nodes, hnext.trans h.nextWidget, ho.rootWidget_eq.trans h.rootWidget,
    ⟨r, v, ho.rootWidget_eq.trans hr, (congrFun hw r).trans hv, hsize⟩,
    fun q => hw ▸ h.widgets q, hrects ▸ h.listed⟩, ⟨[], by simp, hrects⟩,
    Or.inr ⟨hpending ▸ Nat.le_refl _, [], by simp, hrects⟩⟩

theorem length_le_foldl_linkRect (rects : List Rect) : ∀ l : List Rect,
    l.length ≤ (rects.foldl linkRect l).length := by
  induction rects with
  | nil => exact fun l => Nat.le_refl _
  | cons rect rects ih => exact fun l => (length_le_linkRect rect l).trans (ih _)

theorem Advances.length_le (h : Advances window s s₁ s₂) :
    s₁.invalidatedRects.length ≤ s₂.invalidatedRects.length := by
  obtain ⟨rects, -, heq⟩ := h.requested
  rw [heq]
  exact length_le_foldl_linkRect rects _

/-- What is below an unsteady widget is unsteady. -/
theorem Unsteady.of_inSubtree (h : Unsteady window s p) {q : Ptr} (hq : s.InSubtree q p) :
    Unsteady window s q := by
  obtain ⟨a, hcut, hp⟩ := h
  refine ⟨a, hcut, ?_⟩
  rcases hq with rfl | hq
  · exact hp
  · rcases hp with rfl | hp
    · exact Or.inr hq
    · exact Or.inr (hq.trans hp)

/-- A run of the placer does not make widgets outside of the subtree pending. -/
theorem Pending.of_outside {q : Ptr} (hnodes : s₁.nodes = s.nodes)
    (hout : ∀ x, ¬ s.InSubtree x p → s₂.widgets x = s₁.widgets x) (hq : ¬ s.InSubtree q p)
    (h : Pending window s s₂ q) : Pending window s s₁ q := by
  obtain ⟨w₂, hw₂, hg, hcases⟩ := h
  rw [hout q hq] at hw₂
  refine ⟨w₂, hw₂, hg, hcases.imp_right ?_⟩
  rintro ⟨hsteady, o, pw, ho, hpw, hne⟩
  refine ⟨hsteady, o, pw, ho, ?_, hne⟩
  rw [← hpw, hout o]
  -- The parent is not in the subtree, or the widget would be.
  intro hop
  have hqo : nodeLinks.ChildOf s.nodes q o :=
    ⟨w₂.node, hnodes ▸ AppState.nodes_of_widgets hw₂, ho⟩
  exact hq (Or.inr ((below_iff_of_childOf hqo p).mpr hop))

/-- A run of the placer on a widget that it moves, with the widgets of its subtree. -/
theorem Drifted.exists_run (hs : WellFormed s) (h : Drifted window s s₁) {w : Widget}
    (hmoves : PlacerMoves window s s₁ p w w₁ pw.content) (ho : w₁.parent = some o)
    (hpo : s₁.widgets o = some pw) :
    ∃ m' l rects, runplacer s₁ p = some (s₁.relayout window m' rects) ∧
      m' p = some (w.settled window (w.target pw.content)) ∧ (∀ x, x ∈ l ↔ s.InSubtree x p) ∧
      (∀ x, x ∉ l → m' x = s₁.widgets x) ∧ Accounts window s s₁ m' l rects := by
  have hs₁ := h.wellFormed hs
  obtain ⟨f, hf⟩ := hs₁.exists_forest hmoves.now
  obtain ⟨m', hrun, hset, hout⟩ := runplacer_settles hs₁ h.hasWindow hmoves.now ho hpo hf
  obtain ⟨w', hw', halike⟩ := h.exists_alike hmoves.now
  obtain rfl := Option.some.inj (hmoves.widget.symm.trans hw')
  have htarget := halike.target hmoves.mapped pw.content
  refine ⟨m', p :: f.nodes, _, hrun, ?_⟩
  cases hset with
  | stay hw ht _ _ _ =>
    obtain rfl := Option.some.inj (hmoves.now.symm.trans hw)
    exact absurd (htarget.symm.trans ht) hmoves.away
  | move hw _ hp hkids _ =>
    obtain rfl := Option.some.inj (hmoves.now.symm.trans hw)
    rw [htarget, halike.settled] at hp
    rw [htarget, halike.moved] at hkids
    refine ⟨hp, fun x => ?_, fun x hx => hout x (by simpa using hx), ?_⟩
    · rw [List.mem_cons, hf.mem_nodes_iff hs₁.linked (AppState.nodes_of_widgets hmoves.now),
        h.nodes]
      exact Iff.rfl
    · simp only [requests, hmoves.now, htarget, halike.moved, if_neg hmoves.away, List.append_nil]
      exact .move hmoves hp
        (h.accounts hkids hf (Or.inr ⟨w, pw.content, _, hmoves.moved, rfl⟩))

/-- The rectangles that a run of the placer invalidates can be invalidated. -/
theorem Accounts.requested {m' : Ptr → Option Widget} {l : List Ptr} {rects : List Rect}
    (hacc : Accounts window s s₁ m' l rects) :
    ∀ rect ∈ rects.map (normalizeRect · window), Requested window s rect := by
  intro rect hrect
  obtain ⟨request, hrequest, rfl⟩ := List.mem_map.mp hrect
  obtain ⟨x, -, v, v₁, L, hmoves, -, hcases⟩ := hacc.rects request hrequest
  exact ⟨x, v, L, v₁.screenLocation, hmoves.moved,
    hcases.imp (fun h => by rw [h]) fun h => by rw [h]⟩

/-- A widget that the placer has put somewhere is pending no more, unless it is steady. -/
theorem not_pending_of_settled {w : Widget} {K location : Rect} (hunsteady : Unsteady window s p)
    (hmoved : CanCome window s (.moved p w K location))
    (hp : s₂.widgets p = some (w.settled window (w.target K))) : ¬ Pending window s s₂ p := by
  rintro ⟨w₂, hw₂, -, ⟨-, hfirst⟩ | ⟨hsteady, -⟩⟩
  · exact hfirst w K location hmoved (Option.some.inj (hw₂.symm.trans hp))
  · exact hsteady hunsteady

section Run

variable {m' : Ptr → Option Widget} {l : List Ptr} {rects : List Rect} {w : Widget} {K : Rect}
  (hl : ∀ x, x ∈ l ↔ s.InSubtree x p) (hout : ∀ x, x ∉ l → m' x = s₁.widgets x)

include hl hout

/-- **Moving an unsteady widget** is progress, unless everything that moves has been moved before:
then all its rectangles are invalidated again. -/
theorem progress_of_unsteady (hs : WellFormed s) (h : Drifted window s s₁)
    (hunsteady : Unsteady window s p) (hacc : Accounts window s s₁ m' l rects) :
    weight s.nextWidget (Pending window s (s₁.relayout window m' rects)) <
        weight s.nextWidget (Pending window s s₁) ∨
      weight s.nextWidget (Pending window s (s₁.relayout window m' rects)) ≤
          weight s.nextWidget (Pending window s s₁) ∧
        ∃ rects' : List Rect, (∀ rect ∈ rects', Redone window s rect) ∧
          (s₁.relayout window m' rects).invalidatedRects =
            rects'.foldl linkRect s₁.invalidatedRects := by
  have hmono : ∀ q, Pending window s (s₁.relayout window m' rects) q → Pending window s s₁ q := by
    intro q hq
    by_cases hqp : q ∈ l
    · rcases hacc.widgets q hqp with heq | ⟨v, v₁, L, hmoves, heq⟩
      · obtain ⟨w₂, hw₂, hg, ⟨hun, hfirst⟩ | ⟨hsteady, -⟩⟩ := hq
        · exact ⟨w₂, heq.symm.trans hw₂, hg, Or.inl ⟨hun, hfirst⟩⟩
        · exact absurd (hunsteady.of_inSubtree ((hl q).mp hqp)) hsteady
      · exact absurd hq (not_pending_of_settled (hunsteady.of_inSubtree ((hl q).mp hqp))
          hmoves.moved heq)
    · exact hq.of_outside h.nodes (fun x hx => hout x fun hxl => hx ((hl x).mp hxl))
        fun hsub => hqp ((hl q).mpr hsub)
  by_cases hfirst : ∃ q < s.nextWidget, Pending window s s₁ q ∧
      ¬ Pending window s (s₁.relayout window m' rects) q
  · obtain ⟨q, hq, hbefore, hafter⟩ := hfirst
    exact Or.inl (weight_lt hq hafter hbefore fun x _ => hmono x)
  · refine Or.inr ⟨weight_mono fun x _ => hmono x, rects.map (normalizeRect · window),
      fun rect hrect => ?_, by rw [List.foldl_map]; rfl⟩
    obtain ⟨request, hrequest, rfl⟩ := List.mem_map.mp hrect
    obtain ⟨x, hx, v, v₁, L, hmoves, hx', hcases⟩ := hacc.rects request hrequest
    have hun := hunsteady.of_inSubtree ((hl x).mp hx)
    -- The widget has been moved before, from where it was cut.
    have hlt : x < s.nextWidget :=
      hs.lt_nextWidget (AppState.live_iff.mpr ⟨v, hmoves.widget⟩)
    have hbefore : ¬ Pending window s s₁ x := fun hpending =>
      hfirst ⟨x, hlt, hpending, not_pending_of_settled hun hmoves.moved hx'⟩
    obtain ⟨u, hu, halike⟩ := h.exists_alike hmoves.now
    obtain rfl := Option.some.inj (hmoves.widget.symm.trans hu)
    have hg : v₁.geomParams.isSome := halike.geomParams ▸ hmoves.mapped
    obtain ⟨v', L', location, hmoved', rfl⟩ : ∃ v' L' location,
        CanCome window s (.moved x v' L' location) ∧ v₁ = v'.settled window (v'.target L') := by
      by_contra! hnever
      exact hbefore ⟨v₁, hmoves.now, hg, Or.inl ⟨hun, hnever⟩⟩
    obtain rfl := Option.some.inj (hmoves.widget.symm.trans hmoved'.away.1.widget.1)
    have hmoved := hmoves.moved
    rw [Widget.screenLocation_settled] at hmoved hcases
    exact ⟨x, v, L, L', location, hun, hmoved', hmoved,
      hcases.imp (fun h => by rw [h]) fun h => by rw [h]⟩

/-- **Moving a steady widget** is progress: it only unsettles widgets below it. -/
theorem progress_of_steady (hs : WellFormed s) (h : Drifted window s s₁)
    (hsteady : ¬ Unsteady window s p) (hmoves : PlacerMoves window s s₁ p w w₁ pw.content)
    (ho : w₁.parent = some o) (hpo : s₁.widgets o = some pw)
    (hp : m' p = some (w.settled window (w.target pw.content))) :
    weight s.nextWidget (Pending window s (s₁.relayout window m' rects)) <
      weight s.nextWidget (Pending window s s₁) := by
  have hlive : s.Live p := AppState.live_iff.mpr ⟨w, hmoves.widget⟩
  obtain ⟨u, hu, halike⟩ := h.exists_alike hmoves.now
  obtain rfl := Option.some.inj (hmoves.widget.symm.trans hu)
  have hop : nodeLinks.ChildOf s.nodes p o :=
    ⟨w₁.node, h.nodes ▸ AppState.nodes_of_widgets hmoves.now, ho⟩
  have hlanding : w.landing window (w.target pw.content) = w.target pw.content := by
    by_contra hcut
    exact hsteady ⟨p, ⟨w, _, _, hmoves.moved, hcut⟩, Or.inl rfl⟩
  refine weight_lt (hs.lt_nextWidget hlive) ?_ ?_ fun q hq hpending => ?_
  · rintro ⟨w₂, hw₂, -, ⟨hun, -⟩ | ⟨-, o', pw', ho', hpo', hne⟩⟩
    · exact hsteady hun
    · obtain rfl := Option.some.inj (hp.symm.trans hw₂)
      have hoo : o' = o := by
        rw [← Option.some.injEq, ← ho', ← ho, halike.parent]
        exact congrArg Node.parent (w.node_settled window _)
      subst hoo
      have hpo'' : m' o' = some pw := (hout o' fun hmem =>
        hs.not_inSubtree_parent hop ((hl o').mp hmem)).trans hpo
      obtain rfl := Option.some.inj (hpo''.symm.trans hpo')
      rw [Widget.target_settled hmoves.mapped, Widget.screenLocation_settled, hlanding] at hne
      exact hne rfl
  · refine ⟨w₁, hmoves.now, halike.geomParams ▸ hmoves.mapped,
      Or.inr ⟨hsteady, o, pw, ho, hpo, ?_⟩⟩
    rw [halike.target hmoves.mapped]
    exact hmoves.away
  · refine hpending.of_outside h.nodes (p := p)
      (fun x hx => hout x fun hxl => hx ((hl x).mp hxl)) ?_
    rintro (rfl | hbelow)
    · exact Nat.lt_irrefl _ hq
    · exact Nat.lt_asymm hq (hs.linked.rank_lt_of_below hbelow)

end Run

/-- **A run of the placer advances**: it completes, moves nothing outside of the subtree, and leaves
the widget at rest. -/
theorem runplacer_advances (hs : WellFormed s) (h : Drifted window s s₁)
    (hp : s₁.widgets p = some w₁) (hg : w₁.geomParams.isSome) (ho : w₁.parent = some o)
    (hpo : s₁.widgets o = some pw) (hshows : Shows window s o pw.content) :
    ∃ s₂ w₂, runplacer s₁ p = some s₂ ∧ Advances window s s₁ s₂ ∧
      (∀ x, ¬ s.InSubtree x p → s₂.widgets x = s₁.widgets x) ∧ s₂.widgets p = some w₂ ∧
      RestsAt window s p pw.content w₂ := by
  obtain ⟨w, hplaced, halike⟩ := h.exists_placed hp hg ho hshows
  have htarget := halike.target hplaced.widget.2.1 pw.content
  by_cases hloc : w.target pw.content = w₁.screenLocation
  · exact ⟨s₁, w₁, runplacerWith_self hp ho hpo (htarget.trans hloc), .refl h, fun _ _ => rfl, hp,
      h.restsAt hp hplaced hloc⟩
  · have hmoves := h.moves hp hplaced hloc
    obtain ⟨m', l, rects, hrun, hp', hl, hout, hacc⟩ := h.exists_run hs hmoves ho hpo
    have hskel := skeleton_runplacer hrun
    have hroot : ∀ r, s₁.rootWidget = some r → m' r = s₁.widgets r := fun r hr =>
      hout r fun hmem => by
        rcases (hl r).mp hmem with rfl | hbelow
        · exact (h.wellFormed hs).rootWidget_ne hp ho hr
        · obtain ⟨v, hv⟩ : ∃ v, s₁.widgets r = some v := by
            obtain ⟨r', v, hr', hv, -⟩ := h.hasWindow
            exact ⟨v, Option.some.inj (hr'.symm.trans hr) ▸ hv⟩
          refine root_top (h.wellFormed hs) hr hv p ?_
          rwa [AppState.Below, h.nodes]
    have hrects : (s₁.relayout window m' rects).invalidatedRects =
        (rects.map (normalizeRect · window)).foldl linkRect s₁.invalidatedRects := by
      rw [AppState.relayout, List.foldl_map]
    refine ⟨_, _, hrun, ⟨⟨(AppState.nodes_eq_of_skeleton hskel).trans h.nodes, h.nextWidget,
      h.rootWidget, h.hasWindow.relayout hroot rects, fun x => ?_,
      hrects ▸ listed_foldl_linkRect hacc.requested h.listed⟩,
      ⟨_, hacc.requested, hrects⟩, ?_⟩, fun x hx => hout x fun hxl => hx ((hl x).mp hxl), hp',
      Or.inr ⟨w, pw.content, _, hmoves.moved, Or.inl rfl, rfl⟩⟩
    · by_cases hx : x ∈ l
      · rcases hacc.widgets x hx with heq | ⟨v, v₁, L, hmoves, heq⟩
        · rw [AppState.widgets_relayout, heq]
          exact h.widgets x
        · exact Or.inr ⟨v, L, _, hmoves.moved, heq⟩
      · rw [AppState.widgets_relayout, hout x hx]
        exact h.widgets x
    · by_cases hunsteady : Unsteady window s p
      · exact progress_of_unsteady hl hout hs h hunsteady hacc
      · exact Or.inl (progress_of_steady hl hout hs h hunsteady hmoves ho hpo hp')

end Progress

end GuiLibrary

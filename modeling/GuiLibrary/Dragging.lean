import GuiLibrary.Relayout
import GuiLibrary.Dispatch

/-!
# Dragging and resizing a toplevel

While a toplevel is dragged, `move` places it again for every mouse event; while its resize button
is dragged, `resize` does. The offsets travel as unsigned 32-bit numbers, and `ei_place` stores
absolute parameters in place of the relative ones.

A dragged toplevel follows the mouse, whatever its parameters were (`moves_follow_mouse`). A resized
one keeps to its axes and to its minimum size exactly when every event meets `AsksWell`
(`resizes_ok_iff`): along one axis the raw size of the other one is placed too, and a size below the
minimum is replaced by the requested one, which may be below the minimum itself.

## Main definitions

* `moves`, `resizes`, `Dragged`, `Resized`.
* `askedSize`, `SizeOk`, `AsksWell`, `HoldsAlong`, `MeetsAlong`.

## Main results

* `eiPlace_toplevel`: placing a toplevel.
* `moves_follow_mouse`, `resizes_ok_iff`.
-/

namespace GuiLibrary

open Cells

/-! ### Placing a toplevel -/

@[simp] theorem size_anchored (anchor : Anchor) (x y width height : ℤ) :
    (anchored anchor x y width height).size = ⟨width, height⟩ := by
  cases anchor <;> rfl

/-- The size that the formula gives does not depend on the position. -/
theorem size_placerRect (params : PlacerParam) (requestedSize : Size) (K : Rect) :
    (placerRect params requestedSize K).size =
      ⟨if truncate (K.size.width * params.relWidth + params.width) = 0 then requestedSize.width
        else truncate (K.size.width * params.relWidth + params.width),
      if truncate (K.size.height * params.relHeight + params.height) = 0 then requestedSize.height
        else truncate (K.size.height * params.relHeight + params.height)⟩ := by
  simp only [placerRect, size_anchored]

@[simp] theorem truncate_intCast (k : ℤ) : truncate (k : ℚ) = k := by
  simp [truncate]

section Place

variable {window : Size} {s : AppState} {t o : Ptr} {w pw : Widget} {a : ToplevelAttrs}

/-- The record of a toplevel after the placer has come to it. -/
theorem Widget.rerun_toplevel (ha : w.attrs = .toplevel a) (K : Rect) :
    (w.rerun window K).screenLocation = w.target K ∧
      (w.rerun window K).requestedSize = w.requestedSize ∧
      ∃ a', (w.rerun window K).attrs = .toplevel a' ∧ a'.minSize = a.minSize ∧
        a'.resizable = a.resizable := by
  by_cases h : w.target K = w.screenLocation
  · rw [Widget.rerun_of_eq h]
    exact ⟨h.symm, rfl, a, ha, rfl, rfl⟩
  · rw [Widget.rerun_of_ne h]
    generalize w.target K = rect
    obtain ⟨_, _, _, _, _, _, _, _, _, _, _, attrs⟩ := w
    obtain rfl : attrs = .toplevel a := ha
    exact ⟨rfl, rfl, _, rfl, rfl, rfl⟩

/-- **Placing a toplevel completes and puts it where the formula says**; its parent does not
change. -/
theorem eiPlace_toplevel (hs : WellFormed s) (ht : s.widgets t = some w)
    (ha : w.attrs = .toplevel a) (ho : w.parent = some o) (hpo : s.widgets o = some pw)
    (args : PlaceArgs) :
    ∃ window m' rects w' a', eiPlace s t args = some (s.relayout window m' rects) ∧
      WellFormed (s.relayout window m' rects) ∧ m' t = some w' ∧ m' o = some pw ∧
      w'.screenLocation = placerRect (placedParams w args) w.requestedSize pw.content ∧
      w'.geomParams = some (placedParams w args) ∧ w'.requestedSize = w.requestedSize ∧
      w'.parent = some o ∧ w'.attrs = .toplevel a' ∧ a'.minSize = a.minSize ∧
      a'.resizable = a.resizable := by
  obtain ⟨r, rw', hr, hrw, -⟩ := hs.rootWidget_live (AppState.live_iff.mpr ⟨w, ht⟩)
  have hwin : s.HasWindow rw'.screenLocation.size := ⟨r, rw', hr, hrw, rfl⟩
  let w₁ := w.setGeomParams (some (placedParams w args))
  have hskel : (s.setWidget t w₁).skeleton = s.skeleton :=
    AppState.skeleton_setWidget ht (Widget.node_setGeomParams w _)
  have hto : nodeLinks.ChildOf s.nodes t o := ⟨w.node, AppState.nodes_of_widgets ht, ho⟩
  have hot : o ≠ t := hs.parent_ne hto
  have hwin₁ : (s.setWidget t w₁).HasWindow rw'.screenLocation.size :=
    hwin.setWidget fun h => absurd h (hs.rootWidget_ne ht ho)
  have hpo₁ : (s.setWidget t w₁).widgets o = some pw :=
    (s.widgets_setWidget_of_ne _ hot).trans hpo
  obtain ⟨m', rects, hrun, hrelaid⟩ := runplacer_relaid (hs.congr hskel) hwin₁
    (s.widgets_setWidget_self t w₁) ho hpo₁
  have hplace : eiPlace s t args = some (s.relayout rw'.screenLocation.size m' rects) := by
    simp only [eiPlace, ht, Option.bind_eq_bind, Option.bind_some]
    exact hrun
  have hout : ¬ (s.setWidget t w₁).InSubtree o t := by
    rw [AppState.InSubtree, AppState.Below, AppState.nodes_eq_of_skeleton hskel]
    exact hs.not_inSubtree_parent hto
  obtain ⟨hloc, hsize, a', ha', hmin, hres⟩ := @Widget.rerun_toplevel
    rw'.screenLocation.size w₁ a ha pw.content
  refine ⟨_, m', rects, w₁.rerun rw'.screenLocation.size pw.content, a', hplace,
    hs.congr (skeleton_eiPlace hplace), ?_, (hrelaid.outside o hout).trans hpo₁, hloc, ?_, hsize,
    ?_, ha', hmin, hres⟩
  · rw [hrelaid.start, s.widgets_setWidget_self, Option.map_some]
  · exact w₁.geomParams_rerun _ _
  · exact (congrArg Node.parent (w₁.node_rerun _ _)).trans ho

end Place

/-! ### Dragging -/

section Drag

/-- The coordinates of the point are at most `2 ^ 23` in absolute value. -/
def InRange (p : Point) : Prop := |p.x| ≤ 2 ^ 23 ∧ |p.y| ≤ 2 ^ 23

/-- A sequence of events handled by `move`. -/
def moves (s : AppState) (events : List Event) : Option AppState :=
  events.foldlM (fun s event => (move s event).map Prod.fst) s

/-- The toplevel `t` is being dragged with an offset: it is mapped, its parent has the content area
`K`, and the formula gives it the size `size` there. -/
structure Dragged (s : AppState) (t : Ptr) (K : Rect) (size : Size)
    (offset : BitVec 32 × BitVec 32) : Prop where
  wellFormed : WellFormed s
  movingToplevel : s.movingToplevel = some t
  offsetptr : s.offsetptr = offset
  toplevel : ∃ w a params o pw, s.widgets t = some w ∧ w.attrs = .toplevel a ∧
    w.geomParams = some params ∧ w.parent = some o ∧ s.widgets o = some pw ∧ pw.content = K ∧
    (placerRect params w.requestedSize K).size = size

/-- Unsigned differences read as a signed number. -/
theorem toInt_sub_sub {a b c : ℤ} (hlo : -2 ^ 31 ≤ a - b - c) (hhi : a - b - c < 2 ^ 31) :
    (BitVec.ofInt 32 a - BitVec.ofInt 32 b - BitVec.ofInt 32 c).toInt = a - b - c := by
  have h : BitVec.ofInt 32 a - BitVec.ofInt 32 b - BitVec.ofInt 32 c =
      BitVec.ofInt 32 (a - b - c) := by
    apply BitVec.eq_of_toInt_eq
    simp [BitVec.toInt_sub]
  rw [h, BitVec.toInt_ofInt_eq_self (by decide) hlo hhi]

/-- **One event of a drag.** The toplevel goes where the mouse asks, without a change of size. -/
theorem Dragged.move {s : AppState} {t : Ptr} {K : Rect} {size : Size}
    {offset : BitVec 32 × BitVec 32} (h : Dragged s t K size offset) (event : Event) :
    ∃ s' w', GuiLibrary.move s event = some (s', false) ∧ Dragged s' t K size offset ∧
      s'.widgets t = some w' ∧ w'.screenLocation =
        ⟨⟨(BitVec.ofInt 32 event.mouse.x - offset.1 - BitVec.ofInt 32 K.topLeft.x).toInt +
            K.topLeft.x,
          (BitVec.ofInt 32 event.mouse.y - offset.2 - BitVec.ofInt 32 K.topLeft.y).toInt +
            K.topLeft.y⟩, size⟩ := by
  obtain ⟨w, a, params, o, pw, ht, ha, hg, ho, hpo, rfl, hsize⟩ := h.toplevel
  let nX := BitVec.ofInt 32 event.mouse.x - offset.1 - BitVec.ofInt 32 pw.content.topLeft.x
  let nY := BitVec.ofInt 32 event.mouse.y - offset.2 - BitVec.ofInt 32 pw.content.topLeft.y
  let args : PlaceArgs :=
    { anchor := some .northwest
      x := some nX.toInt
      y := some nY.toInt
      relX := some 0
      relY := some 0 }
  obtain ⟨window, m', rects, w', a', hplace, hs', ht', ho', hloc, hg', hreq, hpar, ha', -, -⟩ :=
    eiPlace_toplevel h.wellFormed ht ha ho hpo args
  have hparams : placedParams w args =
      { params with anchor := .northwest, x := nX.toInt, y := nY.toInt, relX := 0, relY := 0 } := by
    simp only [placedParams, hg, args, Option.getD_some, Option.getD_none]
  -- The new parameters give the same size, and an absolute position.
  have hrect : placerRect (placedParams w args) w.requestedSize pw.content =
      ⟨⟨nX.toInt + pw.content.topLeft.x, nY.toInt + pw.content.topLeft.y⟩, size⟩ := by
    have hcast : ∀ (k m l : ℤ), ((k : ℚ) * 0 + m + l) = ((m + l : ℤ) : ℚ) := fun k m l => by
      push_cast
      ring
    rw [hparams, ← hsize, size_placerRect]
    simp only [placerRect, anchored, hcast, truncate_intCast]
  refine ⟨s.relayout window m' rects, w', ?_, ⟨hs', h.movingToplevel, h.offsetptr,
    w', a', _, o, pw, ht', ha', hg', hpar, ho', rfl, ?_⟩, ht', hloc.trans hrect⟩
  · simp only [GuiLibrary.move, h.movingToplevel, ht, ho, hpo, h.offsetptr, Option.bind_eq_bind,
      Option.bind_some]
    exact Option.bind_eq_some_iff.mpr ⟨_, hplace, rfl⟩
  · rw [hreq, hrect]

theorem Dragged.moves {t : Ptr} {K : Rect} {size : Size} {offset : BitVec 32 × BitVec 32}
    (events : List Event) : ∀ {s : AppState}, Dragged s t K size offset →
      ∃ s', GuiLibrary.moves s events = some s' ∧ Dragged s' t K size offset := by
  induction events with
  | nil => exact fun {s} h => ⟨s, rfl, h⟩
  | cons event events ih =>
    intro s h
    obtain ⟨s₁, -, hmove, h₁, -⟩ := h.move event
    obtain ⟨s', hmoves, h'⟩ := ih h₁
    refine ⟨s', ?_, h'⟩
    rw [GuiLibrary.moves, List.foldlM_cons, hmove]
    exact hmoves

/-- **A dragged toplevel follows the mouse exactly.** Whatever the parameters of a toplevel that is
where the formula puts it, once `beg_move` has accepted the mouse, the corner after any sequence of
events has moved by as much as the mouse has, and the size has not changed. -/
theorem moves_follow_mouse {s s₁ : AppState} {t o : Ptr} {w pw : Widget} {a : ToplevelAttrs}
    {press : Event} {processed : Bool} (hs : WellFormed s) (ht : s.widgets t = some w)
    (ha : w.attrs = .toplevel a) (hg : w.geomParams.isSome) (ho : w.parent = some o)
    (hpo : s.widgets o = some pw) (hup : w.target pw.content = w.screenLocation)
    (hbeg : begMove s (some t) press = some (s₁, processed))
    (haccepted : press.mouse.y ≤ w.screenLocation.topLeft.y + defaultTopbarHeight)
    (hpress : InRange press.mouse) (hcorner : InRange w.screenLocation.topLeft)
    (hcontent : InRange pw.content.topLeft) (events : List Event) (event : Event)
    (hevent : InRange event.mouse) :
    ∃ s' w', moves s₁ (events ++ [event]) = some s' ∧ s'.widgets t = some w' ∧
      w'.screenLocation =
        ⟨⟨w.screenLocation.topLeft.x + (event.mouse.x - press.mouse.x),
          w.screenLocation.topLeft.y + (event.mouse.y - press.mouse.y)⟩,
          w.screenLocation.size⟩ := by
  obtain ⟨params, hg⟩ := Option.isSome_iff_exists.mp hg
  let corner := w.screenLocation.topLeft
  let offset : BitVec 32 × BitVec 32 :=
    (BitVec.ofInt 32 (press.mouse.x - corner.x), BitVec.ofInt 32 (press.mouse.y - corner.y))
  have hs₁ : s₁ = { s with offsetptr := offset, movingToplevel := some t } := by
    simp only [begMove, ht, Option.bind_eq_bind, Option.bind_some,
      if_neg (not_lt.mpr haccepted)] at hbeg
    exact (Prod.mk.inj (Option.some.inj hbeg)).1.symm
  have hsize : (placerRect params w.requestedSize pw.content).size = w.screenLocation.size := by
    rw [← hup, Widget.target, hg]
  have hdrag : Dragged s₁ t pw.content w.screenLocation.size offset := by
    subst hs₁
    exact ⟨hs.of_links (fun _ => rfl) rfl rfl, rfl, rfl, w, a, params, o, pw, ht, ha, hg, ho, hpo,
      rfl, hsize⟩
  obtain ⟨s₂, hmoves, h₂⟩ := hdrag.moves events
  obtain ⟨s', w', hmove, -, ht', hloc⟩ := h₂.move event
  refine ⟨s', w', ?_, ht', hloc.trans ?_⟩
  · rw [moves, List.foldlM_append]
    exact Option.bind_eq_some_iff.mpr ⟨s₂, hmoves, by rw [List.foldlM_cons, hmove]; rfl⟩
  · simp only [InRange, abs_le] at hpress hcorner hcontent hevent
    simp only [offset, corner]
    rw [toInt_sub_sub (by omega) (by omega), toInt_sub_sub (by omega) (by omega)]
    simp only [Rect.mk.injEq, Point.mk.injEq, and_true]
    omega

end Drag

/-! ### Resizing -/

section Resize

/-- A sequence of events handled by `resize`. -/
def resizes (s : AppState) (events : List Event) : Option AppState :=
  events.foldlM (fun s event => (resize s event).map Prod.fst) s

/-- The size that the mouse asks for: the corner of the toplevel stays, and the offset of the mouse
is that of the start of the drag. -/
def askedSize (corner : Point) (offset : BitVec 32 × BitVec 32) (mouse : Point) : Size :=
  ⟨(BitVec.ofInt 32 (mouse.x - corner.x) + offset.1).toInt,
    (BitVec.ofInt 32 (mouse.y - corner.y) + offset.2).toInt⟩

/-- The sizes during a drag that starts at the size `start`: the axes that are not resizable keep
it, and no side that was at least the minimum is below it. -/
def SizeOk (resizable : AxisSet) (minSize start size : Size) : Prop :=
  (resizable ≠ .both → resizable ≠ .x → size.width = start.width) ∧
    (resizable ≠ .both → resizable ≠ .y → size.height = start.height) ∧
    (minSize.width ≤ start.width → minSize.width ≤ size.width) ∧
    (minSize.height ≤ start.height → minSize.height ≤ size.height)

/-- The condition on one event, which asks for the size `asked`. Along both axes, when one side is
accepted and the other is not, the requested size that replaces the latter is not below the minimum
(unless the side was, at the start). Along one axis, an accepted side comes with a raw size of the
other side that is the one at the start; a raw size of zero stands for the requested one. -/
def AsksWell (resizable : AxisSet) (minSize start requested asked : Size) : Prop :=
  match resizable with
  | .both =>
      (asked.width < minSize.width → minSize.height ≤ asked.height →
        minSize.width ≤ start.width → minSize.width ≤ requested.width) ∧
      (asked.height < minSize.height → minSize.width ≤ asked.width →
        minSize.height ≤ start.height → minSize.height ≤ requested.height)
  | .x => minSize.width ≤ asked.width →
      (if asked.height = 0 then requested.height else asked.height) = start.height
  | .y => minSize.height ≤ asked.height →
      (if asked.width = 0 then requested.width else asked.width) = start.width
  | .none => True

/-- The size on screen after an event. -/
def sizeAfter (resizable : AxisSet) (size asked minSize requested : Size) : Size :=
  let (new, requested, redraw) := resizedSize resizable asked minSize requested
  if redraw then
    ⟨if new.width = 0 then requested.width else new.width,
      if new.height = 0 then requested.height else new.height⟩
  else size

/-- One event keeps the sizes right exactly when it asks well. -/
theorem sizeOk_sizeAfter_iff {resizable : AxisSet} {minSize start size asked requested : Size}
    (h : SizeOk resizable minSize start size) :
    SizeOk resizable minSize start (sizeAfter resizable size asked minSize requested) ↔
      AsksWell resizable minSize start requested asked := by
  simp only [SizeOk, AsksWell, sizeAfter, resizedSize, acceptSize] at *
  cases resizable with
  | none => exact iff_of_true h trivial
  | x =>
    by_cases hw : minSize.width ≤ asked.width
    · simp only [ge_iff_le, hw]
      grind
    · simp only [ge_iff_le, hw]
      grind
  | y =>
    by_cases hh : minSize.height ≤ asked.height
    · simp only [ge_iff_le, hh]
      grind
    · simp only [ge_iff_le, hh]
      grind
  | both =>
    by_cases hw : minSize.width ≤ asked.width
    · by_cases hh : minSize.height ≤ asked.height
      · simp only [ge_iff_le, hw, hh]
        grind
      · simp only [ge_iff_le, hw, hh]
        grind
    · by_cases hh : minSize.height ≤ asked.height
      · simp only [ge_iff_le, hw, hh]
        grind
      · simp only [ge_iff_le, hw, hh]
        grind

/-- The toplevel `t` is being resized, from a mouse at a fixed offset. -/
structure Resized (s : AppState) (t : Ptr) (resizable : AxisSet) (minSize : Size)
    (offset : BitVec 32 × BitVec 32) : Prop where
  wellFormed : WellFormed s
  resizingToplevel : s.resizingToplevel = some t
  offsetptr : s.offsetptr = offset
  toplevel : ∃ w a o, s.widgets t = some w ∧ w.attrs = .toplevel a ∧ w.parent = some o ∧
    a.resizable = resizable ∧ a.minSize = minSize

/-- The arguments with which `resize` places the toplevel. -/
def resizeArgs (size : Size) : PlaceArgs where
  width := some size.width
  height := some size.height
  relWidth := some 0
  relHeight := some 0

theorem size_placerRect_resizeArgs (w : Widget) (size requestedSize : Size) (K : Rect) :
    (placerRect (placedParams w (resizeArgs size)) requestedSize K).size =
      ⟨if size.width = 0 then requestedSize.width else size.width,
        if size.height = 0 then requestedSize.height else size.height⟩ := by
  have hcast : ∀ (k m : ℤ), ((k : ℚ) * 0 + m) = (m : ℚ) := fun k m => by ring
  have hparams : (placedParams w (resizeArgs size)).width = size.width ∧
      (placedParams w (resizeArgs size)).height = size.height ∧
      (placedParams w (resizeArgs size)).relWidth = 0 ∧
      (placedParams w (resizeArgs size)).relHeight = 0 := by
    rw [placedParams]
    split <;> exact ⟨rfl, rfl, rfl, rfl⟩
  obtain ⟨h₁, h₂, h₃, h₄⟩ := hparams
  rw [size_placerRect, h₁, h₂, h₃, h₄]
  simp only [hcast, truncate_intCast]

/-- `resize` on the toplevel that is being resized. -/
theorem resize_eq {s : AppState} {t : Ptr} {w : Widget} {a : ToplevelAttrs} {event : Event}
    {new requested : Size} {redraw : Bool} (hr : s.resizingToplevel = some t)
    (ht : s.widgets t = some w) (ha : w.attrs = .toplevel a)
    (hsize : resizedSize a.resizable (askedSize w.screenLocation.topLeft s.offsetptr event.mouse)
      a.minSize w.requestedSize = (new, requested, redraw)) :
    resize s event = if redraw then
      (eiPlace (s.setWidget t { w with requestedSize := requested }) t (resizeArgs new)).map
        (·, false)
      else some (s.setWidget t { w with requestedSize := requested }, false) := by
  rw [askedSize] at hsize
  simp only [resize, hr, ht, ha, hsize, Option.bind_eq_bind, Option.bind_some]
  split_ifs
  · rw [Option.map_eq_bind]
    rfl
  · rfl

/-- **One event of a resize** completes and gives the toplevel the size `sizeAfter`. -/
theorem Resized.resize {s : AppState} {t : Ptr} {resizable : AxisSet} {minSize : Size}
    {offset : BitVec 32 × BitVec 32} (h : Resized s t resizable minSize offset) {w : Widget}
    (ht : s.widgets t = some w) (event : Event) :
    ∃ s' w', GuiLibrary.resize s event = some (s', false) ∧
      Resized s' t resizable minSize offset ∧ s'.widgets t = some w' ∧
      w'.screenLocation.size = sizeAfter resizable w.screenLocation.size
        (askedSize w.screenLocation.topLeft offset event.mouse) minSize w.requestedSize := by
  obtain ⟨w₀, a, o, ht₀, ha, ho, rfl, rfl⟩ := h.toplevel
  obtain rfl := Option.some.inj (ht.symm.trans ht₀)
  have hs := h.wellFormed
  obtain ⟨pn, hpn⟩ := hs.linked.parent_live t o ⟨w.node, AppState.nodes_of_widgets ht, ho⟩
  obtain ⟨pw, hpo, -⟩ := AppState.nodes_eq_some.mp hpn
  let asked := askedSize w.screenLocation.topLeft offset event.mouse
  rcases hsize : resizedSize a.resizable asked a.minSize w.requestedSize with
    ⟨new, requested, redraw⟩
  let w₁ : Widget := { w with requestedSize := requested }
  have hasked : resizedSize a.resizable (askedSize w.screenLocation.topLeft s.offsetptr
      event.mouse) a.minSize w.requestedSize = (new, requested, redraw) := by
    rw [h.offsetptr]
    exact hsize
  have hrun := resize_eq h.resizingToplevel ht ha hasked
  have hs₁ : WellFormed (s.setWidget t w₁) := hs.setWidget ht rfl
  have ht₁ : (s.setWidget t w₁).widgets t = some w₁ := s.widgets_setWidget_self t w₁
  rw [hrun, sizeAfter]
  simp only [asked] at hsize
  simp only [hsize]
  cases redraw with
  | false =>
    exact ⟨s.setWidget t w₁, w₁, rfl, ⟨hs₁, h.resizingToplevel, h.offsetptr, w₁, a, o, ht₁, ha,
      ho, rfl, rfl⟩, ht₁, rfl⟩
  | true =>
    have hot : o ≠ t :=
      hs.parent_ne ⟨w.node, AppState.nodes_of_widgets ht, ho⟩
    obtain ⟨window, m', rects, w', a', hplace, hs', ht', -, hloc, -, -, hpar, ha', hmin, hres⟩ :=
      eiPlace_toplevel hs₁ ht₁ ha ho ((s.widgets_setWidget_of_ne _ hot).trans hpo) (resizeArgs new)
    refine ⟨(s.setWidget t w₁).relayout window m' rects, w', ?_, ⟨hs', h.resizingToplevel,
      h.offsetptr, w', a', o, ht', ha', hpar, hres, hmin⟩, ht', ?_⟩
    · simp only [if_true, w₁, hplace, Option.map_some]
    · rw [hloc, size_placerRect_resizeArgs]
      simp only [if_true, w₁]

end Resize

/-! ### Properties along a run of events -/

section Along

variable (step : AppState → Event → Option AppState) (P : AppState → Prop)
  (C : AppState → Event → Prop)

/-- The property holds in every state of the run, the first one included. -/
def HoldsAlong : AppState → List Event → Prop
  | s, [] => P s
  | s, event :: events => P s ∧ ∀ s', step s event = some s' → HoldsAlong s' events

/-- Every event of the run meets the condition in the state before it. -/
def MeetsAlong : AppState → List Event → Prop
  | _, [] => True
  | s, event :: events => C s event ∧ ∀ s', step s event = some s' → MeetsAlong s' events

variable {step P C}

/-- When one step keeps the property exactly under the condition, so does a run. -/
theorem holdsAlong_iff {I : AppState → Prop}
    (hstep : ∀ s event, I s → P s →
      ∃ s', step s event = some s' ∧ I s' ∧ (P s' ↔ C s event)) (events : List Event) :
    ∀ {s : AppState}, I s → P s →
      (HoldsAlong step P s events ↔ MeetsAlong step C s events) := by
  induction events with
  | nil => exact fun _ hP => iff_of_true hP trivial
  | cons event events ih =>
    intro s hinv hP
    obtain ⟨s', hs', hinv', hiff⟩ := hstep s event hinv hP
    simp only [HoldsAlong, MeetsAlong, hs', Option.some.injEq, forall_eq', hP, true_and]
    constructor
    · intro h
      have hP' : P s' := by
        cases events with
        | nil => exact h
        | cons => exact h.1
      exact ⟨hiff.mp hP', (ih hinv' hP').mp h⟩
    · rintro ⟨hC, h⟩
      exact (ih hinv' (hiff.mpr hC)).mpr h

end Along

section Resize

/-- One event, handled by `resize`. -/
def resizeStep (s : AppState) (event : Event) : Option AppState :=
  (resize s event).map Prod.fst

/-- The sizes of the toplevel `t` during a drag that starts at the size `start` are right. -/
def SizeOkIn (t : Ptr) (start : Size) (s : AppState) : Prop :=
  ∃ w a, s.widgets t = some w ∧ w.attrs = .toplevel a ∧
    SizeOk a.resizable a.minSize start w.screenLocation.size

/-- The event asks well for a size of the toplevel `t`, in the state before it. -/
def AsksWellIn (t : Ptr) (start : Size) (s : AppState) (event : Event) : Prop :=
  ∃ w a, s.widgets t = some w ∧ w.attrs = .toplevel a ∧
    AsksWell a.resizable a.minSize start w.requestedSize
      (askedSize w.screenLocation.topLeft s.offsetptr event.mouse)

/-- **Interactive resizing keeps to the axes and to the minimum size in every state of a drag
exactly when every event asks well**, and it always completes. -/
theorem resizes_ok_iff {s s₁ : AppState} {button t o : Ptr} {b w : Widget} {a : ToplevelAttrs}
    {press : Event} (hs : WellFormed s) (hb : s.widgets button = some b) (hbt : b.parent = some t)
    (ht : s.widgets t = some w) (ha : w.attrs = .toplevel a) (ho : w.parent = some o)
    (hbeg : begResize s (some button) press = some (s₁, true)) (events : List Event) :
    (∃ s', resizes s₁ events = some s') ∧
      (HoldsAlong resizeStep (SizeOkIn t w.screenLocation.size) s₁ events ↔
        MeetsAlong resizeStep (AsksWellIn t w.screenLocation.size) s₁ events) := by
  have hs₁ : ∃ offset, s₁ = { s with resizingToplevel := some t, offsetptr := offset } := by
    rw [begResize] at hbeg
    split_ifs at hbeg
    · simp at hbeg
    · simp only [toplevelOf, hb, hbt, ht, ha, Option.bind_eq_bind, Option.bind_some] at hbeg
      split_ifs at hbeg
      · simp at hbeg
      · exact ⟨_, (Prod.mk.inj (Option.some.inj hbeg)).1.symm⟩
  obtain ⟨offset, rfl⟩ := hs₁
  let inv := fun s => Resized s t a.resizable a.minSize offset
  have hinv : inv { s with resizingToplevel := some t, offsetptr := offset } :=
    ⟨hs.of_links (fun _ => rfl) rfl rfl, rfl, rfl, w, a, o, ht, ha, ho, rfl, rfl⟩
  refine ⟨?_, holdsAlong_iff (I := inv) (fun s event h hok => ?_) events hinv
    ⟨w, a, ht, ha, fun _ _ => rfl, fun _ _ => rfl, id, id⟩⟩
  · have hrun : ∀ {s}, inv s → ∃ s', resizes s events = some s' := by
      induction events with
      | nil => exact fun {s} _ => ⟨s, rfl⟩
      | cons event events ih =>
        intro s h
        obtain ⟨v, -, -, hv, -⟩ := h.toplevel
        obtain ⟨s', -, hresize, h', -⟩ := h.resize hv event
        obtain ⟨s'', hs''⟩ := ih h'
        refine ⟨s'', ?_⟩
        rw [resizes, List.foldlM_cons, hresize]
        exact hs''
    exact hrun hinv
  · obtain ⟨v, e, hv, he, hok⟩ := hok
    obtain ⟨v₀, e₀, -, hv₀, he₀, -, hres, hmin⟩ := h.toplevel
    obtain rfl := Option.some.inj (hv.symm.trans hv₀)
    obtain rfl : e = e₀ := by rwa [he, Attrs.toplevel.injEq] at he₀
    obtain ⟨s', v', hresize, h', hv', hsize⟩ := h.resize hv event
    obtain ⟨v₁, e₁, -, hv₁, he₁, -, hres₁, hmin₁⟩ := h'.toplevel
    obtain rfl := Option.some.inj (hv'.symm.trans hv₁)
    refine ⟨s', by rw [resizeStep, hresize]; rfl, h', ?_⟩
    rw [hres, hmin] at hok
    have hiff := @sizeOk_sizeAfter_iff _ _ _ _
      (askedSize v.screenLocation.topLeft offset event.mouse) v.requestedSize hok
    rw [← hsize] at hiff
    constructor
    · rintro ⟨v₂, e₂, hv₂, he₂, hok₂⟩
      obtain rfl := Option.some.inj (hv'.symm.trans hv₂)
      obtain rfl : e₁ = e₂ := by rwa [he₁, Attrs.toplevel.injEq] at he₂
      rw [hres₁, hmin₁] at hok₂
      refine ⟨v, e, hv, he, ?_⟩
      rw [hres, hmin, h.offsetptr]
      exact hiff.mp hok₂
    · rintro ⟨v₂, e₂, hv₂, he₂, hasks⟩
      obtain rfl := Option.some.inj (hv.symm.trans hv₂)
      obtain rfl : e = e₂ := by rwa [he, Attrs.toplevel.injEq] at he₂
      rw [hres, hmin, h.offsetptr] at hasks
      refine ⟨v', e₁, hv', he₁, ?_⟩
      rw [hres₁, hmin₁]
      exact hiff.mpr hasks

end Resize

section Sample

attribute [local instance] sampleHardware

/-- A toplevel placed by its center, at half the width of the window and beyond. -/
def createDraggable : Option AppState :=
  eiPlace sampleToplevel 1
    { anchor := some .center
      x := some 100
      y := some 100
      width := some 200
      height := some 150
      relX := some (1 / 2) }

theorem isSome_createDraggable : createDraggable.isSome := by with_unfolding_all rfl

/-- The state after `createDraggable`. -/
def sampleDraggable : AppState := createDraggable.get isSome_createDraggable

theorem sampleDraggable_wellFormed : WellFormed sampleDraggable :=
  sampleToplevel_wellFormed.congr (skeleton_eiPlace (Option.some_get isSome_createDraggable).symm)

/-- The mouse is pressed in the top bar. -/
def samplePress : Event := ⟨.mouseButtondown, ⟨330, 30⟩, .left⟩

/-- The mouse moves out of the window. -/
def sampleMove : Event := ⟨.mouseMove, ⟨-40, 60⟩, .left⟩

theorem isSome_begMove : (begMove sampleDraggable (some 1) samplePress).isSome := by
  with_unfolding_all rfl

/-- The state when the drag starts. -/
def sampleMoving : AppState := ((begMove sampleDraggable (some 1) samplePress).get isSome_begMove).1

/-- The toplevel and its parent, where the formula puts it. -/
theorem sampleDraggable_toplevel : ∃ w a pw, sampleDraggable.widgets 1 = some w ∧
    w.attrs = .toplevel a ∧ w.geomParams.isSome ∧ w.parent = some 0 ∧
    sampleDraggable.widgets 0 = some pw ∧ w.target pw.content = w.screenLocation ∧
    w.screenLocation = ⟨⟨320, 25⟩, ⟨200, 150⟩⟩ ∧ pw.content = Rect.ofSize ⟨640, 480⟩ := by
  have hw : (sampleDraggable.widgets 1).map (fun w => (w.wclass, w.geomParams.isSome, w.parent,
      w.screenLocation)) = some (.toplevel, true, some 0, ⟨⟨320, 25⟩, ⟨200, 150⟩⟩) := by
    with_unfolding_all rfl
  have hp : (sampleDraggable.widgets 0).map Widget.content =
      some (Rect.ofSize ⟨640, 480⟩) := by with_unfolding_all rfl
  have ht : (sampleDraggable.widgets 1).map (·.target (Rect.ofSize ⟨640, 480⟩)) =
      some ⟨⟨320, 25⟩, ⟨200, 150⟩⟩ := by with_unfolding_all rfl
  obtain ⟨w, hw₁, hwe⟩ := Option.map_eq_some_iff.mp hw
  obtain ⟨pw, hpw, hcontent⟩ := Option.map_eq_some_iff.mp hp
  simp only [Prod.mk.injEq] at hwe
  obtain ⟨hclass, hg, hpar, hloc⟩ := hwe
  rw [hw₁, Option.map_some, Option.some.injEq] at ht
  cases ha : w.attrs with
  | frame a => simp [Widget.wclass, ha, Attrs.wclass] at hclass
  | button a => simp [Widget.wclass, ha, Attrs.wclass] at hclass
  | toplevel a =>
    exact ⟨w, a, pw, hw₁, ha, hg, hpar, hpw, by rw [hcontent, ht, hloc], hloc, hcontent⟩

/-- The toplevel is dragged by (-370, 30). -/
theorem moves_follow_mouse_draggable : ∃ s' w', moves sampleMoving ([] ++ [sampleMove]) = some s' ∧
    s'.widgets 1 = some w' ∧ w'.screenLocation = ⟨⟨-50, 55⟩, ⟨200, 150⟩⟩ := by
  obtain ⟨w, a, pw, hw, ha, hg, hpar, hpw, hup, hloc, hcontent⟩ := sampleDraggable_toplevel
  have hbeg : begMove sampleDraggable (some 1) samplePress = some (sampleMoving,
      ((begMove sampleDraggable (some 1) samplePress).get isSome_begMove).2) :=
    (Option.some_get isSome_begMove).symm
  have hrange : ∀ {p : Point} (q : Point), p = q → |q.x| ≤ 2 ^ 23 → |q.y| ≤ 2 ^ 23 → InRange p := by
    rintro p q rfl h₁ h₂
    exact ⟨h₁, h₂⟩
  obtain ⟨s', w', hmoves, hw', hloc'⟩ := moves_follow_mouse sampleDraggable_wellFormed hw ha hg hpar
    hpw hup hbeg (by rw [hloc]; decide) (hrange ⟨330, 30⟩ rfl (by decide) (by decide))
    (hrange ⟨320, 25⟩ (by rw [hloc]) (by decide) (by decide))
    (hrange ⟨0, 0⟩ (by rw [hcontent]; rfl) (by decide) (by decide)) [] sampleMove
    (hrange ⟨-40, 60⟩ rfl (by decide) (by decide))
  refine ⟨s', w', hmoves, hw', ?_⟩
  rw [hloc', hloc]
  rfl

/-- The mouse is pressed on the resize button. -/
def resizePress : Event := ⟨.mouseButtondown, ⟨190, 170⟩, .left⟩

/-- The mouse moves down. -/
def resizeMove : Event := ⟨.mouseMove, ⟨190, 220⟩, .left⟩

theorem isSome_begResize_sampleDraggable :
    (begResize sampleDraggable (some 2) resizePress).isSome := by with_unfolding_all rfl

/-- The state when the drag of the resize button of the draggable toplevel starts. -/
def sampleStretching : AppState :=
  ((begResize sampleDraggable (some 2) resizePress).get isSome_begResize_sampleDraggable).1

theorem begResize_sampleDraggable :
    begResize sampleDraggable (some 2) resizePress = some (sampleStretching, true) :=
  eq_some_of_get isSome_begResize_sampleDraggable (by with_unfolding_all rfl)

/-- The draggable toplevel is resized along both axes. -/
theorem resizes_ok_iff_draggable :
    (∃ s', resizes sampleStretching [resizeMove] = some s') ∧
      (HoldsAlong resizeStep (SizeOkIn 1 ⟨200, 150⟩) sampleStretching [resizeMove] ↔
        MeetsAlong resizeStep (AsksWellIn 1 ⟨200, 150⟩) sampleStretching [resizeMove]) := by
  obtain ⟨w, a, pw, hw, ha, -, hpar, -, -, hloc, -⟩ := sampleDraggable_toplevel
  have hb : (sampleDraggable.widgets 2).map Widget.parent = some (some 1) := by
    with_unfolding_all rfl
  obtain ⟨b, hb, hbt⟩ := Option.map_eq_some_iff.mp hb
  have h := resizes_ok_iff sampleDraggable_wellFormed hb hbt hw ha hpar begResize_sampleDraggable
    [resizeMove]
  rwa [hloc] at h

/-- A toplevel that is resizable along the x axis, of 200 by 150 pixels. -/
def createWide : Option AppState := do
  let s ← eiToplevelConfigure sampleToplevel 1
    { requestedSize := some ⟨200, 150⟩
      resizable := some .x }
  eiPlace s 1 {}

theorem isSome_createWide : createWide.isSome := by with_unfolding_all rfl

/-- The state after `createWide`. -/
def sampleWide : AppState := createWide.get isSome_createWide

theorem isSome_begResize : (begResize sampleWide (some 2) resizePress).isSome := by
  with_unfolding_all rfl

/-- The state when the drag of the resize button starts. -/
def sampleResizing : AppState :=
  ((begResize sampleWide (some 2) resizePress).get isSome_begResize).1

theorem begResize_sampleWide :
    begResize sampleWide (some 2) resizePress = some (sampleResizing, true) :=
  eq_some_of_get isSome_begResize (by with_unfolding_all rfl)

/-- The axis of a toplevel and its size on screen. -/
def axisAndSize (w : Widget) : Option (AxisSet × Size) :=
  match w.attrs with
  | .toplevel a => some (a.resizable, w.screenLocation.size)
  | .frame _ | .button _ => none

/-- The toplevel is resizable along the x axis only, and gets 50 pixels higher. -/
theorem sampleWide_resized :
    begResize sampleWide (some 2) resizePress = some (sampleResizing, true) ∧
      (sampleWide.widgets 1).bind axisAndSize = some (.x, ⟨200, 150⟩) ∧
      ¬ HoldsAlong resizeStep (SizeOkIn 1 ⟨200, 150⟩) sampleResizing [resizeMove] := by
  refine ⟨begResize_sampleWide, by with_unfolding_all rfl, ?_⟩
  have hstep : (resizeStep sampleResizing resizeMove).bind
      (fun s => (s.widgets 1).bind axisAndSize) =
      some (.x, ⟨200, 200⟩) := by with_unfolding_all rfl
  obtain ⟨s', hs', haxis⟩ := Option.bind_eq_some_iff.mp hstep
  rintro ⟨-, hall⟩
  obtain ⟨w, a, hw, ha, -, hheight, -⟩ := hall s' hs'
  simp only [hw, Option.bind_some, axisAndSize, ha, Option.some.injEq, Prod.mk.injEq] at haxis
  have := hheight (by simp [haxis.1]) (by simp [haxis.1])
  rw [haxis.2] at this
  exact absurd this (by decide)

end Sample

end GuiLibrary

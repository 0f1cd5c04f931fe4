import GuiLibrary.Rigidity

/-!
# Resizing a toplevel by its handle

The resize button keeps to the lower right corner of the content area, so the offset that
`beg_resize` records is the distance from the mouse to the lower right corner of the toplevel. Each
event of the drag then gives the toplevel the size from its corner to the mouse, with this offset,
and the placer moves the corner as the anchor says: `resize` keeps the anchor, where `move` replaces
it. So the toplevel follows the mouse exactly as long as the anchor moves the corner by the same
amount as at the start.

## Main definitions

* `HandleAtCorner`: the resize button of a toplevel is at its place.
* `stretched`: the size for a position of the mouse.
* `Stretched`, `FollowsMouse`.

## Main results

* `Stretched.resize`: one event.
* `followsMouse_iff`.
-/

namespace GuiLibrary

open Cells

/-- The number is a 32-bit signed integer. -/
def IsInt32 (z : ℤ) : Prop := -2 ^ 31 ≤ z ∧ z < 2 ^ 31

instance (z : ℤ) : Decidable (IsInt32 z) := inferInstanceAs (Decidable (_ ∧ _))

/-- An unsigned sum read as a signed number. -/
theorem toInt_ofInt_add {a b : ℤ} (h : IsInt32 (a + b)) :
    (BitVec.ofInt 32 a + BitVec.ofInt 32 b).toInt = a + b := by
  rw [← BitVec.ofInt_add, BitVec.toInt_ofInt_eq_self (by decide) h.1 h.2]

/-- The size that follows the mouse from the size `start`. -/
def stretched (start : Size) (press mouse : Point) : Size :=
  ⟨start.width + (mouse.x - press.x), start.height + (mouse.y - press.y)⟩

/-- The size is one that `resize` accepts: at least the minimum, and of 32-bit sides. -/
structure Acceptable (minSize size : Size) : Prop where
  width : minSize.width ≤ size.width
  height : minSize.height ≤ size.height
  int32 : IsInt32 size.width ∧ IsInt32 size.height

/-- The widget `button` is a resize button of the toplevel `t`, where `setdefaultstoplevel` has
placed it: at the lower right corner of the content area. -/
structure HandleAtCorner (s : AppState) (t button : Ptr) : Prop where
  place : ∃ b params w a, s.widgets button = some b ∧ b.parent = some t ∧
    b.geomParams = some params ∧ (params.anchor, params.x, params.y, params.relX, params.relY) =
      (.southeast, 0, 0, 1, 1) ∧
    s.widgets t = some w ∧ w.attrs = .toplevel a ∧
    w.content = toplevelContent w.screenLocation a.borderWidth ∧
    b.target w.content = b.screenLocation

/-- The lower right corner of the resize button. -/
theorem HandleAtCorner.corner {s : AppState} {t button : Ptr} {b w : Widget} {a : ToplevelAttrs}
    (h : HandleAtCorner s t button) (hb : s.widgets button = some b) (ht : s.widgets t = some w)
    (ha : w.attrs = .toplevel a) :
    b.screenLocation.topLeft.x + b.screenLocation.size.width =
        w.screenLocation.topLeft.x + w.screenLocation.size.width + a.borderWidth ∧
      b.screenLocation.topLeft.y + b.screenLocation.size.height =
        w.screenLocation.topLeft.y + w.screenLocation.size.height + defaultTopbarHeight := by
  obtain ⟨b₀, params, w₀, a₀, hb₀, -, hg, hparams, ht₀, ha₀, hcontent, htarget⟩ := h.place
  obtain rfl := Option.some.inj (hb.symm.trans hb₀)
  obtain rfl := Option.some.inj (ht.symm.trans ht₀)
  obtain rfl : a = a₀ := by rwa [ha, Attrs.toplevel.injEq] at ha₀
  simp only [Prod.mk.injEq] at hparams
  obtain ⟨hanchor, hx, hy, hrelX, hrelY⟩ := hparams
  have hX : placerX params w.content = ((w.screenLocation.size.width +
      (w.screenLocation.topLeft.x + a.borderWidth) : ℤ) : ℚ) := by
    rw [placerX, hcontent, hx, hrelX]
    simp only [toplevelContent]
    push_cast
    ring
  have hY : placerY params w.content = ((w.screenLocation.size.height +
      (w.screenLocation.topLeft.y + defaultTopbarHeight) : ℤ) : ℚ) := by
    rw [placerY, hcontent, hy, hrelY]
    simp only [toplevelContent]
    push_cast
    ring
  have hcorner := topLeft_placerRect params b.requestedSize w.content
  rw [hX, hY, truncate_intCast, truncate_intCast, hanchor] at hcorner
  rw [← htarget, Widget.target, hg]
  simp only [hcorner, anchorShift]
  exact ⟨by ring, by ring⟩

/-! ### One event -/

section Resize

variable {s s' : AppState} {t : Ptr} {params : PlacerParam} {K : Rect} {minSize : Size}
  {offset : BitVec 32 × BitVec 32}

/-- The toplevel `t` is being resized along both axes, from a mouse at a fixed offset. The
parameters of its position and the content area `K` of its parent stay. -/
structure Stretched (s : AppState) (t : Ptr) (params : PlacerParam) (K : Rect) (minSize : Size)
    (offset : BitVec 32 × BitVec 32) : Prop where
  wellFormed : WellFormed s
  resizingToplevel : s.resizingToplevel = some t
  offsetptr : s.offsetptr = offset
  toplevel : ∃ w a p o pw, s.widgets t = some w ∧ w.attrs = .toplevel a ∧ a.resizable = .both ∧
    a.minSize = minSize ∧ w.geomParams = some p ∧ p.anchor = params.anchor ∧
    placerX p K = placerX params K ∧ placerY p K = placerY params K ∧ w.parent = some o ∧
    s.widgets o = some pw ∧ pw.content = K

/-- Where the toplevel is put with a given size. -/
def stretchedRect (params : PlacerParam) (K : Rect) (size : Size) : Rect :=
  ⟨⟨truncate (placerX params K) - (anchorShift params.anchor size).x,
    truncate (placerY params K) - (anchorShift params.anchor size).y⟩, size⟩

/-- **One event of a resize** that is accepted along both axes gives the toplevel the size that the
mouse asks for, and puts it where its anchor says. -/
theorem Stretched.resize (h : Stretched s t params K minSize offset) {w : Widget}
    (ht : s.widgets t = some w) (event : Event) {size : Size}
    (hasked : askedSize w.screenLocation.topLeft offset event.mouse = size)
    (haccept : Acceptable minSize size) :
    ∃ s' w', resizeStep s event = some s' ∧ Stretched s' t params K minSize offset ∧
      s'.widgets t = some w' ∧ w'.screenLocation = stretchedRect params K size := by
  obtain ⟨w₀, a, p, o, pw, ht₀, ha, hres, rfl, hg, hanchor, hX, hY, ho, hpo, rfl⟩ := h.toplevel
  obtain rfl := Option.some.inj (ht.symm.trans ht₀)
  have hs := h.wellFormed
  have hresized : resizedSize a.resizable (askedSize w.screenLocation.topLeft s.offsetptr
      event.mouse) a.minSize w.requestedSize = (size, size, true) := by
    rw [h.offsetptr, hasked, hres]
    simp only [resizedSize, acceptSize, ge_iff_le, haccept.width, haccept.height, if_true,
      Bool.or_self]
  let w₁ : Widget := { w with requestedSize := size }
  have hrun := resize_eq h.resizingToplevel ht ha hresized
  have hs₁ : WellFormed (s.setWidget t w₁) := hs.setWidget ht rfl
  have ht₁ : (s.setWidget t w₁).widgets t = some w₁ := s.widgets_setWidget_self t w₁
  have hot : o ≠ t :=
    hs.parent_ne ⟨w.node, AppState.nodes_of_widgets ht, ho⟩
  obtain ⟨window, m', rects, w', a', hplace, hs', ht', ho', hloc, hg', -, hpar, ha', hmin, hres'⟩ :=
    eiPlace_toplevel hs₁ ht₁ ha ho ((s.widgets_setWidget_of_ne _ hot).trans hpo) (resizeArgs size)
  have hparams : placedParams w₁ (resizeArgs size) =
      { p with width := size.width, height := size.height, relWidth := 0, relHeight := 0 } := by
    simp only [placedParams, w₁, hg, resizeArgs, Option.getD_some, Option.getD_none]
  have hsize := size_placerRect_resizeArgs w₁ size size pw.content
  have hrect : placerRect (placedParams w₁ (resizeArgs size)) size pw.content =
      stretchedRect params pw.content size := by
    have hsize' : (placerRect (placedParams w₁ (resizeArgs size)) size pw.content).size = size := by
      rw [hsize]
      simp only [ite_self]
    have htop := topLeft_placerRect (placedParams w₁ (resizeArgs size)) size pw.content
    have hX' : placerX (placedParams w₁ (resizeArgs size)) pw.content = placerX p pw.content := by
      rw [hparams]
      rfl
    have hY' : placerY (placedParams w₁ (resizeArgs size)) pw.content = placerY p pw.content := by
      rw [hparams]
      rfl
    have hanchor' : (placedParams w₁ (resizeArgs size)).anchor = params.anchor := by
      rw [hparams]
      exact hanchor
    rw [hsize', hX', hY', hX, hY, hanchor'] at htop
    exact congrArg₂ Rect.mk htop hsize'
  refine ⟨(s.setWidget t w₁).relayout window m' rects, w', ?_, ⟨hs', h.resizingToplevel,
    h.offsetptr, w', a', _, o, pw, ht', ha', hres'.trans hres, hmin, hg', ?_, ?_, ?_, hpar, ho',
    rfl⟩, ht', hloc.trans hrect⟩
  · rw [resizeStep, hrun, if_pos rfl, hplace, Option.map_some, Option.map_some]
  · rw [hparams]
    exact hanchor
  · rw [hparams]
    exact hX
  · rw [hparams]
    exact hY

/-! ### A drag -/

/-- Every event of the drag gives the toplevel the size that follows the mouse, and its corner does
not move. -/
def FollowsMouse (t : Ptr) (rect : Rect) (press : Point) : AppState → List Event → Prop
  | _, [] => True
  | s, event :: events => ∃ s' w', resizeStep s event = some s' ∧ s'.widgets t = some w' ∧
      w'.screenLocation = ⟨rect.topLeft, stretched rect.size press event.mouse⟩ ∧
      FollowsMouse t rect press s' events

/-- The drag follows the mouse exactly when the anchor moves the corner by the same amount for all
sizes. -/
theorem Stretched.follows_iff {rect : Rect} {press : Point}
    (hrect : rect = stretchedRect params K rect.size)
    (hoffset : ∀ mouse : Point, Acceptable minSize (stretched rect.size press mouse) →
      askedSize rect.topLeft offset mouse = stretched rect.size press mouse) (events : List Event) :
    ∀ {s : AppState} {w : Widget}, Stretched s t params K minSize offset →
      s.widgets t = some w → w.screenLocation.topLeft = rect.topLeft →
      (∀ event ∈ events, Acceptable minSize (stretched rect.size press event.mouse)) →
      (FollowsMouse t rect press s events ↔ ∀ event ∈ events,
        anchorShift params.anchor (stretched rect.size press event.mouse) =
          anchorShift params.anchor rect.size) := by
  induction events with
  | nil => exact fun _ _ _ _ => iff_of_true trivial (by simp)
  | cons event events ih =>
    intro s w h ht hcorner haccept
    have hevent := haccept event List.mem_cons_self
    obtain ⟨s', w', hs', h', ht', hloc⟩ := h.resize ht event
      (hcorner ▸ hoffset event.mouse hevent) hevent
    -- The corner is where it was exactly when the anchor moves it as before.
    have hstays : stretchedRect params K (stretched rect.size press event.mouse) =
        ⟨rect.topLeft, stretched rect.size press event.mouse⟩ ↔
          anchorShift params.anchor (stretched rect.size press event.mouse) =
            anchorShift params.anchor rect.size := by
      have htop := congrArg Rect.topLeft hrect
      simp only [stretchedRect] at htop ⊢
      rw [htop]
      generalize anchorShift params.anchor (stretched rect.size press event.mouse) = d'
      generalize anchorShift params.anchor rect.size = d
      obtain ⟨x, y⟩ := d
      obtain ⟨x', y'⟩ := d'
      simp only [Rect.mk.injEq, Point.mk.injEq, and_true]
      omega
    have hrest := fun hloc : w'.screenLocation = ⟨rect.topLeft, stretched rect.size press
        event.mouse⟩ => ih h' ht' (by rw [hloc]) fun e he =>
      haccept e (List.mem_cons_of_mem event he)
    rw [List.forall_mem_cons]
    constructor
    · rintro ⟨s₂, w₂, hs₂, ht₂, hloc₂, hfollows⟩
      obtain rfl := Option.some.inj (hs'.symm.trans hs₂)
      obtain rfl := Option.some.inj (ht'.symm.trans ht₂)
      exact ⟨hstays.mp (hloc.symm.trans hloc₂), (hrest hloc₂).mp hfollows⟩
    · rintro ⟨hshift, hall⟩
      have hloc₂ := hloc.trans (hstays.mpr hshift)
      exact ⟨s', w', hs', ht', hloc₂, (hrest hloc₂).mpr hall⟩

/-- **Resizing with the handle follows the mouse exactly** as long as the anchor of the toplevel
moves the corner by the same amount as at the start, whatever the parameters of the toplevel are:
for every event that asks for an acceptable size, the size on screen is the one at the start plus
what the mouse has moved, and the corner has not moved. -/
theorem followsMouse_iff {s₁ : AppState} {button o : Ptr} {w pw : Widget} {a : ToplevelAttrs}
    {press : Event} (hs : WellFormed s) (ht : s.widgets t = some w) (ha : w.attrs = .toplevel a)
    (hres : a.resizable = .both) (hg : w.geomParams = some params) (ho : w.parent = some o)
    (hpo : s.widgets o = some pw) (hup : w.target pw.content = w.screenLocation)
    (hhandle : HandleAtCorner s t button)
    (hbeg : begResize s (some button) press = some (s₁, true)) (events : List Event)
    (haccept : ∀ event ∈ events,
      Acceptable a.minSize (stretched w.screenLocation.size press.mouse event.mouse)) :
    FollowsMouse t w.screenLocation press.mouse s₁ events ↔ ∀ event ∈ events,
      anchorShift params.anchor (stretched w.screenLocation.size press.mouse event.mouse) =
        anchorShift params.anchor w.screenLocation.size := by
  obtain ⟨b, -, -, -, hb, hbt, -⟩ := hhandle.place
  obtain ⟨hcornerX, hcornerY⟩ := hhandle.corner hb ht ha
  let offset : BitVec 32 × BitVec 32 :=
    (BitVec.ofInt 32 (b.screenLocation.topLeft.x + b.screenLocation.size.width - press.mouse.x -
        a.borderWidth),
      BitVec.ofInt 32 (b.screenLocation.topLeft.y + b.screenLocation.size.height - press.mouse.y -
        defaultTopbarHeight))
  have hs₁ : s₁ = { s with resizingToplevel := some t, offsetptr := offset } := by
    rw [begResize] at hbeg
    split_ifs at hbeg
    · simp at hbeg
    · simp only [toplevelOf, hb, hbt, ht, ha, hres, Option.bind_eq_bind, Option.bind_some,
        reduceCtorEq, if_false, Option.some.injEq, Prod.mk.injEq, and_true] at hbeg
      exact hbeg.symm
  subst hs₁
  have hrect : w.screenLocation = stretchedRect params pw.content w.screenLocation.size := by
    have htop := topLeft_placerRect params w.requestedSize pw.content
    have hup : placerRect params w.requestedSize pw.content = w.screenLocation := by
      rwa [Widget.target, hg] at hup
    rw [hup] at htop
    exact congrArg₂ Rect.mk htop rfl
  refine Stretched.follows_iff hrect (fun mouse hmouse => ?_) events
    ⟨hs.of_links (fun _ => rfl) rfl rfl, rfl, rfl, w, a, params, o, pw, ht, ha, hres, rfl, hg, rfl,
      rfl, rfl, ho, hpo, rfl⟩ ht rfl haccept
  have hX : mouse.x - w.screenLocation.topLeft.x + (b.screenLocation.topLeft.x +
      b.screenLocation.size.width - press.mouse.x - a.borderWidth) =
        w.screenLocation.size.width + (mouse.x - press.mouse.x) := by
    omega
  have hY : mouse.y - w.screenLocation.topLeft.y + (b.screenLocation.topLeft.y +
      b.screenLocation.size.height - press.mouse.y - defaultTopbarHeight) =
        w.screenLocation.size.height + (mouse.y - press.mouse.y) := by
    omega
  simp only [askedSize, stretched, offset]
  rw [toInt_ofInt_add (hX ▸ hmouse.int32.1), toInt_ofInt_add (hY ▸ hmouse.int32.2), hX, hY]

end Resize

section Sample

attribute [local instance] sampleHardware

/-- The mouse is pressed on the resize button of the draggable toplevel, which is placed by its
center. -/
def handlePress : Event := ⟨.mouseButtondown, ⟨515, 195⟩, .left⟩

/-- The mouse moves right. -/
def handleMove : Event := ⟨.mouseMove, ⟨565, 195⟩, .left⟩

theorem isSome_begResize_handlePress :
    (begResize sampleDraggable (some 2) handlePress).isSome := by with_unfolding_all rfl

/-- The state when the drag of the handle starts. -/
def sampleHeld : AppState :=
  ((begResize sampleDraggable (some 2) handlePress).get isSome_begResize_handlePress).1

theorem begResize_sampleHeld :
    begResize sampleDraggable (some 2) handlePress = some (sampleHeld, true) :=
  eq_some_of_get isSome_begResize_handlePress (by with_unfolding_all rfl)

/-- The axes, the minimum size and the border of a toplevel. -/
def axesAndBounds (w : Widget) : Option (AxisSet × Size × ℤ) :=
  match w.attrs with
  | .toplevel a => some (a.resizable, a.minSize, a.borderWidth)
  | .frame _ | .button _ => none

/-- The record of the draggable toplevel. -/
theorem sampleDraggable_placed : ∃ w a params pw, sampleDraggable.widgets 1 = some w ∧
    w.attrs = .toplevel a ∧ a.resizable = .both ∧ a.minSize = ⟨160, 120⟩ ∧ a.borderWidth = 4 ∧
    w.geomParams = some params ∧ params.anchor = .center ∧ w.parent = some 0 ∧
    sampleDraggable.widgets 0 = some pw ∧ w.target pw.content = w.screenLocation ∧
    w.screenLocation = ⟨⟨320, 25⟩, ⟨200, 150⟩⟩ ∧ w.content = ⟨⟨324, 55⟩, ⟨200, 150⟩⟩ := by
  obtain ⟨w, a, pw, hw, ha, hg, ho, hpo, hup, hloc, -⟩ := sampleDraggable_toplevel
  obtain ⟨params, hg⟩ := Option.isSome_iff_exists.mp hg
  have hlook : (sampleDraggable.widgets 1).map (fun w => (axesAndBounds w,
      w.geomParams.map PlacerParam.anchor, w.content)) =
        some (some (.both, ⟨160, 120⟩, 4), some .center, ⟨⟨324, 55⟩, ⟨200, 150⟩⟩) := by
    with_unfolding_all rfl
  simp only [hw, Option.map_some, axesAndBounds, ha, hg, Option.some.injEq, Prod.mk.injEq] at hlook
  obtain ⟨⟨hres, hmin, hborder⟩, hanchor, hcontent⟩ := hlook
  exact ⟨w, a, params, pw, hw, ha, hres, hmin, hborder, hg, hanchor, ho, hpo, hup, hloc, hcontent⟩

theorem sampleDraggable_handle : HandleAtCorner sampleDraggable 1 2 := by
  obtain ⟨w, a, -, -, hw, ha, -, -, hborder, -, -, -, -, -, hloc, hcontent⟩ :=
    sampleDraggable_placed
  have hlook : (sampleDraggable.widgets 2).map (fun b => (b.parent, b.geomParams,
      b.target ⟨⟨324, 55⟩, ⟨200, 150⟩⟩, b.screenLocation)) =
        some (some 1, some ⟨.southeast, 0, 0, 20, 20, 1, 1, 0, 0⟩, ⟨⟨504, 185⟩, ⟨20, 20⟩⟩,
          ⟨⟨504, 185⟩, ⟨20, 20⟩⟩) := by
    with_unfolding_all rfl
  obtain ⟨b, hb, hlook⟩ := Option.map_eq_some_iff.mp hlook
  simp only [Prod.mk.injEq] at hlook
  obtain ⟨hbt, hg, htarget, hbloc⟩ := hlook
  refine ⟨b, _, w, a, hb, hbt, hg, rfl, hw, ha, ?_, ?_⟩
  · rw [hcontent, hloc, hborder]
    rfl
  · rw [hcontent, htarget, hbloc]

/-- The draggable toplevel is dragged by its handle, 50 pixels to the right. -/
theorem followsMouse_iff_draggable :
    FollowsMouse 1 ⟨⟨320, 25⟩, ⟨200, 150⟩⟩ ⟨515, 195⟩ sampleHeld [handleMove] ↔
      ∀ event ∈ [handleMove],
        anchorShift .center (stretched ⟨200, 150⟩ ⟨515, 195⟩ event.mouse) =
          anchorShift .center ⟨200, 150⟩ := by
  obtain ⟨w, a, params, pw, hw, ha, hres, hmin, -, hg, hanchor, ho, hpo, hup, hloc, -⟩ :=
    sampleDraggable_placed
  have h := followsMouse_iff sampleDraggable_wellFormed hw ha hres hg ho hpo hup
    sampleDraggable_handle begResize_sampleHeld [handleMove] (by
      intro event hevent
      rw [List.mem_singleton.mp hevent, hmin, hloc]
      exact ⟨by decide, by decide, by decide⟩)
  rwa [hloc, hanchor] at h

/-- The toplevel grows to both sides of its center: its corner moves. -/
theorem sampleHeld_not_follows :
    begResize sampleDraggable (some 2) handlePress = some (sampleHeld, true) ∧
      ¬ FollowsMouse 1 ⟨⟨320, 25⟩, ⟨200, 150⟩⟩ ⟨515, 195⟩ sampleHeld [handleMove] := by
  refine ⟨begResize_sampleHeld, ?_⟩
  rintro ⟨s', w', hs', hw', hloc, -⟩
  have hcorner : (resizeStep sampleHeld handleMove).bind (fun s => (s.widgets 1).map
      fun w => w.screenLocation) = some ⟨⟨295, 25⟩, ⟨250, 150⟩⟩ := by
    with_unfolding_all rfl
  rw [hs', Option.bind_some, hw', Option.map_some, Option.some.injEq, hloc] at hcorner
  exact absurd hcorner (by decide)

end Sample

end GuiLibrary

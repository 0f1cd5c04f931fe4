import GuiLibrary.Relayout

/-!
# Successive placements

`ei_place` fills in the defaults when a widget is placed for the first time, and later calls only
overwrite the parameters that they are given. So a sequence of calls stores what one call with the
last argument given for each parameter stores, but for the size that the first call has filled in:
a relative size that comes later is added to the requested size, where a single call would start
from zero. The location follows from the parameters alone, because what the edge of the window cuts
off a location stays cut off.

## Main definitions

* `PlaceArgs.merge`, `mergeAll`, `PlaceArgs.withRequested`, `places`.

## Main results

* `placedParams_foldl`: the parameters after a sequence of calls.
* `places_eq_place`: the parameters and the location.
-/

namespace GuiLibrary

open Cells

/-! ### Arguments -/

/-- The arguments of two successive calls as those of one call: the later ones come first. -/
def PlaceArgs.merge (earlier later : PlaceArgs) : PlaceArgs where
  anchor := later.anchor.or earlier.anchor
  x := later.x.or earlier.x
  y := later.y.or earlier.y
  width := later.width.or earlier.width
  height := later.height.or earlier.height
  relX := later.relX.or earlier.relX
  relY := later.relY.or earlier.relY
  relWidth := later.relWidth.or earlier.relWidth
  relHeight := later.relHeight.or earlier.relHeight

/-- For each parameter the last argument that is not `NULL`. -/
def mergeAll (calls : List PlaceArgs) : PlaceArgs := calls.foldl PlaceArgs.merge {}

/-- The requested size counts as given where neither a size nor a relative size is given. -/
def PlaceArgs.withRequested (args : PlaceArgs) (requestedSize : Size) : PlaceArgs :=
  { args with
    width := args.width.or (if args.relWidth.isSome then none else some requestedSize.width)
    height := args.height.or (if args.relHeight.isSome then none else some requestedSize.height) }

/-- In both directions a size or a relative size is given. -/
structure PlaceArgs.Sized (args : PlaceArgs) : Prop where
  width : args.width.isSome ∨ args.relWidth.isSome
  height : args.height.isSome ∨ args.relHeight.isSome

namespace PlaceArgs

variable {args later : PlaceArgs}

theorem empty_merge (args : PlaceArgs) : merge {} args = args := by
  simp only [merge, Option.or_none]

theorem sized_withRequested (args : PlaceArgs) (requestedSize : Size) :
    (args.withRequested requestedSize).Sized := by
  constructor
  · simp only [withRequested]
    cases args.width <;> cases args.relWidth <;> simp
  · simp only [withRequested]
    cases args.height <;> cases args.relHeight <;> simp

theorem Sized.merge (h : args.Sized) (later : PlaceArgs) : (args.merge later).Sized := by
  obtain ⟨hw, hh⟩ := h
  constructor
  · simp only [PlaceArgs.merge, Option.isSome_or, Bool.or_eq_true]
    tauto
  · simp only [PlaceArgs.merge, Option.isSome_or, Bool.or_eq_true]
    tauto

end PlaceArgs

theorem mergeAll_cons (first : PlaceArgs) (rest : List PlaceArgs) :
    mergeAll (first :: rest) = rest.foldl PlaceArgs.merge first := by
  rw [mergeAll, List.foldl_cons, PlaceArgs.empty_merge]

/-! ### Parameters -/

section Params

variable {w : Widget}

/-- The requested size is the default of a first placement anyway. -/
theorem placedParams_withRequested (hg : w.geomParams = none) (args : PlaceArgs) :
    placedParams w (args.withRequested w.requestedSize) = placedParams w args := by
  simp only [placedParams, hg, PlaceArgs.withRequested, PlacerParam.mk.injEq, true_and, and_true]
  constructor
  · split_ifs with h <;> cases args.width <;> simp [h]
  · split_ifs with h <;> cases args.height <;> simp [h]

/-- A second call, when the first one has given sizes. -/
theorem placedParams_merge (hg : w.geomParams = none) {args : PlaceArgs} (hargs : args.Sized)
    (later : PlaceArgs) :
    placedParams (w.setGeomParams (some (placedParams w args))) later =
      placedParams w (args.merge later) := by
  have hor : ∀ {α : Type} (o o' : Option α) (a : α), (o.or o').getD a = o.getD (o'.getD a) := by
    intro α o o' a
    cases o <;> rfl
  -- The default of a size is read only where a relative size is given.
  have hsize : ∀ {α β : Type} (o o' : Option α) (r r' : Option β) (zero requested : α),
      o.isSome ∨ r.isSome → (o'.getD (o.getD (if r.isSome then zero else requested))) =
        (o'.or o).getD (if (r'.or r).isSome then zero else requested) := by
    intro α β o o' r r' zero requested h
    cases o' <;> cases o <;> cases r <;> cases r' <;> simp at h ⊢
  simp only [placedParams, hg, Widget.setGeomParams, PlaceArgs.merge, PlacerParam.mk.injEq, hor,
    true_and, and_true]
  exact ⟨(hsize _ _ _ _ _ _ hargs.width).trans (hor _ _ _),
    (hsize _ _ _ _ _ _ hargs.height).trans (hor _ _ _)⟩

/-- **The parameters after a sequence of calls.** -/
theorem placedParams_foldl (hg : w.geomParams = none) {args : PlaceArgs} (hargs : args.Sized)
    (rest : List PlaceArgs) :
    rest.foldl (fun params args => placedParams (w.setGeomParams (some params)) args)
        (placedParams w args) =
      placedParams w (rest.foldl PlaceArgs.merge args) := by
  induction rest generalizing args with
  | nil => rfl
  | cons later rest ih =>
    rw [List.foldl_cons, List.foldl_cons, placedParams_merge hg hargs]
    exact ih (hargs.merge later)

end Params

/-! ### Locations -/

/-- Successive calls of `ei_place` on one widget. -/
def places (s : AppState) (p : Ptr) (calls : List PlaceArgs) : Option AppState :=
  calls.foldlM (fun s args => eiPlace s p args) s

section Places

variable {window : Size} {s : AppState} {p o : Ptr} {w pw : Widget}

/-- **One call**: the widget is run again under the content area of its parent, which does not
change. -/
theorem eiPlace_rerun (hs : WellFormed s) (hwin : s.HasWindow window) (hp : s.widgets p = some w)
    (ho : w.parent = some o) (hpo : s.widgets o = some pw) (args : PlaceArgs) :
    ∃ s', eiPlace s p args = some s' ∧ WellFormed s' ∧ s'.HasWindow window ∧
      s'.widgets p =
        some ((w.setGeomParams (some (placedParams w args))).rerun window pw.content) ∧
      s'.widgets o = some pw := by
  obtain ⟨s', h⟩ := exists_eiPlace hs hp ho args
  have hout : ∀ {q}, ¬ s.InSubtree q p → s'.widgets q = s.widgets q := eiPlace_outside hs h
  have hop : nodeLinks.ChildOf s.nodes p o := ⟨w.node, AppState.nodes_of_widgets hp, ho⟩
  have hparent : ¬ s.InSubtree o p := hs.not_inSubtree_parent hop
  obtain ⟨v, o', pw', window', m', rects, hv, ho', hpo', hwin', rfl, hrelaid⟩ :=
    eiPlace_of_eq_some hs h
  obtain rfl := Option.some.inj (hp.symm.trans hv)
  obtain rfl := Option.some.inj (ho.symm.trans ho')
  obtain rfl := Option.some.inj (hpo.symm.trans hpo')
  obtain rfl := hwin'.unique hwin
  refine ⟨_, h, hs.congr (skeleton_eiPlace h), ?_, ?_, (hout hparent).trans hpo⟩
  · obtain ⟨r, rw', hr, hrw, hsize⟩ := hwin
    refine ⟨r, rw', hr, (hout ?_).trans hrw, hsize⟩
    rintro (rfl | hbelow)
    · exact hs.rootWidget_ne hp ho hr
    · exact root_top hs hr hrw p hbelow
  · rw [AppState.widgets_relayout, hrelaid.start, s.widgets_setWidget_self, Option.map_some]

/-- A widget whose location the edges of the window have cut, where they cut it. -/
def Widget.Landed (w : Widget) (window : Size) : Prop :=
  w.landing window w.screenLocation = w.screenLocation

/-- A landed widget lands where the formula puts it, cut at the edges of the window, also when the
placer finds it there. -/
theorem Widget.Landed.rerun (h : w.Landed window) (K : Rect) :
    (w.rerun window K).Landed window ∧
      (w.rerun window K).screenLocation = w.landing window (w.target K) := by
  have hloc : (w.rerun window K).screenLocation = w.landing window (w.target K) := by
    by_cases ht : w.target K = w.screenLocation
    · rw [rerun_of_eq ht, ht]
      exact h.symm
    · rw [rerun_of_ne ht, screenLocation_settled]
  refine ⟨?_, hloc⟩
  rw [Landed, landing_rerun, hloc, landing_landing]

/-- What successive calls keep of a widget, and the location that they leave it at. -/
structure PlacedAs (window : Size) (K : Rect) (w w' : Widget) (params : PlacerParam) : Prop where
  geomParams : w'.geomParams = some params
  requestedSize : w'.requestedSize = w.requestedSize
  parent : w'.parent = w.parent
  landed : w'.Landed window
  landing : ∀ rect, w'.landing window rect = w.landing window rect
  screenLocation : w'.screenLocation =
    w.landing window (placerRect params w.requestedSize K)

/-- The parameters that a later call stores do not depend on the rest of the widget. -/
theorem PlacedAs.placedParams_eq {K : Rect} {w' : Widget} {params : PlacerParam}
    (h : PlacedAs window K w w' params) (args : PlaceArgs) :
    placedParams w' args = placedParams (w.setGeomParams (some params)) args := by
  simp only [placedParams, h.geomParams, Widget.setGeomParams]

theorem PlacedAs.of_rerun (h : w.Landed window) (params : PlacerParam) (K : Rect) :
    PlacedAs window K w ((w.setGeomParams (some params)).rerun window K) params := by
  have hset : (w.setGeomParams (some params)).Landed window := h
  obtain ⟨hlanded, hloc⟩ := hset.rerun K
  refine ⟨Widget.geomParams_rerun _ _ _, Widget.requestedSize_rerun _ _ _, ?_, hlanded,
    fun rect => Widget.landing_rerun _ _ _ rect, hloc⟩
  exact congrArg Node.parent (Widget.node_rerun (w.setGeomParams (some params)) window K)

theorem PlacedAs.trans {K : Rect} {w₁ w₂ : Widget} {params params' : PlacerParam}
    (h₁ : PlacedAs window K w w₁ params) (h₂ : PlacedAs window K w₁ w₂ params') :
    PlacedAs window K w w₂ params' where
  geomParams := h₂.geomParams
  requestedSize := h₂.requestedSize.trans h₁.requestedSize
  parent := h₂.parent.trans h₁.parent
  landed := h₂.landed
  landing rect := (h₂.landing rect).trans (h₁.landing rect)
  screenLocation := by
    rw [h₂.screenLocation, h₁.landing, h₁.requestedSize]

/-- **A sequence of calls.** -/
theorem places_placedAs (calls : List PlaceArgs) : ∀ {s : AppState} {w₁ : Widget}
    {params : PlacerParam}, WellFormed s → s.HasWindow window → s.widgets p = some w₁ →
    w.parent = some o → s.widgets o = some pw → PlacedAs window pw.content w w₁ params →
    ∃ s' w', places s p calls = some s' ∧ s'.widgets p = some w' ∧
      PlacedAs window pw.content w w'
        (calls.foldl (fun params args => placedParams (w.setGeomParams (some params)) args)
          params) := by
  induction calls with
  | nil => exact fun _ _ hp _ _ h => ⟨_, _, rfl, hp, h⟩
  | cons args calls ih =>
    intro s w₁ params hs hwin hp ho hpo h
    obtain ⟨s₁, hrun, hs₁, hwin₁, hp₁, hpo₁⟩ :=
      eiPlace_rerun hs hwin hp (h.parent.trans ho) hpo args
    have h₁ := h.trans (PlacedAs.of_rerun h.landed (placedParams w₁ args) pw.content)
    rw [h.placedParams_eq] at h₁ hp₁
    obtain ⟨s', w', hruns, hp', h'⟩ := ih hs₁ hwin₁ hp₁ ho hpo₁ h₁
    refine ⟨s', w', ?_, hp', h'⟩
    rw [places, List.foldlM_cons, hrun]
    exact hruns

/-- **Successive placements of a widget that is not managed yet store the parameters of one call and
leave the widget at its location**, when the requested size counts as given by a first call that
gives neither a size nor a relative size. The location of such a widget is zero. -/
theorem places_eq_place (hs : WellFormed s) (hwin : s.HasWindow window) (hp : s.widgets p = some w)
    (ho : w.parent = some o) (hg : w.geomParams = none)
    (hloc : w.screenLocation = eiRectZero) (hzero : eiRectZero.InWindow window)
    (first : PlaceArgs) (rest : List PlaceArgs) :
    ∃ s₁ s₂ w₁ w₂, places s p (first :: rest) = some s₁ ∧
      eiPlace s p (mergeAll (first.withRequested w.requestedSize :: rest)) = some s₂ ∧
      s₁.widgets p = some w₁ ∧ s₂.widgets p = some w₂ ∧ w₁.geomParams = w₂.geomParams ∧
      w₁.geomParams.isSome ∧ w₁.screenLocation = w₂.screenLocation := by
  obtain ⟨n, hn⟩ := hs.linked.parent_live p o ⟨w.node, AppState.nodes_of_widgets hp, ho⟩
  obtain ⟨pw, hpo, -⟩ := AppState.nodes_eq_some.mp hn
  have hlanded : w.Landed window := by
    rw [Widget.Landed, hloc]
    exact w.landing_of_inWindow hzero
  -- The sequence: the first call, then the others.
  obtain ⟨s₁, hrun, hs₁, hwin₁, hp₁, hpo₁⟩ := eiPlace_rerun hs hwin hp ho hpo first
  obtain ⟨s', w', hruns, hp', h'⟩ := places_placedAs rest hs₁ hwin₁ hp₁ ho hpo₁
    (PlacedAs.of_rerun hlanded (placedParams w first) pw.content)
  -- The single call.
  obtain ⟨s₂, hrun₂, -, -, hp₂, -⟩ := eiPlace_rerun hs hwin hp ho hpo
    (mergeAll (first.withRequested w.requestedSize :: rest))
  have h₂ := PlacedAs.of_rerun hlanded
    (placedParams w (mergeAll (first.withRequested w.requestedSize :: rest))) pw.content
  rw [← placedParams_withRequested hg, placedParams_foldl hg (first.sized_withRequested _),
    ← mergeAll_cons] at h'
  refine ⟨s', s₂, w', _, ?_, hrun₂, hp', hp₂, h'.geomParams.trans h₂.geomParams.symm, ?_,
    h'.screenLocation.trans h₂.screenLocation.symm⟩
  · rw [places, List.foldlM_cons, hrun]
    exact hruns
  · rw [h'.geomParams]
    rfl

end Places

/-! ### A frame that asks for a size -/

section Sample

attribute [local instance] sampleHardware

/-- A frame that asks for 100 by 50 pixels. -/
def createAsking : Option AppState := do
  let (s, frame) ← eiWidgetCreate (sampleApp ⟨640, 480⟩) .frame (some 0) none
  eiFrameConfigure s frame { requestedSize := some ⟨100, 50⟩ }

theorem isSome_createAsking : createAsking.isSome := rfl

/-- The state after `createAsking`: the frame is at address 1. -/
def sampleAsking : AppState := createAsking.get isSome_createAsking

theorem sampleAsking_invariant : WellFormed sampleAsking ∧ sampleAsking.HasWindow ⟨640, 480⟩ := by
  have h : createAsking = some sampleAsking := (Option.some_get _).symm
  simp only [createAsking, Option.bind_eq_bind, Option.bind_eq_some_iff, Prod.exists] at h
  obtain ⟨s, frame, hcreate, hconfigure⟩ := h
  have hstart := sampleApp_started ⟨640, 480⟩
  obtain ⟨hc, -⟩ := eiWidgetCreate_created hstart.wellFormed (sampleApp_live ⟨640, 480⟩) hcreate
  exact ⟨hc.grown.wellFormed.congr (skeleton_eiFrameConfigure hconfigure),
    .of_map (r := 0) rfl rfl⟩

theorem sampleAsking_frame : ∃ w, sampleAsking.widgets 1 = some w ∧ w.parent = some 0 ∧
    w.geomParams = none ∧ w.screenLocation = eiRectZero ∧ w.requestedSize = ⟨100, 50⟩ := by
  have h : (sampleAsking.widgets 1).map (fun w => (w.parent, w.geomParams, w.screenLocation,
      w.requestedSize)) = some (some 0, none, eiRectZero, ⟨100, 50⟩) := rfl
  obtain ⟨w, hw, h⟩ := Option.map_eq_some_iff.mp h
  simp only [Prod.mk.injEq] at h
  exact ⟨w, hw, h⟩

/-- A position, then a relative width. -/
def positionCalls : List PlaceArgs := [{ x := some 10 }, { relWidth := some (1 / 2) }]

/-- The frame is placed, then given a relative width. -/
theorem places_eq_place_asking : ∃ w s₁ s₂ w₁ w₂, sampleAsking.widgets 1 = some w ∧
    places sampleAsking 1 positionCalls = some s₁ ∧
    eiPlace sampleAsking 1 (mergeAll (PlaceArgs.withRequested { x := some 10 } w.requestedSize ::
      [{ relWidth := some (1 / 2) }])) = some s₂ ∧
    s₁.widgets 1 = some w₁ ∧ s₂.widgets 1 = some w₂ ∧ w₁.geomParams = w₂.geomParams ∧
    w₁.geomParams.isSome ∧ w₁.screenLocation = w₂.screenLocation := by
  obtain ⟨w, hw, ho, hg, hloc, -⟩ := sampleAsking_frame
  obtain ⟨s₁, s₂, w₁, w₂, h⟩ := places_eq_place sampleAsking_invariant.1 sampleAsking_invariant.2
    hw ho hg hloc (by decide) { x := some 10 } [{ relWidth := some (1 / 2) }]
  exact ⟨w, s₁, s₂, w₁, w₂, hw, h⟩

/-- What a call leaves of the parameters and of the location of the frame. -/
def placementOf (s : Option AppState) : Option (Option PlacerParam × Rect) :=
  (s.bind fun s => s.widgets 1).map fun w => (w.geomParams, w.screenLocation)

/-- The single call with the same arguments starts from a width of zero: the frame is 320 pixels
wide, and not 420. -/
theorem places_ne_place_asking :
    (placementOf (places sampleAsking 1 positionCalls)).map (fun w => (w.1.map (·.width),
      w.2.size.width)) = some (some 100, 420) ∧
    (placementOf (eiPlace sampleAsking 1 (mergeAll positionCalls))).map (fun w =>
      (w.1.map (·.width), w.2.size.width)) = some (some 0, 320) := by
  decide +kernel

end Sample

end GuiLibrary

import GuiLibrary.Configuration

/-!
# The requested size of a widget

By the protocol of the configure functions a requested size that has once been given stays until
another one is given, and a frame or a button for which none has been given has its natural size:
that of the text or the image it shows, with its border around. Every call of a configure function
computes the requested size anew from its own arguments instead. A call without a requested size
forgets the one given before, and takes the text, the image, the font and the border that are not
passed for missing, whatever the widget shows.

## Main definitions

* `Size.bordered`, `FrameAttrs.naturalSize`, `Attrs.naturalSize`, `givenSize`, `requested`.
* `LabelMeets`, `CallMeets`: the calls after which the requested size is right.

## Main results

* `configuredSize_eq_iff`: one call of `ei_frame_configure` or `ei_button_configure`.
* `requestedSize_iff`: the requested size of every widget in every run of a program.
-/

namespace GuiLibrary

open Cells Traces

/-! ### Natural sizes -/

/-- The size of an area with a border around it. -/
def Size.bordered (size : Size) (borderWidth : ℤ) : Size :=
  ⟨size.width + 2 * borderWidth, size.height + 2 * borderWidth⟩

/-- Two borders around one area. -/
theorem Size.mk_eq_bordered_iff {size : Size} {b b' : ℤ} :
    (⟨size.width + 2 * b, size.height + 2 * b⟩ : Size) = size.bordered b' ↔ b = b' := by
  simp only [bordered, Size.mk.injEq]
  omega

/-- Nothing with a border around has the size zero without the border only. -/
theorem Size.zero_eq_bordered_iff {b : ℤ} :
    (⟨0, 0⟩ : Size) = (⟨0, 0⟩ : Size).bordered b ↔ b = 0 := by
  simp only [bordered, Size.mk.injEq]
  omega

section Sizes

variable [Hardware]

/-- The size of the text or the image, with the border around it. -/
def FrameAttrs.naturalSize (a : FrameAttrs) : Size :=
  match a.text, a.img with
  | some text, _ => (Hardware.hwTextComputeSize text a.textFont).bordered a.borderWidth
  | none, some img => img.size.bordered a.borderWidth
  | none, none => (⟨0, 0⟩ : Size).bordered a.borderWidth

/-- The default of the requested size. -/
def Attrs.naturalSize : Attrs → Size
  | frame a => a.naturalSize
  | button a => a.toFrameAttrs.naturalSize
  | toplevel _ => ⟨320, 240⟩

/-- The call leaves the right requested size behind, when `given` is the size that earlier calls
have given and `a` are the attributes before the call: the call gives a size itself, or what is
asked of it comes to the same. -/
def LabelMeets (given : Option Size) (a : FrameAttrs) (args : LabelArgs) : Prop :=
  args.requestedSize = none →
    -- The font and the border that the call passes, or `NULL`, and those that it leaves.
    let passedFont := args.textFont.getD Hardware.eiDefaultFont
    let passedBorder := args.borderWidth.getD 0
    let font := args.textFont.getD a.textFont
    let border := args.borderWidth.getD a.borderWidth
    let kept := { a with textFont := font, borderWidth := border }
    match given, args.text, args.img with
    -- A size has been given, and the call passes contents that happen to have it.
    | some size, some ⟨some text, _⟩, _ =>
        size = (Hardware.hwTextComputeSize text passedFont).bordered passedBorder
    | some size, _, some (some img) => size = img.size.bordered passedBorder
    | some size, _, _ => size = ⟨0, 0⟩
    -- None has been given, and the call passes a text, which is dropped when `strlen` finds forty
    -- bytes at the pointer to it.
    | none, some ⟨some text, length⟩, _ =>
        (Hardware.hwTextComputeSize text passedFont).bordered passedBorder =
          if length < widgetTextSize then (Hardware.hwTextComputeSize text font).bordered border
          else kept.naturalSize
    | none, some ⟨none, length⟩, _ =>
        if length < widgetTextSize then border = 0 else kept.naturalSize = ⟨0, 0⟩
    -- The call passes an image, or clears it.
    | none, none, some (some _) => passedBorder = border
    | none, none, some none => border = 0
    -- The call passes neither, and the widget goes on showing what it shows.
    | none, none, none => kept.naturalSize = ⟨0, 0⟩

/-- **One call.** The size it computes is the right one under the condition, and only then. -/
theorem configuredSize_eq_iff {given : Option Size} {a a' : FrameAttrs} {args : LabelArgs}
    (h : configureLabel a args = some a') :
    configuredSize args = (args.requestedSize.or given).getD a'.naturalSize ↔
      LabelMeets given a args := by
  obtain ⟨b, hb, h⟩ := Option.bind_eq_some_iff.mp h
  obtain rfl := Option.some.inj h
  obtain ⟨requestedSize, color, borderWidth, relief, text, textFont, textColor, textAnchor, img,
    imgRect, imgAnchor⟩ := args
  cases requestedSize with
  | some r => simp [configuredSize, LabelMeets]
  | none =>
    cases text with
    | none =>
      cases img with
      | none =>
        obtain rfl := Option.some.inj hb
        cases given <;> simp [configuredSize, LabelMeets, FrameAttrs.naturalSize, eq_comm]
      | some img =>
        cases img with
        | none =>
          obtain rfl := Option.some.inj hb
          cases given with
          | none => simp [configuredSize, LabelMeets, FrameAttrs.naturalSize,
              Size.zero_eq_bordered_iff]
          | some size => simp [configuredSize, LabelMeets, eq_comm]
        | some img =>
          have hshown : b.text = none ∧ b.img = some img ∧ b.borderWidth = a.borderWidth := by
            cases imgRect with
            | none => exact Option.some.inj hb ▸ ⟨rfl, rfl, rfl⟩
            | some rect =>
              cases rect with
              | none => simp [configureTextImg] at hb
              | some rect => exact Option.some.inj hb ▸ ⟨rfl, rfl, rfl⟩
          cases given with
          | none =>
            simp [configuredSize, LabelMeets, FrameAttrs.naturalSize, hshown,
              Size.mk_eq_bordered_iff]
          | some size => simp [configuredSize, LabelMeets, eq_comm, Size.bordered]
    | some arg =>
      obtain ⟨text, length⟩ := arg
      cases img with
      | some img => simp [configureTextImg] at hb
      | none =>
        cases text with
        | none =>
          by_cases hlength : length < widgetTextSize
          · obtain rfl : { a with text := none, img := none } = b := by
              simpa [configureTextImg, hlength] using hb
            cases given with
            | none =>
              simp [configuredSize, LabelMeets, FrameAttrs.naturalSize, hlength,
                Size.zero_eq_bordered_iff]
            | some size => simp [configuredSize, LabelMeets, eq_comm]
          · obtain rfl : a = b := by simpa [configureTextImg, hlength] using hb
            cases given with
            | none => simp [configuredSize, LabelMeets, FrameAttrs.naturalSize, hlength, eq_comm]
            | some size => simp [configuredSize, LabelMeets, eq_comm]
        | some text =>
          by_cases hlength : length < widgetTextSize
          · obtain ⟨-, rfl⟩ : text.length < widgetTextSize ∧
                { a with text := some text, img := none } = b := by
              simpa [configureTextImg, hlength] using hb
            cases given with
            | none =>
              simp [configuredSize, LabelMeets, FrameAttrs.naturalSize, hlength, Size.bordered]
            | some size => simp [configuredSize, LabelMeets, eq_comm, Size.bordered]
          · obtain rfl : a = b := by simpa [configureTextImg, hlength] using hb
            cases given with
            | none =>
              simp [configuredSize, LabelMeets, FrameAttrs.naturalSize, hlength, Size.bordered]
            | some size => simp [configuredSize, LabelMeets, eq_comm, Size.bordered]

end Sizes

/-! ### Sizes that are given -/

/-- The requested size that the call gives to the widget. -/
def givenSize (p : Ptr) : AppState × LibraryCall → Option Size
  | (_, .frameConfigure q args) => if q = p then args.requestedSize else none
  | (_, .buttonConfigure q args) => if q = p then args.requestedSize else none
  | (_, .toplevelConfigure q args) => if q = p then args.requestedSize else none
  | _ => none

/-- The requested size that has been given to the widget last. The first one of the root is given
by `ei_app_create`. -/
def requested (mainWindowSize : Size) (p : Ptr) (history : List (AppState × LibraryCall)) :
    Option Size :=
  (lastSome (givenSize p) history).or (if p = 0 then some mainWindowSize else none)

section Given

variable {mainWindowSize : Size} {p : Ptr} {history : List (AppState × LibraryCall)}
  {x : AppState × LibraryCall}

theorem requested_concat : requested mainWindowSize p (history ++ [x]) =
    (givenSize p x).or (requested mainWindowSize p history) := by
  rw [requested, lastSome_concat, Option.or_assoc, requested]

theorem givenSize_of_not_writes (h : ¬ Writes p x) : givenSize p x = none := by
  obtain ⟨s, c⟩ := x
  cases c with
  | frameConfigure q args => exact if_neg h
  | buttonConfigure q args => exact if_neg h
  | toplevelConfigure q args => exact if_neg h
  | _ => rfl

theorem requested_concat_of_not_writes (h : ¬ Writes p x) :
    requested mainWindowSize p (history ++ [x]) = requested mainWindowSize p history := by
  rw [requested_concat, givenSize_of_not_writes h, Option.none_or]

/-- Nothing has been given to a widget that nothing has written. -/
theorem requested_of_not_writes (hp : p ≠ 0) (h : ∀ x ∈ history, ¬ Writes p x) :
    requested mainWindowSize p history = none := by
  have hnil : history.filterMap (givenSize p) = [] :=
    List.filterMap_eq_nil_iff.mpr fun x hx => givenSize_of_not_writes (h x hx)
  rw [requested, lastSome, hnil, if_neg hp]
  rfl

end Given

/-! ### The requested size along a run -/

section Program

variable [Hardware]

/-- The call that creates the widget or configures it leaves the right requested size behind, when
`given` is the size that has been given before: a new frame has the natural size zero, and a new
button or toplevel has not its natural size; a toplevel goes back to its default. -/
def CallMeets (given : Option Size) (p : Ptr) : AppState × LibraryCall → Prop
  | (_, .create c _ _) => c = .frame
  | (s, .frameConfigure _ args) =>
      ∀ w a, s.widgets p = some w → w.attrs = .frame a → LabelMeets given a args
  | (s, .buttonConfigure _ args) =>
      ∀ w a, s.widgets p = some w → w.attrs = .button a →
        LabelMeets given a.toFrameAttrs args.toLabelArgs
  | (_, .toplevelConfigure _ args) =>
      args.requestedSize = none → ∀ size, given = some size → size = ⟨320, 240⟩
  | _ => True

/-- The last call that has created the widget or configured it leaves the right requested size
behind. -/
def SizeMeets (mainWindowSize : Size) (p : Ptr) (history : List (AppState × LibraryCall)) : Prop :=
  AtLast (Writes p) (fun before x => CallMeets (requested mainWindowSize p before) p x) history

theorem naturalSize_undrawn (attrs : Attrs) : attrs.undrawn.naturalSize = attrs.naturalSize := by
  cases attrs <;> rfl

omit [Hardware] in
theorem getD_eq_default_iff {given : Option Size} {args : ToplevelArgs} :
    args.requestedSize.getD ⟨320, 240⟩ = (args.requestedSize.or given).getD ⟨320, 240⟩ ↔
      (args.requestedSize = none → ∀ size, given = some size → size = ⟨320, 240⟩) := by
  cases args.requestedSize <;> cases given <;> simp [eq_comm]

variable [Raster] {mainWindowSize : Size} {history : List (AppState × LibraryCall)}
  {s s' : AppState} {p : Ptr} {call : LibraryCall}

/-- **A configuration of the widget.** -/
theorem requestedSize_configured (hrun : call.run s = some s') (hp : p < s.nextWidget)
    (hwrites : Writes p (s, call)) {w' : Widget} (hw' : s'.widgets p = some w') :
    w'.requestedSize = (requested mainWindowSize p (history ++ [(s, call)])).getD
        w'.attrs.naturalSize ↔
      CallMeets (requested mainWindowSize p history) p (s, call) := by
  rw [requested_concat, ← naturalSize_undrawn]
  cases call with
  | create c parent destructor => exact absurd hwrites (Nat.ne_of_gt hp)
  | frameConfigure q args =>
    obtain rfl : q = p := hwrites
    obtain ⟨w, a, a', hw, ha, hconf, hset⟩ := eiFrameConfigure_settings hrun
    obtain ⟨hsize, hattrs⟩ := Prod.mk.inj (hset w' hw')
    have hgiven : givenSize q (s, .frameConfigure q args) = args.requestedSize := if_pos rfl
    rw [hsize, hattrs, hgiven]
    refine (configuredSize_eq_iff hconf).trans ⟨fun h v b hv hb => ?_, fun h => h w a hw ha⟩
    obtain rfl := Option.some.inj (hw.symm.trans hv)
    obtain rfl := Attrs.frame.inj (ha.symm.trans hb)
    exact h
  | buttonConfigure q args =>
    obtain rfl : q = p := hwrites
    obtain ⟨w, a, label, hw, ha, hconf, hset⟩ := eiButtonConfigure_settings hrun
    obtain ⟨hsize, hattrs⟩ := Prod.mk.inj (hset w' hw')
    have hgiven : givenSize q (s, .buttonConfigure q args) = args.requestedSize := if_pos rfl
    rw [hsize, hattrs, hgiven]
    refine (configuredSize_eq_iff hconf).trans ⟨fun h v b hv hb => ?_, fun h => h w a hw ha⟩
    obtain rfl := Option.some.inj (hw.symm.trans hv)
    obtain rfl := Attrs.button.inj (ha.symm.trans hb)
    exact h
  | toplevelConfigure q args =>
    obtain rfl : q = p := hwrites
    obtain ⟨w, a, hw, ha, hset⟩ := eiToplevelConfigure_settings hrun
    obtain ⟨hsize, hattrs⟩ := Prod.mk.inj (hset w' hw')
    have hgiven : givenSize q (s, .toplevelConfigure q args) = args.requestedSize := if_pos rfl
    rw [hsize, hattrs, naturalSize_undrawn, hgiven]
    exact getD_eq_default_iff
  | _ => exact absurd hwrites id

omit [Raster] in
/-- A new widget has the requested size zero, which is the natural size of a new frame only. -/
theorem zero_eq_naturalSize_iff (c : WidgetClass) :
    (⟨0, 0⟩ : Size) = (defaultAttrs c).naturalSize ↔ c = .frame := by
  cases c with
  | frame => exact iff_of_true rfl rfl
  | button =>
    refine iff_of_false (fun h => ?_) (by simp)
    have hborder : (defaultAttrs .button).naturalSize = (⟨0, 0⟩ : Size).bordered 4 := rfl
    exact absurd (Size.zero_eq_bordered_iff.mp (h.trans hborder)) (by decide)
  | toplevel =>
    refine iff_of_false (fun h => ?_) (by simp)
    simp [Attrs.naturalSize, defaultAttrs] at h

/-- Every widget that the program has created, and the root, has the right requested size if the
last call that has written it meets the condition, and only then. -/
def SizesRecorded (mainWindowSize : Size) (history : List (AppState × LibraryCall))
    (s : AppState) : Prop :=
  ∀ c p, CreatedAs c p history → ∀ w, s.widgets p = some w →
    (w.requestedSize = (requested mainWindowSize p history).getD w.attrs.naturalSize ↔
      SizeMeets mainWindowSize p history)

omit [Raster] in
theorem SizesRecorded.start {rootSurface pickSurface : Surface}
    (h : eiAppCreate mainWindowSize rootSurface pickSurface = some s) :
    SizesRecorded mainWindowSize [] s := by
  intro c p hc w hw
  rcases hc with ⟨rfl, rfl⟩ | ⟨s₀, parent, d, hmem, -⟩
  · rw [(Started.of_eq h).widgets, Function.update_self] at hw
    obtain rfl := Option.some.inj hw
    exact iff_of_true rfl (atLast_of_none fun x hx => absurd hx List.not_mem_nil)
  · exact absurd hmem List.not_mem_nil

/-- **One more call.** -/
theorem SizesRecorded.step (h : SizesRecorded mainWindowSize history s) (hs : Recorded history s)
    (hrun : call.run s = some s') : SizesRecorded mainWindowSize (history ++ [(s, call)]) s' := by
  intro c p hc w' hw'
  rcases hc.of_concat with hc | ⟨parent, d, rfl, rfl⟩
  · have hp := hs.lt_of_createdAs hc
    by_cases hwrites : Writes p (s, call)
    · rw [requestedSize_configured hrun hp hwrites hw', SizeMeets, atLast_concat_iff hwrites]
    · have hretains := Retains.of_not_writes hs.invariant.wellFormed hrun hwrites hp
      obtain ⟨w, hw, hsettings⟩ := (hw' ▸ hretains.settings p rfl).exists_old
      obtain ⟨hsize, hattrs⟩ := Prod.mk.inj hsettings
      rw [hsize, ← naturalSize_undrawn, hattrs, naturalSize_undrawn,
        requested_concat_of_not_writes hwrites, SizeMeets, atLast_concat_of_not hwrites]
      exact h c p hc w hw
  · obtain ⟨hparent, wid, hcreate⟩ := LibraryCall.created hrun
    have hset := eiWidgetCreate_settings hs.invariant.wellFormed hparent hcreate
    obtain ⟨hsize, hattrs⟩ := Prod.mk.inj (hset w' hw')
    have hwrites : Writes s.nextWidget (s, .create c parent d) := rfl
    have hgiven : givenSize s.nextWidget (s, .create c parent d) = none := rfl
    rw [hsize, ← naturalSize_undrawn, hattrs, naturalSize_undrawn, requested_concat, hgiven,
      Option.none_or, requested_of_not_writes (Nat.ne_of_gt hs.pos) hs.not_writes_nextWidget,
      Option.getD_none, SizeMeets, atLast_concat_iff hwrites]
    exact zero_eq_naturalSize_iff c

/-- **The requested size of every widget, in every run of a program.** It is the size given last, or
else the natural size or the default of a toplevel, if and only if the last call that has created
the widget or configured it meets the condition. -/
theorem requestedSize_iff {may : List (AppState × LibraryCall) → AppState → LibraryCall → Prop}
    (h : Program mainWindowSize may history s) {c : WidgetClass} (hc : CreatedAs c p history)
    {w : Widget} (hw : s.widgets p = some w) :
    w.requestedSize = (requested mainWindowSize p history).getD w.attrs.naturalSize ↔
      SizeMeets mainWindowSize p history := by
  have hsizes : Recorded history s ∧ SizesRecorded mainWindowSize history s := by
    refine h.invariant
      (I := fun history s => Recorded history s ∧ SizesRecorded mainWindowSize history s)
      (fun s ⟨_, _, hstart⟩ => ⟨.start hstart, .start hstart⟩) ?_
    rintro history s call s' ⟨hs, hsizes⟩ - hrun
    exact ⟨hs.step hrun, hsizes.step hs hrun⟩
  exact hsizes.2 c p hc w hw

end Program

/-! ### A size that is forgotten -/

section Sample

attribute [local instance] sampleHardware sampleRaster

theorem isSome_eiFrameConfigure_sized :
    (eiFrameConfigure sampleLabel 1 { requestedSize := some ⟨50, 20⟩ }).isSome := by
  rfl

/-- A frame that has been given a size. -/
def sampleSized : AppState :=
  (eiFrameConfigure sampleLabel 1 { requestedSize := some ⟨50, 20⟩ }).get
    isSome_eiFrameConfigure_sized

/-- The program that has given the size. -/
def sizedHistory : List (AppState × LibraryCall) :=
  labelHistory ++ [(sampleLabel, .frameConfigure 1 { requestedSize := some ⟨50, 20⟩ })]

theorem sizedHistory_program :
    Program ⟨640, 480⟩ (fun _ _ _ => True) sizedHistory sampleSized :=
  .step (labelHistory_program trivial) trivial (Option.some_get isSome_eiFrameConfigure_sized).symm

/-- A call that gives a size leaves this size behind. -/
theorem requestedSize_iff_sized : ∃ w, sampleSized.widgets 1 = some w ∧
    w.requestedSize = (requested ⟨640, 480⟩ 1 sizedHistory).getD w.attrs.naturalSize := by
  have hlive : (sampleSized.widgets 1).isSome := rfl
  obtain ⟨w, hw⟩ := Option.isSome_iff_exists.mp hlive
  have hcreated : CreatedAs .frame 1 sizedHistory :=
    Or.inr ⟨_, _, _, List.mem_cons_self, (sampleApp_started ⟨640, 480⟩).nextWidget⟩
  have hwrites : Writes 1 (sampleLabel,
      .frameConfigure 1 { requestedSize := some ⟨50, 20⟩ }) := rfl
  refine ⟨w, hw, (requestedSize_iff sizedHistory_program hcreated hw).mpr ?_⟩
  rw [SizeMeets, sizedHistory, atLast_concat_iff hwrites]
  exact fun v a _ _ hnone => absurd hnone (by simp)

theorem isSome_eiFrameConfigure_forgotten :
    (eiFrameConfigure sampleSized 1 { color := some ⟨0xFF, 0, 0, 0xFF⟩ }).isSome := by
  rfl

/-- The frame after a call that only gives a colour. -/
def sampleForgotten : AppState :=
  (eiFrameConfigure sampleSized 1 { color := some ⟨0xFF, 0, 0, 0xFF⟩ }).get
    isSome_eiFrameConfigure_forgotten

/-- The size that has been given last is not the requested size any more. -/
theorem sampleForgotten_not_requested : ∃ history w,
    Program ⟨640, 480⟩ (fun _ _ _ => True) history sampleForgotten ∧
      CreatedAs .frame 1 history ∧ sampleForgotten.widgets 1 = some w ∧
      requested ⟨640, 480⟩ 1 history = some ⟨50, 20⟩ ∧ w.requestedSize = ⟨0, 0⟩ := by
  have hsize : (sampleForgotten.widgets 1).map Widget.requestedSize = some ⟨0, 0⟩ := by
    rfl
  obtain ⟨w, hw, hsize⟩ := Option.map_eq_some_iff.mp hsize
  refine ⟨sizedHistory ++ [(sampleSized, .frameConfigure 1
      { color := some ⟨0xFF, 0, 0, 0xFF⟩ })], w, ?_, ?_, hw, ?_, hsize⟩
  · exact .step sizedHistory_program trivial
      (Option.some_get isSome_eiFrameConfigure_forgotten).symm
  · exact Or.inr ⟨_, _, _, List.mem_cons_self, (sampleApp_started ⟨640, 480⟩).nextWidget⟩
  · rfl

end Sample

end GuiLibrary

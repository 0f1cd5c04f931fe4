import GuiLibrary.GeometryManager

/-!
# Configuring frames and buttons

`ei_frame_configure` and `ei_button_configure` share most of their text: they store the requested
size, the border width with its content area, and the attributes given by non-`NULL` arguments,
then run the placer on a mapped widget. `LabelArgs` are the common arguments and `configureLabel`
the common assignments; each of the two functions adds its own.

Every attribute that a `NULL` argument leaves alone has been allocated by `setdefaultsfunc`, so the
branches that allocate a missing one never run.

## Main definitions

* `TextArg`, `LabelArgs`, `ButtonArgs`, `configuredSize`, `configuredContent`, `configureLabel`,
  `configureButtonLabel`.
* `eiFrameConfigure`, `eiButtonConfigure`, `refresh`.

## Main results

* `skeleton_refresh`, `skeleton_eiFrameConfigure`, `skeleton_eiButtonConfigure`.
-/

namespace GuiLibrary

open Cells

/-- A `char** text` argument: the string it points to, and the length that `strlen` finds when it
is given the pointer itself. -/
structure TextArg where
  text : Option Text
  pointerLength : ℕ

/-- The arguments that `ei_frame_configure` and `ei_button_configure` share, each of which may be
`NULL`. -/
structure LabelArgs where
  requestedSize : Option Size := none
  color : Option Color := none
  borderWidth : Option ℤ := none
  relief : Option Relief := none
  text : Option TextArg := none
  textFont : Option Font := none
  textColor : Option Color := none
  textAnchor : Option Anchor := none
  img : Option (Option Surface) := none
  imgRect : Option (Option Rect) := none
  imgAnchor : Option Anchor := none

/-- The arguments of `ei_button_configure`. -/
structure ButtonArgs extends LabelArgs where
  cornerRadius : Option ℤ := none
  callback : Option ℕ := none
  userParam : Option (Option ℕ) := none

/-- The requested size: the one given, or else the size of the given text or image with the given
border. -/
def configuredSize [Hardware] (args : LabelArgs) : Size :=
  let borderWidth := args.borderWidth.getD 0
  match args.requestedSize, args.text.bind TextArg.text, args.img.join with
  | some requestedSize, _, _ => requestedSize
  | none, some text, _ =>
      let size := Hardware.hwTextComputeSize text (args.textFont.getD Hardware.eiDefaultFont)
      ⟨size.width + 2 * borderWidth, size.height + 2 * borderWidth⟩
  | none, none, some img =>
      ⟨img.size.width + 2 * borderWidth, img.size.height + 2 * borderWidth⟩
  | none, none, none => ⟨0, 0⟩

/-- The content area after the border width is configured: a rectangle of its own is allocated
anew, and is zero until the next notification. -/
def configuredContent (w : Widget) (borderWidth : Option ℤ) : ContentRect :=
  match borderWidth, w.contentRect with
  | none, contentRect => contentRect
  | some _, .screenLocation => .screenLocation
  | some _, .own _ => .own eiRectZero

/-- The size of `ei_widget_text_t`. -/
def widgetTextSize : ℕ := 40

/-- The text and the image: at most one of them may be given, the other one is cleared. The string
is copied into forty bytes whatever its length; the copy of an image has its pixels. The rectangle
of an image is read with the image only. -/
def configureTextImg (a : FrameAttrs) (args : LabelArgs) : Option FrameAttrs :=
  match args.text, args.img with
  | some _, some _ => none
  | some arg, none =>
      if arg.pointerLength < widgetTextSize then
        match arg.text with
        | some text =>
            if text.length < widgetTextSize then some { a with text := some text, img := none }
            else none
        | none => some { a with text := none, img := none }
      else some a
  | none, some (some img) =>
      match args.imgRect with
      | none => some { a with img := some img, text := none }
      | some none => none
      | some (some imgRect) =>
          some { a with img := some img, imgRect := some imgRect, text := none }
  | none, some none => some { a with img := none, text := none }
  | none, none => some a

/-- The assignments that the two functions share. -/
def configureLabel (a : FrameAttrs) (args : LabelArgs) : Option FrameAttrs := do
  let a ← configureTextImg a args
  some { a with
    color := args.color.getD a.color
    relief := args.relief.getD a.relief
    borderWidth := args.borderWidth.getD a.borderWidth
    textFont := args.textFont.getD a.textFont
    textColor := args.textColor.getD a.textColor
    textAnchor := args.textAnchor.getD a.textAnchor
    imgAnchor := args.imgAnchor.getD a.imgAnchor }

/-- Only the text, the image and its rectangle are written. -/
theorem configureTextImg_writes {a a' : FrameAttrs} {args : LabelArgs}
    (h : configureTextImg a args = some a') :
    a' = { a with text := a'.text, img := a'.img, imgRect := a'.imgRect } := by
  rw [configureTextImg] at h
  split at h
  · simp at h
  · split_ifs at h
    · split at h
      · split_ifs at h
        exact Option.some.inj h ▸ rfl
      · exact Option.some.inj h ▸ rfl
    · exact Option.some.inj h ▸ rfl
  · split at h
    · exact Option.some.inj h ▸ rfl
    · simp at h
    · exact Option.some.inj h ▸ rfl
  · exact Option.some.inj h ▸ rfl
  · exact Option.some.inj h ▸ rfl

/-- The relief after the assignments. -/
theorem relief_configureLabel {a label : FrameAttrs} {args : LabelArgs}
    (h : configureLabel a args = some label) : label.relief = args.relief.getD a.relief := by
  obtain ⟨a', ha', h⟩ := Option.bind_eq_some_iff.mp h
  have hrelief : a'.relief = a.relief := by rw [configureTextImg_writes ha']
  exact Option.some.inj h ▸ congrArg args.relief.getD hrelief

/-- The border width after the assignments. -/
theorem borderWidth_configureLabel {a label : FrameAttrs} {args : LabelArgs}
    (h : configureLabel a args = some label) :
    label.borderWidth = args.borderWidth.getD a.borderWidth := by
  obtain ⟨a', ha', h⟩ := Option.bind_eq_some_iff.mp h
  have hborder : a'.borderWidth = a.borderWidth := by rw [configureTextImg_writes ha']
  exact Option.some.inj h ▸ congrArg args.borderWidth.getD hborder

/-- The same assignments for a button. A button that shows an image frees its copy before it writes
the copy of the new one through the freed pointer. -/
def configureButtonLabel (a : FrameAttrs) (args : LabelArgs) : Option FrameAttrs :=
  if args.text.isNone ∧ a.img.isSome ∧ args.img.join.isSome then none else configureLabel a args

theorem configureButtonLabel_eq_some {a label : FrameAttrs} {args : LabelArgs} :
    configureButtonLabel a args = some label ↔
      ¬ (args.text.isNone ∧ a.img.isSome ∧ args.img.join.isSome) ∧
        configureLabel a args = some label := by
  rw [configureButtonLabel]
  split_ifs with h
  · exact iff_of_false (by simp) fun h' => h'.1 h
  · exact (and_iff_right h).symm

/-- The end of the three configure functions: runs the placer on a mapped widget and invalidates
its location. -/
def refresh (s : AppState) (p : Ptr) : Option AppState := do
  let w ← s.widgets p
  if w.geomParams.isSome then
    let s ← runplacer s p
    let w ← s.widgets p
    (eiAppInvalidateRect s (extendRect w.screenLocation)).map Prod.fst
  else some s

namespace Widget

/-- The widget with a new requested size, content area and attributes. -/
def reconfigure (w : Widget) (requestedSize : Size) (contentRect : ContentRect) (attrs : Attrs) :
    Widget :=
  { w with requestedSize := requestedSize, contentRect := contentRect, attrs := attrs }

theorem node_reconfigure (w : Widget) (requestedSize : Size) (contentRect : ContentRect)
    {attrs : Attrs} (h : attrs.nodeClass = w.attrs.nodeClass) :
    (w.reconfigure requestedSize contentRect attrs).node = w.node := by
  rw [node, node, reconfigure, h]

end Widget

variable [Hardware]

/-- `ei_frame_configure`. -/
def eiFrameConfigure (s : AppState) (p : Ptr) (args : LabelArgs) : Option AppState := do
  let w ← s.widgets p
  match w.attrs with
  | .frame a =>
      let a ← configureLabel a args
      refresh (s.setWidget p (w.reconfigure (configuredSize args)
        (configuredContent w args.borderWidth) (.frame a))) p
  | .button _ | .toplevel _ => none

/-- `ei_button_configure`. The special parameters of the buttons of toplevels are reset. -/
def eiButtonConfigure (s : AppState) (p : Ptr) (args : ButtonArgs) : Option AppState := do
  let w ← s.widgets p
  match w.attrs with
  | .button a =>
      let label ← configureButtonLabel a.toFrameAttrs args.toLabelArgs
      let a : ButtonAttrs :=
        { label with
          cornerRadius := args.cornerRadius.getD a.cornerRadius
          callback := args.callback.orElse fun _ => a.callback
          userParam := args.userParam.orElse fun _ => a.userParam
          noClipping := false
          isQuitButton := false
          isResizeButton := false }
      refresh (s.setWidget p (w.reconfigure (configuredSize args.toLabelArgs)
        (configuredContent w args.borderWidth) (.button a))) p
  | .frame _ | .toplevel _ => none

omit [Hardware] in
theorem skeleton_refresh {s s' : AppState} {p : Ptr} (h : refresh s p = some s') :
    s'.skeleton = s.skeleton := by
  simp only [refresh, Option.bind_eq_bind, Option.bind_eq_some_iff] at h
  obtain ⟨w, hw, h⟩ := h
  split_ifs at h
  · simp only [Option.bind_eq_some_iff, Option.map_eq_some_iff, Prod.exists] at h
    obtain ⟨s₁, h₁, w₁, -, s₂, r, h₂, rfl⟩ := h
    rw [(eiAppInvalidateRect_frame h₂).2, skeleton_runplacer h₁]
  · rw [Option.some.inj h]

theorem skeleton_eiFrameConfigure {s s' : AppState} {p : Ptr} {args : LabelArgs}
    (h : eiFrameConfigure s p args = some s') : s'.skeleton = s.skeleton := by
  simp only [eiFrameConfigure, Option.bind_eq_bind, Option.bind_eq_some_iff] at h
  obtain ⟨w, hw, h⟩ := h
  cases ha : w.attrs with
  | frame a =>
    simp only [ha, Option.bind_eq_some_iff] at h
    obtain ⟨a', -, h⟩ := h
    rw [skeleton_refresh h,
      AppState.skeleton_setWidget hw (w.node_reconfigure _ _ (by rw [ha, Attrs.nodeClass]; rfl))]
  | button a => simp [ha] at h
  | toplevel a => simp [ha] at h

/-- Configuring a plain button without callback keeps the skeleton. -/
theorem skeleton_eiButtonConfigure {s s' : AppState} {p : Ptr} {w : Widget} {args : ButtonArgs}
    (hw : s.widgets p = some w) (hplain : w.attrs.nodeClass = .button false false none)
    (hcallback : args.callback = none) (h : eiButtonConfigure s p args = some s') :
    s'.skeleton = s.skeleton := by
  simp only [eiButtonConfigure, hw, Option.bind_eq_bind, Option.bind_some] at h
  cases ha : w.attrs with
  | frame a => simp [ha] at h
  | button a =>
    simp only [ha, Option.bind_eq_some_iff] at h
    obtain ⟨label, -, h⟩ := h
    rw [ha, Attrs.nodeClass, NodeClass.button.injEq] at hplain
    rw [skeleton_refresh h, AppState.skeleton_setWidget hw (w.node_reconfigure _ _ ?_)]
    simp [ha, Attrs.nodeClass, hcallback, hplain]
  | toplevel a => simp [ha] at h

end GuiLibrary

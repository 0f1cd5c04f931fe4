import GuiLibrary.Data.Leaks
import GuiLibrary.Ownership

/-!
# The memory of frames and toplevels

The attributes of a frame and of a toplevel are pointers to cells, like those of a button. A frame
writes an image into the cell that it has, so that its attributes are never misused; but it forgets
cells: its content area when a border width is given, the text when `NULL` or an image takes its
place, and the image when `NULL` or a text takes its place. `releaseframe` gives back all the memory
of a frame exactly when no call has forgotten a cell. A toplevel never forgets one.

## Main definitions

* `FrameMemory`, with `setdefaultsframe`, `eiFrameConfigure`, `geomnotifyframe`, `releaseframe`.
* `ToplevelMemory`, with `setdefaultstoplevel`, `eiToplevelConfigure`, `geomnotifytoplevel`,
  `quitToplevelEvent`, `releasetoplevel`.
* `FrameMemory.Forgets`: a call forgets a cell.

## Main results

* `frame_restores_iff`, `toplevel_restores`: what the release gives back after any calls.
-/

namespace GuiLibrary

open Slots

/-! ### Frames -/

/-- The pointers of `ei_frame_t`, and `content_rect`, which is null here while it points to the
location in the widget itself. -/
inductive FrameSlot where
  | color | borderWidth | relief | text | textFont | textColor | textAnchor | img | imgRect
  | imgAnchor | contentRect
deriving DecidableEq

/-- A heap and the pointers of a frame. The cells contain what those of a button contain. -/
abbrev FrameMemory := Memory FrameSlot ButtonValue

namespace FrameMemory

/-- `allocframe`: every pointer of the record is null. -/
def allocframe (heap : Heap ButtonValue) : FrameMemory := ⟨heap, fun _ => none, []⟩

/-- The border width in `ei_frame_configure`. A content area of its own is allocated anew and the
old one is forgotten. -/
def configureBorderWidth (m : FrameMemory) (borderWidth : Option ℤ) : FrameMemory :=
  match borderWidth with
  | some borderWidth =>
      let m := m.store .borderWidth (.int borderWidth)
      if m.slot .contentRect = none then m else m.malloc .contentRect (.rect eiRectZero)
  | none =>
      if m.slot .borderWidth = none then (m.malloc .borderWidth (.int 0)).null .contentRect
      else m

/-- The image and its rectangle in `ei_frame_configure`: the cells that are there are written. -/
def configureImg (m : FrameMemory) (img : Surface) (imgRect : Option (Option Rect)) :
    FrameMemory :=
  let m := m.ensure .img (.surface img)
  match imgRect with
  | none => m
  | some none => m.fault .null
  | some (some imgRect) => m.ensure .imgRect (.rect imgRect)

/-- The text and the image in `ei_frame_configure`, one of which is not given. -/
def configureTextImg (m : FrameMemory) (args : LabelArgs) : FrameMemory :=
  match args.text, args.img with
  | some arg, _ =>
      if arg.pointerLength < widgetTextSize then
        match arg.text with
        | some text => ((m.free .text).malloc .text (.text text)).null .img
        | none => (m.null .text).null .img
      else m
  | none, some (some img) => (configureImg m img args.imgRect).null .text
  | none, some none => (m.null .img).null .text
  | none, none => m

/-- `geomnotifyframe`: a frame without border keeps the content area that it has. -/
def geomnotifyframe (m : FrameMemory) (screenLocation : Rect) : FrameMemory :=
  match m.read .borderWidth with
  | some (.int borderWidth) =>
      if borderWidth ≠ 0 then
        m.ensure .contentRect (.rect (insetRect screenLocation borderWidth))
      else m
  | _ => m

/-- `releaseframe`: the cell of the colour is released when there is one for the relief. -/
def releaseframe (m : FrameMemory) : FrameMemory :=
  let m := m.freeAll [.borderWidth, .relief]
  let m : FrameMemory := if m.slot .relief = none then m else m.free .color
  m.freeAll [.contentRect, .text, .textFont, .textColor, .textAnchor, .img, .imgRect, .imgAnchor]

variable [Hardware]

/-- `setdefaultsframe`. -/
def setdefaultsframe (m : FrameMemory) : FrameMemory :=
  let m := m.ensure .color (.color eiDefaultBackgroundColor)
  let m := m.ensure .relief (.relief .none)
  let m := m.ensure .borderWidth (.int 0)
  let m := m.null .contentRect
  let m := m.null .text
  let m := m.ensure .textFont (.font Hardware.eiDefaultFont)
  let m := m.ensure .textColor (.color eiFontDefaultColor)
  let m := m.ensure .textAnchor (.anchor .center)
  let m := (m.free .img).null .img
  let m := (m.free .imgRect).null .imgRect
  m.ensure .imgAnchor (.anchor .center)

/-- The assignments of `ei_frame_configure` before the text and the image. -/
def configureFirst (m : FrameMemory) (args : LabelArgs) : FrameMemory :=
  let m := m.assign .color (args.color.map .color) (.color eiDefaultBackgroundColor)
  let m := m.assign .relief (args.relief.map .relief) (.relief .none)
  configureBorderWidth m args.borderWidth

/-- The assignments after the text and the image. -/
def configureLast (m : FrameMemory) (args : LabelArgs) : FrameMemory :=
  let m := m.assign .textFont (args.textFont.map .font) (.font Hardware.eiDefaultFont)
  let m := m.assign .textColor (args.textColor.map .color) (.color eiFontDefaultColor)
  let m := m.assign .textAnchor (args.textAnchor.map .anchor) (.anchor .center)
  m.assign .imgAnchor (args.imgAnchor.map .anchor) (.anchor .center)

/-- `ei_frame_configure`, up to the run of the placer. The program exits when a text and an image
are given at once. -/
def eiFrameConfigure (m : FrameMemory) (args : LabelArgs) : Option FrameMemory :=
  if args.text.isSome ∧ args.img.isSome then none
  else some (configureLast (configureTextImg (configureFirst m args) args) args)

end FrameMemory

/-- A configuration of a frame, or a notification of the placer. -/
inductive FrameCall where
  | configure (args : LabelArgs)
  | geomnotify (screenLocation : Rect)

namespace FrameMemory

/-- One call. -/
def step [Hardware] (m : FrameMemory) : FrameCall → Option FrameMemory
  | .configure args => eiFrameConfigure m args
  | .geomnotify screenLocation => some (geomnotifyframe m screenLocation)

/-- The calls, on a new frame. -/
def run [Hardware] (heap : Heap ButtonValue) (ops : List FrameCall) : Option FrameMemory :=
  ops.foldlM step (setdefaultsframe (allocframe heap))

/-- The text and the image of a configuration forget a cell. -/
def ForgetsContent (m : FrameMemory) (args : LabelArgs) : Prop :=
  match args.text, args.img with
  | some arg, _ => arg.pointerLength < widgetTextSize ∧
      (arg.text = none ∧ m.slot .text ≠ none ∨ m.slot .img ≠ none)
  | none, some (some _) => m.slot .text ≠ none
  | none, some none => m.slot .img ≠ none ∨ m.slot .text ≠ none
  | none, none => False

/-- **A call forgets a cell**: a border width is given to a frame with a content area of its own, or
the text or the image is replaced. -/
def Forgets (m : FrameMemory) : FrameCall → Prop
  | .configure args =>
      args.borderWidth.isSome ∧ m.slot .contentRect ≠ none ∨ m.ForgetsContent args
  | .geomnotify _ => False

/-- The attributes that a frame always has. -/
def Always (x : FrameSlot) : Prop := x ∉ [.text, .img, .imgRect, .contentRect]

/-! ### What a call keeps -/

section Calls

variable {heap : Heap ButtonValue} {m : FrameMemory}

theorem kept_configureBorderWidth (h : m.Kept Always heap) (borderWidth : Option ℤ) :
    (configureBorderWidth m borderWidth).Kept Always heap := by
  cases borderWidth with
  | some borderWidth =>
    have hstore := h.store .borderWidth (.int borderWidth)
    simp only [configureBorderWidth]
    split_ifs
    · exact hstore
    · exact hstore.malloc _ _
  | none =>
    rw [configureBorderWidth, if_neg (h.filled _ (by simp [Always]))]
    exact h

theorem leaks_configureBorderWidth (h : m.Kept Always heap) (borderWidth : Option ℤ) :
    (configureBorderWidth m borderWidth).Leaks heap ↔
      m.Leaks heap ∨ borderWidth.isSome ∧ m.slot .contentRect ≠ none := by
  cases borderWidth with
  | some borderWidth =>
    simp only [configureBorderWidth, Memory.slot_store]
    split_ifs with hx
    · rw [Memory.leaks_store_iff]
      simp [hx]
    · rw [Memory.leaks_malloc_iff (h.store _ _).owned, Memory.leaks_store_iff, Memory.slot_store]
      simp
  | none =>
    rw [configureBorderWidth, if_neg (h.filled _ (by simp [Always]))]
    simp

/-- The border width leaves the text and the image alone. -/
theorem slot_configureBorderWidth {x : FrameSlot} (hx : x ≠ .borderWidth) (hx' : x ≠ .contentRect)
    (borderWidth : Option ℤ) : (configureBorderWidth m borderWidth).slot x = m.slot x := by
  cases borderWidth with
  | some borderWidth =>
    simp only [configureBorderWidth]
    split_ifs
    · rw [Memory.slot_store]
    · rw [Memory.slot_malloc_of_ne _ _ hx', Memory.slot_store]
  | none =>
    rw [configureBorderWidth]
    split_ifs
    · rw [Memory.slot_null_of_ne _ hx', Memory.slot_malloc_of_ne _ _ hx]
    · rfl

theorem kept_configureImg (h : m.Kept Always heap) (img : Surface)
    (imgRect : Option (Option Rect)) : (configureImg m img imgRect).Kept Always heap := by
  have himg := h.ensure .img (.surface img)
  cases imgRect with
  | none => exact himg
  | some imgRect =>
    cases imgRect with
    | none => exact himg.fault_null
    | some imgRect => exact himg.ensure _ _

theorem leaks_configureImg (h : m.Kept Always heap) (img : Surface)
    (imgRect : Option (Option Rect)) :
    (configureImg m img imgRect).Leaks heap ↔ m.Leaks heap := by
  have himg := h.ensure .img (.surface img)
  cases imgRect with
  | none => exact Memory.leaks_ensure_iff h.owned
  | some imgRect =>
    cases imgRect with
    | none => exact (Memory.leaks_fault_iff _).trans (Memory.leaks_ensure_iff h.owned)
    | some imgRect =>
      exact (Memory.leaks_ensure_iff himg.owned).trans (Memory.leaks_ensure_iff h.owned)

theorem slot_text_configureImg (img : Surface) (imgRect : Option (Option Rect)) :
    (configureImg m img imgRect).slot .text = m.slot .text := by
  have himg : (m.ensure .img (.surface img)).slot .text = m.slot .text :=
    Memory.slot_ensure_of_ne (by decide)
  cases imgRect with
  | none => exact himg
  | some imgRect =>
    cases imgRect with
    | none => exact himg
    | some imgRect => exact (Memory.slot_ensure_of_ne (by decide)).trans himg

/-- **The text and the image** keep the ownership, and lose what they forget. -/
theorem kept_configureTextImg (h : m.Kept Always heap) (args : LabelArgs) :
    (configureTextImg m args).Kept Always heap := by
  have htext : ¬ Always .text := by simp [Always]
  have himg : ¬ Always .img := by simp [Always]
  rw [configureTextImg]
  split
  · split_ifs
    · split
      · exact (h.free_malloc _ _).null himg
      · exact (h.null htext).null himg
    · exact h
  · exact (kept_configureImg h _ _).null htext
  · exact (h.null himg).null htext
  · exact h

theorem leaks_configureTextImg (h : m.Kept Always heap) (args : LabelArgs) :
    (configureTextImg m args).Leaks heap ↔ m.Leaks heap ∨ m.ForgetsContent args := by
  have htext : ¬ Always .text := by simp [Always]
  have himg : ¬ Always .img := by simp [Always]
  rw [configureTextImg, ForgetsContent]
  split
  · next img arg _ =>
    split_ifs with hlength
    · cases harg : arg.text with
      | some text =>
        rw [Memory.leaks_null_iff (h.free_malloc _ _).owned, Memory.leaks_free_malloc_iff h.owned,
          Memory.slot_malloc_of_ne _ _ (by decide), Memory.slot_free]
        simp [hlength]
      | none =>
        rw [Memory.leaks_null_iff (h.null htext).owned, Memory.leaks_null_iff h.owned,
          Memory.slot_null_of_ne _ (by decide), or_assoc]
        simp [hlength]
    · simp [hlength]
  · rw [Memory.leaks_null_iff (kept_configureImg h _ _).owned, leaks_configureImg h,
      slot_text_configureImg]
  · rw [Memory.leaks_null_iff (h.null himg).owned, Memory.leaks_null_iff h.owned,
      Memory.slot_null_of_ne _ (by decide), or_assoc]
  · simp

theorem kept_geomnotifyframe (h : m.Kept Always heap) (screenLocation : Rect) :
    (geomnotifyframe m screenLocation).Kept Always heap := by
  rw [geomnotifyframe]
  split
  · split_ifs
    · exact h.ensure _ _
    · exact h
  · exact h

theorem leaks_geomnotifyframe (h : m.Kept Always heap) (screenLocation : Rect) :
    (geomnotifyframe m screenLocation).Leaks heap ↔ m.Leaks heap := by
  rw [geomnotifyframe]
  split
  · split_ifs
    · exact Memory.leaks_ensure_iff h.owned
    · rfl
  · rfl

/-! ### Whole runs -/

variable [Hardware]

omit [Hardware] in
theorem kept_configureFirst (h : m.Kept Always heap) (args : LabelArgs) :
    (configureFirst m args).Kept Always heap :=
  kept_configureBorderWidth ((h.assign _ _ _).assign _ _ _) _

omit [Hardware] in
theorem leaks_configureFirst (h : m.Kept Always heap) (args : LabelArgs) :
    (configureFirst m args).Leaks heap ↔
      m.Leaks heap ∨ args.borderWidth.isSome ∧ m.slot .contentRect ≠ none := by
  have hcolor := h.assign .color (args.color.map .color) (.color eiDefaultBackgroundColor)
  have hrelief := hcolor.assign .relief (args.relief.map .relief) (.relief .none)
  rw [configureFirst, leaks_configureBorderWidth hrelief, Memory.leaks_assign_iff hcolor.owned,
    Memory.leaks_assign_iff h.owned, Memory.slot_assign_of_ne (by decide),
    Memory.slot_assign_of_ne (by decide)]

omit [Hardware] in
theorem slot_configureFirst {x : FrameSlot} (hx : x = .text ∨ x = .img) (args : LabelArgs) :
    (configureFirst m args).slot x = m.slot x := by
  rcases hx with rfl | rfl
  all_goals
    rw [configureFirst, slot_configureBorderWidth (by decide) (by decide),
      Memory.slot_assign_of_ne (by decide), Memory.slot_assign_of_ne (by decide)]

omit [Hardware] in
theorem forgetsContent_configureFirst (args args' : LabelArgs) :
    (configureFirst m args').ForgetsContent args ↔ m.ForgetsContent args := by
  rw [ForgetsContent, ForgetsContent, slot_configureFirst (Or.inl rfl),
    slot_configureFirst (Or.inr rfl)]

theorem kept_configureLast (h : m.Kept Always heap) (args : LabelArgs) :
    (configureLast m args).Kept Always heap :=
  (((h.assign _ _ _).assign _ _ _).assign _ _ _).assign _ _ _

theorem leaks_configureLast (h : m.Kept Always heap) (args : LabelArgs) :
    (configureLast m args).Leaks heap ↔ m.Leaks heap := by
  have hfont := h.assign .textFont (args.textFont.map .font) (.font Hardware.eiDefaultFont)
  have hcolor := hfont.assign .textColor (args.textColor.map .color) (.color eiFontDefaultColor)
  have hanchor := hcolor.assign .textAnchor (args.textAnchor.map .anchor) (.anchor .center)
  rw [configureLast, Memory.leaks_assign_iff hanchor.owned, Memory.leaks_assign_iff hcolor.owned,
    Memory.leaks_assign_iff hfont.owned, Memory.leaks_assign_iff h.owned]

/-- **One call** keeps the ownership, and loses a cell exactly when it forgets one. -/
theorem kept_step {m' : FrameMemory} {op : FrameCall} (h : m.Kept Always heap)
    (hrun : step m op = some m') :
    m'.Kept Always heap ∧ (m'.Leaks heap ↔ m.Leaks heap ∨ m.Forgets op) := by
  cases op with
  | configure args =>
    rw [step, eiFrameConfigure] at hrun
    split_ifs at hrun
    obtain rfl := Option.some.inj hrun
    have hfirst := kept_configureFirst h args
    have htext := kept_configureTextImg hfirst args
    refine ⟨kept_configureLast htext args, ?_⟩
    rw [leaks_configureLast htext, leaks_configureTextImg hfirst, leaks_configureFirst h,
      forgetsContent_configureFirst, Forgets, or_assoc]
  | geomnotify screenLocation =>
    obtain rfl := Option.some.inj hrun
    refine ⟨kept_geomnotifyframe h screenLocation, ?_⟩
    rw [leaks_geomnotifyframe h, Forgets, or_false]

/-- A new frame has its cells, and has lost none. -/
theorem start (heap : Heap ButtonValue) :
    (setdefaultsframe (allocframe heap)).Kept Always heap ∧
      ¬ (setdefaultsframe (allocframe heap)).Leaks heap := by
  let D : FrameSlot → Prop := fun _ => False
  have h₀ : (allocframe heap).Kept D heap := Memory.sound_start heap
  have h₁ := ((h₀.ensure .color (.color eiDefaultBackgroundColor)).ensure .relief
    (.relief .none)).ensure .borderWidth (.int 0)
  have h₂ := (h₁.null (x := .contentRect) id).null (x := .text) id
  have h₃ := ((h₂.ensure .textFont (.font Hardware.eiDefaultFont)).ensure .textColor
    (.color eiFontDefaultColor)).ensure .textAnchor (.anchor .center)
  have h₄ := (h₃.free_null (x := .img) id).free_null (x := .imgRect) id
  have h₅ := h₄.ensure .imgAnchor (.anchor .center)
  refine ⟨⟨h₅.owned, h₅.noMisuse, fun x hx => ?_⟩, ?_⟩
  · cases x with
    | text | img | imgRect | contentRect => simp [Always] at hx
    | color | borderWidth | relief | textFont | textColor | textAnchor | imgAnchor =>
      simp (disch := decide) only [setdefaultsframe, Memory.slot_ensure_of_ne,
        Memory.slot_null_of_ne, Memory.slot_free]
      exact Memory.slot_ensure_ne_none
  · rw [setdefaultsframe, Memory.leaks_ensure_iff h₄.owned,
      Memory.leaks_free_null_iff (h₃.free_null (x := .img) id).owned,
      Memory.leaks_free_null_iff h₃.owned,
      Memory.leaks_ensure_iff ((h₂.ensure _ _).ensure _ _).owned,
      Memory.leaks_ensure_iff (h₂.ensure _ _).owned, Memory.leaks_ensure_iff h₂.owned,
      Memory.leaks_null_iff (h₁.null (x := .contentRect) id).owned,
      Memory.leaks_null_iff h₁.owned, Memory.leaks_ensure_iff ((h₀.ensure _ _).ensure _ _).owned,
      Memory.leaks_ensure_iff (h₀.ensure _ _).owned, Memory.leaks_ensure_iff h₀.owned]
    simp (disch := decide) only [Memory.slot_ensure_of_ne, Memory.slot_null_of_ne]
    simpa [allocframe] using Memory.not_leaks_start heap

/-- The order of `releaseframe`. -/
def releaseOrder : List FrameSlot :=
  [.borderWidth, .relief, .color, .contentRect, .text, .textFont, .textColor, .textAnchor, .img,
    .imgRect, .imgAnchor]

omit [Hardware] in
theorem releaseframe_eq (h : m.Kept Always heap) : releaseframe m = m.freeAll releaseOrder := by
  have hrelief : (m.freeAll [.borderWidth, .relief]).slot .relief ≠ none := by
    simp only [Memory.freeAll, List.foldl_cons, List.foldl_nil, Memory.slot_free]
    exact h.filled _ (by simp [Always])
  rw [releaseframe, if_neg hrelief]
  rfl

end Calls

/-- **The memory of a frame.** After any calls, the release of a frame releases no cell twice, and
the cells that were there before the frame are as they were. It gives back all the memory of the
frame exactly when no call has forgotten a cell. -/
theorem frame_restores_iff [Hardware] (heap : Heap ButtonValue) (ops : List FrameCall)
    (m : FrameMemory) (hrun : run heap ops = some m) :
    (releaseframe m).NoMisuse ∧
    (∀ i < heap.next, (releaseframe m).heap.cell i = heap.cell i) ∧
    ((∀ i, (releaseframe m).heap.cell i = heap.cell i) ↔
      ∀ pre op post m₁, ops = pre ++ op :: post → run heap pre = some m₁ → ¬ m₁.Forgets op) := by
  obtain ⟨hstart, hnone⟩ := start heap
  obtain ⟨hm, hleaks⟩ := foldlM_iff (K := fun m : FrameMemory => m.Kept Always heap)
    (L := fun m => m.Leaks heap) (fun hm hstep => kept_step hm hstep) ops hstart hrun
  have hnodup : releaseOrder.Nodup := by decide
  have hall : ∀ x, x ∈ releaseOrder := fun x => by cases x <;> decide
  rw [releaseframe_eq hm]
  refine ⟨(Memory.noMisuse_freeAll hnodup (fun x _ => hm.owned.allocated x) hm.owned.alone
    hm.noMisuse).1, fun i hi => hm.owned.cell_freeAll releaseOrder hi, ?_⟩
  rw [Memory.restores_iff hnodup hall hm.owned hm.noMisuse, hleaks, or_iff_right hnone]
  constructor
  · exact fun h pre op post m₁ hops h₁ hforgets => h ⟨pre, op, post, m₁, hops, h₁, hforgets⟩
  · rintro h ⟨pre, op, post, m₁, hops, h₁, hforgets⟩
    exact h pre op post m₁ hops h₁ hforgets

section Sample

attribute [local instance] sampleHardware

/-- A border, and then another one while the frame has a content area of its own. -/
def twoBorders : List FrameCall :=
  [.configure { borderWidth := some 2 }, .geomnotify ⟨⟨0, 0⟩, ⟨40, 30⟩⟩,
    .configure { borderWidth := some 3 }]

theorem frame_restores_iff_twoBorders : ∃ m, run ButtonMemory.sampleHeap twoBorders = some m ∧
    (releaseframe m).NoMisuse ∧
    (∀ i < ButtonMemory.sampleHeap.next,
      (releaseframe m).heap.cell i = ButtonMemory.sampleHeap.cell i) ∧
    ((∀ i, (releaseframe m).heap.cell i = ButtonMemory.sampleHeap.cell i) ↔
      ∀ pre op post m₁, twoBorders = pre ++ op :: post → run ButtonMemory.sampleHeap pre = some m₁ →
        ¬ m₁.Forgets op) :=
  ⟨_, rfl, frame_restores_iff ButtonMemory.sampleHeap twoBorders _ rfl⟩

end Sample

end FrameMemory

/-! ### Toplevels -/

/-- The pointers of `ei_toplevel_t`, and `content_rect`, which is null here while it points to the
location in the widget itself. -/
inductive ToplevelSlot where
  | title | titleFont | borderWidth | backgroundColor | closable | resizable | minSize | drawRect
  | contentRect
deriving DecidableEq

/-- What the cells contain. -/
inductive ToplevelValue where
  | int (i : ℤ)
  | color (color : Color)
  | title (title : Option Text)
  | font (font : Font)
  | bool (b : Bool)
  | axes (axes : AxisSet)
  | size (size : Size)
  | rect (rect : Rect)

/-- A heap and the pointers of a toplevel. -/
abbrev ToplevelMemory := Memory ToplevelSlot ToplevelValue

namespace ToplevelMemory

/-- `alloctoplevel`: every pointer of the record is null. -/
def alloctoplevel (heap : Heap ToplevelValue) : ToplevelMemory := ⟨heap, fun _ => none, []⟩

/-- `geomnotifytoplevel`. -/
def geomnotifytoplevel (m : ToplevelMemory) (screenLocation : Rect) : ToplevelMemory :=
  match m.read .borderWidth with
  | some (.int borderWidth) =>
      let m := m.ensure .contentRect (.rect (toplevelContent screenLocation borderWidth))
      m.ensure .drawRect (.rect (toplevelDrawRect screenLocation borderWidth))
  | _ => m.fault .null

/-- `quit_toplevel_event`: the painted rectangle is cut at the window. -/
def quitToplevelEvent (m : ToplevelMemory) (window : Size) : ToplevelMemory :=
  match m.read .drawRect with
  | some (.rect rect) => m.store .drawRect (.rect (normalizeRect rect window))
  | _ => m

/-- The minimum size in `ei_toplevel_configure`, a pointer to a pointer. -/
def configureMinSize (m : ToplevelMemory) (minSize : Option (Option Size)) : ToplevelMemory :=
  match minSize with
  | none => m.assign .minSize none (.size ⟨160, 120⟩)
  | some none => m.fault .null
  | some (some minSize) => m.assign .minSize (some (.size minSize)) (.size ⟨160, 120⟩)

/-- The title of a toplevel that is not given one. -/
def defaultTitle : ToplevelValue := .title (some "Toplevel".toUTF8.toList)

/-- The order of `releasetoplevel`. -/
def releaseOrder : List ToplevelSlot :=
  [.title, .titleFont, .borderWidth, .backgroundColor, .contentRect, .closable, .resizable,
    .minSize, .drawRect]

/-- `releasetoplevel`. -/
def releasetoplevel (m : ToplevelMemory) : ToplevelMemory := m.freeAll releaseOrder

variable [Hardware]

/-- `if(draw_rect == NULL) draw_rect = malloc(..)`: the cell has the value that it happens to
have. -/
def reserveDrawRect (m : ToplevelMemory) : ToplevelMemory :=
  if m.slot .drawRect = none then m.malloc .drawRect (.rect Hardware.mallocRect) else m

/-- `setdefaultstoplevel` on the record of the toplevel. -/
def setdefaultstoplevel (m : ToplevelMemory) : ToplevelMemory :=
  let m := m.null .contentRect
  let m := (m.free .title).malloc .title defaultTitle
  let m := m.ensure .titleFont (.font Hardware.eiDefaultFont)
  let m := reserveDrawRect m
  let m := m.ensure .borderWidth (.int 4)
  let m := m.ensure .backgroundColor (.color eiDefaultBackgroundColor)
  let m := m.ensure .closable (.bool true)
  let m := m.ensure .resizable (.axes .both)
  let m := m.ensure .minSize (.size ⟨160, 120⟩)
  m.null .contentRect

/-- `ei_toplevel_configure` on the record of the toplevel, up to the run of the placer. -/
def eiToplevelConfigure (m : ToplevelMemory) (args : ToplevelArgs) : ToplevelMemory :=
  let m := m.assign .backgroundColor (args.color.map .color) (.color eiDefaultBackgroundColor)
  let m := m.assign .borderWidth (args.borderWidth.map .int) (.int 4)
  let m : ToplevelMemory :=
    match args.title with
    | none => m.assign .title none defaultTitle
    | some title => (m.free .title).malloc .title (.title title)
  let m := m.assign .titleFont none (.font Hardware.eiDefaultFont)
  let m := m.assign .closable (args.closable.map .bool) (.bool true)
  let m := m.assign .resizable (args.resizable.map .axes) (.axes .both)
  configureMinSize m args.minSize

end ToplevelMemory

/-- A configuration of a toplevel, a notification of the placer, or a click on its quit button. -/
inductive ToplevelCall where
  | configure (args : ToplevelArgs)
  | geomnotify (screenLocation : Rect)
  | quit (window : Size)

namespace ToplevelMemory

/-- One call. -/
def step [Hardware] (m : ToplevelMemory) : ToplevelCall → ToplevelMemory
  | .configure args => eiToplevelConfigure m args
  | .geomnotify screenLocation => geomnotifytoplevel m screenLocation
  | .quit window => quitToplevelEvent m window

/-- The calls, on a new toplevel. -/
def run [Hardware] (heap : Heap ToplevelValue) (ops : List ToplevelCall) : ToplevelMemory :=
  ops.foldl step (setdefaultstoplevel (alloctoplevel heap))

/-- The slots own their cells, nothing has been misused, and no cell is lost. -/
structure Complete (heap : Heap ToplevelValue) (m : ToplevelMemory) : Prop where
  sound : m.Sound heap
  complete : ¬ m.Leaks heap

namespace Complete

variable {heap : Heap ToplevelValue} {m : ToplevelMemory}

theorem store (h : Complete heap m) (x : ToplevelSlot) (v : ToplevelValue) :
    Complete heap (m.store x v) :=
  ⟨h.sound.store x v, fun hl => h.complete (Memory.leaks_store_iff.mp hl)⟩

theorem fault_null (h : Complete heap m) : Complete heap (m.fault .null) :=
  ⟨h.sound.fault_null, h.complete⟩

theorem ensure (h : Complete heap m) (x : ToplevelSlot) (v : ToplevelValue) :
    Complete heap (m.ensure x v) :=
  ⟨h.sound.ensure x v, fun hl => h.complete ((Memory.leaks_ensure_iff h.sound.owned).mp hl)⟩

theorem assign (h : Complete heap m) (x : ToplevelSlot) (given : Option ToplevelValue)
    (default : ToplevelValue) : Complete heap (m.assign x given default) :=
  ⟨h.sound.assign x given default,
    fun hl => h.complete ((Memory.leaks_assign_iff h.sound.owned).mp hl)⟩

theorem free_malloc (h : Complete heap m) (x : ToplevelSlot) (v : ToplevelValue) :
    Complete heap ((m.free x).malloc x v) :=
  ⟨h.sound.free_malloc x v,
    fun hl => h.complete ((Memory.leaks_free_malloc_iff h.sound.owned).mp hl)⟩

/-- A slot that is null already may be cleared. -/
theorem null (h : Complete heap m) {x : ToplevelSlot} (hx : m.slot x = none) :
    Complete heap (m.null x) :=
  ⟨h.sound.null id, fun hl => ((Memory.leaks_null_iff h.sound.owned).mp hl).elim h.complete
    fun hne => hne hx⟩

theorem geomnotifytoplevel (h : Complete heap m) (screenLocation : Rect) :
    Complete heap (geomnotifytoplevel m screenLocation) := by
  rw [ToplevelMemory.geomnotifytoplevel]
  split
  · exact (h.ensure _ _).ensure _ _
  · exact h.fault_null

theorem quitToplevelEvent (h : Complete heap m) (window : Size) :
    Complete heap (quitToplevelEvent m window) := by
  rw [ToplevelMemory.quitToplevelEvent]
  split
  · exact h.store _ _
  · exact h

theorem configureMinSize (h : Complete heap m) (minSize : Option (Option Size)) :
    Complete heap (configureMinSize m minSize) := by
  cases minSize with
  | none => exact h.assign .minSize none (.size ⟨160, 120⟩)
  | some minSize =>
    cases minSize with
    | none => exact h.fault_null
    | some minSize => exact h.assign .minSize (some (.size minSize)) (.size ⟨160, 120⟩)

variable [Hardware]

theorem reserveDrawRect (h : Complete heap m) : Complete heap (reserveDrawRect m) := by
  rw [ToplevelMemory.reserveDrawRect]
  split_ifs with hx
  · exact ⟨h.sound.malloc _ _, fun hl => ((Memory.leaks_malloc_iff h.sound.owned).mp hl).elim
      h.complete fun hne => hne hx⟩
  · exact h

theorem slot_contentRect_reserveDrawRect (m : ToplevelMemory) :
    (ToplevelMemory.reserveDrawRect m).slot .contentRect = m.slot .contentRect := by
  rw [ToplevelMemory.reserveDrawRect]
  split_ifs
  · exact Memory.slot_malloc_of_ne _ _ (by decide)
  · rfl

theorem eiToplevelConfigure (h : Complete heap m) (args : ToplevelArgs) :
    Complete heap (eiToplevelConfigure m args) := by
  have hfirst := (h.assign .backgroundColor (args.color.map .color)
    (.color eiDefaultBackgroundColor)).assign .borderWidth (args.borderWidth.map .int) (.int 4)
  rw [ToplevelMemory.eiToplevelConfigure]
  refine configureMinSize (assign (assign (assign ?_ _ _ _) _ _ _) _ _ _) _
  split
  · exact hfirst.assign _ _ _
  · exact hfirst.free_malloc _ _

/-- A new toplevel has lost no cell. -/
theorem start (heap : Heap ToplevelValue) :
    Complete heap (setdefaultstoplevel (alloctoplevel heap)) := by
  have h₀ : Complete heap (alloctoplevel heap) :=
    ⟨Memory.sound_start heap, Memory.not_leaks_start heap⟩
  have h₁ := ((h₀.null (x := .contentRect) rfl).free_malloc .title defaultTitle).ensure .titleFont
    (.font Hardware.eiDefaultFont)
  have h₂ := (((((h₁.reserveDrawRect.ensure .borderWidth (.int 4)).ensure .backgroundColor
    (.color eiDefaultBackgroundColor)).ensure .closable (.bool true)).ensure .resizable
    (.axes .both)).ensure .minSize (.size ⟨160, 120⟩))
  refine h₂.null ?_
  simp (disch := decide) only [Memory.slot_ensure_of_ne, slot_contentRect_reserveDrawRect,
    Memory.slot_malloc_of_ne, Memory.slot_free, Memory.slot_null_self]

/-- **One call.** -/
theorem step (h : Complete heap m) (op : ToplevelCall) : Complete heap (step m op) := by
  cases op with
  | configure args => exact h.eiToplevelConfigure args
  | geomnotify screenLocation => exact h.geomnotifytoplevel screenLocation
  | quit window => exact h.quitToplevelEvent window

end Complete

/-- **The memory of a toplevel.** After any calls, the release of a toplevel releases no cell twice,
and gives back all its memory. -/
theorem toplevel_restores [Hardware] (heap : Heap ToplevelValue) (ops : List ToplevelCall) :
    (releasetoplevel (run heap ops)).NoMisuse ∧
    ∀ i, (releasetoplevel (run heap ops)).heap.cell i = heap.cell i := by
  have hrun : Complete heap (run heap ops) := by
    induction ops using List.reverseRecOn with
    | nil => exact .start heap
    | append_singleton ops op ih =>
      rw [run, List.foldl_append]
      exact ih.step op
  have hnodup : releaseOrder.Nodup := by decide
  have hall : ∀ x, x ∈ releaseOrder := fun x => by cases x <;> decide
  have howned := hrun.sound.owned
  exact ⟨(Memory.noMisuse_freeAll hnodup (fun x _ => howned.allocated x) howned.alone
    hrun.sound.noMisuse).1,
    (Memory.restores_iff hnodup hall howned hrun.sound.noMisuse).mpr hrun.complete⟩

end ToplevelMemory

end GuiLibrary

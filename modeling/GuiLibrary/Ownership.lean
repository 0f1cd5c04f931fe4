import GuiLibrary.Data.Memory
import GuiLibrary.Relayout

/-!
# The memory of a button

The attributes of a button are pointers to cells that `setdefaultsbutton` allocates, that
`ei_button_configure` allocates, writes, releases and forgets, and that `releasebutton` releases.
Here the pointers are the slots of a memory: `Slots.Memory` logs a write to a cell that has been
released and a second release of a cell.

The slots own their cells until a button that shows an image is given another one:
`ei_button_configure` then releases the cell of the first image and writes the second one into it,
and `releasebutton` releases it again.

The other model of these functions, in `GuiLibrary.Configure`, has the attributes as values;
`GuiLibrary.ButtonCells` shows that the cells contain these values.

## Main definitions

* `ButtonSlot`, `ButtonValue`, `ButtonMemory`.
* `setdefaultsbutton`, `eiButtonConfigure`, `geomnotifybutton`, `releasebutton`.
* `ButtonOp`, `ButtonMemory.run`: sequences of calls.
* `ButtonMemory.Overwrites`, `AttributesOwned`.

## Main results

* `sound_eiButtonConfigure`, `sound_releasebutton`: one call, and the release.
* `attributesOwned_iff`: when the attributes are owned after every call.
-/

namespace GuiLibrary

open Slots

/-- The pointers of `ei_button_t`, and `content_rect`, which is null here while it points to the
location in the widget itself. -/
inductive ButtonSlot where
  | color | borderWidth | cornerRadius | relief | text | textFont | textColor | textAnchor | img
  | imgRect | imgAnchor | callback | userParam | contentRect
deriving DecidableEq

/-- What the cells contain. -/
inductive ButtonValue where
  | int (i : ℤ)
  | color (color : Color)
  | relief (relief : Relief)
  | text (text : Text)
  | font (font : Font)
  | anchor (anchor : Anchor)
  | surface (surface : Surface)
  | rect (rect : Rect)
  | callback (callback : ℕ)
  | pointer (param : Option ℕ)

/-- A heap and the pointers of a button. -/
abbrev ButtonMemory := Memory ButtonSlot ButtonValue

namespace ButtonMemory

/-! ### The functions of the class -/

/-- `allocbutton`: every pointer of the record is null. -/
def allocbutton (heap : Heap ButtonValue) : ButtonMemory := ⟨heap, fun _ => none, []⟩

/-- The border width in `ei_button_configure`. A content area of its own is allocated anew and the
old one is forgotten. -/
def configureBorderWidth (m : ButtonMemory) (borderWidth : Option ℤ) : ButtonMemory :=
  match borderWidth with
  | some borderWidth =>
      let m := m.store .borderWidth (.int borderWidth)
      if m.slot .contentRect = none then m else m.malloc .contentRect (.rect eiRectZero)
  | none =>
      if m.slot .borderWidth = none then
        (m.malloc .borderWidth (.int kDefaultButtonBorderWidth)).null .contentRect
      else m

/-- The text and the image in `ei_button_configure`, one of which is not given. The cell of an image
that is there is released and then written. -/
def configureTextImg (m : ButtonMemory) (args : LabelArgs) : ButtonMemory :=
  match args.text, args.img with
  | some arg, _ =>
      if arg.pointerLength < widgetTextSize then
        match arg.text with
        | some text => ((m.free .text).malloc .text (.text text)).null .img
        | none => (m.null .text).null .img
      else m
  | none, some (some img) =>
      let m : ButtonMemory :=
        if m.slot .img = none then m.malloc .img (.surface img)
        else (m.free .img).store .img (.surface img)
      let m : ButtonMemory :=
        match args.imgRect with
        | none => m
        | some none => m.fault .null
        | some (some imgRect) => m.ensure .imgRect (.rect imgRect)
      m.null .text
  | none, some none => (m.null .img).null .text
  | none, none => m

/-- A new cell for a given callback or parameter: the old one is forgotten. -/
def renewSlot (m : ButtonMemory) (x : ButtonSlot) (given : Option ButtonValue) : ButtonMemory :=
  match given with
  | some v => m.malloc x v
  | none => m

/-- `geomnotifybutton`, and `ei_app_invalidate_rect`, which cuts the content area at the window. -/
def geomnotifybutton (m : ButtonMemory) (screenLocation : Rect) (window : Size) : ButtonMemory :=
  match m.read .borderWidth with
  | some (.int borderWidth) =>
      if borderWidth ≠ 0 then
        let content := insetRect screenLocation borderWidth
        (m.ensure .contentRect (.rect content)).store .contentRect
          (.rect (normalizeRect content window))
      else m.null .contentRect
  | _ => m.null .contentRect

/-- The order of `releasebutton`. -/
def releaseOrder : List ButtonSlot :=
  [.borderWidth, .cornerRadius, .relief, .color, .contentRect, .text, .textFont, .textColor,
    .textAnchor, .img, .imgRect, .imgAnchor, .callback, .userParam]

/-- `releasebutton`. -/
def releasebutton (m : ButtonMemory) : ButtonMemory := m.freeAll releaseOrder

variable [Hardware]

/-- `setdefaultsbutton`. -/
def setdefaultsbutton (m : ButtonMemory) : ButtonMemory :=
  let m := m.ensure .borderWidth (.int kDefaultButtonBorderWidth)
  let m := m.null .contentRect
  let m := m.ensure .cornerRadius (.int kDefaultButtonCornerRadius)
  let m := m.ensure .color (.color eiDefaultBackgroundColor)
  let m := m.ensure .relief (.relief .raised)
  let m := (m.free .text).null .text
  let m := m.ensure .textFont (.font Hardware.eiDefaultFont)
  let m := m.ensure .textColor (.color eiFontDefaultColor)
  let m := m.ensure .textAnchor (.anchor .center)
  let m := (m.free .img).null .img
  let m := (m.free .imgRect).null .imgRect
  m.ensure .imgAnchor (.anchor .center)

/-- `ei_button_configure`, up to the run of the placer. The program exits when a text and an image
are given at once. -/
def eiButtonConfigure (m : ButtonMemory) (args : ButtonArgs) : Option ButtonMemory :=
  if args.text.isSome ∧ args.img.isSome then none
  else
    let m := configureBorderWidth m args.borderWidth
    let m := m.assign .cornerRadius (args.cornerRadius.map .int)
      (.int kDefaultButtonCornerRadius)
    let m := m.assign .color (args.color.map .color) (.color eiDefaultBackgroundColor)
    let m := m.assign .relief (args.relief.map .relief) (.relief .raised)
    let m := configureTextImg m args.toLabelArgs
    let m := m.assign .textFont (args.textFont.map .font) (.font Hardware.eiDefaultFont)
    let m := m.assign .textColor (args.textColor.map .color) (.color eiFontDefaultColor)
    let m := m.assign .textAnchor (args.textAnchor.map .anchor) (.anchor .center)
    let m := m.assign .imgAnchor (args.imgAnchor.map .anchor) (.anchor .center)
    let m := renewSlot m .callback (args.callback.map .callback)
    some (renewSlot m .userParam (args.userParam.map .pointer))

end ButtonMemory

/-! ### Sequences of calls -/

/-- A configuration, or a notification of the placer, which a configuration may end with. -/
inductive ButtonOp where
  | configure (args : ButtonArgs)
  | geomnotify (screenLocation : Rect) (window : Size)

namespace ButtonMemory

section Run

variable [Hardware]

/-- One call. -/
def step (m : ButtonMemory) : ButtonOp → Option ButtonMemory
  | .configure args => eiButtonConfigure m args
  | .geomnotify screenLocation window => some (geomnotifybutton m screenLocation window)

/-- The calls, on a new button. -/
def run (heap : Heap ButtonValue) (ops : List ButtonOp) : Option ButtonMemory :=
  ops.foldlM step (setdefaultsbutton (allocbutton heap))

theorem run_concat (heap : Heap ButtonValue) (ops : List ButtonOp) (op : ButtonOp) :
    run heap (ops ++ [op]) = (run heap ops).bind (step · op) := by
  simp only [run, List.foldlM_append, List.foldlM_cons, List.foldlM_nil, Option.bind_eq_bind]
  exact Option.bind_congr fun m _ => Option.bind_fun_some _

end Run

/-- A button that shows an image is given another one. -/
def Overwrites (m : ButtonMemory) (args : LabelArgs) : Prop :=
  args.text = none ∧ args.img.join.isSome ∧ m.slot .img ≠ none

/-- Every slot that is not null has an allocated cell to itself, no released cell has been written,
and releasing the button releases no cell twice. -/
structure AttributesOwned (heap : Heap ButtonValue) (m : ButtonMemory) : Prop where
  owned : m.Owned heap
  writes : ∀ i, Fault.write i ∉ m.faults
  release : ∀ i, Fault.free i ∉ (releasebutton m).faults

/-! ### What keeps ownership -/

section Sound

variable {heap : Heap ButtonValue} {m : ButtonMemory}

theorem sound_configureBorderWidth (h : m.Sound heap) (borderWidth : Option ℤ) :
    (configureBorderWidth m borderWidth).Sound heap := by
  cases borderWidth with
  | some borderWidth =>
    have hstore := h.store .borderWidth (.int borderWidth)
    simp only [configureBorderWidth]
    split_ifs
    · exact hstore
    · exact hstore.malloc _ _
  | none =>
    simp only [configureBorderWidth]
    split_ifs
    · exact (h.malloc _ _).null id
    · exact h

/-- **The text and the image**, unless an image replaces another one. -/
theorem sound_configureTextImg (h : m.Sound heap) {args : LabelArgs}
    (hargs : ¬ m.Overwrites args) : (configureTextImg m args).Sound heap := by
  cases htext : args.text with
  | some arg =>
    simp only [configureTextImg, htext]
    split_ifs
    · cases arg.text with
      | some text => exact (h.free_malloc _ _).null id
      | none => exact (h.null id).null id
    · exact h
  | none =>
    cases himg : args.img with
    | none => simpa only [configureTextImg, htext, himg] using h
    | some img =>
      cases img with
      | none => simpa only [configureTextImg, htext, himg] using (h.null id).null id
      | some img =>
        have hslot : m.slot .img = none := by
          by_contra hslot
          exact hargs ⟨htext, by rw [himg]; rfl, hslot⟩
        have hmalloc := h.malloc .img (.surface img)
        simp only [configureTextImg, htext, himg, if_pos hslot]
        cases args.imgRect with
        | none => exact hmalloc.null id
        | some imgRect =>
          cases imgRect with
          | none => exact hmalloc.fault_null.null id
          | some imgRect => exact (hmalloc.ensure _ _).null id

theorem sound_renewSlot (h : m.Sound heap) (x : ButtonSlot) (given : Option ButtonValue) :
    (renewSlot m x given).Sound heap := by
  cases given with
  | some v => exact h.malloc x v
  | none => exact h

theorem sound_geomnotifybutton (h : m.Sound heap) (screenLocation : Rect) (window : Size) :
    (geomnotifybutton m screenLocation window).Sound heap := by
  rw [geomnotifybutton]
  split
  · split_ifs
    · exact (h.ensure _ _).store _ _
    · exact h.null id
  · exact h.null id

/-- **Releasing the button** releases the cell of each slot, once. -/
theorem sound_releasebutton (h : m.Sound heap) : (releasebutton m).NoMisuse ∧
    ∀ x i, m.slot x = some i → ¬ (releasebutton m).heap.Allocated i := by
  obtain ⟨hmisuse, hfreed⟩ := Memory.noMisuse_freeAll (by decide : releaseOrder.Nodup)
    (fun x _ => h.owned.allocated x) h.owned.alone h.noMisuse
  exact ⟨hmisuse, fun x i => hfreed x (by cases x <;> decide) i⟩

theorem AttributesOwned.of_sound (h : m.Sound heap) : AttributesOwned heap m :=
  ⟨h.owned, fun i hi => absurd (h.noMisuse _ hi) (by simp),
    fun i hi => absurd ((sound_releasebutton h).1 _ hi) (by simp)⟩

theorem sound_setdefaultsbutton [Hardware] (h : m.Sound heap) :
    (setdefaultsbutton m).Sound heap :=
  (((((((((((h.ensure _ _).null id).ensure _ _).ensure _ _).ensure _ _).free_null id).ensure
    _ _).ensure _ _).ensure _ _).free_null id).free_null id).ensure _ _

/-- What is owned after a call is sound. -/
theorem AttributesOwned.sound (h : AttributesOwned heap m) : m.Sound heap := by
  refine ⟨h.owned, fun f hf => ?_, fun _ h => absurd h id⟩
  cases f with
  | null => rfl
  | write i => exact absurd hf (h.writes i)
  | free i => exact absurd (Memory.faults_subset_freeAll releaseOrder m hf) (h.release i)

end Sound

section Configure

variable [Hardware] {heap : Heap ButtonValue} {m m' : ButtonMemory} {args : ButtonArgs}

/-- The assignments of `ei_button_configure` before the text and the image. -/
def configureFirst (m : ButtonMemory) (args : ButtonArgs) : ButtonMemory :=
  let m := configureBorderWidth m args.borderWidth
  let m := m.assign .cornerRadius (args.cornerRadius.map .int)
    (.int kDefaultButtonCornerRadius)
  let m := m.assign .color (args.color.map .color) (.color eiDefaultBackgroundColor)
  m.assign .relief (args.relief.map .relief) (.relief .raised)

/-- The assignments after the text and the image. -/
def configureLast (m : ButtonMemory) (args : ButtonArgs) : ButtonMemory :=
  let m := m.assign .textFont (args.textFont.map .font) (.font Hardware.eiDefaultFont)
  let m := m.assign .textColor (args.textColor.map .color) (.color eiFontDefaultColor)
  let m := m.assign .textAnchor (args.textAnchor.map .anchor) (.anchor .center)
  let m := m.assign .imgAnchor (args.imgAnchor.map .anchor) (.anchor .center)
  let m := renewSlot m .callback (args.callback.map .callback)
  renewSlot m .userParam (args.userParam.map .pointer)

theorem eiButtonConfigure_eq_some : eiButtonConfigure m args = some m' ↔
    ¬ (args.text.isSome ∧ args.img.isSome) ∧
      configureLast (configureTextImg (configureFirst m args) args.toLabelArgs) args = m' := by
  rw [eiButtonConfigure]
  split_ifs with hexit
  · exact iff_of_false (by simp) fun h => h.1 hexit
  · rw [Option.some.injEq]
    exact (and_iff_right hexit).symm

omit [Hardware] in
theorem sound_configureFirst (h : m.Sound heap) (args : ButtonArgs) :
    (configureFirst m args).Sound heap :=
  (((sound_configureBorderWidth h _).assign _ _ _).assign _ _ _).assign _ _ _

theorem sound_configureLast (h : m.Sound heap) (args : ButtonArgs) :
    (configureLast m args).Sound heap :=
  sound_renewSlot (sound_renewSlot ((((h.assign _ _ _).assign _ _ _).assign _ _ _).assign _ _ _)
    _ _) _ _

omit [Hardware] in
/-- The assignments before the text and the image leave the cell of the image alone. -/
theorem slot_img_configureFirst (m : ButtonMemory) (args : ButtonArgs) :
    (configureFirst m args).slot .img = m.slot .img := by
  have hborder : (configureBorderWidth m args.borderWidth).slot .img = m.slot .img := by
    cases args.borderWidth with
    | some borderWidth =>
      simp only [configureBorderWidth]
      split_ifs
      · rw [Memory.slot_store]
      · rw [Memory.slot_malloc_of_ne _ _ (by decide), Memory.slot_store]
    | none =>
      simp only [configureBorderWidth]
      split_ifs
      · rw [Memory.slot_null_of_ne _ (by decide), Memory.slot_malloc_of_ne _ _ (by decide)]
      · rfl
  simp only [configureFirst]
  rw [Memory.slot_assign_of_ne (by decide), Memory.slot_assign_of_ne (by decide),
    Memory.slot_assign_of_ne (by decide), hborder]

/-- **A configuration that does not replace an image** keeps the ownership. -/
theorem sound_eiButtonConfigure (h : m.Sound heap) (hargs : ¬ m.Overwrites args.toLabelArgs)
    (hrun : eiButtonConfigure m args = some m') : m'.Sound heap := by
  obtain ⟨-, rfl⟩ := eiButtonConfigure_eq_some.mp hrun
  refine sound_configureLast (sound_configureTextImg (sound_configureFirst h args) ?_) args
  rwa [Overwrites, slot_img_configureFirst]

/-! ### What breaks it -/

theorem faults_subset_configureLast (m : ButtonMemory) (args : ButtonArgs) :
    m.faults ⊆ (configureLast m args).faults := by
  have hrenew : ∀ (m : ButtonMemory) (x : ButtonSlot) (given : Option ButtonValue),
      m.faults ⊆ (renewSlot m x given).faults := by
    intro m x given
    cases given <;> exact List.Subset.refl _
  exact fun f hf => hrenew _ _ _ (hrenew _ _ _ (Memory.faults_subset_assign
    (Memory.faults_subset_assign (Memory.faults_subset_assign (Memory.faults_subset_assign hf)))))

omit [Hardware] in
/-- The cell of the first image is released and then written. -/
theorem exists_fault_configureTextImg {args : LabelArgs} (h : m.Owned heap)
    (hargs : m.Overwrites args) : ∃ i, Fault.write i ∈ (configureTextImg m args).faults := by
  obtain ⟨htext, himg, hslot⟩ := hargs
  obtain ⟨i, hi⟩ := Option.ne_none_iff_exists'.mp hslot
  obtain ⟨img, himg⟩ := Option.isSome_iff_exists.mp himg
  have himg : args.img = some (some img) := Option.join_eq_some_iff.mp himg
  refine ⟨i, ?_⟩
  have hfree : m.free .img = { m with heap := m.heap.erase i } :=
    Memory.free_of_allocated hi (h.allocated _ i hi)
  have hstore : Fault.write i ∈ ((m.free .img).store .img (.surface img)).faults := by
    have hnot : ¬ (m.free .img).heap.Allocated i := by
      rw [hfree]
      exact m.heap.not_allocated_erase i
    have hslot' : (m.free .img).slot .img = some i := by rw [Memory.slot_free, hi]
    simp only [Memory.store, hslot', if_neg hnot]
    exact List.mem_append_right _ (List.mem_singleton_self _)
  simp only [configureTextImg, htext, himg, if_neg hslot, Memory.faults_null]
  cases args.imgRect with
  | none => exact hstore
  | some imgRect =>
    cases imgRect with
    | none => exact Memory.faults_subset_fault _ _ hstore
    | some imgRect => exact Memory.faults_subset_ensure hstore

end Configure

/-! ### Whole sequences -/

section Run

variable [Hardware]

/-- The slots own their cells as long as no image replaces another one, by induction on the
calls. -/
theorem sound_run {heap : Heap ButtonValue} {ops : List ButtonOp} :
    (∀ pre args post m, ops = pre ++ .configure args :: post → run heap pre = some m →
      ¬ m.Overwrites args.toLabelArgs) → ∀ m, run heap ops = some m → m.Sound heap := by
  induction ops using List.reverseRecOn with
  | nil =>
    intro _ m hm
    obtain rfl := Option.some.inj hm
    exact sound_setdefaultsbutton (Memory.sound_start heap)
  | append_singleton ops op ih =>
    intro hcond m' hrun
    rw [run_concat] at hrun
    obtain ⟨m, hm, hstep⟩ := Option.bind_eq_some_iff.mp hrun
    have hsound : m.Sound heap := by
      refine ih (fun pre args post m hops => hcond pre args (post ++ [op]) m ?_) m hm
      rw [hops, List.append_assoc, List.cons_append]
    cases op with
    | configure args => exact sound_eiButtonConfigure hsound (hcond ops args [] m rfl hm) hstep
    | geomnotify screenLocation window =>
      obtain rfl := Option.some.inj hstep
      exact sound_geomnotifybutton hsound screenLocation window

/-- **When a button owns its attributes.** After every call of a sequence the attributes are owned
and can be released exactly when no call gives an image to a button that shows one. -/
theorem attributesOwned_iff (heap : Heap ButtonValue) (ops : List ButtonOp) :
    (∀ pre post m, ops = pre ++ post → run heap pre = some m → AttributesOwned heap m) ↔
      ∀ pre args post m, ops = pre ++ .configure args :: post → run heap pre = some m →
        ¬ m.Overwrites args.toLabelArgs := by
  constructor
  · rintro h pre args post m hops hm hover
    have hnot : ¬ (args.text.isSome ∧ args.img.isSome) := fun hexit => by
      rw [hover.1] at hexit
      exact Bool.false_ne_true hexit.1
    have hrun := (@eiButtonConfigure_eq_some _ m _ args).mpr ⟨hnot, rfl⟩
    have hpre := h pre (.configure args :: post) m hops hm
    have hpost := h (pre ++ [.configure args]) post _ (by rw [hops, List.append_cons])
      ((run_concat heap pre _).trans (by rw [hm]; exact hrun))
    have hover' : (configureFirst m args).Overwrites args.toLabelArgs := by
      rwa [Overwrites, slot_img_configureFirst]
    obtain ⟨i, hi⟩ :=
      exists_fault_configureTextImg (sound_configureFirst hpre.sound args).owned hover'
    exact hpost.writes i (faults_subset_configureLast _ args hi)
  · intro h pre post m hops hm
    refine .of_sound (sound_run (fun pre' args post' m' hops' => h pre' args (post' ++ post) m' ?_)
      m hm)
    rw [hops, hops', List.append_assoc, List.cons_append]

end Run

section Sample

attribute [local instance] sampleHardware

/-- An empty heap. -/
def sampleHeap : Heap ButtonValue := ⟨fun _ => none, 0, fun _ _ => rfl⟩

/-- An image of one pixel, and then another one. -/
def twoImages : List ButtonOp :=
  [.configure { img := some (some (sampleSurface ⟨1, 1⟩)) },
    .configure { img := some (some (sampleSurface ⟨2, 2⟩)) }]

/-- The second image is written to the cell of the first one after its release, and the button
releases this cell again. -/
theorem not_attributesOwned_twoImages :
    ¬ ∀ pre post m, twoImages = pre ++ post → run sampleHeap pre = some m →
      AttributesOwned sampleHeap m := by
  intro h
  have hfaults : (run sampleHeap twoImages).map (fun m => (releasebutton m).faults) =
      some [.write 8, .free 8] := rfl
  obtain ⟨m, hm, hfaults⟩ := Option.map_eq_some_iff.mp hfaults
  refine (h twoImages [] m (List.append_nil _).symm hm).release 8 ?_
  rw [hfaults]
  decide

end Sample

end ButtonMemory

end GuiLibrary

import GuiLibrary.Ownership

/-!
# What the cells of a button contain

The model of the classes has the attributes of a button as values, and the memory of a button has
them in cells. As long as the slots own their cells, the two agree: the cells contain the default
attributes after `setdefaultsbutton`, and after a configuration or a notification of the placer
they contain what the other model computes.

## Main definitions

* `ButtonMemory.values`: the contents of the cells for given attributes.
* `ButtonMemory.Contains`, `ButtonMemory.Holds`.

## Main results

* `Holds.start`, `Holds.eiButtonConfigure`, `Holds.geomnotifybutton`.
-/

namespace GuiLibrary

open Slots

namespace ButtonMemory

/-- What the cells of a button with these attributes and this content area contain. -/
def values (a : ButtonAttrs) (content : ContentRect) : ButtonSlot → Option ButtonValue
  | .color => some (.color a.color)
  | .borderWidth => some (.int a.borderWidth)
  | .cornerRadius => some (.int a.cornerRadius)
  | .relief => some (.relief a.relief)
  | .text => a.text.map .text
  | .textFont => some (.font a.textFont)
  | .textColor => some (.color a.textColor)
  | .textAnchor => some (.anchor a.textAnchor)
  | .img => a.img.map .surface
  | .imgRect => a.imgRect.map .rect
  | .imgAnchor => some (.anchor a.imgAnchor)
  | .callback => a.callback.map .callback
  | .userParam => a.userParam.map .pointer
  | .contentRect =>
      match content with
      | .screenLocation => none
      | .own rect => some (.rect rect)

/-- The slots own their cells, which contain these values. -/
structure Contains (heap : Heap ButtonValue) (m : ButtonMemory)
    (f : ButtonSlot → Option ButtonValue) : Prop where
  sound : m.Sound heap
  read : m.read = f

namespace Contains

variable {heap : Heap ButtonValue} {m : ButtonMemory} {f : ButtonSlot → Option ButtonValue}

theorem of_eq (h : Contains heap m f) {g : ButtonSlot → Option ButtonValue}
    (hg : ∀ x, f x = g x) : Contains heap m g :=
  ⟨h.sound, h.read.trans (funext hg)⟩

theorem null (h : Contains heap m f) (x : ButtonSlot) :
    Contains heap (m.null x) (Function.update f x none) :=
  ⟨h.sound.null id, by rw [Memory.read_null, h.read]⟩

theorem free_null (h : Contains heap m f) (x : ButtonSlot) :
    Contains heap ((m.free x).null x) (Function.update f x none) :=
  ⟨h.sound.free_null id, by rw [h.sound.owned.read_free_null, h.read]⟩

theorem malloc (h : Contains heap m f) (x : ButtonSlot) (v : ButtonValue) :
    Contains heap (m.malloc x v) (Function.update f x (some v)) :=
  ⟨h.sound.malloc x v, by rw [h.sound.owned.read_malloc, h.read]⟩

theorem free_malloc (h : Contains heap m f) (x : ButtonSlot) (v : ButtonValue) :
    Contains heap ((m.free x).malloc x v) (Function.update f x (some v)) :=
  ⟨h.sound.free_malloc x v, by rw [h.sound.owned.read_free_malloc, h.read]⟩

theorem slot_eq_none_iff (h : Contains heap m f) {x : ButtonSlot} :
    m.slot x = none ↔ f x = none := by
  rw [← h.sound.owned.read_eq_none_iff, h.read]

theorem store (h : Contains heap m f) {x : ButtonSlot} (hx : f x ≠ none) (v : ButtonValue) :
    Contains heap (m.store x v) (Function.update f x (some v)) :=
  ⟨h.sound.store x v, by rw [h.sound.owned.read_store (mt h.slot_eq_none_iff.mp hx), h.read]⟩

theorem ensure (h : Contains heap m f) (x : ButtonSlot) (v : ButtonValue) :
    Contains heap (m.ensure x v) (Function.update f x (some v)) := by
  rw [Memory.ensure]
  split_ifs with hx
  · exact h.malloc x v
  · exact h.store (mt h.slot_eq_none_iff.mpr hx) v

end Contains

/-- The slots own their cells, which contain these attributes. -/
abbrev Holds (heap : Heap ButtonValue) (m : ButtonMemory) (a : ButtonAttrs)
    (content : ContentRect) : Prop := Contains heap m (values a content)

namespace Holds

variable {heap : Heap ButtonValue} {m : ButtonMemory} {a b : ButtonAttrs} {content : ContentRect}

/-- A given value replaces the value of its attribute. -/
theorem assign (h : Holds heap m a content) {x : ButtonSlot} {given : Option ButtonValue}
    {old : ButtonValue} (hx : values a content x = some old)
    (hb : values b content = Function.update (values a content) x (some (given.getD old)))
    (default : ButtonValue) :
    Holds heap (m.assign x given default) b content := by
  have hne : values a content x ≠ none := by
    rw [hx]
    exact Option.some_ne_none old
  rw [Holds, hb]
  cases given with
  | some v => exact h.store hne v
  | none =>
    rw [Memory.assign, if_neg (mt h.slot_eq_none_iff.mp hne), Option.getD_none, ← hx,
      Function.update_eq_self]
    exact h

/-- A given callback or parameter replaces the one before. -/
theorem renewSlot (h : Holds heap m a content) {x : ButtonSlot} {given : Option ButtonValue}
    (hb : values b content =
      Function.update (values a content) x (given.or (values a content x))) :
    Holds heap (ButtonMemory.renewSlot m x given) b content := by
  rw [Holds, hb]
  cases given with
  | some v => exact h.malloc x v
  | none =>
    rw [Option.none_or, Function.update_eq_self]
    exact h

theorem configureBorderWidth {w : Widget} (h : Holds heap m a w.contentRect)
    (borderWidth : Option ℤ) : Holds heap (ButtonMemory.configureBorderWidth m borderWidth)
      { a with borderWidth := borderWidth.getD a.borderWidth }
      (configuredContent w borderWidth) := by
  have hne : values a w.contentRect .borderWidth ≠ none := Option.some_ne_none _
  cases borderWidth with
  | none =>
    rw [ButtonMemory.configureBorderWidth, if_neg (mt h.slot_eq_none_iff.mp hne)]
    exact h.of_eq fun x => by cases x <;> rfl
  | some borderWidth =>
    have hstore := h.store hne (.int borderWidth)
    have hcontent : (m.store .borderWidth (.int borderWidth)).slot .contentRect = none ↔
        w.contentRect = .screenLocation := by
      rw [hstore.slot_eq_none_iff]
      cases hw : w.contentRect <;> simp [values, Function.update]
    simp only [ButtonMemory.configureBorderWidth]
    split_ifs with hnone
    · refine hstore.of_eq fun x => ?_
      cases x <;> simp [values, configuredContent, hcontent.mp hnone, Function.update]
    · refine (hstore.malloc .contentRect (.rect eiRectZero)).of_eq fun x => ?_
      cases hw : w.contentRect with
      | screenLocation => exact absurd (hcontent.mpr hw) hnone
      | own rect => cases x <;> simp [values, configuredContent, hw, Function.update]

/-- A given text. -/
theorem configureText (h : Holds heap m a content) {args : LabelArgs} {b : FrameAttrs}
    {arg : TextArg} (htext : args.text = some arg)
    (hb : GuiLibrary.configureTextImg a.toFrameAttrs args = some b) :
    Holds heap (ButtonMemory.configureTextImg m args) { a with toFrameAttrs := b } content := by
  cases himg : args.img with
  | some img => simp [GuiLibrary.configureTextImg, htext, himg] at hb
  | none =>
    simp only [GuiLibrary.configureTextImg, htext, himg] at hb
    simp only [ButtonMemory.configureTextImg, htext]
    split_ifs at hb ⊢ with hshort
    · cases harg : arg.text with
      | some text =>
        simp only [harg] at hb
        split_ifs at hb
        obtain rfl := Option.some.inj hb
        refine ((h.free_malloc .text (.text text)).null .img).of_eq fun x => ?_
        cases x <;> simp [values, Function.update]
      | none =>
        simp only [harg, Option.some.injEq] at hb
        subst hb
        refine ((h.null .text).null .img).of_eq fun x => ?_
        cases x <;> simp [values, Function.update]
    · obtain rfl := Option.some.inj hb
      exact h

/-- A given image, when there is none before it. -/
theorem configureImg (h : Holds heap m a content) {args : LabelArgs} {b : FrameAttrs}
    {img : Surface} (htext : args.text = none) (himg : args.img = some (some img))
    (hnone : a.img = none) (hb : GuiLibrary.configureTextImg a.toFrameAttrs args = some b) :
    Holds heap (ButtonMemory.configureTextImg m args) { a with toFrameAttrs := b } content := by
  have hslot : m.slot .img = none := by
    rw [h.slot_eq_none_iff, values, hnone]
    rfl
  have hmalloc := h.malloc .img (.surface img)
  simp only [GuiLibrary.configureTextImg, htext, himg] at hb
  simp only [ButtonMemory.configureTextImg, htext, himg, if_pos hslot]
  cases hrect : args.imgRect with
  | none =>
    simp only [hrect, Option.some.injEq] at hb
    subst hb
    refine (hmalloc.null .text).of_eq fun x => ?_
    cases x <;> simp [values, Function.update]
  | some r =>
    cases r with
    | none => simp [hrect] at hb
    | some imgRect =>
      simp only [hrect, Option.some.injEq] at hb
      subst hb
      refine ((hmalloc.ensure .imgRect (.rect imgRect)).null .text).of_eq fun x => ?_
      cases x <;> simp [values, Function.update]

/-- **The text, the image and its rectangle** are those of the other model. -/
theorem configureTextImg (h : Holds heap m a content) {args : LabelArgs} {b : FrameAttrs}
    (hnot : ¬ (args.text.isNone ∧ a.img.isSome ∧ args.img.join.isSome))
    (hb : GuiLibrary.configureTextImg a.toFrameAttrs args = some b) :
    Holds heap (ButtonMemory.configureTextImg m args) { a with toFrameAttrs := b } content := by
  cases htext : args.text with
  | some arg => exact h.configureText htext hb
  | none =>
    cases himg : args.img with
    | none =>
      simp only [GuiLibrary.configureTextImg, htext, himg, Option.some.injEq] at hb
      subst hb
      simpa only [ButtonMemory.configureTextImg, htext, himg] using h
    | some o =>
      cases o with
      | none =>
        simp only [GuiLibrary.configureTextImg, htext, himg, Option.some.injEq] at hb
        subst hb
        simp only [ButtonMemory.configureTextImg, htext, himg]
        refine ((h.null .img).null .text).of_eq fun x => ?_
        cases x <;> simp [values, Function.update]
      | some img =>
        refine h.configureImg htext himg ?_ hb
        by_contra hne
        exact hnot ⟨by rw [htext]; rfl, Option.isSome_iff_ne_none.mpr hne, by rw [himg]; rfl⟩

/-- The text and the image do not depend on what is assigned before them. -/
theorem configureTextImg_with {b b' : FrameAttrs} {args : LabelArgs}
    (h : GuiLibrary.configureTextImg b args = some b') (color : Color) (relief : Relief)
    (borderWidth : ℤ) :
    GuiLibrary.configureTextImg
        { b with color := color, relief := relief, borderWidth := borderWidth } args =
      some { b' with color := color, relief := relief, borderWidth := borderWidth } := by
  rw [GuiLibrary.configureTextImg] at h ⊢
  split at h
  · simp at h
  · split_ifs at h ⊢ with hshort
    · split at h
      · split_ifs at h ⊢ with hlong
        exact Option.some.inj h ▸ rfl
      · exact Option.some.inj h ▸ rfl
    · exact Option.some.inj h ▸ rfl
  · split at h
    · exact Option.some.inj h ▸ rfl
    · simp at h
    · exact Option.some.inj h ▸ rfl
  · exact Option.some.inj h ▸ rfl
  · exact Option.some.inj h ▸ rfl

variable [Hardware]

omit [Hardware] in
theorem configureFirst {w : Widget} (h : Holds heap m a w.contentRect) (args : ButtonArgs) :
    Holds heap (ButtonMemory.configureFirst m args) { a with
      borderWidth := args.borderWidth.getD a.borderWidth
      cornerRadius := args.cornerRadius.getD a.cornerRadius
      color := args.color.getD a.color
      relief := args.relief.getD a.relief } (configuredContent w args.borderWidth) := by
  refine (((h.configureBorderWidth args.borderWidth).assign (b := { a with
    borderWidth := args.borderWidth.getD a.borderWidth
    cornerRadius := args.cornerRadius.getD a.cornerRadius }) rfl ?_ _).assign (b := { a with
    borderWidth := args.borderWidth.getD a.borderWidth
    cornerRadius := args.cornerRadius.getD a.cornerRadius
    color := args.color.getD a.color }) rfl ?_ _).assign rfl ?_ _
  · cases args.cornerRadius <;> funext y <;> cases y <;> rfl
  · cases args.color <;> funext y <;> cases y <;> rfl
  · cases args.relief <;> funext y <;> cases y <;> rfl

theorem configureLast (h : Holds heap m a content) (args : ButtonArgs) :
    Holds heap (ButtonMemory.configureLast m args) { a with
      textFont := args.textFont.getD a.textFont
      textColor := args.textColor.getD a.textColor
      textAnchor := args.textAnchor.getD a.textAnchor
      imgAnchor := args.imgAnchor.getD a.imgAnchor
      callback := args.callback.or a.callback
      userParam := args.userParam.or a.userParam } content := by
  refine (((((h.assign (b := { a with
    textFont := args.textFont.getD a.textFont }) rfl ?_ _).assign (b := { a with
    textFont := args.textFont.getD a.textFont
    textColor := args.textColor.getD a.textColor }) rfl ?_ _).assign (b := { a with
    textFont := args.textFont.getD a.textFont
    textColor := args.textColor.getD a.textColor
    textAnchor := args.textAnchor.getD a.textAnchor }) rfl ?_ _).assign (b := { a with
    textFont := args.textFont.getD a.textFont
    textColor := args.textColor.getD a.textColor
    textAnchor := args.textAnchor.getD a.textAnchor
    imgAnchor := args.imgAnchor.getD a.imgAnchor }) rfl ?_ _).renewSlot (b := { a with
    textFont := args.textFont.getD a.textFont
    textColor := args.textColor.getD a.textColor
    textAnchor := args.textAnchor.getD a.textAnchor
    imgAnchor := args.imgAnchor.getD a.imgAnchor
    callback := args.callback.or a.callback }) ?_).renewSlot ?_
  · cases args.textFont <;> funext y <;> cases y <;> rfl
  · cases args.textColor <;> funext y <;> cases y <;> rfl
  · cases args.textAnchor <;> funext y <;> cases y <;> rfl
  · cases args.imgAnchor <;> funext y <;> cases y <;> rfl
  · cases args.callback <;> funext y <;> cases y <;> rfl
  · cases args.userParam <;> funext y <;> cases y <;> rfl

/-- **The cells of a button that is configured** contain the attributes of the other model. -/
theorem eiButtonConfigure {w : Widget} (h : Holds heap m a w.contentRect) {args : ButtonArgs}
    {label : FrameAttrs}
    (hlabel : configureButtonLabel a.toFrameAttrs args.toLabelArgs = some label) :
    ∃ m', ButtonMemory.eiButtonConfigure m args = some m' ∧
      Holds heap m' (configuredButton a label args) (configuredContent w args.borderWidth) := by
  obtain ⟨hnot, hlabel⟩ := configureButtonLabel_eq_some.mp hlabel
  obtain ⟨b, hb, hlabel⟩ := Option.bind_eq_some_iff.mp hlabel
  obtain rfl := Option.some.inj hlabel
  have hexit : ¬ (args.text.isSome ∧ args.img.isSome) := by
    rintro ⟨htext, himg⟩
    obtain ⟨arg, harg⟩ := Option.isSome_iff_exists.mp htext
    obtain ⟨img, himg⟩ := Option.isSome_iff_exists.mp himg
    simp [GuiLibrary.configureTextImg, harg, himg] at hb
  refine ⟨_, eiButtonConfigure_eq_some.mpr ⟨hexit, rfl⟩, ?_⟩
  have hfirst := h.configureFirst args
  have hlast := (hfirst.configureTextImg hnot (configureTextImg_with hb _ _ _)).configureLast args
  have hwrites := configureTextImg_writes hb
  have hcolor : b.color = a.color := (congrArg FrameAttrs.color hwrites).trans rfl
  have hrelief : b.relief = a.relief := (congrArg FrameAttrs.relief hwrites).trans rfl
  have hborder : b.borderWidth = a.borderWidth :=
    (congrArg FrameAttrs.borderWidth hwrites).trans rfl
  refine ⟨hlast.sound, hlast.read.trans ?_⟩
  -- The special parameters are no pointers.
  funext y
  cases y <;> simp [values, configuredButton, Option.orElse_eq_or, hcolor, hrelief, hborder]

/-- **A new button** has the default attributes. -/
theorem start (heap : Heap ButtonValue) :
    Holds heap (ButtonMemory.setdefaultsbutton (allocbutton heap)) GuiLibrary.setdefaultsbutton
      .screenLocation := by
  have halloc : Contains heap (allocbutton heap) fun _ => none :=
    ⟨Memory.sound_start heap, rfl⟩
  exact ((((((((((((halloc.ensure _ _).null _).ensure _ _).ensure _ _).ensure _ _).free_null
    _).ensure _ _).ensure _ _).ensure _ _).free_null _).free_null _).ensure _ _).of_eq
    fun x => by cases x <;> rfl

omit [Hardware] in
/-- **A notification of the placer** leaves the content area of the other model in its cell. -/
theorem geomnotifybutton {w : Widget} (h : Holds heap m a w.contentRect) (hw : w.attrs = .button a)
    (window : Size) : Holds heap (ButtonMemory.geomnotifybutton m w.screenLocation window) a
      (w.notified.setContent (normalizeRect w.notified.content window)).contentRect := by
  have hread : m.read .borderWidth = some (.int a.borderWidth) := by rw [h.read]; rfl
  have hcontent : w.notified.contentRect = if a.borderWidth ≠ 0 then
      .own (insetRect w.screenLocation a.borderWidth) else .screenLocation := by
    simp only [Widget.notified, hw]
    split_ifs <;> rfl
  simp only [ButtonMemory.geomnotifybutton, hread]
  split_ifs at hcontent ⊢ with hb
  · have hset := h.ensure .contentRect (.rect (insetRect w.screenLocation a.borderWidth))
    refine (hset.store (by simp) _).of_eq fun x => ?_
    cases x <;> simp [values, Widget.setContent, Widget.content, hcontent, Function.update]
  · refine (h.null .contentRect).of_eq fun x => ?_
    cases x <;> simp [values, Widget.setContent, Widget.setScreenLocation, hcontent,
      Function.update]

end Holds

end ButtonMemory

end GuiLibrary

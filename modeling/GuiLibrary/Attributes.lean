import GuiLibrary.Configuration

/-!
# The attributes of a widget

An attribute of a widget has the value that the last configuration of the widget has given for it,
or the default of the class when none has. A text clears the image and an image clears the text,
so the two count as one attribute, of which at least one half is missing. The rectangle of an
image is given with the image.

A call does not complete when it gives a text and an image at once, when the pointer to the
rectangle of an image or to a minimal size points to `NULL`, when a button that shows an image is
given another one, or when the withdrawal of a button of a toplevel fails. The length of a text is
measured on the pointer to it.

## Main definitions

* `LabelArgs.shown`, `LabelArgs.shownRect`, `LabelArgs.ShortText`.
* `LabelFollows`, `ButtonFollows`, `ToplevelFollows`, `AttributesFollow`.
* `ProperCall`.

## Main results

* `LabelFollows.concat`, `ToplevelFollows.concat`: one more configuration.
* `attributes_of_program`: the attributes of every widget in every run of a program.
-/

namespace GuiLibrary

open Cells Traces

/-! ### What the arguments ask for -/

namespace LabelArgs

/-- The text and the image that the arguments ask for: the one given, and nothing in place of the
other one. -/
def shown (args : LabelArgs) : Option (Option Text × Option Surface) :=
  match args.text, args.img with
  | some arg, none => some (arg.text, none)
  | none, some img => some (none, img)
  | some _, some _ | none, none => none

theorem shown_exclusive (args : LabelArgs) {x : Option Text × Option Surface}
    (h : args.shown = some x) : x.1 = none ∨ x.2 = none := by
  rw [shown] at h
  split at h
  · exact Or.inr (Option.some.inj h ▸ rfl)
  · exact Or.inl (Option.some.inj h ▸ rfl)
  · simp at h
  · simp at h

/-- The rectangle that the arguments give with an image. -/
def shownRect (args : LabelArgs) : Option Rect :=
  args.img.join.bind fun _ => args.imgRect.join

/-- The text is shorter than forty bytes, and so is what `strlen` finds at the pointer to it. -/
def ShortText (args : LabelArgs) : Prop :=
  ∀ arg, args.text = some arg → arg.pointerLength < widgetTextSize ∧
    ∀ text, arg.text = some text → text.length < widgetTextSize

/-- At most one of a text and an image is given, the text is short, and the pointer to the rectangle
of an image does not point to `NULL`. -/
structure Proper (args : LabelArgs) : Prop where
  one : args.text = none ∨ args.img = none
  short : args.ShortText
  rect : args.img.join.isSome → args.imgRect ≠ some none

end LabelArgs

/-- **The text, the image and its rectangle** after a configuration. -/
theorem configureTextImg_shown {a a' : FrameAttrs} {args : LabelArgs} (hshort : args.ShortText)
    (h : configureTextImg a args = some a') :
    (a'.text, a'.img) = args.shown.getD (a.text, a.img) ∧
      a'.imgRect = args.shownRect.or a.imgRect := by
  rw [configureTextImg] at h
  cases htext : args.text with
  | none =>
    cases himg : args.img with
    | none =>
      simp only [htext, himg, Option.some.injEq] at h
      subst h
      simp [LabelArgs.shown, LabelArgs.shownRect, htext, himg]
    | some img =>
      cases img with
      | none =>
        simp only [htext, himg, Option.some.injEq] at h
        subst h
        simp [LabelArgs.shown, LabelArgs.shownRect, htext, himg]
      | some img =>
        cases hrect : args.imgRect with
        | none =>
          simp only [htext, himg, hrect, Option.some.injEq] at h
          subst h
          simp [LabelArgs.shown, LabelArgs.shownRect, htext, himg, hrect]
        | some rect =>
          cases rect with
          | none => simp [htext, himg, hrect] at h
          | some rect =>
            simp only [htext, himg, hrect, Option.some.injEq] at h
            subst h
            simp [LabelArgs.shown, LabelArgs.shownRect, htext, himg, hrect]
  | some arg =>
    cases himg : args.img with
    | some img => simp [htext, himg] at h
    | none =>
      obtain ⟨hlen, hbytes⟩ := hshort arg htext
      simp only [htext, himg, if_pos hlen] at h
      cases harg : arg.text with
      | none =>
        simp only [harg, Option.some.injEq] at h
        subst h
        simp [LabelArgs.shown, LabelArgs.shownRect, htext, himg, harg]
      | some text =>
        simp only [harg, if_pos (hbytes text harg), Option.some.injEq] at h
        subst h
        simp [LabelArgs.shown, LabelArgs.shownRect, htext, himg, harg]

/-- Proper arguments are configured. -/
theorem exists_configureLabel (a : FrameAttrs) {args : LabelArgs} (h : args.Proper) :
    ∃ a', configureLabel a args = some a' := by
  obtain ⟨a', ha'⟩ : ∃ a', configureTextImg a args = some a' := by
    rw [configureTextImg]
    cases htext : args.text with
    | none =>
      cases himg : args.img with
      | none => exact ⟨_, rfl⟩
      | some img =>
        cases img with
        | none => exact ⟨_, rfl⟩
        | some img =>
          have hrect := h.rect (by rw [himg]; rfl)
          cases hr : args.imgRect with
          | none => exact ⟨_, rfl⟩
          | some rect =>
            cases rect with
            | none => exact absurd hr hrect
            | some rect => exact ⟨_, rfl⟩
    | some arg =>
      cases himg : args.img with
      | some img =>
        rcases h.one with hone | hone
        · simp [htext] at hone
        · simp [himg] at hone
      | none =>
        obtain ⟨hlen, hbytes⟩ := h.short arg htext
        simp only [if_pos hlen]
        cases harg : arg.text with
        | none => exact ⟨_, rfl⟩
        | some text =>
          simp only [if_pos (hbytes text harg)]
          exact ⟨_, rfl⟩
  exact ⟨_, by rw [configureLabel, ha']; rfl⟩

/-! ### Following the configurations -/

/-- The attributes that frames and buttons share are those that the configurations, oldest first,
have given last, or else the defaults. -/
structure LabelFollows (defaults : FrameAttrs) (calls : List LabelArgs) (a : FrameAttrs) :
    Prop where
  color : a.color = (lastSome LabelArgs.color calls).getD defaults.color
  borderWidth : a.borderWidth = (lastSome LabelArgs.borderWidth calls).getD defaults.borderWidth
  relief : a.relief = (lastSome LabelArgs.relief calls).getD defaults.relief
  textFont : a.textFont = (lastSome LabelArgs.textFont calls).getD defaults.textFont
  textColor : a.textColor = (lastSome LabelArgs.textColor calls).getD defaults.textColor
  textAnchor : a.textAnchor = (lastSome LabelArgs.textAnchor calls).getD defaults.textAnchor
  imgAnchor : a.imgAnchor = (lastSome LabelArgs.imgAnchor calls).getD defaults.imgAnchor
  imgRect : a.imgRect = (lastSome LabelArgs.shownRect calls).or defaults.imgRect
  shown : (a.text, a.img) = (lastSome LabelArgs.shown calls).getD (defaults.text, defaults.img)
  exclusive : a.text = none ∨ a.img = none

/-- The attributes of a button. -/
structure ButtonFollows (defaults : ButtonAttrs) (calls : List ButtonArgs) (a : ButtonAttrs) :
    Prop where
  label : LabelFollows defaults.toFrameAttrs (calls.map ButtonArgs.toLabelArgs) a.toFrameAttrs
  cornerRadius : a.cornerRadius =
    (lastSome ButtonArgs.cornerRadius calls).getD defaults.cornerRadius
  callback : a.callback = (lastSome ButtonArgs.callback calls).or defaults.callback
  userParam : a.userParam = (lastSome ButtonArgs.userParam calls).or defaults.userParam

/-- The attributes of a toplevel. -/
structure ToplevelFollows (defaults : ToplevelAttrs) (calls : List ToplevelArgs)
    (a : ToplevelAttrs) : Prop where
  backgroundColor : a.backgroundColor =
    (lastSome ToplevelArgs.color calls).getD defaults.backgroundColor
  borderWidth : a.borderWidth = (lastSome ToplevelArgs.borderWidth calls).getD defaults.borderWidth
  title : a.title = (lastSome ToplevelArgs.title calls).getD defaults.title
  closable : a.closable = (lastSome ToplevelArgs.closable calls).getD defaults.closable
  resizable : a.resizable = (lastSome ToplevelArgs.resizable calls).getD defaults.resizable
  minSize : a.minSize = (lastSome (fun args => args.minSize.join) calls).getD defaults.minSize

section Follows

variable {defaults a a' : FrameAttrs} {calls : List LabelArgs} {args : LabelArgs}

theorem LabelFollows.nil (h : defaults.text = none ∨ defaults.img = none) :
    LabelFollows defaults [] defaults :=
  ⟨rfl, rfl, rfl, rfl, rfl, rfl, rfl, rfl, rfl, h⟩

/-- **One more configuration.** -/
theorem LabelFollows.concat (h : LabelFollows defaults calls a) (hshort : args.ShortText)
    (hrun : configureLabel a args = some a') :
    LabelFollows defaults (calls ++ [args]) a' := by
  obtain ⟨b, hb, hrun⟩ := Option.bind_eq_some_iff.mp hrun
  obtain rfl := Option.some.inj hrun
  obtain ⟨hshown, hrect⟩ := configureTextImg_shown hshort hb
  have hkept := configureTextImg_writes hb
  refine ⟨?_, ?_, ?_, ?_, ?_, ?_, ?_, ?_, ?_, ?_⟩
  · rw [getD_lastSome_concat, ← h.color, hkept]
  · rw [getD_lastSome_concat, ← h.borderWidth, hkept]
  · rw [getD_lastSome_concat, ← h.relief, hkept]
  · rw [getD_lastSome_concat, ← h.textFont, hkept]
  · rw [getD_lastSome_concat, ← h.textColor, hkept]
  · rw [getD_lastSome_concat, ← h.textAnchor, hkept]
  · rw [getD_lastSome_concat, ← h.imgAnchor, hkept]
  · rw [lastSome_concat, Option.or_assoc, ← h.imgRect]
    exact hrect
  · rw [getD_lastSome_concat, ← h.shown]
    exact hshown
  · change b.text = none ∨ b.img = none
    cases hs : args.shown with
    | none =>
      rw [hs, Option.getD_none, Prod.mk.injEq] at hshown
      rw [hshown.1, hshown.2]
      exact h.exclusive
    | some shown =>
      rw [hs, Option.getD_some] at hshown
      subst hshown
      exact args.shown_exclusive hs

theorem ButtonFollows.nil {defaults : ButtonAttrs}
    (h : defaults.text = none ∨ defaults.img = none) :
    ButtonFollows defaults [] defaults :=
  ⟨.nil h, rfl, rfl, rfl⟩

theorem ButtonFollows.concat {defaults a : ButtonAttrs} {label : FrameAttrs}
    {calls : List ButtonArgs} {args : ButtonArgs} (h : ButtonFollows defaults calls a)
    (hshort : args.ShortText)
    (hrun : configureLabel a.toFrameAttrs args.toLabelArgs = some label) :
    ButtonFollows defaults (calls ++ [args]) (configuredButton a label args) := by
  refine ⟨?_, ?_, ?_, ?_⟩
  · rw [List.map_append]
    exact h.label.concat hshort hrun
  · rw [getD_lastSome_concat, ← h.cornerRadius]
    rfl
  · rw [lastSome_concat, Option.or_assoc, ← h.callback]
    exact Option.orElse_eq_or
  · rw [lastSome_concat, Option.or_assoc, ← h.userParam]
    exact Option.orElse_eq_or

theorem ToplevelFollows.nil (defaults : ToplevelAttrs) : ToplevelFollows defaults [] defaults :=
  ⟨rfl, rfl, rfl, rfl, rfl, rfl⟩

theorem ToplevelFollows.concat {defaults a : ToplevelAttrs} {calls : List ToplevelArgs}
    (h : ToplevelFollows defaults calls a) (args : ToplevelArgs) :
    ToplevelFollows defaults (calls ++ [args]) (args.assigned a) := by
  refine ⟨?_, ?_, ?_, ?_, ?_, ?_⟩
  · rw [getD_lastSome_concat, ← h.backgroundColor]
    rfl
  · rw [getD_lastSome_concat, ← h.borderWidth]
    rfl
  · rw [getD_lastSome_concat, ← h.title]
    rfl
  · rw [getD_lastSome_concat, ← h.closable]
    rfl
  · rw [getD_lastSome_concat, ← h.resizable]
    rfl
  · rw [getD_lastSome_concat, ← h.minSize]
    rfl

end Follows

/-! ### The configurations of a widget -/

/-- The arguments of a call of `ei_frame_configure` on the widget. -/
def frameCall (p : Ptr) : AppState × LibraryCall → Option LabelArgs
  | (_, .frameConfigure q args) => if q = p then some args else none
  | _ => none

/-- The arguments of a call of `ei_button_configure` on the widget. -/
def buttonCall (p : Ptr) : AppState × LibraryCall → Option ButtonArgs
  | (_, .buttonConfigure q args) => if q = p then some args else none
  | _ => none

/-- The arguments of a call of `ei_toplevel_configure` on the widget. -/
def toplevelCall (p : Ptr) : AppState × LibraryCall → Option ToplevelArgs
  | (_, .toplevelConfigure q args) => if q = p then some args else none
  | _ => none

theorem frameCall_of_not_writes {p : Ptr} {x : AppState × LibraryCall} (h : ¬ Writes p x) :
    frameCall p x = none := by
  obtain ⟨s, c⟩ := x
  cases c with
  | frameConfigure q args => exact if_neg h
  | _ => rfl

theorem buttonCall_of_not_writes {p : Ptr} {x : AppState × LibraryCall} (h : ¬ Writes p x) :
    buttonCall p x = none := by
  obtain ⟨s, c⟩ := x
  cases c with
  | buttonConfigure q args => exact if_neg h
  | _ => rfl

theorem toplevelCall_of_not_writes {p : Ptr} {x : AppState × LibraryCall} (h : ¬ Writes p x) :
    toplevelCall p x = none := by
  obtain ⟨s, c⟩ := x
  cases c with
  | toplevelConfigure q args => exact if_neg h
  | _ => rfl

section Program

variable [Hardware]

/-- The attributes of a widget of this class are those that its configurations in the history have
given last, or else the defaults of the class. -/
def AttributesFollow (c : WidgetClass) (p : Ptr) (history : List (AppState × LibraryCall))
    (attrs : Attrs) : Prop :=
  match c, attrs with
  | .frame, .frame a => LabelFollows setdefaultsframe (history.filterMap (frameCall p)) a
  | .button, .button a => ButtonFollows setdefaultsbutton (history.filterMap (buttonCall p)) a
  | .toplevel, .toplevel a =>
      ToplevelFollows defaultToplevelAttrs (history.filterMap (toplevelCall p)) a
  | _, _ => False

variable {c : WidgetClass} {p : Ptr} {history : List (AppState × LibraryCall)} {attrs : Attrs}

theorem attributesFollow_undrawn_iff :
    AttributesFollow c p history attrs.undrawn ↔ AttributesFollow c p history attrs := by
  cases attrs with
  | frame a => exact Iff.rfl
  | button a => exact Iff.rfl
  | toplevel a =>
    cases c with
    | frame => exact Iff.rfl
    | button => exact Iff.rfl
    | toplevel => exact ⟨fun ⟨h₁, h₂, h₃, h₄, h₅, h₆⟩ => ⟨h₁, h₂, h₃, h₄, h₅, h₆⟩,
        fun ⟨h₁, h₂, h₃, h₄, h₅, h₆⟩ => ⟨h₁, h₂, h₃, h₄, h₅, h₆⟩⟩

/-- A call that does not configure the widget. -/
theorem AttributesFollow.concat_of_none {x : AppState × LibraryCall}
    (h : AttributesFollow c p history attrs) (hf : frameCall p x = none)
    (hb : buttonCall p x = none) (ht : toplevelCall p x = none) :
    AttributesFollow c p (history ++ [x]) attrs := by
  have happend : ∀ {α : Type} {f : AppState × LibraryCall → Option α}, f x = none →
      (history ++ [x]).filterMap f = history.filterMap f := fun {α f} hf => by
    rw [List.filterMap_append, List.filterMap_cons_none hf, List.filterMap_nil, List.append_nil]
  have hf := happend hf
  have hb := happend hb
  have ht := happend ht
  cases c <;> cases attrs <;> simp only [AttributesFollow, hf, hb, ht] at h ⊢ <;> exact h

/-- The default attributes are those of a widget that has not been configured. -/
theorem attributesFollow_default (c : WidgetClass) (h : ∀ x ∈ history, ¬ Writes p x) :
    AttributesFollow c p history (defaultAttrs c) := by
  have hnil : ∀ {α : Type} {f : AppState × LibraryCall → Option α},
      (∀ x, ¬ Writes p x → f x = none) → history.filterMap f = [] := fun hf =>
    List.filterMap_eq_nil_iff.mpr fun x hx => hf x (h x hx)
  cases c with
  | frame =>
    have hcalls := hnil fun _ => frameCall_of_not_writes (p := p)
    simp only [AttributesFollow, defaultAttrs, hcalls]
    exact .nil (Or.inl rfl)
  | button =>
    have hcalls := hnil fun _ => buttonCall_of_not_writes (p := p)
    simp only [AttributesFollow, defaultAttrs, hcalls]
    exact .nil (Or.inl rfl)
  | toplevel =>
    have hcalls := hnil fun _ => toplevelCall_of_not_writes (p := p)
    simp only [AttributesFollow, defaultAttrs, hcalls]
    exact .nil _

variable [Raster] {s s' : AppState} {call : LibraryCall}

/-- The texts of the call are short. -/
def LibraryCall.ShortText : LibraryCall → Prop
  | frameConfigure _ args => args.ShortText
  | buttonConfigure _ args => args.ShortText
  | _ => True

/-- **A configuration of the widget.** -/
theorem AttributesFollow.configured
    (h : ∀ w, s.widgets p = some w → AttributesFollow c p history w.attrs)
    (hshort : call.ShortText) (hrun : call.run s = some s') (hp : p < s.nextWidget)
    (hwrites : Writes p (s, call)) {w' : Widget} (hw' : s'.widgets p = some w') :
    AttributesFollow c p (history ++ [(s, call)]) w'.attrs := by
  rw [← attributesFollow_undrawn_iff]
  cases call with
  | create cls parent destructor => exact absurd hwrites (Nat.ne_of_gt hp)
  | frameConfigure q args =>
    obtain rfl : q = p := hwrites
    obtain ⟨w, a, a', hw, ha, hconf, hset⟩ := eiFrameConfigure_settings hrun
    have hold := h w hw
    have hattrs : w'.attrs.undrawn = .frame a' := congrArg Prod.snd (hset w' hw')
    rw [ha] at hold
    rw [hattrs]
    cases c with
    | frame =>
      have hcalls : frameCall q (s, .frameConfigure q args) = some args := if_pos rfl
      rw [AttributesFollow, List.filterMap_append, List.filterMap_cons_some hcalls]
      exact LabelFollows.concat hold hshort hconf
    | button => exact absurd hold id
    | toplevel => exact absurd hold id
  | buttonConfigure q args =>
    obtain rfl : q = p := hwrites
    obtain ⟨w, a, label, hw, ha, hconf, hset⟩ := eiButtonConfigure_settings hrun
    have hold := h w hw
    have hattrs : w'.attrs.undrawn = .button (configuredButton a label args) :=
      congrArg Prod.snd (hset w' hw')
    rw [ha] at hold
    rw [hattrs]
    cases c with
    | button =>
      have hcalls : buttonCall q (s, .buttonConfigure q args) = some args := if_pos rfl
      rw [AttributesFollow, List.filterMap_append, List.filterMap_cons_some hcalls]
      exact ButtonFollows.concat hold hshort hconf
    | frame => exact absurd hold id
    | toplevel => exact absurd hold id
  | toplevelConfigure q args =>
    obtain rfl : q = p := hwrites
    obtain ⟨w, a, hw, ha, hset⟩ := eiToplevelConfigure_settings hrun
    have hold := h w hw
    have hattrs : w'.attrs.undrawn = (Attrs.toplevel (args.assigned a)).undrawn :=
      congrArg Prod.snd (hset w' hw')
    rw [ha] at hold
    rw [hattrs, attributesFollow_undrawn_iff]
    cases c with
    | toplevel =>
      have hcalls : toplevelCall q (s, .toplevelConfigure q args) = some args := if_pos rfl
      rw [AttributesFollow, List.filterMap_append, List.filterMap_cons_some hcalls]
      exact ToplevelFollows.concat hold args
    | frame => exact absurd hold id
    | button => exact absurd hold id
  | _ => exact absurd hwrites id

/-- Every widget that the program has created, and the root, has the attributes that its
configurations have given. -/
def AttributesRecorded (history : List (AppState × LibraryCall)) (s : AppState) : Prop :=
  ∀ c p, CreatedAs c p history → ∀ w, s.widgets p = some w → AttributesFollow c p history w.attrs

omit [Raster] in
theorem AttributesRecorded.start {mainWindowSize : Size} {rootSurface pickSurface : Surface}
    (h : eiAppCreate mainWindowSize rootSurface pickSurface = some s) :
    AttributesRecorded [] s := by
  intro c p hc w hw
  rcases hc with ⟨rfl, rfl⟩ | ⟨s₀, parent, d, hmem, -⟩
  · rw [(Started.of_eq h).widgets, Function.update_self] at hw
    obtain rfl := Option.some.inj hw
    exact attributesFollow_default .frame fun x hx => absurd hx List.not_mem_nil
  · exact absurd hmem List.not_mem_nil

/-- **One more call.** -/
theorem AttributesRecorded.step (h : AttributesRecorded history s) (hs : Recorded history s)
    (hshort : call.ShortText) (hrun : call.run s = some s') :
    AttributesRecorded (history ++ [(s, call)]) s' := by
  intro c p hc w' hw'
  rcases hc.of_concat with hc | ⟨parent, d, rfl, rfl⟩
  · have hp := hs.lt_of_createdAs hc
    by_cases hwrites : Writes p (s, call)
    · exact .configured (h c p hc) hshort hrun hp hwrites hw'
    · have hretains := Retains.of_not_writes hs.invariant.wellFormed hrun hwrites hp
      obtain ⟨w, hw, hsettings⟩ := (hw' ▸ hretains.settings p rfl).exists_old
      have hattrs : w'.attrs.undrawn = w.attrs.undrawn := congrArg Prod.snd hsettings
      rw [← attributesFollow_undrawn_iff, hattrs, attributesFollow_undrawn_iff]
      exact (h c p hc w hw).concat_of_none (frameCall_of_not_writes hwrites)
        (buttonCall_of_not_writes hwrites) (toplevelCall_of_not_writes hwrites)
  · obtain ⟨hparent, wid, hcreate⟩ := LibraryCall.created hrun
    have hset := eiWidgetCreate_settings hs.invariant.wellFormed hparent hcreate
    have hattrs : w'.attrs.undrawn = (defaultAttrs c).undrawn := congrArg Prod.snd (hset w' hw')
    rw [← attributesFollow_undrawn_iff, hattrs, attributesFollow_undrawn_iff]
    exact (attributesFollow_default c hs.not_writes_nextWidget).concat_of_none rfl rfl rfl

/-! ### Calls that complete -/

omit [Hardware] [Raster] in
/-- The second half of a configuration completes: only the root has no parent, and it is not
placed. -/
theorem Recorded.exists_refresh {w w' : Widget} (h : Recorded history s) (ha : Assigned s s' p w w')
    (hg : w'.geomParams = w.geomParams) : ∃ s'', refresh s' p = some s'' := by
  have hs := ha.wellFormed h.invariant.wellFormed
  cases ho : w'.parent with
  | some o => exact GuiLibrary.exists_refresh hs ha.new ho
  | none =>
    have hroot := hs.root p w'.node (AppState.nodes_of_widgets ha.new) ho
    have hroot : s.rootWidget = some p := by
      rw [ha.eq] at hroot
      exact hroot
    obtain rfl := Option.some.inj (hroot.symm.trans h.rootWidget)
    have hnone : w'.geomParams = none := hg.trans (h.unplaced w ha.old)
    refine ⟨s', ?_⟩
    simp only [refresh, ha.new, hnone, Option.bind_eq_bind, Option.bind_some, Option.isSome_none,
      Bool.false_eq_true, if_false]

omit [Hardware] [Raster] in
/-- Assigning an attribute of a toplevel completes. -/
theorem exists_modifyToplevel {w : Widget} {a : ToplevelAttrs} {o : Option Ptr}
    (hw : s.widgets p = some w) (ha : w.attrs = .toplevel a) (ho : w.parent = o)
    (f : ToplevelAttrs → ToplevelAttrs) : ∃ s' w' a', modifyToplevel s p f = some s' ∧
      s'.widgets p = some w' ∧ w'.attrs = .toplevel a' ∧ w'.parent = o :=
  ⟨s.setWidget p { w with attrs := .toplevel (f a) }, _, _, by
    simp only [modifyToplevel, hw, ha, Option.bind_eq_bind, Option.bind_some],
    s.widgets_setWidget_self _ _, rfl, ho⟩

omit [Hardware] [Raster] in
/-- Without a withdrawal the assignments of a toplevel complete. -/
theorem exists_toplevelAssign {w : Widget} {a : ToplevelAttrs} {o : Option Ptr}
    {args : ToplevelArgs} (hw : s.widgets p = some w) (ha : w.attrs = .toplevel a)
    (ho : w.parent = o) (hmin : args.minSize ≠ some none) (hclosable : args.closable ≠ some false)
    (hresizable : args.resizable ≠ some .none) :
    ∃ s' w', toplevelAssign s p args = some s' ∧ s'.widgets p = some w' ∧ w'.parent = o := by
  have hw₁ := s.widgets_setWidget_self p
    { w with requestedSize := args.requestedSize.getD ⟨320, 240⟩ }
  obtain ⟨s₂, w₂, a₂, h₂, hw₂, ha₂, ho₂⟩ := exists_modifyToplevel hw₁ ha ho fun a => { a with
    backgroundColor := args.color.getD a.backgroundColor
    borderWidth := args.borderWidth.getD a.borderWidth
    title := args.title.getD a.title }
  obtain ⟨s₃, w₃, a₃, h₃, hw₃, ha₃, ho₃⟩ : ∃ s₃ w₃ a₃, (args.closable.elim (some s₂) fun closable =>
      (modifyToplevel s₂ p ({ · with closable := closable })).bind fun s =>
        bif closable then some s else withdrawButton Widget.isQuitButton s p) = some s₃ ∧
      s₃.widgets p = some w₃ ∧ w₃.attrs = .toplevel a₃ ∧ w₃.parent = o := by
    cases hc : args.closable with
    | none => exact ⟨s₂, w₂, a₂, rfl, hw₂, ha₂, ho₂⟩
    | some closable =>
      cases closable with
      | false => exact absurd hc hclosable
      | true =>
        obtain ⟨s₃, w₃, a₃, h₃, hrest⟩ := exists_modifyToplevel hw₂ ha₂ ho₂
          fun a => { a with closable := true }
        exact ⟨s₃, w₃, a₃, by rw [Option.elim_some, h₃]; rfl, hrest⟩
  obtain ⟨s₄, w₄, a₄, h₄, hw₄, ha₄, ho₄⟩ : ∃ s₄ w₄ a₄,
      (args.resizable.elim (some s₃) fun resizable =>
        (modifyToplevel s₃ p ({ · with resizable := resizable })).bind fun s =>
          bif resizable = .none then withdrawButton Widget.isResizeButton s p else some s) =
        some s₄ ∧ s₄.widgets p = some w₄ ∧ w₄.attrs = .toplevel a₄ ∧ w₄.parent = o := by
    cases hr : args.resizable with
    | none => exact ⟨s₃, w₃, a₃, rfl, hw₃, ha₃, ho₃⟩
    | some resizable =>
      obtain ⟨s₄, w₄, a₄, h₄, hrest⟩ := exists_modifyToplevel hw₃ ha₃ ho₃
        fun a => { a with resizable := resizable }
      have hne : decide (resizable = .none) = false :=
        decide_eq_false fun hnone => hresizable (hnone ▸ hr)
      exact ⟨s₄, w₄, a₄, by rw [Option.elim_some, h₄, Option.bind_some, hne]; rfl, hrest⟩
  obtain ⟨s₅, w₅, h₅, hw₅, ho₅⟩ : ∃ s₅ w₅, (args.minSize.elim (some s₄) fun minSize =>
      minSize.bind fun minSize => modifyToplevel s₄ p ({ · with minSize := minSize })) =
        some s₅ ∧ s₅.widgets p = some w₅ ∧ w₅.parent = o := by
    cases hm : args.minSize with
    | none => exact ⟨s₄, w₄, rfl, hw₄, ho₄⟩
    | some minSize =>
      cases minSize with
      | none => exact absurd hm hmin
      | some minSize =>
        obtain ⟨s₅, w₅, a₅, h₅, hw₅, -, ho₅⟩ := exists_modifyToplevel hw₄ ha₄ ho₄
          fun a => { a with minSize := minSize }
        exact ⟨s₅, w₅, by rw [Option.elim_some, Option.bind_some, h₅], hw₅, ho₅⟩
  refine ⟨s₅, w₅, ?_, hw₅, ho₅⟩
  simp only [toplevelAssign, Option.bind_eq_bind, AppState.modifyWidget, hw, Option.map_some,
    Option.bind_some, h₂]
  rw [h₃, Option.bind_some, h₄, Option.bind_some, h₅]

/-- A call of the configure function of the class on the widget. At most one of a text and an image
is given, a button that shows an image is not given another one, the pointers to a rectangle and to
a minimal size do not point to `NULL`, and the buttons of a toplevel can be withdrawn when they must
be. -/
def ProperCall (c : WidgetClass) (p : Ptr) (s : AppState) : LibraryCall → Prop
  | .frameConfigure q args => c = .frame ∧ q = p ∧ args.Proper
  | .buttonConfigure q args => c = .button ∧ q = p ∧ args.Proper ∧
      ∀ w a, s.widgets p = some w → w.attrs = .button a → a.img.isSome → args.img.join = none
  | .toplevelConfigure q args => c = .toplevel ∧ q = p ∧ args.minSize ≠ some none ∧
      (args.closable = some false ∨ args.resizable = some .none →
        ∃ d bs, Decorated s p d ∧ HasBindings s bs ∧ CanConfigure d args bs)
  | _ => False

theorem Recorded.completes (hs : Recorded history s) (hattrs : AttributesRecorded history s)
    (hc : CreatedAs c p history) (hp : s.Live p) (hproper : ProperCall c p s call) :
    ∃ s', call.run s = some s' := by
  obtain ⟨w, hw⟩ := AppState.live_iff.mp hp
  have hfollow := hattrs c p hc w hw
  cases call with
  | frameConfigure q args =>
    obtain ⟨rfl, rfl, hargs⟩ := hproper
    cases ha : w.attrs with
    | frame a =>
      obtain ⟨a', ha'⟩ := exists_configureLabel a hargs
      obtain ⟨s₁, h₁⟩ : ∃ s₁, frameAssign s q args = some s₁ := by
        simp only [frameAssign, hw, ha, ha', Option.bind_eq_bind, Option.bind_some]
        exact ⟨_, rfl⟩
      obtain ⟨v, b, b', -, -, hassigned⟩ := frameAssign_assigned h₁
      obtain ⟨s', hs'⟩ := hs.exists_refresh hassigned rfl
      exact ⟨s', by rw [LibraryCall.run, eiFrameConfigure_eq, h₁, Option.bind_some, hs']⟩
    | button a => simp [ha, AttributesFollow] at hfollow
    | toplevel a => simp [ha, AttributesFollow] at hfollow
  | buttonConfigure q args =>
    obtain ⟨rfl, rfl, hargs, himg⟩ := hproper
    cases ha : w.attrs with
    | button a =>
      obtain ⟨label, hlabel⟩ := exists_configureLabel a.toFrameAttrs hargs
      have hnot : ¬ (args.text.isNone ∧ a.img.isSome ∧ args.img.join.isSome) := by
        rintro ⟨-, hshown, hgiven⟩
        rw [himg w a hw ha hshown] at hgiven
        exact Bool.false_ne_true hgiven
      have hbutton := configureButtonLabel_eq_some.mpr ⟨hnot, hlabel⟩
      obtain ⟨s₁, h₁⟩ : ∃ s₁, buttonAssign s q args = some s₁ := by
        simp only [buttonAssign, hw, ha, hbutton, Option.bind_eq_bind, Option.bind_some]
        exact ⟨_, rfl⟩
      obtain ⟨v, b, b', -, -, hassigned⟩ := buttonAssign_assigned h₁
      obtain ⟨s', hs'⟩ := hs.exists_refresh hassigned rfl
      exact ⟨s', by rw [LibraryCall.run, eiButtonConfigure_eq, h₁, Option.bind_some, hs']⟩
    | frame a => simp [ha, AttributesFollow] at hfollow
    | toplevel a => simp [ha, AttributesFollow] at hfollow
  | toplevelConfigure q args =>
    obtain ⟨rfl, rfl, hmin, hwithdraw⟩ := hproper
    by_cases hw' : args.closable = some false ∨ args.resizable = some .none
    · obtain ⟨d, bs, hd, hbs, hcan⟩ := hwithdraw hw'
      obtain ⟨s', hs', -⟩ := eiToplevelConfigure_decorated hs.invariant.wellFormed hbs hd hcan
      exact ⟨s', hs'⟩
    · cases ha : w.attrs with
      | toplevel a =>
        obtain ⟨s₁, w₁, h₁, hw₁, ho₁⟩ := exists_toplevelAssign hw ha rfl hmin
          (fun h => hw' (Or.inl h)) fun h => hw' (Or.inr h)
        obtain ⟨l, hl⟩ := hs.invariant.bindings
        obtain ⟨⟨hs₁, -⟩, -⟩ := toplevelAssign_keeps hs.invariant.wellFormed hl h₁
        -- The root is no toplevel, so the widget has a parent.
        obtain ⟨o, ho⟩ : ∃ o, w₁.parent = some o := by
          cases ho : w.parent with
          | some o => exact ⟨o, ho₁.trans ho⟩
          | none =>
            have hroot := hs.invariant.wellFormed.root q w.node (AppState.nodes_of_widgets hw) ho
            obtain rfl := Option.some.inj (hroot.symm.trans hs.rootWidget)
            rcases hc with ⟨hframe, -⟩ | ⟨s₀, parent, d, hmem, hzero⟩
            · exact absurd hframe (by decide)
            · exact absurd hzero (Nat.ne_of_gt (hs.nextWidget _ hmem).1)
        obtain ⟨s', hs'⟩ := GuiLibrary.exists_refresh hs₁ hw₁ ho
        exact ⟨s', by rw [LibraryCall.run, eiToplevelConfigure_eq, h₁, Option.bind_some, hs']⟩
      | frame a => simp [ha, AttributesFollow] at hfollow
      | button a => simp [ha, AttributesFollow] at hfollow
  | _ => exact absurd hproper id

/-- **The attributes of every widget, in every run of a program whose texts are short.** They are
those that the configurations of the widget have given last, or else the defaults of its class, and
the next proper configuration completes. -/
theorem attributes_of_program {size : Size} (h : Program size (fun _ _ call => call.ShortText)
    history s) (hc : CreatedAs c p history) :
    (∀ w, s.widgets p = some w → AttributesFollow c p history w.attrs) ∧
      ∀ call, s.Live p → ProperCall c p s call → ∃ s', call.run s = some s' := by
  have hattrs : Recorded history s ∧ AttributesRecorded history s := by
    refine h.invariant (I := fun history s => Recorded history s ∧ AttributesRecorded history s)
      (fun s ⟨_, _, hstart⟩ => ⟨.start hstart, .start hstart⟩) ?_
    rintro history s call s' ⟨hs, hattrs⟩ hshort hrun
    exact ⟨hs.step hrun, hattrs.step hs hshort hrun⟩
  exact ⟨hattrs.2 c p hc, fun call hp hproper => hattrs.1.completes hattrs.2 hc hp hproper⟩

end Program

/-! ### A label -/

section Sample

attribute [local instance] sampleHardware sampleRaster

/-- A red frame with a text. -/
def labelArgs : LabelArgs where
  color := some ⟨0xFF, 0, 0, 0xFF⟩
  text := some ⟨some "OK".toUTF8.toList, 6⟩

theorem isSome_eiFrameConfigure_label : (eiFrameConfigure sampleLabel 1 labelArgs).isSome := by
  with_unfolding_all rfl

/-- The frame after its configuration. -/
def sampleLabelled : AppState :=
  (eiFrameConfigure sampleLabel 1 labelArgs).get isSome_eiFrameConfigure_label

theorem eiFrameConfigure_sampleLabelled :
    eiFrameConfigure sampleLabel 1 labelArgs = some sampleLabelled :=
  (Option.some_get _).symm

/-- The frame is red, shows the text, and can be given an image. -/
theorem attributes_of_program_label :
    (∀ w, sampleLabelled.widgets 1 = some w → AttributesFollow .frame 1
      (labelHistory ++ [(sampleLabel, .frameConfigure 1 labelArgs)]) w.attrs) ∧
    ∃ s', (LibraryCall.frameConfigure 1 { img := some (some (sampleSurface ⟨8, 8⟩)) }).run
      sampleLabelled = some s' := by
  have hrun : Program ⟨640, 480⟩ (fun _ _ call => call.ShortText)
      (labelHistory ++ [(sampleLabel, .frameConfigure 1 labelArgs)]) sampleLabelled := by
    refine .step (labelHistory_program trivial) (fun arg harg => ?_) eiFrameConfigure_sampleLabelled
    obtain rfl := Option.some.inj harg
    exact ⟨by decide, fun text htext => by
      obtain rfl := Option.some.inj htext
      decide +kernel⟩
  have hcreated : CreatedAs .frame 1
      (labelHistory ++ [(sampleLabel, .frameConfigure 1 labelArgs)]) :=
    Or.inr ⟨_, _, _, List.mem_cons_self, (sampleApp_started ⟨640, 480⟩).nextWidget⟩
  have h := attributes_of_program hrun hcreated
  have hlive : sampleLabelled.Live 1 :=
    AppState.live_iff.mpr (Option.isSome_iff_exists.mp (by with_unfolding_all rfl))
  exact ⟨h.1, h.2 _ hlive ⟨rfl, rfl, Or.inl rfl, fun _ h => absurd h (by simp), fun _ => by simp⟩⟩

/-- A minimal size that points to `NULL` is read all the same: the call does not complete. -/
theorem sampleToplevel_not_configured :
    eiWidgetCreate (sampleApp ⟨640, 480⟩) .toplevel (some 0) none = some (sampleToplevel, 1) ∧
      eiToplevelConfigure sampleToplevel 1 { minSize := some none } = none := by
  refine ⟨eiWidgetCreate_sampleToplevel, ?_⟩
  have hnone : (eiToplevelConfigure sampleToplevel 1 { minSize := some none }).isNone := by
    with_unfolding_all rfl
  exact Option.isNone_iff_eq_none.mp hnone

end Sample

end GuiLibrary

import GuiLibrary.Attributes

/-!
# The storage of texts

A text is copied into forty bytes. The two configure functions measure the argument first, but they
measure the bytes of the pointer to the string, and the string is copied by its own length. So the
copy overflows when the pointer happens to be short and the string is long, and a string that fits
is dropped when the pointer happens to be long.

## Main definitions

* `LabelArgs.copied`: the string that a configuration copies.
* `TextSafe`: no overflow, and a string that fits is stored.
* `LabelArgs.TextMeasured`: what the measure has to do for this.

## Main results

* `textSafe_iff`: one configuration, in any run of a program.
-/

namespace GuiLibrary

open Cells Traces

/-- The text of a frame or of a button. -/
def Widget.text (w : Widget) : Option Text := w.attrs.labelled.bind FrameAttrs.text

namespace LabelArgs

/-- The string that the arguments give. -/
def givenText (args : LabelArgs) : Option Text := args.text.bind TextArg.text

/-- The string that `strcpy` copies into the storage of the text. -/
def copied (args : LabelArgs) : Option Text :=
  match args.text, args.img with
  | some arg, none => if arg.pointerLength < widgetTextSize then arg.text else none
  | some _, some _ | none, _ => none

/-- A string that is given without an image is measured right: what `strlen` finds at the pointer
is short when the string is short, and long when it is long. A short string may be measured wrong
when it is stored already. -/
def TextMeasured (args : LabelArgs) (stored : Option Text) : Prop :=
  ∀ arg text, args.text = some arg → args.img = none → arg.text = some text →
    if arg.pointerLength < widgetTextSize then text.length < widgetTextSize
    else widgetTextSize ≤ text.length ∨ stored = some text

end LabelArgs

/-! ### One configuration of the label -/

section Label

variable {a a' : FrameAttrs} {args : LabelArgs}

theorem text_configureLabel (h : configureLabel a args = some a') :
    ∃ b, configureTextImg a args = some b ∧ a'.text = b.text := by
  obtain ⟨b, hb, h⟩ := Option.bind_eq_some_iff.mp h
  exact ⟨b, hb, Option.some.inj h ▸ rfl⟩

theorem exists_configureLabel_of_textImg {b : FrameAttrs} (h : configureTextImg a args = some b) :
    ∃ a', configureLabel a args = some a' ∧ a'.text = b.text :=
  ⟨_, Option.bind_eq_some_iff.mpr ⟨b, h, rfl⟩, rfl⟩

/-- No overflow, and a string that fits is stored. -/
theorem label_safe_iff : ((∀ text, args.copied = some text → text.length + 1 ≤ widgetTextSize) ∧
    ∀ a' text, configureLabel a args = some a' → args.givenText = some text →
      text.length + 1 ≤ widgetTextSize → a'.text = some text) ↔ args.TextMeasured a.text := by
  constructor
  · rintro ⟨hfits, hstored⟩ arg text htext himg harg
    have hgiven : args.givenText = some text := by rw [LabelArgs.givenText, htext]; exact harg
    split_ifs with hshort
    · refine hfits text ?_
      rw [LabelArgs.copied, htext, himg]
      exact (if_pos hshort).trans harg
    -- The configuration leaves the text alone.
    · have hkeep : configureTextImg a args = some a := by
        simp only [configureTextImg, htext, himg, if_neg hshort]
      obtain ⟨a', ha', htext'⟩ := exists_configureLabel_of_textImg hkeep
      refine (Nat.lt_or_ge text.length widgetTextSize).symm.imp_right fun hfit => ?_
      rw [← htext', hstored a' text ha' hgiven hfit]
  · intro h
    refine ⟨fun text hcopied => ?_, fun a' text ha' hgiven hfit => ?_⟩
    · rw [LabelArgs.copied] at hcopied
      split at hcopied
      · next arg htext himg =>
        split_ifs at hcopied with hshort
        have hmeasured := h arg text htext himg hcopied
        rwa [if_pos hshort] at hmeasured
      · simp at hcopied
      · simp at hcopied
    · obtain ⟨arg, htext, harg⟩ := Option.bind_eq_some_iff.mp hgiven
      obtain ⟨b, hb, hb'⟩ := text_configureLabel ha'
      rw [hb']
      cases himg : args.img with
      | some img => simp [configureTextImg, htext, himg] at hb
      | none =>
        have hmeasured := h arg text htext himg harg
        split_ifs at hmeasured with hshort
        · simp only [configureTextImg, htext, himg, if_pos hshort, harg, if_pos hmeasured,
            Option.some.injEq] at hb
          rw [← hb]
        · simp only [configureTextImg, htext, himg, if_neg hshort, Option.some.injEq] at hb
          rw [← hb]
          exact hmeasured.resolve_left (Nat.not_le.mpr hfit)

end Label

/-! ### Programs -/

section Program

variable [Hardware] [Raster] {history : List (AppState × LibraryCall)} {s s' : AppState} {p : Ptr}
  {w : Widget} {call : LibraryCall} {args : LabelArgs}

/-- The widget of a configuration, its class and the arguments of its label. -/
def LibraryCall.configured : LibraryCall → Option (WidgetClass × Ptr × LabelArgs)
  | .frameConfigure p args => some (.frame, p, args)
  | .buttonConfigure p args => some (.button, p, args.toLabelArgs)
  | _ => none

/-- A configuration of the widget copies no more than forty bytes with the terminator, and when it
is given a string that fits, this is the text of the widget afterwards. -/
structure TextSafe (s : AppState) (p : Ptr) (args : LabelArgs) (call : LibraryCall) : Prop where
  fits : ∀ text, args.copied = some text → text.length + 1 ≤ widgetTextSize
  stored : ∀ s' w' text, call.run s = some s' → s'.widgets p = some w' →
    args.givenText = some text → text.length + 1 ≤ widgetTextSize → w'.text = some text

omit [Hardware] [Raster] in
theorem labelled_of_undrawn {attrs attrs' : Attrs} (h : attrs'.undrawn = attrs.undrawn) :
    attrs'.labelled = attrs.labelled := by
  have hundrawn : ∀ x : Attrs, x.undrawn.labelled = x.labelled := fun x => by cases x <;> rfl
  rw [← hundrawn attrs', h, hundrawn attrs]

omit [Hardware] [Raster] in
/-- The placer keeps the attributes that a configuration has assigned. -/
theorem exists_of_refresh {s₁ : AppState} {w₁ : Widget} (ha : Assigned s s₁ p w w₁)
    (h : refresh s₁ p = some s') : ∃ w', s'.widgets p = some w' ∧ w'.text = w₁.text := by
  obtain ⟨n, hn⟩ := AppState.live_iff.mpr ⟨w₁, ha.new⟩
  have hnodes : s'.nodes = s₁.nodes := congrArg Skeleton.nodes (skeleton_refresh h)
  obtain ⟨w', hw'⟩ := AppState.live_iff.mp ⟨n, hnodes ▸ hn⟩
  have hset := (HasSettings.of_widget ha.new).retains (.refresh (P := fun _ => True) h) trivial
  exact ⟨w', hw', congrArg (·.bind FrameAttrs.text)
    (labelled_of_undrawn (congrArg Prod.snd (hset w' hw')))⟩

omit [Hardware] [Raster] in
/-- When the assignments put the attributes of the label into the widget, the call completes if
they do, and the text of the widget is theirs. -/
theorem Recorded.of_assign {a : FrameAttrs} {assign : Option AppState} (f : FrameAttrs → Widget)
    (hs : Recorded history s) (hw : s.widgets p = some w)
    (hassign : assign = (configureLabel a args).map fun a' => s.setWidget p (f a'))
    (hf : ∀ a', (f a').text = a'.text ∧ (f a').node.links = w.node.links ∧
      (f a').geomParams = w.geomParams ∧ (f a').screenLocation = w.screenLocation) :
    (∀ a', configureLabel a args = some a' → ∃ s' w', assign.bind (refresh · p) = some s' ∧
      s'.widgets p = some w' ∧ w'.text = a'.text) ∧
    ∀ s' w', assign.bind (refresh · p) = some s' → s'.widgets p = some w' →
      ∃ a', configureLabel a args = some a' ∧ w'.text = a'.text := by
  have hassigned : ∀ a', Assigned s (s.setWidget p (f a')) p w (f a') := fun a' =>
    ⟨hw, rfl, (hf a').2.1, (hf a').2.2.2⟩
  constructor
  · intro a' ha'
    obtain ⟨s', hs'⟩ := hs.exists_refresh (hassigned a') (hf a').2.2.1
    obtain ⟨w', hw', htext⟩ := exists_of_refresh (hassigned a') hs'
    refine ⟨s', w', ?_, hw', htext.trans (hf a').1⟩
    rw [hassign, ha', Option.map_some, Option.bind_some, hs']
  · intro s' w' hrun hw'
    obtain ⟨s₁, h₁, hrun⟩ := Option.bind_eq_some_iff.mp hrun
    rw [hassign] at h₁
    obtain ⟨a', ha', rfl⟩ := Option.map_eq_some_iff.mp h₁
    obtain ⟨v, hv, htext⟩ := exists_of_refresh (hassigned a') hrun
    obtain rfl := Option.some.inj (hv.symm.trans hw')
    exact ⟨a', ha', htext.trans (hf a').1⟩

/-- **A configuration that is given a text** completes when the assignments of the label do, and
the text of the widget is theirs. -/
theorem Recorded.configured {c : WidgetClass} (hs : Recorded history s)
    (hcall : call.configured = some (c, p, args)) (hw : s.widgets p = some w) (hc : w.wclass = c)
    (htext : args.text.isSome) : ∃ a, w.attrs.labelled = some a ∧
      ((∀ a', configureLabel a args = some a' → ∃ s' w', call.run s = some s' ∧
        s'.widgets p = some w' ∧ w'.text = a'.text) ∧
      ∀ s' w', call.run s = some s' → s'.widgets p = some w' →
        ∃ a', configureLabel a args = some a' ∧ w'.text = a'.text) := by
  cases call with
  | frameConfigure q frameArgs =>
    simp only [LibraryCall.configured, Option.some.injEq, Prod.mk.injEq] at hcall
    obtain ⟨rfl, rfl, rfl⟩ := hcall
    cases ha : w.attrs with
    | frame a =>
      simp only [LibraryCall.run, eiFrameConfigure_eq]
      refine ⟨a, rfl, hs.of_assign (fun a' => w.reconfigure (configuredSize frameArgs)
        (configuredContent w frameArgs.borderWidth) (.frame a')) hw ?_
          fun a' => ⟨rfl, rfl, rfl, rfl⟩⟩
      simp only [frameAssign, hw, ha, Option.bind_eq_bind, Option.bind_some]
      exact Option.map_eq_bind.symm
    | button a => simp [Widget.wclass, ha, Attrs.wclass] at hc
    | toplevel a => simp [Widget.wclass, ha, Attrs.wclass] at hc
  | buttonConfigure q buttonArgs =>
    simp only [LibraryCall.configured, Option.some.injEq, Prod.mk.injEq] at hcall
    obtain ⟨rfl, rfl, rfl⟩ := hcall
    cases ha : w.attrs with
    | button a =>
      have hlabel : configureButtonLabel a.toFrameAttrs buttonArgs.toLabelArgs =
          configureLabel a.toFrameAttrs buttonArgs.toLabelArgs :=
        if_neg fun h => by simp [Option.isSome_iff_ne_none.mp htext] at h
      simp only [LibraryCall.run, eiButtonConfigure_eq]
      refine ⟨a.toFrameAttrs, rfl, hs.of_assign (fun label => w.reconfigure
        (configuredSize buttonArgs.toLabelArgs) (configuredContent w buttonArgs.borderWidth)
        (.button (configuredButton a label buttonArgs))) hw ?_ fun a' => ⟨rfl, rfl, rfl, rfl⟩⟩
      simp only [buttonAssign, hw, ha, hlabel, Option.bind_eq_bind, Option.bind_some]
      exact Option.map_eq_bind.symm
    | frame a => simp [Widget.wclass, ha, Attrs.wclass] at hc
    | toplevel a => simp [Widget.wclass, ha, Attrs.wclass] at hc
  | _ => simp [LibraryCall.configured] at hcall

/-- **When texts are stored safely.** In every run of a program, a configuration of a frame or of a
button does not overflow the storage of the text, and stores a string that fits, exactly when the
string is measured right. -/
theorem textSafe_iff {size : Size} {c : WidgetClass}
    (h : Program size (fun _ _ _ => True) history s)
    (hcall : call.configured = some (c, p, args)) (hw : s.widgets p = some w)
    (hc : w.wclass = c) : TextSafe s p args call ↔ args.TextMeasured w.text := by
  cases htext : args.text with
  | none =>
    refine iff_of_true ⟨fun text hcopied => ?_, fun s' w' text _ _ hgiven => ?_⟩
      fun arg text harg => ?_
    · simp [LabelArgs.copied, htext] at hcopied
    · simp [LabelArgs.givenText, htext] at hgiven
    · simp [htext] at harg
  | some arg =>
    obtain ⟨a, ha, hcompletes, hruns⟩ :=
      (Recorded.program h).configured hcall hw hc (by rw [htext]; rfl)
    have hstored : w.text = a.text := by rw [Widget.text, ha, Option.bind_some]
    rw [hstored, ← label_safe_iff]
    constructor
    · rintro ⟨hfits, hstored⟩
      refine ⟨hfits, fun a' text ha' hgiven hfit => ?_⟩
      obtain ⟨s', w', hrun, hw', htext'⟩ := hcompletes a' ha'
      rw [← htext', hstored s' w' text hrun hw' hgiven hfit]
    · rintro ⟨hfits, hstored⟩
      refine ⟨hfits, fun s' w' text hrun hw' hgiven hfit => ?_⟩
      obtain ⟨a', ha', htext'⟩ := hruns s' w' hrun hw'
      rw [htext', hstored a' text ha' hgiven hfit]

end Program

/-! ### Two texts of a frame -/

section Sample

attribute [local instance] sampleHardware sampleRaster

/-- A short text, at an address whose bytes are short. -/
theorem textSafe_iff_label :
    TextSafe sampleLabel 1 labelArgs (.frameConfigure 1 labelArgs) := by
  obtain ⟨w, hw⟩ := Option.isSome_iff_exists.mp
    (rfl : (sampleLabel.widgets 1).isSome)
  have hc : (sampleLabel.widgets 1).map Widget.wclass = some .frame := rfl
  rw [hw, Option.map_some, Option.some.injEq] at hc
  refine (textSafe_iff (labelHistory_program trivial) rfl hw hc).mpr ?_
  intro arg text harg _ htext
  obtain rfl := Option.some.inj harg
  obtain rfl := Option.some.inj htext
  rw [if_pos (by decide)]
  decide +kernel

/-- A text of fifty-five bytes, at an address with six bytes before the first zero. -/
def longLabelArgs : LabelArgs where
  text := some ⟨some (List.replicate 55 0x41), 6⟩

/-- The copy of the long text writes fifty-six bytes into forty. -/
theorem not_textSafe_long : Program ⟨640, 480⟩ (fun _ _ _ => True) labelHistory sampleLabel ∧
    (sampleLabel.widgets 1).map Widget.wclass = some .frame ∧
    ¬ TextSafe sampleLabel 1 longLabelArgs (.frameConfigure 1 longLabelArgs) := by
  refine ⟨labelHistory_program trivial, rfl, fun h => ?_⟩
  have hfits := h.fits (List.replicate 55 0x41) rfl
  exact absurd hfits (by decide)

end Sample

end GuiLibrary

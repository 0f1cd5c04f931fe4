import GuiLibrary.Sessions

/-!
# The relief of the buttons

The handlers of the buttons animate a press by writing the relief of the pressed button: sunken
when the button goes down and while the pointer is over it, raised while the pointer is elsewhere
and when the button is released on itself. None of them remembers the relief that the button was
given, and a release elsewhere, or a second press, leaves the relief of the button as it is.

A button that was given the relief `raised` is restored when it is released on itself, or elsewhere
after a move of the pointer. In a session in which every press is undone in this way, all buttons
but the pressed one show the relief that they were given.

## Main definitions

* `AppState.shownRelief`, `givenRelief`, `ShowsGiven`.
* `PressUndone`, `Restores`.

## Main results

* `ShowsGiven.step`, `press_undone_of_session`.
-/

namespace GuiLibrary

open Cells Traces

/-! ### The relief that a widget shows -/

/-- The relief of a button. -/
def Attrs.shownRelief : Attrs → Option Relief
  | .button a => some a.relief
  | .frame _ | .toplevel _ => none

/-- The relief that the widget shows, if it is a button. -/
def AppState.shownRelief (s : AppState) (q : Ptr) : Option Relief :=
  (s.widgets q).bind fun w => w.attrs.shownRelief

section ShownRelief

variable {s s' : AppState} {p q : Ptr} {r : Relief}

theorem AppState.shownRelief_eq_some_iff : s.shownRelief q = some r ↔
    ∃ w a, s.widgets q = some w ∧ w.attrs = .button a ∧ a.relief = r := by
  rw [shownRelief, Option.bind_eq_some_iff]
  constructor
  · rintro ⟨w, hw, hr⟩
    cases ha : w.attrs with
    | button a =>
      rw [ha] at hr
      exact ⟨w, a, hw, ha, Option.some.inj hr⟩
    | frame a => simp [ha, Attrs.shownRelief] at hr
    | toplevel a => simp [ha, Attrs.shownRelief] at hr
  · rintro ⟨w, a, hw, ha, rfl⟩
    exact ⟨w, hw, by rw [ha, Attrs.shownRelief]⟩

/-- What is drawn of a widget does not concern its relief. -/
theorem shownRelief_undrawn (attrs : Attrs) : attrs.undrawn.shownRelief = attrs.shownRelief := by
  cases attrs with
  | frame a => rfl
  | button a => rfl
  | toplevel a => rfl

theorem shownRelief_setResizeButton (w : Widget) :
    w.setResizeButton.attrs.shownRelief = w.attrs.shownRelief := by
  rw [Widget.setResizeButton]
  split
  · next a ha => rw [ha]; rfl
  · rfl
  · rfl

theorem shownRelief_setQuitButton (w : Widget) :
    w.setQuitButton.attrs.shownRelief = w.attrs.shownRelief := by
  rw [Widget.setQuitButton]
  split
  · next a ha => rw [ha]; rfl
  · rfl
  · rfl

theorem KeepsAttrs.shownRelief {P : Ptr → Prop} (h : KeepsAttrs P s s') (hq : P q)
    (hr : s'.shownRelief q = some r) : s.shownRelief q = some r := by
  obtain ⟨w', hw', hr⟩ := Option.bind_eq_some_iff.mp hr
  obtain ⟨w, hw, hattrs⟩ := (hw' ▸ h q hq).exists_old
  refine Option.bind_eq_some_iff.mpr ⟨w, hw, ?_⟩
  rw [← hr, ← shownRelief_undrawn, ← hattrs, shownRelief_undrawn]

theorem Retains.shownRelief {P : Ptr → Prop} (h : Retains P s s') (hq : P q)
    (hr : s'.shownRelief q = some r) : s.shownRelief q = some r :=
  (KeepsAttrs.of_retains h).shownRelief hq hr

/-- Showing a button gives it the relief, and the others keep theirs. -/
theorem showButton_shownRelief {relief : Relief} {b : Bool}
    (h : showButton s p relief b = some s') (hr : s'.shownRelief q = some r) :
    q = p ∧ r = relief ∨ q ≠ p ∧ s.shownRelief q = some r := by
  obtain ⟨hothers, w, a, w', -, -, hw', ha'⟩ := showButton_effect h
  by_cases hq : q = p
  · subst hq
    obtain ⟨v, b, hv, hb, rfl⟩ := AppState.shownRelief_eq_some_iff.mp hr
    obtain rfl := Option.some.inj (hw'.symm.trans hv)
    obtain rfl := Attrs.button.inj (ha'.symm.trans hb)
    exact Or.inl ⟨rfl, rfl⟩
  · exact Or.inr ⟨hq, hothers.shownRelief hq hr⟩

end ShownRelief

/-! ### The relief that a button is given -/

section GivenRelief

variable [Hardware] {history : List (AppState × Action)} {s s' : AppState} {p q : Ptr} {r : Relief}

/-- The relief of the button `q` after a widget of the class is created at `wid`: the default of the
class, and what the hidden buttons of a toplevel are given. -/
def createdRelief (c : WidgetClass) (wid q : Ptr) : Option Relief :=
  match c with
  | .frame => none
  | .button => if q = wid then some setdefaultsbutton.relief else none
  | .toplevel =>
      if q = wid + 1 then some (resizeButtonConfig.relief.getD setdefaultsbutton.relief)
      else if q = wid + 2 then some (quitButtonConfig.relief.getD setdefaultsbutton.relief)
      else none

theorem createdRelief_of_lt {c : WidgetClass} {wid : Ptr} (h : q < wid) :
    createdRelief c wid q = none := by
  have hne : ∀ k, q ≠ wid + k := fun k => Nat.ne_of_lt (Nat.lt_of_lt_of_le h (Nat.le_add_right ..))
  cases c with
  | frame => rfl
  | button => exact if_neg (hne 0)
  | toplevel => rw [createdRelief, if_neg (hne 1), if_neg (hne 2)]

/-- The relief that the step gives to the button `q`: by `ei_button_configure`, or by default. -/
def givenRelief (q : Ptr) : AppState × Action → Option Relief
  | (s, .library (.create c _ _)) => createdRelief c s.nextWidget q
  | (_, .library (.buttonConfigure p args)) => if q = p then args.relief else none
  | _ => none

/-- The widget, if it is a button, shows the relief that it was last given. -/
def ShowsGiven (history : List (AppState × Action)) (s : AppState) (q : Ptr) : Prop :=
  ∀ r, s.shownRelief q = some r → lastSome (givenRelief q) history = some r

/-- When no button is pressed, every button shows the relief that it was last given. -/
def PressUndone (history : List (AppState × Action)) (s : AppState) : Prop :=
  s.buttonPressed = none → ∀ q, ShowsGiven history s q

/-- The condition on a step that makes `p` no longer the pressed button. When `p` is released under
the pointer, it was given the relief `raised`. When it is released elsewhere, or when another button
goes down, it shows the relief that it was given. -/
def Restores (history : List (AppState × Action)) (s : AppState) : Action → Prop
  | .callback .eiHandleButtonDown _ event _ => event.IsLeftDown →
      ∀ p q, s.buttonPressed = some p → eiWidgetPick s event.mouse = some (some q) → q ≠ p →
        ShowsGiven history s p
  | .callback .eiHandleButtonUp _ event _ => event.IsLeftUp →
      ∀ p picked, s.buttonPressed = some p → eiWidgetPick s event.mouse = some picked →
        (picked = some p → lastSome (givenRelief p) history = some .raised) ∧
          (picked ≠ some p → ShowsGiven history s p)
  | _ => True

/-! ### The calls of the program -/

/-- `ei_button_configure` gives the relief of its argument, if any. -/
theorem eiButtonConfigure_shownRelief {args : ButtonArgs} (h : eiButtonConfigure s p args = some s')
    (hr : s'.shownRelief p = some r) :
      ∃ r₀, s.shownRelief p = some r₀ ∧ r = args.relief.getD r₀ := by
  rw [eiButtonConfigure_eq] at h
  obtain ⟨s₁, h₁, h⟩ := Option.bind_eq_some_iff.mp h
  obtain ⟨w, a, label, ha, hlabel, hassigned⟩ := buttonAssign_assigned h₁
  have hr₁ : s₁.shownRelief p = some r :=
    (Retains.refresh (P := fun _ => True) h).shownRelief trivial hr
  obtain ⟨v, b, hv, hb, rfl⟩ := AppState.shownRelief_eq_some_iff.mp hr₁
  obtain rfl := Option.some.inj (hassigned.new.symm.trans hv)
  obtain rfl := Attrs.button.inj hb
  exact ⟨a.relief, AppState.shownRelief_eq_some_iff.mpr ⟨w, a, hassigned.old, ha, rfl⟩,
    relief_configureLabel hlabel⟩

/-- `ei_frame_configure` gives no relief to a button. -/
theorem eiFrameConfigure_shownRelief {args : LabelArgs} (h : eiFrameConfigure s p args = some s')
    (hr : s'.shownRelief p = some r) : s.shownRelief p = some r := by
  rw [eiFrameConfigure_eq] at h
  obtain ⟨s₁, h₁, h⟩ := Option.bind_eq_some_iff.mp h
  obtain ⟨w, a, a', -, -, hassigned⟩ := frameAssign_assigned h₁
  have hr₁ := (Retains.refresh (P := fun _ => True) h).shownRelief trivial hr
  obtain ⟨v, b, hv, hb, -⟩ := AppState.shownRelief_eq_some_iff.mp hr₁
  obtain rfl := Option.some.inj (hassigned.new.symm.trans hv)
  exact absurd hb (by simp [Widget.reconfigure])

omit [Hardware] in
/-- `ei_toplevel_configure` gives no relief to a button. -/
theorem eiToplevelConfigure_shownRelief {args : ToplevelArgs}
    (h : eiToplevelConfigure s p args = some s') (hr : s'.shownRelief p = some r) :
    s.shownRelief p = some r := by
  rw [eiToplevelConfigure_eq] at h
  obtain ⟨s₁, h₁, h⟩ := Option.bind_eq_some_iff.mp h
  have hr₁ := (Retains.refresh (P := fun _ => True) h).shownRelief trivial hr
  refine toplevelAssign_of_steps (R := fun t => t.shownRelief p = some r → s.shownRelief p = some r)
    (fun t t' size ht h hr => ?_) (fun t t' f ht h _ hr => ?_)
    (fun t t' isButton flag ht h _ _ hr => ?_) id h₁ hr₁
  · obtain ⟨w, hw, rfl⟩ := Option.map_eq_some_iff.mp h
    rw [AppState.shownRelief, AppState.widgets_setWidget_self, Option.bind_some] at hr
    exact ht (Option.bind_eq_some_iff.mpr ⟨w, hw, hr⟩)
  · -- A toplevel is no button.
    obtain ⟨w, hw, h⟩ := Option.bind_eq_some_iff.mp h
    split at h
    · rw [← Option.some.inj h, AppState.shownRelief, AppState.widgets_setWidget_self] at hr
      simp [Attrs.shownRelief] at hr
    · simp at h
    · simp at h
  · exact ht ((Retains.withdrawButton (P := fun _ => True) h).shownRelief trivial hr)

/-- A hidden button shows what its configuration gives. -/
theorem createHiddenButton_shownRelief {toplevel : Ptr} {config : ButtonArgs}
    {setFlags : Widget → Widget} {place : PlaceArgs} {callback : Callback}
    (hflags : ∀ w, (setFlags w).attrs.shownRelief = w.attrs.shownRelief)
    (h : createHiddenButton s toplevel config setFlags place callback = some s')
    (hr : s'.shownRelief q = some r) :
    q = s.nextWidget ∧ r = config.relief.getD setdefaultsbutton.relief ∨
      q ≠ s.nextWidget ∧ s.shownRelief q = some r := by
  by_cases hq : q = s.nextWidget
  · subst hq
    simp only [createHiddenButton, eiWidgetCreateWith, Option.elim_some, Option.bind_eq_bind,
      Option.bind_eq_some_iff, Prod.exists, Option.some.injEq, Prod.mk.injEq] at h
    obtain ⟨s₁, button, ⟨s₀, h₁, _, rfl, rfl, rfl⟩, s₂, h₂, s₃, h₃, s₄, h₄, h₅⟩ := h
    have hr₄ := (Retains.eiBind (P := fun _ => True) h₅).shownRelief trivial hr
    have hr₃ := (Retains.eiPlace (P := fun _ => True) h₄).shownRelief trivial hr₄
    have hr₂ : s₂.shownRelief s.nextWidget = some r := by
      obtain ⟨w, hw, rfl⟩ := Option.map_eq_some_iff.mp h₃
      rw [AppState.shownRelief, AppState.widgets_setWidget_self, Option.bind_some, hflags] at hr₃
      exact Option.bind_eq_some_iff.mpr ⟨w, hw, hr₃⟩
    obtain ⟨r₀, hr₁, rfl⟩ := eiButtonConfigure_shownRelief h₂ hr₂
    have hnew := (Retains.insertChild (P := fun _ => True) h₁).shownRelief trivial hr₁
    obtain ⟨w, a, hw, ha, rfl⟩ := AppState.shownRelief_eq_some_iff.mp hnew
    obtain rfl := Option.some.inj ((s.widgets_allocWidget_self _).symm.trans hw)
    obtain rfl := Attrs.button.inj ha
    exact Or.inl ⟨rfl, rfl⟩
  · exact Or.inr ⟨hq, (Retains.createHiddenButton h).shownRelief hq hr⟩

/-- **A new button shows the default relief**, or what the creation of a toplevel gives it. -/
theorem eiWidgetCreate_shownRelief {c : WidgetClass} {parent wid : Ptr} {d : Option ℕ}
    (hs : WellFormed s) (hparent : s.Live parent)
    (h : eiWidgetCreate s c (some parent) d = some (s', wid)) (hle : s.nextWidget ≤ q)
    (hr : s'.shownRelief q = some r) : createdRelief c s.nextWidget q = some r := by
  simp only [eiWidgetCreate, eiWidgetCreateWith, Option.elim_some, Option.bind_eq_bind,
    Option.bind_eq_some_iff, Option.some.injEq, Prod.mk.injEq] at h
  obtain ⟨s₁, h₁, s₂, h₂, rfl, -⟩ := h
  have hnew : ∀ r, s₁.shownRelief q = some r →
      q = s.nextWidget ∧ (defaultAttrs c).shownRelief = some r := by
    intro r hr₁
    have hr₀ := (Retains.insertChild (P := fun _ => True) h₁).shownRelief trivial hr₁
    obtain ⟨w, hw, hr₀⟩ := Option.bind_eq_some_iff.mp hr₀
    by_cases hq : q = s.nextWidget
    · subst hq
      obtain rfl := Option.some.inj ((s.widgets_allocWidget_self _).symm.trans hw)
      exact ⟨rfl, hr₀⟩
    · rw [s.widgets_allocWidget_of_ne _ hq] at hw
      exact absurd (hs.lt_nextWidget (AppState.live_iff.mpr ⟨w, hw⟩)) (Nat.not_lt.mpr hle)
  cases c with
  | frame =>
    obtain rfl := Option.some.inj h₂
    exact absurd (hnew r hr).2 (by simp [defaultAttrs, Attrs.shownRelief])
  | button =>
    obtain rfl := Option.some.inj h₂
    obtain ⟨hq, hdefault⟩ := hnew r hr
    rw [createdRelief, if_pos hq]
    exact hdefault
  | toplevel =>
    obtain ⟨hg₁, hnext₁, ⟨n, hn, -⟩, -⟩ := insertChild_grown hs hparent h₁
    simp only [setdefaultsfunc, setdefaultstoplevel, Option.bind_eq_bind,
      Option.bind_eq_some_iff] at h₂
    obtain ⟨s₃, h₃, s₄, h₄, h₅⟩ := h₂
    have hnext₄ : s₄.nextWidget = s.nextWidget + 2 := by
      have hnext₃ := (createHiddenButton_grown hg₁.wellFormed ⟨n, hn⟩ rfl
        node_setResizeButton h₃).2.1
      rw [(eiBind_onlyBinds h₄ : OnlyBinds s₃ s₄), hnext₃, hnext₁]
    rcases createHiddenButton_shownRelief shownRelief_setQuitButton h₅ hr with ⟨hq, rfl⟩ | ⟨-, hr₄⟩
    · rw [hnext₄] at hq
      rw [createdRelief, if_neg (by simp [hq]), if_pos hq]
    · have hr₃ := (Retains.eiBind (P := fun _ => True) h₄).shownRelief trivial hr₄
      rcases createHiddenButton_shownRelief shownRelief_setResizeButton h₃ hr₃ with
        ⟨hq, rfl⟩ | ⟨-, hr₁⟩
      · rw [createdRelief, if_pos (hq.trans hnext₁)]
      · exact absurd (hnew r hr₁).2 (by simp [defaultAttrs, Attrs.shownRelief])

/-! ### Steps -/

variable [Raster]

/-- **A call shows what it gives**, and otherwise what was shown. -/
theorem LibraryCall.shownRelief {c : LibraryCall} (hs : WellFormed s) (hrun : c.run s = some s')
    (hr : s'.shownRelief q = some r) :
    ((givenRelief q (s, .library c)).or (s.shownRelief q)) = some r := by
  have hkept : ¬ c.Sets s q → s.shownRelief q = some r := fun hsets =>
    (Retains.call hs hrun).shownRelief hsets hr
  cases c with
  | create cls parent d =>
    by_cases hle : s.nextWidget ≤ q
    · obtain ⟨hparent, wid, hcreate⟩ := LibraryCall.created hrun
      have hcreated := eiWidgetCreate_shownRelief hs hparent hcreate hle hr
      rw [givenRelief, hcreated, Option.some_or]
    · rw [givenRelief, createdRelief_of_lt (Nat.not_le.mp hle), Option.none_or, hkept hle]
  | buttonConfigure p args =>
    by_cases hq : q = p
    · subst hq
      obtain ⟨r₀, hr₀, rfl⟩ := eiButtonConfigure_shownRelief hrun hr
      rw [givenRelief, if_pos rfl, hr₀]
      cases args.relief <;> rfl
    · rw [givenRelief, if_neg hq, Option.none_or, hkept hq]
  | frameConfigure p args =>
    by_cases hq : q = p
    · subst hq
      exact eiFrameConfigure_shownRelief hrun hr
    · exact hkept hq
  | toplevelConfigure p args =>
    by_cases hq : q = p
    · subst hq
      exact eiToplevelConfigure_shownRelief hrun hr
    · exact hkept hq
  | destroy p => exact hkept not_false
  | place p args => exact hkept not_false
  | unmap p => exact hkept not_false
  | bind eventtype widget tag callback userParam => exact hkept not_false
  | unbind eventtype widget tag callback userParam => exact hkept not_false
  | initialDraw => exact hkept not_false
  | redraw drawfunc fuel => exact hkept not_false

/-- All buttons but the pressed one show the relief that they were given. -/
def ReliefsFollow (history : List (AppState × Action)) (s : AppState) : Prop :=
  ∀ q, s.buttonPressed ≠ some q → ShowsGiven history s q

omit [Raster] in
/-- A step that gives no relief, changes none that must be kept, and releases no button. -/
theorem ReliefsFollow.keep {a : Action} (h : ReliefsFollow history s)
    (hpressed : s'.buttonPressed = s.buttonPressed)
    (hgiven : ∀ q, givenRelief q (s, a) = none)
    (hshown : ∀ q r, s.buttonPressed ≠ some q → s'.shownRelief q = some r →
      s.shownRelief q = some r) : ReliefsFollow (history ++ [(s, a)]) s' := by
  intro q hq r hr
  rw [hpressed] at hq
  rw [lastSome_concat, hgiven, Option.none_or]
  exact h q hq r (hshown q r hq hr)

omit [Raster] in
/-- **A callback keeps the reliefs**, when it undoes the press that it ends. -/
theorem ReliefsFollow.callback {handler : Callback} {u : Option Ptr} {event : Event}
    {userParam : Option ℕ} {processed : Bool} (h : ReliefsFollow history s)
    (hmay : Restores history s (.callback handler u event userParam))
    (hrun : runCallback noCallback handler s u event userParam = some (s', processed)) :
    ReliefsFollow (history ++ [(s, .callback handler u event userParam)]) s' := by
  have hgiven : ∀ q, givenRelief q (s, .callback handler u event userParam) = none := fun q => rfl
  have hquiet : handler ≠ .eiHandleButtonDown → handler ≠ .eiHandleButtonUp →
      handler ≠ .eiHandleButtonMove →
      ReliefsFollow (history ++ [(s, .callback handler u event userParam)]) s' :=
    fun hdown hup hmove => by
      obtain ⟨hpressed, hattrs⟩ := runCallback_quiet hdown hup hmove hrun
      exact h.keep hpressed hgiven fun _ _ _ hr => hattrs.shownRelief trivial hr
  cases handler with
  | eiHandleButtonDown =>
    obtain ⟨-, ⟨-, rfl⟩ | ⟨hdown, p, hpick, hshow⟩⟩ := eiHandleButtonDown_effect hrun
    · exact h.keep rfl hgiven fun _ _ _ hr => hr
    · have hpressed : s'.buttonPressed = some p :=
        congrArg Prod.fst (showButton_effect hshow).1.shared
      intro q hq r hr
      rw [hpressed] at hq
      rw [lastSome_concat, hgiven, Option.none_or]
      rcases showButton_shownRelief hshow hr with ⟨rfl, -⟩ | ⟨hne, hr⟩
      · exact absurd rfl hq
      · by_cases hold : s.buttonPressed = some q
        · exact hmay hdown q p hold hpick (Ne.symm hne) r hr
        · exact h q hold r hr
  | eiHandleButtonUp =>
    obtain ⟨-, ⟨-, rfl⟩ | ⟨hup, picked, hpick, ⟨hnot, rfl⟩ | ⟨p, rfl, hpressed, hshow⟩⟩⟩ :=
      eiHandleButtonUp_effect hrun
    · exact h.keep rfl hgiven fun _ _ _ hr => hr
    · -- The button is released elsewhere.
      intro q _ r hr
      rw [lastSome_concat, hgiven, Option.none_or]
      by_cases hold : s.buttonPressed = some q
      · exact (hmay hup q picked hold hpick).2 (fun heq => hnot ⟨q, heq, hold⟩) r hr
      · exact h q hold r hr
    · -- The button is released on itself.
      intro q _ r hr
      rw [lastSome_concat, hgiven, Option.none_or]
      rcases showButton_shownRelief hshow hr with ⟨rfl, rfl⟩ | ⟨hne, hr⟩
      · exact (hmay hup q (some q) hpressed hpick).1 rfl
      · exact h q (fun heq => hne (Option.some.inj (heq.symm.trans hpressed))) r hr
  | eiHandleButtonMove =>
    obtain ⟨-, rfl | ⟨p, relief, b, hpressed, hshow⟩⟩ := eiHandleButtonMove_effect hrun
    · exact h.keep rfl hgiven fun _ _ _ hr => hr
    · refine h.keep (congrArg Prod.fst (showButton_effect hshow).1.shared) hgiven
        fun q r hq hr => ?_
      rcases showButton_shownRelief hshow hr with ⟨rfl, -⟩ | ⟨-, hr⟩
      · exact absurd hpressed hq
      · exact hr
  | begResize => exact hquiet (by simp) (by simp) (by simp)
  | resize => exact hquiet (by simp) (by simp) (by simp)
  | endResize => exact hquiet (by simp) (by simp) (by simp)
  | begMove => exact hquiet (by simp) (by simp) (by simp)
  | move => exact hquiet (by simp) (by simp) (by simp)
  | endMove => exact hquiet (by simp) (by simp) (by simp)
  | quitToplevelEvent => exact hquiet (by simp) (by simp) (by simp)
  | user id => exact hquiet (by simp) (by simp) (by simp)

/-- **A step keeps the reliefs**, when it undoes the press that it ends. -/
theorem ReliefsFollow.step {a : Action} (h : ReliefsFollow history s) (hs : WellFormed s)
    (hmay : Restores history s a) (hrun : a.run s = some s') :
    ReliefsFollow (history ++ [(s, a)]) s' := by
  cases a with
  | library call =>
    intro q hq r hr
    have hpressed : s'.buttonPressed = s.buttonPressed :=
      congrArg Prod.fst (Retains.call hs hrun).shared
    have hgiven := LibraryCall.shownRelief hs hrun hr
    rw [lastSome_concat]
    rw [Option.or_eq_some_iff] at hgiven ⊢
    exact hgiven.imp_right fun hkept => ⟨hkept.1, h q (hpressed ▸ hq) r hkept.2⟩
  | callback callback q event u =>
    obtain ⟨processed, hrun⟩ := Action.callback_run hrun
    exact h.callback hmay hrun

/-- **The animation of a press is undone** in a session in which every press ends as `Restores`
asks: whenever no button is pressed, every button shows the relief that it was last given. -/
theorem press_undone_of_session (h : Session Restores history s) : PressUndone history s := by
  have hinvariant : BindInvariant s ∧ ReliefsFollow history s := by
    refine h.invariant (I := fun history s => BindInvariant s ∧ ReliefsFollow history s) ?_ ?_
    · rintro s ⟨size, rootSurface, pickSurface, h⟩
      have hstart := Started.of_eq h
      refine ⟨hstart.bindInvariant, fun q _ r hr => ?_⟩
      -- The root widget is a frame.
      obtain ⟨w, a, hw, ha, -⟩ := AppState.shownRelief_eq_some_iff.mp hr
      by_cases hq : q = 0
      · rw [hstart.widgets, hq, Function.update_self] at hw
        exact absurd (Option.some.inj hw ▸ ha) (by simp [startedRoot, Widget.reconfigure])
      · rw [hstart.widgets, Function.update_of_ne hq] at hw
        exact absurd hw (by simp)
    · rintro history s a s' ⟨hs, hreliefs⟩ hmay hrun
      exact ⟨hs.action hrun, hreliefs.step hs.wellFormed hmay hrun⟩
  exact fun hnone q => hinvariant.2 q (by simp [hnone])

omit [Raster] in
/-- The callbacks of a round give no relief. -/
theorem lastSome_givenRelief_callsFor {event : Event} {history' : List (AppState × Action)}
    (h : CallsFor event history') :
    lastSome (givenRelief q) (history ++ history') = lastSome (givenRelief q) history := by
  refine lastSome_append_of_none fun x hx => ?_
  obtain ⟨s, a⟩ := x
  obtain ⟨handler, q, u, rfl⟩ := h _ hx
  rfl

end GivenRelief

section Sample

attribute [local instance] sampleHardware sampleRaster

/-- The left mouse button goes down on the quit button. -/
def crossPress : Event := ⟨.mouseButtondown, ⟨24, 23⟩, .left⟩

/-- The left mouse button goes up on the quit button. -/
def crossRelease : Event := ⟨.mouseButtonup, ⟨24, 23⟩, .left⟩

theorem isSome_eiHandleButtonDown_crossPress :
    (eiHandleButtonDown sampleClickable crossPress).isSome := by with_unfolding_all rfl

/-- The quit button is pressed, before the toplevel is closed. -/
def samplePressed : AppState :=
  ((eiHandleButtonDown sampleClickable crossPress).get isSome_eiHandleButtonDown_crossPress).1

theorem isSome_eiHandleButtonUp_crossRelease :
    (eiHandleButtonUp noCallback samplePressed crossRelease).isSome := by with_unfolding_all rfl

/-- The quit button is released on itself. -/
def sampleReleased : AppState :=
  ((eiHandleButtonUp noCallback samplePressed crossRelease).get
    isSome_eiHandleButtonUp_crossRelease).1

/-- The press of a button that was given the relief `raised` is undone by its release. -/
theorem press_undone_of_session_released : sampleReleased.buttonPressed = none ∧
    samplePressed.shownRelief 3 = some .sunken ∧ ∃ history, PressUndone history sampleReleased := by
  have hdown : (Action.callback .eiHandleButtonDown none crossPress none).run sampleClickable =
      some samplePressed :=
    Option.map_eq_some_iff.mpr ⟨_, (Option.some_get _).symm, rfl⟩
  have hup : (Action.callback .eiHandleButtonUp none crossRelease none).run samplePressed =
      some sampleReleased :=
    Option.map_eq_some_iff.mpr ⟨_, (Option.some_get _).symm, rfl⟩
  have hidle : sampleClickable.buttonPressed = none := by with_unfolding_all rfl
  have hpressed : samplePressed.buttonPressed = some 3 := by with_unfolding_all rfl
  have hpick : eiWidgetPick samplePressed crossRelease.mouse = some (some 3) := by
    with_unfolding_all rfl
  have hs : Session Restores clickableHistory sampleClickable :=
    session_sampleClickable fun _ _ _ => trivial
  have hidle_down : Restores clickableHistory sampleClickable
      (.callback .eiHandleButtonDown none crossPress none) :=
    fun _ p q hp => absurd (hidle.symm.trans hp) (by simp)
  have hs₁ := hs.step hidle_down hdown
  refine ⟨by with_unfolding_all rfl, by with_unfolding_all rfl, _,
    press_undone_of_session (hs₁.step ?_ hup)⟩
  intro _ p picked hp hpicked
  obtain rfl := Option.some.inj (hpressed.symm.trans hp)
  obtain rfl := Option.some.inj (hpick.symm.trans hpicked)
  exact ⟨fun _ => rfl, fun hne => absurd rfl hne⟩

/-- The left mouse button goes up on the resize button. -/
def cornerRelease : Event := ⟨.mouseButtonup, ⟨60, 68⟩, .left⟩

theorem isSome_dispatch_cornerRelease :
    (dispatch noCallback 20 sampleCornered cornerRelease).isSome := by with_unfolding_all rfl

/-- The state after the release of the resize button. -/
def sampleLetGo : AppState :=
  (dispatch noCallback 20 sampleCornered cornerRelease).get isSome_dispatch_cornerRelease

/-- The resize button was given no relief, and shows a raised one after its release. -/
theorem sampleLetGo_not_undone :
    dispatch noCallback 20 sampleClickable cornerPress = some sampleCornered ∧
      dispatch noCallback 20 sampleCornered cornerRelease = some sampleLetGo ∧
      ∃ history, Session (fun _ _ _ => True) history sampleLetGo ∧
        ¬ PressUndone history sampleLetGo := by
  have h₁ : dispatch noCallback 20 sampleClickable cornerPress = some sampleCornered :=
    (Option.some_get _).symm
  have h₂ : dispatch noCallback 20 sampleCornered cornerRelease = some sampleLetGo :=
    (Option.some_get _).symm
  have h : Session (fun _ _ _ => True) clickableHistory sampleClickable :=
    session_sampleClickable fun _ _ _ => trivial
  obtain ⟨history₁, hcalls₁, hcornered⟩ := h.dispatch h₁
  obtain ⟨history₂, hcalls₂, hletgo⟩ := hcornered.dispatch h₂
  refine ⟨h₁, h₂, _, hletgo, fun hundone => ?_⟩
  have hshown := hundone (by with_unfolding_all rfl) 2 .raised (by with_unfolding_all rfl)
  rw [lastSome_givenRelief_callsFor hcalls₂, lastSome_givenRelief_callsFor hcalls₁] at hshown
  exact absurd hshown (by decide +kernel)

end Sample

end GuiLibrary

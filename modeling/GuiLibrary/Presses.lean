import GuiLibrary.Updates

/-!
# Pressed buttons

The handlers of the mouse show a button pressed or not: they change its relief and shift its label,
and invalidate its location. What the handlers do not announce is the label of a button that was
pressed with the pointer over it, when the button under the pointer is another one by the time of
the next press or release: the shift ends, and nothing is invalidated.

## Main definitions

* `PressFollows`, `PressStep`.

## Main results

* `pressStep_of_buttonDown` and the like: what the handlers do.
* `PressStep.announces`.
-/

namespace GuiLibrary

open Cells Pictures

section Press

variable {window : Size} {s s' : AppState} {p q : Ptr} {x : Point} {event : Event}
  {processed : Bool}

/-- The condition on a press or a release at the pixel: a button that shows there, pressed and with
the pointer over it, is the one under the pointer. -/
def PressFollows (s : AppState) (event : Event) (x : Point) : Prop :=
  ∀ q, s.buttonPressed = some q → s.pressingOver → InExtentOf (s.widgets q) x →
    eiWidgetPick s event.mouse = some (some q)

/-- Whether the label of the widget is shifted. -/
def Shifted (s : AppState) (q : Ptr) : Prop := s.buttonPressed = some q ∧ s.pressingOver

theorem view_eq_of_shifted (hq : s'.widgets q = s.widgets q) (h : Shifted s' q ↔ Shifted s q) :
    s'.view q = s.view q := by
  have hdec : decide (s'.buttonPressed = some q ∧ s'.pressingOver) =
      decide (s.buttonPressed = some q ∧ s.pressingOver) := decide_eq_decide.mpr h
  rw [AppState.view, AppState.view, hq, hdec]

/-- Another button is pressed, or none, and rectangles may be invalidated: the widgets whose labels
shift must not show at the pixel. -/
theorem announces_of_widgets (hsurfaces : ∀ π, s'.surfaceOf π = s.surfaceOf π)
    (hroot : s'.rootWidget = s.rootWidget) (hwidgets : s'.widgets = s.widgets)
    (hdamage : DamageMonotone s s')
    (hshift : ∀ q, s.rootWidget = some q ∨ InExtentOf (s.widgets q) x →
      (Shifted s' q ↔ Shifted s q)) : Announces x (fun _ => True) s s' := by
  refine ⟨hsurfaces, hroot, fun r hr => ⟨trivial, view_eq_of_shifted (congrFun hwidgets r)
    (hshift r (Or.inl hr))⟩, hdamage x, fun q _ _ hne hext => ?_,
    fun q hq => absurd trivial hq, fun root r r' f f' hr hr' hf hf' => ?_⟩
  · have hext : InExtentOf (s.widgets q) x := hext.elim id fun h => by rwa [← hwidgets]
    exact absurd (view_eq_of_shifted (congrFun hwidgets q) (hshift q (Or.inr hext))) hne
  · have hnodes : s'.nodes = s.nodes := funext fun q => by
      rw [AppState.nodes, AppState.nodes, hwidgets]
    rw [hwidgets] at hr'
    obtain rfl := Option.some.inj (hr.symm.trans hr')
    rw [hnodes] at hf'
    rw [hf'.unique hf]

/-- What showing a button does, when it lies in the window: its relief changes, and its location is
invalidated. -/
theorem showButton_spec {t : AppState} {pressed : Option Ptr} {relief : Relief} {b : Bool}
    (hwin : s.HasWindow window)
    (hin : ∀ w a, s.widgets p = some w → w.attrs = .button a → w.screenLocation.InWindow window)
    (ht : t = { s with buttonPressed := pressed }) (h : showButton t p relief b = some s') :
    ∃ w a, s.widgets p = some w ∧ w.attrs = .button a ∧
      s' = { s with
        widgets := Function.update s.widgets p
          (some { w with attrs := .button { a with relief := relief } })
        buttonPressed := pressed
        pressingOver := b
        invalidatedRects := (s.addDamage window w.screenLocation).invalidatedRects } := by
  subst ht
  have hwin' : AppState.HasWindow { s with buttonPressed := pressed } window := hwin
  obtain ⟨w, a, hp, ha, rfl⟩ := showButton_eq hwin' h
  refine ⟨w, a, hp, ha, ?_⟩
  rw [normalizeRect_eq_self_iff.mpr (hin w a hp ha)]
  rfl

/-- **Showing a button pressed or not is announced**, when no other button at the pixel is pressed
or let go with it. -/
theorem announces_showButton {t : AppState} {pressed : Option Ptr} {relief : Relief} {b : Bool}
    (hwin : s.HasWindow window)
    (hin : ∀ w a, s.widgets p = some w → w.attrs = .button a → w.screenLocation.InWindow window)
    (hroot : s.rootWidget ≠ some p) (hx : x ∈ Rect.ofSize window)
    (ht : t = { s with buttonPressed := pressed }) (h : showButton t p relief b = some s')
    (hshift : ∀ q, q ≠ p → s.rootWidget = some q ∨ InExtentOf (s.widgets q) x →
      (Shifted s' q ↔ Shifted s q)) : Announces x (fun _ => True) s s' := by
  obtain ⟨w, a, hp, ha, hs'⟩ := showButton_spec hwin hin ht h
  have hself : s'.widgets p = some { w with attrs := .button { a with relief := relief } } := by
    rw [hs']
    exact Function.update_self ..
  have hother : ∀ q, q ≠ p → s'.widgets q = s.widgets q := fun q hq => by
    rw [hs']
    exact Function.update_of_ne hq ..
  have hlinks : ∀ q, (s'.nodes q).map Node.links = (s.nodes q).map Node.links := by
    intro q
    by_cases hq : q = p
    · subst hq
      rw [AppState.nodes_of_widgets hself, AppState.nodes_of_widgets hp]
      rfl
    · rw [AppState.nodes, AppState.nodes, hother q hq]
  have hrects : s'.invalidatedRects = (s.addDamage window w.screenLocation).invalidatedRects := by
    rw [hs']
  refine ⟨fun π => by rw [hs']; cases π <;> rfl, by rw [hs'], fun r hr => ⟨trivial, ?_⟩,
    fun hc => ?_, fun q _ _ hne hext => ?_, fun q hq => absurd trivial hq,
    fun root r r' f f' hr hr' hf hf' => ?_⟩
  · have hrp : r ≠ p := fun hrp => hroot (hrp ▸ hr)
    exact view_eq_of_shifted (hother r hrp) (hshift r hrp (Or.inl hr))
  · rw [hrects]
    exact hc.linkRect_of_covered _ _
  · by_cases hqp : q = p
    · subst hqp
      rw [hrects]
      refine covered_addDamage hx ?_ s
      rcases hext with ⟨v, hv, -, hxv⟩ | ⟨v, hv, -, hxv⟩
      · obtain rfl := Option.some.inj (hp.symm.trans hv)
        rwa [Widget.extent, ha] at hxv
      · obtain rfl := Option.some.inj (hself.symm.trans hv)
        exact hxv
    · have hext : InExtentOf (s.widgets q) x := hext.elim id fun h => by rwa [hother q hqp] at h
      exact absurd (view_eq_of_shifted (hother q hqp) (hshift q hqp (Or.inr hext))) hne
  · rw [forest_eq_of_links hlinks hr hr' hf hf']

/-! ### The handlers -/

/-- What the handlers of the mouse do: nothing, let a button go that is not under the pointer, press
the button under the pointer, release it, or show the pressed button as the pointer moves. The
buttons that may be shown are `shown`. -/
inductive PressStep (s : AppState) (event : Event) (shown : Ptr → Prop) : AppState → Prop
  | idle : PressStep s event shown s
  | letGo (hpick : ∀ p, s.buttonPressed = some p → eiWidgetPick s event.mouse ≠ some (some p)) :
      PressStep s event shown { s with buttonPressed := none }
  | press {p : Ptr} {s' : AppState} (hshown : shown p)
      (hpick : eiWidgetPick s event.mouse = some (some p))
      (h : showButton { s with buttonPressed := some p } p .sunken true = some s') :
      PressStep s event shown s'
  | release {p : Ptr} {s' : AppState} (hshown : shown p) (hpressed : s.buttonPressed = some p)
      (h : showButton { s with buttonPressed := none } p .raised false = some s') :
      PressStep s event shown s'
  | hover {p : Ptr} {relief : Relief} {b : Bool} {s' : AppState} (hshown : shown p)
      (hpressed : s.buttonPressed = some p) (h : showButton s p relief b = some s') :
      PressStep s event shown s'

theorem pressStep_of_buttonDown (h : eiHandleButtonDown s event = some (s', processed)) :
    PressStep s event (GoesDown s event) s' := by
  rw [eiHandleButtonDown] at h
  split_ifs at h with hleft
  · obtain ⟨rfl, -⟩ := Prod.mk.inj (Option.some.inj h)
    exact .idle
  · rw [not_or, not_not, not_not] at hleft
    simp only [Option.bind_eq_bind, Option.bind_eq_some_iff] at h
    obtain ⟨picked, hpick, h⟩ := h
    cases picked with
    | none =>
      obtain ⟨rfl, -⟩ := Prod.mk.inj (Option.some.inj h)
      exact .idle
    | some button =>
      obtain ⟨s₁, h₁, h⟩ := Option.bind_eq_some_iff.mp h
      obtain ⟨rfl, -⟩ := Prod.mk.inj (Option.some.inj h)
      exact .press ⟨hleft.1, hleft.2, hpick⟩ hpick h₁

theorem pressStep_of_buttonUp (h : eiHandleButtonUp noCallback s event = some (s', processed)) :
    PressStep s event (GoesUp s event) s' := by
  rw [eiHandleButtonUp] at h
  split_ifs at h with hleft
  · obtain ⟨rfl, -⟩ := Prod.mk.inj (Option.some.inj h)
    exact .idle
  · rw [not_or, not_not, not_not] at hleft
    simp only [Option.bind_eq_bind, Option.bind_eq_some_iff] at h
    obtain ⟨picked, hpick, h⟩ := h
    cases picked with
    | none =>
      obtain ⟨rfl, -⟩ := Prod.mk.inj (Option.some.inj h)
      exact .letGo fun p _ hp => by simp [hpick] at hp
    | some button =>
      simp only at h
      split_ifs at h with hne
      · obtain ⟨rfl, -⟩ := Prod.mk.inj (Option.some.inj h)
        refine .letGo fun p hp hpicked => hne ?_
        rw [hp, Option.some.inj (hpicked.symm.trans hpick)]
      · have hpressed := not_not.mp hne
        have hup : GoesUp s event button := ⟨hleft.1, hleft.2, hpick, hpressed⟩
        obtain ⟨s₁, h₁, h⟩ := Option.bind_eq_some_iff.mp h
        obtain ⟨w, -, h⟩ := Option.bind_eq_some_iff.mp h
        split at h
        · split at h
          · obtain ⟨rfl, -⟩ := Prod.mk.inj (Option.some.inj h)
            exact .release hup hpressed h₁
          · obtain ⟨rfl, -⟩ := Prod.mk.inj (Option.some.inj h)
            exact .release hup hpressed h₁
        · simp at h
        · simp at h

theorem pressStep_of_buttonMove (h : eiHandleButtonMove s event = some (s', processed)) :
    PressStep s event (TurnsRelief s event) s' := by
  rw [eiHandleButtonMove] at h
  split at h
  · obtain ⟨rfl, -⟩ := Prod.mk.inj (Option.some.inj h)
    exact .idle
  · next button hbutton =>
    split_ifs at h with hmove
    · obtain ⟨rfl, -⟩ := Prod.mk.inj (Option.some.inj h)
      exact .idle
    · simp only [Option.bind_eq_bind, Option.bind_eq_some_iff] at h
      obtain ⟨picked, hpick, w, hw, h⟩ := h
      split at h
      · next a ha =>
        have hfollows := fun hturns =>
          (⟨not_not.mp hmove, hbutton, picked, w, a, hpick, hw, ha, hturns⟩ :
            TurnsRelief s event button)
        split_ifs at h with hleaves hcomes
        · obtain ⟨s₁, h₁, h⟩ := Option.bind_eq_some_iff.mp h
          obtain ⟨rfl, -⟩ := Prod.mk.inj (Option.some.inj h)
          exact .hover (hfollows (Or.inl hleaves)) hbutton h₁
        · obtain ⟨s₁, h₁, h⟩ := Option.bind_eq_some_iff.mp h
          obtain ⟨rfl, -⟩ := Prod.mk.inj (Option.some.inj h)
          exact .hover (hfollows (Or.inr hcomes)) hbutton h₁
        · obtain ⟨rfl, -⟩ := Prod.mk.inj (Option.some.inj h)
          exact .idle
      · simp at h
      · simp at h

namespace PressStep

variable {shown : Ptr → Prop}

/-- A step shows no button, or the button under the pointer or the pressed one. -/
theorem shows (h : PressStep s event shown s') :
    (∃ pressed, s' = { s with buttonPressed := pressed } ∧ (pressed = s.buttonPressed ∨
      pressed = none ∧ ∀ p, s.buttonPressed = some p →
        eiWidgetPick s event.mouse ≠ some (some p))) ∨
    ∃ p pressed relief b, showButton { s with buttonPressed := pressed } p relief b = some s' ∧
      shown p ∧ (eiWidgetPick s event.mouse = some (some p) ∨ s.buttonPressed = some p) ∧
      (pressed = none ∨ pressed = some p) ∧ (s.buttonPressed = some p ∨ pressed = some p) := by
  cases h with
  | idle => exact Or.inl ⟨_, rfl, Or.inl rfl⟩
  | letGo hpick => exact Or.inl ⟨none, rfl, Or.inr ⟨rfl, hpick⟩⟩
  | press hshown hpick h =>
    exact Or.inr ⟨_, _, _, _, h, hshown, Or.inl hpick, Or.inr rfl, Or.inr rfl⟩
  | release hshown hpressed h =>
    exact Or.inr ⟨_, _, _, _, h, hshown, Or.inr hpressed, Or.inl rfl, Or.inl hpressed⟩
  | hover hshown hpressed h =>
    exact Or.inr ⟨_, _, _, _, h, hshown, Or.inr hpressed, Or.inr hpressed, Or.inl hpressed⟩

/-- **The handlers announce what they change**, but for the label of a button that is let go away
from the pointer. -/
theorem announces (h : PressStep s event shown s') (hwin : s.HasWindow window)
    (hkeeps : PressKeeps window s shown)
    (hframe : ∀ r w, s.rootWidget = some r → s.widgets r = some w → ∃ a, w.attrs = .frame a)
    (hpressed : ∀ q, s.buttonPressed = some q → s.rootWidget ≠ some q)
    (hfollows : s'.buttonPressed ≠ s.buttonPressed → PressFollows s event x)
    (hx : x ∈ Rect.ofSize window) : Announces x (fun _ => True) s s' := by
  rcases h.shows with ⟨pressed, rfl, hcase⟩ | ⟨p, pressed, relief, b, hshow, hshown, hp, hset, hone⟩
  · refine announces_of_widgets (fun π => by cases π <;> rfl) rfl rfl (.of_eq rfl) fun q hq => ?_
    rcases hcase with rfl | ⟨rfl, hpick⟩
    · rfl
    · refine iff_of_false (fun h => by simp [Shifted] at h) fun ⟨hq', hon⟩ => ?_
      rcases hq with hroot | hext
      · exact hpressed q hq' hroot
      · refine hpick q hq' (hfollows ?_ q hq' hon hext)
        rw [hq']
        simp
  · have hin : ∀ w a, s.widgets p = some w → w.attrs = .button a →
        w.screenLocation.InWindow window := fun w a => hkeeps p w a hshown
    obtain ⟨w, a, hw, ha, hs'⟩ := showButton_spec hwin hin rfl hshow
    have hbutton : s'.buttonPressed = pressed := by rw [hs']
    have hroot : s.rootWidget ≠ some p := fun hr => by
      obtain ⟨b, hb⟩ := hframe p w hr hw
      simp [ha] at hb
    refine announces_showButton hwin hin hroot hx rfl hshow fun q hq hshows => ?_
    refine iff_of_false (fun hshift => ?_) fun hshift => ?_
    · rw [Shifted, hbutton] at hshift
      rcases hset with rfl | rfl
      · simp at hshift
      · exact hq (Option.some.inj hshift.1).symm
    · rcases hone with hold | rfl
      · exact hq (Option.some.inj (hshift.1.symm.trans hold))
      · -- Another button was pressed: it does not show at the pixel.
        rcases hshows with hr | hext
        · exact hpressed q hshift.1 hr
        · have hpick := hfollows (fun heq => hq (Option.some.inj
            (hshift.1.symm.trans (heq.symm.trans hbutton)))) q hshift.1 hshift.2 hext
          rcases hp with hp | hp
          · exact hq (Option.some.inj (Option.some.inj (hpick.symm.trans hp)))
          · exact hq (Option.some.inj (hshift.1.symm.trans hp))

end PressStep

end Press

end GuiLibrary

import GuiLibrary.Data.Forest
import GuiLibrary.Surface
import Mathlib.Data.Rat.Defs
import Mathlib.Data.Option.Basic

/-!
# Widgets and the state of the application

The widget record of `ei_widget.h` with the attributes of the three classes, the list of bound
events of `ei_event_more.h`, and the global variables of the library as one state.

Widgets and bindings are cells of two memories indexed by addresses. Addresses are never reused,
and reading a cell that is not allocated is `none`: an operation of the model returns `none` where
the program follows a null pointer or a pointer to memory it has freed, or exits. The attributes
that every `setdefaultsfunc` allocates are plain values, and only the pointers that may stay `NULL`
are optional.

Most of the library only changes the geometry and the looks of widgets. `AppState.skeleton` is what
such an operation leaves alone: the hierarchy, the class flags that other code tests, the bindings
and the global pointers. `WellFormed` is the invariant of the hierarchy.

## Main definitions

* `Widget`, `Attrs`, `PlacerParam`, `Binding`, `LinkedBindedEvent`, `AppState`.
* `Widget.content`, `Node`, `AppState.nodes`, `AppState.skeleton`.
* `WellFormed`.

## Main results

* `skeleton_setWidget`: a change of geometry keeps the skeleton.
* `WellFormed.rootWidget_live`, `WellFormed.exists_forest`.
-/

namespace GuiLibrary

open Cells

/-- The address of a widget or of a binding. -/
abbrev Ptr := ℕ

/-- A C string without its terminator. -/
abbrev Text := List UInt8

/-- `ei_font_t`: a handle of the hardware layer. -/
abbrev Font := ℕ

/-! ### Enumerations -/

/-- `ei_anchor_t`. -/
inductive Anchor where
  | none | center | north | northeast | east | southeast | south | southwest | west | northwest
deriving DecidableEq, Repr

/-- `ei_relief_t`. -/
inductive Relief where
  | none | raised | sunken
deriving DecidableEq, Repr

/-- `ei_axis_set_t`. -/
inductive AxisSet where
  | none | x | y | both
deriving DecidableEq, Repr

/-- `ei_eventtype_t`. -/
inductive EventType where
  | none | app | keydown | keyup | mouseButtondown | mouseButtonup | mouseMove | last
deriving DecidableEq, Repr

/-- `ei_mouse_button_t`. -/
inductive MouseButton where
  | left | middle | right
deriving DecidableEq, Repr

/-- The registered widget classes. -/
inductive WidgetClass where
  | frame | button | toplevel
deriving DecidableEq, Repr

/-- The name a class is registered under. -/
def WidgetClass.name : WidgetClass → String
  | frame => "frame"
  | button => "button"
  | toplevel => "toplevel"

/-- The callbacks that can be bound: those of the library, and those of the programmer. -/
inductive Callback where
  | eiHandleButtonDown | eiHandleButtonUp | eiHandleButtonMove
  | begResize | resize | endResize
  | begMove | move | endMove
  | quitToplevelEvent
  | user (id : ℕ)
deriving DecidableEq, Repr

/-- `ei_event_t` with the parameters of mouse events. -/
structure Event where
  type : EventType
  mouse : Point
  button : MouseButton
deriving DecidableEq, Repr

/-- What the library asks of the hardware layer besides surfaces. -/
class Hardware where
  /-- `hw_text_compute_size`. -/
  hwTextComputeSize : Text → Font → Size
  /-- `ei_default_font`. -/
  eiDefaultFont : Font
  /-- What a rectangle that `malloc` has just returned contains. -/
  mallocRect : Rect

/-! ### Widgets -/

/-- `ei_placer_param_t`; the relative factors are exact rationals. -/
structure PlacerParam where
  anchor : Anchor
  x : ℤ
  y : ℤ
  width : ℤ
  height : ℤ
  relX : ℚ
  relY : ℚ
  relWidth : ℚ
  relHeight : ℚ
deriving DecidableEq, Repr

/-- The attributes of `ei_frame_t`. -/
structure FrameAttrs where
  borderWidth : ℤ
  relief : Relief
  color : Color
  text : Option Text
  textFont : Font
  textColor : Color
  textAnchor : Anchor
  img : Option Surface
  imgRect : Option Rect
  imgAnchor : Anchor

/-- The attributes of `ei_button_t`, which has all those of a frame. The callback is a function of
the programmer. -/
structure ButtonAttrs extends FrameAttrs where
  cornerRadius : ℤ
  callback : Option ℕ
  userParam : Option (Option ℕ)
  noClipping : Bool
  isQuitButton : Bool
  isResizeButton : Bool

/-- The attributes of `ei_toplevel_t`. -/
structure ToplevelAttrs where
  backgroundColor : Color
  drawRect : Rect
  title : Option Text
  titleFont : Font
  borderWidth : ℤ
  closable : Bool
  resizable : AxisSet
  minSize : Size

/-- What a widget of each class has besides the common part. -/
inductive Attrs where
  | frame (attrs : FrameAttrs)
  | button (attrs : ButtonAttrs)
  | toplevel (attrs : ToplevelAttrs)

/-- `Widget.content_rect`: a pointer to the screen location of the widget, or to a rectangle
of its own. -/
inductive ContentRect where
  | screenLocation
  | own (rect : Rect)
deriving DecidableEq, Repr

/-- `ei_widget_t` with the attributes of its class. -/
structure Widget where
  pickId : BitVec 32
  pickColor : Color
  destructor : Option ℕ
  parent : Option Ptr
  childrenHead : Option Ptr
  childrenTail : Option Ptr
  nextSibling : Option Ptr
  geomParams : Option PlacerParam
  requestedSize : Size
  screenLocation : Rect
  contentRect : ContentRect
  attrs : Attrs

/-- The class of the attributes. -/
def Attrs.wclass : Attrs → WidgetClass
  | frame _ => .frame
  | button _ => .button
  | toplevel _ => .toplevel

/-- The attributes that frames and buttons share. -/
def Attrs.labelled : Attrs → Option FrameAttrs
  | .frame a => some a
  | .button a => some a.toFrameAttrs
  | .toplevel _ => none

namespace Widget

/-- `widget->wclass`. -/
def wclass (w : Widget) : WidgetClass := w.attrs.wclass

/-- `*widget->content_rect`. -/
def content (w : Widget) : Rect :=
  match w.contentRect with
  | .screenLocation => w.screenLocation
  | .own rect => rect

/-- Writing `widget->screen_location`. -/
def setScreenLocation (w : Widget) (rect : Rect) : Widget := { w with screenLocation := rect }

/-- Writing through `widget->content_rect`. -/
def setContent (w : Widget) (rect : Rect) : Widget :=
  match w.contentRect with
  | .screenLocation => w.setScreenLocation rect
  | .own _ => { w with contentRect := .own rect }

@[simp] theorem screenLocation_setScreenLocation (w : Widget) (rect : Rect) :
    (w.setScreenLocation rect).screenLocation = rect := rfl

@[simp] theorem attrs_setScreenLocation (w : Widget) (rect : Rect) :
    (w.setScreenLocation rect).attrs = w.attrs := rfl

@[simp] theorem geomParams_setScreenLocation (w : Widget) (rect : Rect) :
    (w.setScreenLocation rect).geomParams = w.geomParams := rfl

@[simp] theorem requestedSize_setScreenLocation (w : Widget) (rect : Rect) :
    (w.setScreenLocation rect).requestedSize = w.requestedSize := rfl

@[simp] theorem setScreenLocation_self (w : Widget) :
    w.setScreenLocation w.screenLocation = w := rfl

end Widget

/-! ### Bindings -/

/-- `ei_tag_t`: a pointer to a string. Tags are compared by address in `ei_unbind` and by text in
the main loop. -/
structure Tag where
  addr : ℕ
  text : String
deriving DecidableEq, Repr

/-- What `ei_bind` stores about a binding. -/
structure Binding where
  eventtype : EventType
  widget : Option Ptr
  tag : Option Tag
  callback : Callback
  userParam : Option ℕ
  pickable : Bool
deriving DecidableEq, Repr

/-- `ei_linked_binded_event`. -/
structure LinkedBindedEvent extends Binding where
  next : Option Ptr
deriving DecidableEq, Repr

/-! ### The state -/

/-- What the program does to widgets as they are destroyed, in order. -/
inductive LogEntry where
  | destructor (id : ℕ) (w : Ptr)
  | release (w : Ptr)
deriving DecidableEq, Repr

/-- The global variables of the library, the two memories, and the log of destructions. -/
structure AppState where
  widgets : Ptr → Option Widget
  nextWidget : Ptr
  widId : BitVec 32
  rootWidget : Option Ptr
  binds : Ptr → Option LinkedBindedEvent
  nextBind : Ptr
  topEventBind : Option Ptr
  invalidatedRects : List Rect
  buttonPressed : Option Ptr
  pressingOver : Bool
  resizingToplevel : Option Ptr
  movingToplevel : Option Ptr
  offsetptr : BitVec 32 × BitVec 32
  rootSurface : Surface
  pickSurface : Surface
  log : List LogEntry

namespace AppState

/-- Writes a widget. -/
def setWidget (s : AppState) (p : Ptr) (w : Widget) : AppState :=
  { s with widgets := Function.update s.widgets p (some w) }

/-- Frees a widget. -/
def freeWidget (s : AppState) (p : Ptr) : AppState :=
  { s with widgets := Function.update s.widgets p none }

/-- Writes a binding. -/
def setBind (s : AppState) (p : Ptr) (b : LinkedBindedEvent) : AppState :=
  { s with binds := Function.update s.binds p (some b) }

/-- Frees a binding. -/
def freeBind (s : AppState) (p : Ptr) : AppState :=
  { s with binds := Function.update s.binds p none }

@[simp] theorem binds_setBind_self (s : AppState) (p : Ptr) (b : LinkedBindedEvent) :
    (s.setBind p b).binds p = some b := Function.update_self ..

theorem binds_setBind_of_ne (s : AppState) {p q : Ptr} (b : LinkedBindedEvent) (h : q ≠ p) :
    (s.setBind p b).binds q = s.binds q := Function.update_of_ne h ..

@[simp] theorem binds_freeBind_self (s : AppState) (p : Ptr) : (s.freeBind p).binds p = none :=
  Function.update_self ..

theorem binds_freeBind_of_ne (s : AppState) {p q : Ptr} (h : q ≠ p) :
    (s.freeBind p).binds q = s.binds q := Function.update_of_ne h ..

/-- Appends an entry to the log. -/
def record (s : AppState) (e : LogEntry) : AppState := { s with log := s.log ++ [e] }

@[simp] theorem widgets_setWidget_self (s : AppState) (p : Ptr) (w : Widget) :
    (s.setWidget p w).widgets p = some w := Function.update_self ..

theorem widgets_setWidget_of_ne (s : AppState) {p q : Ptr} (w : Widget) (h : q ≠ p) :
    (s.setWidget p w).widgets q = s.widgets q := Function.update_of_ne h ..

@[simp] theorem widgets_freeWidget (s : AppState) (p : Ptr) :
    (s.freeWidget p).widgets = Function.update s.widgets p none := rfl

@[simp] theorem widgets_record (s : AppState) (e : LogEntry) :
    (s.record e).widgets = s.widgets := rfl

end AppState

/-! ### The skeleton -/

/-- The flags of a widget that code outside its own class tests. -/
inductive NodeClass where
  | frame
  | button (isQuitButton isResizeButton : Bool) (callback : Option ℕ)
  | toplevel (closable : Bool) (resizable : AxisSet)
deriving DecidableEq, Repr

/-- What the changes of geometry and looks leave alone of a widget. -/
structure Node where
  nodeClass : NodeClass
  pickId : BitVec 32
  pickColor : Color
  destructor : Option ℕ
  parent : Option Ptr
  childrenHead : Option Ptr
  childrenTail : Option Ptr
  nextSibling : Option Ptr
deriving DecidableEq, Repr

/-- The links of a widget. -/
def Node.links (n : Node) : Option Ptr × Option Ptr × Option Ptr × Option Ptr :=
  (n.parent, n.childrenHead, n.childrenTail, n.nextSibling)

/-- The flags among the attributes. -/
def Attrs.nodeClass : Attrs → NodeClass
  | frame _ => .frame
  | button a => .button a.isQuitButton a.isResizeButton a.callback
  | toplevel a => .toplevel a.closable a.resizable

/-- The node of a widget. -/
def Widget.node (w : Widget) : Node :=
  ⟨w.attrs.nodeClass, w.pickId, w.pickColor, w.destructor, w.parent, w.childrenHead,
    w.childrenTail, w.nextSibling⟩

@[simp] theorem Widget.node_setScreenLocation (w : Widget) (rect : Rect) :
    (w.setScreenLocation rect).node = w.node := rfl

/-- How widgets are linked into a forest. -/
def nodeLinks : Links Ptr Node := ⟨Node.parent, Node.childrenHead, Node.nextSibling⟩

/-- The state without geometry and looks. -/
structure Skeleton where
  nodes : Ptr → Option Node
  nextWidget : Ptr
  widId : BitVec 32
  rootWidget : Option Ptr
  binds : Ptr → Option LinkedBindedEvent
  nextBind : Ptr
  topEventBind : Option Ptr
  buttonPressed : Option Ptr
  resizingToplevel : Option Ptr
  movingToplevel : Option Ptr
  pickSurface : Surface
  log : List LogEntry

namespace AppState

/-- The nodes of the hierarchy. -/
def nodes (s : AppState) (p : Ptr) : Option Node := (s.widgets p).map Widget.node

/-- What the changes of geometry and looks leave alone. -/
def skeleton (s : AppState) : Skeleton where
  nodes := s.nodes
  nextWidget := s.nextWidget
  widId := s.widId
  rootWidget := s.rootWidget
  binds := s.binds
  nextBind := s.nextBind
  topEventBind := s.topEventBind
  buttonPressed := s.buttonPressed
  resizingToplevel := s.resizingToplevel
  movingToplevel := s.movingToplevel
  pickSurface := s.pickSurface
  log := s.log

/-- `p` is an allocated widget. -/
def Live (s : AppState) (p : Ptr) : Prop := ∃ n, s.nodes p = some n

/-- `q` is a proper descendant of `p`. -/
def Below (s : AppState) (q p : Ptr) : Prop := nodeLinks.Below s.nodes q p

/-- `q` is `p` or a descendant of it. -/
def InSubtree (s : AppState) (q p : Ptr) : Prop := q = p ∨ s.Below q p

theorem nodes_eq_some {s : AppState} {p : Ptr} {n : Node} :
    s.nodes p = some n ↔ ∃ w, s.widgets p = some w ∧ w.node = n := Option.map_eq_some_iff

theorem nodes_of_widgets {s : AppState} {p : Ptr} {w : Widget} (h : s.widgets p = some w) :
    s.nodes p = some w.node := by rw [nodes, h, Option.map_some]

theorem live_iff {s : AppState} {p : Ptr} : s.Live p ↔ ∃ w, s.widgets p = some w := by
  simp only [Live, nodes_eq_some]
  exact ⟨fun ⟨_, w, hw, _⟩ => ⟨w, hw⟩, fun ⟨w, hw⟩ => ⟨_, w, hw, rfl⟩⟩

theorem nodes_setWidget (s : AppState) (p : Ptr) (w : Widget) :
    (s.setWidget p w).nodes = Function.update s.nodes p (some w.node) := by
  funext q
  by_cases hq : q = p
  · subst hq
    rw [nodes, widgets_setWidget_self, Function.update_self, Option.map_some]
  · rw [nodes, widgets_setWidget_of_ne s w hq, Function.update_of_ne hq, nodes]

/-- Chains of siblings are the same on widgets and on nodes. -/
theorem chain_nodes_iff {s : AppState} {h : Option Ptr} {l : List Ptr} :
    Chain s.nodes Node.nextSibling h l ↔ Chain s.widgets Widget.nextSibling h l := by
  induction l generalizing h with
  | nil => rfl
  | cons p l ih =>
    rw [chain_cons_iff, chain_cons_iff]
    refine and_congr_right fun _ => ⟨?_, ?_⟩
    · rintro ⟨n, hn, hl⟩
      obtain ⟨w, hw, rfl⟩ := nodes_eq_some.mp hn
      exact ⟨w, hw, ih.mp hl⟩
    · rintro ⟨w, hw, hl⟩
      exact ⟨w.node, nodes_of_widgets hw, ih.mpr hl⟩

/-- **A change of geometry keeps the skeleton.** -/
theorem skeleton_setWidget {s : AppState} {p : Ptr} {w w' : Widget} (hw : s.widgets p = some w)
    (h : w'.node = w.node) : (s.setWidget p w').skeleton = s.skeleton := by
  have hn : (s.setWidget p w').nodes = s.nodes := by
    rw [nodes_setWidget, h, Function.update_eq_self_iff, nodes_of_widgets hw]
  rw [skeleton, hn]
  rfl

theorem nodes_eq_of_skeleton {s s' : AppState} (h : s'.skeleton = s.skeleton) :
    s'.nodes = s.nodes := congrArg Skeleton.nodes h

end AppState

/-! ### The invariant of the hierarchy -/

/-- The widgets form a tree: they are linked as a forest whose parents are older than their
children, the tail of every children list is its last element, and only the root has no
parent. -/
structure WellFormed (s : AppState) : Prop where
  linked : WellLinked nodeLinks s.nodes id s.nextWidget
  tail : ∀ p n l, s.nodes p = some n → Chain s.nodes Node.nextSibling n.childrenHead l →
    n.childrenTail = l.getLast?
  root : ∀ p n, s.nodes p = some n → n.parent = none → s.rootWidget = some p
  rootWidget_lt : ∀ p, s.rootWidget = some p → p < s.nextWidget

namespace WellFormed

variable {s s' : AppState}

/-- The invariant only reads the skeleton. -/
theorem congr (hw : WellFormed s) (h : s'.skeleton = s.skeleton) : WellFormed s' := by
  have hn : s'.nodes = s.nodes := congrArg Skeleton.nodes h
  have hw' : s'.nextWidget = s.nextWidget := congrArg Skeleton.nextWidget h
  have hr : s'.rootWidget = s.rootWidget := congrArg Skeleton.rootWidget h
  refine ⟨?_, ?_, ?_, ?_⟩
  · rw [hn, hw']
    exact hw.linked
  · rw [hn]
    exact hw.tail
  · rw [hn, hr]
    exact hw.root
  · rw [hr, hw']
    exact hw.rootWidget_lt

theorem lt_nextWidget (hw : WellFormed s) {p : Ptr} (hp : s.Live p) : p < s.nextWidget := by
  obtain ⟨n, hn⟩ := hp
  exact hw.linked.rank_bound p n hn

/-- Every widget is the root, which has no parent, or lies below it. -/
theorem inSubtree_root (hw : WellFormed s) {p : Ptr} (hp : s.Live p) :
    ∃ r n, s.rootWidget = some r ∧ s.nodes r = some n ∧ n.parent = none ∧ s.InSubtree p r := by
  induction hn : p using Nat.strongRecOn generalizing p with
  | ind k ih =>
    subst hn
    obtain ⟨n, hn⟩ := hp
    cases ho : n.parent with
    | none => exact ⟨p, n, hw.root p n hn ho, hn, ho, Or.inl rfl⟩
    | some o =>
      have hpo : nodeLinks.ChildOf s.nodes p o := ⟨n, hn, ho⟩
      obtain ⟨r, m, hr, hm, hnone, hor⟩ :=
        ih o (hw.linked.rank_lt p o hpo) (hw.linked.parent_live p o hpo) rfl
      refine ⟨r, m, hr, hm, hnone, Or.inr ?_⟩
      rcases hor with rfl | hor
      · exact .single hpo
      · exact Relation.TransGen.head hpo hor

/-- While a widget is allocated, the root is. -/
theorem rootWidget_live (hw : WellFormed s) {p : Ptr} (hp : s.Live p) :
    ∃ r w, s.rootWidget = some r ∧ s.widgets r = some w ∧ w.parent = none := by
  obtain ⟨r, n, hr, hn, hnone, -⟩ := hw.inSubtree_root hp
  obtain ⟨w, hwr, rfl⟩ := AppState.nodes_eq_some.mp hn
  exact ⟨r, w, hr, hwr, hnone⟩

/-- A widget with a parent is not the root. -/
theorem rootWidget_ne (hw : WellFormed s) {p o : Ptr} {w : Widget} (hp : s.widgets p = some w)
    (ho : w.parent = some o) : s.rootWidget ≠ some p := by
  intro h
  obtain ⟨r, w', hr, hw', hnone⟩ := hw.rootWidget_live (AppState.live_iff.mpr ⟨w, hp⟩)
  obtain rfl : p = r := Option.some.inj (h.symm.trans hr)
  obtain rfl := Option.some.inj (hp.symm.trans hw')
  simp [hnone] at ho

/-- A widget is not its own parent. -/
theorem parent_ne (hw : WellFormed s) {p o : Ptr} (ho : nodeLinks.ChildOf s.nodes p o) : o ≠ p := by
  rintro rfl
  exact hw.linked.not_below_self o (.single ho)

/-- The parent of a widget is not in its subtree. -/
theorem not_inSubtree_parent (hw : WellFormed s) {p o : Ptr}
    (ho : nodeLinks.ChildOf s.nodes p o) : ¬ s.InSubtree o p := by
  rintro (h | h)
  · exact hw.parent_ne ho h
  · exact hw.linked.not_below_self p (.head ho h)

/-- The subtrees of siblings are apart. -/
theorem not_inSubtree_sibling (hw : WellFormed s) {p q o : Ptr}
    (hp : nodeLinks.ChildOf s.nodes p o) (hq : nodeLinks.ChildOf s.nodes q o) (hne : p ≠ q) :
    ¬ s.InSubtree p q := by
  rintro (h | h)
  · exact hne h
  · exact hw.linked.not_below_sibling hp hq h

/-- The children list of a widget. -/
theorem exists_children (hw : WellFormed s) {p : Ptr} {n : Node} (hn : s.nodes p = some n) :
    ∃ l, Chain s.nodes Node.nextSibling n.childrenHead l ∧ n.childrenTail = l.getLast? ∧
      ∀ c, c ∈ l ↔ nodeLinks.ChildOf s.nodes c p := by
  obtain ⟨l, hl, hmem⟩ := hw.linked.children p n hn
  exact ⟨l, hl, hw.tail p n l hn hl, hmem⟩

/-- The members of a children list are the children. -/
theorem mem_children_iff (hw : WellFormed s) {p : Ptr} {n : Node} {l : List Ptr}
    (hn : s.nodes p = some n) (hl : Chain s.nodes Node.nextSibling n.childrenHead l) {c : Ptr} :
    c ∈ l ↔ nodeLinks.ChildOf s.nodes c p := by
  obtain ⟨l', hl', -, hmem⟩ := hw.exists_children hn
  obtain rfl := hl'.unique hl
  exact hmem c

/-- No widget is in its own children list. -/
theorem notMem_children (hw : WellFormed s) {p : Ptr} {n : Node} {l : List Ptr}
    (hn : s.nodes p = some n) (hl : Chain s.nodes Node.nextSibling n.childrenHead l) : p ∉ l :=
  fun h => hw.parent_ne ((hw.mem_children_iff hn hl).mp h) rfl

/-- The next address to be allocated holds no widget. -/
theorem nodes_nextWidget (hw : WellFormed s) : s.nodes s.nextWidget = none :=
  Option.eq_none_iff_forall_not_mem.mpr fun n hn =>
    Nat.lt_irrefl _ (hw.linked.rank_bound s.nextWidget n hn)

/-- The next address to be allocated is in no children list. -/
theorem nextWidget_notMem (hw : WellFormed s) {h : Option Ptr} {l : List Ptr}
    (hl : Chain s.nodes Node.nextSibling h l) : s.nextWidget ∉ l := fun hmem => by
  obtain ⟨n, hn⟩ := hl.live _ hmem
  simp [hw.nodes_nextWidget] at hn

/-- A hierarchy whose children lists have the right tails is well formed. -/
theorem of_children
    (hchildren : ∀ p n, s.nodes p = some n → ∃ l, Chain s.nodes Node.nextSibling n.childrenHead l ∧
      n.childrenTail = l.getLast? ∧ ∀ c, c ∈ l ↔ nodeLinks.ChildOf s.nodes c p)
    (hparent : ∀ c p, nodeLinks.ChildOf s.nodes c p → ∃ n, s.nodes p = some n)
    (hlt : ∀ c p, nodeLinks.ChildOf s.nodes c p → p < c)
    (hbound : ∀ p n, s.nodes p = some n → p < s.nextWidget)
    (hroot : ∀ p n, s.nodes p = some n → n.parent = none → s.rootWidget = some p)
    (hrootlt : ∀ p, s.rootWidget = some p → p < s.nextWidget) : WellFormed s where
  linked :=
    { children := fun p n hn =>
        let ⟨l, hl, _, hmem⟩ := hchildren p n hn
        ⟨l, hl, hmem⟩
      parent_live := hparent
      rank_lt := hlt
      rank_bound := hbound }
  tail p n l hn hl := by
    obtain ⟨l', hl', htail, -⟩ := hchildren p n hn
    rw [htail, hl.unique hl']
  root := hroot
  rootWidget_lt := hrootlt

/-- The invariant of the hierarchy only reads the links. -/
theorem of_links (hs : WellFormed s)
    (hlinks : ∀ q, (s'.nodes q).map Node.links = (s.nodes q).map Node.links)
    (hnext : s'.nextWidget = s.nextWidget) (hroot : s'.rootWidget = s.rootWidget) :
    WellFormed s' := by
  have hmap : ∀ {γ : Type} (g : Option Ptr × Option Ptr × Option Ptr × Option Ptr → γ) q,
      (s'.nodes q).map (g ∘ Node.links) = (s.nodes q).map (g ∘ Node.links) := fun g q => by
    rw [← Option.map_map, ← Option.map_map, hlinks]
  have hback : ∀ {q n'}, s'.nodes q = some n' → ∃ n, s.nodes q = some n ∧ n.links = n'.links := by
    intro q n' hn'
    have := hlinks q
    rw [hn', Option.map_some, eq_comm, Option.map_eq_some_iff] at this
    exact this
  have hchild : ∀ c p, nodeLinks.ChildOf s'.nodes c p ↔ nodeLinks.ChildOf s.nodes c p := by
    intro c p
    have hiff : ∀ M : Ptr → Option Node, nodeLinks.ChildOf M c p ↔
        (M c).map ((fun l => l.1) ∘ Node.links) = some (some p) := fun M => by
      rw [Option.map_eq_some_iff]
      rfl
    rw [hiff, hiff, hmap]
  refine .of_children (fun p n' hn' => ?_) (fun c p h => ?_) (fun c p h => ?_) (fun p n' hn' => ?_)
    (fun p n' hn' hp => ?_) fun p hp => ?_
  · obtain ⟨n, hn, hl⟩ := hback hn'
    simp only [Node.links, Prod.mk.injEq] at hl
    obtain ⟨-, hhead, htail, -⟩ := hl
    obtain ⟨l, hl, ht, hmem⟩ := hs.exists_children hn
    refine ⟨l, ?_, htail ▸ ht, fun c => (hmem c).trans (hchild c p).symm⟩
    rw [← hhead]
    exact hl.congr fun q _ => hmap (fun l => l.2.2.2) q
  · obtain ⟨n, hn⟩ := hs.linked.parent_live c p ((hchild c p).mp h)
    have := hlinks p
    rw [hn, Option.map_some, Option.map_eq_some_iff] at this
    obtain ⟨n', hn', -⟩ := this
    exact ⟨n', hn'⟩
  · exact hs.linked.rank_lt c p ((hchild c p).mp h)
  · obtain ⟨n, hn, -⟩ := hback hn'
    rw [hnext]
    exact hs.linked.rank_bound p n hn
  · obtain ⟨n, hn, hl⟩ := hback hn'
    rw [hroot]
    exact hs.root p n hn ((congrArg Prod.fst hl).trans hp)
  · rw [hnext]
    exact hs.rootWidget_lt p (hroot ▸ hp)

/-- A widget carries the forest of its descendants. -/
theorem exists_forest (hw : WellFormed s) {p : Ptr} {w : Widget} (hp : s.widgets p = some w) :
    ∃ f, Represents nodeLinks s.nodes p w.childrenHead f :=
  hw.linked.exists_represents (AppState.nodes_of_widgets hp)

end WellFormed

end GuiLibrary

import GuiLibrary.Data.Registry
import GuiLibrary.Widget

/-!
# The registries of widget classes and geometry managers

`ei_app_create` registers the placer and the three classes of the library; an application registers
classes and managers of its own, at any time, and `ei_app_free` releases both lists. The two
registries are the same list of named records, twice: `ei_widgetclass_register` and
`ei_geometrymanager_register` differ in their types only. Both take the address of a record and
release the record when its name is known already. So the runs here are those of an application
that allocates every record that it registers, and registers it once, as the library does.

The records of the library are cleared when they are allocated, and come first. So the lists are
never broken by a record whose link was not cleared, a class or a manager of the library is never
replaced, and every record is released once. After `ei_app_free` the lists still start at a
released record.

## Main definitions

* `ClassFuncs`, `ManagerFuncs`, `Registries`.
* `Registries.eiAppCreate`, `RegistryCall.run`, `Registries.eiAppFree`.

## Main results

* `registries_of_run`, `registries_released`.
-/

namespace GuiLibrary

open Cells

/-! ### The registries -/

/-- The functions of a class: those of a class of the library, or others. -/
inductive ClassFuncs where
  | library (c : WidgetClass)
  | other (n : ℕ)
deriving DecidableEq, Repr

/-- The functions of a geometry manager: those of the placer, or others. -/
inductive ManagerFuncs where
  | placer
  | other (n : ℕ)
deriving DecidableEq, Repr

/-- The lists at `widclss_top` and `geommanager_top`. -/
structure Registries where
  classes : Registry String ClassFuncs
  managers : Registry String ManagerFuncs

/-- `ei_widgetclass_from_name`. -/
def eiWidgetclassFromName (R : Registry String ClassFuncs) (name : String) :
    Option (Option ℕ) := R.fromName name

/-- `ei_widgetclass_register`, of the record at an address. There is no result when the record is
not allocated. -/
def eiWidgetclassRegister (R : Registry String ClassFuncs) (widgetclass : ℕ) :
    Option (Registry String ClassFuncs) := R.register widgetclass

/-- `ei_geometrymanager_from_name`. -/
def eiGeometrymanagerFromName (R : Registry String ManagerFuncs) (name : String) :
    Option (Option ℕ) := R.fromName name

/-- `ei_geometrymanager_register`, of the record at an address. -/
def eiGeometrymanagerRegister (R : Registry String ManagerFuncs) (geometrymanager : ℕ) :
    Option (Registry String ManagerFuncs) := R.register geometrymanager

/-- The record that `ei_frame_register_class`, `ei_button_register_class` and
`ei_toplevel_register_class` allocate and fill. -/
def classRecord (c : WidgetClass) : Record String ClassFuncs := ⟨c.name, .library c, none⟩

/-- `ei_frame_register_class`. -/
def eiFrameRegisterClass (R : Registry String ClassFuncs) : Option (Registry String ClassFuncs) :=
  eiWidgetclassRegister (R.alloc (classRecord .frame)) R.fresh

/-- `ei_button_register_class`. -/
def eiButtonRegisterClass (R : Registry String ClassFuncs) : Option (Registry String ClassFuncs) :=
  eiWidgetclassRegister (R.alloc (classRecord .button)) R.fresh

/-- `ei_toplevel_register_class`. -/
def eiToplevelRegisterClass (R : Registry String ClassFuncs) :
    Option (Registry String ClassFuncs) :=
  eiWidgetclassRegister (R.alloc (classRecord .toplevel)) R.fresh

/-- The record of `ei_register_placer_manager`. -/
def placerRecord : Record String ManagerFuncs := ⟨"placer", .placer, none⟩

/-- `ei_register_placer_manager`. -/
def eiRegisterPlacerManager (R : Registry String ManagerFuncs) :
    Option (Registry String ManagerFuncs) :=
  eiGeometrymanagerRegister (R.alloc placerRecord) R.fresh

namespace Registries

/-- What `ei_app_create` does to the registries, which are empty before. -/
def eiAppCreate : Option Registries := do
  let managers ← eiRegisterPlacerManager .empty
  let classes ← eiFrameRegisterClass .empty
  let classes ← eiButtonRegisterClass classes
  let classes ← eiToplevelRegisterClass classes
  some ⟨classes, managers⟩

/-- What `ei_app_free` does to the registries. -/
def eiAppFree (G : Registries) : Option Registries := do
  let classes ← G.classes.freeList
  let managers ← G.managers.freeList
  some ⟨classes, managers⟩

end Registries

/-- A record that an application allocates and fills, and then registers. Its link may be anything
when the record is not cleared. -/
inductive RegistryCall where
  | widgetclass (b : Record String ClassFuncs)
  | manager (b : Record String ManagerFuncs)

namespace RegistryCall

/-- The class that is registered. -/
def classRecord? : RegistryCall → Option (Record String ClassFuncs)
  | widgetclass b => some b
  | manager _ => none

/-- The geometry manager that is registered. -/
def managerRecord? : RegistryCall → Option (Record String ManagerFuncs)
  | widgetclass _ => none
  | manager b => some b

/-- The allocation and the call. -/
def run (G : Registries) : RegistryCall → Option Registries
  | widgetclass b =>
      (eiWidgetclassRegister (G.classes.alloc b) G.classes.fresh).map fun R =>
        { G with classes := R }
  | manager b =>
      (eiGeometrymanagerRegister (G.managers.alloc b) G.managers.fresh).map fun R =>
        { G with managers := R }

end RegistryCall

/-! ### Runs -/

/-- The classes that are registered in a run, in order. -/
def classesOf (calls : List RegistryCall) : List (Record String ClassFuncs) :=
  [classRecord .frame, classRecord .button, classRecord .toplevel] ++
    calls.filterMap RegistryCall.classRecord?

/-- The managers that are registered in a run, in order. -/
def managersOf (calls : List RegistryCall) : List (Record String ManagerFuncs) :=
  placerRecord :: calls.filterMap RegistryCall.managerRecord?

/-- The calls on the two registries are independent. -/
theorem foldlM_run (calls : List RegistryCall) : ∀ {G : Registries}
    {C : Registry String ClassFuncs} {M : Registry String ManagerFuncs},
    (calls.filterMap RegistryCall.classRecord?).foldlM Registry.registerNew G.classes = some C →
    (calls.filterMap RegistryCall.managerRecord?).foldlM Registry.registerNew G.managers = some M →
    calls.foldlM RegistryCall.run G = some ⟨C, M⟩ := by
  induction calls with
  | nil =>
    intro G C M hC hM
    obtain rfl := Option.some.inj hC
    obtain rfl := Option.some.inj hM
    rfl
  | cons call calls ih =>
    intro G C M hC hM
    cases call with
    | widgetclass b =>
      obtain ⟨R, hR, hC⟩ := Option.bind_eq_some_iff.mp hC
      have hreg : eiWidgetclassRegister (G.classes.alloc b) G.classes.fresh = some R := hR
      have hrun : RegistryCall.run G (.widgetclass b) = some { G with classes := R } := by
        rw [RegistryCall.run, hreg, Option.map_some]
      rw [List.foldlM_cons, hrun]
      exact ih (G := { G with classes := R }) hC hM
    | manager b =>
      obtain ⟨R, hR, hM⟩ := Option.bind_eq_some_iff.mp hM
      have hreg : eiGeometrymanagerRegister (G.managers.alloc b) G.managers.fresh = some R := hR
      have hrun : RegistryCall.run G (.manager b) = some { G with managers := R } := by
        rw [RegistryCall.run, hreg, Option.map_some]
      rw [List.foldlM_cons, hrun]
      exact ih (G := { G with managers := R }) hC hM

/-- What a lookup finds: no record, or the functions of one. -/
def foundFuncs {δ : Type} (R : Registry String δ) (found : Option (Option ℕ)) :
    Option (Option δ) :=
  found.map fun r => r.bind fun p => (R.cell p).map Record.data

/-- **A lookup finds the record that was registered first under its name.** -/
theorem foundFuncs_of_holds {δ : Type} {R : Registry String δ} {l : List (ℕ × String × δ)}
    {bs : List (Record String δ)} (h : R.Holds l)
    (hl : l.map Prod.snd = bs.foldl Registry.entered []) (name : String) :
    foundFuncs R (R.fromName name) = some ((bs.find? fun b => b.name = name).map Record.data) := by
  have hfind := Registry.find?_foldl_entered name bs []
  rw [← hl, List.find?_map, List.find?_nil, Option.none_or] at hfind
  rw [h.fromName_eq, foundFuncs, Option.map_some, Option.some.injEq]
  have hfst : (fun e : ℕ × String × δ => decide (e.2.1 = name)) =
      (fun e : String × δ => decide (e.1 = name)) ∘ Prod.snd := rfl
  have hdata : ∀ e, l.find? (fun e => e.2.1 = name) = some e →
      (R.cell e.1).map Record.data = some e.2.2 := by
    intro e he
    have hrec := h.records e (List.mem_of_find?_eq_some he)
    obtain ⟨b, hb, heq⟩ := Option.map_eq_some_iff.mp hrec
    rw [hb, Option.map_some, ← heq]
  rw [← hfst] at hfind
  cases he : l.find? (fun e => decide (e.2.1 = name)) with
  | none =>
    rw [he] at hfind
    cases hb : bs.find? (fun b => decide (b.name = name)) with
    | none => rfl
    | some b => simp [hb] at hfind
  | some e =>
    rw [he, Option.map_some] at hfind
    rw [Option.map_some, Option.bind_some, hdata e he]
    obtain ⟨b, hb, heq⟩ := Option.map_eq_some_iff.mp hfind.symm
    rw [hb, Option.map_some, ← heq]

/-- What `ei_app_create` and the calls of an application register. -/
theorem exists_holds (calls : List RegistryCall) : ∃ G lc lm,
    (Registries.eiAppCreate.bind fun G => calls.foldlM RegistryCall.run G) = some G ∧
      G.classes.Holds lc ∧ lc.map Prod.snd = (classesOf calls).foldl Registry.entered [] ∧
      G.managers.Holds lm ∧ lm.map Prod.snd = (managersOf calls).foldl Registry.entered [] := by
  obtain ⟨C, lc, hC, hlc, hmapc⟩ := Registry.Holds.foldlM_registerNew (classesOf calls)
    Registry.holds_empty (Or.inr (by simp [classesOf, classRecord]))
  obtain ⟨M, lm, hM, hlm, hmapm⟩ := Registry.Holds.foldlM_registerNew (managersOf calls)
    Registry.holds_empty (Or.inr (by simp [managersOf, placerRecord]))
  refine ⟨⟨C, M⟩, lc, lm, ?_, hlc, hmapc, hlm, hmapm⟩
  obtain ⟨C₀, hC₀, hC⟩ : ∃ C₀, [classRecord .frame, classRecord .button,
      classRecord .toplevel].foldlM Registry.registerNew .empty = some C₀ ∧
      (calls.filterMap RegistryCall.classRecord?).foldlM Registry.registerNew C₀ = some C := by
    rw [classesOf, List.foldlM_append] at hC
    exact Option.bind_eq_some_iff.mp hC
  obtain ⟨M₀, hM₀, hM⟩ : ∃ M₀, Registry.registerNew .empty placerRecord = some M₀ ∧
      (calls.filterMap RegistryCall.managerRecord?).foldlM Registry.registerNew M₀ = some M :=
    Option.bind_eq_some_iff.mp hM
  have hcreate : Registries.eiAppCreate = some ⟨C₀, M₀⟩ := by
    simp only [List.foldlM_cons, List.foldlM_nil, Option.bind_eq_bind] at hC₀
    obtain ⟨C₁, h₁, hC₀⟩ := Option.bind_eq_some_iff.mp hC₀
    obtain ⟨C₂, h₂, hC₀⟩ := Option.bind_eq_some_iff.mp hC₀
    obtain ⟨C₃, h₃, hC₀⟩ := Option.bind_eq_some_iff.mp hC₀
    obtain rfl : C₃ = C₀ := Option.some.inj hC₀
    have hplacer : eiRegisterPlacerManager .empty = some M₀ := hM₀
    have hframe : eiFrameRegisterClass .empty = some C₁ := h₁
    have hbutton : eiButtonRegisterClass C₁ = some C₂ := h₂
    have htoplevel : eiToplevelRegisterClass C₂ = some C₃ := h₃
    simp only [Registries.eiAppCreate, hplacer, hframe, hbutton, htoplevel, Option.bind_eq_bind,
      Option.bind_some]
  rw [hcreate, Option.bind_some]
  exact foldlM_run calls hC hM

/-- **Every registration completes, and the first one of a name wins**: whatever records an
application allocates and registers once, a lookup finds the class or the manager of the library if
there is one of the name, and else what was registered first. -/
theorem registries_of_run (calls : List RegistryCall) : ∃ G,
    (Registries.eiAppCreate.bind fun G => calls.foldlM RegistryCall.run G) = some G ∧
    (∀ name, foundFuncs G.classes (eiWidgetclassFromName G.classes name) =
      some (((classesOf calls).find? fun b => b.name = name).map Record.data)) ∧
    (∀ name, foundFuncs G.managers (eiGeometrymanagerFromName G.managers name) =
      some (((managersOf calls).find? fun b => b.name = name).map Record.data)) ∧
    ∀ c : WidgetClass, foundFuncs G.classes (eiWidgetclassFromName G.classes c.name) =
      some (some (.library c)) := by
  obtain ⟨G, lc, lm, hrun, hlc, hmapc, hlm, hmapm⟩ := exists_holds calls
  have hclasses := foundFuncs_of_holds hlc hmapc
  refine ⟨G, hrun, hclasses, foundFuncs_of_holds hlm hmapm, fun c => (hclasses c.name).trans ?_⟩
  cases c <;> rfl

/-- **`ei_app_free` releases every record once**, when the application has allocated what it has
registered and has registered it once: it completes, and no record is left. Its lists still start at
a released record, so that a later lookup reads it. -/
theorem registries_released (calls : List RegistryCall) : ∃ G G',
    (Registries.eiAppCreate.bind fun G => calls.foldlM RegistryCall.run G) = some G ∧
    G.eiAppFree = some G' ∧ (∀ p, G'.classes.cell p = none) ∧ (∀ p, G'.managers.cell p = none) ∧
    (∀ name, eiWidgetclassFromName G'.classes name = none) ∧
    ∀ name, eiGeometrymanagerFromName G'.managers name = none := by
  obtain ⟨G, lc, lm, hrun, hlc, hmapc, hlm, hmapm⟩ := exists_holds calls
  -- The lists are not empty: the records of the library are in them.
  have hnec : lc ≠ [] := by
    rintro rfl
    have h := Registry.find?_foldl_entered "frame" (classesOf calls) []
    rw [← hmapc] at h
    simp [classesOf, classRecord, WidgetClass.name] at h
  have hnem : lm ≠ [] := by
    rintro rfl
    have h := Registry.find?_foldl_entered "placer" (managersOf calls) []
    rw [← hmapm] at h
    simp [managersOf, placerRecord] at h
  obtain ⟨C, hC, hfreedc, hlostc⟩ := hlc.freeList
  obtain ⟨M, hM, hfreedm, hlostm⟩ := hlm.freeList
  refine ⟨G, ⟨C, M⟩, hrun, ?_, hfreedc, hfreedm, hlostc hnec, hlostm hnem⟩
  simp only [Registries.eiAppFree, hC, hM, Option.bind_eq_bind, Option.bind_some]

end GuiLibrary

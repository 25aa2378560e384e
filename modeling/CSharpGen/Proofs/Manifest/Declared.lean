import Mathlib.Data.List.Forall2
import CSharpGen.Proofs.Edit.Shelves
import CSharpGen.Proofs.Manifest.Consistency

/-!
# What a manifest declares

An accepted manifest loses no declaration and keeps their order. Its file has one type for each
entry: classes, enums, records and delegates. A class has one member for each entry of its own, and
so has every class that is nested in it (`Manifest.declares_toDraft`).
-/

namespace CSharpGen

/-! ## Members -/

/-- The property that stands for a field: `const` wins over `readonly`, and a constant has a
value. -/
structure FieldEntry.Declares (f : FieldEntry) (p : Property) : Prop where
  name : p.name = Text.trim f.name
  type : p.type = some f.type
  kind : p.kind =
    if f.isConst then .constant else if f.isReadonly then .readonly else .field
  value : p.value = f.value.map .literal
  valued : f.isConst → f.value.isSome

structure PropertyEntry.Declares (e : PropertyEntry) (p : Property) : Prop where
  name : p.name = Text.trim e.name
  type : p.type = some e.type
  kind : p.kind = .property

structure MethodEntry.Declares (k : MethodEntry) (m : Method) : Prop where
  name : m.name = Text.trim k.name
  returnType : m.returnType = k.returns
  parameters : m.parameters = ParameterEntry.toParameters k.parameters
  body : m.body = Script.ofBody k.body

/-- The constructor of a class. It calls another one where the entry says so. -/
structure ConstructorEntry.Declares (className : String) (k : ConstructorEntry)
    (new : Constructor) : Prop where
  className : new.className = className
  access : new.access = k.access
  target : new.initializer.map (·.target) =
    if k.base.isSome then some .base else if k.this.isSome then some .this else none
  body : new.body = Script.ofBody k.body

structure EventEntry.Declares (e : EventEntry) (new : Event) : Prop where
  name : new.name = Text.trim e.name
  access : new.access = e.access

/-- A constant with a value, a readonly field or a field stands for its entry. -/
theorem FieldEntry.declares_built {f : FieldEntry} (valued : f.isConst → f.value.isSome) :
    f.Declares f.built := ⟨rfl, rfl, rfl, rfl, valued⟩

theorem PropertyEntry.declares_toProperty (e : PropertyEntry) : e.Declares e.toProperty :=
  ⟨rfl, rfl, rfl⟩

theorem MethodEntry.declares_built (k : MethodEntry) : k.Declares k.built := ⟨rfl, rfl, rfl, rfl⟩

theorem ConstructorEntry.declares_built (className : String) (k : ConstructorEntry) :
    k.Declares className (k.built className) := by
  unfold built
  split
  · next base => exact ⟨rfl, rfl, by simp [base, Constructor.forward], rfl⟩
  · next base this => exact ⟨rfl, rfl, by simp [base, this, Constructor.forward], rfl⟩
  · next base this => exact ⟨rfl, rfl, by simp [base, this], rfl⟩

theorem EventEntry.declares_toEvent (e : EventEntry) : e.Declares e.toEvent := ⟨rfl, rfl⟩

/-! ## Classes -/

/-- A class without its nested classes: one property for each field, then one for each property, and
one method, constructor and event for each entry. A class that does not say whether it is partial is
partial at the top level and nowhere else. -/
structure ClassEntryCore.Declares (isTop : Bool) (c : ClassEntryCore) (new : ClassCore) : Prop where
  name : new.name = Text.trim c.name
  isPartial : new.isPartial = true ↔
    c.isPartial = some true ∨ c.isPartial = none ∧ isTop = true
  properties : ∃ fields properties, new.properties = fields ++ properties ∧
    List.Forall₂ FieldEntry.Declares c.fields fields ∧
    List.Forall₂ PropertyEntry.Declares c.properties properties
  methods : List.Forall₂ MethodEntry.Declares c.methods new.methods
  constructors : List.Forall₂ (ConstructorEntry.Declares new.name) c.constructors new.constructors
  events : List.Forall₂ EventEntry.Declares c.events new.events

/-- A class with its nested classes, one for each entry at every depth. -/
inductive ClassEntry.Declares : (isTop : Bool) → ClassEntry → Class → Prop where
  | intro {isTop : Bool} {core : ClassEntryCore} {nested : List ClassEntry} {new : ClassCore}
      {inner : List Class} (own : core.Declares isTop new)
      (inside : List.Forall₂ (ClassEntry.Declares false) nested inner) :
      ClassEntry.Declares isTop ⟨core, nested⟩ ⟨new, inner⟩

theorem forall₂_map_of_mem {α β : Type} {R : α → β → Prop} {f : α → β} {items : List α}
    (each : ∀ a ∈ items, R a (f a)) : List.Forall₂ R items (items.map f) :=
  List.forall₂_map_right_iff.mpr (List.forall₂_same.mpr each)

/-- What related items have in common. -/
theorem map_eq_of_forall₂ {α β γ : Type} {R : α → β → Prop} {f : α → γ} {g : β → γ}
    (same : ∀ a b, R a b → g b = f a) {as : List α} {bs : List β} (h : List.Forall₂ R as bs) :
    bs.map g = as.map f := by
  induction h with
  | nil => rfl
  | cons first _ ih => exact congrArg₂ List.cons (same _ _ first) ih

/-- Without an answer in the entry a class is partial at the top and not inside another one. -/
theorem ClassEntryCore.Declares.isPartial_eq {isTop : Bool} {c : ClassEntryCore} {new : ClassCore}
    (h : c.Declares isTop new) : new.isPartial = c.isPartial.getD isTop := by
  rw [Bool.eq_iff_iff, h.isPartial]
  cases c.isPartial <;> simp

theorem ClassEntry.Declares.isPartial_eq {isTop : Bool} {c : ClassEntry} {new : Class}
    (h : c.Declares isTop new) : new.isPartial = c.isPartial.getD isTop := by
  cases h with
  | intro own => exact own.isPartial_eq

/-- The kinds of the properties: those of the fields, then those of the properties. -/
theorem ClassEntryCore.Declares.kinds_eq {isTop : Bool} {c : ClassEntryCore} {new : ClassCore}
    (h : c.Declares isTop new) : new.properties.map (·.kind) =
      c.fields.map (·.kind) ++ c.properties.map fun _ => .property := by
  obtain ⟨fields, properties, split, areFields, areProperties⟩ := h.properties
  rw [split, List.map_append, map_eq_of_forall₂ (fun f p declares => declares.kind) areFields,
    map_eq_of_forall₂ (fun e p declares => declares.kind) areProperties]
  rfl

/-- The fields of an entry that are constants have values. -/
def ClassEntryCore.Valued (c : ClassEntryCore) : Prop := ∀ f ∈ c.fields, f.isConst → f.value.isSome

/-- Every member of a built class stands for its entry, in the order of the entries. -/
theorem ClassEntryCore.declares_built {c : ClassEntryCore} (valued : c.Valued) {empty : Class}
    (named : empty.name = Text.trim c.name) :
    c.Declares empty.isPartial (c.built empty).toClassCore where
  name := named
  isPartial := by
    change c.isPartial.getD empty.isPartial = true ↔ _
    cases c.isPartial <;> simp
  properties := ⟨_, _, rfl, forall₂_map_of_mem fun f isField =>
      FieldEntry.declares_built (valued f isField),
    forall₂_map_of_mem fun e _ => e.declares_toProperty⟩
  methods := forall₂_map_of_mem fun k _ => k.declares_built
  constructors := forall₂_map_of_mem fun k _ => k.declares_built empty.name
  events := forall₂_map_of_mem fun e _ => e.declares_toEvent

mutual

/-- A built class stands for its entry at every depth. -/
theorem ClassEntry.declares_built : (c : ClassEntry) → (∀ core ∈ c.cores, core.Valued) →
    {empty : Class} → empty.name = Text.trim c.name →
    c.Declares empty.isPartial (c.built empty)
  | ⟨core, nested⟩, valued, empty, named => by
    rw [ClassEntry.cores, List.forall_mem_cons] at valued
    rw [ClassEntry.built]
    exact .intro (core.declares_built valued.1 named)
      (ClassEntry.declares_builtIn nested valued.2 _)

/-- A nested class is not partial by itself. -/
theorem ClassEntry.declares_builtIn : (cs : List ClassEntry) →
    (∀ core ∈ ClassEntry.allCores cs, core.Valued) → (outer : Class) →
    List.Forall₂ (ClassEntry.Declares false) cs (ClassEntry.builtIn cs outer)
  | [], _, _ => .nil
  | c :: rest, valued, outer => by
    rw [ClassEntry.allCores, List.forall_mem_append] at valued
    rw [ClassEntry.builtIn]
    have first : c.Declares (outer.child c.name).isPartial (c.built (outer.child c.name)) :=
      c.declares_built valued.1 rfl
    exact .cons first (ClassEntry.declares_builtIn rest valued.2 outer)

end

/-! ## Files -/

namespace Manifest

/-- The kinds and trimmed names of the types: classes, enums, records and delegates. -/
def titles (m : Manifest) : List (TypeDeclaration.Kind × String) :=
  m.classes.map (fun c => (.class, Text.trim c.name)) ++
    m.enums.map (fun e => (.enum, Text.trim e.name)) ++
    m.records.map (fun r => (.record, Text.trim r.name)) ++
    m.delegates.map (fun d => (.delegate, Text.trim d.name))

/-- There is one title for each entry at the top of a manifest. -/
theorem length_titles (m : Manifest) : m.titles.length = m.typeCount := by
  simp only [titles, typeCount, List.length_append, List.length_map]

theorem name_built (c : ClassEntry) (empty : Class) : (c.built empty).name = empty.name := by
  cases c
  rfl

/-- Types are built in the order of the titles: classes, enums, records, delegates. -/
theorem titles_builtTypes (m : Manifest) (file : File) :
    (m.builtTypes file).map TypeDeclaration.title = m.titles := by
  have classes (c : ClassEntry) : (TypeDeclaration.class (c.built (file.newClass c.name))).title =
      (.class, Text.trim c.name) := congrArg (TypeDeclaration.Kind.class, ·) (name_built c _)
  simp only [builtTypes, titles, List.map_append, List.map_map, Function.comp_def, classes]
  rfl

/-- The types of an accepted manifest are those of its entries, in order and with trimmed names, so
there are as many as it counts. The classes come first, and each has everything that its entry has,
at every depth. -/
theorem declares_toDraft {m : Manifest} {indent : Option Indent} {d : Draft}
    (ok : m.toDraft indent = .ok d) :
    d.file.types.map TypeDeclaration.title = m.titles ∧ d.file.types.length = m.typeCount ∧
      ∃ classes others, d.file.types = classes.map .class ++ others ∧
        List.Forall₂ (ClassEntry.Declares true) m.classes classes := by
  have outcome := m.yields_toDraft indent
  have consistent : m.Consistent := forall_not_fault_iff.mp (outcome.ok_iff.mp ⟨d, ok⟩)
  obtain rfl : d = m.built indent := outcome.eq_of_ok ok
  have titles := m.titles_builtTypes (m.emptyFile indent)
  have valued (c : ClassEntry) (member : c ∈ m.classes) : ∀ core ∈ c.cores, core.Valued := by
    intro core inside
    refine consistent.constants core ?_
    rw [cores, allCores_eq]
    exact List.mem_flatMap.mpr ⟨c, member, inside⟩
  refine ⟨titles, ?_, _, _, by rw [built, builtTypes, List.append_assoc, List.append_assoc], ?_⟩
  · rw [← length_titles, ← titles, List.length_map]
    rfl
  · refine forall₂_map_of_mem fun c member => ?_
    have empty : ((m.emptyFile indent).newClass c.name).isPartial = true := rfl
    exact empty ▸ c.declares_built (valued c member) rfl

/-- A class whose nested classes say different things about being partial, and types that do not
stand in the order of their kinds. -/
def workshop : Manifest where
  delegates := [{ name := "Ring" }]
  enums := [{ name := "Day" }]
  classes := [{
    name := " Shop "
    fields := [
      { name := "Limit", type := "int", isConst := true, isReadonly := true, value := some "3" },
      { name := "clock", type := "Clock", isReadonly := true }]
    properties := [{ name := "Name", type := "string" }]
    nested := [{ name := "Till", isPartial := some true }, { name := "Desk" }] }]

theorem declares_toDraft_workshop : ∃ d shop, workshop.toDraft none = .ok d ∧
    d.file.types.map TypeDeclaration.title = [(.class, "Shop"), (.enum, "Day"), (.delegate, "Ring")] ∧
    .class shop ∈ d.file.types ∧ shop.properties.map (·.kind) = [.constant, .readonly, .property] ∧
    shop.isPartial ∧ shop.nested.map (·.isPartial) = [true, false] := by
  obtain ⟨d, ok⟩ : ∃ d, workshop.toDraft none = .ok d := ⟨_, rfl⟩
  obtain ⟨titles, -, classes, others, types, all⟩ := declares_toDraft ok
  obtain ⟨shop, none, declares, -, rfl⟩ := List.forall₂_cons_left_iff.mp all
  have member : .class shop ∈ d.file.types := by
    rw [types]
    exact List.mem_append_left others (List.mem_map_of_mem List.mem_cons_self)
  cases declares with
  | intro own inside =>
    have nested := map_eq_of_forall₂ (fun c new declares => declares.isPartial_eq) inside
    exact ⟨d, _, ok, titles, member, own.kinds_eq, own.isPartial_eq, nested⟩

end Manifest

end CSharpGen

import CSharpGen.Proofs.Edit.Constants
import CSharpGen.Proofs.Text.Ascending

/-!
# What edits register

The registrations that edits ask for can be read off the edits, at whatever level of a file they
stand. The preamble is what these registrations make of it (`FileEdit.preamble_performAll`), so it
depends on the set of them alone.
-/

namespace CSharpGen

/-! ## Members -/

namespace Edited

variable {α ε : Type} {perform : α → ε → Edited Reply α}

/-- Edits register one after the other what each of them asks for. -/
theorem each_registered {calls : ε → List Registration}
    (step : ∀ value edit, (perform value edit).registered = calls edit) (value : α)
    (edits : List ε) : (each perform value edits).registered = edits.flatMap calls := by
  induction edits generalizing value with
  | nil => rfl
  | cons edit rest ih => exact congrArg₂ (· ++ ·) (step value edit) (ih _)

/-- Neither a refusal nor what it refuses registers anything. -/
theorem attempt_registered (old : α) (result : Except Error α) :
    (attempt old result).registered = [] := by
  cases result <;> rfl

end Edited

def PropertyEdit.calls : PropertyEdit → List Registration
  | .importNamespace name => [.importNamespace name]
  | _ => []

def MethodEdit.calls : MethodEdit → List Registration
  | .importNamespace name => [.importNamespace name]
  | _ => []

def ConstructorEdit.calls : ConstructorEdit → List Registration
  | .importNamespace name => [.importNamespace name]
  | _ => []

def EventEdit.calls : EventEdit → List Registration
  | .importNamespace name => [.importNamespace name]
  | _ => []

def DelegateEdit.calls : DelegateEdit → List Registration
  | .importNamespace name => [.importNamespace name]
  | .assemblyAttribute text => [.assemblyAttribute text]
  | _ => []

def RecordEdit.calls : RecordEdit → List Registration
  | .importNamespace name => [.importNamespace name]
  | _ => []

/-- Flags need an attribute that stands in `System`. -/
def EnumEdit.calls : EnumEdit → List Registration
  | .flags => [.importNamespace "System"]
  | .importNamespace name => [.importNamespace name]
  | _ => []

/-- The edits of a property ask for their imports and for nothing else. -/
theorem Property.performAll_registered (p : Property) (edits : List PropertyEdit) :
    (p.performAll edits).registered = edits.flatMap PropertyEdit.calls :=
  Edited.each_registered (fun _ edit => by cases edit <;> rfl) p edits

theorem Method.performAll_registered (m : Method) (edits : List MethodEdit) :
    (m.performAll edits).registered = edits.flatMap MethodEdit.calls := by
  refine Edited.each_registered (fun m edit => ?_) m edits
  cases edit with
  | generic | documentParameter => exact Edited.attempt_registered _ _
  | _ => rfl

theorem Constructor.performAll_registered (c : Constructor) (edits : List ConstructorEdit) :
    (c.performAll edits).registered = edits.flatMap ConstructorEdit.calls := by
  refine Edited.each_registered (fun c edit => ?_) c edits
  cases edit with
  | documentParameter => exact Edited.attempt_registered _ _
  | _ => rfl

theorem Event.performAll_registered (e : Event) (edits : List EventEdit) :
    (e.performAll edits).registered = edits.flatMap EventEdit.calls :=
  Edited.each_registered (fun _ edit => by cases edit <;> rfl) e edits

theorem Delegate.performAll_registered (d : Delegate) (edits : List DelegateEdit) :
    (d.performAll edits).registered = edits.flatMap DelegateEdit.calls := by
  refine Edited.each_registered (fun d edit => ?_) d edits
  cases edit with
  | generic | documentParameter => exact Edited.attempt_registered _ _
  | _ => rfl

theorem Record.performAll_registered (r : Record) (edits : List RecordEdit) :
    (r.performAll edits).registered = edits.flatMap RecordEdit.calls := by
  refine Edited.each_registered (fun r edit => ?_) r edits
  cases edit with
  | addProperty type name edits =>
    have none : (Edited.each RecordProperty.perform (.make type name) edits).registered =
        edits.flatMap fun _ => [] :=
      Edited.each_registered (fun _ edit => by cases edit <;> rfl) _ edits
    exact none.trans (by simp [RecordEdit.calls])
  | _ => rfl

theorem Enum.performAll_registered (e : Enum) (edits : List EnumEdit) :
    (e.performAll edits).registered = edits.flatMap EnumEdit.calls := by
  refine Edited.each_registered (fun e edit => ?_) e edits
  cases edit with
  | addValue name number edits =>
    have none : ({ EnumValue.ofName name with number }.performAll edits).registered =
        edits.flatMap fun _ => [] :=
      Edited.each_registered (fun _ edit => by cases edit <;> rfl) _ edits
    exact none.trans (by simp [EnumEdit.calls])
  | _ => rfl

/-! ## Classes -/

/-- The name of the property that an edit adds to a class whose properties have the given names. A
backing field is added only behind a property that is there. -/
def ClassEdit.adds? (names : List String) : ClassEdit → Option String
  | .addProperty name _ => some (Text.trim name)
  | .addBackingField property _ =>
    if !property.isEmpty && names.contains property
    then some (Text.trim (Class.backingName property)) else none
  | _ => none

mutual

/-- What an edit asks for in a class whose properties have the given names. -/
def ClassEdit.calls (names : List String) : ClassEdit → List Registration
  | .base type => [.importNamespaceOf type]
  | .addInterfaces types => types.map .importNamespaceOf
  | .importNamespace name => [.importNamespace name]
  | .assemblyAttribute text => [.assemblyAttribute text]
  | .addProperty _ edits => edits.flatMap PropertyEdit.calls
  | .addBackingField property edits =>
    if !property.isEmpty && names.contains property then edits.flatMap PropertyEdit.calls else []
  | .addMethod _ edits => edits.flatMap MethodEdit.calls
  | .addConstructor edits => edits.flatMap ConstructorEdit.calls
  | .addEvent _ edits | .addExplicitEvent _ _ _ edits => edits.flatMap EventEdit.calls
  | .addClass _ edits => ClassEdit.callsAll [] edits
  | .addDelegate _ edits => edits.flatMap DelegateEdit.calls
  | _ => []

def ClassEdit.callsAll : List String → List ClassEdit → List Registration
  | _, [] => []
  | names, edit :: rest =>
    edit.calls names ++ ClassEdit.callsAll (names ++ (edit.adds? names).toList) rest

end

/-- No edit renames a property, so later backing fields find it. -/
theorem Property.name_perform (p : Property) (edit : PropertyEdit) :
    (p.perform edit).value.name = p.name := by
  cases edit <;> simp only [perform, Edited.done, Edited.registering]

theorem Property.name_performAll (p : Property) (edits : List PropertyEdit) :
    (p.performAll edits).value.name = p.name := Edited.each_same name_perform p edits

namespace Class

/-- The names of the properties of a class, without those of its nested classes. -/
def propertyNames (c : Class) : List String := c.properties.map (·.name)

theorem propertyNames_addProperty (c : Class) (p : Property) :
    (c.addProperty p).propertyNames = c.propertyNames ++ [p.name] := by
  simp [propertyNames, addProperty]

/-- A backing field needs a property of the name that is given. -/
theorem backingField?_isSome (c : Class) (property : String) :
    (c.backingField? property).isSome = (!property.isEmpty && c.propertyNames.contains property) := by
  unfold backingField?
  split
  · next empty => simp [empty]
  · next named =>
    have exists_iff : (c.properties.find? (·.name == property)).isSome =
        c.propertyNames.contains property := by
      rw [Bool.eq_iff_iff, List.find?_isSome, List.contains_iff_mem, propertyNames, List.mem_map]
      simp
    rw [Option.isSome_map, exists_iff, Bool.eq_false_iff.mpr named]
    rfl

/-- A backing field is named after the property behind which it stands. -/
theorem backingField?_name {c : Class} {property : String} {field : Property}
    (found : c.backingField? property = some field) :
    field.name = Text.trim (backingName property) := by
  unfold backingField? at found
  split at found
  · cases found
  · obtain ⟨p, -, rfl⟩ := Option.map_eq_some_iff.mp found
    rfl

/-- An edit of a class adds at most one property. -/
theorem propertyNames_perform (edit : ClassEdit) (c : Class) :
    (perform edit c).value.propertyNames =
      c.propertyNames ++ (edit.adds? c.propertyNames).toList := by
  cases edit with
  | addProperty name edits =>
    rw [perform, Edited.into, propertyNames_addProperty, Property.name_performAll]
    rfl
  | addBackingField property edits =>
    rw [perform, performBacking, ClassEdit.adds?, ← backingField?_isSome]
    cases found : c.backingField? property with
    | none => simp
    | some field =>
      simp [propertyNames_addProperty, Property.name_performAll, backingField?_name found]
  | generic name constraints =>
    simp only [perform, addGeneric, ClassEdit.adds?, Option.toList_none, List.append_nil]
    cases c.generics.add c.name name constraints <;> rfl
  | _ =>
    simp [perform, propertyNames, ClassEdit.adds?, Edited.done, Edited.registering, Edited.into,
      addMethod, addConstructor, addEvent, addClass, addDelegate]

mutual

/-- What an edit of a class registers follows from the edit and the names of the properties that are
there. -/
theorem perform_registered : (edit : ClassEdit) → (c : Class) →
    (perform edit c).registered = edit.calls c.propertyNames
  | .addProperty name edits, _ => Property.performAll_registered _ edits
  | .addMethod name edits, _ => Method.performAll_registered _ edits
  | .addConstructor edits, _ => Constructor.performAll_registered _ edits
  | .addEvent name edits, _ => Event.performAll_registered _ edits
  | .addExplicitEvent name interface handler edits, _ => Event.performAll_registered _ edits
  | .addDelegate name edits, _ => Delegate.performAll_registered _ edits
  | .addClass name edits, c => performAll_registered edits (c.child name)
  | .addBackingField property edits, c => by
    rw [perform, performBacking, ClassEdit.calls, ← backingField?_isSome]
    cases c.backingField? property with
    | none => rfl
    | some field => exact Property.performAll_registered field edits
  | .generic name constraints, c => Edited.attempt_registered c _
  | .kind _, _ | .access _, _ | .makeStatic, _ | .makeSealed, _ | .makeAbstract, _ | .partial _, _
  | .base _, _ | .addInterfaces _, _ | .attribute _, _ | .summary _, _ | .inheritDocumentation _, _
  | .importNamespace _, _ | .assemblyAttribute _, _ | .order _, _ | .look, _ => rfl

-- The names of the properties go along with the class, for the edits that ask whether one is there.
/-- The names are taken along from one edit to the next. -/
theorem performAll_registered : (edits : List ClassEdit) → (c : Class) →
    (performAll edits c).registered = ClassEdit.callsAll c.propertyNames edits
  | [], _ => rfl
  | edit :: rest, c => by
    rw [performAll, ClassEdit.callsAll, ← propertyNames_perform]
    exact congrArg₂ (· ++ ·) (perform_registered edit c)
      (performAll_registered rest (perform edit c).value)

end

end Class

/-! ## Files -/

mutual

/-- What an edit asks for, at whatever level. A copy of a file asks for the file as well. -/
def FileEdit.calls : FileEdit → List Registration
  | .importNamespaces names => names.map .importNamespace
  | .assemblyAttribute text => [.assemblyAttribute text]
  | .addClass _ edits => ClassEdit.callsAll [] edits
  | .addEnum _ edits => edits.flatMap EnumEdit.calls
  | .addRecord _ edits => edits.flatMap RecordEdit.calls
  | .addDelegate _ edits => edits.flatMap DelegateEdit.calls
  | .copy edits => FileEdit.callsAll edits
  | .disableWarning _ | .options _ | .look => []

def FileEdit.callsAll : List FileEdit → List Registration
  | [] => []
  | edit :: rest => edit.calls ++ FileEdit.callsAll rest

end

/-- The warning that an edit disables in its file. A copy keeps its warnings for itself. -/
def FileEdit.warning? : FileEdit → Option String
  | .disableWarning code => Text.nonBlank? code
  | _ => none

namespace Preamble

theorem registerAll_append (p : Preamble) (rs others : List Registration) :
    p.registerAll (rs ++ others) = (p.registerAll rs).registerAll others := List.foldl_append

/-- A registration adds its import and removes none. -/
theorem mem_imports_register {p : Preamble} {r : Registration} {name : String} :
    name ∈ (p.register r).imports ↔ name ∈ p.imports ∨ importOf? r = some name := by
  unfold register
  cases importOf? r with
  | none => simp
  | some new => simp [eq_comm]

/-- A registration adds its attribute and removes none. -/
theorem mem_attributes_register {p : Preamble} {r : Registration} {text : String} :
    text ∈ (p.register r).assemblyAttributes ↔
      text ∈ p.assemblyAttributes ∨ attributeOf? r = some text := by
  unfold register
  cases attributeOf? r with
  | none => simp
  | some new => simp [eq_comm]

/-- The imports of a preamble are those that some registration asked for. -/
theorem mem_imports_registerAll {p : Preamble} {rs : List Registration} {name : String} :
    name ∈ (p.registerAll rs).imports ↔
      name ∈ p.imports ∨ ∃ r ∈ rs, importOf? r = some name := by
  induction rs generalizing p with
  | nil => simp [registerAll]
  | cons r rest ih =>
    rw [show p.registerAll (r :: rest) = (p.register r).registerAll rest from rfl, ih,
      mem_imports_register]
    simp [or_assoc]

theorem mem_attributes_registerAll {p : Preamble} {rs : List Registration} {text : String} :
    text ∈ (p.registerAll rs).assemblyAttributes ↔
      text ∈ p.assemblyAttributes ∨ ∃ r ∈ rs, attributeOf? r = some text := by
  induction rs generalizing p with
  | nil => simp [registerAll]
  | cons r rest ih =>
    rw [show p.registerAll (r :: rest) = (p.register r).registerAll rest from rfl, ih,
      mem_attributes_register]
    simp [or_assoc]

/-- The groups of imports depend on the set of imports alone. -/
theorem importGroups_congr {p q : Preamble}
    (same : ∀ name, name ∈ p.imports ↔ name ∈ q.imports) : p.importGroups = q.importGroups := by
  have group (kind : Import.Kind) :
      Text.ascending (p.imports.items.filter (Import.kind · == kind)) =
        Text.ascending (q.imports.items.filter (Import.kind · == kind)) :=
    Text.ascending_congr fun name => by
      rw [List.mem_filter, List.mem_filter, ← TextSet.mem_def, ← TextSet.mem_def, same]
  simp only [importGroups, ImportGroups.ofImports, group]

/-- The attribute lines depend on which attributes there are and not on how they were added. -/
theorem assemblyAttributeLines_congr {p q : Preamble}
    (same : ∀ text, text ∈ p.assemblyAttributes ↔ text ∈ q.assemblyAttributes) :
    p.assemblyAttributeLines = q.assemblyAttributeLines :=
  Text.ascending_congr fun line => by
    simp only [List.mem_filterMap, ← TextSet.mem_def, same]

end Preamble

namespace FileEdit

mutual

/-- Performing an edit registers what the edit asks for and nothing else. -/
theorem preamble_perform : (edit : FileEdit) → (d : Draft) →
    (perform edit d).1.preamble = d.preamble.registerAll edit.calls
  | .addClass name edits, d =>
    congrArg d.preamble.registerAll (Class.performAll_registered edits (d.file.newClass name))
  | .addEnum name edits, d =>
    congrArg d.preamble.registerAll (Enum.performAll_registered (d.file.newEnum name) edits)
  | .addRecord name edits, d =>
    congrArg d.preamble.registerAll (Record.performAll_registered (d.file.newRecord name) edits)
  | .addDelegate name edits, d =>
    congrArg d.preamble.registerAll (Delegate.performAll_registered (.ofName name) edits)
  | .copy edits, d => preamble_performAll edits d
  | .importNamespaces _, _ | .assemblyAttribute _, _ | .disableWarning _, _ | .options _, _
  | .look, _ => rfl

/-- The preamble is what the registrations of all edits make of it. -/
theorem preamble_performAll : (edits : List FileEdit) → (d : Draft) →
    (performAll edits d).1.preamble = d.preamble.registerAll (callsAll edits)
  | [], _ => rfl
  | edit :: rest, d => by
    rw [callsAll, Preamble.registerAll_append, ← preamble_perform edit d]
    exact preamble_performAll rest (perform edit d).1

end

/-! ## Disabled warnings -/

/-- An edit disables its warning and enables none. -/
theorem disabledWarnings_perform (edit : FileEdit) (d : Draft) :
    (perform edit d).1.file.disabledWarnings =
      edit.warning?.elim d.file.disabledWarnings (Text.insertAscending · d.file.disabledWarnings) := by
  cases edit with
  | disableWarning code =>
    rw [perform, warning?, File.disableWarning]
    cases Text.nonBlank? code <;> rfl
  | _ => simp [perform, warning?, Draft.register, Draft.addEdited, File.add]

/-- The disabled warnings depend on the set of those that the edits of the file disable. -/
theorem disabledWarnings_performAll (edits : List FileEdit) (d : Draft)
    (ascends : d.file.disabledWarnings.Pairwise (· < ·)) :
    (performAll edits d).1.file.disabledWarnings =
      Text.ascending (d.file.disabledWarnings ++ edits.filterMap warning?) := by
  induction edits generalizing d with
  | nil =>
    rw [performAll, List.filterMap_nil, List.append_nil]
    exact Text.eq_of_ascending ascends (Text.pairwise_ascending _) fun _ => Text.mem_ascending.symm
  | cons edit rest ih =>
    have first := disabledWarnings_perform edit d
    have stillAscends : (perform edit d).1.file.disabledWarnings.Pairwise (· < ·) := by
      rw [first]
      cases edit.warning? with
      | none => exact ascends
      | some code => exact Text.pairwise_insertAscending ascends
    refine (ih (perform edit d).1 stillAscends).trans (Text.ascending_congr fun code => ?_)
    rw [first]
    cases disabled : edit.warning? with
    | none => simp [disabled]
    | some new => simp [disabled, or_left_comm, or_assoc]

end FileEdit

end CSharpGen

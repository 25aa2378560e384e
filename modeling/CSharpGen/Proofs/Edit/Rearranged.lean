import CSharpGen.Proofs.Edit.Shift
import CSharpGen.Proofs.Text.OneLine

/-!
# Edits in another order

Where free edits stand, and how often, changes neither the types of a file nor its head, up to the
order in which classes name their interfaces. So it does not change what is built
(`Draft.build_rearranged`).
-/

namespace CSharpGen

/-! ## Settled classes -/

/-- Interfaces as they are written. -/
def Interfaces.written (types : List String) : List String :=
  Text.ascending (types.filterMap Text.nonBlank?)

/-- The class that names its interfaces as they are written. -/
def ClassCore.settle (c : ClassCore) : ClassCore :=
  { c with interfaces := Interfaces.written c.interfaces }

mutual

/-- The class in which all classes at any depth name their interfaces as they are written. -/
def Class.settle : Class → Class
  | ⟨core, nested⟩ => ⟨core.settle, Class.settleAll nested⟩

def Class.settleAll : List Class → List Class
  | [] => []
  | c :: rest => c.settle :: Class.settleAll rest

end

namespace Interfaces

/-- What is written of a list of types depends on which types it has, neither on their order nor on
repetitions. -/
theorem written_congr {types new : List String} (same : ∀ type, type ∈ types ↔ type ∈ new) :
    written types = written new :=
  Text.ascending_congr fun type => by simp only [List.mem_filterMap, same]

theorem mem_filterMap_written {types : List String} {type : String} :
    type ∈ (written types).filterMap Text.nonBlank? ↔ type ∈ types.filterMap Text.nonBlank? := by
  simp only [written, List.mem_filterMap, Text.mem_ascending]
  constructor
  · rintro ⟨named, ⟨given, isGiven, trimmed⟩, again⟩
    rw [Text.nonBlank?_self trimmed] at again
    exact ⟨given, isGiven, trimmed.trans again⟩
  · rintro ⟨given, isGiven, trimmed⟩
    exact ⟨type, ⟨given, isGiven, trimmed⟩, Text.nonBlank?_self trimmed⟩

/-- Writing interfaces that are written already changes nothing, also with others after them. -/
theorem written_append (types others : List String) :
    written (written types ++ others) = written (types ++ others) :=
  Text.ascending_congr fun type => by
    rw [List.filterMap_append, List.filterMap_append, List.mem_append, List.mem_append,
      mem_filterMap_written]

theorem written_written (types : List String) : written (written types) = written types := by
  simpa only [List.append_nil] using written_append types []

end Interfaces

theorem ClassCore.declaration_settle (c : ClassCore) : c.settle.declaration = c.declaration := by
  have inherited : c.settle.inherited = c.inherited :=
    congrArg ((c.base.bind Text.nonBlank?).toList ++ ·) (Interfaces.written_written c.interfaces)
  simp only [declaration, inherited]
  rfl

/-- Settling the interfaces of a class changes nothing that it writes. -/
theorem ClassCore.scriptWith_settle (c : ClassCore) (nested : Except Error (List Script)) :
    c.settle.scriptWith nested = c.scriptWith nested := by
  simp only [scriptWith, declaration_settle]
  rfl

namespace Class

mutual

/-- A settled class is written as the class itself. -/
theorem script_settle : (c : Class) → c.settle.script = c.script
  | ⟨core, nested⟩ => by
    rw [settle, script, script, scripts_settleAll nested, core.scriptWith_settle]

theorem scripts_settleAll : (cs : List Class) → scripts (settleAll cs) = scripts cs
  | [] => rfl
  | c :: rest => by rw [settleAll, scripts, scripts, script_settle c, scripts_settleAll rest]

end

mutual

theorem settle_settle : (c : Class) → c.settle.settle = c.settle
  | ⟨core, nested⟩ => by
    simp only [settle, settleAll_settleAll nested, ClassCore.settle, Interfaces.written_written]

theorem settleAll_settleAll : (cs : List Class) → settleAll (settleAll cs) = settleAll cs
  | [] => rfl
  | c :: rest => by simp only [settleAll, settle_settle c, settleAll_settleAll rest]

end

theorem settleAll_append (before after : List Class) :
    settleAll (before ++ after) = settleAll before ++ settleAll after := by
  induction before with
  | nil => rfl
  | cons c rest ih => simp only [List.cons_append, settleAll, ih]

theorem settle_addProperty_settle (c : Class) (p : Property) :
    (c.settle.addProperty p).settle = (c.addProperty p).settle := by
  obtain ⟨core, nested⟩ := c
  simp only [addProperty, settle, ClassCore.settle, Interfaces.written_written, settleAll_settleAll]

/-- An edit does the same to a settled class as to the class. -/
theorem settle_perform_settle (edit : ClassEdit) (c : Class) :
    (perform edit c.settle).value.settle = (perform edit c).value.settle := by
  cases edit with
  | addBackingField property edits =>
    have same : c.settle.backingField? property = c.backingField? property := by cases c; rfl
    rw [perform, perform, performBacking, performBacking, same]
    cases c.backingField? property with
    | none => exact c.settle_settle
    | some field => exact c.settle_addProperty_settle _
  | generic name constraints =>
    obtain ⟨core, nested⟩ := c
    simp only [perform, addGeneric, settle, ClassCore.settle]
    cases core.generics.add core.name name constraints with
    | error => exact settle_settle ⟨core, nested⟩
    | ok generics => exact settle_settle ⟨{ core with generics }, nested⟩
  | addClass name edits =>
    have same : c.settle.child name = c.child name := by cases c; rfl
    rw [perform, perform, same]
    obtain ⟨core, nested⟩ := c
    simp only [Edited.into, addClass, settle, ClassCore.settle, settleAll_append,
      settleAll_settleAll, Interfaces.written_written]
  | _ =>
    obtain ⟨core, nested⟩ := c
    simp only [perform, Edited.done, Edited.registering, Edited.into, addProperty, addMethod,
      addConstructor, constructor, addEvent, addDelegate, settle, ClassCore.settle,
      settleAll_settleAll, Interfaces.written_written, Interfaces.written_append]

/-- What settles alike still does after an edit. -/
theorem settle_perform {c other : Class} (same : c.settle = other.settle) (edit : ClassEdit) :
    (perform edit c).value.settle = (perform edit other).value.settle := by
  rw [← settle_perform_settle, same, settle_perform_settle]

/-- The same edits of classes that settle alike lead to classes that settle alike. -/
theorem settle_performAll {c other : Class} (same : c.settle = other.settle)
    (edits : List ClassEdit) :
    (performAll edits c).value.settle = (performAll edits other).value.settle := by
  induction edits generalizing c other with
  | nil => exact same
  | cons edit rest ih => exact ih (settle_perform same edit)

/-! ## Free edits of classes -/

/-- The class with further interfaces. -/
def implement (c : Class) (types : List String) : Class :=
  { c with interfaces := c.interfaces ++ types }

/-- Implementing the same interfaces in another order, or twice, settles alike. -/
theorem settle_implement_congr (c : Class) {types others : List String}
    (same : ∀ type, type ∈ types ↔ type ∈ others) :
    (c.implement types).settle = (c.implement others).settle := by
  obtain ⟨core, nested⟩ := c
  have written : Interfaces.written (core.interfaces ++ types) =
      Interfaces.written (core.interfaces ++ others) :=
    Interfaces.written_congr fun type => by rw [List.mem_append, List.mem_append, same]
  simp only [implement, settle, ClassCore.settle, written]

theorem implement_nil (c : Class) : c.implement [] = c := by
  obtain ⟨core, nested⟩ := c
  simp only [implement, List.append_nil]

theorem implement_implement (c : Class) (types others : List String) :
    (c.implement types).implement others = c.implement (types ++ others) := by
  simp only [implement, List.append_assoc]

/-- All that a free edit does to the class itself is to add interfaces. -/
theorem exists_implement {edit : ClassEdit} (isFree : edit.isFree) :
    ∃ types, ∀ c, (perform edit c).value = c.implement types := by
  cases edit with
  | addInterfaces types => exact ⟨types, fun c => by rw [perform]; rfl⟩
  | importNamespace | assemblyAttribute =>
    exact ⟨[], fun c => by rw [perform, implement_nil]; rfl⟩
  | _ => cases isFree

/-- Interfaces can be added before or after an edit. -/
theorem settle_perform_implement (edit : ClassEdit) (c : Class) (types : List String) :
    (perform edit (c.implement types)).value.settle =
      ((perform edit c).value.implement types).settle := by
  cases edit with
  | addInterfaces others =>
    have given (c : Class) : (perform (.addInterfaces others) c).value = c.implement others := by
      rw [perform]
      rfl
    rw [given, given, implement_implement, implement_implement]
    exact c.settle_implement_congr fun type => by simp only [List.mem_append, or_comm]
  | addBackingField property edits =>
    have same : (c.implement types).backingField? property = c.backingField? property := rfl
    rw [perform, perform, performBacking, performBacking, same]
    cases c.backingField? property <;> rfl
  | generic name constraints =>
    simp only [perform, addGeneric, implement]
    cases c.generics.add c.name name constraints <;> rfl
  | addClass name edits =>
    have same : (c.implement types).child name = c.child name := rfl
    rw [perform, perform, same]
    rfl
  | _ =>
    simp only [perform, Edited.done, Edited.registering, Edited.into, addProperty, addMethod,
      addConstructor, constructor, addEvent, addDelegate, implement]

/-! ## Shifted edits of classes -/

mutual

/-- Two edits that differ in the order of what is free inside them lead to classes that settle
alike. -/
theorem settle_inside : (edit : ClassEdit) → {new : ClassEdit} → edit.Inside new → ∀ c : Class,
    (perform edit c).value.settle = (perform new c).value.settle
  | _, _, .interfaces same, c => by
    rw [perform, perform]
    exact c.settle_implement_congr same
  | _, _, .property _ h, _ => by
    rw [perform, perform, Edited.into, Edited.into, Property.performAll_shift h]
  | _, _, .backingField property h, c => by
    rw [perform, perform, performBacking, performBacking]
    cases c.backingField? property with
    | none => rfl
    | some field => simp only [Property.performAll_shift h]
  | _, _, .method _ h, _ => by
    rw [perform, perform, Edited.into, Edited.into, Method.performAll_shift h]
  | _, _, .constructor h, _ => by
    rw [perform, perform, Edited.into, Edited.into, Constructor.performAll_shift h]
  | _, _, .event _ h, _ => by
    rw [perform, perform, Edited.into, Edited.into, Event.performAll_shift h]
  | _, _, .explicitEvent _ _ _ h, _ => by
    simp only [perform, Edited.into, Event.performAll_shift h]
  | _, _, .delegate _ h, _ => by
    rw [perform, perform, Edited.into, Edited.into, Delegate.performAll_shift h]
  | .addClass name edits, _, .class _ h, c => by
    have inner := settle_shift edits h (c.child name)
    rw [perform, perform, Edited.into, Edited.into]
    obtain ⟨core, nested⟩ := c
    simp only [addClass, settle, settleAll_append, settleAll, inner]

/-- A free edit may come earlier or later among the edits of a class. -/
theorem settle_shift : (edits : List ClassEdit) → {new : List ClassEdit} →
    Shift ClassEdit.isFree ClassEdit.Inside edits new → ∀ c : Class,
    (performAll edits c).value.settle = (performAll new c).value.settle
  | [], _, h, _ => nomatch h
  | edit :: rest, _, h, c => by
    cases h with
    | swap isFree next rest =>
      -- All that the free edit can disturb is the order of the interfaces, which settling removes.
      obtain ⟨types, free⟩ := exists_implement isFree
      have swapped : (perform next (perform edit c).value).value.settle =
          (perform edit (perform next c).value).value.settle := by
        rw [free, free, settle_perform_implement]
      exact settle_performAll swapped rest
    | again isFree =>
      obtain ⟨types, free⟩ := exists_implement isFree
      have repeated : (perform edit c).value.settle =
          (perform edit (perform edit c).value).value.settle := by
        rw [free, free, implement_implement]
        exact c.settle_implement_congr fun type => by rw [List.mem_append, or_self]
      exact settle_performAll repeated rest
    | inside h => exact settle_performAll (settle_inside edit h c) rest
    | later edit h => exact settle_shift rest h (perform edit c).value

end

end Class

/-! ## Files -/

/-- The declaration with settled classes. -/
def TypeDeclaration.settle : TypeDeclaration → TypeDeclaration
  | .class c => .class c.settle
  | t => t

theorem TypeDeclaration.script_settle (t : TypeDeclaration) : t.settle.script = t.script := by
  cases t with
  | «class» c => exact c.script_settle
  | _ => rfl

namespace File

/-- The file with settled classes and without its disabled warnings. -/
def settle (f : File) : File :=
  { f with disabledWarnings := [], types := f.types.map TypeDeclaration.settle }

/-- Files that settle alike and have the same lines at their head are written alike. -/
theorem build_congr {f other : File} {p q : Preamble} (same : f.settle = other.settle)
    (warnings : f.disabledWarnings = other.disabledWarnings)
    (imports : p.importGroups = q.importGroups)
    (attributes : p.assemblyAttributeLines = q.assemblyAttributeLines) :
    f.build p = other.build q := by
  have scripts (f : File) : f.settle.types.mapM TypeDeclaration.script =
      f.types.mapM TypeDeclaration.script := by
    rw [settle, List.mapM_map]
    exact congrArg (f.types.mapM ·) (funext TypeDeclaration.script_settle)
  have types : f.types.mapM TypeDeclaration.script = other.types.mapM TypeDeclaration.script := by
    rw [← scripts, same, scripts]
  have options : f.options = other.options := congrArg (·.options) same
  have named : f.namespaceName = other.namespaceName := congrArg (·.namespaceName) same
  simp only [build, script, preambleGroups, typeGroups, types, options, named, warnings, imports,
    attributes]

theorem settle_disableWarning (f : File) (code : String) :
    (f.disableWarning code).settle = f.settle := by
  unfold disableWarning
  split <;> rfl

end File

namespace FileEdit

/-- Files that settle alike still do after an edit. -/
theorem settle_perform {d other : Draft} (same : d.file.settle = other.file.settle)
    (edit : FileEdit) :
    (perform edit d).1.file.settle = (perform edit other).1.file.settle := by
  cases edit with
  | disableWarning code =>
    rw [perform, perform, File.settle_disableWarning, File.settle_disableWarning, same]
  | _ =>
    -- What other edits make depends on the options and the namespace, which settling leaves alone.
    obtain ⟨⟨name, options, warnings, types⟩, p⟩ := d
    obtain ⟨⟨name', options', warnings', types'⟩, p'⟩ := other
    simp only [File.settle, File.mk.injEq] at same
    obtain ⟨rfl, rfl, -, settled⟩ := same
    simp only [perform, Draft.register, Draft.addEdited, File.settle, File.add, File.newClass,
      File.newEnum, File.newRecord, List.map_append, settled]

theorem settle_performAll {d other : Draft} (same : d.file.settle = other.file.settle)
    (edits : List FileEdit) :
    (performAll edits d).1.file.settle = (performAll edits other).1.file.settle := by
  induction edits generalizing d other with
  | nil => exact same
  | cons edit rest ih => exact ih (settle_perform same edit)

/-- A free edit does nothing to the types of a file. -/
theorem settle_of_isFree {edit : FileEdit} (isFree : edit.isFree) (d : Draft) :
    (perform edit d).1.file.settle = d.file.settle := by
  cases edit with
  | disableWarning code => rw [perform, File.settle_disableWarning]
  | importNamespaces | assemblyAttribute => rw [perform, Draft.register]
  | _ => cases isFree

theorem settle_inside {edit new : FileEdit} (h : Inside edit new) (d : Draft) :
    (perform edit d).1.file.settle = (perform new d).1.file.settle := by
  cases h with
  | imports => rw [perform, perform, Draft.register, Draft.register]
  | copy => simp only [perform]
  | «class» name h =>
    have inner := Class.settle_shift _ h (d.file.newClass name)
    simp only [perform, Draft.addEdited, Draft.register, File.settle, File.add, List.map_append,
      List.map_cons, TypeDeclaration.settle, inner]
  | enum name h => simp only [perform, Draft.addEdited, Draft.register, Enum.performAll_shift h]
  | record name h => simp only [perform, Draft.addEdited, Draft.register, Record.performAll_shift h]
  | delegate name h =>
    simp only [perform, Draft.addEdited, Draft.register, Delegate.performAll_shift h]

/-- Shifted edits lead to files that settle alike. -/
theorem settle_shift {edits new : List FileEdit} (h : Shift isFree Inside edits new) (d : Draft) :
    (performAll edits d).1.file.settle = (performAll new d).1.file.settle := by
  induction h generalizing d with
  | @swap edit isFree next rest =>
    have swapped : (perform next (perform edit d).1).1.file.settle =
        (perform edit (perform next d).1).1.file.settle := by
      rw [settle_of_isFree isFree, settle_perform (settle_of_isFree isFree d)]
    exact settle_performAll swapped rest
  | again isFree rest => exact settle_performAll (settle_of_isFree isFree _).symm rest
  | inside h rest => exact settle_performAll (settle_inside h d) rest
  | later edit h ih => exact ih (perform edit d).1

end FileEdit

namespace Draft

/-- Where and how often imports, assembly attributes, disabled warnings and interfaces are asked for
does not matter to what is built. -/
theorem build_rearranged {edits new : List FileEdit} (h : FileEdit.Rearranged edits new)
    (name : String) :
    (FileEdit.performAll new (.ofNamespace name)).1.build =
      (FileEdit.performAll edits (.ofNamespace name)).1.build := by
  induction h with
  | refl => rfl
  | symm _ _ _ ih => exact ih.symm
  | trans _ _ _ _ _ first second => exact second.trans first
  | rel edits new shift =>
    -- One shift: the types settle alike, and each list of the head depends on its set alone.
    have calls := FileEdit.mem_callsAll edits shift
    refine File.build_congr (FileEdit.settle_shift shift _).symm ?_ ?_ ?_
    · rw [FileEdit.disabledWarnings_performAll new _ .nil,
        FileEdit.disabledWarnings_performAll edits _ .nil]
      exact Text.ascending_congr fun code => (FileEdit.mem_warnings shift code).symm
    · refine Preamble.importGroups_congr fun imported => ?_
      simp only [FileEdit.preamble_performAll, Preamble.mem_imports_registerAll, calls]
    · refine Preamble.assemblyAttributeLines_congr fun text => ?_
      simp only [FileEdit.preamble_performAll, Preamble.mem_attributes_registerAll, calls]

end Draft

end CSharpGen

import CSharpGen.Edit.File
import CSharpGen.Manifest.Basic

/-!
# The file of a manifest

Each entry of a manifest gives a declaration. What is inconsistent is refused, the first fault in
the order of a class, its members and its nested classes. The order of fields and properties is
handed down to nested classes.
-/

namespace CSharpGen

/-! ## Parts of declarations -/

/-- The documentation of a declaration with an optional summary. -/
def Documentation.ofSummary (summary : Option String) : Documentation :=
  summary.elim .empty (.setSummary .empty)

def Attributes.ofTexts (texts : List String) : Attributes := texts.foldl Attributes.add {}

/-- A body of fixed lines. Without lines there is no body. -/
def Script.ofBody (lines : List String) : Option Script :=
  if lines.isEmpty then none else some (Step.lines lines)

namespace GenericEntry

def toConstraints (g : GenericEntry) : List Constraint := g.constraints.map .text

end GenericEntry

namespace ParameterEntry

def toParameter (p : ParameterEntry) : Parameter := .make p.type p.name p.default

/-- The type and the name of a parameter that a constructor forwards. -/
def toPair (p : ParameterEntry) : String × String := (p.type, p.name.getD "")

/-- The name and the text of a documented parameter. A parameter without a name of its own has no
documentation. -/
def documentation? (p : ParameterEntry) : Option (String × String) :=
  match p.name, p.doc with
  | some name, some doc => some (name, doc)
  | _, _ => none

/-- The parameter list of several entries. -/
def toParameters (ps : List ParameterEntry) : List Parameter :=
  ps.foldl (fun list p => Parameters.insert list p.toParameter none) []

end ParameterEntry

/-! ## Members -/

namespace PropertyEntry

/-- Accessor expressions replace the automatic accessors. -/
def toProperty (p : PropertyEntry) : Property :=
  { Property.ofName p.name with
    type := some p.type
    access := p.access
    isStatic := p.isStatic
    auto := if p.getter.isNone && p.setter.isNone then some p.accessors.toAuto else none
    getter := p.getter.map .expression
    setter := p.setter.map .expression
    documentation := .ofSummary p.summary
    attributes := .ofTexts p.attributes }

end PropertyEntry

namespace FieldEntry

/-- The kind and the value of a field: `const` wins over `readonly`. A constant needs a value. -/
def form (f : FieldEntry) : Except Error (PropertyKind × Option Value) :=
  match f.value, f.isConst, f.isReadonly with
  | none, true, _ => .error (.invalidMember f.name "a const field needs a value")
  | some value, true, _ => .ok (.constant, some (.literal value))
  | value, false, true => .ok (.readonly, value.map .literal)
  | value, false, false => .ok (.field, value.map .literal)

def toProperty (f : FieldEntry) : Except Error Property := do
  let (kind, value) ← f.form
  return { Property.ofName f.name with
    type := some f.type
    kind
    value
    access := f.access
    isStatic := f.isStatic
    documentation := .ofSummary f.summary
    attributes := .ofTexts f.attributes }

end FieldEntry

namespace MethodEntry

/-- The method without its generic parameters and the documentation of its parameters. -/
def plain (m : MethodEntry) : Method :=
  { Method.ofName m.name with
    returnType := m.returns
    access := m.access
    isAsync := m.isAsync
    isStatic := m.isStatic
    isVirtual := m.isVirtual
    isOverride := m.isOverride
    isAbstract := m.isAbstract
    parameters := ParameterEntry.toParameters m.parameters
    body := Script.ofBody m.body
    documentation := if m.inheritDoc then .inherited none else .ofSummary m.summary
    attributes := .ofTexts m.attributes }

def toMethod (m : MethodEntry) : Except Error Method := do
  let method ← m.generics.foldlM (fun method g => method.addGeneric g.name g.toConstraints) m.plain
  (m.parameters.filterMap ParameterEntry.documentation?).foldlM
    (fun method (name, doc) => method.documentParameter name doc) method

end MethodEntry

namespace ConstructorEntry

/-- The constructor of a class, with the name of the class as it was written. -/
def toConstructor (k : ConstructorEntry) (c : Class) (written : String) :
    Except Error Constructor :=
  let plain :=
    { c.constructor with
      access := k.access
      parameters := ParameterEntry.toParameters k.parameters
      body := Script.ofBody k.body
      documentation := .ofSummary k.summary
      attributes := .ofTexts k.attributes }
  match k.base, k.this with
  | some _, some _ =>
    .error (.invalidMember written "a constructor calls either base or this, not both")
  | some pairs, none => .ok (plain.forward .base (pairs.map (·.toPair)))
  | none, some pairs => .ok (plain.forward .this (pairs.map (·.toPair)))
  | none, none => .ok plain

end ConstructorEntry

namespace EventEntry

def toEvent (e : EventEntry) : Event :=
  let plain := Event.ofName e.name
  { plain with
    handler := e.handler.getD plain.handler
    access := e.access
    isStatic := e.isStatic
    documentation := .ofSummary e.summary }

end EventEntry

/-! ## Types -/

namespace ClassEntryCore

/-- An empty class with everything that does not need a check. -/
def plain (c : ClassEntryCore) (empty : Class) : Class :=
  { empty with
    kind := c.kind
    access := c.access
    isStatic := c.isStatic
    isSealed := c.isSealed
    isAbstract := c.isAbstract
    isPartial := c.isPartial.getD empty.isPartial
    base := c.base
    interfaces := c.interfaces
    attributes := .ofTexts c.attributes
    documentation := .ofSummary c.summary
    order := c.sortProperties.elim empty.order .ofSorting }

/-- The class without its nested classes, made of an empty one. -/
def toClass (c : ClassEntryCore) (empty : Class) : Except Error Class := do
  let new ← c.generics.foldlM (fun new g => new.addGeneric g.name g.toConstraints) (c.plain empty)
  let fields ← c.fields.mapM FieldEntry.toProperty
  let methods ← c.methods.mapM MethodEntry.toMethod
  let constructors ← c.constructors.mapM (·.toConstructor new c.name)
  return { new with
    properties := fields ++ c.properties.map PropertyEntry.toProperty
    methods
    constructors
    events := c.events.map EventEntry.toEvent }

/-- What the class itself registers. -/
def registrations (c : ClassEntryCore) : List Registration :=
  (c.base.toList ++ c.interfaces).map .importNamespaceOf

end ClassEntryCore

mutual

/-- The class of an entry, made of an empty one. -/
def ClassEntry.toClass : ClassEntry → Class → Except Error Class
  | ⟨core, nested⟩, empty => do
    let new ← core.toClass empty
    return { new with nested := ← ClassEntry.toNested nested new }

/-- The classes nested in `outer`. -/
def ClassEntry.toNested : List ClassEntry → Class → Except Error (List Class)
  | [], _ => .ok []
  | c :: rest, outer => do
    let new ← c.toClass (outer.child c.name)
    return new :: (← ClassEntry.toNested rest outer)

end

mutual

def ClassEntry.registrations : ClassEntry → List Registration
  | ⟨core, nested⟩ => core.registrations ++ ClassEntry.allRegistrations nested

def ClassEntry.allRegistrations : List ClassEntry → List Registration
  | [] => []
  | c :: rest => c.registrations ++ ClassEntry.allRegistrations rest

end

namespace EnumValueEntry

def toValue (v : EnumValueEntry) : EnumValue :=
  { EnumValue.ofName v.name with number := v.value, documentation := .ofSummary v.summary }

end EnumValueEntry

namespace EnumEntry

/-- A set of flags carries the attribute that says so. -/
def toEnum (e : EnumEntry) (empty : Enum) : Enum :=
  { empty with
    access := e.access
    underlying := e.underlying
    documentation := .ofSummary e.summary
    attributes := .ofTexts ((if e.flags then ["Flags"] else []) ++ e.attributes)
    values := e.values.map EnumValueEntry.toValue }

def registrations (e : EnumEntry) : List Registration :=
  if e.flags then [.importNamespace "System"] else []

end EnumEntry

namespace RecordEntry

/-- A property of the record, which needs a name. -/
def toProperty (r : RecordEntry) (p : ParameterEntry) : Except Error RecordProperty :=
  match p.name with
  | none => .error (.invalidMember r.name "record property needs a name")
  | some name => .ok { RecordProperty.make p.type name with default := p.default }

def toRecord (r : RecordEntry) (empty : Record) : Except Error Record := do
  return { empty with
    access := r.access
    style := r.style
    properties := ← r.properties.mapM r.toProperty
    documentation := .ofSummary r.summary
    attributes := .ofTexts r.attributes }

end RecordEntry

namespace DelegateEntry

/-- The delegate without its generic parameters and the documentation of its parameters. -/
def plain (d : DelegateEntry) : Delegate :=
  { Delegate.ofName d.name with
    returnType := d.returns
    access := d.access
    parameters := ParameterEntry.toParameters d.parameters
    documentation := .ofSummary d.summary }

def toDelegate (d : DelegateEntry) : Except Error Delegate := do
  let new ← d.generics.foldlM (fun new g => new.addGeneric g.name g.toConstraints) d.plain
  (d.parameters.filterMap ParameterEntry.documentation?).foldlM
    (fun new (name, doc) => new.documentParameter name doc) new

end DelegateEntry

/-! ## Files -/

namespace Manifest

/-- The options, with another indentation where one is given. -/
def optionsWith (m : Manifest) (indent : Option Indent) : FileOptions :=
  { m.options with indent := indent.getD m.options.indent }

/-- The file without its types. -/
def emptyFile (m : Manifest) (indent : Option Indent) : File :=
  m.disabledWarnings.foldl File.disableWarning
    { File.ofNamespace (m.namespaceName.getD "") with options := m.optionsWith indent }

def registrations (m : Manifest) : List Registration :=
  m.imports.map .importNamespace ++ m.assemblyAttributes.map .assemblyAttribute ++
    ClassEntry.allRegistrations m.classes ++ m.enums.flatMap EnumEntry.registrations

/-- The types of the manifest: classes, enums, records and delegates. -/
def types (m : Manifest) (file : File) : Except Error (List TypeDeclaration) := do
  let classes ← m.classes.mapM fun c => c.toClass (file.newClass c.name)
  let enums := m.enums.map fun e => e.toEnum (file.newEnum e.name)
  let records ← m.records.mapM fun r => r.toRecord (file.newRecord r.name)
  let delegates ← m.delegates.mapM DelegateEntry.toDelegate
  return classes.map .class ++ enums.map .enum ++ records.map .record ++ delegates.map .delegate

/-- The file that a manifest describes. A given indentation wins over its own. -/
def toDraft (m : Manifest) (indent : Option Indent) : Except Error Draft := do
  let file := m.emptyFile indent
  return {
    file := { file with types := ← m.types file }
    preamble := ({} : Preamble).registerAll m.registrations }

/-- The text of the file that a manifest describes. -/
def render (m : Manifest) (indent : Option Indent) : Except Error String := do
  (← m.toDraft indent).build

end Manifest

end CSharpGen

import CSharpGen.Declaration.Constructor
import CSharpGen.Declaration.Delegate
import CSharpGen.Declaration.Event
import CSharpGen.Declaration.Method
import CSharpGen.Declaration.Property
import CSharpGen.Text.Order

/-!
# Classes

Classes, structs, interfaces and records with a body. The members are written in ten groups:
delegates, events, constants, static constants, read-only fields, fields, constructors, properties,
methods and nested classes. Each group has an order of its own.
-/

namespace CSharpGen

inductive TypeKind where
  | «class» | struct | interface | record | recordStruct
  deriving DecidableEq, Repr, Inhabited

namespace TypeKind

def keyword : TypeKind → String
  | .class => "class"
  | .struct => "struct"
  | .interface => "interface"
  | .record => "record"
  | .recordStruct => "record struct"

/-- The name in a manifest. -/
def name : TypeKind → String
  | .recordStruct => "record-struct"
  | kind => kind.keyword

def ofName? : String → Option TypeKind
  | "class" => some .class
  | "struct" => some .struct
  | "interface" => some .interface
  | "record" => some .record
  | "record-struct" => some .recordStruct
  | _ => none

end TypeKind

/-- The order of fields and properties within their groups. Properties with equal keys keep the
order in which they were added. -/
inductive PropertyOrder where
  | byName
  | insertion
  | byKey (key : Property → String)

namespace PropertyOrder

instance : Inhabited PropertyOrder := ⟨byName⟩

/-- By name, or in insertion order when sorting is off. -/
def ofSorting (sorted : Bool) : PropertyOrder := if sorted then byName else insertion

def sort (order : PropertyOrder) (ps : List Property) : List Property :=
  match order with
  | byName => Text.stableSort Property.name ps
  | insertion => ps
  | byKey key => Text.stableSort key ps

end PropertyOrder

/-- A class without its nested classes. -/
structure ClassCore where
  name : String
  /-- The name of what encloses the class. -/
  parent : Option String := none
  kind : TypeKind := .class
  access : Option Access := none
  isStatic : Bool := false
  isSealed : Bool := false
  isAbstract : Bool := false
  isPartial : Bool := false
  base : Option String := none
  interfaces : List String := []
  generics : Generics := {}
  attributes : Attributes := {}
  documentation : Documentation := .empty
  order : PropertyOrder := .byName
  properties : List Property := []
  methods : List Method := []
  constructors : List Constructor := []
  events : List Event := []
  delegates : List Delegate := []

structure Class extends ClassCore where
  nested : List Class := []

namespace ClassCore

/-- The name with the namespace and the classes around it. -/
def fullName (c : ClassCore) : String := Declaration.qualified c.parent c.name

/-- Whether the declaration carries `abstract`: it was asked for, or an abstract method of
something other than an interface implies it. -/
def isWrittenAbstract (c : ClassCore) : Bool :=
  c.isAbstract || (c.kind != .interface && c.methods.any (·.isAbstract))

/-- The base type, then the distinct interfaces in ascending order. -/
def inherited (c : ClassCore) : List String :=
  (c.base.bind Text.nonBlank?).toList ++ Text.ascending (c.interfaces.filterMap Text.nonBlank?)

def declaration (c : ClassCore) : String :=
  let inherited := ", ".intercalate c.inherited
  Declaration.words [Access.keywordsOf c.access,
    Declaration.wordIf c.isStatic "static", Declaration.wordIf c.isSealed "sealed",
    Declaration.wordIf c.isWrittenAbstract "abstract", Declaration.wordIf c.isPartial "partial",
    c.kind.keyword, c.name ++ c.generics.suffix,
    Declaration.wordIf (!c.inherited.isEmpty) s!": {inherited}"]

/-! ## Members in the order in which they are written -/

def sortedProperties (c : ClassCore) : List Property := c.order.sort c.properties

/-- The properties of one kind, in their order. -/
def propertiesOf (c : ClassCore) (kind : PropertyKind) : List Property :=
  c.sortedProperties.filter (·.kind == kind)

def instanceConstants (c : ClassCore) : List Property :=
  (c.propertiesOf .constant).filter (!·.isStatic)

def staticConstants (c : ClassCore) : List Property :=
  (c.propertiesOf .constant).filter (·.isStatic)

/-- Constructors by the number of their parameters. -/
def sortedConstructors (c : ClassCore) : List Constructor :=
  c.constructors.mergeSort fun a b => decide (a.parameters.length ≤ b.parameters.length)

/-- Whether a method may stand before another: by name, then by the number of parameters. -/
def methodLe (a b : Method) : Bool :=
  decide (a.name < b.name) ||
    (a.name == b.name && decide (a.parameters.length ≤ b.parameters.length))

def sortedMethods (c : ClassCore) : List Method := c.methods.mergeSort methodLe

/-! ## Script -/

/-- The script of a class, given the scripts of its nested classes. The first property in the
order of writing that cannot be written is the one that is refused. -/
def scriptWith (c : ClassCore) (nested : Except Error (List Script)) : Except Error Script := do
  let instanceConstants ← c.instanceConstants.mapM Property.script
  let staticConstants ← c.staticConstants.mapM Property.script
  let readonlyFields ← (c.propertiesOf .readonly).mapM Property.script
  let fields ← (c.propertiesOf .field).mapM Property.script
  let properties ← (c.propertiesOf .property).mapM Property.script
  let nested ← nested
  return Step.lines c.documentation.lines ++ Step.lines c.attributes.sortedLines ++
    [.block c.declaration c.generics.whereClauses [.sections [
      .ofScripts .spaced (c.delegates.map Delegate.script),
      .ofScripts .spaced (c.events.map Event.script),
      .ofScripts .close instanceConstants,
      .ofScripts .close staticConstants,
      .ofScripts .close readonlyFields,
      .ofScripts .close fields,
      .ofScripts .spaced (c.sortedConstructors.map Constructor.script),
      .ofScripts .spaced properties,
      .ofScripts .spaced (c.sortedMethods.map Method.script),
      .ofScripts .spaced nested]]]

end ClassCore

mutual

def Class.script : Class → Except Error Script
  | ⟨core, nested⟩ => core.scriptWith (Class.scripts nested)

def Class.scripts : List Class → Except Error (List Script)
  | [] => .ok []
  | c :: rest => do
    let script ← c.script
    return script :: (← Class.scripts rest)

end

namespace Class

/-- An empty top-level class, which is partial. -/
def ofName (name : String) (parent : Option String) (order : PropertyOrder) : Class where
  name := Text.trim name
  parent
  order
  isPartial := true

/-- An empty class to be nested in `c`. It has the property order that `c` has by now. -/
def child (c : Class) (name : String) : Class where
  name := Text.trim name
  parent := some c.fullName
  order := c.order

def addGeneric (c : Class) (name : String) (constraints : List Constraint) :
    Except Error Class := do
  return { c with generics := ← c.generics.add c.name name constraints }

def constructor (c : Class) : Constructor := { className := c.name }

/-- The private name for what stands behind a member: an underscore and the member's name with its
first character in lower case. -/
def backingName (name : String) : String :=
  String.ofList ('_' :: Text.lowerHead name.toList)

/-- A private field behind the property of the given name, with the type of that property. -/
def backingField? (c : Class) (name : String) : Option Property :=
  if name.isEmpty then none
  else (c.properties.find? (·.name == name)).map fun p =>
    { Property.ofName (backingName name) with
      type := p.type, kind := .field, access := some .private }

/-- An event that implements one of an interface, and the private event behind it. -/
def explicitEvent (name interface handler : String) : Event × Event :=
  let name := Text.trim name
  let backing := if name.isEmpty then "_event" else backingName name
  ({ Event.ofName backing with access := some .private, handler },
    ({ Event.ofName name with handler, interface := some interface }).forwardTo backing)

end Class

end CSharpGen

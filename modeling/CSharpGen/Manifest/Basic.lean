import CSharpGen.Declaration.Access
import CSharpGen.Declaration.Class
import CSharpGen.Declaration.Record
import CSharpGen.File.Options

/-!
# Manifests

The description of a file as data: what a manifest says about each declaration, as it was written.
-/

namespace CSharpGen

structure GenericEntry where
  name : String
  constraints : List String := []
  deriving DecidableEq, Repr, Inhabited

structure ParameterEntry where
  type : String
  name : Option String := none
  default : Option String := none
  doc : Option String := none
  deriving DecidableEq, Repr, Inhabited

/-- The accessors of a property without accessor expressions. -/
inductive AccessorChoice where
  | getSet | privateSet | get | init
  deriving DecidableEq, Repr, Inhabited

namespace AccessorChoice

def ofName? : String → Option AccessorChoice
  | "get-set" => some getSet
  | "private-set" => some privateSet
  | "get" => some get
  | "init" => some init
  | _ => none

def toAuto : AccessorChoice → AutoAccessors
  | getSet => .getSet none
  | privateSet => .getSet (some .private)
  | get => .getOnly
  | init => .init

end AccessorChoice

structure PropertyEntry where
  name : String
  type : String
  access : Option Access := none
  isStatic : Bool := false
  accessors : AccessorChoice := .getSet
  getter : Option String := none
  setter : Option String := none
  summary : Option String := none
  attributes : List String := []
  deriving DecidableEq, Repr, Inhabited

structure FieldEntry where
  name : String
  type : String
  access : Option Access := none
  isStatic : Bool := false
  isConst : Bool := false
  isReadonly : Bool := false
  value : Option String := none
  summary : Option String := none
  attributes : List String := []
  deriving DecidableEq, Repr, Inhabited

structure MethodEntry where
  name : String
  returns : Option String := none
  access : Option Access := none
  isStatic : Bool := false
  isAsync : Bool := false
  isVirtual : Bool := false
  isOverride : Bool := false
  isAbstract : Bool := false
  generics : List GenericEntry := []
  parameters : List ParameterEntry := []
  body : List String := []
  summary : Option String := none
  inheritDoc : Bool := false
  attributes : List String := []
  deriving DecidableEq, Repr, Inhabited

structure ConstructorEntry where
  access : Option Access := none
  parameters : List ParameterEntry := []
  /-- Parameters that are forwarded to a constructor of the base class. -/
  base : Option (List ParameterEntry) := none
  /-- Parameters that are forwarded to another constructor of the class. -/
  this : Option (List ParameterEntry) := none
  body : List String := []
  summary : Option String := none
  attributes : List String := []
  deriving DecidableEq, Repr, Inhabited

structure EventEntry where
  name : String
  handler : Option String := none
  access : Option Access := none
  isStatic : Bool := false
  summary : Option String := none
  deriving DecidableEq, Repr, Inhabited

/-- A class without its nested classes. -/
structure ClassEntryCore where
  name : String
  kind : TypeKind := .class
  access : Option Access := none
  isStatic : Bool := false
  isSealed : Bool := false
  isAbstract : Bool := false
  isPartial : Option Bool := none
  base : Option String := none
  interfaces : List String := []
  attributes : List String := []
  summary : Option String := none
  generics : List GenericEntry := []
  sortProperties : Option Bool := none
  properties : List PropertyEntry := []
  fields : List FieldEntry := []
  methods : List MethodEntry := []
  constructors : List ConstructorEntry := []
  events : List EventEntry := []
  deriving DecidableEq, Repr, Inhabited

structure ClassEntry extends ClassEntryCore where
  nested : List ClassEntry := []
  deriving Repr, Inhabited

structure EnumValueEntry where
  name : String
  value : Option Int := none
  summary : Option String := none
  deriving DecidableEq, Repr, Inhabited

structure EnumEntry where
  name : String
  access : Option Access := none
  flags : Bool := false
  underlying : Option String := none
  summary : Option String := none
  attributes : List String := []
  values : List EnumValueEntry := []
  deriving DecidableEq, Repr, Inhabited

structure RecordEntry where
  name : String
  access : Option Access := none
  style : RecordStyle := .positional
  properties : List ParameterEntry := []
  summary : Option String := none
  attributes : List String := []
  deriving DecidableEq, Repr, Inhabited

structure DelegateEntry where
  name : String
  access : Option Access := none
  returns : Option String := none
  generics : List GenericEntry := []
  parameters : List ParameterEntry := []
  summary : Option String := none
  deriving DecidableEq, Repr, Inhabited

structure Manifest where
  /-- Left out for the global namespace. -/
  namespaceName : Option String := none
  imports : List String := []
  assemblyAttributes : List String := []
  disabledWarnings : List String := []
  options : FileOptions := {}
  classes : List ClassEntry := []
  enums : List EnumEntry := []
  records : List RecordEntry := []
  delegates : List DelegateEntry := []
  deriving Repr, Inhabited

/-- The number of top-level types. -/
def Manifest.typeCount (m : Manifest) : Nat :=
  m.classes.length + m.enums.length + m.records.length + m.delegates.length

end CSharpGen

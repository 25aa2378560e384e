import CSharpGen.Text.Blank
import CSharpGen.Text.Cut
import CSharpGen.Text.Order
import CSharpGen.Text.TextSet

/-!
# Imports and assembly attributes

What the declarations of a file register for its head: namespace imports and assembly attributes.
The written lines depend only on the set of what was registered.
-/

namespace CSharpGen

/-! ## Imports -/

namespace Import

/-- An import as it is registered: without a leading `using`, trailing semicolons and blanks. -/
def normalize? (text : String) : Option String :=
  let named := Text.trim (Text.dropStart "using " (Text.trim text))
  Text.nonBlank? (String.ofList (Text.dropTailWhile (· == ';') named.toList))

/-- The namespace of a dotted type name. -/
def containingNamespace? (typeName : String) : Option String :=
  let plain := Text.beforeFirst '<' (Text.dropStart "global::" (Text.trim typeName))
  (Text.beforeLast? '.' plain).filter (!·.isEmpty)

inductive Kind where
  /-- `System` and the namespaces below it. -/
  | system
  | plain
  | alias
  /-- Imports of the members of a type. -/
  | static
  deriving DecidableEq, Repr

def kind (text : String) : Kind :=
  if text.toList.contains '=' then .alias
  else if Text.startsWith "static " text then .static
  else if Text.trim (Text.beforeFirst '.' text) == "System" then .system
  else .plain

end Import

/-- Imports in the groups in which they are written, each strictly ascending. -/
structure ImportGroups where
  system : List String
  plain : List String
  aliases : List String
  statics : List String
  deriving DecidableEq, Repr, Inhabited

namespace ImportGroups

def ofImports (imports : List String) : ImportGroups :=
  let group (kind : Import.Kind) := Text.ascending (imports.filter (Import.kind · == kind))
  { system := group .system, plain := group .plain, aliases := group .alias,
    statics := group .static }

/-- All imports in output order. -/
def all (g : ImportGroups) : List String := g.system ++ g.plain ++ g.aliases ++ g.statics

end ImportGroups

/-! ## Assembly attributes -/

namespace AssemblyAttribute

/-- The line of an assembly attribute. A text that is such a line already is kept. -/
def line? (text : String) : Option String :=
  let text := Text.trim text
  if Text.startsWith "[assembly:" text then some text
  else
    let body := Text.trim (Text.dropStop "]" (Text.dropStart "[" text))
    (Text.nonBlank? (Text.dropStart "assembly:" body)).map fun body => s!"[assembly: {body}]"

end AssemblyAttribute

/-! ## The preamble of a file -/

/-- One registration by a declaration. -/
inductive Registration where
  | importNamespace (name : String)
  /-- Imports the namespace of a dotted type name. -/
  | importNamespaceOf (typeName : String)
  | assemblyAttribute (text : String)
  deriving DecidableEq, Repr

/-- What was registered so far, in order. -/
structure Preamble where
  imports : TextSet := ∅
  assemblyAttributes : TextSet := ∅
  deriving Inhabited

namespace Preamble

/-- The import that a registration asks for. -/
def importOf? : Registration → Option String
  | .importNamespace name => Import.normalize? name
  | .importNamespaceOf typeName => (Import.containingNamespace? typeName).bind Import.normalize?
  | .assemblyAttribute _ => none

/-- The assembly attribute that a registration asks for. -/
def attributeOf? : Registration → Option String
  | .assemblyAttribute text => Text.nonBlank? text
  | _ => none

def register (p : Preamble) (r : Registration) : Preamble where
  imports := (importOf? r).elim p.imports p.imports.insert
  assemblyAttributes := (attributeOf? r).elim p.assemblyAttributes p.assemblyAttributes.insert

/-- Whether a registration would bring something new. -/
def brings (p : Preamble) (r : Registration) : Bool :=
  (importOf? r).any (fun i => decide (i ∉ p.imports)) ||
    (attributeOf? r).any (fun a => decide (a ∉ p.assemblyAttributes))

def registerAll (p : Preamble) (rs : List Registration) : Preamble := rs.foldl register p

def importGroups (p : Preamble) : ImportGroups := .ofImports p.imports.items

/-- The lines of the assembly attributes, strictly ascending. -/
def assemblyAttributeLines (p : Preamble) : List String :=
  Text.ascending (p.assemblyAttributes.items.filterMap AssemblyAttribute.line?)

end Preamble

end CSharpGen

import CSharpGen.Writer.Indent

/-!
# File options
-/

namespace CSharpGen

/-- How the namespace of a file is declared. -/
inductive NamespaceStyle where
  /-- A block around the types. -/
  | block
  /-- One line above the types. -/
  | fileScoped
  deriving DecidableEq, Repr, Inhabited

namespace NamespaceStyle

def name : NamespaceStyle → String
  | block => "block"
  | fileScoped => "file-scoped"

def ofName? : String → Option NamespaceStyle
  | "block" => some block
  | "file-scoped" => some fileScoped
  | _ => none

end NamespaceStyle

/-- The state that the nullable directive sets. -/
inductive NullableContext where
  | enable | disable | restore
  deriving DecidableEq, Repr, Inhabited

namespace NullableContext

def keyword : NullableContext → String
  | enable => "enable"
  | disable => "disable"
  | restore => "restore"

def ofName? : String → Option NullableContext
  | "enable" => some enable
  | "disable" => some disable
  | "restore" => some restore
  | _ => none

end NullableContext

structure FileOptions where
  indent : Indent := .spaces
  namespaceStyle : NamespaceStyle := .block
  nullable : Option NullableContext := none
  /-- Whether fields and properties are sorted by name unless their class says otherwise. -/
  sortProperties : Bool := true
  deriving DecidableEq, Repr, Inhabited

end CSharpGen

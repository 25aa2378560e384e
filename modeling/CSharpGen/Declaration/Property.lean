import CSharpGen.Declaration.Access
import CSharpGen.Declaration.Accessor
import CSharpGen.Declaration.Attributes
import CSharpGen.Declaration.Documentation
import CSharpGen.Declaration.Words

/-!
# Fields and properties

Constants, read-only fields, fields and properties of a class. The kind of a property decides the
group in which its class writes it. A property can be written once its type is known, and a constant
once it also has a value.
-/

namespace CSharpGen

/-- The initial value of a field. -/
inductive Value where
  | literal (text : String)
  | null
  | default
  deriving DecidableEq, Repr, Inhabited

namespace Value

def text : Value → String
  | literal text => text
  | null => "null"
  | default => "default"

end Value

/-- The accessors of a property without accessor bodies. -/
inductive AutoAccessors where
  | getSet (setter : Option Access)
  | getOnly
  | init
  deriving DecidableEq, Repr, Inhabited

namespace AutoAccessors

/-- The accessors between their braces. -/
def text : AutoAccessors → String
  | getOnly => "\x7b get; \x7d"
  | init => "\x7b get; init; \x7d"
  | getSet setter =>
    let set := Declaration.words [Access.keywordsOf setter, "set"]
    "\x7b get; " ++ set ++ "; \x7d"

end AutoAccessors

/-- What a property is declared as. Properties of one kind are grouped together. -/
inductive PropertyKind where
  | property | constant | readonly | field
  deriving DecidableEq, Repr, Inhabited

structure Property where
  name : String
  type : Option String := none
  kind : PropertyKind := .property
  access : Option Access := none
  isStatic : Bool := false
  isVirtual : Bool := false
  isOverride : Bool := false
  /-- The initial value of a field. A property keeps the one that it had as a field. -/
  value : Option Value := none
  auto : Option AutoAccessors := none
  getter : Option Accessor := none
  setter : Option Accessor := none
  warning : Option String := none
  attributes : Attributes := {}
  documentation : Documentation := .empty

namespace Property

def ofName (name : String) : Property := { name := Text.trim name }

/-- The modifiers between the access keywords and the type. `virtual` wins over `override`, and a
constant is never marked static. -/
def modifiers (p : Property) : List String :=
  let shadowing := Declaration.wordIf (p.name == "Equals") "new"
  let static := Declaration.wordIf p.isStatic "static"
  match p.kind with
  | .constant => [shadowing, "const"]
  | .readonly => [shadowing, static, "readonly"]
  | .field => [shadowing, static]
  | .property =>
    [shadowing, static, if p.isVirtual then "virtual" else Declaration.wordIf p.isOverride "override"]

/-- The declaration up to the name. -/
def declaration (p : Property) (type : String) : String :=
  Declaration.words ([Access.keywordsOf p.access] ++ p.modifiers ++ [type, p.name])

/-- A declaration with an initial value. A value of several lines starts on a line of its own. -/
def initialized (declaration : String) (value : Value) : Script :=
  match (Text.lines value.text).reverse with
  | last :: before :: earlier =>
    .line s!"{declaration} =" :: .op .increaseIndent ::
      (Step.lines (before :: earlier).reverse ++ [.line s!"{last};", .op .decreaseIndent])
  | _ => [.line s!"{declaration} = {Text.trim value.text};"]

/-- A field that may have an initial value. A constant is refused without one. -/
def fieldScript (p : Property) (declaration : String) : Except Error Script :=
  match p.value, p.kind with
  | some value, _ => .ok (initialized declaration value)
  | none, .constant => .error (.missingField p.name "value")
  | none, _ => .ok [.line s!"{declaration};"]

/-- A property. Automatic accessors win over accessor bodies, and a getter expression alone needs
no block. -/
def accessorScript (p : Property) (declaration : String) : Script :=
  match p.auto with
  | some auto => [.line s!"{declaration} {auto.text}"]
  | none =>
    match p.getter, p.setter with
    | some (.expression text), none => [.line s!"{declaration} => {text};"]
    | none, none => [.line s!"{declaration};"]
    | getter, setter =>
      [.block declaration [] <|
        getter.elim [] (·.script "get") ++ setter.elim [] (·.script "set")]

def kindScript (p : Property) (declaration : String) : Except Error Script :=
  match p.kind with
  | .property => .ok (p.accessorScript declaration)
  | .constant | .readonly | .field => p.fieldScript declaration

/-- The lines above the declaration. -/
def headScript (p : Property) : Script :=
  Step.lines p.documentation.lines ++ Declaration.warning p.warning ++
    Step.lines p.attributes.lines

/-- Refused when the type is missing or blank. -/
def script (p : Property) : Except Error Script :=
  match p.type.bind Text.nonBlank? with
  | none => .error (.missingField p.name "type")
  | some type => (p.kindScript (p.declaration type)).map (p.headScript ++ ·)

end Property

end CSharpGen

import CSharpGen.Declaration.Access
import CSharpGen.Declaration.Attributes
import CSharpGen.Declaration.Documentation
import CSharpGen.Declaration.Words

/-!
# Records

Records that consist of their properties alone, either as the parameters of a one-line declaration
or as a body of init-only properties.
-/

namespace CSharpGen

inductive RecordStyle where
  | positional | init
  deriving DecidableEq, Repr, Inhabited

namespace RecordStyle

def name : RecordStyle → String
  | positional => "positional"
  | init => "init"

def ofName? : String → Option RecordStyle
  | "positional" => some positional
  | "init" => some init
  | _ => none

end RecordStyle

structure RecordProperty where
  type : String
  name : String
  /-- Written in the init style only. -/
  access : Option Access := none
  default : Option String := none
  deriving DecidableEq, Repr, Inhabited

namespace RecordProperty

def make (type name : String) : RecordProperty where
  type := Text.trim type
  name := Text.trim name

/-- The property as a parameter. -/
def positional (p : RecordProperty) : String :=
  match p.default with
  | some value => s!"{p.type} {p.name} = {value}"
  | none => s!"{p.type} {p.name}"

/-- The property as an init-only property. -/
def initOnly (p : RecordProperty) : String :=
  let declaration := Declaration.words
    [Access.keywordsOf p.access, p.type, p.name, "\x7b get; init; \x7d"]
  match p.default with
  | some value => s!"{declaration} = {value};"
  | none => declaration

end RecordProperty

structure Record where
  name : String
  /-- The name of what encloses the record. -/
  parent : Option String := none
  access : Option Access := none
  style : RecordStyle := .positional
  isSealed : Bool := false
  properties : List RecordProperty := []
  attributes : Attributes := {}
  documentation : Documentation := .empty
  warning : Option String := none
  deriving Inhabited

namespace Record

def ofName (name : String) (parent : Option String) : Record := { name := Text.trim name, parent }

def fullName (r : Record) : String := Declaration.qualified r.parent r.name

def declaration (r : Record) : String :=
  Declaration.words
    [Access.keywordsOf r.access, Declaration.wordIf r.isSealed "sealed", "record", r.name]

def script (r : Record) : Script :=
  Step.lines r.documentation.lines ++ Declaration.warning r.warning ++
    Step.lines r.attributes.sortedLines ++
    match r.style with
    | .positional =>
      let parameters := ", ".intercalate (r.properties.map RecordProperty.positional)
      [.line s!"{r.declaration}({parameters});"]
    | .init => [.block r.declaration [] (Step.lines (r.properties.map RecordProperty.initOnly))]

end Record

end CSharpGen

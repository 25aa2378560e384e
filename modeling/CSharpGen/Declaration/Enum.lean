import CSharpGen.Declaration.Access
import CSharpGen.Declaration.Attributes
import CSharpGen.Declaration.Documentation
import CSharpGen.Declaration.Words

/-!
# Enums

The values of an enum are written in ascending order of their numbers. Values without a number come
first, and values that are alike keep the order in which they were added.
-/

namespace CSharpGen

structure EnumValue where
  name : String
  /-- A signed number of 64 bits. -/
  number : Option Int := none
  attributes : Attributes := {}
  documentation : Documentation := .empty
  deriving Inhabited

namespace EnumValue

def ofName (name : String) : EnumValue := { name := Text.trim name }

/-- Whether a value may stand before another. -/
def le (v w : EnumValue) : Bool :=
  match v.number, w.number with
  | none, _ => true
  | some _, none => false
  | some m, some n => decide (m ≤ n)

/-- The value without what separates it from the next one. -/
def script (v : EnumValue) : Script :=
  Step.lines v.documentation.lines ++ Step.lines v.attributes.sortedLines ++
    .op (.append v.name) :: v.number.toList.map fun n => .op (.appendUnindented s!" = {n}")

end EnumValue

structure Enum where
  name : String
  /-- The name of what encloses the enum. -/
  parent : Option String := none
  access : Option Access := none
  underlying : Option String := none
  attributes : Attributes := {}
  documentation : Documentation := .empty
  values : List EnumValue := []
  deriving Inhabited

namespace Enum

def ofName (name : String) (parent : Option String) : Enum := { name := Text.trim name, parent }

def fullName (e : Enum) : String := Declaration.qualified e.parent e.name

/-- The values in the order in which they are written. -/
def sortedValues (e : Enum) : List EnumValue := e.values.mergeSort EnumValue.le

/-- Values separated by a comma and a blank line. -/
def entries : List EnumValue → Script
  | [] => []
  | [v] => v.script ++ [.op .newLine]
  | v :: rest => v.script ++ [.op (.appendUnindentedLine ","), .op .newLine] ++ entries rest

def declaration (e : Enum) : String :=
  let underlying := (e.underlying.bind Text.nonBlank?).elim "" (": " ++ ·)
  Declaration.words [Access.keywordsOf e.access, "enum", e.name, underlying]

def script (e : Enum) : Script :=
  Step.lines e.documentation.lines ++ Step.lines e.attributes.sortedLines ++
    [.block e.declaration [] (entries e.sortedValues)]

end Enum

end CSharpGen

import CSharpGen.Declaration.Access
import CSharpGen.Declaration.Attributes
import CSharpGen.Declaration.Documentation
import CSharpGen.Declaration.Generics
import CSharpGen.Declaration.Parameter
import CSharpGen.Declaration.Words

/-!
# Methods
-/

namespace CSharpGen

structure Method where
  name : String
  returnType : Option String := none
  access : Option Access := none
  isAsync : Bool := false
  isStatic : Bool := false
  isVirtual : Bool := false
  isOverride : Bool := false
  isAbstract : Bool := false
  generics : Generics := {}
  parameters : List Parameter := []
  body : Option Script := none
  warning : Option String := none
  attributes : Attributes := {}
  documentation : Documentation := .empty

namespace Method

def ofName (name : String) : Method := { name := Text.trim name }

def addGeneric (m : Method) (name : String) (constraints : List Constraint) :
    Except Error Method := do
  return { m with generics := ← m.generics.add m.name name constraints }

/-- Documents a parameter. Entries of names that are no parameters are not written. -/
def documentParameter (m : Method) (name doc : String) : Except Error Method := do
  return { m with documentation := ← m.documentation.addParameter m.name name doc }

/-- The one inheritance modifier that is written. -/
def modifier (m : Method) : String :=
  if m.isOverride then "override"
  else if m.isVirtual then "virtual"
  else if m.isAbstract then "abstract"
  else Declaration.wordIf m.isStatic "static"

def declaration (m : Method) : String :=
  Declaration.words [Access.keywordsOf m.access, m.modifier,
    Declaration.wordIf m.isAsync "async", Declaration.returnType m.returnType,
    s!"{m.name}{m.generics.suffix}({Parameters.render m.parameters})"]

/-- An abstract method is written without its body. -/
def script (m : Method) : Script :=
  Step.lines (m.documentation.linesFor (Parameters.names m.parameters)) ++
    Declaration.warning m.warning ++ Step.lines m.attributes.lines ++
    if m.isAbstract then Declaration.terminated m.declaration m.generics.whereClauses
    else [.block m.declaration m.generics.whereClauses (m.body.toList.map .isolated)]

end Method

end CSharpGen

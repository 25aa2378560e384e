import CSharpGen.Declaration.Access
import CSharpGen.Declaration.Attributes
import CSharpGen.Declaration.Documentation
import CSharpGen.Declaration.Generics
import CSharpGen.Declaration.Parameter
import CSharpGen.Declaration.Words

/-!
# Delegates
-/

namespace CSharpGen

structure Delegate where
  name : String
  returnType : Option String := none
  access : Option Access := none
  generics : Generics := {}
  parameters : List Parameter := []
  attributes : Attributes := {}
  documentation : Documentation := .empty

namespace Delegate

def ofName (name : String) : Delegate := { name := Text.trim name }

def addGeneric (d : Delegate) (name : String) (constraints : List Constraint) :
    Except Error Delegate := do
  return { d with generics := ← d.generics.add d.name name constraints }

def documentParameter (d : Delegate) (name doc : String) : Except Error Delegate := do
  return { d with documentation := ← d.documentation.addParameter d.name name doc }

def declaration (d : Delegate) : String :=
  Declaration.words [Access.keywordsOf d.access, "delegate", Declaration.returnType d.returnType,
    s!"{d.name}{d.generics.suffix}({Parameters.render d.parameters})"]

def script (d : Delegate) : Script :=
  Step.lines (d.documentation.linesFor (Parameters.names d.parameters)) ++
    Step.lines d.attributes.lines ++
    Declaration.terminated d.declaration d.generics.whereClauses

end Delegate

end CSharpGen

import CSharpGen.Declaration.Access
import CSharpGen.Declaration.Attributes
import CSharpGen.Declaration.Documentation
import CSharpGen.Declaration.Parameter
import CSharpGen.Declaration.Words

/-!
# Constructors

A constructor can call another one with some of its own parameters as arguments.
-/

namespace CSharpGen

/-- Which constructor is called first. -/
inductive InitializerTarget where
  | base | this
  deriving DecidableEq, Repr, Inhabited

structure Initializer where
  target : InitializerTarget
  arguments : List String
  deriving DecidableEq, Repr, Inhabited

namespace Initializer

def line (i : Initializer) : String :=
  let arguments := ", ".intercalate i.arguments
  match i.target with
  | .base => s!": base({arguments})"
  | .this => s!": this({arguments})"

end Initializer

structure Constructor where
  className : String
  access : Option Access := none
  parameters : List Parameter := []
  initializer : Option Initializer := none
  body : Option Script := none
  warning : Option String := none
  attributes : Attributes := {}
  documentation : Documentation := .empty

namespace Constructor

def documentParameter (c : Constructor) (name doc : String) : Except Error Constructor := do
  return { c with documentation := ← c.documentation.addParameter c.className name doc }

/-- Calls another constructor with the parameters of the given types and names, which become
parameters of this one. -/
def forward (c : Constructor) (target : InitializerTarget) (pairs : List (String × String)) :
    Constructor :=
  let forwarded := pairs.map fun (type, name) => Parameter.make type (some name) none
  { c with
    parameters := forwarded.foldl (Parameters.insert · · none) c.parameters
    initializer := some { target, arguments := Parameters.names forwarded } }

def declaration (c : Constructor) : String :=
  Declaration.words [Access.keywordsOf c.access,
    s!"{c.className}({Parameters.render c.parameters})"]

def script (c : Constructor) : Script :=
  Step.lines (c.documentation.linesFor (Parameters.names c.parameters)) ++
    Declaration.warning c.warning ++ Step.lines c.attributes.lines ++
    [.block c.declaration (c.initializer.toList.map Initializer.line)
      (c.body.toList.map .isolated)]

end Constructor

end CSharpGen

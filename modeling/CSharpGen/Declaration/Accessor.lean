import CSharpGen.Script.Basic

/-!
# Accessors
-/

namespace CSharpGen

/-- An accessor of a property or an event: one expression, or a body. -/
inductive Accessor where
  | expression (text : String)
  | body (steps : Script)

namespace Accessor

/-- The accessor under its keyword. The names of sub-writers in a body belong to that body. -/
def script (a : Accessor) (keyword : String) : Script :=
  match a with
  | .expression text => [.line s!"{keyword} => {text};"]
  | .body steps => [.block keyword [] [.isolated steps]]

end Accessor

end CSharpGen

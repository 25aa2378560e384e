import CSharpGen.Error
import CSharpGen.Text.Blank

/-!
# Generic parameters

The generic parameters of a declaration and their `where` clauses. A clause lists the primary
constraint first, then the other constraints in the order of their first mention, and `new()` last.
-/

namespace CSharpGen

/-- One way of constraining a generic parameter. -/
inductive Constraint where
  | text (text : String)
  | reference
  | valueType
  | constructible
  deriving DecidableEq, Repr

structure GenericParameter where
  name : String
  primary : Option String := none
  others : List String := []
  constructible : Bool := false
  deriving DecidableEq, Repr, Inhabited

namespace GenericParameter

/-- Constraints of which a parameter has at most one. -/
def primaryConstraints : List String := ["class", "class?", "struct", "notnull", "unmanaged"]

/-- Adds a constraint given as text. A primary constraint replaces the one before it; blank and
repeated constraints are ignored. -/
def constrainBy (p : GenericParameter) (text : String) : GenericParameter :=
  let text := Text.trim text
  if text == "new()" then { p with constructible := true }
  else if primaryConstraints.contains text then { p with primary := some text }
  else if text.isEmpty || p.others.contains text then p
  else { p with others := p.others ++ [text] }

def constrain (p : GenericParameter) : Constraint → GenericParameter
  | .text text => p.constrainBy text
  | .reference => p.constrainBy "class"
  | .valueType => p.constrainBy "struct"
  | .constructible => { p with constructible := true }

/-- The constraints in the order in which they are written. -/
def written (p : GenericParameter) : List String :=
  p.primary.toList ++ p.others ++ (if p.constructible then ["new()"] else [])

/-- The clause of a constrained parameter. -/
def whereClause? (p : GenericParameter) : Option String :=
  if p.written.isEmpty then none
  else
    let constraints := ", ".intercalate p.written
    some s!"where {p.name} : {constraints}"

end GenericParameter

/-- The generic parameters of one declaration, in order. -/
structure Generics where
  parameters : List GenericParameter := []
  deriving DecidableEq, Repr, Inhabited

namespace Generics

def names (g : Generics) : List String := g.parameters.map (·.name)

/-- Adds a parameter to the declaration `owner`. A blank name and a name that is taken are
refused. -/
def add (g : Generics) (owner name : String) (constraints : List Constraint) :
    Except Error Generics :=
  let name := Text.trim name
  if name.isEmpty then .error (.emptyIdentifier s!"generic parameter of '{owner}'")
  else if g.names.contains name then .error (.duplicateGeneric owner name)
  else .ok ⟨g.parameters ++ [constraints.foldl GenericParameter.constrain { name }]⟩

/-- The parameter list after a name. -/
def suffix (g : Generics) : String :=
  if g.parameters.isEmpty then ""
  else
    let names := ", ".intercalate g.names
    s!"<{names}>"

/-- The clauses of the constrained parameters, in declaration order. -/
def whereClauses (g : Generics) : List String :=
  g.parameters.filterMap GenericParameter.whereClause?

end Generics

end CSharpGen

import CSharpGen.Text.Blank
import CSharpGen.Text.Cut
import CSharpGen.Text.Letter
import CSharpGen.Text.Lowercase

/-!
# Parameters

The parameters of methods, constructors and delegates. A parameter without a name is named after
its type. A parameter list never holds two parameters with the same type and name.
-/

namespace CSharpGen

structure Parameter where
  type : String
  name : String
  default : Option String := none
  deriving DecidableEq, Repr, Inhabited

namespace Parameter

/-- Reserved words of C#, which need an at sign before them to be identifiers. -/
def keywords : List String := [
  "abstract", "as", "base", "bool", "break", "byte", "case", "catch", "char", "checked",
  "class", "const", "continue", "decimal", "default", "delegate", "do", "double", "else",
  "enum", "event", "explicit", "extern", "false", "finally", "fixed", "float", "for",
  "foreach", "goto", "if", "implicit", "in", "int", "interface", "internal", "is", "lock",
  "long", "namespace", "new", "null", "object", "operator", "out", "override", "params",
  "private", "protected", "public", "readonly", "ref", "return", "sbyte", "sealed", "short",
  "sizeof", "stackalloc", "static", "string", "struct", "switch", "this", "throw", "true",
  "try", "typeof", "uint", "ulong", "unchecked", "unsafe", "ushort", "using", "virtual",
  "void", "volatile", "while"]

/-- Escapes a name that is a reserved word. -/
def escaped (name : String) : String := if keywords.contains name then "@" ++ name else name

/-- The last identifier of a type name, before any type arguments. -/
def identifierOf (type : String) : List Char :=
  (Text.afterLast '.' (Text.beforeFirst '<' (Text.dropStart "global::" type))).toList.takeWhile
    fun c => Text.isAlphanumeric c || c == '_'

/-- The name of a parameter that has none: the identifier of its type, with the first character in
lower case. -/
def derivedName (type : String) : String :=
  escaped (String.ofList (Text.lowerHead (identifierOf type)))

/-- A parameter with a trimmed type. A missing or blank name is derived from the type. -/
def make (type : String) (name : Option String) (default : Option String) : Parameter where
  type := Text.trim type
  name := (name.bind Text.nonBlank?).getD (derivedName (Text.trim type))
  default

/-- The text of a parameter in a parameter list. -/
def render (p : Parameter) : String :=
  match p.default with
  | none => s!"{p.type} {p.name}"
  | some value => s!"{p.type} {p.name} = {value}"

/-- Whether two parameters have the same type and name. -/
def sameAs (p q : Parameter) : Bool := p.type == q.type && p.name == q.name

end Parameter

namespace Parameters

/-- Puts a parameter at an index, or at the end without one or when it lies past the end. A blank
type and a parameter whose type and name are taken change nothing. -/
def insert (ps : List Parameter) (p : Parameter) (index : Option Nat) : List Parameter :=
  if p.type.isEmpty || ps.any p.sameAs then ps
  else match index with
    | some i => if i ≤ ps.length then ps.insertIdx i p else ps ++ [p]
    | none => ps ++ [p]

/-- The text between the parentheses of a declaration. -/
def render (ps : List Parameter) : String := ", ".intercalate (ps.map Parameter.render)

def names (ps : List Parameter) : List String := ps.map (·.name)

end Parameters

/-- One way of adding a parameter. -/
inductive ParameterEdit where
  | add (type : String)
  | addNamed (type name : String)
  | addWithDefault (type : String) (name : Option String) (default : String)
  | addWithNull (type : String) (name : Option String)
  | insert (type : String) (name default : Option String) (index : Option Nat)
  deriving DecidableEq, Repr

namespace ParameterEdit

/-- The parameter that is added. -/
def parameter : ParameterEdit → Parameter
  | add type => .make type none none
  | addNamed type name => .make type (some name) none
  | addWithDefault type name default => .make type name (some default)
  | addWithNull type name => .make type name (some "null")
  | insert type name default _ => .make type name default

/-- Where it is added; at the end without an index. -/
def index : ParameterEdit → Option Nat
  | insert _ _ _ index => index
  | _ => none

def apply (ps : List Parameter) (e : ParameterEdit) : List Parameter :=
  Parameters.insert ps e.parameter e.index

end ParameterEdit

end CSharpGen

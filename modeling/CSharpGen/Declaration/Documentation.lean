import CSharpGen.Error
import CSharpGen.Text.Blank
import CSharpGen.Text.Line

/-!
# Documentation comments

The documentation of a declaration is a summary with entries for parameters, or is inherited. A new
summary keeps the entries; inheriting drops everything.
-/

namespace CSharpGen

/-- Documentation, with the entries of parameters in the order of their first mention. -/
inductive Documentation where
  | empty
  | summary (text : Option String) (parameters : List (String × String))
  | inherited (source : Option String)
  deriving DecidableEq, Repr, Inhabited

namespace Documentation

/-- Gives `name` the text `doc`. An entry for `name` keeps its place. -/
def setEntry (name doc : String) : List (String × String) → List (String × String)
  | [] => [(name, doc)]
  | (n, d) :: rest => if n = name then (name, doc) :: rest else (n, d) :: setEntry name doc rest

def setSummary (d : Documentation) (text : String) : Documentation :=
  match d with
  | .summary _ parameters => .summary (some text) parameters
  | _ => .summary (some text) []

/-- Documents a parameter of `member`. Refused when the documentation is inherited. -/
def addParameter (d : Documentation) (member name doc : String) : Except Error Documentation :=
  match d with
  | .empty => .ok (.summary none [(name, doc)])
  | .summary text parameters => .ok (.summary text (setEntry name doc parameters))
  | .inherited _ => .error (.inheritedDocumentation member)

def isEmpty : Documentation → Bool
  | .empty => true
  | _ => false

def isInherited : Documentation → Bool
  | .inherited _ => true
  | _ => false

/-- The comment lines of a summary. -/
def summaryLines (text : String) : List String :=
  "/// <summary>" :: (Text.lines text).map (fun line => s!"/// {Text.trim line}") ++
    ["/// </summary>"]

def parameterLine (name doc : String) : String :=
  s!"/// <param name=\"{name}\">{doc}</param>"

/-- The comment lines, with the parameter entries whose name satisfies `known`. -/
def linesWhere (d : Documentation) (known : String → Bool) : List String :=
  match d with
  | .empty => []
  | .inherited none => ["/// <inheritdoc />"]
  | .inherited (some source) => [s!"/// <inheritdoc cref=\"{source}\" />"]
  | .summary text parameters =>
    (text.elim [] summaryLines) ++
      (parameters.filter (known ·.1)).map fun (name, doc) => parameterLine name doc

def lines (d : Documentation) : List String := d.linesWhere fun _ => true

/-- The comment lines of a declaration with the given parameters. -/
def linesFor (d : Documentation) (names : List String) : List String :=
  d.linesWhere names.contains

end Documentation

end CSharpGen

import CSharpGen.Script.Basic
import CSharpGen.Text.Blank

/-!
# Parts of declarations

Pieces that several kinds of declaration share: the words of a declaration line, a declaration
without a body, and a compiler warning.
-/

namespace CSharpGen.Declaration

/-- The non-blank words, trimmed and separated by single spaces. -/
def words (parts : List String) : String := " ".intercalate (parts.filterMap Text.nonBlank?)

/-- A keyword that is written only under a condition. -/
def wordIf (condition : Bool) (word : String) : String := if condition then word else ""

/-- A declaration without a body. Its clauses go on continuation lines, and the semicolon follows
the last of them. -/
def terminated (declaration : String) (clauses : List String) : Script :=
  match clauses.reverse with
  | [] => [.line s!"{declaration};"]
  | last :: earlier =>
    .line declaration :: .op .increaseIndent ::
      (Step.lines earlier.reverse ++ [.line s!"{last};", .op .decreaseIndent])

/-- A compiler warning above a declaration. -/
def warning (text : Option String) : Script := text.toList.map fun t => .line s!"#warning {t}"

/-- A trimmed type, or `void` when it is missing or blank. -/
def returnType (type : Option String) : String := (type.bind Text.nonBlank?).getD "void"

/-- A name below the name of what encloses it, if anything does. -/
def qualified (parent : Option String) (name : String) : String :=
  match parent with
  | some parent => s!"{parent}.{name}"
  | none => name

end CSharpGen.Declaration

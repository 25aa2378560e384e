/-!
# Cutting a text at a mark

Dropping a known start or end, and the parts of a text before and after a character. A text
without the mark is left whole.
-/

namespace CSharpGen.Text

/-- Whether a text starts with `start`. -/
def startsWith (start s : String) : Bool := start.toList.isPrefixOf s.toList

/-- The text without `start`, when it starts with it. -/
def dropStart (start s : String) : String :=
  match start.toList.isPrefixOf? s.toList with
  | some rest => String.ofList rest
  | none => s

/-- The text without `stop`, when it ends with it. -/
def dropStop (stop s : String) : String :=
  match stop.toList.isSuffixOf? s.toList with
  | some rest => String.ofList rest
  | none => s

/-- The text before the first `mark`. -/
def beforeFirst (mark : Char) (s : String) : String :=
  String.ofList (s.toList.takeWhile (· != mark))

/-- The text after the last `mark`. -/
def afterLast (mark : Char) (s : String) : String :=
  String.ofList (s.toList.reverse.takeWhile (· != mark)).reverse

/-- The text before the last `mark`, when there is one. -/
def beforeLast? (mark : Char) (s : String) : Option String :=
  match s.toList.reverse.dropWhile (· != mark) with
  | [] => none
  | _ :: before => some (String.ofList before.reverse)

end CSharpGen.Text

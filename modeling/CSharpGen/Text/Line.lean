/-!
# Lines of a text

A line ends at a line feed, and a carriage return right before that line feed belongs to the line
ending. A last line without a line feed counts only when it holds a character.
-/

namespace CSharpGen.Text

/-- The lines of a list of characters, without their endings. -/
def lineChars : List Char → List (List Char)
  | [] => []
  | '\n' :: rest => [] :: lineChars rest
  | '\r' :: '\n' :: rest => [] :: lineChars rest
  | c :: rest =>
    match lineChars rest with
    | [] => [[c]]
    | line :: lines => (c :: line) :: lines

def lines (s : String) : List String := (lineChars s.toList).map String.ofList

/-- Whether a text ends with a line feed. -/
def endsLine (s : String) : Bool := s.toList.getLast? == some '\n'

/-- The text with its last line ended. The empty text has no line to end. -/
def finishLine (s : String) : String :=
  if s.isEmpty || endsLine s then s else s ++ "\n"

theorem lineChars_eq_nil_iff {cs : List Char} : lineChars cs = [] ↔ cs = [] := by
  constructor
  · intro h
    unfold lineChars at h
    split at h <;> simp_all
    split at h <;> simp_all
  · rintro rfl
    rfl

@[simp] theorem lines_empty : lines "" = [] := rfl

end CSharpGen.Text

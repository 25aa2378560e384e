import CSharpGen.Text.Blank
import CSharpGen.Text.Cut
import CSharpGen.Text.Order
import CSharpGen.Text.TextSet

/-!
# Attributes

The attributes of a declaration, held without their brackets. A text that is a sequence of bracketed
groups stands for one attribute a group; any other text stands for one attribute.
-/

namespace CSharpGen

namespace Bracketed

/-- The place of a scan through bracketed groups. Inside a group it has the number of brackets
open around the innermost one, and the body so far, latest character first. -/
inductive Place where
  | outside
  | inside (outer : Nat) (body : List Char)
  | quoted (outer : Nat) (body : List Char) (mark : Char)
  | escaped (outer : Nat) (body : List Char) (mark : Char)

/-- The bodies of the top-level groups from a place on. Brackets in string and character literals
do not count. Nothing is given when a group stays open or a character stands between groups. -/
def bodies? : Place → List Char → Option (List (List Char))
  | .outside, [] => some []
  | _, [] => none
  | .outside, c :: rest =>
    if c == '[' then bodies? (.inside 0 []) rest
    else if Text.isBlank c then bodies? .outside rest
    else none
  | .inside outer body, c :: rest =>
    if c == '"' || c == '\'' then bodies? (.quoted outer (c :: body) c) rest
    else if c == '[' then bodies? (.inside (outer + 1) (c :: body)) rest
    else if c == ']' then
      match outer with
      | 0 => (bodies? .outside rest).map (body.reverse :: ·)
      | outer + 1 => bodies? (.inside outer (c :: body)) rest
    else bodies? (.inside outer (c :: body)) rest
  | .quoted outer body mark, c :: rest =>
    if c == '\\' then bodies? (.escaped outer (c :: body) mark) rest
    else if c == mark then bodies? (.inside outer (c :: body)) rest
    else bodies? (.quoted outer (c :: body) mark) rest
  | .escaped outer body mark, c :: rest => bodies? (.quoted outer (c :: body) mark) rest

/-- The text without one opening bracket at its start and one closing bracket at its end. -/
def strip (text : String) : String := Text.dropStop "]" (Text.dropStart "[" text)

/-- The bodies of the groups of a text. A text that is no sequence of groups is one body. -/
def split (text : String) : List String :=
  match bodies? .outside text.toList with
  | none | some [] => [strip text]
  | some bodies => bodies.map String.ofList

end Bracketed

/-- The bodies of attributes, in insertion order. -/
structure Attributes where
  bodies : TextSet := ∅
  deriving Inhabited

namespace Attributes

/-- The attributes that a text stands for: trimmed and not blank. -/
def bodiesOf (text : String) : List String :=
  (Bracketed.split (Text.trim text)).filterMap Text.nonBlank?

def add (a : Attributes) (text : String) : Attributes := ⟨a.bodies.insertAll (bodiesOf text)⟩

/-- Whether adding a text would bring a new attribute. -/
def brings (a : Attributes) (text : String) : Bool :=
  (bodiesOf text).any fun body => decide (body ∉ a.bodies)

/-- The written form of an attribute. -/
def written (body : String) : String := s!"[{body}]"

/-- One line an attribute, in insertion order. -/
def lines (a : Attributes) : List String := a.bodies.items.map written

/-- One line an attribute, in ascending order. -/
def sortedLines (a : Attributes) : List String := (Text.ascending a.bodies.items).map written

end Attributes

end CSharpGen

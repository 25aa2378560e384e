import CSharpGen.Toml.Scalar
import CSharpGen.Toml.Table
import CSharpGen.Toml.Token

/-!
# TOML statements

The lines of a document: pairs of a key and a value, and headers. A reader gives what it read and
the tokens that are left. Readers that recurse carry a bound on their recursion, which is computed
from the number of tokens: each step of the recursion takes a token or opens what took one.
-/

namespace CSharpGen.Toml

/-- A dotted key: the keys before the last one, and the last one. -/
structure KeyPath where
  path : List String
  key : String
  deriving DecidableEq, Repr, Inhabited

inductive Statement where
  | pair (key : KeyPath) (value : Value)
  | header (key : KeyPath)
  | arrayHeader (key : KeyPath)
  deriving Repr

abbrev Reader (α : Type) := List Token → Option (α × List Token)

/-- Drops blanks. -/
def skipBlanks (ts : List Token) : List Token := ts.dropWhile Token.isBlank

/-- Drops blanks and line ends. -/
def skipLines (ts : List Token) : List Token := ts.dropWhile fun t => t.isBlank || t == .newline

/-- Drops a mark, which has to be there. -/
def dropMark (c : Char) : List Token → Option (List Token)
  | .mark d :: rest => if d = c then some rest else none
  | _ => none

/-- The key that a token stands for. -/
def Token.key? : Token → Option String
  | .word w => if w.toList.all Lexer.isKey then some w else none
  | .text t false => some t
  | _ => none

/-- How many keys dots may join, and how deep arrays and tables in braces may be nested. -/
def nestingLimit : Nat := 80

/-- Reads at most so many keys separated by dots, with blanks around them. -/
def readKeys : (limit : Nat) → Reader KeyPath
  | 0, _ => none
  | limit + 1, ts =>
    match skipBlanks ts with
    | [] => none
    | t :: rest => do
      let key ← t.key?
      match skipBlanks rest with
      | .mark '.' :: rest =>
        let (more, rest) ← readKeys limit rest
        return (⟨key :: more.path, more.key⟩, rest)
      | rest => return (⟨[], key⟩, rest)

/-- Reads a dotted key. -/
def readKeyPath : Reader KeyPath := readKeys nestingLimit

/-- Joins a word and what continues it: a dot, a word, and a word after blanks, because a space may
separate a time from its date. -/
def joinWords : String → List Token → String × List Token
  | w, .word more :: rest => joinWords (w ++ more) rest
  | w, .mark '.' :: rest => joinWords (w ++ ".") rest
  | w, .blank between :: .word more :: rest => joinWords (w ++ between ++ more) rest
  | w, rest => (w, rest)

mutual

/-- Reads a value after blanks. -/
def readValue : (bound : Nat) → Reader Value
  | 0, _ => none
  | bound + 1, ts =>
    match skipBlanks ts with
    | .text t _ :: rest => some (.text t, rest)
    | .word w :: rest =>
      let (w, rest) := joinWords w rest
      (Value.ofWord? w).map (·, rest)
    | .mark '[' :: rest => do
      let (items, rest) ← readItems bound rest
      return (.array false items, rest)
    | .mark '\x7b' :: rest => do
      let (pairs, rest) ← readPairs bound rest
      return (← inlineTable? pairs, rest)
    | _ => none

/-- Reads the rest of an array, where a comma may follow the last item. -/
def readItems : (bound : Nat) → Reader (List Value)
  | 0, _ => none
  | bound + 1, ts =>
    match skipLines ts with
    | .mark ']' :: rest => some ([], rest)
    | ts => do
      let (item, rest) ← readValue bound ts
      match skipLines rest with
      | .mark ']' :: rest => return ([item], rest)
      | .mark ',' :: rest =>
        let (items, rest) ← readItems bound rest
        return (item :: items, rest)
      | _ => none

/-- Reads the rest of a table in braces, where a comma may follow the last pair. Lines may end
anywhere but within a key. -/
def readPairs : (bound : Nat) → Reader (List (List String × String × Value))
  | 0, _ => none
  | bound + 1, ts =>
    match skipLines ts with
    | .mark '\x7d' :: rest => some ([], rest)
    | ts => do
      let (key, rest) ← readKeyPath ts
      let (value, rest) ← readValue bound (skipLines (← dropMark '=' (skipLines rest)))
      match skipLines rest with
      | .mark '\x7d' :: rest => return ([(key.path, key.key, value)], rest)
      | .mark ',' :: rest =>
        let (pairs, rest) ← readPairs bound rest
        return ((key.path, key.key, value) :: pairs, rest)
      | _ => none

end

/-- Reads a header or a pair. -/
def readStatement (bound : Nat) (ts : List Token) : Option (Statement × List Token) :=
  match ts with
  | .mark '[' :: .mark '[' :: rest => do
    let (key, rest) ← readKeyPath rest
    return (.arrayHeader key, ← dropMark ']' (← dropMark ']' rest))
  | .mark '[' :: rest => do
    let (key, rest) ← readKeyPath rest
    return (.header key, ← dropMark ']' rest)
  | ts => do
    let (key, rest) ← readKeyPath ts
    let (value, rest) ← readValue bound (← dropMark '=' rest)
    return (.pair key value, rest)

/-- Reads the statements of a document, each on lines of its own. -/
def readStatements : (bound : Nat) → List Token → Option (List Statement)
  | 0, _ => none
  | bound + 1, ts =>
    match skipLines ts with
    | [] => some []
    | ts => do
      let (statement, rest) ← readStatement bound ts
      match skipBlanks rest with
      | [] => return [statement]
      | .newline :: rest => return statement :: (← readStatements bound rest)
      | _ => none

/-- Whether brackets and braces are nested at most `limit` deep, after `depth` open ones. -/
def nestedWithin (limit : Nat) : (depth : Nat) → List Token → Bool
  | _, [] => true
  | depth, .mark c :: rest =>
    if c == '[' || c == '\x7b' then depth < limit && nestedWithin limit (depth + 1) rest
    else if c == ']' || c == '\x7d' then nestedWithin limit (depth - 1) rest
    else nestedWithin limit depth rest
  | depth, _ :: rest => nestedWithin limit depth rest

/-- The statements of a document that keeps to the limit of nesting. -/
def Statement.ofTokens? (ts : List Token) : Option (List Statement) :=
  if nestedWithin nestingLimit 0 ts then readStatements (2 * ts.length + 2) ts else none

end CSharpGen.Toml

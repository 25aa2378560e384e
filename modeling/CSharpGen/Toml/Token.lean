import CSharpGen.Toml.Number

/-!
# TOML tokens

The tokens of a document. The lexer is a finite-state machine: `step` reads one character in a
state, and gives the next state and the tokens that are complete by now. Comments give no token.
-/

namespace CSharpGen.Toml

inductive Token where
  /-- What stands between marks, blanks and line ends: a bare key, or a value without quotation
  marks up to a dot or a blank. -/
  | word (text : String)
  | text (content : String) (multiline : Bool)
  | mark (c : Char)
  /-- Spaces and tabs up to something else. -/
  | blank (text : String)
  | newline
  deriving DecidableEq, Repr, Inhabited

def Token.isBlank : Token → Bool
  | .blank _ => true
  | _ => false

namespace Lexer

/-- Texts so far have their latest character first. -/
inductive State where
  | ready
  | word (text : List Char)
  | blank (text : List Char)
  | comment
  /-- After a carriage return, which only a line feed may follow. -/
  | return
  /-- After one quotation mark, or after two. -/
  | opening (quote : Char) (twice : Bool)
  | line (quote : Char) (text : List Char)
  /-- In a text of several lines. `start` holds right after the opening marks, where a line end is
  dropped; `closing` counts the quotation marks right before. -/
  | lines (quote : Char) (text : List Char) (start : Bool) (closing : Nat)
  | linesReturn (quote : Char) (text : List Char) (start : Bool)
  /-- After a backslash. -/
  | escape (multiline : Bool) (text : List Char)
  /-- In a character code, with the number of digits that are missing. -/
  | code (multiline : Bool) (text : List Char) (missing value : Nat)
  /-- In the blanks after a backslash that ends a line. -/
  | continuation (text : List Char) (ended returned : Bool)
  deriving Repr

/-- The characters of bare keys. -/
def isKey (c : Char) : Bool := c.isAlphanum || c == '_' || c == '-'

def isMark (c : Char) : Bool := "[]\x7b\x7d,=.".toList.contains c

def isBlank (c : Char) : Bool := c == ' ' || c == '\t'

/-- The characters that a word goes on with. Which words have a meaning is not decided here. -/
def isWord (c : Char) : Bool :=
  !(isMark c || isBlank c || c == '\n' || c == '\r' || c == '#')

/-- Control characters other than the tab, which texts and comments hold only in line ends. -/
def isControl (c : Char) : Bool := (c.toNat < 0x20 && c != '\t') || c.toNat == 0x7F

/-- The text of characters held in reverse. -/
def textOf (cs : List Char) : String := String.ofList cs.reverse

/-- The character of an escape without a code. -/
def escaped? : Char → Option Char
  | 'b' => some '\x08'
  | 't' => some '\t'
  | 'n' => some '\n'
  | 'f' => some '\x0c'
  | 'r' => some '\r'
  | 'e' => some '\x1b'
  | '"' => some '"'
  | '\\' => some '\\'
  | _ => none

/-- The state inside a quoted text. -/
def inText (multiline : Bool) (text : List Char) : State :=
  if multiline then .lines '"' text false 0 else .line '"' text

/-- One character outside of words and texts. -/
def start (c : Char) : State × List Token :=
  if isMark c then (.ready, [.mark c])
  else if isBlank c then (.blank [c], [])
  else match c with
    | '\n' => (.ready, [.newline])
    | '\r' => (.return, [])
    | '#' => (.comment, [])
    | '"' | '\'' => (.opening c false, [])
    | _ => (.word [c], [])

/-- One character after a complete token. -/
def startAfter (token : Token) (c : Char) : State × List Token :=
  let (state, tokens) := start c
  (state, token :: tokens)

/-- One character of a text on one line. -/
def inLine (quote : Char) (text : List Char) (c : Char) : Option (State × List Token) :=
  if c == quote then some (.ready, [.text (textOf text) false])
  else if c == '\\' && quote == '"' then some (.escape false text, [])
  else if isControl c then none
  else some (.line quote (c :: text), [])

/-- One character of a text of several lines that is no quotation mark. -/
def inLines (quote : Char) (text : List Char) (start : Bool) (c : Char) :
    Option (State × List Token) :=
  if c == '\n' then some (.lines quote (if start then text else c :: text) false 0, [])
  else if c == '\r' then some (.linesReturn quote text start, [])
  else if c == '\\' && quote == '"' then some (.escape true text, [])
  else if isControl c then none
  else some (.lines quote (c :: text) false 0, [])

/-- One more digit of a character code. -/
def inCode (multiline : Bool) (text : List Char) (missing value : Nat) (c : Char) :
    Option (State × List Token) := do
  let value := value * 16 + (← digit? 16 c)
  match missing with
  | 0 | 1 =>
    if value.isValidChar then some (inText multiline (Char.ofNat value :: text), []) else none
  | missing + 1 => some (.code multiline text missing value, [])

def step : State → Char → Option (State × List Token)
  | .ready, c => some (start c)
  | .word text, c =>
    some (if isWord c then (.word (c :: text), []) else startAfter (.word (textOf text)) c)
  | .blank text, c =>
    some (if isBlank c then (.blank (c :: text), []) else startAfter (.blank (textOf text)) c)
  | .comment, c =>
    if c == '\n' then some (.ready, [.newline])
    else if c == '\r' then some (.return, [])
    else if isControl c then none
    else some (.comment, [])
  | .return, c => if c == '\n' then some (.ready, [.newline]) else none
  | .opening quote twice, c =>
    if c == quote then
      some (if twice then .lines quote [] true 0 else .opening quote true, [])
    else if twice then some (startAfter (.text "" false) c)
    else inLine quote [] c
  | .line quote text, c => inLine quote text c
  | .lines quote text start closing, c =>
    if c == quote then
      if closing == 4 then some (.ready, [.text (textOf (quote :: quote :: text)) true])
      else some (.lines quote text false (closing + 1), [])
    else
      let text := List.replicate (if closing < 3 then closing else closing - 3) quote ++ text
      if closing < 3 then inLines quote text start c
      else some (startAfter (.text (textOf text) true) c)
  | .linesReturn quote text start, c =>
    if c == '\n' then
      some (.lines quote (if start then text else '\n' :: '\r' :: text) false 0, [])
    else none
  | .escape multiline text, c =>
    match escaped? c with
    | some e => some (inText multiline (e :: text), [])
    | none =>
      if c == 'x' then some (.code multiline text 2 0, [])
      else if c == 'u' then some (.code multiline text 4 0, [])
      else if c == 'U' then some (.code multiline text 8 0, [])
      else if !multiline then none
      else if c == ' ' || c == '\t' then some (.continuation text false false, [])
      else if c == '\n' then some (.continuation text true false, [])
      else if c == '\r' then some (.continuation text false true, [])
      else none
  | .code multiline text missing value, c => inCode multiline text missing value c
  | .continuation text ended returned, c =>
    if c == '\n' then some (.continuation text true false, [])
    else if returned then none
    else if c == ' ' || c == '\t' then some (.continuation text ended false, [])
    else if c == '\r' then some (.continuation text ended true, [])
    else if !ended then none
    else if c == '"' then some (.lines '"' text false 1, [])
    else inLines '"' text false c

/-- The tokens that the end of the document completes. -/
def finish : State → Option (List Token)
  | .ready | .comment => some []
  | .word text => some [.word (textOf text)]
  | .blank text => some [.blank (textOf text)]
  | .opening _ true => some [.text "" false]
  | .lines quote text _ closing =>
    if closing < 3 then none
    else some [.text (textOf (List.replicate (closing - 3) quote ++ text)) true]
  | _ => none

/-- The tokens of the remaining characters. -/
def run : State → List Char → Option (List Token)
  | state, [] => finish state
  | state, c :: rest => do
    let (state, tokens) ← step state c
    return tokens ++ (← run state rest)

end Lexer

/-- The tokens of a document, after a byte order mark at its start. -/
def Token.ofDocument? (s : String) : Option (List Token) :=
  match s.toList with
  | '\ufeff' :: rest => Lexer.run .ready rest
  | chars => Lexer.run .ready chars

end CSharpGen.Toml

import CSharpGen.Writer.Indent

/-!
# Command line arguments

Arguments are read from left to right, and the first one that settles the outcome ends the reading:
a request for help or for the version, or a fault. An option has its value attached or in the next
argument, which must not look like an option then.
-/

namespace CSharpGen.CommandLine

inductive Command where
  | render (manifest : String) (output : Option String) (indent : Option Indent)
  | check (manifest : String)
  deriving DecidableEq, Repr

/-- Whose help is asked for. -/
inductive HelpTopic where
  | program | render | check | help
  deriving DecidableEq, Repr

/-- What a command line asks for. -/
inductive Request where
  | command (c : Command)
  | help (topic : HelpTopic)
  | version
  /-- The arguments are no use of the program. -/
  | misuse
  deriving DecidableEq, Repr

/-- The arguments of a subcommand so far. -/
structure Given where
  manifest : Option String := none
  output : Option String := none
  indent : Option Indent := none
  deriving DecidableEq, Repr, Inhabited

/-- An option that takes a value. -/
inductive ValueOption where
  | output | indent
  deriving DecidableEq, Repr

namespace Given

/-- Gives an option its value. An option is given once, a path is not empty, and an indentation is
the name of a style. -/
def set? (g : Given) (option : ValueOption) (value : String) : Option Given :=
  match option with
  | .output =>
    if g.output.isSome || value.isEmpty then none else some { g with output := some value }
  | .indent =>
    match g.indent, Indent.parse value with
    | none, .ok style => some { g with indent := some style }
    | _, _ => none

/-- Takes an argument that is no option. There is one, and it is a path. -/
def place? (g : Given) (value : String) : Option Given :=
  if g.manifest.isSome || value.isEmpty then none else some { g with manifest := some value }

end Given

/-- The options of a subcommand. -/
structure Grammar where
  topic : HelpTopic
  long : String → Option ValueOption
  short : Char → Option ValueOption

/-- One argument, by its form. -/
inductive Form where
  /-- The mark after which nothing is an option. -/
  | escape
  | long (name : List Char) (value : Option (List Char))
  | short (letter : Char) (rest : List Char)
  | plain
  deriving DecidableEq, Repr

/-- The value after an equals sign, if there is one. -/
def splitValue (cs : List Char) : List Char × Option (List Char) :=
  match cs.dropWhile (· != '=') with
  | [] => (cs, none)
  | _ :: value => (cs.takeWhile (· != '='), some value)

def Form.of (argument : String) : Form :=
  match argument.toList with
  | ['-', '-'] => .escape
  | '-' :: '-' :: cs => let (name, value) := splitValue cs; .long name value
  | '-' :: c :: cs => .short c cs
  | _ => .plain

/-- The value attached to a letter, with or without an equals sign before it. -/
def attached (cs : List Char) : List Char :=
  match cs with
  | '=' :: value => value
  | value => value

/-- Reads the arguments of a subcommand. `waiting` is an option whose value comes next, and
`escaped` holds after the mark that ends the options. -/
def readGiven (grammar : Grammar) :
    (waiting : Option ValueOption) → (escaped : Bool) → Given → List String →
      Except Request Given
  | some _, _, _, [] => .error .misuse
  | none, _, g, [] => .ok g
  | none, true, g, a :: rest =>
    match g.place? a with
    | some g => readGiven grammar none true g rest
    | none => .error .misuse
  | some option, escaped, g, a :: rest =>
    match Form.of a, g.set? option a with
    | .plain, some g => readGiven grammar none escaped g rest
    | _, _ => .error .misuse
  | none, false, g, a :: rest =>
    match Form.of a with
    | .escape => readGiven grammar none true g rest
    | .plain =>
      match g.place? a with
      | some g => readGiven grammar none false g rest
      | none => .error .misuse
    | .long name value =>
      if String.ofList name == "help" && value.isNone then .error (.help grammar.topic)
      else match grammar.long (String.ofList name), value with
        | some option, none => readGiven grammar (some option) false g rest
        | some option, some value =>
          match g.set? option (String.ofList value) with
          | some g => readGiven grammar none false g rest
          | none => .error .misuse
        | none, _ => .error .misuse
    | .short letter value =>
      if letter == 'h' then .error (.help grammar.topic)
      else match grammar.short letter, value with
        | some option, [] => readGiven grammar (some option) false g rest
        | some option, value =>
          match g.set? option (String.ofList (attached value)) with
          | some g => readGiven grammar none false g rest
          | none => .error .misuse
        | none, _ => .error .misuse

def renderGrammar : Grammar where
  topic := .render
  long
    | "output" => some .output
    | "indent" => some .indent
    | _ => none
  short
    | 'o' => some .output
    | _ => none

def checkGrammar : Grammar where
  topic := .check
  long _ := none
  short _ := none

/-- The command of a subcommand and its arguments. A manifest has to be given. -/
def readCommand (grammar : Grammar) (make : String → Given → Command) (arguments : List String) :
    Request :=
  match readGiven grammar none false {} arguments with
  | .error request => request
  | .ok g =>
    match g.manifest with
    | some manifest => .command (make manifest g)
    | none => .misuse

/-- The topic after the help command. -/
def readTopic : List String → Request
  | [] => .help .program
  | ["render"] => .help .render
  | ["check"] => .help .check
  | ["help"] => .help .help
  | _ => .misuse

def Request.ofArguments : List String → Request
  | [] => .misuse
  | "render" :: rest =>
    readCommand renderGrammar (fun manifest g => .render manifest g.output g.indent) rest
  | "check" :: rest => readCommand checkGrammar (fun manifest _ => .check manifest) rest
  | "help" :: rest => readTopic rest
  | first :: _ =>
    match Form.of first with
    | .long name none =>
      if String.ofList name == "version" then .version
      else if String.ofList name == "help" then .help .program
      else .misuse
    | .short 'V' _ => .version
    | .short 'h' _ => .help .program
    | _ => .misuse

end CSharpGen.CommandLine

import CSharpGen.CommandLine.Arguments
import CSharpGen.Manifest.Decode
import CSharpGen.Manifest.Draft

/-!
# Responses of the program

What the program prints, which file it writes, and how it ends, given the content of the manifest.
Both commands succeed on the same manifests.
-/

namespace CSharpGen.CommandLine

/-- How the program ends. -/
inductive Ending where
  | success | failure | misuse
  deriving DecidableEq, Repr

namespace Ending

def exitCode : Ending → UInt8
  | success => 0
  | failure => 1
  | misuse => 2

end Ending

/-- A file that is to be written. -/
structure Output where
  path : String
  content : String
  deriving DecidableEq, Repr

structure Response where
  ending : Ending
  /-- The text on standard output. -/
  printed : String := ""
  /-- The text on standard error. -/
  complaint : String := ""
  /-- The program fails when the file cannot be written. -/
  output : Option Output := none
  deriving DecidableEq, Repr

/-- The report on a manifest that can be rendered. -/
def report (path : String) (manifest : Manifest) (draft : Draft) (source : String) : String :=
  let space := draft.file.namespaceName.getD "<global>"
  let count := manifest.typeCount
  let plural := if count = 1 then "" else "s"
  let names := String.join (draft.file.types.map fun t => s!"    {t.name}\n")
  let lineCount := (Text.lines source).length
  s!"✓ {path} is valid\n\n  namespace {space}\n  {count} type{plural}:\n" ++ names ++
    s!"\n  {lineCount} lines\n"

namespace Command

/-- The path of the manifest. -/
def manifest : Command → String
  | render path _ _ => path
  | check path => path

/-- What the command does with the text of its manifest. -/
def result (c : Command) (text : String) : Except Error Response := do
  let manifest ← Manifest.parse text
  match c with
  | render _ output indent =>
    let source ← manifest.render indent
    match output with
    | some path => return { ending := .success, output := some ⟨path, source⟩ }
    | none => return { ending := .success, printed := source }
  | check path =>
    let draft ← manifest.toDraft none
    return { ending := .success, printed := report path manifest draft (← draft.build) }

/-- The response to a command, given the text of its manifest if it can be read. -/
def respond (c : Command) (text : Option String) : Response :=
  match text with
  | none =>
    let path := c.manifest
    { ending := .failure, complaint := s!"failed to read '{path}'\n" }
  | some text =>
    match c.result text with
    | .ok response => response
    | .error error =>
      let advice := error.advice?.elim "" fun advice => s!"help: {advice}\n"
      { ending := .failure, complaint := s!"{error.code}: {error.message}\n" ++ advice }

end Command

def versionLine : String := "csforge 0.3.0\n"

/-- The help on a topic. -/
def helpText : HelpTopic → String
  | .program => "Render C# source files from TOML manifests\n\n" ++
      "Usage: csforge <COMMAND>\n\nCommands:\n" ++
      "  render  Render a manifest to C# source\n" ++
      "  check   Build a manifest without writing output\n" ++
      "  help    Print this message or the help of the given subcommand(s)\n\nOptions:\n" ++
      "  -h, --help     Print help\n  -V, --version  Print version\n"
  | .render => "Render a manifest to C# source\n\n" ++
      "Usage: csforge render [OPTIONS] <MANIFEST>\n\nArguments:\n" ++
      "  <MANIFEST>  Path to the manifest\n\nOptions:\n" ++
      "  -o, --output <OUTPUT>  Write to this file instead of stdout\n" ++
      "      --indent <INDENT>  " ++
      "Indentation, `spaces` or `tabs` (overrides the manifest setting)\n" ++
      "  -h, --help             Print help\n"
  | .check => "Build a manifest without writing output\n\n" ++
      "Usage: csforge check <MANIFEST>\n\nArguments:\n" ++
      "  <MANIFEST>  Path to the manifest\n\nOptions:\n  -h, --help  Print help\n"
  | .help => "Print this message or the help of the given subcommand(s)\n\n" ++
      "Usage: csforge help [COMMAND]...\n\nArguments:\n" ++
      "  [COMMAND]...  Print help for the subcommand(s)\n"

/-- The response to a request; `read` gives the text of a file that can be read. -/
def Request.respond (r : Request) (read : String → Option String) : Response :=
  match r with
  | .command c => c.respond (read c.manifest)
  | .help topic => { ending := .success, printed := helpText topic }
  | .version => { ending := .success, printed := versionLine }
  | .misuse => { ending := .misuse, complaint := helpText .program }

end CSharpGen.CommandLine

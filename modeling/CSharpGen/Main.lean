import CSharpGen.CommandLine.Response

/-!
# The program

Reads the manifest that the arguments name, prints, and writes the output file.
-/

namespace CSharpGen.CommandLine

/-- The text of a file, if it can be read. -/
def readText (path : String) : IO (Option String) := do
  try
    return some (← IO.FS.readFile path)
  catch _ =>
    return none

/-- Writes a file and tells whether that worked. -/
def writeText (output : Output) : IO Bool := do
  try
    IO.FS.writeFile output.path output.content
    IO.eprintln s!"✓ wrote {output.path}"
    return true
  catch _ =>
    IO.eprintln s!"failed to write {output.path}"
    return false

/-- The text that a request needs from the file system. -/
def neededText : Request → IO (Option String)
  | .command c => readText c.manifest
  | _ => return none

def perform (arguments : List String) : IO Ending := do
  let request := Request.ofArguments arguments
  let text ← neededText request
  let response := request.respond fun _ => text
  IO.print response.printed
  IO.eprint response.complaint
  match response.output with
  | none => return response.ending
  | some output => return if ← writeText output then response.ending else .failure

end CSharpGen.CommandLine

def main (arguments : List String) : IO UInt32 := do
  return (← CSharpGen.CommandLine.perform arguments).exitCode.toUInt32

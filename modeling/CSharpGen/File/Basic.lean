import CSharpGen.Declaration.Class
import CSharpGen.Declaration.Enum
import CSharpGen.Declaration.Record
import CSharpGen.File.Options
import CSharpGen.File.Preamble
import CSharpGen.Script.Run

/-!
# Files

A file has a preamble and types, with one blank line between its parts. The types stand in a
namespace block, below a namespace line, or in the global namespace.
-/

namespace CSharpGen

/-- A top-level declaration. -/
inductive TypeDeclaration where
  | class (c : Class)
  | enum (e : Enum)
  | record (r : Record)
  | delegate (d : Delegate)

namespace TypeDeclaration

def name : TypeDeclaration → String
  | .class c => c.name
  | .enum e => e.name
  | .record r => r.name
  | .delegate d => d.name

def script : TypeDeclaration → Except Error Script
  | .class c => c.script
  | .enum e => .ok e.script
  | .record r => .ok r.script
  | .delegate d => .ok d.script

/-- The declaration on its own. -/
def render (style : Indent) (t : TypeDeclaration) : Except Error String :=
  t.script.map (Script.render style)

end TypeDeclaration

/-- A file without its imports and assembly attributes, which its declarations register. -/
structure File where
  /-- Nothing stands for the global namespace. -/
  namespaceName : Option String := none
  options : FileOptions := {}
  /-- Warning codes in strictly ascending order. -/
  disabledWarnings : List String := []
  /-- Top-level declarations in the order in which they were added. -/
  types : List TypeDeclaration := []

namespace File

/-- An empty file. A blank name stands for the global namespace. -/
def ofNamespace (name : String) : File := { namespaceName := Text.nonBlank? name }

/-- Disables a warning for the whole file. A blank code is ignored. -/
def disableWarning (f : File) (code : String) : File :=
  match Text.nonBlank? code with
  | none => f
  | some code => { f with disabledWarnings := Text.insertAscending code f.disabledWarnings }

def add (f : File) (t : TypeDeclaration) : File := { f with types := f.types ++ [t] }

/-- An empty class of the file, with the property order of the options. -/
def newClass (f : File) (name : String) : Class :=
  .ofName name f.namespaceName (.ofSorting f.options.sortProperties)

def newEnum (f : File) (name : String) : Enum := .ofName name f.namespaceName

def newRecord (f : File) (name : String) : Record := .ofName name f.namespaceName

/-- The groups above the namespace. -/
def preambleGroups (f : File) (p : Preamble) : List Group := [
  .ofLines (f.options.nullable.toList.map fun state => s!"#nullable {state.keyword}"),
  .ofLines (f.disabledWarnings.map fun code => s!"#pragma warning disable {code}"),
  .ofLines (p.importGroups.all.map fun name => s!"using {name};"),
  .ofLines p.assemblyAttributeLines]

/-- The groups of the types and of the namespace around them. -/
def typeGroups (f : File) (types : List Script) : List Group :=
  let types := Group.ofScripts .spaced types
  match f.namespaceName with
  | none => [types]
  | some name =>
    match f.options.namespaceStyle with
    | .block => [.ofScripts .close [[.block s!"namespace {name}" [] [.sections [types]]]]]
    | .fileScoped => [.ofLines [s!"namespace {name};"], types]

def script (f : File) (p : Preamble) : Except Error Script := do
  let types ← f.types.mapM TypeDeclaration.script
  return [.sections (f.preambleGroups p ++ f.typeGroups types)]

/-- The text of the file. -/
def build (f : File) (p : Preamble) : Except Error String :=
  (f.script p).map (Script.render f.options.indent)

end File

end CSharpGen

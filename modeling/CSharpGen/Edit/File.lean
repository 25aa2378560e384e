import CSharpGen.Edit.Type

/-!
# Edits of files

A draft is a file with its preamble. A copy of a file shares the preamble and nothing else, so what
its edits register stays when the copy is dropped.
-/

namespace CSharpGen

inductive FileEdit where
  | importNamespaces (names : List String)
  | assemblyAttribute (text : String)
  | disableWarning (code : String)
  /-- Replaces the options. Classes that were added before keep their order. -/
  | options (options : FileOptions)
  | addClass (name : String) (edits : List ClassEdit)
  | addEnum (name : String) (edits : List EnumEdit)
  | addRecord (name : String) (edits : List RecordEdit)
  | addDelegate (name : String) (edits : List DelegateEdit)
  /-- Edits a copy of the file, which is dropped afterwards. -/
  | copy (edits : List FileEdit)
  | look

structure Draft where
  file : File := {}
  preamble : Preamble := {}

namespace Draft

def ofNamespace (name : String) : Draft := { file := .ofNamespace name }

def build (d : Draft) : Except Error String := d.file.build d.preamble

def register (d : Draft) (rs : List Registration) : Draft :=
  { d with preamble := d.preamble.registerAll rs }

/-- Adds an edited declaration and registers what its edits asked for. -/
def addEdited {α : Type} (d : Draft) (e : Edited (List Reply) α) (make : α → TypeDeclaration) :
    Draft × Reply :=
  ({ d with file := d.file.add (make e.value) }.register e.registered, .member e.reply)

end Draft

mutual

def FileEdit.perform : FileEdit → Draft → Draft × Reply
  | .importNamespaces names, d => (d.register (names.map .importNamespace), .done)
  | .assemblyAttribute text, d => (d.register [.assemblyAttribute text], .done)
  | .disableWarning code, d => ({ d with file := d.file.disableWarning code }, .done)
  | .options new, d => ({ d with file := { d.file with options := new } }, .done)
  | .addClass name edits, d => d.addEdited (Class.performAll edits (d.file.newClass name)) .class
  | .addEnum name edits, d => d.addEdited ((d.file.newEnum name).performAll edits) .enum
  | .addRecord name edits, d => d.addEdited ((d.file.newRecord name).performAll edits) .record
  | .addDelegate name edits, d =>
    d.addEdited ((Delegate.ofName name).performAll edits) .delegate
  | .copy edits, d =>
    let (other, replies) := FileEdit.performAll edits d
    ({ d with preamble := other.preamble }, .copy replies other.file other.preamble)
  | .look, d => (d, .file d.file d.preamble)

def FileEdit.performAll : List FileEdit → Draft → Draft × List Reply
  | [], d => (d, [])
  | edit :: rest, d =>
    let (d, reply) := FileEdit.perform edit d
    let (d, replies) := FileEdit.performAll rest d
    (d, reply :: replies)

end

end CSharpGen

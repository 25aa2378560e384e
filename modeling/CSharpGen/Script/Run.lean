import CSharpGen.Script.Basic

/-!
# Running scripts

A run threads a writer through the steps of a script, with the table of reserved names and a trace
of what can be observed after each step. `Script.write` is the effect on the writer alone.
-/

namespace CSharpGen

/-- What a run records. -/
inductive Observation where
  | state (writer : Writer)
  | missingSub
  | sections (hadOutput : Bool) (failure : Option String)
  deriving Repr

structure Run where
  writer : Writer
  /-- Reserved names and their indexes, newest first. -/
  reserved : List (String × Nat) := []
  /-- Observations, newest first. -/
  trace : List Observation := []

namespace Run

def note (r : Run) (o : Observation) : Run := { r with trace := o :: r.trace }

/-- Records the current writer. -/
def observe (r : Run) : Run := r.note (.state r.writer)

def update (r : Run) (f : Writer → Writer) : Run := { r with writer := f r.writer }

/-- The index and the content of the sub-writer reserved under a name. -/
def sub? (r : Run) (name : String) : Option (Nat × Writer) :=
  (r.reserved.lookup name).bind fun index => (r.writer.sub? index).map (index, ·)

/-- Runs `body` between the header of a block and its closing brace. -/
def inBlock (r : Run) (header : String) (constraints : List String) (body : Run → Run) : Run :=
  let (writer, id) := r.writer.openBlock header constraints
  (body { r with writer }).update (·.closeBlock id)

/-- Runs `body` on the sub-writer reserved under a name. -/
def inSub (r : Run) (name : String) (body : Run → Run) : Run :=
  match r.sub? name with
  | none => r.note .missingSub
  | some (index, sub) =>
    let inner := body { r with writer := sub }
    { inner with writer := r.writer.setSub index inner.writer }

def reserve (r : Run) (name : String) (header : Option String) : Run :=
  let (writer, index) := r.writer.reserve header
  { r with writer, reserved := (name, index) :: r.reserved }

/-- Writes a label, its body one level deeper, and a break. -/
def inCase (r : Run) (label : String) (body : Run → Run) : Run :=
  (body (r.update fun w => (w.appendLine label).increaseIndent)).update
    fun w => (w.appendLine "break;").decreaseIndent

/-- Writes groups and records how that ended. -/
def sections (r : Run) (groups : List (Spacing × List (Attempt Run String))) : Run :=
  let outcome := Sections.writeGroups (·.update Writer.newLine) false groups r
  outcome.state.note (.sections outcome.hadOutput outcome.failure)

end Run

mutual

/-- Runs one step and records the writer after it. -/
def Step.run : Step → Run → Run
  | .op op, r => (r.update (·.apply op)).observe
  | .block header constraints body, r =>
    (r.inBlock header constraints fun r => Step.runAll body r.observe).observe
  | .statement branches, r => (Branch.runBlocks branches r).observe
  | .switch value branches, r =>
    (r.inBlock s!"switch ({value})" [] (Branch.runCases branches)).observe
  | .reserve name header, r => (r.reserve name header).observe
  | .inside name body, r => (r.inSub name (Step.runAll body)).observe
  | .sections groups, r => (r.sections (Group.attempts groups)).observe
  | .isolated body, r =>
    { Step.runAll body { r with reserved := [] } with reserved := r.reserved }

def Step.runAll : List Step → Run → Run
  | [], r => r
  | step :: rest, r => Step.runAll rest (step.run r)

def Branch.runBlocks : List Branch → Run → Run
  | [], r => r
  | .mk header body :: rest, r =>
    Branch.runBlocks rest (r.inBlock header [] (Step.runAll body))

def Branch.runCases : List Branch → Run → Run
  | [], r => r
  | .mk label body :: rest, r => Branch.runCases rest (r.inCase label (Step.runAll body))

def Item.attempt : Item → Attempt Run String
  | .line text, r => (r.update (·.appendLine text), none)
  | .fail reason, r => (r, some reason)
  | .steps body, r => (Step.runAll body r, none)

def Item.attempts : List Item → List (Attempt Run String)
  | [] => []
  | item :: rest => item.attempt :: Item.attempts rest

def Group.attempts : List Group → List (Spacing × List (Attempt Run String))
  | [] => []
  | .mk spacing items :: rest => (spacing, Item.attempts items) :: Group.attempts rest

end

namespace Script

/-- Runs a script from a writer, with no names reserved. -/
def run (script : Script) (w : Writer) : Run := Step.runAll script { writer := w }

/-- What a script leaves in a writer. -/
def write (script : Script) (w : Writer) : Writer := (script.run w).writer

/-- The text of a script on its own. -/
def render (style : Indent) (script : Script) : String := (script.write (.empty style)).render

end Script

end CSharpGen

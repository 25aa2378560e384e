import CSharpGen.Declaration.Access
import CSharpGen.Declaration.Accessor
import CSharpGen.Declaration.Attributes
import CSharpGen.Declaration.Documentation
import CSharpGen.Declaration.Words

/-!
# Events

The accessors of an event are written only when both are given.
-/

namespace CSharpGen

structure Event where
  name : String
  handler : String := "EventHandler"
  access : Option Access := none
  isStatic : Bool := false
  /-- The interface for which the event is implemented explicitly. -/
  interface : Option String := none
  adder : Option Accessor := none
  remover : Option Accessor := none
  warning : Option String := none
  attributes : Attributes := {}
  documentation : Documentation := .empty

namespace Event

def ofName (name : String) : Event := { name := Text.trim name }

/-- Forwards both accessors to another event or field. -/
def forwardTo (e : Event) (field : String) : Event :=
  { e with
    adder := some (.expression s!"{field} += value")
    remover := some (.expression s!"{field} -= value") }

/-- An explicit implementation names its interface and has no access keywords. -/
def declaration (e : Event) : String :=
  let static := Declaration.wordIf e.isStatic "static"
  match e.interface with
  | some interface => Declaration.words [static, "event", e.handler, s!"{interface}.{e.name}"]
  | none => Declaration.words [Access.keywordsOf e.access, static, "event", e.handler, e.name]

def script (e : Event) : Script :=
  Step.lines e.documentation.lines ++ Declaration.warning e.warning ++
    Step.lines e.attributes.lines ++
    match e.adder, e.remover with
    | some adder, some remover =>
      [.block e.declaration [] (adder.script "add" ++ remover.script "remove")]
    | _, _ => [.line s!"{e.declaration};"]

end Event

end CSharpGen

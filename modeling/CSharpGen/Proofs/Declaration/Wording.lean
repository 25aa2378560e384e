import CSharpGen.File.Basic
import CSharpGen.Proofs.Script.Passage

/-!
# Wording

What users give to the declarations of a file: texts and bodies. Whether the lines of a file come
out as lines depends on them alone.
-/

namespace CSharpGen

/-- A text or a body that a user gives to a declaration. -/
inductive Wording where
  /-- A name, a type, an attribute or another text that has its place within a line. -/
  | text (text : String)
  /-- A summary or an initial value, which can have several lines. -/
  | passage (text : String)
  /-- The name of a value of an enum. -/
  | label (text : String)
  | body (steps : Script)

/-- A line that is not blank, without line feeds and braces. -/
def Step.PlainLine : Step → Prop
  | .op (.appendLine text) =>
    Text.OneLine text ∧ Text.BraceFree text ∧ Text.isBlankText text = false
  | _ => False

instance : DecidablePred Step.PlainLine := fun step => by
  unfold Step.PlainLine
  split <;> infer_instance

namespace Wording

/-- Texts but summaries and initial values are of one line, values of enums have names, and bodies
are made of lines, blocks and statements. -/
def Orderly : Wording → Prop
  | text s => Text.OneLine s
  | passage _ => True
  | label s => Text.OneLine s ∧ Text.isBlankText s = false
  | body steps => Step.AllStructured steps

instance : DecidablePred Orderly := fun w => by
  unfold Orderly
  split <;> infer_instance

/-- All texts are without line feeds and braces, and bodies are made of lines. Names of values and
lines of bodies are not blank. -/
def Plain : Wording → Prop
  | text s | passage s => Text.OneLine s ∧ Text.BraceFree s
  | label s => Text.OneLine s ∧ Text.BraceFree s ∧ Text.isBlankText s = false
  | body steps => ∀ step ∈ steps, step.PlainLine

instance : DecidablePred Plain := fun w => by
  unfold Plain
  split <;> infer_instance

end Wording

/-! ## Members -/

def Documentation.wording : Documentation → List Wording
  | .empty => []
  | .summary text parameters => text.toList.map .passage ++
    parameters.flatMap fun (name, doc) => [.text name, .text doc]
  | .inherited source => source.toList.map .text

def Attributes.wording (a : Attributes) : List Wording := a.bodies.items.map .text

def GenericParameter.wording (p : GenericParameter) : List Wording :=
  .text p.name :: p.primary.toList.map .text ++ p.others.map .text

def Generics.wording (g : Generics) : List Wording := g.parameters.flatMap GenericParameter.wording

def Parameter.wording (p : Parameter) : List Wording :=
  .text p.type :: .text p.name :: p.default.toList.map .text

def Accessor.wording : Accessor → List Wording
  | .expression text => [.text text]
  | .body steps => [.body steps]

def Property.wording (p : Property) : List Wording :=
  .text p.name :: p.type.toList.map .text ++ (p.value.toList.map fun value => .passage value.text) ++
    p.getter.toList.flatMap Accessor.wording ++ p.setter.toList.flatMap Accessor.wording ++
    p.warning.toList.map .text ++ p.attributes.wording ++ p.documentation.wording

def Event.wording (e : Event) : List Wording :=
  .text e.name :: .text e.handler :: e.interface.toList.map .text ++
    e.adder.toList.flatMap Accessor.wording ++ e.remover.toList.flatMap Accessor.wording ++
    e.warning.toList.map .text ++ e.attributes.wording ++ e.documentation.wording

def Method.wording (m : Method) : List Wording :=
  .text m.name :: m.returnType.toList.map .text ++ m.generics.wording ++
    m.parameters.flatMap Parameter.wording ++ m.body.toList.map .body ++
    m.warning.toList.map .text ++ m.attributes.wording ++ m.documentation.wording

def Constructor.wording (c : Constructor) : List Wording :=
  .text c.className :: c.parameters.flatMap Parameter.wording ++
    (c.initializer.toList.flatMap fun i => i.arguments.map .text) ++ c.body.toList.map .body ++
    c.warning.toList.map .text ++ c.attributes.wording ++ c.documentation.wording

/-! ## Types -/

def Delegate.wording (d : Delegate) : List Wording :=
  .text d.name :: d.returnType.toList.map .text ++ d.generics.wording ++
    d.parameters.flatMap Parameter.wording ++ d.attributes.wording ++ d.documentation.wording

def EnumValue.wording (v : EnumValue) : List Wording :=
  .label v.name :: v.attributes.wording ++ v.documentation.wording

def Enum.wording (e : Enum) : List Wording :=
  .text e.name :: e.underlying.toList.map .text ++ e.attributes.wording ++
    e.documentation.wording ++ e.values.flatMap EnumValue.wording

def RecordProperty.wording (p : RecordProperty) : List Wording :=
  .text p.type :: .text p.name :: p.default.toList.map .text

def Record.wording (r : Record) : List Wording :=
  .text r.name :: r.properties.flatMap RecordProperty.wording ++ r.warning.toList.map .text ++
    r.attributes.wording ++ r.documentation.wording

/-- The wording of a class without its nested classes. -/
def ClassCore.wording (c : ClassCore) : List Wording :=
  .text c.name :: c.base.toList.map .text ++ c.interfaces.map .text ++ c.generics.wording ++
    c.attributes.wording ++ c.documentation.wording ++ c.delegates.flatMap Delegate.wording ++
    c.events.flatMap Event.wording ++ c.properties.flatMap Property.wording ++
    c.constructors.flatMap Constructor.wording ++ c.methods.flatMap Method.wording

mutual

def Class.wording : Class → List Wording
  | ⟨core, nested⟩ => core.wording ++ Class.wordingAll nested

def Class.wordingAll : List Class → List Wording
  | [] => []
  | c :: rest => c.wording ++ Class.wordingAll rest

end

def TypeDeclaration.wording : TypeDeclaration → List Wording
  | .class c => c.wording
  | .enum e => e.wording
  | .record r => r.wording
  | .delegate d => d.wording

/-! ## Files -/

def File.wording (f : File) : List Wording :=
  f.namespaceName.toList.map .text ++ f.disabledWarnings.map .text ++
    f.types.flatMap TypeDeclaration.wording

def Preamble.wording (p : Preamble) : List Wording :=
  p.imports.items.map .text ++ p.assemblyAttributes.items.map .text

end CSharpGen

import CSharpGen.Edit.Basic

/-!
# Edits of members

Edits of properties, methods, constructors, events and delegates.
-/

namespace CSharpGen

/-! ## Properties -/

inductive PropertyEdit where
  | access (access : Access)
  | makeStatic
  | makeVirtual
  | makeOverride
  | type (type : String)
  | constant (value : Value)
  | readonly (value : Option Value)
  | field (value : Option Value)
  | auto (accessors : AutoAccessors)
  | getter (accessor : Accessor)
  | setter (accessor : Accessor)
  | warning (text : String)
  | attribute (text : String)
  | summary (text : String)
  | inheritDocumentation (source : Option String)
  | importNamespace (name : String)
  | look

/-- Giving an accessor makes a property of a field, which keeps its value. -/
def Property.perform (p : Property) : PropertyEdit → Edited Reply Property
  | .access access => .done { p with access := some access }
  | .makeStatic => .done { p with isStatic := true }
  | .makeVirtual => .done { p with isVirtual := true }
  | .makeOverride => .done { p with isOverride := true }
  | .type type => .done { p with type := some type }
  | .constant value => .done { p with kind := .constant, value := some value }
  | .readonly value => .done { p with kind := .readonly, value }
  | .field value => .done { p with kind := .field, value }
  | .auto accessors => .done { p with auto := some accessors }
  | .getter accessor => .done { p with kind := .property, getter := some accessor }
  | .setter accessor => .done { p with kind := .property, setter := some accessor }
  | .warning text => .done { p with warning := some text }
  | .attribute text => .done { p with attributes := p.attributes.add text }
  | .summary text => .done { p with documentation := p.documentation.setSummary text }
  | .inheritDocumentation source => .done { p with documentation := .inherited source }
  | .importNamespace name => .registering p (.importNamespace name)
  | .look => { value := p, reply := .property p }

def Property.performAll (p : Property) (edits : List PropertyEdit) :
    Edited (List Reply) Property := Edited.each Property.perform p edits

/-! ## Methods -/

inductive MethodEdit where
  | access (access : Access)
  | makeAsync
  | makeStatic
  | makeVirtual
  | makeOverride
  | makeAbstract
  | returnType (type : String)
  | generic (name : String) (constraints : List Constraint)
  | parameter (edit : ParameterEdit)
  | body (steps : Script)
  | warning (text : String)
  | attribute (text : String)
  | summary (text : String)
  | inheritDocumentation (source : Option String)
  | documentParameter (name doc : String)
  | importNamespace (name : String)
  | look

def Method.perform (m : Method) : MethodEdit → Edited Reply Method
  | .access access => .done { m with access := some access }
  | .makeAsync => .done { m with isAsync := true }
  | .makeStatic => .done { m with isStatic := true }
  | .makeVirtual => .done { m with isVirtual := true }
  | .makeOverride => .done { m with isOverride := true }
  | .makeAbstract => .done { m with isAbstract := true }
  | .returnType type => .done { m with returnType := some type }
  | .generic name constraints => .attempt m (m.addGeneric name constraints)
  | .parameter edit => .done { m with parameters := edit.apply m.parameters }
  | .body steps => .done { m with body := some steps }
  | .warning text => .done { m with warning := some text }
  | .attribute text => .done { m with attributes := m.attributes.add text }
  | .summary text => .done { m with documentation := m.documentation.setSummary text }
  | .inheritDocumentation source => .done { m with documentation := .inherited source }
  | .documentParameter name doc => .attempt m (m.documentParameter name doc)
  | .importNamespace name => .registering m (.importNamespace name)
  | .look => { value := m, reply := .method m }

def Method.performAll (m : Method) (edits : List MethodEdit) : Edited (List Reply) Method :=
  Edited.each Method.perform m edits

/-! ## Constructors -/

inductive ConstructorEdit where
  | access (access : Access)
  | parameter (edit : ParameterEdit)
  /-- Calls another constructor with parameters given by type and name. -/
  | forward (target : InitializerTarget) (pairs : List (String × String))
  | body (steps : Script)
  | warning (text : String)
  | attribute (text : String)
  | summary (text : String)
  | inheritDocumentation
  | documentParameter (name doc : String)
  | importNamespace (name : String)
  | look

def Constructor.perform (c : Constructor) : ConstructorEdit → Edited Reply Constructor
  | .access access => .done { c with access := some access }
  | .parameter edit => .done { c with parameters := edit.apply c.parameters }
  | .forward target pairs => .done (c.forward target pairs)
  | .body steps => .done { c with body := some steps }
  | .warning text => .done { c with warning := some text }
  | .attribute text => .done { c with attributes := c.attributes.add text }
  | .summary text => .done { c with documentation := c.documentation.setSummary text }
  | .inheritDocumentation => .done { c with documentation := .inherited none }
  | .documentParameter name doc => .attempt c (c.documentParameter name doc)
  | .importNamespace name => .registering c (.importNamespace name)
  | .look => { value := c, reply := .constructor c }

def Constructor.performAll (c : Constructor) (edits : List ConstructorEdit) :
    Edited (List Reply) Constructor := Edited.each Constructor.perform c edits

/-! ## Events -/

inductive EventEdit where
  | access (access : Access)
  | makeStatic
  | handler (type : String)
  | implementExplicitly (interface : String)
  | adder (accessor : Accessor)
  | remover (accessor : Accessor)
  | forwardTo (field : String)
  | warning (text : String)
  | attribute (text : String)
  | summary (text : String)
  | inheritDocumentation
  | importNamespace (name : String)
  | look

def Event.perform (e : Event) : EventEdit → Edited Reply Event
  | .access access => .done { e with access := some access }
  | .makeStatic => .done { e with isStatic := true }
  | .handler type => .done { e with handler := type }
  | .implementExplicitly interface => .done { e with interface := some interface }
  | .adder accessor => .done { e with adder := some accessor }
  | .remover accessor => .done { e with remover := some accessor }
  | .forwardTo field => .done (e.forwardTo field)
  | .warning text => .done { e with warning := some text }
  | .attribute text => .done { e with attributes := e.attributes.add text }
  | .summary text => .done { e with documentation := e.documentation.setSummary text }
  | .inheritDocumentation => .done { e with documentation := .inherited none }
  | .importNamespace name => .registering e (.importNamespace name)
  | .look => { value := e, reply := .event e }

def Event.performAll (e : Event) (edits : List EventEdit) : Edited (List Reply) Event :=
  Edited.each Event.perform e edits

/-! ## Delegates -/

inductive DelegateEdit where
  | access (access : Access)
  | returnType (type : String)
  | generic (name : String) (constraints : List Constraint)
  | parameter (edit : ParameterEdit)
  | attribute (text : String)
  | summary (text : String)
  | documentParameter (name doc : String)
  | importNamespace (name : String)
  | assemblyAttribute (text : String)
  | look

def Delegate.perform (d : Delegate) : DelegateEdit → Edited Reply Delegate
  | .access access => .done { d with access := some access }
  | .returnType type => .done { d with returnType := some type }
  | .generic name constraints => .attempt d (d.addGeneric name constraints)
  | .parameter edit => .done { d with parameters := edit.apply d.parameters }
  | .attribute text => .done { d with attributes := d.attributes.add text }
  | .summary text => .done { d with documentation := d.documentation.setSummary text }
  | .documentParameter name doc => .attempt d (d.documentParameter name doc)
  | .importNamespace name => .registering d (.importNamespace name)
  | .assemblyAttribute text => .registering d (.assemblyAttribute text)
  | .look => { value := d, reply := .delegate d }

def Delegate.performAll (d : Delegate) (edits : List DelegateEdit) :
    Edited (List Reply) Delegate := Edited.each Delegate.perform d edits

end CSharpGen

import CSharpGen.Edit.Member

/-!
# Edits of types

Edits of enums, records and classes. A new member is edited before it is put into its type.
-/

namespace CSharpGen

/-! ## Enums -/

inductive EnumValueEdit where
  | number (n : Int)
  | attribute (text : String)
  | summary (text : String)
  | look

def EnumValue.perform (v : EnumValue) : EnumValueEdit → Edited Reply EnumValue
  | .number n => .done { v with number := some n }
  | .attribute text => .done { v with attributes := v.attributes.add text }
  | .summary text => .done { v with documentation := v.documentation.setSummary text }
  | .look => { value := v, reply := .enumValue v }

def EnumValue.performAll (v : EnumValue) (edits : List EnumValueEdit) :
    Edited (List Reply) EnumValue := Edited.each EnumValue.perform v edits

inductive EnumEdit where
  | access (access : Access)
  | underlying (type : String)
  /-- Marks the enum as a set of flags. -/
  | flags
  | attribute (text : String)
  | summary (text : String)
  | addValue (name : String) (number : Option Int) (edits : List EnumValueEdit)
  | importNamespace (name : String)
  | look

def Enum.perform (e : Enum) : EnumEdit → Edited Reply Enum
  | .access access => .done { e with access := some access }
  | .underlying type => .done { e with underlying := some type }
  | .flags =>
    .registering { e with attributes := e.attributes.add "Flags" } (.importNamespace "System")
  | .attribute text => .done { e with attributes := e.attributes.add text }
  | .summary text => .done { e with documentation := e.documentation.setSummary text }
  | .addValue name number edits =>
    (({ EnumValue.ofName name with number }).performAll edits).into fun v =>
      { e with values := e.values ++ [v] }
  | .importNamespace name => .registering e (.importNamespace name)
  | .look => { value := e, reply := .enum e }

def Enum.performAll (e : Enum) (edits : List EnumEdit) : Edited (List Reply) Enum :=
  Edited.each Enum.perform e edits

/-! ## Records -/

inductive RecordPropertyEdit where
  | access (access : Access)
  | default (value : String)
  deriving DecidableEq, Repr

def RecordProperty.perform (p : RecordProperty) :
    RecordPropertyEdit → Edited Reply RecordProperty
  | .access access => .done { p with access := some access }
  | .default value => .done { p with default := some value }

inductive RecordEdit where
  | access (access : Access)
  | makeSealed
  | style (style : RecordStyle)
  | addProperty (type name : String) (edits : List RecordPropertyEdit)
  | warning (text : String)
  | attribute (text : String)
  | summary (text : String)
  | importNamespace (name : String)
  | look

def Record.perform (r : Record) : RecordEdit → Edited Reply Record
  | .access access => .done { r with access := some access }
  | .makeSealed => .done { r with isSealed := true }
  | .style style => .done { r with style }
  | .addProperty type name edits =>
    (Edited.each RecordProperty.perform (.make type name) edits).into fun p =>
      { r with properties := r.properties ++ [p] }
  | .warning text => .done { r with warning := some text }
  | .attribute text => .done { r with attributes := r.attributes.add text }
  | .summary text => .done { r with documentation := r.documentation.setSummary text }
  | .importNamespace name => .registering r (.importNamespace name)
  | .look => { value := r, reply := .record r }

def Record.performAll (r : Record) (edits : List RecordEdit) : Edited (List Reply) Record :=
  Edited.each Record.perform r edits

/-! ## Classes -/

inductive ClassEdit where
  | kind (kind : TypeKind)
  | access (access : Access)
  | makeStatic
  | makeSealed
  | makeAbstract
  | «partial» (isPartial : Bool)
  | base (type : String)
  | addInterfaces (types : List String)
  | generic (name : String) (constraints : List Constraint)
  | attribute (text : String)
  | summary (text : String)
  | inheritDocumentation (source : Option String)
  | importNamespace (name : String)
  | assemblyAttribute (text : String)
  | order (order : PropertyOrder)
  | addProperty (name : String) (edits : List PropertyEdit)
  /-- Adds a private field behind the property of the given name. -/
  | addBackingField (property : String) (edits : List PropertyEdit)
  | addMethod (name : String) (edits : List MethodEdit)
  | addConstructor (edits : List ConstructorEdit)
  | addEvent (name : String) (edits : List EventEdit)
  /-- Adds an event that implements one of an interface, and the private event behind it. -/
  | addExplicitEvent (name interface handler : String) (edits : List EventEdit)
  | addClass (name : String) (edits : List ClassEdit)
  | addDelegate (name : String) (edits : List DelegateEdit)
  | look

namespace Class

def addProperty (c : Class) (p : Property) : Class :=
  { c with properties := c.properties ++ [p] }

def addMethod (c : Class) (m : Method) : Class := { c with methods := c.methods ++ [m] }

def addConstructor (c : Class) (k : Constructor) : Class :=
  { c with constructors := c.constructors ++ [k] }

def addEvent (c : Class) (e : Event) : Class := { c with events := c.events ++ [e] }

def addClass (c : Class) (inner : Class) : Class := { c with nested := c.nested ++ [inner] }

def addDelegate (c : Class) (d : Delegate) : Class := { c with delegates := c.delegates ++ [d] }

/-- Adds a backing field, when the property exists. -/
def performBacking (c : Class) (property : String) (edits : List PropertyEdit) :
    Edited Reply Class :=
  match c.backingField? property with
  | none => { value := c, reply := .absent }
  | some field =>
    let edited := field.performAll edits
    { value := c.addProperty edited.value
      reply := .backing field edited.reply
      registered := edited.registered }

end Class

mutual

/-- A dotted base type or interface has its namespace imported. -/
def Class.perform : ClassEdit → Class → Edited Reply Class
  | .kind kind, c => .done { c with kind }
  | .access access, c => .done { c with access := some access }
  | .makeStatic, c => .done { c with isStatic := true }
  | .makeSealed, c => .done { c with isSealed := true }
  | .makeAbstract, c => .done { c with isAbstract := true }
  | .partial isPartial, c => .done { c with isPartial }
  | .base type, c => .registering { c with base := some type } (.importNamespaceOf type)
  | .addInterfaces types, c =>
    { value := { c with interfaces := c.interfaces ++ types }
      reply := .done
      registered := types.map .importNamespaceOf }
  | .generic name constraints, c => .attempt c (c.addGeneric name constraints)
  | .attribute text, c => .done { c with attributes := c.attributes.add text }
  | .summary text, c => .done { c with documentation := c.documentation.setSummary text }
  | .inheritDocumentation source, c => .done { c with documentation := .inherited source }
  | .importNamespace name, c => .registering c (.importNamespace name)
  | .assemblyAttribute text, c => .registering c (.assemblyAttribute text)
  | .order order, c => .done { c with order }
  | .addProperty name edits, c => ((Property.ofName name).performAll edits).into c.addProperty
  | .addBackingField property edits, c => c.performBacking property edits
  | .addMethod name edits, c => ((Method.ofName name).performAll edits).into c.addMethod
  | .addConstructor edits, c => (c.constructor.performAll edits).into c.addConstructor
  | .addEvent name edits, c => ((Event.ofName name).performAll edits).into c.addEvent
  | .addExplicitEvent name interface handler edits, c =>
    let (backing, explicit) := Class.explicitEvent name interface handler
    (explicit.performAll edits).into (c.addEvent backing).addEvent
  | .addClass name edits, c => (Class.performAll edits (c.child name)).into c.addClass
  | .addDelegate name edits, c => ((Delegate.ofName name).performAll edits).into c.addDelegate
  | .look, c => { value := c, reply := .class c }

def Class.performAll : List ClassEdit → Class → Edited (List Reply) Class
  | [], c => { value := c, reply := [] }
  | edit :: rest, c =>
    let first := Class.perform edit c
    let others := Class.performAll rest first.value
    { value := others.value
      reply := first.reply :: others.reply
      registered := first.registered ++ others.registered }

end

end CSharpGen

import Mathlib.Data.List.Nodup
import CSharpGen.Manifest.Draft
import CSharpGen.Proofs.Manifest.Outcome

/-!
# What a manifest builds

Every entry of a manifest has the declaration that it builds, and the faults for which it is refused
instead. The file of a manifest is built of the declarations of its entries, unless one of the
entries has a fault (`Manifest.yields_toDraft`).
-/

namespace CSharpGen

/-! ## Generic parameters -/

namespace GenericEntry

/-- The names of generic parameters without the blanks around them. -/
def names (gs : List GenericEntry) : List String := gs.map fun g => Text.trim g.name

/-- Names that one declaration can give to its generic parameters. -/
def Distinct (gs : List GenericEntry) : Prop := "" ∉ names gs ∧ (names gs).Nodup

/-- Why the generic parameters of the declaration `owner` are refused. -/
inductive Fault (owner : String) (gs : List GenericEntry) : Error → Prop
  | blank (nameless : "" ∈ names gs) :
    Fault owner gs (.emptyIdentifier s!"generic parameter of '{owner}'")
  | repeated {name : String} (twice : [name, name].Sublist (names gs)) :
    Fault owner gs (.duplicateGeneric owner name)

/-- Generic parameters have no fault exactly when they have distinct names, none of which is blank.
-/
theorem forall_not_fault_iff {owner : String} {gs : List GenericEntry} :
    (∀ e, ¬Fault owner gs e) ↔ Distinct gs := by
  constructor
  · intro none
    exact ⟨fun nameless => none _ (.blank nameless),
      List.nodup_iff_sublist.mpr fun _ twice => none _ (.repeated twice)⟩
  · rintro ⟨named, distinct⟩ e (nameless | twice)
    · exact named nameless
    · exact List.nodup_iff_sublist.mp distinct _ twice

def toGeneric (g : GenericEntry) : GenericParameter :=
  g.toConstraints.foldl GenericParameter.constrain { name := Text.trim g.name }

def toGenerics (gs : List GenericEntry) : Generics := ⟨gs.map toGeneric⟩

/-- Adds the generic parameters of several entries to the declaration `owner`. -/
def addAll (owner : String) (gs : List GenericEntry) (old : Generics) : Except Error Generics :=
  gs.foldlM (fun new g => new.add owner g.name g.toConstraints) old

end GenericEntry

/-- Constraints leave the name of a parameter as it is. -/
theorem GenericParameter.constrain_name (p : GenericParameter) (c : Constraint) :
    (p.constrain c).name = p.name := by
  have text (text : String) : (p.constrainBy text).name = p.name := by
    unfold constrainBy
    dsimp only
    split
    · rfl
    · split
      · rfl
      · split <;> rfl
  cases c with
  | text given => exact text given
  | reference => exact text "class"
  | valueType => exact text "struct"
  | constructible => rfl

namespace GenericEntry

theorem toGeneric_name (g : GenericEntry) : g.toGeneric.name = Text.trim g.name := by
  have keeps (cs : List Constraint) (p : GenericParameter) :
      (cs.foldl GenericParameter.constrain p).name = p.name := by
    induction cs generalizing p with
    | nil => rfl
    | cons c rest ih => rw [List.foldl_cons, ih, GenericParameter.constrain_name]
  exact keeps _ _

/-- The built parameters have the trimmed names of the entries. -/
theorem toGenerics_names (gs : List GenericEntry) : (toGenerics gs).names = names gs := by
  simp [Generics.names, toGenerics, names, toGeneric_name]

/-- After the entries `before` the names of all entries are looked at together. -/
theorem yields_addAll_after (owner : String) {before : List GenericEntry} (gs : List GenericEntry)
    (distinct : Distinct before) :
    YieldsUnless (Fault owner (before ++ gs)) (toGenerics (before ++ gs))
      (addAll owner gs (toGenerics before)) := by
  induction gs generalizing before with
  | nil =>
    rw [List.append_nil]
    exact yieldsUnless_ok (forall_not_fault_iff.mpr distinct)
  | cons g rest ih =>
    have split : names (before ++ g :: rest) = names before ++ Text.trim g.name :: names rest := by
      simp [names]
    rw [addAll, List.foldlM_cons, Generics.add, toGenerics_names]
    by_cases nameless : Text.trim g.name = ""
    · rw [if_pos (by simp [nameless])]
      exact yieldsUnless_error (.blank (by simp [split, nameless]))
    · rw [if_neg (by simpa using nameless)]
      by_cases taken : Text.trim g.name ∈ names before
      · rw [if_pos (by simpa using taken)]
        refine yieldsUnless_error (.repeated ?_)
        rw [split]
        exact (List.singleton_sublist.mpr taken).append
          (List.singleton_sublist.mpr List.mem_cons_self)
      · rw [if_neg (by simpa using taken)]
        have grown : Distinct (before ++ [g]) := by
          constructor
          · simpa [names, Ne.symm nameless] using distinct.1
          · have apart : ∀ a ∈ names before, a ≠ Text.trim g.name :=
              fun a member same => taken (same ▸ member)
            simpa [names, List.nodup_append] using ⟨distinct.2, by simpa [names] using apart⟩
        have next := ih grown
        rw [List.append_assoc, List.singleton_append] at next
        have same : toGenerics (before ++ [g]) =
            ⟨(toGenerics before).parameters ++ [g.toGeneric]⟩ := by
          simp [toGenerics]
        rw [same] at next
        exact next

theorem yields_addAll (owner : String) (gs : List GenericEntry) :
    YieldsUnless (Fault owner gs) (toGenerics gs) (addAll owner gs {}) :=
  have none : Distinct [] := ⟨List.not_mem_nil, List.nodup_nil⟩
  yields_addAll_after owner gs none

/-- The entries are added one by one to the generic parameters that a declaration carries. -/
theorem yields_foldlM {δ : Type} {owner : String} {plain : δ} (put : Generics → δ)
    (start : put {} = plain) {add : δ → GenericEntry → Except Error δ}
    (step : ∀ old g, add (put old) g =
      old.add owner g.name g.toConstraints >>= fun new => .ok (put new))
    (gs : List GenericEntry) :
    YieldsUnless (Fault owner gs) (put (toGenerics gs)) (gs.foldlM add plain) := by
  rw [← start, foldlM_put put step]
  exact (yields_addAll owner gs).map put

end GenericEntry

/-! ## Documentation -/

namespace Documentation

/-- The documentation with the entry of a parameter. Inherited documentation has no entries. -/
def document (d : Documentation) (entry : String × String) : Documentation :=
  match d with
  | .empty => .summary none [entry]
  | .summary text parameters => .summary text (setEntry entry.1 entry.2 parameters)
  | .inherited source => .inherited source

/-- Documents several parameters of `member`. -/
def addAll (member : String) (entries : List (String × String)) (d : Documentation) :
    Except Error Documentation :=
  entries.foldlM (fun new entry => new.addParameter member entry.1 entry.2) d

theorem yields_addAll (member : String) (entries : List (String × String)) (d : Documentation) :
    YieldsUnless (fun e => d.isInherited ∧ entries ≠ [] ∧ e = .inheritedDocumentation member)
      (entries.foldl document d) (addAll member entries d) := by
  induction entries generalizing d with
  | nil => exact yieldsUnless_ok (by simp)
  | cons entry rest ih =>
    rw [addAll, List.foldlM_cons, List.foldl_cons]
    cases d with
    | empty => exact (ih (document .empty entry)).congr fun e => by simp [document, isInherited]
    | summary text parameters =>
      exact (ih (document (.summary text parameters) entry)).congr fun e => by
        simp [document, isInherited]
    | inherited source => exact yieldsUnless_error ⟨rfl, by simp, rfl⟩

/-- The entries are added one by one to the documentation that a declaration carries. -/
theorem yields_foldlM {δ : Type} {member : String} (put : Documentation → δ)
    {add : δ → String × String → Except Error δ}
    (step : ∀ old entry, add (put old) entry =
      old.addParameter member entry.1 entry.2 >>= fun new => .ok (put new))
    (entries : List (String × String)) (d : Documentation) :
    YieldsUnless (fun e => d.isInherited ∧ entries ≠ [] ∧ e = .inheritedDocumentation member)
      (put (entries.foldl document d)) (entries.foldlM add (put d)) := by
  rw [foldlM_put put step]
  exact (yields_addAll member entries d).map put

theorem isInherited_ofSummary (summary : Option String) :
    (ofSummary summary).isInherited = false := by
  cases summary <;> rfl

end Documentation

/-! ## Members -/

/-- A method is refused for its generic parameters or gets all of them. -/
theorem Method.yields_addGenerics (m : Method) (plain : m.generics = {}) (gs : List GenericEntry) :
    YieldsUnless (GenericEntry.Fault m.name gs) { m with generics := GenericEntry.toGenerics gs }
      (gs.foldlM (fun method g => method.addGeneric g.name g.toConstraints) m) := by
  refine GenericEntry.yields_foldlM (fun generics => { m with generics }) ?_ (fun _ _ => ?_) gs
  · rw [← plain]
  · rfl

/-- A method is refused for documenting a parameter while it inherits its documentation. -/
theorem Method.yields_documentParameters (m : Method) (entries : List (String × String)) :
    YieldsUnless
      (fun e => m.documentation.isInherited ∧ entries ≠ [] ∧ e = .inheritedDocumentation m.name)
      { m with documentation := entries.foldl .document m.documentation }
      (entries.foldlM (fun method (name, doc) => method.documentParameter name doc) m) := by
  refine Documentation.yields_foldlM (fun documentation => { m with documentation })
    (fun _ _ => ?_) entries m.documentation
  rfl

namespace FieldEntry

def Fault (f : FieldEntry) (e : Error) : Prop :=
  f.isConst ∧ f.value = none ∧ e = .invalidMember f.name "a const field needs a value"

def kind (f : FieldEntry) : PropertyKind :=
  if f.isConst then .constant else if f.isReadonly then .readonly else .field

def built (f : FieldEntry) : Property :=
  { Property.ofName f.name with
    type := some f.type
    kind := f.kind
    value := f.value.map .literal
    access := f.access
    isStatic := f.isStatic
    documentation := .ofSummary f.summary
    attributes := .ofTexts f.attributes }

/-- A constant field needs a value; other fields are never refused. -/
theorem yields_form (f : FieldEntry) :
    YieldsUnless f.Fault (f.kind, f.value.map .literal) f.form := by
  unfold form kind
  cases const : f.isConst with
  | false =>
    have none (e : Error) : ¬f.Fault e := by simp [Fault, const]
    cases f.isReadonly <;> cases f.value <;> exact yieldsUnless_ok none
  | true =>
    cases value : f.value with
    | none => exact yieldsUnless_error ⟨const, value, rfl⟩
    | some text =>
      have none (e : Error) : ¬f.Fault e := by simp [Fault, value]
      exact yieldsUnless_ok none

theorem yields_toProperty (f : FieldEntry) : YieldsUnless f.Fault f.built f.toProperty :=
  f.yields_form.thenOk fun form => { f.built with kind := form.1, value := form.2 }

end FieldEntry

namespace ParameterEntry

/-- The documented parameters among the entries, by the names that were given. -/
def documentation (ps : List ParameterEntry) : List (String × String) :=
  ps.filterMap documentation?

/-- Something is documented as soon as one parameter has both a name and a text. -/
theorem documentation_ne_nil {ps : List ParameterEntry} :
    documentation ps ≠ [] ↔ ∃ p ∈ ps, p.name.isSome ∧ p.doc.isSome := by
  have one (p : ParameterEntry) : p.documentation?.isSome ↔ p.name.isSome ∧ p.doc.isSome := by
    unfold documentation?
    cases p.name <;> cases p.doc <;> simp
  rw [documentation, ne_eq, List.filterMap_eq_nil_iff]
  simp only [not_forall, ← Option.isSome_iff_ne_none, one, exists_prop]

end ParameterEntry

namespace MethodEntry

def Fault (k : MethodEntry) (e : Error) : Prop :=
  GenericEntry.Fault (Text.trim k.name) k.generics e ∨
    k.inheritDoc ∧ ParameterEntry.documentation k.parameters ≠ [] ∧
      e = .inheritedDocumentation (Text.trim k.name)

def built (k : MethodEntry) : Method :=
  { k.plain with
    generics := GenericEntry.toGenerics k.generics
    documentation :=
      (ParameterEntry.documentation k.parameters).foldl .document k.plain.documentation }

theorem isInherited_plain (k : MethodEntry) : k.plain.documentation.isInherited = k.inheritDoc := by
  unfold plain
  dsimp only
  cases k.inheritDoc with
  | true => rfl
  | false => exact Documentation.isInherited_ofSummary k.summary

/-- A method has the faults of its generic parameters and of its documentation. -/
theorem yields_toMethod (k : MethodEntry) : YieldsUnless k.Fault k.built k.toMethod := by
  have generics := k.plain.yields_addGenerics rfl k.generics
  have entries := Method.yields_documentParameters
    { k.plain with generics := GenericEntry.toGenerics k.generics }
    (ParameterEntry.documentation k.parameters)
  rw [isInherited_plain] at entries
  exact generics.bind entries

end MethodEntry

namespace ConstructorEntry

/-- Why a constructor is refused, for the class with the name that was written. -/
def Fault (written : String) (k : ConstructorEntry) (e : Error) : Prop :=
  k.base.isSome ∧ k.this.isSome ∧
    e = .invalidMember written "a constructor calls either base or this, not both"

/-- The constructor of the class with the given name. -/
def built (className : String) (k : ConstructorEntry) : Constructor :=
  let plain : Constructor :=
    { className
      access := k.access
      parameters := ParameterEntry.toParameters k.parameters
      body := Script.ofBody k.body
      documentation := .ofSummary k.summary
      attributes := .ofTexts k.attributes }
  match k.base, k.this with
  | some pairs, _ => plain.forward .base (pairs.map (·.toPair))
  | none, some pairs => plain.forward .this (pairs.map (·.toPair))
  | none, none => plain

/-- A constructor is refused only for calling two other constructors. -/
theorem yields_toConstructor (k : ConstructorEntry) (c : Class) (written : String) :
    YieldsUnless (k.Fault written) (k.built c.name) (k.toConstructor c written) := by
  unfold toConstructor built
  cases base : k.base with
  | none =>
    have none (e : Error) : ¬k.Fault written e := by simp [Fault, base]
    cases k.this <;> exact yieldsUnless_ok none
  | some =>
    cases this : k.this with
    | none =>
      have none (e : Error) : ¬k.Fault written e := by simp [Fault, this]
      exact yieldsUnless_ok none
    | some => exact yieldsUnless_error (by simp [Fault, base, this])

end ConstructorEntry

/-! ## Types -/

theorem Class.yields_addGenerics (c : Class) (plain : c.generics = {}) (gs : List GenericEntry) :
    YieldsUnless (GenericEntry.Fault c.name gs) { c with generics := GenericEntry.toGenerics gs }
      (gs.foldlM (fun new g => new.addGeneric g.name g.toConstraints) c) := by
  obtain ⟨core, nested⟩ := c
  refine GenericEntry.yields_foldlM (fun generics => Class.mk { core with generics } nested) ?_
    (fun _ _ => ?_) gs
  · rw [← plain]
  · rfl

namespace ClassEntryCore

/-- Why the class without its nested classes is refused. -/
def Fault (c : ClassEntryCore) (e : Error) : Prop :=
  GenericEntry.Fault (Text.trim c.name) c.generics e ∨ (∃ f ∈ c.fields, f.Fault e) ∨
    (∃ k ∈ c.methods, k.Fault e) ∨ ∃ k ∈ c.constructors, k.Fault c.name e

/-- The class without its nested classes, made of an empty one. -/
def built (c : ClassEntryCore) (empty : Class) : Class :=
  { c.plain empty with
    generics := GenericEntry.toGenerics c.generics
    properties := c.fields.map FieldEntry.built ++ c.properties.map PropertyEntry.toProperty
    methods := c.methods.map MethodEntry.built
    constructors := c.constructors.map (ConstructorEntry.built empty.name)
    events := c.events.map EventEntry.toEvent }

theorem yields_toClass (c : ClassEntryCore) {empty : Class} (named : empty.name = Text.trim c.name)
    (plain : empty.generics = {}) : YieldsUnless c.Fault (c.built empty) (c.toClass empty) := by
  let generic : Class := { c.plain empty with generics := GenericEntry.toGenerics c.generics }
  have generics : YieldsUnless (GenericEntry.Fault (Text.trim c.name) c.generics) generic
      (c.generics.foldlM (fun new g => new.addGeneric g.name g.toConstraints) (c.plain empty)) := by
    rw [← named]
    exact (c.plain empty).yields_addGenerics plain c.generics
  have constructors : YieldsUnless (fun e => ∃ k ∈ c.constructors, k.Fault c.name e)
      (c.constructors.map (ConstructorEntry.built empty.name))
      (c.constructors.mapM (·.toConstructor generic c.name)) :=
    yieldsUnless_mapM fun k _ => k.yields_toConstructor generic c.name
  refine generics.bind ?_
  refine (yieldsUnless_mapM fun f _ => f.yields_toProperty).bind ?_
  refine (yieldsUnless_mapM fun k _ => k.yields_toMethod).bind ?_
  exact constructors.thenOk fun constructors => { c.built empty with constructors }

end ClassEntryCore

mutual

/-- The class and all classes inside it, each without its nested classes. -/
def ClassEntry.cores : ClassEntry → List ClassEntryCore
  | ⟨core, nested⟩ => core :: ClassEntry.allCores nested

def ClassEntry.allCores : List ClassEntry → List ClassEntryCore
  | [] => []
  | c :: rest => c.cores ++ ClassEntry.allCores rest

end

mutual

/-- The class of an entry, made of an empty one. -/
def ClassEntry.built : ClassEntry → Class → Class
  | ⟨core, nested⟩, empty =>
    { core.built empty with nested := ClassEntry.builtIn nested (core.built empty) }

/-- The classes nested in `outer`. -/
def ClassEntry.builtIn : List ClassEntry → Class → List Class
  | [], _ => []
  | c :: rest, outer => c.built (outer.child c.name) :: ClassEntry.builtIn rest outer

end

mutual

/-- The class and all classes inside it, each without its nested classes. -/
def Class.cores : Class → List ClassCore
  | ⟨core, nested⟩ => core :: Class.allCores nested

def Class.allCores : List Class → List ClassCore
  | [] => []
  | c :: rest => c.cores ++ Class.allCores rest

end

section Cores

variable {α : Type} {own : ClassCore → List α} {given : ClassEntryCore → List α}

mutual

/-- What every class has by its own entry, all classes have by all entries. -/
theorem ClassEntry.built_cores
    (same : ∀ (core : ClassEntryCore) (empty : Class), empty.name = Text.trim core.name →
      own (core.built empty).toClassCore = given core) :
    (c : ClassEntry) → {empty : Class} → empty.name = Text.trim c.name →
      (c.built empty).cores.flatMap own = c.cores.flatMap given
  | ⟨core, nested⟩, empty, named => by
    rw [ClassEntry.built, Class.cores, ClassEntry.cores, List.flatMap_cons, List.flatMap_cons,
      same core empty named, ClassEntry.builtIn_cores same nested]

theorem ClassEntry.builtIn_cores
    (same : ∀ (core : ClassEntryCore) (empty : Class), empty.name = Text.trim core.name →
      own (core.built empty).toClassCore = given core) :
    (cs : List ClassEntry) → (outer : Class) →
      (Class.allCores (ClassEntry.builtIn cs outer)).flatMap own =
        (ClassEntry.allCores cs).flatMap given
  | [], _ => rfl
  | c :: rest, outer => by
    have first : (c.built (outer.child c.name)).cores.flatMap own = c.cores.flatMap given :=
      ClassEntry.built_cores same c rfl
    rw [ClassEntry.builtIn, Class.allCores, ClassEntry.allCores, List.flatMap_append,
      List.flatMap_append, first, ClassEntry.builtIn_cores same rest]

end

end Cores

mutual

theorem ClassEntry.yields_toClass :
    (c : ClassEntry) → {empty : Class} → empty.name = Text.trim c.name → empty.generics = {} →
      YieldsUnless (fun e => ∃ core ∈ c.cores, core.Fault e) (c.built empty) (c.toClass empty)
  | ⟨core, nested⟩, empty, named, plain => by
    have inside := (ClassEntry.yields_toNested nested (core.built empty)).thenOk
      fun nested => { core.built empty with nested }
    rw [ClassEntry.built, ClassEntry.toClass, ClassEntry.cores]
    exact ((core.yields_toClass named plain).bind inside).congr fun e => by simp

theorem ClassEntry.yields_toNested : (cs : List ClassEntry) → (outer : Class) →
    YieldsUnless (fun e => ∃ core ∈ ClassEntry.allCores cs, core.Fault e)
      (ClassEntry.builtIn cs outer) (ClassEntry.toNested cs outer)
  | [], _ => yieldsUnless_ok (by simp [ClassEntry.allCores])
  | c :: rest, outer => by
    have first : YieldsUnless _ (c.built (outer.child c.name)) (c.toClass (outer.child c.name)) :=
      c.yields_toClass rfl rfl
    have others := (ClassEntry.yields_toNested rest outer).thenOk
      (c.built (outer.child c.name) :: ·)
    rw [ClassEntry.builtIn, ClassEntry.toNested, ClassEntry.allCores]
    exact (first.bind others).congr fun e => by simp [or_and_right, exists_or]

end

namespace RecordEntry

def Fault (r : RecordEntry) (e : Error) : Prop :=
  ∃ p ∈ r.properties, p.name = none ∧ e = .invalidMember r.name "record property needs a name"

def builtProperty (p : ParameterEntry) : RecordProperty :=
  { RecordProperty.make p.type (p.name.getD "") with default := p.default }

def built (r : RecordEntry) (empty : Record) : Record :=
  { empty with
    access := r.access
    style := r.style
    properties := r.properties.map builtProperty
    documentation := .ofSummary r.summary
    attributes := .ofTexts r.attributes }

/-- A record is refused when one of its properties has no name. -/
theorem yields_toRecord (r : RecordEntry) (empty : Record) :
    YieldsUnless r.Fault (r.built empty) (r.toRecord empty) := by
  have each (p : ParameterEntry) : YieldsUnless
      (fun e => p.name = none ∧ e = .invalidMember r.name "record property needs a name")
      (builtProperty p) (r.toProperty p) := by
    unfold toProperty builtProperty
    cases name : p.name with
    | none => exact yieldsUnless_error ⟨rfl, rfl⟩
    | some name => exact yieldsUnless_ok (by simp)
  exact (yieldsUnless_mapM fun p _ => each p).thenOk fun properties =>
    { r.built empty with properties }

end RecordEntry

theorem Delegate.yields_addGenerics (d : Delegate) (plain : d.generics = {})
    (gs : List GenericEntry) :
    YieldsUnless (GenericEntry.Fault d.name gs) { d with generics := GenericEntry.toGenerics gs }
      (gs.foldlM (fun new g => new.addGeneric g.name g.toConstraints) d) := by
  refine GenericEntry.yields_foldlM (fun generics => { d with generics }) ?_ (fun _ _ => ?_) gs
  · rw [← plain]
  · rfl

theorem Delegate.yields_documentParameters (d : Delegate) (entries : List (String × String)) :
    YieldsUnless
      (fun e => d.documentation.isInherited ∧ entries ≠ [] ∧ e = .inheritedDocumentation d.name)
      { d with documentation := entries.foldl .document d.documentation }
      (entries.foldlM (fun new (name, doc) => new.documentParameter name doc) d) := by
  refine Documentation.yields_foldlM (fun documentation => { d with documentation })
    (fun _ _ => ?_) entries d.documentation
  rfl

namespace DelegateEntry

/-- A delegate is refused for its generic parameters alone; it inherits no documentation. -/
def Fault (d : DelegateEntry) (e : Error) : Prop :=
  GenericEntry.Fault (Text.trim d.name) d.generics e

def built (d : DelegateEntry) : Delegate :=
  { d.plain with
    generics := GenericEntry.toGenerics d.generics
    documentation :=
      (ParameterEntry.documentation d.parameters).foldl .document d.plain.documentation }

theorem yields_toDelegate (d : DelegateEntry) : YieldsUnless d.Fault d.built d.toDelegate := by
  have generics := d.plain.yields_addGenerics rfl d.generics
  have entries := Delegate.yields_documentParameters
    { d.plain with generics := GenericEntry.toGenerics d.generics }
    (ParameterEntry.documentation d.parameters)
  have plain : d.plain.documentation.isInherited = false :=
    Documentation.isInherited_ofSummary d.summary
  exact (generics.bind entries).congr fun e =>
    or_iff_left fun inherits => Bool.eq_false_iff.mp plain inherits.1

end DelegateEntry

/-! ## Files -/

def TypeDeclaration.cores : TypeDeclaration → List ClassCore
  | .class c => c.cores
  | .enum _ | .record _ | .delegate _ => []

/-- All classes of the file, at any depth, each without its nested classes. -/
def File.cores (f : File) : List ClassCore := f.types.flatMap TypeDeclaration.cores

namespace Manifest

/-- All classes of the manifest, at any depth, each without its nested classes. -/
def cores (m : Manifest) : List ClassEntryCore := ClassEntry.allCores m.classes

/-- Why the manifest is refused. -/
def Fault (m : Manifest) (e : Error) : Prop :=
  (∃ c ∈ m.cores, c.Fault e) ∨ (∃ r ∈ m.records, r.Fault e) ∨ ∃ d ∈ m.delegates, d.Fault e

def builtTypes (m : Manifest) (file : File) : List TypeDeclaration :=
  (m.classes.map fun c => c.built (file.newClass c.name)).map .class ++
    (m.enums.map fun e => e.toEnum (file.newEnum e.name)).map .enum ++
    (m.records.map fun r => r.built (file.newRecord r.name)).map .record ++
    (m.delegates.map DelegateEntry.built).map .delegate

/-- The file that the manifest describes where it is not refused. -/
def built (m : Manifest) (indent : Option Indent) : Draft where
  file := { m.emptyFile indent with types := m.builtTypes (m.emptyFile indent) }
  preamble := ({} : Preamble).registerAll m.registrations

theorem allCores_eq (cs : List ClassEntry) : ClassEntry.allCores cs = cs.flatMap (·.cores) := by
  induction cs with
  | nil => rfl
  | cons c rest ih => rw [ClassEntry.allCores, List.flatMap_cons, ih]

/-- The types of a manifest have the faults of its classes, records and delegates; enums have none.
-/
theorem yields_types (m : Manifest) (file : File) :
    YieldsUnless m.Fault (m.builtTypes file) (m.types file) := by
  have classes : YieldsUnless (fun e => ∃ c ∈ m.cores, c.Fault e)
      (m.classes.map fun c => c.built (file.newClass c.name))
      (m.classes.mapM fun c => c.toClass (file.newClass c.name)) :=
    (yieldsUnless_mapM fun c _ => ClassEntry.yields_toClass c rfl rfl).congr fun e => by
      simp only [cores, allCores_eq, List.mem_flatMap]
      exact ⟨fun ⟨c, member, core, inside, h⟩ => ⟨core, ⟨c, member, inside⟩, h⟩,
        fun ⟨core, ⟨c, member, inside⟩, h⟩ => ⟨c, member, core, inside, h⟩⟩
  refine classes.bind ?_
  refine (yieldsUnless_mapM fun (r : RecordEntry) _ => r.yields_toRecord _).bind ?_
  exact (yieldsUnless_mapM fun (d : DelegateEntry) _ => d.yields_toDelegate).thenOk _

/-- The file of a manifest is built of the declarations of its entries, unless one of the entries
has a fault. -/
theorem yields_toDraft (m : Manifest) (indent : Option Indent) :
    YieldsUnless m.Fault (m.built indent) (m.toDraft indent) :=
  (m.yields_types (m.emptyFile indent)).thenOk fun types =>
    { m.built indent with file := { m.emptyFile indent with types } }

/-- All classes of the file of a manifest, at any depth. -/
theorem built_cores {α : Type} {own : ClassCore → List α} {given : ClassEntryCore → List α}
    (same : ∀ (core : ClassEntryCore) (empty : Class), empty.name = Text.trim core.name →
      own (core.built empty).toClassCore = given core) (m : Manifest) (indent : Option Indent) :
    (m.built indent).file.cores.flatMap own = m.cores.flatMap given := by
  have each (file : File) (c : ClassEntry) : (c.built (file.newClass c.name)).cores.flatMap own =
      c.cores.flatMap given := ClassEntry.built_cores same c rfl
  simp [File.cores, TypeDeclaration.cores, built, builtTypes, cores, allCores_eq,
    List.flatMap_append, List.flatMap_map, List.flatMap_assoc, each]

end Manifest

end CSharpGen

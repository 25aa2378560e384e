import CSharpGen.Proofs.File.ClassTexts
import CSharpGen.Proofs.Manifest.Indentation

/-!
# The order of properties

A class takes the order of its properties from its entry, or from the nearest entry around it that
says something, or from the options of the manifest. By that order each group of its properties is
sorted by name or left as it was declared, and so it stands in the file
(`Manifest.properties_in_order`).
-/

namespace CSharpGen

open Text (Within)

/-! ## Groups of properties -/

/-- How a group of properties is written: by name, those of one name as they were declared, or all
of them as they were declared. -/
def Property.Arranged (sorted : Bool) (declared written : List Property) : Prop :=
  if sorted then StableSort (fun p q => decide (p.name ≤ q.name)) declared written
  else written = declared

/-- Every group of properties is arranged. -/
structure ClassCore.Arranged (sorted : Bool) (c : ClassCore) : Prop where
  instanceConstants : Property.Arranged sorted
    (c.properties.filter fun p => p.kind == .constant && !p.isStatic) c.instanceConstants
  staticConstants : Property.Arranged sorted
    (c.properties.filter fun p => p.kind == .constant && p.isStatic) c.staticConstants
  others : ∀ kind, Property.Arranged sorted
    (c.properties.filter (·.kind == kind)) (c.propertiesOf kind)

/-- A class that was given a sorting keeps every group in its order. -/
theorem ClassCore.arranged {c : ClassCore} {sorted : Bool} (order : c.order = .ofSorting sorted) :
    c.Arranged sorted := by
  cases sorted with
  | false =>
    have same : c.sortedProperties = c.properties := by
      rw [sortedProperties, order]
      rfl
    refine ⟨?_, ?_, fun kind => ?_⟩
    · exact c.instanceConstants_eq.trans (by rw [same])
    · exact c.staticConstants_eq.trans (by rw [same])
    · exact congrArg (List.filter (·.kind == kind)) same
  | true =>
    have byName : c.order.le = fun p q => decide (p.name ≤ q.name) := by
      rw [order]
      rfl
    obtain ⟨-, instanceConstants, staticConstants, others, -⟩ := c.sorted
    rw [byName] at instanceConstants staticConstants others
    exact ⟨instanceConstants, staticConstants, others⟩

/-! ## Entries and the classes built of them -/

/-- The entries on the way to the class at a path, its own entry first. -/
def ClassEntry.chain? (c : ClassEntry) : List Nat → Option (List ClassEntryCore)
  | [] => some [c.toClassEntryCore]
  | i :: path => c.nested[i]?.bind fun inner => (inner.chain? path).map (· ++ [c.toClassEntryCore])

/-- What the first of several entries says that says something. -/
def ClassEntryCore.sorting (default : Bool) (chain : List ClassEntryCore) : Bool :=
  (chain.findSome? (·.sortProperties)).getD default

/-- The outermost class hands its setting down as the default of the others. -/
theorem ClassEntryCore.sorting_concat (default : Bool) (chain : List ClassEntryCore)
    (outer : ClassEntryCore) :
    sorting default (chain ++ [outer]) = sorting (outer.sortProperties.getD default) chain := by
  rw [sorting, List.findSome?_append, sorting]
  cases chain.findSome? (·.sortProperties) with
  | some sorted => rfl
  | none =>
    cases said : outer.sortProperties with
    | none => simp [said]
    | some sorted => simp [said]

/-- A built class has the setting of its entry, or else the one that it was given. -/
theorem ClassEntryCore.order_built (c : ClassEntryCore) {empty : Class} {default : Bool}
    (order : empty.order = .ofSorting default) :
    (c.built empty).order = .ofSorting (c.sortProperties.getD default) := by
  have own : (c.built empty).order = c.sortProperties.elim empty.order .ofSorting := rfl
  rw [own, order]
  cases c.sortProperties <;> rfl

theorem ClassEntry.builtIn_eq (cs : List ClassEntry) (outer : Class) :
    builtIn cs outer = cs.map fun c => c.built (outer.child c.name) := by
  induction cs with
  | nil => rfl
  | cons c rest ih => rw [builtIn, ih, List.map_cons]

/-- The properties of an entry: first the fields, then the properties. -/
def ClassEntryCore.declared (c : ClassEntryCore) : List Property :=
  c.fields.map FieldEntry.built ++ c.properties.map PropertyEntry.toProperty

/-- The class at a path is built of the entry there, and its order comes down to it. -/
theorem ClassEntry.at_built {c : ClassEntry} {path : List Nat} {chain : List ClassEntryCore}
    (found : c.chain? path = some chain) {empty : Class} {default : Bool}
    (order : empty.order = .ofSorting default) :
    ∃ own new, chain.head? = some own ∧ (c.built empty).at? path = some new ∧
      new.properties = own.declared ∧
      new.order = .ofSorting (ClassEntryCore.sorting default chain) := by
  induction path generalizing c empty default chain with
  | nil =>
    obtain ⟨core, nested⟩ := c
    cases found
    refine ⟨core, _, rfl, rfl, rfl, (core.order_built order).trans ?_⟩
    rw [← List.nil_append [core], ClassEntryCore.sorting_concat]
    rfl
  | cons i path ih =>
    obtain ⟨core, nested⟩ := c
    obtain ⟨inner, isInner, found⟩ := Option.bind_eq_some_iff.mp found
    obtain ⟨below, isBelow, rfl⟩ := Option.map_eq_some_iff.mp found
    -- a nested class starts with the order that the class around it has by then
    have handed : ((core.built empty).child inner.name).order =
        .ofSorting (core.sortProperties.getD default) := core.order_built order
    obtain ⟨own, new, isOwn, isNew, properties, arranged⟩ := ih isBelow handed
    have place : (built ⟨core, nested⟩ empty).nested[i]? =
        some (inner.built ((core.built empty).child inner.name)) := by
      rw [built, builtIn_eq, List.getElem?_map, isInner]
      rfl
    refine ⟨own, new, by rw [List.head?_append, isOwn, Option.some_or], ?_, properties, ?_⟩
    · rw [Class.at?, place]
      exact isNew
    · rw [ClassEntryCore.sorting_concat]
      exact arranged

/-! ## Files -/

namespace Manifest

/-- The entries on the way to the class at a path, its own entry first. The path starts with the
place of a class. -/
def chain? (m : Manifest) : List Nat → Option (List ClassEntryCore)
  | [] => none
  | i :: path => m.classes[i]?.bind (·.chain? path)

/-- A path through the entries leads to the class built of the last one, with the nearest setting on
the way. -/
theorem class?_built {m : Manifest} {path : List Nat} {chain : List ClassEntryCore}
    (found : m.chain? path = some chain) (indent : Option Indent) :
    ∃ own new, chain.head? = some own ∧ (m.built indent).file.class? path = some new ∧
      new.properties = own.declared ∧
      new.order = .ofSorting (ClassEntryCore.sorting m.options.sortProperties chain) := by
  cases path with
  | nil => cases found
  | cons i path =>
    obtain ⟨c, isClass, found⟩ := Option.bind_eq_some_iff.mp found
    have options : (m.emptyFile indent).options = m.optionsWith indent :=
      congrArg File.options (m.emptyFile_eq indent)
    have order : ((m.emptyFile indent).newClass c.name).order =
        .ofSorting m.options.sortProperties := by
      rw [File.newClass, options]
      rfl
    obtain ⟨own, new, isOwn, isNew, properties, arranged⟩ := ClassEntry.at_built found order
    have bound : i < m.classes.length := (List.getElem?_eq_some_iff.mp isClass).1
    have place : (m.built indent).file.types[i]? =
        some (.class (c.built ((m.emptyFile indent).newClass c.name))) := by
      have types : (m.built indent).file.types = m.builtTypes (m.emptyFile indent) := rfl
      rw [types, builtTypes, List.append_assoc, List.append_assoc,
        List.getElem?_append_left (by simpa using bound), List.getElem?_map, List.getElem?_map,
        isClass]
      rfl
    refine ⟨own, new, isOwn, ?_, properties, arranged⟩
    rw [File.class?, place]
    exact isNew

/-- The class of a manifest at any depth writes each group of its properties by name or as it was
declared, with the fields first. Which of the two holds is said by its own entry, or by the nearest
entry around it that says something, or by the options. Where the file can be written, the text of
the class stands in it, and holds the texts of its members in this order. -/
theorem properties_in_order {m : Manifest} {indent : Option Indent} {d : Draft}
    (ok : m.toDraft indent = .ok d) (path : List Nat) {own : ClassEntryCore}
    {around : List ClassEntryCore} (found : m.chain? path = some (own :: around)) :
    ∃ new, d.file.class? path = some new ∧
      new.properties =
        own.fields.map FieldEntry.built ++ own.properties.map PropertyEntry.toProperty ∧
      new.Arranged (((own :: around).findSome? (·.sortProperties)).getD m.options.sortProperties) ∧
      ∀ text, d.build = .ok text → ∃ script level written, new.script = .ok script ∧
        Within (script.textAt d.file.options.indent level) text ∧
        new.members.mapM Member.script = .ok (written.map (·.2)) ∧
        script.textAt d.file.options.indent level = new.textAround d.file.options.indent level
          (Script.eachText d.file.options.indent (level + 1) written) := by
  obtain rfl : d = m.built indent := (m.yields_toDraft indent).eq_of_ok ok
  obtain ⟨_, new, isOwn, isNew, properties, order⟩ := class?_built found indent
  obtain rfl := Option.some.inj isOwn
  refine ⟨new, isNew, properties, ClassCore.arranged order, fun text built => ?_⟩
  obtain ⟨draws, script, level, okScript, inside⟩ :=
    File.within_build (m.draws_types indent) built isNew
  obtain ⟨written, members, texts⟩ := Class.exists_textAround draws okScript
  exact ⟨script, level, written, okScript, inside, members, texts _ level⟩

/-- A class that is not sorted, a class in it that says nothing, and a sorted one in that. -/
def museum : Manifest where
  classes := [{
    name := "Museum"
    sortProperties := some false
    nested := [{
      name := "Hall"
      properties := [{ name := "Title", type := "string" }, { name := "Number", type := "int" }]
      fields := [{ name := "width", type := "int" }, { name := "height", type := "int" }]
      nested := [{
        name := "Case"
        sortProperties := some true
        fields := [{ name := "shelf", type := "int" }, { name := "glass", type := "int" }] }] }] }]

theorem properties_in_order_museum : ∃ d text hall showcase, museum.toDraft none = .ok d ∧
    d.build = .ok text ∧ museum.options.sortProperties = true ∧
    d.file.class? [0, 0] = some hall ∧
    (hall.propertiesOf .field).map (·.name) = ["width", "height"] ∧
    (hall.propertiesOf .property).map (·.name) = ["Title", "Number"] ∧
    d.file.class? [0, 0, 0] = some showcase ∧
    (showcase.propertiesOf .field).map (·.name) = ["glass", "shelf"] ∧
    ∃ script level, showcase.script = .ok script ∧
      Within (script.textAt d.file.options.indent level) text := by
  obtain ⟨d, ok⟩ : ∃ d, museum.toDraft none = .ok d := ⟨_, rfl⟩
  obtain ⟨text, built⟩ : ∃ text, d.build = .ok text := by
    obtain rfl : d = museum.built none := (museum.yields_toDraft none).eq_of_ok ok
    have complete : ∀ p ∈ (museum.built none).file.allProperties,
        p.kind ≠ .constant ∧ ¬p.lacksType := by decide +kernel
    exact File.exists_build (fun p member isConstant => absurd isConstant (complete p member).1)
      (fun p member => (complete p member).2) _
  obtain ⟨hall, isHall, inHall, ⟨-, -, declared⟩, -⟩ :=
    properties_in_order ok [0, 0] rfl
  obtain ⟨showcase, isCase, inCase, ⟨-, -, sorted⟩, texts⟩ :=
    properties_in_order ok [0, 0, 0] rfl
  obtain ⟨script, level, -, okScript, inside, -⟩ := texts text built
  refine ⟨d, text, hall, showcase, ok, built, rfl, isHall, ?_, ?_, isCase, ?_, script, level,
    okScript, inside⟩
  · have same : hall.propertiesOf .field = hall.properties.filter _ := declared .field
    rw [same, inHall]
    decide +kernel
  · have same : hall.propertiesOf .property = hall.properties.filter _ := declared .property
    rw [same, inHall]
    decide +kernel
  · have fields : StableSort _ (showcase.properties.filter _) _ := sorted .field
    rw [inCase] at fields
    have names := fields.perm.map Property.name
    have ordered : ((showcase.propertiesOf .field).map Property.name).Pairwise (· ≤ ·) :=
      List.pairwise_map.mpr (fields.ordered.imp of_decide_eq_true)
    have swapped : ["glass", "shelf"].Perm ["shelf", "glass"] := .swap ..
    exact (names.trans swapped.symm).eq_of_pairwise (fun _ _ _ _ => String.le_antisymm) ordered
      (by decide)

end Manifest

end CSharpGen

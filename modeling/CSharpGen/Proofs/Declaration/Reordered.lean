import CSharpGen.Proofs.Declaration.Members
import CSharpGen.Proofs.Text.Ascending

/-!
# Classes in another order

A class sorts its attributes, its interfaces, its constructors, its methods and, unless it keeps
them as they were added, its properties. When no two members have the same key, the order in which
they were added does not show (`Class.write_reordered`).
-/

namespace CSharpGen

/-- The order sorts properties by a key. -/
inductive PropertyOrder.SortsBy : PropertyOrder → (Property → String) → Prop
  | byName : SortsBy .byName Property.name
  | byKey (key : Property → String) : SortsBy (.byKey key) key

namespace ClassCore

/-- The number of parameters that a constructor is sorted by. -/
def constructorKey (k : Constructor) : Nat := k.parameters.length

/-- The name and the number of parameters that a method is sorted by. -/
def methodKey (m : Method) : String × Nat := (m.name, m.parameters.length)

/-- No two members of a sorted group have the same key. -/
structure DistinctKeys (c : ClassCore) : Prop where
  properties : ∃ key, c.order.SortsBy key ∧ (c.properties.map key).Nodup
  constructors : (c.constructors.map constructorKey).Nodup
  methods : (c.methods.map methodKey).Nodup

/-- The same class, configured in another order. What encloses it may differ as well. -/
structure Reordered (c d : ClassCore) : Prop where
  attributes : c.attributes.bodies.items.Perm d.attributes.bodies.items
  /-- Repeated and blank interfaces do not count. -/
  interfaces : ∀ type,
    type ∈ c.interfaces.filterMap Text.nonBlank? ↔ type ∈ d.interfaces.filterMap Text.nonBlank?
  properties : c.properties.Perm d.properties
  constructors : c.constructors.Perm d.constructors
  methods : c.methods.Perm d.methods
  others : d = { c with
    parent := d.parent
    attributes := d.attributes
    interfaces := d.interfaces
    properties := d.properties
    constructors := d.constructors
    methods := d.methods }

variable {c d : ClassCore}

/-! ## Sorted members -/

theorem Reordered.order_eq (h : c.Reordered d) : d.order = c.order := by rw [h.others]

/-- Properties of which no two have the same key are sorted in one way. -/
theorem Reordered.sortedProperties_eq (h : c.Reordered d) (distinct : c.DistinctKeys) :
    c.sortedProperties = d.sortedProperties := by
  obtain ⟨key, sorts, keys⟩ := distinct.properties
  have keyed : ∀ p q, c.order.le p q → c.order.le q p → key p = key q := by
    intro p q before after
    cases order : c.order with
    | insertion =>
      rw [order] at sorts
      cases sorts
    | byName | byKey =>
      rw [order] at sorts before after
      cases sorts
      exact String.le_antisymm (of_decide_eq_true before) (of_decide_eq_true after)
  have sorted := c.order.stableSort_sort c.properties
  have alsoSorted := c.order.stableSort_sort d.properties
  rw [sortedProperties, sortedProperties, h.order_eq]
  exact sorted.eq_of_perm alsoSorted h.properties keyed keys

/-- Constructors are sorted in one way when no two have the same number of parameters. -/
theorem Reordered.sortedConstructors_eq (h : c.Reordered d) (distinct : c.DistinctKeys) :
    c.sortedConstructors = d.sortedConstructors := by
  refine c.stableSort_sortedConstructors.eq_of_perm d.stableSort_sortedConstructors h.constructors
    (fun a b before after => ?_) distinct.constructors
  unfold constructorLe at before after
  exact Nat.le_antisymm (of_decide_eq_true before) (of_decide_eq_true after)

/-- Methods are sorted in one way when no two have the same name and number of parameters. -/
theorem Reordered.sortedMethods_eq (h : c.Reordered d) (distinct : c.DistinctKeys) :
    c.sortedMethods = d.sortedMethods := by
  refine c.stableSort_sortedMethods.eq_of_perm d.stableSort_sortedMethods h.methods
    (fun a b before after => ?_) distinct.methods
  rw [methodLe_iff] at before after
  rcases before with less | ⟨same, fewer⟩
  · rcases after with more | ⟨same, -⟩
    · exact absurd (String.lt_trans less more) (String.lt_irrefl a.name)
    · exact absurd (same ▸ less) (String.lt_irrefl a.name)
  · rcases after with more | ⟨-, alsoFewer⟩
    · exact absurd (same ▸ more) (String.lt_irrefl a.name)
    · exact Prod.ext same (Nat.le_antisymm fewer alsoFewer)

/-! ## The declaration -/

/-- One abstract method makes the class abstract wherever it stands. -/
theorem Reordered.isWrittenAbstract_eq (h : c.Reordered d) :
    c.isWrittenAbstract = d.isWrittenAbstract := by
  have any : c.methods.any (·.isAbstract) = d.methods.any (·.isAbstract) := h.methods.any_eq
  rw [isWrittenAbstract, isWrittenAbstract, any, h.others]

theorem Reordered.inherited_eq (h : c.Reordered d) : c.inherited = d.inherited := by
  have base : d.base = c.base := by rw [h.others]
  rw [inherited, inherited, base, Text.ascending_congr h.interfaces]

/-- The line that opens the class does not depend on the order of its members. -/
theorem Reordered.declaration_eq (h : c.Reordered d) : c.declaration = d.declaration := by
  simp only [declaration, h.isWrittenAbstract_eq, h.inherited_eq]
  rw [h.others]

theorem Reordered.attributes_eq (h : c.Reordered d) :
    c.attributes.sortedLines = d.attributes.sortedLines := by
  have same := Text.ascending_congr fun _ => h.attributes.mem_iff
  rw [Attributes.sortedLines, Attributes.sortedLines, same]

/-- Whether the class can be written, and what is written, does not depend on the order of its
members. -/
theorem Reordered.scriptWith_eq (h : c.Reordered d) (distinct : c.DistinctKeys)
    (nested : Except Error (List Script)) : c.scriptWith nested = d.scriptWith nested := by
  have properties := h.sortedProperties_eq distinct
  have constructors := h.sortedConstructors_eq distinct
  have methods := h.sortedMethods_eq distinct
  simp only [scriptWith, instanceConstants, staticConstants, propertiesOf, properties, constructors,
    methods, h.declaration_eq, h.attributes_eq]
  rw [h.others]

end ClassCore

/-- Classes that differ in the order of their members alone are written alike into the same writer,
or refused for the same reason. -/
theorem Class.write_reordered {c d : Class} (same : c.toClassCore.Reordered d.toClassCore)
    (nested : c.nested = d.nested) (distinct : c.toClassCore.DistinctKeys) (w : Writer) :
    c.script.map (Script.write · w) = d.script.map (Script.write · w) := by
  obtain ⟨core, inner⟩ := c
  obtain ⟨core', inner'⟩ := d
  obtain rfl : inner = inner' := nested
  have scripts := same.scriptWith_eq distinct (Class.scripts inner)
  rw [Class.script, Class.script, scripts]

namespace Class

/-- A class with two attributes, two interfaces and two members of every sorted group. -/
def kiln : Class where
  name := "Kiln"
  isPartial := true
  interfaces := ["IHeated", "IVessel"]
  attributes := Attributes.add {} "[Serializable][Obsolete]"
  properties := [
    { name := "Heat", type := some "int", auto := some .getOnly },
    { name := "Clay", type := some "string", kind := .field }]
  constructors := [
    { className := "Kiln" },
    { className := "Kiln", parameters := [{ type := "int", name := "heat" }] }]
  methods := [{ name := "Fire" }, { name := "Cool", isAbstract := true }]

/-- The kiln configured in the opposite order, with one interface given twice and a blank one. -/
def rearrangedKiln : Class :=
  { kiln with
    interfaces := ["IVessel", "IHeated", " ", "IVessel"]
    attributes := Attributes.add {} "[Obsolete][Serializable]"
    properties := kiln.properties.reverse
    constructors := kiln.constructors.reverse
    methods := kiln.methods.reverse }

theorem kiln_reordered : kiln.toClassCore.Reordered rearrangedKiln.toClassCore where
  attributes := by
    have here : kiln.attributes.bodies.items = ["Serializable", "Obsolete"] := by decide
    have there : rearrangedKiln.attributes.bodies.items = ["Obsolete", "Serializable"] := by decide
    rw [here, there]
    exact .swap _ _ _
  interfaces type := by
    have here : kiln.interfaces.filterMap Text.nonBlank? = ["IHeated", "IVessel"] := by decide
    have there : rearrangedKiln.interfaces.filterMap Text.nonBlank? =
        ["IVessel", "IHeated", "IVessel"] := by decide
    rw [here, there]
    simp only [List.mem_cons, List.not_mem_nil, or_false]
    tauto
  properties := (List.reverse_perm kiln.properties).symm
  constructors := (List.reverse_perm kiln.constructors).symm
  methods := (List.reverse_perm kiln.methods).symm
  others := rfl

theorem kiln_distinctKeys : kiln.toClassCore.DistinctKeys where
  properties := ⟨Property.name, .byName, by decide⟩
  constructors := by decide
  methods := by decide

theorem write_reordered_kiln :
    kiln.toClassCore.Reordered rearrangedKiln.toClassCore ∧ kiln.toClassCore.DistinctKeys ∧
    kiln.script.map (Script.write · (.empty .tabs)) =
      rearrangedKiln.script.map (Script.write · (.empty .tabs)) :=
  ⟨kiln_reordered, kiln_distinctKeys,
    write_reordered kiln_reordered rfl kiln_distinctKeys (.empty .tabs)⟩

end Class

end CSharpGen

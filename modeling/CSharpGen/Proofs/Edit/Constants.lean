import CSharpGen.Edit.File
import CSharpGen.Proofs.Declaration.MissingType

/-!
# What edits build

No edit makes a constant without a value, however the kind and the value of a property change. So
every class of every file that edits lead to has values for its constants, and building the file is
refused for missing types alone (`Draft.build_refused_iff`).
-/

namespace CSharpGen

/-- Edits one after another keep what each of them keeps. -/
theorem Edited.each_keeps {α ε : Type} {P : α → Prop} {perform : α → ε → Edited Reply α}
    (step : ∀ value edit, P value → P (perform value edit).value) {value : α} (h : P value)
    (edits : List ε) : P (Edited.each perform value edits).value := by
  induction edits generalizing value with
  | nil => exact h
  | cons edit rest ih => exact ih (step value edit h)

/-- What no edit changes is the same after several of them. -/
theorem Edited.each_same {α ε κ : Type} {key : α → κ} {perform : α → ε → Edited Reply α}
    (same : ∀ a edit, key (perform a edit).value = key a) (a : α) (edits : List ε) :
    key (Edited.each perform a edits).value = key a :=
  each_keeps (P := fun new => key new = key a) (fun new edit h => (same new edit).trans h) rfl edits

/-- What a part of a declaration does not change is the same when the part is refused. -/
theorem Edited.attempt_same {α β κ : Type} (key : α → κ) {old : α} {part : Except Error β}
    {put : β → α} (same : ∀ b, key (put b) = key old) :
    key (attempt old (part >>= fun b => pure (put b))).value = key old := by
  cases part with
  | error => rfl
  | ok b => exact same b

/-! ## Properties -/

namespace Property

/-- Only an edit that gives a value makes a constant. -/
theorem valued_perform (p : Property) (edit : PropertyEdit) (h : p.Valued) :
    (p.perform edit).value.Valued := by
  cases edit with
  | constant | readonly | field | getter | setter => simp [Valued, perform, Edited.done]
  | _ => simpa [Valued, perform, Edited.done, Edited.registering] using h

theorem valued_ofName (name : String) : (ofName name).Valued := by
  simp [Valued, ofName]

/-- A property that starts as one of a name and is edited keeps a value while it is a constant. -/
theorem valued_performAll {p : Property} (h : p.Valued) (edits : List PropertyEdit) :
    (p.performAll edits).value.Valued := Edited.each_keeps valued_perform h edits

end Property

/-! ## Classes -/

namespace Class

/-- The constants of a class and of all classes inside it have values. -/
def Valued (c : Class) : Prop := ∀ p ∈ c.allProperties, p.Valued

theorem valued_iff {c : Class} : c.Valued ↔
    (∀ p ∈ c.properties, p.Valued) ∧ ∀ inner ∈ c.nested, inner.Valued := by
  cases c with
  | mk core nested =>
    simp only [Valued, allProperties, collect, collectAll_eq, List.mem_append, List.mem_flatMap]
    constructor
    · intro h
      exact ⟨fun p own => h p (.inl own), fun inner member p inside =>
        h p (.inr ⟨inner, member, inside⟩)⟩
    · rintro ⟨own, below⟩ p (here | ⟨inner, member, inside⟩)
      · exact own p here
      · exact below inner member p inside

theorem valued_of_empty {c : Class} (properties : c.properties = []) (nested : c.nested = []) :
    c.Valued := by
  rw [valued_iff, properties, nested]
  simp

/-- A class whose constants have values keeps them when a property with its value is added. -/
theorem valued_addProperty {c : Class} (h : c.Valued) {p : Property} (valued : p.Valued) :
    (c.addProperty p).Valued := by
  obtain ⟨own, below⟩ := valued_iff.mp h
  refine valued_iff.mpr ⟨fun q member => ?_, below⟩
  rcases List.mem_append.mp member with old | new
  · exact own q old
  · rwa [List.mem_singleton.mp new]

theorem valued_addClass {c inner : Class} (h : c.Valued) (valued : inner.Valued) :
    (c.addClass inner).Valued := by
  obtain ⟨own, below⟩ := valued_iff.mp h
  refine valued_iff.mpr ⟨own, fun other member => ?_⟩
  rcases List.mem_append.mp member with old | new
  · exact below other old
  · rwa [List.mem_singleton.mp new]

theorem valued_addGeneric {c new : Class} (h : c.Valued) {name : String}
    {constraints : List Constraint} (ok : c.addGeneric name constraints = .ok new) :
    new.Valued := by
  unfold addGeneric at ok
  cases added : c.generics.add c.name name constraints with
  | error error =>
    rw [added] at ok
    cases ok
  | ok generics =>
    rw [added] at ok
    cases ok
    obtain ⟨own, below⟩ := valued_iff.mp h
    exact valued_iff.mpr ⟨own, below⟩

/-- A backing field is no constant. -/
theorem valued_performBacking {c : Class} (h : c.Valued) (property : String)
    (edits : List PropertyEdit) : (c.performBacking property edits).value.Valued := by
  unfold performBacking
  cases backing : c.backingField? property with
  | none => exact h
  | some field =>
    have valued : field.Valued := by
      unfold backingField? at backing
      split at backing
      · cases backing
      · obtain ⟨p, -, rfl⟩ := Option.map_eq_some_iff.mp backing
        simp [Property.Valued]
    exact valued_addProperty h (Property.valued_performAll valued edits)

mutual

theorem valued_perform : (edit : ClassEdit) → {c : Class} → c.Valued →
    (Class.perform edit c).value.Valued
  | .addProperty name edits, c, h =>
    valued_addProperty h (Property.valued_performAll (Property.valued_ofName name) edits)
  | .addBackingField property edits, c, h => valued_performBacking h property edits
  | .addClass name edits, c, h =>
    valued_addClass h (valued_performAll edits (valued_of_empty rfl rfl))
  | .generic name constraints, c, h => by
    unfold Class.perform Edited.attempt
    split
    · next new ok => exact valued_addGeneric h ok
    · exact h
  | .kind _, c, h | .access _, c, h | .makeStatic, c, h | .makeSealed, c, h
  | .makeAbstract, c, h | .partial _, c, h | .base _, c, h | .addInterfaces _, c, h
  | .attribute _, c, h | .summary _, c, h | .inheritDocumentation _, c, h
  | .importNamespace _, c, h | .assemblyAttribute _, c, h | .order _, c, h
  | .addMethod _ _, c, h | .addConstructor _, c, h | .addEvent _ _, c, h
  | .addExplicitEvent _ _ _ _, c, h | .addDelegate _ _, c, h | .look, c, h => by
    have fields := valued_iff.mp h
    rw [valued_iff]
    simpa [Class.perform, Edited.done, Edited.registering, Edited.into, addMethod,
      addConstructor, addEvent, addDelegate] using fields

theorem valued_performAll : (edits : List ClassEdit) → {c : Class} → c.Valued →
    (Class.performAll edits c).value.Valued
  | [], _, h => h
  | edit :: rest, _, h => valued_performAll rest (valued_perform edit h)

end

end Class

/-! ## Files -/

namespace File

/-- The constants of all classes of a file have values. -/
def Valued (f : File) : Prop := ∀ p ∈ f.allProperties, p.Valued

theorem valued_congr {f new : File} (h : f.Valued) (types : new.types = f.types) :
    new.Valued := by
  unfold Valued allProperties
  rwa [types]

theorem valued_add {f : File} (h : f.Valued) {t : TypeDeclaration}
    (valued : ∀ p ∈ t.collect (·.properties), p.Valued) : (f.add t).Valued := by
  intro p member
  rw [allProperties, add, List.flatMap_append, List.mem_append, List.flatMap_singleton] at member
  rcases member with old | new
  · exact h p old
  · exact valued p new

theorem disableWarning_types (f : File) (code : String) :
    (f.disableWarning code).types = f.types := by
  unfold disableWarning
  split <;> rfl

end File

mutual

/-- No edit of a file leaves a constant without a value. -/
theorem FileEdit.valued_perform : (edit : FileEdit) → {d : Draft} → d.file.Valued →
    (FileEdit.perform edit d).1.file.Valued
  | .importNamespaces _, _, h | .assemblyAttribute _, _, h | .copy _, _, h | .look, _, h => by
    simpa [FileEdit.perform, Draft.register] using h
  | .disableWarning code, d, h => File.valued_congr h (d.file.disableWarning_types code)
  | .options _, _, h => File.valued_congr h rfl
  | .addClass _ edits, _, h =>
    File.valued_add h (Class.valued_performAll edits (Class.valued_of_empty rfl rfl))
  | .addEnum _ _, _, h | .addRecord _ _, _, h | .addDelegate _ _, _, h =>
    File.valued_add h fun _ none => nomatch none

theorem FileEdit.valued_performAll : (edits : List FileEdit) → {d : Draft} → d.file.Valued →
    (FileEdit.performAll edits d).1.file.Valued
  | [], _, h => h
  | edit :: rest, _, h => FileEdit.valued_performAll rest (FileEdit.valued_perform edit h)

end

namespace Draft

/-- Whatever edits a file comes from, building it is refused when a property of some class, at any
depth, lacks its type, and only then. The error names the first such property in the order of
writing; a constant never lacks its value. -/
theorem build_refused_iff (name : String) (edits : List FileEdit) :
    let d := (FileEdit.performAll edits (.ofNamespace name)).1
    ((∃ error, d.build = .error error) ↔ ∃ p ∈ d.file.allProperties, p.lacksType) ∧
      (∀ error, d.build = .error error →
        ∃ p, d.file.writtenProperties.find? Property.lacksType = some p ∧
          error = .missingField p.name "type") ∧
      ∀ constant, d.build ≠ .error (.missingField constant "value") := by
  intro d
  have valued : d.file.Valued :=
    FileEdit.valued_performAll edits fun p member => nomatch member
  have refused := d.file.refusedFor_build valued d.preamble
  refine ⟨?_, fun error => refused.error_eq, fun constant value => ?_⟩
  · rw [build, refused.error_iff]
    simp only [File.mem_writtenProperties]
  · obtain ⟨p, -, same⟩ := refused.error_eq value
    injection same with _ field
    exact absurd field (by decide)

/-- A class whose property has a type, around one whose constants have none. -/
def untypedEdits : List FileEdit := [
  .addClass "Shop" [
    .order .insertion,
    .addClass "Limits" [
      .addProperty "Least" [.constant .null, .makeStatic],
      .addProperty "Most" [.type " ", .constant .default]],
    .addProperty "Name" [.type "string", .auto .getOnly]]]

theorem build_refused_iff_untyped :
    (FileEdit.performAll untypedEdits (.ofNamespace "Sample")).1.build =
      .error (.missingField "Most" "type") := by
  obtain ⟨refused, first, -⟩ := build_refused_iff "Sample" untypedEdits
  have untyped : ∃ p ∈ (FileEdit.performAll untypedEdits
      (.ofNamespace "Sample")).1.file.allProperties, p.lacksType := by decide
  obtain ⟨error, eq⟩ := refused.mpr untyped
  obtain ⟨p, found, rfl⟩ := first error eq
  have name : (((FileEdit.performAll untypedEdits
      (.ofNamespace "Sample")).1.file.writtenProperties.find?
        Property.lacksType).map Property.name) = some "Most" := by decide
  rw [found] at name
  rw [eq, Option.some_inj.mp name]

end Draft

end CSharpGen

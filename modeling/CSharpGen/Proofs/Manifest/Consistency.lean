import CSharpGen.Proofs.Declaration.MissingType
import CSharpGen.Proofs.Manifest.Built
import CSharpGen.Proofs.Text.OneLine

/-!
# Consistent manifests

A manifest gives a file exactly where it is consistent, and the text of the file exactly where its
fields and properties have types, too. What is refused is refused for a condition that is violated
(`Manifest.ok_iff_consistent`).
-/

namespace CSharpGen

/-! ## Conditions -/

namespace Manifest

/-- The generic parameters of every declaration that can have some. -/
def genericLists (m : Manifest) : List (List GenericEntry) :=
  m.cores.flatMap (fun c => c.generics :: c.methods.map (·.generics)) ++
    m.delegates.map (·.generics)

structure Consistent (m : Manifest) : Prop where
  generics : ∀ gs ∈ m.genericLists, GenericEntry.Distinct gs
  constants : ∀ c ∈ m.cores, ∀ f ∈ c.fields, f.isConst → f.value.isSome
  initializers : ∀ c ∈ m.cores, ∀ k ∈ c.constructors, ¬(k.base.isSome ∧ k.this.isSome)
  documentation : ∀ c ∈ m.cores, ∀ k ∈ c.methods, k.inheritDoc →
    ∀ p ∈ k.parameters, ¬(p.name.isSome ∧ p.doc.isSome)
  recordProperties : ∀ r ∈ m.records, ∀ p ∈ r.properties, p.name.isSome

/-- The fields and properties of all classes have types. -/
def Typed (m : Manifest) : Prop :=
  ∀ c ∈ m.cores, (∀ f ∈ c.fields, ¬Text.isBlankText f.type) ∧
    ∀ p ∈ c.properties, ¬Text.isBlankText p.type

/-- Why a manifest without faults gives no text. -/
def TypeFault (m : Manifest) (e : Error) : Prop :=
  ∃ c ∈ m.cores,
    (∃ f ∈ c.fields, Text.isBlankText f.type ∧ e = .missingField (Text.trim f.name) "type") ∨
      ∃ p ∈ c.properties, Text.isBlankText p.type ∧ e = .missingField (Text.trim p.name) "type"

end Manifest

/-! ## Faults of the parts -/

/-- A fault with one error is absent when its condition is. -/
theorem forall_not_and_eq {condition : Prop} {error : Error} :
    (∀ e, ¬(condition ∧ e = error)) ↔ ¬condition :=
  ⟨fun none holds => none error ⟨holds, rfl⟩, fun absent _ fault => absent fault.1⟩

/-- A field has no fault exactly when it is not constant or has a value. -/
theorem FieldEntry.forall_not_fault_iff {f : FieldEntry} :
    (∀ e, ¬f.Fault e) ↔ (f.isConst → f.value.isSome) := by
  simp only [Fault, ← and_assoc, forall_not_and_eq]
  simp [Option.isSome_iff_ne_none]

theorem ConstructorEntry.forall_not_fault_iff {k : ConstructorEntry} {written : String} :
    (∀ e, ¬k.Fault written e) ↔ ¬(k.base.isSome ∧ k.this.isSome) := by
  simp only [Fault, ← and_assoc, forall_not_and_eq]

/-- A method has no fault exactly when its generic parameters are distinct and it does not both
inherit its documentation and document a parameter. -/
theorem MethodEntry.forall_not_fault_iff {k : MethodEntry} :
    (∀ e, ¬k.Fault e) ↔ GenericEntry.Distinct k.generics ∧
      (k.inheritDoc → ∀ p ∈ k.parameters, ¬(p.name.isSome ∧ p.doc.isSome)) := by
  simp only [Fault, not_or, forall_and, GenericEntry.forall_not_fault_iff, ← and_assoc,
    forall_not_and_eq, ParameterEntry.documentation_ne_nil]
  simp [and_assoc]

theorem RecordEntry.forall_not_fault_iff {r : RecordEntry} :
    (∀ e, ¬r.Fault e) ↔ ∀ p ∈ r.properties, p.name.isSome := by
  constructor
  · intro none p member
    rw [Option.isSome_iff_ne_none]
    exact fun nameless => none _ ⟨p, member, nameless, rfl⟩
  · rintro named e ⟨p, member, nameless, -⟩
    simpa [nameless] using named p member

/-- A list has no fault exactly when none of its items has one. -/
theorem forall_not_exists_mem {α : Type} {items : List α} {fault : α → Error → Prop} :
    (∀ e, ¬∃ item ∈ items, fault item e) ↔ ∀ item ∈ items, ∀ e, ¬fault item e := by
  constructor
  · exact fun none item member e h => none e ⟨item, member, h⟩
  · rintro none e ⟨item, member, h⟩
    exact none item member e h

theorem ClassEntryCore.forall_not_fault_iff {c : ClassEntryCore} : (∀ e, ¬c.Fault e) ↔
    GenericEntry.Distinct c.generics ∧ (∀ f ∈ c.fields, f.isConst → f.value.isSome) ∧
      (∀ k ∈ c.methods, GenericEntry.Distinct k.generics ∧
        (k.inheritDoc → ∀ p ∈ k.parameters, ¬(p.name.isSome ∧ p.doc.isSome))) ∧
      ∀ k ∈ c.constructors, ¬(k.base.isSome ∧ k.this.isSome) := by
  simp only [Fault, not_or, forall_and, forall_not_exists_mem, GenericEntry.forall_not_fault_iff,
    FieldEntry.forall_not_fault_iff, MethodEntry.forall_not_fault_iff,
    ConstructorEntry.forall_not_fault_iff]

theorem Manifest.mem_genericLists {m : Manifest} {gs : List GenericEntry} : gs ∈ m.genericLists ↔
    (∃ c ∈ m.cores, gs = c.generics ∨ ∃ k ∈ c.methods, k.generics = gs) ∨
      ∃ d ∈ m.delegates, d.generics = gs := by
  simp [genericLists]

/-- A manifest has no fault exactly when it is consistent. -/
theorem Manifest.forall_not_fault_iff {m : Manifest} : (∀ e, ¬m.Fault e) ↔ m.Consistent := by
  simp only [Fault, not_or, forall_and, forall_not_exists_mem, DelegateEntry.Fault,
    ClassEntryCore.forall_not_fault_iff, RecordEntry.forall_not_fault_iff,
    GenericEntry.forall_not_fault_iff]
  constructor
  · rintro ⟨⟨own, constants, ⟨methods, documentation⟩, initializers⟩, records, delegates⟩
    refine ⟨fun gs member => ?_, constants, initializers, documentation, records⟩
    rcases mem_genericLists.mp member with ⟨c, inside, rfl | ⟨k, method, rfl⟩⟩ | ⟨d, inside, rfl⟩
    · exact own c inside
    · exact methods c inside k method
    · exact delegates d inside
  · intro consistent
    have distinct {gs : List GenericEntry} (listed) :=
      consistent.generics gs (mem_genericLists.mpr listed)
    refine ⟨⟨fun c member => distinct (.inl ⟨c, member, .inl rfl⟩), consistent.constants,
      ⟨fun c member k method => ?_, consistent.documentation⟩, consistent.initializers⟩,
      consistent.recordProperties, fun d member => distinct (.inr ⟨d, member, rfl⟩)⟩
    exact distinct (.inl ⟨c, member, .inr ⟨k, method, rfl⟩⟩)

/-! ## Types -/

/-- The properties of a class: its fields, then its properties. -/
def ClassEntryCore.builtProperties (c : ClassEntryCore) : List Property :=
  c.fields.map FieldEntry.built ++ c.properties.map PropertyEntry.toProperty

mutual

theorem Class.collect_eq (own : ClassCore → List Property) :
    (c : Class) → c.collect own = c.cores.flatMap own
  | ⟨core, nested⟩ => by
    rw [collect, cores, List.flatMap_cons, Class.collectAll_eq_cores own nested]

theorem Class.collectAll_eq_cores (own : ClassCore → List Property) :
    (cs : List Class) → Class.collectAll own cs = (Class.allCores cs).flatMap own
  | [] => rfl
  | c :: rest => by
    rw [collectAll, allCores, List.flatMap_append, Class.collect_eq own c,
      Class.collectAll_eq_cores own rest]

end

/-- The properties of a file are those of its classes at any depth. -/
theorem File.allProperties_eq (f : File) : f.allProperties = f.cores.flatMap (·.properties) := by
  have each (t : TypeDeclaration) :
      t.collect (·.properties) = t.cores.flatMap (·.properties) := by
    cases t with
    | «class» c => exact c.collect_eq _
    | enum | record | delegate => rfl
  rw [allProperties, cores, List.flatMap_assoc, funext each]

namespace Manifest

/-- The properties of a built file are those that the entries of the manifest give, fields included.
-/
theorem built_allProperties (m : Manifest) (indent : Option Indent) :
    (m.built indent).file.allProperties = m.cores.flatMap (·.builtProperties) := by
  rw [File.allProperties_eq]
  exact built_cores (fun _ _ _ => rfl) m indent

theorem lacksType_iff_isBlankText {p : Property} {type : String} (given : p.type = some type) :
    p.lacksType ↔ Text.isBlankText type := by
  rw [Text.isBlankText_iff]
  simp [Property.lacksType, given]

/-- The properties that the file has come from the fields and properties of the manifest. -/
theorem forall_built_iff (m : Manifest) (indent : Option Indent) {P : Property → Prop} :
    (∀ p ∈ (m.built indent).file.allProperties, P p) ↔ ∀ c ∈ m.cores,
      (∀ f ∈ c.fields, P f.built) ∧ ∀ p ∈ c.properties, P p.toProperty := by
  rw [built_allProperties]
  simp only [ClassEntryCore.builtProperties, List.forall_mem_flatMap, List.forall_mem_append,
    List.forall_mem_map]

/-- The entries have types exactly when the built properties have. -/
theorem typed_iff (m : Manifest) (indent : Option Indent) :
    m.Typed ↔ ∀ p ∈ (m.built indent).file.allProperties, ¬p.lacksType := by
  have field (f : FieldEntry) : f.built.lacksType ↔ Text.isBlankText f.type :=
    lacksType_iff_isBlankText rfl
  have property (p : PropertyEntry) : p.toProperty.lacksType ↔ Text.isBlankText p.type :=
    lacksType_iff_isBlankText rfl
  simp only [forall_built_iff, Typed, field, property]

/-- A built property without a type is the fault of its entry. -/
theorem typeFault_of_lacksType (m : Manifest) (indent : Option Indent) :
    ∀ p ∈ (m.built indent).file.allProperties, p.lacksType →
      m.TypeFault (.missingField p.name "type") := by
  rw [forall_built_iff]
  refine fun c inside => ⟨fun f declared lacks => ?_, fun p declared lacks => ?_⟩
  · exact ⟨c, inside, .inl ⟨f, declared, (lacksType_iff_isBlankText rfl).mp lacks, rfl⟩⟩
  · exact ⟨c, inside, .inr ⟨p, declared, (lacksType_iff_isBlankText rfl).mp lacks, rfl⟩⟩

/-- In a consistent manifest every built constant has its value. -/
theorem built_valued {m : Manifest} (consistent : m.Consistent) (indent : Option Indent) :
    ∀ p ∈ (m.built indent).file.allProperties, p.Valued := by
  rw [forall_built_iff]
  refine fun c inside => ⟨fun f declared constant => ?_, fun p _ constant => by cases constant⟩
  have const : f.isConst := by
    by_contra other
    have kind : f.kind = .constant := constant
    rw [FieldEntry.kind, if_neg other] at kind
    split at kind <;> cases kind
  simpa [FieldEntry.built] using consistent.constants c inside f declared const

/-- The file of a consistent manifest is refused for missing types alone. -/
theorem build_of_consistent {m : Manifest} (consistent : m.Consistent) (indent : Option Indent) :
    ((∃ text, (m.built indent).build = .ok text) ↔ m.Typed) ∧
      ∀ e, (m.built indent).build = .error e → m.TypeFault e := by
  have refused := (m.built indent).file.refusedFor_build (built_valued consistent indent)
    (m.built indent).preamble
  constructor
  · rw [m.typed_iff indent]
    constructor
    · rintro ⟨text, ok⟩ p member lacks
      obtain ⟨e, error⟩ := refused.error_iff.mpr ⟨p, File.mem_writtenProperties.mpr member, lacks⟩
      cases ok.symm.trans error
    · exact fun typed => File.exists_build (built_valued consistent indent) typed _
  · intro e error
    obtain ⟨p, found, rfl⟩ := refused.error_eq error
    exact m.typeFault_of_lacksType indent p
      (File.mem_writtenProperties.mp (List.mem_of_find?_eq_some found)) (List.find?_some found)

/-- A manifest gives a file exactly where it is consistent, and the text of that file exactly where
its fields and properties have types, too. Otherwise the error is that of a violated condition. -/
theorem ok_iff_consistent (m : Manifest) (indent : Option Indent) :
    ((∃ d, m.toDraft indent = .ok d) ↔ m.Consistent) ∧
      ((∃ text, m.render indent = .ok text) ↔ m.Consistent ∧ m.Typed) ∧
      (∀ e, m.toDraft indent = .error e → m.Fault e) ∧
      ∀ e, m.render indent = .error e → m.Fault e ∨ m.TypeFault e := by
  have draft := m.yields_toDraft indent
  have accepted : (∃ d, m.toDraft indent = .ok d) ↔ m.Consistent :=
    draft.ok_iff.trans forall_not_fault_iff
  refine ⟨accepted, ?_⟩
  rcases draft with ⟨ok, none⟩ | ⟨fault, refused, found⟩
  · have consistent := forall_not_fault_iff.mp none
    obtain ⟨builds, untyped⟩ := build_of_consistent consistent indent
    have rendered : m.render indent = (m.built indent).build := by
      rw [render, ok]
      rfl
    rw [rendered, ok]
    exact ⟨builds.trans (and_iff_right consistent).symm, fun e error => (nomatch error),
      fun e error => .inr (untyped e error)⟩
  · have inconsistent : ¬m.Consistent := fun consistent =>
      forall_not_fault_iff.mpr consistent fault found
    have rendered : m.render indent = .error fault := by
      rw [render, refused]
      rfl
    rw [rendered, refused]
    refine ⟨⟨fun ⟨text, ok⟩ => (nomatch ok), fun h => absurd h.1 inconsistent⟩, ?_, ?_⟩
    · rintro e ⟨⟩
      exact found
    · rintro e ⟨⟩
      exact .inl found

/-- A class with a nested one, in which a method that inherits its documentation documents a
parameter. -/
def inheritingManifest : Manifest where
  classes := [{
    name := "Shop"
    nested := [{
      name := "Till"
      methods := [{
        name := " Open "
        inheritDoc := true
        parameters := [{ type := "int", name := some "code", doc := some "The code." }] }] }] }]

theorem ok_iff_consistent_inheriting :
    inheritingManifest.toDraft none = .error (.inheritedDocumentation "Open") ∧
      ¬inheritingManifest.Consistent ∧
      inheritingManifest.Fault (.inheritedDocumentation "Open") := by
  obtain ⟨accepted, -, fault, -⟩ := inheritingManifest.ok_iff_consistent none
  have refused : inheritingManifest.toDraft none = .error (.inheritedDocumentation "Open") := by
    rfl
  refine ⟨refused, fun consistent => ?_, fault _ refused⟩
  obtain ⟨d, ok⟩ := accepted.mpr consistent
  rw [refused] at ok
  cases ok

end Manifest

end CSharpGen

import CSharpGen.File.Basic

/-!
# Missing types

A declaration is refused for the first property without a type, in the order in which properties are
written. Where every constant has a value, nothing else is refused (`File.refusedFor_build`).
-/

namespace CSharpGen

namespace Property

/-- No type was given, or one that is made of blanks only. -/
def lacksType (p : Property) : Bool := p.type.all fun type => type.toList.all Text.isBlank

/-- A constant has a value. -/
def Valued (p : Property) : Prop := p.kind = .constant → p.value.isSome

end Property

/-- The result is refused for the first of the properties that lacks its type, and not otherwise. -/
def RefusedFor {α : Type} (ps : List Property) (result : Except Error α) : Prop :=
  match ps.find? Property.lacksType with
  | none => ∃ value, result = .ok value
  | some p => result = .error (.missingField p.name "type")

/-! ## Properties in the order in which they are written -/

/-- The properties of a class in the order of its groups, without those of nested classes. -/
def ClassCore.writtenProperties (c : ClassCore) : List Property :=
  c.instanceConstants ++ c.staticConstants ++ c.propertiesOf .readonly ++
    c.propertiesOf .field ++ c.propertiesOf .property

mutual

/-- The properties that `own` gives for a class, then those of the classes nested in it. -/
def Class.collect (own : ClassCore → List Property) : Class → List Property
  | ⟨core, nested⟩ => own core ++ Class.collectAll own nested

def Class.collectAll (own : ClassCore → List Property) : List Class → List Property
  | [] => []
  | c :: rest => c.collect own ++ Class.collectAll own rest

end

/-- The properties of a class and of all classes inside it. -/
def Class.allProperties : Class → List Property := Class.collect (·.properties)

def TypeDeclaration.collect (own : ClassCore → List Property) : TypeDeclaration → List Property
  | .class c => c.collect own
  | .enum _ | .record _ | .delegate _ => []

namespace File

/-- The properties of all classes of a file, at any depth. -/
def allProperties (f : File) : List Property :=
  f.types.flatMap (TypeDeclaration.collect (·.properties))

/-- The same properties in the order in which the file writes them. -/
def writtenProperties (f : File) : List Property :=
  f.types.flatMap (TypeDeclaration.collect (·.writtenProperties))

end File

/-! ## Every property is written once it has a group -/

theorem PropertyOrder.mem_sort {order : PropertyOrder} {ps : List Property} {p : Property} :
    p ∈ order.sort ps ↔ p ∈ ps := by
  cases order <;> simp [sort, Text.stableSort]

/-- Every property of a class is in one of the groups, and nothing else is. -/
theorem ClassCore.mem_writtenProperties {c : ClassCore} {p : Property} :
    p ∈ c.writtenProperties ↔ p ∈ c.properties := by
  simp only [writtenProperties, instanceConstants, staticConstants, propertiesOf,
    sortedProperties, List.mem_append, List.mem_filter, PropertyOrder.mem_sort]
  cases p.kind <;> cases p.isStatic <;> simp

theorem Class.collectAll_eq (own : ClassCore → List Property) (cs : List Class) :
    Class.collectAll own cs = cs.flatMap (Class.collect own) := by
  induction cs with
  | nil => rfl
  | cons c rest ih => rw [collectAll, List.flatMap_cons, ih]

mutual

theorem Class.mem_collect {own other : ClassCore → List Property} {p : Property}
    (same : ∀ core, p ∈ own core ↔ p ∈ other core) :
    (c : Class) → (p ∈ c.collect own ↔ p ∈ c.collect other)
  | ⟨core, nested⟩ => by
    rw [collect, collect, List.mem_append, List.mem_append, same core,
      Class.mem_collectAll same nested]

theorem Class.mem_collectAll {own other : ClassCore → List Property} {p : Property}
    (same : ∀ core, p ∈ own core ↔ p ∈ other core) :
    (cs : List Class) → (p ∈ Class.collectAll own cs ↔ p ∈ Class.collectAll other cs)
  | [] => Iff.rfl
  | c :: rest => by
    rw [collectAll, collectAll, List.mem_append, List.mem_append, Class.mem_collect same c,
      Class.mem_collectAll same rest]

end

/-- The properties in the order of writing are those of the file. -/
theorem File.mem_writtenProperties {f : File} {p : Property} :
    p ∈ f.writtenProperties ↔ p ∈ f.allProperties := by
  have each (t : TypeDeclaration) : p ∈ t.collect (·.writtenProperties) ↔
      p ∈ t.collect (·.properties) := by
    cases t with
    | «class» c => exact c.mem_collect fun _ => ClassCore.mem_writtenProperties
    | enum | record | delegate => exact Iff.rfl
  simp only [writtenProperties, allProperties, List.mem_flatMap, each]

/-! ## Refusals one after the other -/

section Refusals

variable {α β : Type} {ps qs : List Property} {result : Except Error α}

theorem refusedFor_ok (value : α) : RefusedFor [] (.ok value) := ⟨value, rfl⟩

/-- Of two steps the later one is not reached when the first is refused. -/
theorem refusedFor_bind {next : α → Except Error β} (first : RefusedFor ps result)
    (later : ∀ value, RefusedFor qs (next value)) : RefusedFor (ps ++ qs) (result >>= next) := by
  unfold RefusedFor at first ⊢
  rw [List.find?_append]
  cases found : ps.find? Property.lacksType with
  | none =>
    rw [found] at first
    obtain ⟨value, rfl⟩ := first
    exact later value
  | some p =>
    rw [found] at first
    rw [first]
    rfl

theorem refusedFor_map (f : α → β) (h : RefusedFor ps result) :
    RefusedFor ps (result.map f) := by
  unfold RefusedFor at h ⊢
  split at h
  · obtain ⟨value, rfl⟩ := h
    exact ⟨f value, rfl⟩
  · rw [h]
    rfl

/-- A list is refused for the first property of its first refused item. -/
theorem refusedFor_mapM {items : List α} {own : α → List Property} {f : α → Except Error β}
    (each : ∀ item ∈ items, RefusedFor (own item) (f item)) :
    RefusedFor (items.flatMap own) (items.mapM f) := by
  induction items with
  | nil => exact refusedFor_ok []
  | cons item rest ih =>
    have others := ih fun other member => each other (List.mem_cons_of_mem item member)
    rw [List.flatMap_cons, List.mapM_cons]
    refine refusedFor_bind (each item List.mem_cons_self) fun value => ?_
    exact refusedFor_map (value :: ·) others

/-- Some of the properties lacks its type when the result is refused. -/
theorem RefusedFor.error_iff (h : RefusedFor ps result) :
    (∃ error, result = .error error) ↔ ∃ p ∈ ps, p.lacksType := by
  unfold RefusedFor at h
  split at h
  · next none =>
    obtain ⟨value, rfl⟩ := h
    have typed := List.find?_eq_none.mp none
    constructor
    · rintro ⟨error, refused⟩
      cases refused
    · rintro ⟨p, member, lacks⟩
      exact absurd lacks (typed p member)
  · next p found =>
    exact ⟨fun _ => ⟨p, List.mem_of_find?_eq_some found, List.find?_some found⟩, fun _ => ⟨_, h⟩⟩

/-- The error names the first of the properties that lacks its type. -/
theorem RefusedFor.error_eq (h : RefusedFor ps result) {error : Error}
    (refused : result = .error error) :
    ∃ p, ps.find? Property.lacksType = some p ∧ error = .missingField p.name "type" := by
  subst refused
  unfold RefusedFor at h
  split at h
  · obtain ⟨value, ok⟩ := h
    cases ok
  · next p found =>
    cases h
    exact ⟨p, found, rfl⟩

end Refusals

/-! ## Declarations -/

namespace Property

theorem lacksType_iff {p : Property} : p.lacksType ↔ p.type.bind Text.nonBlank? = none := by
  cases type : p.type with
  | none => simp [lacksType, type]
  | some text => simp [lacksType, type, Text.nonBlank?_eq_none_iff]

/-- With a value for each constant, a property can be written unless it lacks its type. -/
theorem kindScript_ok {p : Property} (valued : p.Valued) (declaration : String) :
    ∃ script, p.kindScript declaration = .ok script := by
  unfold kindScript fieldScript
  cases kind : p.kind with
  | property => exact ⟨_, rfl⟩
  | constant =>
    obtain ⟨value, some⟩ := Option.isSome_iff_exists.mp (valued kind)
    rw [some]
    exact ⟨_, rfl⟩
  | readonly | field => cases p.value <;> exact ⟨_, rfl⟩

/-- A property with its value can only lack its type. -/
theorem refusedFor_script {p : Property} (valued : p.Valued) : RefusedFor [p] p.script := by
  unfold RefusedFor script
  cases type : p.type.bind Text.nonBlank? with
  | none =>
    have lacks := lacksType_iff.mpr type
    simp [lacks]
  | some text =>
    have typed : ¬ p.lacksType := by
      rw [lacksType_iff, type]
      exact Option.some_ne_none text
    obtain ⟨script, ok⟩ := kindScript_ok valued (p.declaration text)
    simp [typed, ok, Except.map]

theorem refusedFor_scripts {ps : List Property} (valued : ∀ p ∈ ps, p.Valued) :
    RefusedFor ps (ps.mapM script) := by
  have each : ∀ p ∈ ps, RefusedFor [p] p.script := fun p member => refusedFor_script (valued p member)
  have all := refusedFor_mapM each
  rwa [List.flatMap_singleton'] at all

end Property

/-- A class looks at its own properties, group after group, before its nested classes. -/
theorem ClassCore.refusedFor_scriptWith {c : ClassCore} {ps : List Property}
    {nested : Except Error (List Script)} (valued : ∀ p ∈ c.properties, p.Valued)
    (later : RefusedFor ps nested) :
    RefusedFor (c.writtenProperties ++ ps) (c.scriptWith nested) := by
  have group {qs : List Property} (within : ∀ p ∈ qs, p ∈ c.writtenProperties) :
      RefusedFor qs (qs.mapM Property.script) :=
    Property.refusedFor_scripts fun p member => valued p (mem_writtenProperties.mp (within p member))
  have groups : c.writtenProperties ++ ps =
      c.instanceConstants ++ (c.staticConstants ++ (c.propertiesOf .readonly ++
        (c.propertiesOf .field ++ (c.propertiesOf .property ++ (ps ++ []))))) := by
    simp [writtenProperties, List.append_assoc]
  rw [groups]
  unfold scriptWith
  refine refusedFor_bind (group ?_) fun _ => refusedFor_bind (group ?_) fun _ =>
    refusedFor_bind (group ?_) fun _ => refusedFor_bind (group ?_) fun _ =>
    refusedFor_bind (group ?_) fun _ => refusedFor_bind later fun _ => refusedFor_ok _
  all_goals
    intro p member
    simp [writtenProperties, member]

mutual

/-- The order of writing goes into nested classes at any depth. -/
theorem Class.refusedFor_script :
    (c : Class) → (∀ p ∈ c.allProperties, p.Valued) →
      RefusedFor (c.collect (·.writtenProperties)) c.script
  | ⟨core, nested⟩, valued => by
    have all : ∀ p ∈ core.properties ++ Class.collectAll (·.properties) nested, p.Valued := valued
    rw [collect, script]
    exact core.refusedFor_scriptWith
      (fun p member => all p (List.mem_append_left _ member))
      (Class.refusedFor_scripts nested fun p member => all p (List.mem_append_right _ member))

theorem Class.refusedFor_scripts :
    (cs : List Class) → (∀ p ∈ Class.collectAll (·.properties) cs, p.Valued) →
      RefusedFor (Class.collectAll (·.writtenProperties) cs) (Class.scripts cs)
  | [], _ => refusedFor_ok []
  | c :: rest, valued => by
    have all : ∀ p ∈ c.allProperties ++ Class.collectAll (·.properties) rest, p.Valued := valued
    rw [collectAll, scripts]
    refine refusedFor_bind
      (Class.refusedFor_script c fun p member => all p (List.mem_append_left _ member)) fun script => ?_
    exact refusedFor_map (script :: ·)
      (Class.refusedFor_scripts rest fun p member => all p (List.mem_append_right _ member))

end

/-- A file whose constants have values is refused for the first property that lacks its type, and
not otherwise. -/
theorem File.refusedFor_build {f : File} (valued : ∀ p ∈ f.allProperties, p.Valued)
    (preamble : Preamble) : RefusedFor f.writtenProperties (f.build preamble) := by
  have types : RefusedFor f.writtenProperties (f.types.mapM TypeDeclaration.script) := by
    refine refusedFor_mapM fun t member => ?_
    cases t with
    | «class» c =>
      exact c.refusedFor_script fun p inside => valued p (List.mem_flatMap.mpr ⟨_, member, inside⟩)
    | enum | record | delegate => exact refusedFor_ok _
  have script : RefusedFor (f.writtenProperties ++ []) (f.script preamble) :=
    refusedFor_bind types fun _ => refusedFor_ok _
  rw [List.append_nil] at script
  exact refusedFor_map _ script

/-- A file in which nothing is missing builds. -/
theorem File.exists_build {f : File} (valued : ∀ p ∈ f.allProperties, p.Valued)
    (typed : ∀ p ∈ f.allProperties, ¬p.lacksType) (preamble : Preamble) :
    ∃ text, f.build preamble = .ok text := by
  cases result : f.build preamble with
  | error e =>
    obtain ⟨p, member, lacks⟩ := (f.refusedFor_build valued preamble).error_iff.mp ⟨e, result⟩
    exact absurd lacks (typed p (File.mem_writtenProperties.mp member))
  | ok text => exact ⟨text, rfl⟩

end CSharpGen

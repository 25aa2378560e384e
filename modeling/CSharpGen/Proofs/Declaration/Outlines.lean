import CSharpGen.Proofs.Declaration.Members
import CSharpGen.Proofs.Declaration.Wording
import CSharpGen.Proofs.Script.Outline

/-!
# Declarations as outlines

Every declaration draws an outline when its bodies do, whatever its texts are. So the indentation of
a file can be chosen without looking at what is declared (`File.draws`).
-/

namespace CSharpGen

open Script (draws_nil draws_line draws_lines draws_newLine)

/-- Bodies draw outlines. Of texts nothing is asked. -/
def Wording.Draws : Wording → Prop
  | .text _ | .passage _ | .label _ => True
  | .body steps => steps.Draws

/-- Only the bodies among the wordings are scripts, so the others may say anything. -/
theorem Wording.draws_of_bodies {ws : List Wording}
    (all : ∀ steps, .body steps ∈ ws → steps.Draws) : ∀ w ∈ ws, w.Draws := by
  intro w member
  cases w with
  | body steps => exact all steps member
  | _ => trivial

/-! ## Parts of declarations -/

namespace Declaration

theorem draws_warning (text : Option String) : (warning text).Draws := by
  cases text with
  | none => exact draws_nil
  | some text => exact draws_line _

/-- The lines above a declaration. -/
theorem draws_head (documentation attributes : List String) (text : Option String) :
    (Step.lines documentation ++ warning text ++ Step.lines attributes).Draws :=
  ((draws_lines documentation).append (draws_warning text)).append (draws_lines attributes)

/-- A line, further lines one level deeper, and a last one among them. -/
theorem draws_continued (head last : String) (lines : List String) :
    Script.Draws (.line head :: .op .increaseIndent ::
      (Step.lines lines ++ [.line last, .op .decreaseIndent])) := by
  have script := (draws_line head).append (draws_lines (lines ++ [last])).indented
  simpa [Step.lines] using script

/-- A declaration without a body draws, whatever its texts are. -/
theorem draws_terminated (declaration : String) (clauses : List String) :
    (terminated declaration clauses).Draws := by
  unfold terminated
  split
  · exact draws_line _
  · exact draws_continued _ _ _

theorem draws_body {body : Option Script} (h : ∀ w ∈ body.toList.map Wording.body, w.Draws) :
    Script.Draws (body.toList.map .isolated) := by
  cases body with
  | none => exact draws_nil
  | some steps =>
    have own : (Wording.body steps).Draws := List.forall_mem_singleton.mp h
    exact Script.Draws.isolated own

end Declaration

namespace Accessor

/-- What can be written of a property draws when the bodies of its accessors do. -/
theorem draws {a : Accessor} (h : ∀ w ∈ a.wording, w.Draws) (keyword : String) :
    (a.script keyword).Draws := by
  cases a with
  | expression text => exact draws_line _
  | body steps =>
    have own : (Wording.body steps).Draws := List.forall_mem_singleton.mp h
    exact (Script.Draws.isolated own).block keyword []

/-- An accessor that may be missing. -/
theorem draws_option {a : Option Accessor}
    (h : ∀ w ∈ a.toList.flatMap Accessor.wording, w.Draws) (keyword : String) :
    Script.Draws (a.elim [] (·.script keyword)) := by
  cases a with
  | none => exact draws_nil
  | some a => exact a.draws (by simpa using h) keyword

end Accessor

/-! ## Members of classes -/

namespace Property

theorem draws_initialized (declaration : String) (value : Value) :
    (initialized declaration value).Draws := by
  unfold initialized
  split
  · exact Declaration.draws_continued _ _ _
  · exact draws_line _

variable {p : Property}

/-- Accessors draw when their bodies do. -/
theorem draws_accessorScript (getter : ∀ w ∈ p.getter.toList.flatMap Accessor.wording, w.Draws)
    (setter : ∀ w ∈ p.setter.toList.flatMap Accessor.wording, w.Draws) (declaration : String) :
    (p.accessorScript declaration).Draws := by
  unfold accessorScript
  split
  · exact draws_line _
  · split
    · exact draws_line _
    · exact draws_line _
    · exact ((Accessor.draws_option getter "get").append
        (Accessor.draws_option setter "set")).block declaration []

theorem draws_fieldScript {declaration : String} {body : Script}
    (ok : p.fieldScript declaration = .ok body) : body.Draws := by
  unfold fieldScript at ok
  split at ok
  · cases ok
    exact draws_initialized _ _
  · cases ok
  · cases ok
    exact draws_line _

theorem draws {script : Script} (h : ∀ w ∈ p.wording, w.Draws) (ok : p.script = .ok script) :
    script.Draws := by
  simp only [wording, List.forall_mem_append, List.forall_mem_cons, and_assoc] at h
  obtain ⟨-, -, -, getter, setter, -⟩ := h
  unfold Property.script at ok
  split at ok
  · cases ok
  · next type _ =>
    cases kind : p.kindScript (p.declaration type) with
    | error e =>
      rw [kind] at ok
      cases ok
    | ok body =>
      rw [kind] at ok
      cases ok
      have below : body.Draws := by
        unfold kindScript at kind
        split at kind
        · cases kind
          exact draws_accessorScript getter setter _
        all_goals exact draws_fieldScript kind
      exact (Declaration.draws_head _ _ _).append below

end Property

theorem Event.draws {e : Event} (h : ∀ w ∈ e.wording, w.Draws) : e.script.Draws := by
  simp only [wording, List.forall_mem_append, List.forall_mem_cons, and_assoc] at h
  obtain ⟨-, -, -, adder, remover, -⟩ := h
  refine (Declaration.draws_head _ _ _).append ?_
  split
  · next adds removes isAdder isRemover =>
    have add := adds.draws (by simpa [isAdder] using adder) "add"
    have remove := removes.draws (by simpa [isRemover] using remover) "remove"
    exact (add.append remove).block e.declaration []
  · exact draws_line _

/-- A method draws when its body does. -/
theorem Method.draws {m : Method} (h : ∀ w ∈ m.wording, w.Draws) : m.script.Draws := by
  simp only [wording, List.forall_mem_append, List.forall_mem_cons, and_assoc] at h
  obtain ⟨-, -, -, -, body, -⟩ := h
  refine (Declaration.draws_head _ _ _).append ?_
  split
  · exact Declaration.draws_terminated _ _
  · exact (Declaration.draws_body body).block _ _

theorem Constructor.draws {k : Constructor} (h : ∀ w ∈ k.wording, w.Draws) : k.script.Draws := by
  simp only [wording, List.forall_mem_append, List.forall_mem_cons, and_assoc] at h
  obtain ⟨-, -, -, body, -⟩ := h
  exact (Declaration.draws_head _ _ _).append ((Declaration.draws_body body).block _ _)

/-! ## Types -/

theorem Delegate.draws (d : Delegate) : d.script.Draws :=
  ((draws_lines _).append (draws_lines _)).append (Declaration.draws_terminated _ _)

namespace EnumValue

/-- A value with nothing or a comma behind it. A value without a name is not indented. -/
theorem draws_ended (v : EnumValue) (marks : List String) :
    Script.Draws (v.script ++ marks.map (fun mark => .op (.appendUnindented mark)) ++
      [.op .newLine]) := by
  have entry := Script.draws_pieces v.name ((v.number.toList.map fun n => s!" = {n}") ++ marks)
  have whole := ((draws_lines v.documentation.lines).append
    (draws_lines v.attributes.sortedLines)).append entry
  simpa [EnumValue.script, Function.comp_def] using whole

end EnumValue

namespace Enum

theorem draws_entries (values : List EnumValue) : (entries values).Draws := by
  induction values with
  | nil => exact draws_nil
  | cons v rest ih =>
    cases rest with
    | nil => simpa [entries] using v.draws_ended []
    | cons next rest =>
      have first : Script.Draws (v.script ++ [.op (.appendUnindentedLine ",")]) :=
        (v.draws_ended [","]).congr fun r => by
          rw [List.append_assoc, Step.runAll_append, Step.runAll_append]
          rfl
      have all := (first.append draws_newLine).append ih
      simpa [entries] using all

theorem draws (e : Enum) : e.script.Draws :=
  ((draws_lines _).append (draws_lines _)).append ((draws_entries e.sortedValues).block _ _)

end Enum

/-- A record has no bodies, so it always draws. -/
theorem Record.draws (r : Record) : r.script.Draws := by
  refine (Declaration.draws_head _ _ _).append ?_
  split
  · exact draws_line _
  · exact (draws_lines _).block _ _

namespace Class

variable {c : Class}

/-- The members of a class, when its nested classes draw outlines. -/
theorem draws_members (h : ∀ w ∈ c.toClassCore.wording, w.Draws)
    (below : ∀ inner ∈ c.nested, ∀ script, inner.script = .ok script → script.Draws) :
    ∀ member ∈ c.members, ∀ script, member.script = .ok script → script.Draws := by
  simp only [ClassCore.wording, List.forall_mem_append, List.forall_mem_flatMap, and_assoc] at h
  obtain ⟨-, -, -, -, -, -, events, properties, constructors, methods⟩ := h
  have always {s : Script} (draws : s.Draws) (script : Script)
      (ok : (.ok s : Except Error Script) = .ok script) : script.Draws := Except.ok.inj ok ▸ draws
  have property {ps : List Property} (own : ∀ p ∈ ps, p ∈ c.properties) :
      ∀ p ∈ ps, ∀ script, p.script = .ok script → script.Draws := fun p member script ok =>
    Property.draws (properties p (own p member)) ok
  have isOwn {kind : PropertyKind} : ∀ p ∈ c.propertiesOf kind, p ∈ c.properties := fun p member =>
    PropertyOrder.mem_sort.mp (List.mem_filter.mp member).1
  have isConstant {condition : Property → Bool} :
      ∀ p ∈ (c.propertiesOf .constant).filter condition, p ∈ c.properties := fun p member =>
    isOwn p (List.mem_filter.mp member).1
  simp only [members, List.forall_mem_append, List.forall_mem_map, and_assoc]
  refine ⟨fun d _ => always d.draws, fun e member => always (Event.draws (events e member)),
    property isConstant, property isConstant, property isOwn, property isOwn,
    fun k member => always ?_, property isOwn, fun m member => always ?_, below⟩
  · exact Constructor.draws (constructors k ((List.mergeSort_perm _ _).mem_iff.mp member))
  · exact Method.draws (methods m ((List.mergeSort_perm _ _).mem_iff.mp member))

/-- A class draws when each of its members does. -/
theorem draws_of_members
    (all : ∀ member ∈ c.members, ∀ script, member.script = .ok script → script.Draws)
    {script : Script} (ok : c.script = .ok script) : script.Draws := by
  obtain ⟨groups, members, rfl⟩ := exists_groups ok
  have items : Script.Draws [.sections (groups.map fun group => .ofScripts group.1 group.2)] := by
    refine Script.draws_sections (List.forall_mem_map.mpr fun group isGroup =>
      Group.draws_ofScripts group.1 fun script isScript => ?_)
    obtain ⟨member, isMember, written⟩ := exists_of_mapM_ok members script
      (List.mem_flatMap.mpr ⟨group, isGroup, isScript⟩)
    exact all member isMember script written
  exact ((draws_lines _).append (draws_lines _)).append (items.block _ _)

end Class

mutual

/-- A class draws when all bodies inside it do, at any depth. -/
theorem Class.draws : (c : Class) → (∀ w ∈ c.wording, w.Draws) → ∀ {script : Script},
    c.script = .ok script → script.Draws
  | ⟨core, nested⟩, h, _, ok => by
    rw [Class.wording, List.forall_mem_append] at h
    have below := Class.draws_nested nested h.2
    exact Class.draws_of_members (Class.draws_members (c := ⟨core, nested⟩) h.1 below) ok

theorem Class.draws_nested : (cs : List Class) → (∀ w ∈ Class.wordingAll cs, w.Draws) →
    ∀ c ∈ cs, ∀ script, c.script = .ok script → script.Draws
  | [], _ => List.forall_mem_nil _
  | c :: rest, h => by
    rw [Class.wordingAll, List.forall_mem_append] at h
    exact List.forall_mem_cons.mpr ⟨fun _ ok => c.draws h.1 ok, Class.draws_nested rest h.2⟩

end

/-- Only classes have bodies. -/
theorem TypeDeclaration.draws {t : TypeDeclaration}
    (h : ∀ c, t = .class c → ∀ w ∈ c.wording, w.Draws) {script : Script}
    (ok : t.script = .ok script) : script.Draws := by
  cases t with
  | «class» c => exact c.draws (h c rfl) ok
  | enum e =>
    cases ok
    exact e.draws
  | record r =>
    cases ok
    exact r.draws
  | delegate d =>
    cases ok
    exact d.draws

/-! ## Files -/

namespace File

variable {f : File} {p : Preamble}

/-- The types of a file draw in their groups, with or without a namespace around them. -/
theorem draws_typeGroups {types : List Script} (all : ∀ script ∈ types, script.Draws) :
    ∀ group ∈ f.typeGroups types, group.Draws := by
  have own : (Group.ofScripts .spaced types).Draws := Group.draws_ofScripts .spaced all
  unfold typeGroups
  split
  · exact List.forall_mem_singleton.mpr own
  · next name _ =>
    split
    · have inner := Script.draws_sections (List.forall_mem_singleton.mpr own)
      exact List.forall_mem_singleton.mpr (Group.draws_ofScripts .close
        (List.forall_mem_singleton.mpr (inner.block s!"namespace {name}" [])))
    · exact List.forall_mem_cons.mpr
        ⟨Group.draws_ofLines [s!"namespace {name};"], List.forall_mem_singleton.mpr own⟩

/-- The head of a file consists of lines, so only the types count. -/
theorem draws_groups {types : List Script} (all : ∀ script ∈ types, script.Draws) :
    ∀ group ∈ f.preambleGroups p ++ f.typeGroups types, group.Draws := by
  refine List.forall_mem_append.mpr ⟨?_, draws_typeGroups all⟩
  simp only [preambleGroups, List.forall_mem_cons]
  exact ⟨Group.draws_ofLines _, Group.draws_ofLines _, Group.draws_ofLines _,
    Group.draws_ofLines _, List.forall_mem_nil _⟩

theorem draws_types (h : ∀ c, .class c ∈ f.types → ∀ w ∈ c.wording, w.Draws) {types : List Script}
    (ok : f.types.mapM TypeDeclaration.script = .ok types) : ∀ script ∈ types, script.Draws := by
  intro script isScript
  obtain ⟨t, member, written⟩ := exists_of_mapM_ok ok script isScript
  exact t.draws (fun c same => h c (same ▸ member)) written

/-- A file whose bodies draw outlines draws an outline. -/
theorem draws {script : Script} (h : ∀ c, .class c ∈ f.types → ∀ w ∈ c.wording, w.Draws)
    (ok : f.script p = .ok script) : script.Draws := by
  obtain ⟨types, okTypes, ok⟩ := bind_eq_ok.mp ok
  cases ok
  exact Script.draws_sections (draws_groups (draws_types h okTypes))

end File

end CSharpGen

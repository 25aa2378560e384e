import CSharpGen.Proofs.Declaration.Members
import CSharpGen.Proofs.Declaration.Outer

/-!
# Declarations as paragraphs

Each declaration writes complete lines when its wording is orderly, and with plain wording its lines
are neat.
-/

namespace CSharpGen

open Text (OneLine FormsLine formsLine_of oneLine_append)
open Wording (AllMeet allMeet_append allMeet_cons allMeet_flatMap)
open Script (Passage Paragraph passage_lines passage_nil paragraph_line)

variable {strict : Prop}

/-! ## Parts of declarations -/

namespace Declaration

theorem passage_warning {text : Option String} (h : AllMeet strict (text.toList.map .text)) :
    Passage strict (warning text) := by
  rw [warning_eq]
  exact passage_lines (formsLine_warningLines h)

/-- A declaration that ends with a semicolon, behind its last clause if it has some. -/
theorem paragraph_terminated {declaration : String} (h : FormsLine strict declaration)
    {clauses : List String} (all : ∀ clause ∈ clauses, FormsLine strict clause) :
    Paragraph strict (terminated declaration clauses) := by
  obtain ⟨ending, ls, forms⟩ := exists_forms_terminated h all
  exact ⟨_, forms, List.cons_ne_nil _ _⟩

/-- A body that is given. -/
theorem passage_steps {steps : Script}
    (h : (Wording.body steps).Orderly ∧ (strict → (Wording.body steps).Plain)) :
    Passage strict steps := by
  refine Script.passage_body h.1 fun demanded step isStep => ?_
  have plain := h.2 demanded step isStep
  unfold Step.PlainLine at plain
  split at plain
  · next text =>
    obtain ⟨one, free, filled⟩ := plain
    exact ⟨text, rfl, one, fun _ => Text.solid_of_braceFree free filled⟩
  · exact plain.elim

/-- A body of plain texts is a passage also when it is isolated. -/
theorem passage_body {body : Option Script} (h : AllMeet strict (body.toList.map .body)) :
    Passage strict (body.toList.map .isolated) := by
  cases body with
  | none => exact passage_nil
  | some steps => exact (passage_steps (allMeet_cons.mp h).1).isolated

end Declaration

/-- An accessor is one line or a block. -/
theorem Accessor.paragraph {a : Accessor} (h : AllMeet strict a.wording) (keyword : String)
    (mark : FormsLine strict keyword) : Paragraph strict (a.script keyword) := by
  cases a with
  | expression text =>
    have one : OneLine text := (allMeet_cons.mp h).1.1
    exact paragraph_line (((mark.append (by decide)).append one).append (by decide))
  | body steps =>
    have body := (Declaration.passage_steps (allMeet_cons.mp h).1).isolated
    exact body.block mark (List.forall_mem_nil _)

/-- An accessor that may be missing. -/
theorem Accessor.passage_option {a : Option Accessor}
    (h : AllMeet strict (a.toList.flatMap Accessor.wording)) (keyword : String)
    (mark : FormsLine strict keyword) : Passage strict (a.elim [] (·.script keyword)) := by
  cases a with
  | none => exact passage_nil
  | some a => exact (a.paragraph (allMeet_flatMap.mp h a (by simp)) keyword mark).passage

/-! ## Members of classes -/

namespace Property

variable {p : Property}

theorem oneLine_auto (auto : AutoAccessors) : OneLine auto.text := by
  cases auto with
  | getOnly => decide
  | init => decide
  | getSet setter =>
    have set : OneLine (Declaration.words [Access.keywordsOf setter, "set"]) := by
      refine Declaration.oneLine_words (List.forall_mem_cons.mpr ?_)
      exact ⟨Declaration.oneLine_keywordsOf setter, List.forall_mem_singleton.mpr (by decide)⟩
    exact oneLine_append.mpr ⟨oneLine_append.mpr ⟨by decide, set⟩, by decide⟩

theorem oneLine_modifiers (p : Property) : ∀ word ∈ p.modifiers, OneLine word := by
  have wordIf (condition : Bool) {word : String} (h : OneLine word) :=
    Declaration.oneLine_wordIf condition h
  unfold modifiers
  cases p.kind with
  | constant => exact List.forall_mem_cons.mpr ⟨wordIf _ (by decide), by decide⟩
  | readonly =>
    exact List.forall_mem_cons.mpr ⟨wordIf _ (by decide),
      List.forall_mem_cons.mpr ⟨wordIf _ (by decide), by decide⟩⟩
  | field =>
    exact List.forall_mem_cons.mpr ⟨wordIf _ (by decide),
      List.forall_mem_singleton.mpr (wordIf _ (by decide))⟩
  | property =>
    refine List.forall_mem_cons.mpr ⟨wordIf _ (by decide),
      List.forall_mem_cons.mpr ⟨wordIf _ (by decide), List.forall_mem_singleton.mpr ?_⟩⟩
    split
    · decide
    · exact wordIf _ (by decide)

/-- The type is a word of the declaration. -/
theorem formsLine_declaration {given type : String} (name : OneLine p.name)
    (written : Text.nonBlank? given = some type) (one : OneLine given)
    (free : strict → Text.BraceFree given) : FormsLine strict (p.declaration type) := by
  obtain ⟨rfl, filled⟩ := Text.nonBlank?_eq_some written
  refine Declaration.formsLine_words ?_ (Text.trim given) (by simp)
    fun demanded => (Text.solid_of_braceFree (free demanded) filled).trim
  refine List.forall_mem_append.mpr ⟨List.forall_mem_append.mpr ⟨?_, p.oneLine_modifiers⟩, ?_⟩
  · exact List.forall_mem_singleton.mpr (Declaration.oneLine_keywordsOf p.access)
  · exact List.forall_mem_cons.mpr ⟨one.trim, List.forall_mem_singleton.mpr name⟩

theorem paragraph_initialized {declaration : String} (h : FormsLine strict declaration)
    {value : Value} (plain : strict → OneLine value.text) :
    Paragraph strict (initialized declaration value) := by
  unfold initialized
  split
  · next last before earlier reversed =>
    have several : ¬strict := by
      intro demanded
      have few := (plain demanded).lines_length
      rw [← List.length_reverse, reversed, List.length_cons, List.length_cons] at few
      omega
    have line : ∀ text ∈ last :: before :: earlier, FormsLine strict text := by
      intro text isLine
      rw [← reversed, List.mem_reverse] at isLine
      exact ⟨Text.oneLine_of_mem_lines isLine, fun demanded => absurd demanded several⟩
    obtain ⟨final, others⟩ := List.forall_mem_cons.mp line
    exact ⟨_, Declaration.forms_continued (h.append (by decide))
      (fun text isLine => others text (List.mem_reverse.mp isLine)) (final.append (by decide)),
      List.cons_ne_nil _ _⟩
  · next single =>
    have few : (Text.lines value.text).length ≤ 1 := by
      rw [← List.length_reverse]
      rcases shape : (Text.lines value.text).reverse with _ | ⟨last, _ | ⟨before, earlier⟩⟩
      · exact Nat.zero_le 1
      · exact Nat.le_refl 1
      · exact absurd shape (single last before earlier)
    exact paragraph_line
      (((h.append (by decide)).append (Text.oneLine_trim_of_lines few)).append (by decide))

theorem paragraph_accessorScript {declaration : String} (h : FormsLine strict declaration)
    (getter : AllMeet strict (p.getter.toList.flatMap Accessor.wording))
    (setter : AllMeet strict (p.setter.toList.flatMap Accessor.wording)) :
    Paragraph strict (p.accessorScript declaration) := by
  unfold accessorScript
  split
  · next auto _ => exact paragraph_line ((h.append (by decide)).append (oneLine_auto auto))
  · split
    · next text given none =>
      have meets := allMeet_flatMap.mp getter (.expression text) (by simp [given])
      have one : OneLine text := (allMeet_cons.mp meets).1.1
      exact paragraph_line (((h.append (by decide)).append one).append (by decide))
    · exact paragraph_line (h.append (by decide))
    · have accessors := (Accessor.passage_option getter "get" (formsLine_of (by decide))).append
        (Accessor.passage_option setter "set" (formsLine_of (by decide)))
      exact accessors.block h (List.forall_mem_nil _)

/-- Constants, fields and properties are paragraphs, whichever form they are written in. -/
theorem paragraph_kindScript {declaration : String} (h : FormsLine strict declaration)
    (value : AllMeet strict (p.value.toList.map fun value => .passage value.text))
    (getter : AllMeet strict (p.getter.toList.flatMap Accessor.wording))
    (setter : AllMeet strict (p.setter.toList.flatMap Accessor.wording)) {body : Script}
    (ok : p.kindScript declaration = .ok body) : Paragraph strict body := by
  have field (ok : p.fieldScript declaration = .ok body) : Paragraph strict body := by
    unfold fieldScript at ok
    split at ok
    · next _ given isGiven =>
      cases ok
      have meets := value (Wording.passage given.text) (by simp [isGiven])
      exact paragraph_initialized h fun demanded => (meets.2 demanded).1
    · cases ok
    · cases ok
      exact paragraph_line (h.append (by decide))
  unfold kindScript at ok
  split at ok
  · cases ok
    exact paragraph_accessorScript h getter setter
  all_goals exact field ok

/-- A property that can be written is a paragraph, with its comment and attributes above it. -/
theorem paragraph {script : Script} (h : AllMeet strict p.wording) (ok : p.script = .ok script) :
    Paragraph strict script := by
  simp only [wording, allMeet_append, allMeet_cons, and_assoc] at h
  obtain ⟨name, alsoName, type, value, getter, setter, warning, attributes, documentation⟩ := h
  unfold Property.script at ok
  split at ok
  · cases ok
  · next type' given =>
    obtain ⟨given', isGiven, written⟩ := Option.bind_eq_some_iff.mp given
    have meets := type (Wording.text given') (by simp [isGiven])
    have declaration : FormsLine strict (p.declaration type') :=
      formsLine_declaration name written meets.1 fun demanded => (meets.2 demanded).2
    cases kind : p.kindScript (p.declaration type') with
    | error e =>
      rw [kind] at ok
      cases ok
    | ok body =>
      rw [kind] at ok
      cases ok
      have head : Passage strict p.headScript :=
        ((passage_lines (Documentation.formsLine_linesWhere documentation _)).append
          (Declaration.passage_warning warning)).append
          (passage_lines (Attributes.formsLine_lines attributes))
      exact head.append_paragraph (paragraph_kindScript declaration value getter setter kind)

end Property

/-- The lines above a declaration: its documentation, a warning and its attributes. -/
theorem passage_head {documentation attributes : List String} {warning : Script}
    (docs : ∀ line ∈ documentation, FormsLine strict line) (warns : Passage strict warning)
    (marks : ∀ line ∈ attributes, FormsLine strict line) :
    Passage strict (Step.lines documentation ++ warning ++ Step.lines attributes) :=
  ((passage_lines docs).append warns).append (passage_lines marks)

theorem Event.formsLine_declaration {e : Event} (name : OneLine e.name)
    (handler : OneLine e.handler) (interface : AllMeet strict (e.interface.toList.map .text)) :
    FormsLine strict e.declaration := by
  have static : OneLine (Declaration.wordIf e.isStatic "static") :=
    Declaration.oneLine_wordIf e.isStatic (by decide)
  have access := Declaration.oneLine_keywordsOf e.access
  have keyword : OneLine "event" := by decide
  unfold Event.declaration
  split
  · next explicit given =>
    have qualified : OneLine s!"{explicit}.{e.name}" :=
      oneLine_append.mpr ⟨oneLine_append.mpr ⟨interface.option explicit given, by decide⟩, name⟩
    refine Declaration.formsLine_words ?_ "event" (by simp) fun _ => by decide
    simpa using ⟨static, keyword, handler, qualified⟩
  · refine Declaration.formsLine_words ?_ "event" (by simp) fun _ => by decide
    simpa using ⟨access, static, keyword, handler, name⟩

/-- An event is a paragraph, with or without accessors. -/
theorem Event.paragraph {e : Event} (h : AllMeet strict e.wording) : Paragraph strict e.script := by
  simp only [wording, allMeet_append, allMeet_cons, and_assoc] at h
  obtain ⟨name, -, handler, -, interface, adder, remover, warning, attributes, documentation⟩ := h
  have declaration : FormsLine strict e.declaration := e.formsLine_declaration name handler interface
  have head : Passage strict (Step.lines e.documentation.lines ++ Declaration.warning e.warning ++
      Step.lines e.attributes.lines) :=
    passage_head (Documentation.formsLine_linesWhere documentation _)
      (Declaration.passage_warning warning) (Attributes.formsLine_lines attributes)
  refine head.append_paragraph ?_
  split
  · next adds removes isAdder isRemover =>
    have add := adds.paragraph (allMeet_flatMap.mp adder adds (by simp [isAdder]))
      "add" (formsLine_of (by decide))
    have remove := removes.paragraph (allMeet_flatMap.mp remover removes (by simp [isRemover]))
      "remove" (formsLine_of (by decide))
    exact (add.passage.append remove.passage).block declaration (List.forall_mem_nil _)
  · exact paragraph_line (declaration.append (by decide))

theorem Method.formsLine_declaration {m : Method} (name : OneLine m.name)
    (returnType : AllMeet strict (m.returnType.toList.map .text))
    (generics : AllMeet strict m.generics.wording)
    (parameters : AllMeet strict (m.parameters.flatMap Parameter.wording)) :
    FormsLine strict m.declaration := by
  have access := Declaration.oneLine_keywordsOf m.access
  have modifier : OneLine m.modifier := by
    unfold Method.modifier
    repeat' split
    · decide
    · decide
    · decide
    · exact Declaration.oneLine_wordIf _ (by decide)
  have async : OneLine (Declaration.wordIf m.isAsync "async") :=
    Declaration.oneLine_wordIf m.isAsync (by decide)
  have result := Declaration.oneLine_returnType returnType
  have signature : FormsLine strict _ := Generics.formsLine_signature generics name parameters
  refine Declaration.formsLine_words ?_
    s!"{m.name}{m.generics.suffix}({Parameters.render m.parameters})" (by simp)
    signature.solid
  have own := signature.oneLine
  simpa using ⟨access, modifier, async, result, own⟩

/-- A method is a paragraph, with its body or abstract. -/
theorem Method.paragraph {m : Method} (h : AllMeet strict m.wording) :
    Paragraph strict m.script := by
  simp only [wording, allMeet_append, allMeet_cons, and_assoc] at h
  obtain ⟨name, -, returnType, generics, parameters, body, warning, attributes, documentation⟩ := h
  have declaration := m.formsLine_declaration name returnType generics parameters
  have clauses : ∀ clause ∈ m.generics.whereClauses, FormsLine strict clause :=
    Generics.formsLine_whereClauses generics
  have head := passage_head (Documentation.formsLine_linesWhere documentation
    (Parameters.names m.parameters).contains) (Declaration.passage_warning warning)
    (Attributes.formsLine_lines attributes)
  refine head.append_paragraph ?_
  split
  · exact Declaration.paragraph_terminated declaration clauses
  · exact (Declaration.passage_body body).block declaration clauses

/-- A constructor is a paragraph, with the line of its initializer. -/
theorem Constructor.paragraph {c : Constructor} (h : AllMeet strict c.wording) :
    Paragraph strict c.script := by
  simp only [wording, allMeet_append, allMeet_cons, and_assoc] at h
  obtain ⟨name, -, parameters, initializer, body, warning, attributes, documentation⟩ := h
  have declaration : FormsLine strict c.declaration := by
    have access := Declaration.oneLine_keywordsOf c.access
    have mark : FormsLine strict (c.className ++ "(") := (formsLine_of (by decide)).prepend name
    have signature : FormsLine strict s!"{c.className}({Parameters.render c.parameters})" :=
      (mark.append (Parameters.oneLine_render parameters)).append (by decide)
    refine Declaration.formsLine_words ?_
      s!"{c.className}({Parameters.render c.parameters})" (by simp) signature.solid
    have own := signature.oneLine
    simpa using ⟨access, own⟩
  have calls : ∀ line ∈ c.initializer.toList.map Initializer.line, FormsLine strict line := by
    refine List.forall_mem_map.mpr fun i isInitializer => ?_
    have arguments : OneLine (", ".intercalate i.arguments) :=
      Text.oneLine_commaSeparated (allMeet_flatMap.mp initializer i isInitializer).texts
    unfold Initializer.line
    split
    · exact ((formsLine_of (by decide)).append arguments).append (by decide)
    · exact ((formsLine_of (by decide)).append arguments).append (by decide)
  have head := passage_head (Documentation.formsLine_linesWhere documentation
    (Parameters.names c.parameters).contains) (Declaration.passage_warning warning)
    (Attributes.formsLine_lines attributes)
  exact head.append_paragraph ((Declaration.passage_body body).block declaration calls)

theorem Delegate.declares {d : Delegate} (h : AllMeet strict d.wording) :
    Script.Declares strict d.script := by
  simp only [wording, allMeet_append, allMeet_cons, and_assoc] at h
  obtain ⟨name, -, returnType, generics, parameters, attributes, documentation⟩ := h
  have declaration : FormsLine strict d.declaration := by
    have access := Declaration.oneLine_keywordsOf d.access
    have keyword : OneLine "delegate" := by decide
    have result := Declaration.oneLine_returnType returnType
    have signature : FormsLine strict _ := Generics.formsLine_signature generics name parameters
    refine Declaration.formsLine_words ?_ "delegate" (by simp) fun _ => by decide
    have own := signature.oneLine
    simpa using ⟨access, keyword, result, own⟩
  have plain : Text.NoDirective d.declaration :=
    Declaration.noDirective_words [_] (List.forall_mem_cons.mpr
      ⟨Declaration.noDirective_keywordsOf d.access, List.forall_mem_singleton.mpr (by decide)⟩)
      (by decide)
  have declares := Declaration.declares_terminated declaration plain
    (Generics.formsLine_whereClauses generics)
  exact declares.below_head
    (Documentation.formsLine_linesWhere documentation (Parameters.names d.parameters).contains)
    (d.documentation.noDirective_linesWhere _) (Attributes.formsLine_lines attributes)
    d.attributes.noDirective_lines

end CSharpGen

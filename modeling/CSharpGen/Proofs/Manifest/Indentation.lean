import CSharpGen.CommandLine.Response
import CSharpGen.Proofs.Declaration.Outlines
import CSharpGen.Proofs.Manifest.Built

/-!
# The indentation of a manifest's file

The script of a manifest does not depend on the indentation. It draws an outline, since its bodies
are made of lines, so a given indentation changes nothing but the units before the lines, and a
manifest that can be checked can be rendered (`Manifest.render_indentation`).
-/

namespace CSharpGen

/-! ## Bodies in the wording of entries -/

namespace Wording

variable {steps : Script}

theorem body_notMem_documentation (d : Documentation) : body steps ∉ d.wording := by
  cases d <;> simp [Documentation.wording]

theorem body_notMem_generics (g : Generics) : body steps ∉ g.wording := by
  simp [Generics.wording, GenericParameter.wording]

theorem body_mem_method {m : Method} : body steps ∈ m.wording ↔ m.body = some steps := by
  simp [Method.wording, Parameter.wording, Attributes.wording, body_notMem_generics,
    body_notMem_documentation]

theorem body_mem_constructor {k : Constructor} :
    body steps ∈ k.wording ↔ k.body = some steps := by
  simp [Constructor.wording, Parameter.wording, Attributes.wording, body_notMem_documentation]

theorem body_notMem_delegate (d : Delegate) : body steps ∉ d.wording := by
  simp [Delegate.wording, Parameter.wording, Attributes.wording, body_notMem_generics,
    body_notMem_documentation]

end Wording

open Wording (body_notMem_documentation body_notMem_generics body_notMem_delegate)

theorem EventEntry.body_notMem_toEvent (e : EventEntry) (steps : Script) :
    .body steps ∉ e.toEvent.wording := by
  simp [Event.wording, toEvent, Event.ofName, Attributes.wording, body_notMem_documentation]

theorem PropertyEntry.body_notMem_toProperty (p : PropertyEntry) (steps : Script) :
    .body steps ∉ p.toProperty.wording := by
  simp [Property.wording, toProperty, Property.ofName, Accessor.wording, Attributes.wording,
    body_notMem_documentation]

theorem FieldEntry.body_notMem_built (f : FieldEntry) (steps : Script) :
    .body steps ∉ f.built.wording := by
  simp [Property.wording, built, Property.ofName, Attributes.wording, body_notMem_documentation]

/-- A body of fixed lines. -/
theorem Script.draws_ofBody {lines : List String} {steps : Script}
    (given : ofBody lines = some steps) : steps.Draws := by
  unfold ofBody at given
  split at given
  · cases given
  · cases given
    exact draws_lines lines

theorem ConstructorEntry.built_body (k : ConstructorEntry) (className : String) :
    (k.built className).body = Script.ofBody k.body := by
  unfold built
  cases k.base <;> cases k.this <;> rfl

theorem ClassEntryCore.draws_built (c : ClassEntryCore) (empty : Class) :
    ∀ w ∈ (c.built empty).toClassCore.wording, w.Draws := by
  refine Wording.draws_of_bodies fun steps member => ?_
  have members : (∃ k ∈ c.constructors, .body steps ∈ (k.built empty.name).wording) ∨
      ∃ m ∈ c.methods, .body steps ∈ m.built.wording := by
    simpa [ClassCore.wording, built, plain, Attributes.wording, body_notMem_documentation,
      body_notMem_generics, body_notMem_delegate, EventEntry.body_notMem_toEvent,
      PropertyEntry.body_notMem_toProperty, FieldEntry.body_notMem_built] using member
  rcases members with ⟨k, -, isBody⟩ | ⟨m, -, isBody⟩
  · rw [Wording.body_mem_constructor, k.built_body] at isBody
    exact Script.draws_ofBody isBody
  · exact Script.draws_ofBody (Wording.body_mem_method.mp isBody)

mutual

/-- What a class of a manifest writes is drawn the same way under every indent, nested classes
included. -/
theorem ClassEntry.draws_built : (c : ClassEntry) → (empty : Class) →
    ∀ w ∈ (c.built empty).wording, w.Draws
  | ⟨core, nested⟩, empty => by
    rw [ClassEntry.built, Class.wording]
    exact List.forall_mem_append.mpr ⟨core.draws_built empty, ClassEntry.draws_builtIn nested _⟩

theorem ClassEntry.draws_builtIn : (cs : List ClassEntry) → (outer : Class) →
    ∀ w ∈ Class.wordingAll (ClassEntry.builtIn cs outer), w.Draws
  | [], _ => List.forall_mem_nil _
  | c :: rest, outer =>
    List.forall_mem_append.mpr ⟨c.draws_built _, ClassEntry.draws_builtIn rest outer⟩

end

namespace Manifest

/-! ## The script of a manifest -/

/-- The script of the file that a manifest describes. -/
def script (m : Manifest) : Except Error Script := do
  let draft ← m.toDraft none
  draft.file.script draft.preamble

theorem draws_types (m : Manifest) (indent : Option Indent) :
    ∀ c, .class c ∈ (m.built indent).file.types → ∀ w ∈ c.wording, w.Draws := by
  intro c isType
  have isBuilt : ∃ entry ∈ m.classes,
      entry.built ((m.emptyFile indent).newClass entry.name) = c := by
    simpa [built, builtTypes] using isType
  obtain ⟨entry, -, rfl⟩ := isBuilt
  exact entry.draws_built _

/-- The script of a manifest has one outline, whatever the indent is. -/
theorem draws_script {m : Manifest} {script : Script} (ok : m.script = .ok script) :
    script.Draws := by
  obtain ⟨draft, okDraft, ok⟩ := bind_eq_ok.mp ok
  obtain rfl := (m.yields_toDraft none).eq_of_ok okDraft
  exact File.draws (m.draws_types none) ok

/-- The indent goes into the options of the file and nowhere else. -/
theorem emptyFile_eq (m : Manifest) (indent : Option Indent) :
    m.emptyFile indent = { m.emptyFile none with options := m.optionsWith indent } := by
  have disable (f : File) (code : String) :
      { f with options := m.optionsWith indent }.disableWarning code =
        { f.disableWarning code with options := m.optionsWith indent } := by
    unfold File.disableWarning
    cases Text.nonBlank? code <;> rfl
  have all (codes : List String) (f : File) :
      codes.foldl File.disableWarning { f with options := m.optionsWith indent } =
        { codes.foldl File.disableWarning f with options := m.optionsWith indent } := by
    induction codes generalizing f with
    | nil => rfl
    | cons code rest ih => rw [List.foldl_cons, List.foldl_cons, disable, ih]
  rw [emptyFile, emptyFile]
  generalize File.ofNamespace (m.namespaceName.getD "") = f
  exact all m.disabledWarnings { f with options := m.optionsWith none }

/-- The declarations of a manifest do not depend on the indent of the file they are built for. -/
theorem types_emptyFile (m : Manifest) (indent : Option Indent) :
    m.types (m.emptyFile indent) = m.types (m.emptyFile none) := by
  have options : (m.emptyFile none).options = m.optionsWith none :=
    congrArg File.options (m.emptyFile_eq none)
  simp only [types, File.newClass, File.newEnum, File.newRecord, m.emptyFile_eq indent, options]
  rfl

/-- Rendering runs one script, in the style that the indentation asks for. -/
theorem render_eq (m : Manifest) (indent : Option Indent) :
    m.render indent = m.script.map (Script.render (m.optionsWith indent).indent) := by
  let draft (indent : Option Indent) (types : List TypeDeclaration) : Draft :=
    { file := { m.emptyFile indent with types }
      preamble := ({} : Preamble).registerAll m.registrations }
  have drafts (indent : Option Indent) :
      m.toDraft indent = m.types (m.emptyFile none) >>= fun types => .ok (draft indent types) := by
    rw [← m.types_emptyFile indent]
    rfl
  have builds (types : List TypeDeclaration) : (draft indent types).build =
      ((draft none types).file.script (draft none types).preamble).map
        (Script.render (m.optionsWith indent).indent) := by
    have options : (m.emptyFile none).options = m.optionsWith none :=
      congrArg File.options (m.emptyFile_eq none)
    simp only [Draft.build, File.build, draft, m.emptyFile_eq indent, File.script,
      File.preambleGroups, File.typeGroups, options]
    rfl
  rw [render, script, drafts, drafts]
  cases m.types (m.emptyFile none) with
  | error e => rfl
  | ok types => exact builds types

/-- One outline for all indentations, or one error. -/
theorem exists_outline (m : Manifest) :
    (∃ e, ∀ indent, m.render indent = .error e) ∨
      ∃ o : Outline, ∀ indent, m.render indent = .ok (o.text (m.optionsWith indent).indent) := by
  cases result : m.script with
  | error e => exact .inl ⟨e, fun indent => by rw [render_eq, result]; rfl⟩
  | ok script =>
    obtain ⟨o, drawn⟩ := (draws_script result).exists_render
    exact .inr ⟨o, fun indent => by rw [render_eq, result, ← drawn]; rfl⟩

end Manifest

/-! ## Commands -/

namespace CommandLine

/-- The text of the file, where it is written to or printed. -/
def Response.content (r : Response) : String := r.output.elim r.printed Output.content

namespace Command

variable {text : String} {m : Manifest}

/-- The render command writes what the manifest renders to. -/
theorem result_render (parsed : Manifest.parse text = .ok m) (path : String)
    (output : Option String) (indent : Option Indent) :
    (∀ e, m.render indent = .error e → (render path output indent).result text = .error e) ∧
    ∀ source, m.render indent = .ok source →
      ∃ response, (render path output indent).result text = .ok response ∧
        response.ending = .success ∧ response.content = source := by
  constructor
  · intro e refused
    simp only [result, parsed, refused, bind, Except.bind]
  · intro source written
    cases output with
    | none =>
      refine ⟨{ ending := .success, printed := source }, ?_, rfl, rfl⟩
      simp only [result, parsed, written, bind, Except.bind, pure, Except.pure]
    | some file =>
      refine ⟨{ ending := .success, output := some ⟨file, source⟩ }, ?_, rfl, rfl⟩
      simp only [result, parsed, written, bind, Except.bind, pure, Except.pure]

/-- The check command reports on what the manifest renders to without an indentation. -/
theorem result_check (parsed : Manifest.parse text = .ok m) (path : String) :
    (∀ e, m.render none = .error e → (check path).result text = .error e) ∧
    ∀ source, m.render none = .ok source →
      ∃ draft, m.toDraft none = .ok draft ∧ draft.build = .ok source ∧
        (check path).result text =
          .ok { ending := .success, printed := report path m draft source } := by
  cases drafted : m.toDraft none with
  | error e =>
    have same : m.render none = .error e := by
      rw [Manifest.render, drafted]
      rfl
    rw [same]
    refine ⟨fun other isError => ?_, fun source written => by cases written⟩
    cases isError
    simp only [result, parsed, drafted, bind, Except.bind]
  | ok draft =>
    have same : m.render none = draft.build := by
      rw [Manifest.render, drafted]
      rfl
    rw [same]
    refine ⟨fun e refused => ?_, fun source written => ⟨draft, rfl, written, ?_⟩⟩
    · simp only [result, parsed, drafted, refused, bind, Except.bind]
    · simp only [result, parsed, drafted, written, bind, Except.bind, pure, Except.pure]

end Command

end CommandLine

/-- The choice of an indentation leaves the lines of the file as they are, but for the units before
them, and does not matter for what is refused. So the check command accepts what the render command
accepts, and counts the lines that it writes. -/
theorem Manifest.render_indentation :
    (∀ m : Manifest,
      (∃ e, ∀ indent, m.render indent = .error e) ∨
      ∃ o : Outline, ∀ indent, ∃ source,
        m.render indent = .ok source ∧ source = o.text (m.optionsWith indent).indent ∧
        Text.lines source = o.lines.map fun l =>
          (m.optionsWith indent).indent.levels l.level ++ Text.dropStop "\r" l.text) ∧
    ∀ (text checked rendered : String) (output : Option String) (indent : Option Indent),
      (∃ e, (CommandLine.Command.check checked).result text = .error e ∧
        (CommandLine.Command.render rendered output indent).result text = .error e) ∨
      ∃ m draft source response,
        Manifest.parse text = .ok m ∧ m.toDraft none = .ok draft ∧ draft.build = .ok source ∧
        (CommandLine.Command.check checked).result text =
          .ok { ending := .success, printed := CommandLine.report checked m draft source } ∧
        (CommandLine.Command.render rendered output indent).result text = .ok response ∧
        response.ending = .success ∧
        (Text.lines response.content).length = (Text.lines source).length := by
  refine ⟨fun m => ?_, fun text checked rendered output indent => ?_⟩
  · refine m.exists_outline.imp id fun ⟨o, renders⟩ => ⟨o, fun indent => ?_⟩
    exact ⟨_, renders indent, rfl, o.lines_text _⟩
  · cases parsed : Manifest.parse text with
    | error e => exact .inl ⟨e, by rw [CommandLine.Command.result, parsed]; rfl,
        by rw [CommandLine.Command.result, parsed]; rfl⟩
    | ok m =>
      have check := CommandLine.Command.result_check parsed checked
      have render := CommandLine.Command.result_render parsed rendered output indent
      rcases m.exists_outline with ⟨e, refused⟩ | ⟨o, renders⟩
      · exact .inl ⟨e, check.1 e (refused none), render.1 e (refused indent)⟩
      · obtain ⟨draft, drafted, built, reported⟩ := check.2 _ (renders none)
        obtain ⟨response, responded, succeeds, same⟩ := render.2 _ (renders indent)
        refine .inr ⟨m, draft, _, response, rfl, drafted, built, reported, responded, succeeds, ?_⟩
        rw [same, o.lines_text, o.lines_text, List.length_map, List.length_map]

end CSharpGen

import CSharpGen.Proofs.Declaration.TypeParagraphs

/-!
# Blank lines of a file

The head of a file is made of groups of lines and its types are paragraphs. A file of plain texts
has its blank lines in order, however its groups and members are filled and nested
(`File.build_blankLinesTidy`).
-/

namespace CSharpGen

open Text (OneLine Solid FormsLine NoDirective formsLine_of)
open Wording (AllMeet allMeet_append allMeet_flatMap)
open Script (Passage Paragraph)

variable {strict : Prop}

/-! ## The head -/

namespace Text

/-- A text that starts with a solid one is solid. -/
theorem Solid.of_startsWith {start s : String} (h : Solid start)
    (starts : startsWith start s = true) : Solid s := by
  obtain ⟨rest, split⟩ := List.isPrefixOf_iff_prefix.mp starts
  obtain ⟨c, member, solid⟩ := h
  exact ⟨c, split ▸ List.mem_append_left rest member, solid⟩

end Text

/-- An attribute of one line is written as a line of its own that is neither blank nor a brace. -/
theorem AssemblyAttribute.formsLine_line? {text line : String} (h : OneLine text)
    (written : line? text = some line) : FormsLine strict line := by
  simp only [line?] at written
  split at written
  · next starts =>
    obtain rfl := Option.some.inj written
    exact ⟨h.trim, fun _ => Solid.of_startsWith (by decide) starts⟩
  · obtain ⟨body, isBody, rfl⟩ := Option.map_eq_some_iff.mp written
    obtain ⟨rfl, -⟩ := Text.nonBlank?_eq_some isBody
    have stripped : OneLine (Text.trim (Text.dropStop "]" (Text.dropStart "[" (Text.trim text)))) :=
      ((h.trim.of_subset (Text.dropStart_sublist _ _).subset).of_subset
        (Text.dropStop_sublist _ _).subset).trim
    have inner := (stripped.of_subset (Text.dropStart_sublist "assembly:" _).subset).trim
    exact ((formsLine_of (by decide)).append inner).append (by decide)

theorem ImportGroups.mem_all {imports : List String} {name : String} :
    name ∈ (ofImports imports).all ↔ name ∈ imports := by
  simp only [all, ofImports, List.mem_append, Text.mem_ascending, List.mem_filter]
  cases Import.kind name <;> simp

namespace File

variable {f : File} {p : Preamble}

/-- The lines above the namespace and the types, in groups. -/
def headLines (f : File) (p : Preamble) : List (List String) := [
  f.options.nullable.toList.map fun state => s!"#nullable {state.keyword}",
  f.disabledWarnings.map fun code => s!"#pragma warning disable {code}",
  p.importGroups.all.map fun name => s!"using {name};",
  p.assemblyAttributeLines]

/-- Every line of the head is a line of its own. -/
theorem formsLine_headLines (warnings : AllMeet strict (f.disabledWarnings.map .text))
    (registered : AllMeet strict p.wording) :
    ∀ lines ∈ f.headLines p, ∀ line ∈ lines, FormsLine strict line := by
  obtain ⟨imports, attributes⟩ := allMeet_append.mp registered
  simp only [headLines, List.forall_mem_cons]
  refine ⟨?_, ?_, ?_, fun line isLine => ?_, List.forall_mem_nil _⟩
  · refine List.forall_mem_map.mpr fun state _ => (formsLine_of (by decide)).append ?_
    cases state <;> decide
  · exact List.forall_mem_map.mpr fun code isCode =>
      (formsLine_of (by decide)).append (warnings.texts code isCode)
  · exact List.forall_mem_map.mpr fun name isName => ((formsLine_of (by decide)).append
      (imports.texts name (ImportGroups.mem_all.mp isName))).append (by decide)
  · obtain ⟨text, isText, written⟩ := List.mem_filterMap.mp (Text.mem_ascending.mp isLine)
    exact AssemblyAttribute.formsLine_line? (attributes.texts text isText) written

/-- The groups of the head as entries. -/
theorem exists_entered_preambleGroups (warnings : AllMeet strict (f.disabledWarnings.map .text))
    (registered : AllMeet strict p.wording) :
    ∃ head : List (Spacing × List (Entry strict)), head.map Entry.group = f.preambleGroups p := by
  obtain ⟨head, same, -⟩ := Entry.exists_ofLineGroups (formsLine_headLines warnings registered)
  exact ⟨head, same⟩

/-! ## The types -/

/-- The scripts of the types declare something, so each is a paragraph. -/
theorem declares_types (types : AllMeet strict (f.types.flatMap TypeDeclaration.wording))
    {scripts : List Script} (ok : f.types.mapM TypeDeclaration.script = .ok scripts) :
    ∀ script ∈ scripts, script.Declares strict := by
  intro script isScript
  obtain ⟨t, member, written⟩ := exists_of_mapM_ok ok script isScript
  exact t.declares (allMeet_flatMap.mp types t member) written

theorem paragraphs_types (types : AllMeet strict (f.types.flatMap TypeDeclaration.wording))
    {scripts : List Script} (ok : f.types.mapM TypeDeclaration.script = .ok scripts) :
    ∀ script ∈ scripts, Paragraph strict script :=
  fun script isScript => (declares_types types ok script isScript).paragraph

/-- The groups below the head as entries, with lines of which those that are not indented start no
directive. -/
theorem exists_entered_typeGroups (name : AllMeet strict (f.namespaceName.toList.map .text))
    {scripts : List Script} (types : ∀ script ∈ scripts, script.Declares strict) :
    ∃ entered : List (Spacing × List (Entry strict)),
      entered.map Entry.group = f.typeGroups scripts ∧
        ∀ g ∈ entered.map Entry.layouts, ∀ ls ∈ g.2, ls.Outer := by
  obtain ⟨entries, items, outer⟩ := Entry.exists_ofForms types
  have group : Entry.group (.spaced, entries) = Group.ofScripts .spaced scripts :=
    congrArg (Group.mk .spaced) items
  have layouts : ∀ ls ∈ (Entry.layouts (.spaced, entries)).2, ls.Outer :=
    List.forall_mem_map.mpr outer
  unfold typeGroups
  split
  · exact ⟨[(.spaced, entries)], by rw [← group]; rfl, List.forall_mem_singleton.mpr layouts⟩
  · next given isGiven =>
    have line : FormsLine strict s!"namespace {given}" :=
      (formsLine_of (by decide)).append (name.option given isGiven)
    have plain : NoDirective s!"namespace {given}" := Text.NoDirective.append (by decide) given
    split
    · have inner := Entry.forms_sections [(Spacing.spaced, entries)]
      have whole := inner.block line (List.forall_mem_nil _)
      refine ⟨[(.close, [.ofScript whole (Layout.block_ne_nil _ _ _)])], by rw [← group]; rfl, ?_⟩
      exact List.forall_mem_singleton.mpr
        (List.forall_mem_singleton.mpr (Layout.outer_block plain _ _))
    · refine ⟨[(.close, [.ofLine (line.append (t := ";") (by decide))]), (.spaced, entries)],
        by rw [← group]; rfl, List.forall_mem_cons.mpr ⟨?_, List.forall_mem_singleton.mpr layouts⟩⟩
      exact List.forall_mem_singleton.mpr
        (Layout.outer_lines (List.forall_mem_singleton.mpr (plain.append ";")))

/-- The script of a file is a passage of paragraphs, from its head to its last type. -/
theorem passage {script : Script} (h : AllMeet strict (f.wording ++ p.wording))
    (ok : f.script p = .ok script) : Passage strict script := by
  obtain ⟨own, registered⟩ := allMeet_append.mp h
  obtain ⟨⟨name, warnings⟩, types⟩ := by simpa only [wording, allMeet_append] using own
  obtain ⟨scripts, okTypes, ok⟩ := bind_eq_ok.mp ok
  cases ok
  obtain ⟨head, isHead⟩ := exists_entered_preambleGroups warnings registered
  obtain ⟨tail, isTail, -⟩ := exists_entered_typeGroups name (declares_types types okTypes)
  have forms := Entry.forms_sections (head ++ tail)
  rw [List.map_append, isHead, isTail] at forms
  exact ⟨_, forms⟩

end File

theorem File.build_ok {f : File} {p : Preamble} {text : String} (ok : f.build p = .ok text) :
    ∃ script, f.script p = .ok script ∧ script.render f.options.indent = text := by
  unfold File.build at ok
  cases written : f.script p with
  | error e =>
    rw [written] at ok
    cases ok
  | ok script =>
    rw [written] at ok
    exact ⟨script, rfl, Except.ok.inj ok⟩

/-! ## Plain files -/

theorem Step.allStructured_of_lines {steps : List Step} (all : ∀ step ∈ steps, step.PlainLine) :
    Step.AllStructured steps := by
  induction steps with
  | nil => trivial
  | cons step rest ih =>
    obtain ⟨first, others⟩ := List.forall_mem_cons.mp all
    refine ⟨?_, ih others⟩
    unfold Step.PlainLine at first
    split at first
    · exact first.1
    · exact first.elim

theorem Wording.Plain.orderly {w : Wording} (h : w.Plain) : w.Orderly := by
  cases w with
  | text => exact h.1
  | passage => trivial
  | label => exact ⟨h.1, h.2.2⟩
  | body steps => exact Step.allStructured_of_lines h

/-- A file of plain texts is empty or ends with exactly one line feed, does not start with a blank
line, and has single blank lines that neither follow an opening brace nor precede a closing one. -/
theorem File.build_blankLinesTidy {f : File} {p : Preamble} {text : String}
    (plain : ∀ w ∈ f.wording ++ p.wording, w.Plain) (ok : f.build p = .ok text) :
    Text.BlankLinesTidy text := by
  have meets : AllMeet True (f.wording ++ p.wording) := fun w member =>
    ⟨(plain w member).orderly, fun _ => plain w member⟩
  obtain ⟨script, written, rfl⟩ := File.build_ok ok
  obtain ⟨ls, forms⟩ := File.passage meets written
  rw [forms.lays.render_eq]
  exact (forms.neat trivial).blankLinesTidy forms.oneLine _ 0

/-- A block namespace around a class with members of three groups, one of them a class, and an enum
with two values. -/
def plainFile : File where
  namespaceName := some "Museum"
  options := { nullable := some .enable }
  disabledWarnings := ["CS0618", "CS1591"]
  types := [
    .class {
      name := "Gallery"
      properties := [{ name := "Halls", type := some "int", kind := .field }]
      methods := [{ name := "Open", body := some (Step.lines ["Unlock();", "Greet();"]) }]
      nested := [{ name := "Desk" }] },
    .enum { name := "Wing", values := [{ name := "East", number := some 1 }, { name := "West" }] }]

/-- The preamble of a file that imports one namespace. -/
def plainPreamble : Preamble := Preamble.registerAll {} [.importNamespace "System"]

theorem build_blankLinesTidy_museum :
    (∀ w ∈ plainFile.wording ++ plainPreamble.wording, w.Plain) ∧
      ∃ text, plainFile.build plainPreamble = .ok text ∧ Text.BlankLinesTidy text := by
  have plain : ∀ w ∈ plainFile.wording ++ plainPreamble.wording, w.Plain := by decide
  have valued : ∀ p ∈ plainFile.allProperties, p.Valued := by
    simp [plainFile, File.allProperties, TypeDeclaration.collect, Class.collect, Class.collectAll,
      Property.Valued]
  have typed : ∀ p ∈ plainFile.allProperties, ¬p.lacksType := by decide
  obtain ⟨text, ok⟩ := plainFile.exists_build valued typed plainPreamble
  exact ⟨plain, text, ok, File.build_blankLinesTidy plain ok⟩

end CSharpGen

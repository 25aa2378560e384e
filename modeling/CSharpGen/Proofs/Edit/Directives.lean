import CSharpGen.Proofs.Edit.Rearranged
import CSharpGen.Proofs.File.Directives

/-!
# Directives of an edited file

The head of a file lists what its edits ask for, at whatever level: each import once, in four
strictly ascending groups, and likewise the pragmas and the assembly attributes. Neither the order
of these edits nor their number matters (`Draft.build_directives`).
-/

namespace CSharpGen

open Text (OneLine Enumerates)

/-! ## Texts of registrations -/

namespace Import

theorem oneLine_normalize? {text name : String} (h : OneLine text)
    (normal : normalize? text = some name) : OneLine name := by
  have named := (h.trim.of_subset (Text.dropStart_sublist "using " _).subset).trim
  rw [normalize?] at normal
  obtain ⟨rfl, -⟩ := Text.nonBlank?_eq_some normal
  refine (named.of_subset ?_).trim
  rw [String.toList_ofList]
  exact fun _ => Text.mem_of_mem_dropTailWhile

theorem oneLine_containingNamespace? {type name : String} (h : OneLine type)
    (contains : containingNamespace? type = some name) : OneLine name := by
  have plain := h.trim.of_subset (Text.dropStart_sublist "global::" _).subset
  rw [containingNamespace?] at contains
  obtain ⟨cut, -⟩ := Option.filter_eq_some_iff.mp contains
  exact (plain.of_subset (Text.beforeFirst_subset '<' _)).of_subset (Text.beforeLast?_subset cut)

end Import

namespace Registration

/-- The text with which something is registered. -/
def text : Registration → String
  | .importNamespace text | .importNamespaceOf text | .assemblyAttribute text => text

variable {r : Registration} {name : String}

theorem oneLine_importOf? (h : OneLine r.text) (asked : Preamble.importOf? r = some name) :
    OneLine name := by
  cases r with
  | importNamespace text =>
    rw [Preamble.importOf?] at asked
    exact Import.oneLine_normalize? h asked
  | importNamespaceOf type =>
    rw [Preamble.importOf?] at asked
    obtain ⟨space, contains, normal⟩ := Option.bind_eq_some_iff.mp asked
    exact Import.oneLine_normalize? (Import.oneLine_containingNamespace? h contains) normal
  | assemblyAttribute text => cases asked

theorem oneLine_attributeOf? (h : OneLine r.text) (asked : Preamble.attributeOf? r = some name) :
    OneLine name := by
  cases r with
  | assemblyAttribute text =>
    rw [Preamble.attributeOf?] at asked
    obtain ⟨rfl, -⟩ := Text.nonBlank?_eq_some asked
    exact h.trim
  | _ => cases asked

end Registration

/-- The line of an assembly attribute does not depend on the blanks around its text. -/
theorem AssemblyAttribute.line?_trim (text : String) : line? (Text.trim text) = line? text := by
  rw [line?, line?, Text.trim_idem]

/-- A blank text has no line, so it does not matter that none is registered. -/
theorem AssemblyAttribute.exists_line?_iff {text line : String} :
    (∃ trimmed, Text.nonBlank? text = some trimmed ∧ line? trimmed = some line) ↔
      line? text = some line := by
  have same := line?_trim text
  constructor
  · rintro ⟨trimmed, isText, written⟩
    obtain ⟨rfl, -⟩ := Text.nonBlank?_eq_some isText
    exact same ▸ written
  · intro written
    by_cases blank : Text.isBlankText text
    · have empty : Text.trim text = "" := String.isEmpty_iff.mp blank
      rw [empty] at same
      have never : line? "" = none := by decide
      rw [← same, never] at written
      cases written
    · exact ⟨_, if_neg blank, same.trans written⟩

/-- The lines of the assembly attributes are those of the texts that were registered. -/
theorem Preamble.enumerates_assemblyAttributeLines (rs : List Registration) :
    Enumerates (registerAll {} rs).assemblyAttributeLines fun line =>
      ∃ text, .assemblyAttribute text ∈ rs ∧ AssemblyAttribute.line? text = some line := by
  refine Text.enumerates_ascending fun line => ?_
  have none (text : String) : ¬text ∈ ({} : Preamble).assemblyAttributes := List.not_mem_nil
  simp only [List.mem_filterMap, ← TextSet.mem_def, mem_attributes_registerAll, none, false_or]
  constructor
  · rintro ⟨text, ⟨r, asked, isText⟩, written⟩
    cases r with
    | assemblyAttribute given =>
      exact ⟨given, asked, AssemblyAttribute.exists_line?_iff.mp ⟨text, isText, written⟩⟩
    | _ => cases isText
  · rintro ⟨given, asked, written⟩
    obtain ⟨text, isText, written⟩ := AssemblyAttribute.exists_line?_iff.mpr written
    exact ⟨text, ⟨_, asked, isText⟩, written⟩

/-! ## What the lists of an edited file hold -/

/-- An import that some edit asks for, at whatever level. -/
def FileEdit.Imports (edits : List FileEdit) (name : String) : Prop :=
  ∃ r ∈ callsAll edits, Preamble.importOf? r = some name

/-- The lists of directives of a draft hold what edits ask for, and nothing else. -/
structure Draft.Directs (d : Draft) (edits : List FileEdit) : Prop where
  system : Enumerates d.preamble.importGroups.system fun name =>
    Import.kind name = .system ∧ FileEdit.Imports edits name
  plain : Enumerates d.preamble.importGroups.plain fun name =>
    Import.kind name = .plain ∧ FileEdit.Imports edits name
  aliases : Enumerates d.preamble.importGroups.aliases fun name =>
    Import.kind name = .alias ∧ FileEdit.Imports edits name
  statics : Enumerates d.preamble.importGroups.statics fun name =>
    Import.kind name = .static ∧ FileEdit.Imports edits name
  pragmas : Enumerates (d.file.disabledWarnings.map fun code => s!"#pragma warning disable {code}")
    fun line => ∃ code, (∃ edit ∈ edits, edit.warning? = some code) ∧
      s!"#pragma warning disable {code}" = line
  attributes : Enumerates d.preamble.assemblyAttributeLines fun line =>
    ∃ text, .assemblyAttribute text ∈ FileEdit.callsAll edits ∧
      AssemblyAttribute.line? text = some line

namespace Draft

variable (name : String) (edits : List FileEdit)

theorem mem_imports_performAll (imported : String) :
    imported ∈ (FileEdit.performAll edits (.ofNamespace name)).1.preamble.imports ↔
      FileEdit.Imports edits imported := by
  have none : ¬imported ∈ (ofNamespace name).preamble.imports := List.not_mem_nil
  rw [FileEdit.preamble_performAll, Preamble.mem_imports_registerAll, or_iff_right none]
  rfl

theorem mem_attributes_performAll (text : String) :
    text ∈ (FileEdit.performAll edits (.ofNamespace name)).1.preamble.assemblyAttributes ↔
      ∃ r ∈ FileEdit.callsAll edits, Preamble.attributeOf? r = some text := by
  have none : ¬text ∈ (ofNamespace name).preamble.assemblyAttributes := List.not_mem_nil
  rw [FileEdit.preamble_performAll, Preamble.mem_attributes_registerAll, or_iff_right none]

theorem enumerates_disabledWarnings :
    Enumerates (FileEdit.performAll edits (.ofNamespace name)).1.file.disabledWarnings fun code =>
      ∃ edit ∈ edits, edit.warning? = some code := by
  rw [FileEdit.disabledWarnings_performAll edits _ .nil]
  exact Text.enumerates_ascending fun code => List.mem_filterMap

theorem directs_performAll : (FileEdit.performAll edits (.ofNamespace name)).1.Directs edits := by
  have group (kind : Import.Kind) : Enumerates
      (Text.ascending ((FileEdit.performAll edits (.ofNamespace name)).1.preamble.imports.items.filter
        (Import.kind · == kind)))
      fun imported => Import.kind imported = kind ∧ FileEdit.Imports edits imported :=
    Text.enumerates_ascending fun imported => by
      rw [List.mem_filter, ← TextSet.mem_def, mem_imports_performAll, beq_iff_eq, and_comm]
  have attributes : Enumerates
      (FileEdit.performAll edits (.ofNamespace name)).1.preamble.assemblyAttributeLines fun line =>
        ∃ text, .assemblyAttribute text ∈ FileEdit.callsAll edits ∧
          AssemblyAttribute.line? text = some line := by
    rw [FileEdit.preamble_performAll]
    exact Preamble.enumerates_assemblyAttributeLines (FileEdit.callsAll edits)
  exact {
    system := group .system
    plain := group .plain
    aliases := group .alias
    statics := group .static
    pragmas := (enumerates_disabledWarnings name edits).prepend "#pragma warning disable "
    attributes }

variable {edits}

/-- Registrations of one line leave texts of one line. -/
theorem orderly_preamble (calls : ∀ r ∈ FileEdit.callsAll edits, OneLine r.text) :
    ∀ w ∈ (FileEdit.performAll edits (.ofNamespace name)).1.preamble.wording, w.Orderly := by
  refine List.forall_mem_append.mpr
    ⟨List.forall_mem_map.mpr fun imported isImport => ?_,
      List.forall_mem_map.mpr fun text isText => ?_⟩
  · obtain ⟨r, asked, same⟩ := (mem_imports_performAll name edits imported).mp isImport
    exact Registration.oneLine_importOf? (calls r asked) same
  · obtain ⟨r, asked, same⟩ := (mem_attributes_performAll name edits text).mp isText
    exact Registration.oneLine_attributeOf? (calls r asked) same

theorem plainHead_performAll (calls : ∀ r ∈ FileEdit.callsAll edits, OneLine r.text)
    (codes : ∀ edit ∈ edits, ∀ code ∈ edit.warning?, OneLine code) :
    (FileEdit.performAll edits (.ofNamespace name)).1.file.PlainHead
      (FileEdit.performAll edits (.ofNamespace name)).1.preamble := by
  have warnings := (enumerates_disabledWarnings name edits).mem_iff
  refine File.plainHead (List.forall_mem_append.mpr
    ⟨List.forall_mem_map.mpr fun code isCode => ?_, orderly_preamble name calls⟩)
    fun code isCode => ?_
  · obtain ⟨edit, isEdit, disables⟩ := (warnings code).mp isCode
    exact codes edit isEdit code disables
  · obtain ⟨edit, -, disables⟩ := (warnings code).mp isCode
    cases edit with
    | disableWarning given => exact Text.nonBlank?_self disables
    | _ => cases disables

/-- The directives of an edited file are those that its edits ask for, at whatever level. The text of
the file starts with them, in groups with an empty line between them, and orderly texts write no
further import or pragma below. Neither where these edits stand among the others nor how often they
are made changes the text. -/
theorem build_directives (calls : ∀ r ∈ FileEdit.callsAll edits, OneLine r.text)
    (codes : ∀ edit ∈ edits, ∀ code ∈ edit.warning?, OneLine code) :
    let d := (FileEdit.performAll edits (.ofNamespace name)).1
    let imports := (d.preamble.importGroups.system ++ d.preamble.importGroups.plain ++
      d.preamble.importGroups.aliases ++ d.preamble.importGroups.statics).map
        fun imported => s!"using {imported};"
    let pragmas := d.file.disabledWarnings.map fun code => s!"#pragma warning disable {code}"
    d.Directs edits ∧
      (∀ text, d.build = .ok text →
        (∃ head rest, d.file.headOnly.build d.preamble = .ok head ∧ text = head ++ rest ∧
          Text.lines head = Text.spaced [
            d.file.options.nullable.toList.map fun state => s!"#nullable {state.keyword}",
            pragmas, imports, d.preamble.assemblyAttributeLines]) ∧
        ((∀ w ∈ d.file.wording, w.Orderly) →
          (Text.lines text).filter (Text.startsWith "using ") = imports ∧
          (Text.lines text).filter (Text.startsWith "#pragma ") = pragmas)) ∧
      ∀ new, FileEdit.Rearranged edits new →
        (FileEdit.performAll new (.ofNamespace name)).1.build = d.build := by
  intro d imports pragmas
  have plain : d.file.PlainHead d.preamble := plainHead_performAll name calls codes
  refine ⟨directs_performAll name edits, fun text ok => ⟨File.build_head plain ok, ?_⟩,
    fun new rearranged => build_rearranged rearranged name⟩
  intro orderly
  have all : ∀ w ∈ d.file.wording ++ d.preamble.wording, w.Orderly :=
    List.forall_mem_append.mpr ⟨orderly, orderly_preamble name calls⟩
  exact ⟨(File.lines_directives all plain ok (.inl rfl)).trans File.headLines_imports,
    (File.lines_directives all plain ok (.inr rfl)).trans File.headLines_pragmas⟩

/-- A class whose base and one of whose interfaces stand in another namespace, an enum of flags, a
warning that is disabled twice, and an assembly attribute in two spellings. -/
def museumEdits : List FileEdit := [
  .importNamespaces ["using System.Linq;", "static System.Math"],
  .disableWarning "CS1591",
  .addClass "Gallery" [
    .importNamespace "System.Linq",
    .base "Museum.Rooms.Room<int>",
    .addInterfaces ["IOpen", "Museum.Rooms.IRoom"],
    .assemblyAttribute "[CLSCompliant(true)]"],
  .disableWarning "CS0618",
  .addEnum "Wing" [.flags, .addValue "East" (some 1) []],
  .assemblyAttribute "CLSCompliant(true)",
  .disableWarning "CS1591"]

theorem build_directives_museum : ∃ text,
    (FileEdit.performAll museumEdits (.ofNamespace "Museum")).1.build = .ok text ∧
      (Text.lines text).filter (Text.startsWith "using ") = ["using System;", "using System.Linq;",
        "using Museum.Rooms;", "using static System.Math;"] ∧
      (Text.lines text).filter (Text.startsWith "#pragma ") =
        ["#pragma warning disable CS0618", "#pragma warning disable CS1591"] ∧
      (FileEdit.performAll (museumEdits ++ [.disableWarning "CS1591"])
        (.ofNamespace "Museum")).1.build = .ok text := by
  let d := (FileEdit.performAll museumEdits (.ofNamespace "Museum")).1
  have calls : ∀ r ∈ FileEdit.callsAll museumEdits, OneLine r.text := by decide
  have codes : ∀ edit ∈ museumEdits, ∀ code ∈ edit.warning?, OneLine code := by decide
  obtain ⟨-, built, rearranged⟩ := build_directives "Museum" calls codes
  have none : d.file.allProperties = [] := by decide
  obtain ⟨text, ok⟩ := d.file.exists_build (by simp [none]) (by simp [none]) d.preamble
  have orderly : ∀ w ∈ d.file.wording, w.Orderly := by decide
  obtain ⟨imports, pragmas⟩ := (built text ok).2 orderly
  refine ⟨text, ok, imports.trans (by decide +kernel), pragmas.trans (by decide), ?_⟩
  have again : FileEdit.Rearranged museumEdits (museumEdits ++ [.disableWarning "CS1591"]) :=
    .rel _ _ (.later _ (.later _ (.later _ (.later _ (.later _ (.later _ (.again rfl [])))))))
  exact (rearranged _ again).trans ok

end Draft

end CSharpGen

import CSharpGen.Proofs.Declaration.Paragraphs

/-!
# Types as paragraphs

Enums, records and classes with the classes nested in them. The lines of the values of an enum are
put together from several pieces and have a blank line between them.
-/

namespace CSharpGen

open Text (OneLine FormsLine formsLine_of oneLine_append)
open Wording (AllMeet allMeet_append allMeet_cons allMeet_flatMap)
open Script (Passage Paragraph passage_lines passage_nil paragraph_line)

variable {strict : Prop}

/-! ## Enums -/

namespace EnumValue

/-- The line of a value without what separates it from the next one. -/
def entry (v : EnumValue) : String :=
  Text.trimEnd v.name ++ v.number.elim "" fun n => Text.trimEnd s!" = {n}"

/-- Trimming has nothing to do on the line of a value, with or without a comma. -/
theorem trimEnd_entry (v : EnumValue) {mark : String} (h : mark = "" ∨ mark = ",") :
    Text.trimEnd (v.entry ++ mark) = v.entry ++ mark := by
  rcases h with rfl | rfl
  · rw [String.append_empty, entry]
    cases v.number with
    | none => simp only [Option.elim, String.append_empty, Text.trimEnd_idem]
    | some n =>
      have filled : Text.isBlankText (Text.trimEnd s!" = {n}") = false := by
        refine Text.Solid.not_blank (Text.Solid.trimEnd ?_)
        exact Text.solid_append.mpr (.inl (by decide))
      rw [Option.elim, Text.trimEnd_append _ filled, Text.trimEnd_idem]
  · exact Text.trimEnd_append v.entry (by decide)

theorem isBlankText_entry {v : EnumValue} (filled : Text.isBlankText v.name = false)
    (mark : String) : Text.isBlankText (v.entry ++ mark) = false := by
  have name := (Text.isBlankText_trimEnd v.name).trans filled
  exact Text.isBlankText_append (Text.isBlankText_append name _) mark

/-- The pieces of a value make one line. -/
theorem applyAll_entry {v : EnumValue} (filled : Text.isBlankText v.name = false) {mark : String}
    (h : mark = "" ∨ mark = ",") {ending : Op}
    (ends : ∀ w : Writer, w.apply ending = w.appendRaw (mark ++ "\n")) (w : Writer) :
    w.applyAll (.append v.name ::
      ((v.number.toList.map fun n => .appendUnindented s!" = {n}") ++ [ending])) =
      w.lay [{ text := v.entry ++ mark }] := by
  have name (w : Writer) : w.apply (.append v.name) =
      w.appendRaw (w.indentation ++ Text.trimEnd v.name) := by
    rw [Writer.apply, Writer.append_eq, Writer.indented, if_neg (by simp [filled])]
  have number (w : Writer) (s : String) :
      w.apply (.appendUnindented s) = w.appendRaw (Text.trimEnd s) := rfl
  have line : w.lay [{ text := v.entry ++ mark }] =
      w.appendRaw (w.indentation ++ (v.entry ++ mark) ++ "\n") := by
    rw [Writer.lay, Layout.text_cons, Layout.text_nil, String.append_empty, Line.body,
      if_neg (by simp [isBlankText_entry filled]), v.trimEnd_entry h]
    rfl
  rw [line, entry]
  cases v.number with
  | none =>
    simp only [Writer.applyAll, Option.toList, Option.elim, List.map_nil, List.nil_append,
      List.foldl_cons, List.foldl_nil, name, ends, Writer.appendRaw_appendRaw,
      String.append_assoc, String.append_empty]
  | some n =>
    simp only [Writer.applyAll, Option.toList, Option.elim, List.map_cons, List.map_nil,
      List.singleton_append, List.foldl_cons, List.foldl_nil, name, number, ends,
      Writer.appendRaw_appendRaw, String.append_assoc]

/-- A value with the end of its line is written as one line. -/
theorem lays_entry {v : EnumValue} (filled : Text.isBlankText v.name = false) {mark : String}
    (h : mark = "" ∨ mark = ",") {ending : Op}
    (ends : ∀ w : Writer, w.apply ending = w.appendRaw (mark ++ "\n")) :
    Script.Lays (.op (.append v.name) ::
      ((v.number.toList.map fun n => .op (.appendUnindented s!" = {n}")) ++ [.op ending]))
      [{ text := v.entry ++ mark }] := by
  have ops := Script.lays_ops (applyAll_entry filled h ends)
  simpa [Function.comp_def] using ops

/-- A value with a name is a line of its own, with or without a comma. -/
theorem formsLine_entry {v : EnumValue} (h : AllMeet strict v.wording) {mark : String}
    (plain : OneLine mark) : FormsLine strict (v.entry ++ mark) := by
  obtain ⟨orderly, isPlain⟩ := h _ (List.mem_append_left _ List.mem_cons_self)
  have name : FormsLine strict (Text.trimEnd v.name) :=
    ⟨orderly.1.trimEnd, fun demanded =>
      (Text.solid_of_braceFree (isPlain demanded).2.1 orderly.2).trimEnd⟩
  have number : OneLine (v.number.elim "" fun n => Text.trimEnd s!" = {n}") := by
    cases v.number with
    | none => decide
    | some n => exact OneLine.trimEnd (oneLine_append.mpr ⟨by decide, Text.oneLine_int n⟩)
  exact (name.append number).append plain

/-- A value with what ends its line. -/
theorem paragraph {v : EnumValue} (h : AllMeet strict v.wording) {mark : String}
    (isMark : mark = "" ∨ mark = ",") (ending : Op)
    (ends : ∀ w : Writer, w.apply ending = w.appendRaw (mark ++ "\n")) :
    Paragraph strict (v.script ++ [.op ending]) := by
  obtain ⟨⟨label, attributes⟩, documentation⟩ := by
    simpa only [wording, allMeet_append, allMeet_cons] using h
  have head := (passage_lines (Documentation.formsLine_linesWhere documentation
    fun _ => true)).append (passage_lines (Attributes.formsLine_sortedLines attributes))
  have line : FormsLine strict (v.entry ++ mark) :=
    formsLine_entry h (by rcases isMark with rfl | rfl <;> decide)
  have entry : Paragraph strict (.op (.append v.name) ::
      ((v.number.toList.map fun n => .op (.appendUnindented s!" = {n}")) ++ [.op ending])) := by
    refine ⟨[{ text := v.entry ++ mark }], ⟨lays_entry label.1.2 isMark ends, ?_,
      fun demanded => ?_⟩, List.cons_ne_nil _ _⟩
    · exact Layout.oneLine_singleton.mpr line.oneLine
    · exact Layout.neat_of_solid (List.forall_mem_singleton.mpr (line.solid demanded))
  have whole := head.append_paragraph entry
  simpa [EnumValue.script, Documentation.lines] using whole

end EnumValue

namespace Enum

/-- The values of an enum, each two with a blank line between them. -/
theorem paragraph_entries (v : EnumValue) (rest : List EnumValue)
    (all : ∀ value ∈ v :: rest, AllMeet strict value.wording) :
    Paragraph strict (entries (v :: rest)) := by
  induction rest generalizing v with
  | nil =>
    exact EnumValue.paragraph (all v List.mem_cons_self) (.inl rfl) _ fun w => by
      rw [String.empty_append]
      rfl
  | cons next rest ih =>
    obtain ⟨first, others⟩ := List.forall_mem_cons.mp all
    obtain ⟨before, forms, filled⟩ := EnumValue.paragraph first (.inr rfl)
      (.appendUnindentedLine ",") fun w => by
        rw [Writer.apply, Writer.appendUnindentedLine_eq]
        rfl
    obtain ⟨after, alsoForms, alsoFilled⟩ := ih next others
    have lays := (forms.lays.append Script.lays_newLine).append alsoForms.lays
    refine ⟨before ++ .blank :: after, ⟨?_, ?_, fun demanded => ?_⟩, by simp⟩
    · simpa [entries] using lays
    · refine Layout.oneLine_append.mpr ⟨forms.oneLine, List.forall_mem_cons.mpr ?_⟩
      exact ⟨by decide, alsoForms.oneLine⟩
    · exact (forms.neat demanded).appendBlank filled (alsoForms.neat demanded) alsoFilled

theorem formsLine_declaration {e : Enum} (name : OneLine e.name)
    (underlying : AllMeet strict (e.underlying.toList.map .text)) :
    FormsLine strict e.declaration := by
  have access := Declaration.oneLine_keywordsOf e.access
  have keyword : OneLine "enum" := by decide
  have base : OneLine ((e.underlying.bind Text.nonBlank?).elim "" (": " ++ ·)) := by
    cases written : e.underlying.bind Text.nonBlank? with
    | none => decide
    | some type =>
      obtain ⟨given, isGiven, trimmed⟩ := Option.bind_eq_some_iff.mp written
      obtain ⟨rfl, -⟩ := Text.nonBlank?_eq_some trimmed
      exact oneLine_append.mpr ⟨by decide, (underlying.option given isGiven).trim⟩
  refine Declaration.formsLine_words ?_ "enum" (by simp) fun _ => by decide
  simpa using ⟨access, keyword, name, base⟩

/-- The values of an enum are a passage between its braces. -/
theorem passage_entries {e : Enum} (h : AllMeet strict (e.values.flatMap EnumValue.wording)) :
    Passage strict (entries e.sortedValues) := by
  have all : ∀ v ∈ e.sortedValues, AllMeet strict v.wording := fun v member =>
    allMeet_flatMap.mp h v ((List.mergeSort_perm _ _).mem_iff.mp member)
  cases sorted : e.sortedValues with
  | nil => exact passage_nil
  | cons v rest =>
    rw [sorted] at all
    exact (paragraph_entries v rest all).passage

/-- An enum, or a record, is a paragraph whose outermost lines are no directives. -/
theorem declares {e : Enum} (h : AllMeet strict e.wording) : Script.Declares strict e.script := by
  simp only [wording, allMeet_append, allMeet_cons, and_assoc] at h
  obtain ⟨name, -, underlying, attributes, documentation, values⟩ := h
  have plain : Text.NoDirective e.declaration :=
    Declaration.noDirective_words [_] (List.forall_mem_cons.mpr
      ⟨Declaration.noDirective_keywordsOf e.access, List.forall_mem_singleton.mpr (by decide)⟩)
      (by decide)
  have block := (passage_entries values).declares_block (formsLine_declaration name underlying) plain
    (List.forall_mem_nil _)
  exact block.below_head (Documentation.formsLine_linesWhere documentation fun _ => true)
    (e.documentation.noDirective_linesWhere _) (Attributes.formsLine_sortedLines attributes)
    e.attributes.noDirective_sortedLines

end Enum

/-! ## Records -/

namespace RecordProperty

variable {p : RecordProperty}

/-- A positional property of a record is part of the line of the record. -/
theorem oneLine_positional (h : AllMeet strict p.wording) : OneLine p.positional := by
  obtain ⟨ofType, h⟩ := allMeet_cons.mp h
  obtain ⟨ofName, default⟩ := allMeet_cons.mp h
  have declared : OneLine s!"{p.type} {p.name}" :=
    oneLine_append.mpr ⟨oneLine_append.mpr ⟨ofType.1, by decide⟩, ofName.1⟩
  unfold positional
  split
  · next value given =>
    exact oneLine_append.mpr ⟨oneLine_append.mpr ⟨declared, by decide⟩, default.option value given⟩
  · exact declared

theorem formsLine_initOnly (h : AllMeet strict p.wording) : FormsLine strict p.initOnly := by
  obtain ⟨ofType, h⟩ := allMeet_cons.mp h
  obtain ⟨ofName, default⟩ := allMeet_cons.mp h
  have declared : FormsLine strict (Declaration.words
      [Access.keywordsOf p.access, p.type, p.name, "\x7b get; init; \x7d"]) := by
    have access := Declaration.oneLine_keywordsOf p.access
    have type : OneLine p.type := ofType.1
    have name : OneLine p.name := ofName.1
    have accessors : OneLine "\x7b get; init; \x7d" := by decide
    refine Declaration.formsLine_words ?_ "\x7b get; init; \x7d" (by simp)
      fun _ => by decide
    simpa using ⟨access, type, name, accessors⟩
  unfold initOnly
  split
  · next value given =>
    exact ((declared.append (by decide)).append (default.option value given)).append (by decide)
  · exact declared

end RecordProperty

namespace Record

theorem formsLine_declaration {r : Record} (name : OneLine r.name) :
    FormsLine strict r.declaration := by
  have access := Declaration.oneLine_keywordsOf r.access
  have «sealed» : OneLine (Declaration.wordIf r.isSealed "sealed") :=
    Declaration.oneLine_wordIf r.isSealed (by decide)
  have keyword : OneLine "record" := by decide
  refine Declaration.formsLine_words ?_ "record" (by simp) fun _ => by decide
  simpa using ⟨access, «sealed», keyword, name⟩

theorem noDirective_declaration (r : Record) : Text.NoDirective r.declaration :=
  Declaration.noDirective_words [_, _] (List.forall_mem_cons.mpr
    ⟨Declaration.noDirective_keywordsOf r.access, List.forall_mem_cons.mpr
      ⟨Declaration.noDirective_wordIf r.isSealed (by decide),
        List.forall_mem_singleton.mpr (by decide)⟩⟩) (by decide)

theorem declares {r : Record} (h : AllMeet strict r.wording) : Script.Declares strict r.script := by
  simp only [wording, allMeet_append, allMeet_cons, and_assoc] at h
  obtain ⟨name, -, properties, warning, attributes, documentation⟩ := h
  have property := allMeet_flatMap.mp properties
  have declaration : FormsLine strict r.declaration := formsLine_declaration name
  have plain := r.noDirective_declaration
  rw [script, Declaration.warning_eq, List.append_assoc, List.append_assoc]
  refine ((Script.Declares.below_lines ?_ (Attributes.formsLine_sortedLines attributes)
    r.attributes.noDirective_sortedLines).below_lines
      (Declaration.formsLine_warningLines warning) (Declaration.noDirective_warningLines _)).below_lines
        (Documentation.formsLine_linesWhere documentation fun _ => true)
        (r.documentation.noDirective_linesWhere _)
  split
  · have parameters : ∀ text ∈ r.properties.map RecordProperty.positional, OneLine text :=
      List.forall_mem_map.mpr fun p member => RecordProperty.oneLine_positional (property p member)
    exact Script.declares_line (((declaration.append (by decide)).append
      (Text.oneLine_commaSeparated parameters)).append (by decide))
      (((plain.append "(").append _).append ");")
  · have lines : ∀ text ∈ r.properties.map RecordProperty.initOnly, FormsLine strict text :=
      List.forall_mem_map.mpr fun p member => RecordProperty.formsLine_initOnly (property p member)
    exact (passage_lines lines).declares_block declaration plain (List.forall_mem_nil _)

end Record

/-! ## Classes -/

namespace ClassCore

variable {c : ClassCore}

/-- What a class inherits has no line end in it. -/
theorem oneLine_inherited (base : AllMeet strict (c.base.toList.map .text))
    (interfaces : AllMeet strict (c.interfaces.map .text)) : ∀ type ∈ c.inherited, OneLine type := by
  intro type member
  rcases List.mem_append.mp member with isBase | isInterface
  · obtain ⟨given, isGiven, trimmed⟩ := Option.bind_eq_some_iff.mp (Option.mem_toList.mp isBase)
    obtain ⟨rfl, -⟩ := Text.nonBlank?_eq_some trimmed
    exact (base.option given isGiven).trim
  · obtain ⟨given, isGiven, trimmed⟩ := List.mem_filterMap.mp (Text.mem_ascending.mp isInterface)
    obtain ⟨rfl, -⟩ := Text.nonBlank?_eq_some trimmed
    exact (interfaces.texts given isGiven).trim

theorem formsLine_declaration (name : OneLine c.name)
    (base : AllMeet strict (c.base.toList.map .text))
    (interfaces : AllMeet strict (c.interfaces.map .text))
    (generics : AllMeet strict c.generics.wording) : FormsLine strict c.declaration := by
  have wordIf (condition : Bool) {word : String} (h : OneLine word) :=
    Declaration.oneLine_wordIf condition h
  have access := Declaration.oneLine_keywordsOf c.access
  have keyword : FormsLine strict c.kind.keyword := by
    cases c.kind <;> exact formsLine_of (by decide)
  have named : OneLine (c.name ++ c.generics.suffix) :=
    oneLine_append.mpr ⟨name, Generics.oneLine_suffix generics⟩
  have after : OneLine (": " ++ ", ".intercalate c.inherited) := oneLine_append.mpr
    ⟨by decide, Text.oneLine_commaSeparated (oneLine_inherited base interfaces)⟩
  refine Declaration.formsLine_words ?_ c.kind.keyword (by simp) keyword.solid
  simp only [List.forall_mem_cons]
  exact ⟨access, wordIf _ (by decide), wordIf _ (by decide), wordIf _ (by decide),
    wordIf _ (by decide), keyword.oneLine, named, wordIf _ after, List.forall_mem_nil _⟩

theorem noDirective_declaration (c : ClassCore) : Text.NoDirective c.declaration := by
  have wordIf (condition : Bool) {word : String}
      (h : ∀ written, Text.nonBlank? word = some written → Text.NoDirective written) :=
    Declaration.noDirective_wordIf condition h
  refine Declaration.noDirective_words [_, _, _, _, _] ?_ (by cases c.kind <;> decide)
  simp only [List.cons_append, List.nil_append, List.forall_mem_cons]
  exact ⟨Declaration.noDirective_keywordsOf c.access, wordIf _ (by decide), wordIf _ (by decide),
    wordIf _ (by decide), wordIf _ (by decide), by cases c.kind <;> decide, List.forall_mem_nil _⟩

/-- A class without its nested classes, when those are paragraphs. -/
theorem declares (h : AllMeet strict c.wording) {nested : Except Error (List Script)}
    {script : Script} (ok : c.scriptWith nested = .ok script)
    (below : ∀ scripts, nested = .ok scripts → ∀ inner ∈ scripts, Paragraph strict inner) :
    Script.Declares strict script := by
  obtain ⟨g, okInstance, okStatic, okReadonly, okFields, okProperties, okNested, rfl⟩ :=
    scriptWith_ok ok
  simp only [wording, allMeet_append, allMeet_cons, and_assoc] at h
  obtain ⟨name, -, base, interfaces, generics, attributes, documentation, delegates, events,
    properties, constructors, methods⟩ := h
  have property {ps : List Property} {scripts : List Script}
      (ok : ps.mapM Property.script = .ok scripts) (own : ∀ p ∈ ps, p ∈ c.properties) :
      ∀ inner ∈ scripts, Paragraph strict inner := by
    intro inner isScript
    obtain ⟨p, member, written⟩ := exists_of_mapM_ok ok inner isScript
    exact Property.paragraph (allMeet_flatMap.mp properties p (own p member)) written
  have isOwn {kind : PropertyKind} : ∀ p ∈ c.propertiesOf kind, p ∈ c.properties := fun p member =>
    PropertyOrder.mem_sort.mp (List.mem_filter.mp member).1
  have groups : ∀ group ∈ g.all c, ∀ inner ∈ group.2, Paragraph strict inner := by
    simp only [Groups.all, List.forall_mem_cons]
    refine ⟨?_, ?_, property okInstance ?_, property okStatic ?_, property okReadonly isOwn,
      property okFields isOwn, ?_, property okProperties isOwn, ?_, below _ okNested,
      List.forall_mem_nil _⟩
    · exact List.forall_mem_map.mpr fun d member =>
        (Delegate.declares (allMeet_flatMap.mp delegates d member)).paragraph
    · exact List.forall_mem_map.mpr fun e member =>
        Event.paragraph (allMeet_flatMap.mp events e member)
    · exact fun p member => isOwn p (List.mem_filter.mp member).1
    · exact fun p member => isOwn p (List.mem_filter.mp member).1
    · exact List.forall_mem_map.mpr fun k member => Constructor.paragraph
        (allMeet_flatMap.mp constructors k ((List.mergeSort_perm _ _).mem_iff.mp member))
    · exact List.forall_mem_map.mpr fun m member => Method.paragraph
        (allMeet_flatMap.mp methods m ((List.mergeSort_perm _ _).mem_iff.mp member))
  have members : Passage strict
      [.sections ((g.all c).map fun group => .ofScripts group.1 group.2)] :=
    Script.passage_sections (List.forall_mem_map.mpr fun group isGroup =>
      Group.enters_ofScripts group.1 (groups group isGroup))
  have block := members.declares_block (formsLine_declaration name base interfaces generics)
    c.noDirective_declaration (Generics.formsLine_whereClauses generics)
  exact block.below_head (Documentation.formsLine_linesWhere documentation fun _ => true)
    (c.documentation.noDirective_linesWhere _) (Attributes.formsLine_sortedLines attributes)
    c.attributes.noDirective_sortedLines

end ClassCore

mutual

/-- A class is a paragraph, with its nested classes as paragraphs inside. -/
theorem Class.declares : (c : Class) → AllMeet strict c.wording → ∀ {script : Script},
    c.script = .ok script → script.Declares strict
  | ⟨core, nested⟩, h, _, ok =>
    have both := allMeet_append.mp h
    core.declares both.1 ok fun _ okNested => Class.paragraphs nested both.2 okNested

theorem Class.paragraphs : (cs : List Class) → AllMeet strict (Class.wordingAll cs) →
    ∀ {scripts : List Script}, Class.scripts cs = .ok scripts →
      ∀ inner ∈ scripts, Paragraph strict inner
  | [], _, _, ok => by
    cases ok
    exact List.forall_mem_nil _
  | c :: rest, h, _, ok => by
    obtain ⟨first, others⟩ := allMeet_append.mp h
    obtain ⟨script, okFirst, ok⟩ := bind_eq_ok.mp ok
    obtain ⟨scripts, okRest, ok⟩ := bind_eq_ok.mp ok
    cases ok
    exact List.forall_mem_cons.mpr
      ⟨(c.declares first okFirst).paragraph, Class.paragraphs rest others okRest⟩

end

/-- Whatever its kind, a type that can be written is a paragraph whose outermost lines are no
directives. -/
theorem TypeDeclaration.declares {t : TypeDeclaration} (h : AllMeet strict t.wording)
    {script : Script} (ok : t.script = .ok script) : script.Declares strict := by
  cases t with
  | «class» c => exact c.declares h ok
  | enum e =>
    cases ok
    exact e.declares h
  | record r =>
    cases ok
    exact r.declares h
  | delegate d =>
    cases ok
    exact d.declares h

end CSharpGen

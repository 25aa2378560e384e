import CSharpGen.Proofs.File.BlankLines

/-!
# The three namespace forms

A file has its types in the global namespace, below a namespace line or in a namespace block. The
types come out the same in all three, and in a block one level further in
(`File.build_namespace`).
-/

namespace CSharpGen

open Text (OneLine FormsLine formsLine_of)
open Wording (AllMeet allMeet_append allMeet_of_orderly)

variable {strict : Prop}

/-! ## One more group -/

namespace Sections

variable {α : Type}

theorem marked_append (hadOutput : Bool) (before after : List (Spacing × List α)) :
    marked hadOutput (before ++ after) = marked hadOutput before ++
      marked (hadOutput || before.any fun group => !group.2.isEmpty) after := by
  induction before generalizing hadOutput with
  | nil => simp [marked]
  | cons group rest ih =>
    obtain ⟨spacing, items⟩ := group
    rw [List.cons_append, marked, marked, ih, List.append_assoc, List.any_cons, Bool.or_assoc]

/-- After the first item of a group the earlier groups do not matter. -/
theorem markedItems_congr (spacing : Spacing) (hadOutput hadOutput' : Bool) (items : List α) :
    markedItems spacing hadOutput true items = markedItems spacing hadOutput' true items := by
  induction items with
  | nil => rfl
  | cons item rest ih => exact congrArg ((spacing == .spaced, item) :: ·) ih

end Sections

namespace Layout

theorem ofGroups_singleton (spacing : Spacing) (ls : Layout) : ofGroups [(spacing, [ls])] = ls := by
  simp [ofGroups, separated, Sections.marked, Sections.markedItems, Sections.separates]

/-- Groups of layouts with lines have lines when there are any layouts. -/
theorem ofGroups_eq_nil_iff {groups : List (Spacing × List Layout)}
    (filled : ∀ group ∈ groups, ∀ ls ∈ group.2, ls ≠ []) :
    ofGroups groups = [] ↔ (groups.any fun group => !group.2.isEmpty) = false := by
  have none : ofGroups groups = [] ↔ Sections.marked false groups = [] := by
    have parts := Sections.forall_mem_marked filled false
    rw [ofGroups]
    cases marks : Sections.marked false groups with
    | nil => simp [separated]
    | cons part rest =>
      rw [marks] at parts
      have first := parts part List.mem_cons_self
      obtain ⟨gap, ls⟩ := part
      cases gap <;> simp_all [separated]
  have empty : Sections.marked false groups = [] ↔ groups.flatMap (·.2) = [] := by
    rw [← Sections.marked_map_snd false groups, List.map_eq_nil_iff]
  rw [none, empty, List.flatMap_eq_nil_iff]
  simp

/-- Lines below others, with a blank line between them when there are lines on both sides. -/
def below (above ls : Layout) : Layout :=
  if above = [] ∨ ls = [] then above ++ ls else above ++ .blank :: ls

/-- One more group comes below the groups before it. -/
theorem ofGroups_concat {groups : List (Spacing × List Layout)} {last : Spacing × List Layout}
    (filled : ∀ group ∈ groups ++ [last], ∀ ls ∈ group.2, ls ≠ []) :
    ofGroups (groups ++ [last]) = below (ofGroups groups) (ofGroups [last]) := by
  obtain ⟨before, alsoFilled⟩ := List.forall_mem_append.mp filled
  obtain ⟨spacing, items⟩ := last
  have split : ofGroups (groups ++ [(spacing, items)]) = ofGroups groups ++ separated
      (Sections.marked (groups.any fun group => !group.2.isEmpty) [(spacing, items)]) := by
    rw [ofGroups, Sections.marked_append, separated_append, Bool.false_or, ofGroups]
  rw [split, below]
  cases items with
  | nil => simp [ofGroups, Sections.marked, Sections.markedItems, separated]
  | cons item rest =>
    cases any : groups.any fun group => !group.2.isEmpty with
    | false => rw [if_pos (.inl ((ofGroups_eq_nil_iff before).mpr any)), ofGroups, ofGroups]
    | true =>
      have lines : ¬(ofGroups groups = [] ∨ ofGroups [(spacing, item :: rest)] = []) := by
        rw [ofGroups_eq_nil_iff before, ofGroups_eq_nil_iff alsoFilled, any]
        simp
      have tail := Sections.markedItems_congr spacing true false rest
      rw [if_neg lines]
      simp [ofGroups, separated, Sections.marked, Sections.markedItems, Sections.separates, tail]

/-- The text of a block without continuation lines. -/
theorem text_block {style : Indent} {base : Nat} {header : String}
    (filled : Text.isBlankText header = false) (inner : Layout) :
    text style base (block header [] inner) =
      style.levels base ++ Text.trimEnd header ++ "\n" ++ (style.levels base ++ "\x7b\n") ++
        text style (base + 1) inner ++ (style.levels base ++ "\x7d\n") := by
  have head : heads [header] = [{ text := header }] := by simp [heads, filled]
  have line : Line.body style base { text := header } = style.levels base ++ Text.trimEnd header := by
    rw [Line.body, if_neg (by simp [filled])]
    rfl
  have braces : text style base [.opening] = style.levels base ++ "\x7b\n" ∧
      text style base [.closing] = style.levels base ++ "\x7d\n" :=
    ⟨text_brace (.inl rfl), text_brace (.inr rfl)⟩
  have opened : Line.opening :: inner.deeper = [Line.opening] ++ inner.deeper := rfl
  rw [block, head, opened]
  simp only [text_append, text_deeper, braces.1, braces.2, text_cons, text_nil, line, heads,
    List.filter_nil, List.map_nil, String.append_empty, String.append_assoc]

end Layout

/-- A text below another one, with a blank line between them when there is something on both
sides. -/
def Text.below (above text : String) : String :=
  if above = "" ∨ text = "" then above ++ text else above ++ "\n" ++ text

theorem Layout.text_below (style : Indent) (base : Nat) (above ls : Layout) :
    text style base (above.below ls) = Text.below (text style base above) (text style base ls) := by
  unfold Text.below below
  simp only [text_eq_empty_iff]
  split
  · exact text_append above ls
  · have blank : Line.body style base .blank = "" := rfl
    rw [text_append, text_cons, blank, String.empty_append, String.append_assoc]

namespace File

/-- The head of a file without its types. -/
def headOnly (f : File) : File := { f with namespaceName := none, types := [] }

/-- The types of a file in the global namespace, without its head. -/
def typesOnly (f : File) : File :=
  { f with
    namespaceName := none
    disabledWarnings := []
    options := { f.options with nullable := none } }

/-- The file with another declaration of its namespace. -/
def declared (f : File) (style : NamespaceStyle) : File :=
  { f with options := { f.options with namespaceStyle := style } }

variable {f : File} {p : Preamble} {scripts : List Script}
  {head : List (Spacing × List (Entry strict))} {types : List (Entry strict)}

/-- A file whose groups are entered is the text of their layout. -/
theorem build_of_entered (ok : f.types.mapM TypeDeclaration.script = .ok scripts)
    {entered : List (Spacing × List (Entry strict))}
    (same : entered.map Entry.group = f.preambleGroups p ++ f.typeGroups scripts) :
    f.build p = .ok (Layout.text f.options.indent 0 (.ofGroups (entered.map Entry.layouts))) := by
  have script : f.script p = .ok [.sections (entered.map Entry.group)] := by
    rw [File.script, ok, same]
    rfl
  rw [build, script, ← (Entry.forms_sections entered).lays.render_eq]
  rfl

/-- The layout of one more group of entries. -/
theorem ofGroups_layouts (entered : List (Spacing × List (Entry strict)))
    (last : Spacing × List (Entry strict)) :
    Layout.ofGroups ((entered ++ [last]).map Entry.layouts) =
      (Layout.ofGroups (entered.map Entry.layouts)).below (.ofGroups [Entry.layouts last]) := by
  have filled := Entry.filled_layouts (entered ++ [last])
  rw [List.map_append, List.map_singleton] at filled ⊢
  exact Layout.ofGroups_concat filled

theorem build_headOnly (isHead : head.map Entry.group = f.preambleGroups p) :
    f.headOnly.build p =
      .ok (Layout.text f.options.indent 0 (.ofGroups (head.map Entry.layouts))) := by
  have same : (head ++ [(Spacing.spaced, [])]).map Entry.group =
      f.headOnly.preambleGroups p ++ f.headOnly.typeGroups [] := by
    rw [List.map_append, isHead]
    rfl
  have noTypes : f.headOnly.types.mapM TypeDeclaration.script = .ok [] := rfl
  rw [build_of_entered noTypes same, ofGroups_layouts]
  have none : Layout.ofGroups [Entry.layouts (Spacing.spaced, ([] : List (Entry strict)))] = [] := rfl
  rw [none, Layout.below, if_pos (.inr rfl), List.append_nil]
  rfl

theorem build_typesOnly (ok : f.types.mapM TypeDeclaration.script = .ok scripts)
    (isTypes : types.map Entry.item = scripts.map .steps) :
    f.typesOnly.build {} =
      .ok (Layout.text f.options.indent 0 (.ofGroups [Entry.layouts (.spaced, types)])) := by
  let none : Spacing × List (Entry strict) := (.close, [])
  have same : [none, none, none, none, (.spaced, types)].map Entry.group =
      f.typesOnly.preambleGroups {} ++ f.typesOnly.typeGroups scripts := by
    have group : Entry.group (.spaced, types) = .ofScripts .spaced scripts :=
      congrArg (Group.mk .spaced) isTypes
    simp only [List.map_cons, List.map_nil, group]
    rfl
  exact build_of_entered (f := f.typesOnly) ok same

theorem build_fileScoped (ok : f.types.mapM TypeDeclaration.script = .ok scripts)
    (isHead : head.map Entry.group = f.preambleGroups p)
    (isTypes : types.map Entry.item = scripts.map .steps) {name : String}
    (isNamed : f.namespaceName = some name) (one : OneLine name) :
    (f.declared .fileScoped).build p = .ok (Text.below
      (Text.below (Layout.text f.options.indent 0 (.ofGroups (head.map Entry.layouts)))
        s!"namespace {name};\n")
      (Layout.text f.options.indent 0 (.ofGroups [Entry.layouts (.spaced, types)]))) := by
  have line : FormsLine strict s!"namespace {name};" :=
    ((formsLine_of (by decide)).append one).append (by decide)
  let statement : Spacing × List (Entry strict) := (.close, [.ofLine line])
  have same : (head ++ [statement] ++ [(Spacing.spaced, types)]).map Entry.group =
      (f.declared .fileScoped).preambleGroups p ++ (f.declared .fileScoped).typeGroups scripts := by
    have group : Entry.group (Spacing.spaced, types) = .ofScripts .spaced scripts :=
      congrArg (Group.mk .spaced) isTypes
    have groups : (f.declared .fileScoped).typeGroups scripts =
        [.ofLines [s!"namespace {name};"], .ofScripts .spaced scripts] := by
      simp only [typeGroups, declared, isNamed]
    rw [groups, List.map_append, List.map_append, isHead, List.map_singleton, List.map_singleton,
      group, List.append_assoc]
    rfl
  have written : Layout.text f.options.indent 0 (.ofGroups [Entry.layouts statement]) =
      s!"namespace {name};\n" := by
    have filled : Text.isBlankText s!"namespace {name};" = false :=
      Text.isBlankText_append (Text.isBlankText_append (by decide) name) ";"
    have untouched : Text.trimEnd s!"namespace {name};" = s!"namespace {name};" :=
      Text.trimEnd_append _ (by decide)
    have layout : Layout.ofGroups [Entry.layouts statement] = [{ text := s!"namespace {name};" }] :=
      Layout.ofGroups_singleton _ _
    have ending : s!"namespace {name};" ++ "\n" = s!"namespace {name};\n" := String.append_assoc
    rw [layout, Layout.text_cons, Layout.text_nil, Line.body, if_neg (Bool.eq_false_iff.mp filled),
      untouched, String.append_empty, ← ending]
    exact congrArg (· ++ "\n") String.empty_append
  rw [build_of_entered (f := f.declared .fileScoped) ok same, ofGroups_layouts, ofGroups_layouts,
    Layout.text_below, Layout.text_below]
  change Except.ok (Text.below (Text.below _ (Layout.text f.options.indent 0 _)) _) = _
  rw [written]
  rfl

theorem build_block (ok : f.types.mapM TypeDeclaration.script = .ok scripts)
    (isHead : head.map Entry.group = f.preambleGroups p)
    (isTypes : types.map Entry.item = scripts.map .steps) {name : String}
    (isNamed : f.namespaceName = some name) (trimmed : Text.nonBlank? name = some name)
    (one : OneLine name) :
    (f.declared .block).build p = .ok (Text.below
      (Layout.text f.options.indent 0 (.ofGroups (head.map Entry.layouts)))
      (s!"namespace {name}\n\x7b\n" ++ Text.indentLines f.options.indent.unit
        (Layout.text f.options.indent 0 (.ofGroups [Entry.layouts (.spaced, types)])) ++
        "\x7d\n")) := by
  have line : FormsLine strict s!"namespace {name}" := (formsLine_of (by decide)).append one
  let inner := Layout.ofGroups [Entry.layouts (Spacing.spaced, types)]
  have forms : Script.Forms strict [.sections [.ofScripts .spaced scripts]] inner := by
    have group : Entry.group (Spacing.spaced, types) = .ofScripts .spaced scripts :=
      congrArg (Group.mk .spaced) isTypes
    have sections := Entry.forms_sections [(Spacing.spaced, types)]
    rwa [List.map_singleton, group] at sections
  let entry : Entry strict :=
    .ofScript (forms.block line (List.forall_mem_nil _)) (Layout.block_ne_nil _ _ _)
  have same : (head ++ [(Spacing.close, [entry])]).map Entry.group =
      (f.declared .block).preambleGroups p ++ (f.declared .block).typeGroups scripts := by
    have groups : (f.declared .block).typeGroups scripts =
        [.ofScripts .close [[.block s!"namespace {name}" [] [.sections [.ofScripts .spaced scripts]]]]] := by
      simp only [typeGroups, declared, isNamed]
    rw [groups, List.map_append, isHead]
    rfl
  have written : Layout.text f.options.indent 0
      (.ofGroups [Entry.layouts (Spacing.close, [entry])]) =
      s!"namespace {name}\n\x7b\n" ++ Text.indentLines f.options.indent.unit
        (Layout.text f.options.indent 0 inner) ++ "\x7d\n" := by
    have layout : Layout.ofGroups [Entry.layouts (Spacing.close, [entry])] =
        .block s!"namespace {name}" [] inner := Layout.ofGroups_singleton _ _
    have filled : Text.isBlankText s!"namespace {name}" = false :=
      Text.isBlankText_append (by decide) name
    have untouched : Text.trimEnd s!"namespace {name}" = s!"namespace {name}" := by
      obtain ⟨same, alsoFilled⟩ := Text.nonBlank?_eq_some trimmed
      have plain : Text.trimEnd name = name := by rw [same, Text.trimEnd_trim]
      exact (Text.trimEnd_append "namespace " alsoFilled).trans (congrArg ("namespace " ++ ·) plain)
    have opening : s!"namespace {name}" ++ "\n" ++ "\x7b\n" = s!"namespace {name}\n\x7b\n" :=
      String.append_assoc
    have levels (s : String) : f.options.indent.levels 0 ++ s = s := String.empty_append
    rw [layout, Layout.text_block filled, untouched, Layout.text_indent forms.oneLine, levels,
      levels, levels, opening]
  rw [build_of_entered (f := f.declared .block) ok same, ofGroups_layouts, Layout.text_below]
  change Except.ok (Text.below _ (Layout.text f.options.indent 0 _)) = _
  rw [written]
  rfl

/-- The text below a namespace line is that of the types in the global namespace, and in a namespace
block it is one level further in. Neither form changes the text above. Each type leaves the depth and
the extra indent of its writer alone. -/
theorem build_namespace {name text : String} (isNamed : f.namespaceName = some name)
    (trimmed : Text.nonBlank? name = some name)
    (orderly : ∀ w ∈ f.wording ++ p.wording, w.Orderly) (ok : f.build p = .ok text) :
    (∃ above below, f.headOnly.build p = .ok above ∧ f.typesOnly.build {} = .ok below ∧
      (below = "" ↔ f.types = []) ∧
      (f.declared .fileScoped).build p =
        .ok (Text.below (Text.below above s!"namespace {name};\n") below) ∧
      (f.declared .block).build p = .ok (Text.below above
        (s!"namespace {name}\n\x7b\n" ++ Text.indentLines f.options.indent.unit below ++
          "\x7d\n"))) ∧
    ∀ t ∈ f.types, ∀ script, t.script = .ok script → ∀ w : Writer,
      (script.write w).depth = w.depth ∧ (script.write w).extraIndent = w.extraIndent := by
  obtain ⟨own, registered⟩ := allMeet_append.mp (allMeet_of_orderly orderly)
  obtain ⟨⟨ofName, warnings⟩, ofTypes⟩ := by simpa only [wording, allMeet_append] using own
  have one : OneLine name := ofName.option name isNamed
  obtain ⟨script, okScript, -⟩ := build_ok ok
  obtain ⟨scripts, okTypes, -⟩ := bind_eq_ok.mp okScript
  obtain ⟨head, isHead⟩ := exists_entered_preambleGroups warnings registered
  obtain ⟨types, isTypes⟩ := Entry.exists_ofScripts (paragraphs_types ofTypes okTypes)
  refine ⟨⟨_, _, build_headOnly isHead, build_typesOnly okTypes isTypes, ?_,
    build_fileScoped okTypes isHead isTypes isNamed one,
    build_block okTypes isHead isTypes isNamed trimmed one⟩, ?_⟩
  · have filled := Entry.filled_layouts [(Spacing.spaced, types)]
    rw [List.map_singleton] at filled
    have sameItems : types = [] ↔ scripts = [] := by
      rw [← List.map_eq_nil_iff (f := Entry.item), isTypes, List.map_eq_nil_iff]
    rw [Layout.text_eq_empty_iff, Layout.ofGroups_eq_nil_iff filled, ← mapM_ok_eq_nil_iff okTypes,
      ← sameItems]
    simp [Entry.layouts]
  · intro t member script okScript w
    obtain ⟨ls, forms, -⟩ := t.declares (Wording.allMeet_flatMap.mp ofTypes t member) okScript
    exact forms.lays.write_depth w

/-- A class with a value of three lines and a method with a conditional, and an enum. -/
def museum : File where
  namespaceName := some "Museum"
  options := { indent := .tabs }
  disabledWarnings := ["CS0618"]
  types := [
    .class {
      name := "Gallery"
      properties := [{
        name := "Names", type := some "string[]", kind := .field
        value := some (.literal "[\n  \"East\"\n]") }]
      methods := [{
        name := "Open", body := some [.conditional "locked" [.line "Unlock();"] [] none] }] },
    .enum { name := "Wing", values := [{ name := "East", number := some 1 }, { name := "West" }] }]

theorem build_namespace_museum : ∃ above below,
    museum.headOnly.build {} = .ok above ∧ museum.typesOnly.build {} = .ok below ∧
      (museum.declared .fileScoped).build {} =
        .ok (Text.below (Text.below above "namespace Museum;\n") below) ∧
      (museum.declared .block).build {} = .ok (Text.below above
        ("namespace Museum\n\x7b\n" ++ Text.indentLines "\t" below ++ "\x7d\n")) := by
  have orderly : ∀ w ∈ museum.wording ++ Preamble.wording {}, w.Orderly := by decide
  have valued : ∀ p ∈ museum.allProperties, p.Valued := by
    simp [museum, allProperties, TypeDeclaration.collect, Class.collect, Class.collectAll,
      Property.Valued]
  obtain ⟨text, ok⟩ := museum.exists_build valued (by decide) {}
  obtain ⟨⟨above, below, isAbove, isBelow, -, fileScoped, block⟩, -⟩ :=
    build_namespace rfl (by decide) orderly ok
  exact ⟨above, below, isAbove, isBelow, fileScoped, block⟩

end File

end CSharpGen

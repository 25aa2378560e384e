import CSharpGen.Proofs.Script.Bodies
import CSharpGen.Proofs.Script.Neat

/-!
# Passages

A passage is a script that writes complete lines, and under the condition `strict` its layout is
neat. A paragraph has at least one line, so that groups of paragraphs can be separated by blank
lines. Declarations are put together from these.
-/

namespace CSharpGen

variable {strict : Prop}

/-- A text that makes one line, which under `strict` is neither blank nor the line of a brace. -/
structure Text.FormsLine (strict : Prop) (s : String) : Prop where
  oneLine : OneLine s
  solid : strict → Solid s

namespace Script

/-- A script writes the lines `ls`, and no text breaks one of them. -/
structure Forms (strict : Prop) (script : Script) (ls : Layout) : Prop where
  lays : script.Lays ls
  oneLine : ls.OneLine
  neat : strict → ls.Neat

def Passage (strict : Prop) (script : Script) : Prop := ∃ ls, Forms strict script ls

def Paragraph (strict : Prop) (script : Script) : Prop :=
  ∃ ls, Forms strict script ls ∧ ls ≠ []

variable {script first second : Script} {ls before after : Layout}

theorem Paragraph.passage (h : Paragraph strict script) : Passage strict script :=
  h.imp fun _ => And.left

theorem Forms.append (h : Forms strict first before) (alsoForms : Forms strict second after) :
    Forms strict (first ++ second) (before ++ after) where
  lays := h.lays.append alsoForms.lays
  oneLine := Layout.oneLine_append.mpr ⟨h.oneLine, alsoForms.oneLine⟩
  neat demanded := (h.neat demanded).append (alsoForms.neat demanded)

theorem passage_nil : Passage strict [] :=
  ⟨[], lays_nil, Layout.oneLine_nil, fun _ => Layout.neat_nil⟩

theorem Passage.append (h : Passage strict first) (alsoPassage : Passage strict second) :
    Passage strict (first ++ second) := by
  obtain ⟨before, forms⟩ := h
  obtain ⟨after, alsoForms⟩ := alsoPassage
  exact ⟨before ++ after, forms.append alsoForms⟩

/-- A passage in front of a paragraph belongs to it. -/
theorem Passage.append_paragraph (h : Passage strict first) (paragraph : Paragraph strict second) :
    Paragraph strict (first ++ second) := by
  obtain ⟨before, forms⟩ := h
  obtain ⟨after, alsoForms, filled⟩ := paragraph
  exact ⟨before ++ after, forms.append alsoForms, by simp [filled]⟩

/-! ## Lines -/

theorem forms_lines {texts : List String} (all : ∀ text ∈ texts, Text.FormsLine strict text) :
    Forms strict (Step.lines texts) (texts.map ({ text := · })) where
  lays := lays_lines texts
  oneLine := List.forall_mem_map.mpr fun text isText => (all text isText).oneLine
  neat demanded := Layout.neat_of_solid
    (List.forall_mem_map.mpr fun text isText => (all text isText).solid demanded)

theorem passage_lines {texts : List String} (all : ∀ text ∈ texts, Text.FormsLine strict text) :
    Passage strict (Step.lines texts) := ⟨_, forms_lines all⟩

theorem paragraph_line {text : String} (h : Text.FormsLine strict text) :
    Paragraph strict [.line text] :=
  ⟨_, forms_lines (List.forall_mem_singleton.mpr h), List.cons_ne_nil _ _⟩

/-- Lines one level further in. -/
theorem Forms.indented (h : Forms strict script ls) :
    Forms strict (.op .increaseIndent :: (script ++ [.op .decreaseIndent])) ls.deeper where
  lays := h.lays.indented
  oneLine := h.oneLine.deeper
  neat demanded := (h.neat demanded).deeper

theorem Passage.indented (h : Passage strict script) :
    Passage strict (.op .increaseIndent :: (script ++ [.op .decreaseIndent])) := by
  obtain ⟨ls, forms⟩ := h
  exact ⟨ls.deeper, forms.indented⟩

theorem Passage.isolated (h : Passage strict script) : Passage strict [.isolated script] := by
  obtain ⟨ls, forms⟩ := h
  exact ⟨ls, forms.lays.isolated, forms.oneLine, forms.neat⟩

/-- A block lays its body out one level deeper, between its opening line and its brace. -/
theorem Forms.block (h : Forms strict script ls) {header : String}
    (head : Text.FormsLine strict header) {constraints : List String}
    (all : ∀ text ∈ constraints, Text.FormsLine strict text) :
    Forms strict [.block header constraints script] (.block header constraints ls) where
  lays := h.lays.block header constraints
  oneLine := Layout.oneLine_block head.oneLine (fun text isText => (all text isText).oneLine) h.oneLine
  neat demanded := (h.neat demanded).block (head.solid demanded)
    fun text isText => (all text isText).solid demanded

/-- Lines in a block of their own. -/
theorem Passage.block (h : Passage strict script) {header : String}
    (head : Text.FormsLine strict header) {constraints : List String}
    (all : ∀ text ∈ constraints, Text.FormsLine strict text) :
    Paragraph strict [.block header constraints script] := by
  obtain ⟨ls, forms⟩ := h
  exact ⟨_, forms.block head all, Layout.block_ne_nil header constraints ls⟩

/-- Steps that are single lines. -/
theorem passage_of_lines
    (all : ∀ step ∈ script, ∃ text, step = .line text ∧ Text.FormsLine strict text) :
    Passage strict script := by
  induction script with
  | nil => exact passage_nil
  | cons step rest ih =>
    obtain ⟨⟨text, rfl, isLine⟩, others⟩ := List.forall_mem_cons.mp all
    exact (paragraph_line isLine).passage.append (ih others)

/-- A structured body, which under `strict` is made of lines alone. -/
theorem passage_body (structured : Step.AllStructured script)
    (lines : strict → ∀ step ∈ script, ∃ text, step = .line text ∧ Text.FormsLine strict text) :
    Passage strict script := by
  by_cases demanded : strict
  · exact passage_of_lines (lines demanded)
  · obtain ⟨ls, lays, oneLine⟩ := Step.exists_layoutAll script structured
    exact ⟨ls, lays, oneLine, fun holds => absurd holds demanded⟩

end Script

/-! ## Groups -/

/-- The layout of a group of lines. -/
def Layout.lineGroup (texts : List String) : Spacing × List Layout :=
  (.close, texts.map fun text => [{ text }])

/-- An item that does not fail, with the lines that it writes. -/
structure Entry (strict : Prop) where
  item : Item
  lines : Layout
  succeeds : ∀ r, (item.attempt r).2 = none
  lays : Run.Lays (fun r => (item.attempt r).1) lines
  oneLine : lines.OneLine
  neat : strict → lines.Neat
  filled : lines ≠ []

namespace Entry

/-- The entries of a group as a group. -/
def group (g : Spacing × List (Entry strict)) : Group := .mk g.1 (g.2.map item)

/-- The lines of the entries of a group. -/
def layouts (g : Spacing × List (Entry strict)) : Spacing × List Layout := (g.1, g.2.map lines)

/-- A script that writes at least one line. -/
def ofScript {script : Script} {ls : Layout} (forms : script.Forms strict ls) (filled : ls ≠ []) :
    Entry strict where
  item := .steps script
  lines := ls
  succeeds _ := rfl
  lays := forms.lays.congr fun _ => rfl
  oneLine := forms.oneLine
  neat := forms.neat
  filled := filled

def ofLine {text : String} (h : Text.FormsLine strict text) : Entry strict where
  item := .line text
  lines := [{ text }]
  succeeds _ := rfl
  lays := (Run.lays_line text).congr fun _ => rfl
  oneLine := Layout.oneLine_singleton.mpr h.oneLine
  neat demanded := Layout.neat_of_solid (List.forall_mem_singleton.mpr (h.solid demanded))
  filled := List.cons_ne_nil _ _

/-- Scripts as entries, with what is known of their lines. -/
theorem exists_ofForms {P : Layout → Prop} {scripts : List Script}
    (all : ∀ script ∈ scripts, ∃ ls, script.Forms strict ls ∧ ls ≠ [] ∧ P ls) :
    ∃ entries : List (Entry strict), entries.map item = scripts.map .steps ∧
      ∀ entry ∈ entries, P entry.lines := by
  induction scripts with
  | nil => exact ⟨[], rfl, List.forall_mem_nil _⟩
  | cons script rest ih =>
    obtain ⟨⟨ls, forms, filled, known⟩, others⟩ := List.forall_mem_cons.mp all
    obtain ⟨entries, same, alsoKnown⟩ := ih others
    exact ⟨ofScript forms filled :: entries, congrArg (Item.steps script :: ·) same,
      List.forall_mem_cons.mpr ⟨known, alsoKnown⟩⟩

theorem exists_ofScripts {scripts : List Script}
    (all : ∀ script ∈ scripts, script.Paragraph strict) :
    ∃ entries : List (Entry strict), entries.map item = scripts.map .steps := by
  obtain ⟨entries, same, -⟩ := exists_ofForms (P := fun _ => True) fun script isScript => by
    simpa [Script.Paragraph] using all script isScript
  exact ⟨entries, same⟩

theorem exists_ofLines {texts : List String} (all : ∀ text ∈ texts, Text.FormsLine strict text) :
    ∃ entries : List (Entry strict), entries.map item = texts.map .line ∧
      entries.map lines = texts.map fun text => [{ text }] := by
  induction texts with
  | nil => exact ⟨[], rfl, rfl⟩
  | cons text rest ih =>
    obtain ⟨first, others⟩ := List.forall_mem_cons.mp all
    obtain ⟨entries, same, lines⟩ := ih others
    exact ⟨ofLine first :: entries, congrArg (Item.line text :: ·) same,
      congrArg (([{ text }] : Layout) :: ·) lines⟩

/-- Groups of lines as entries. -/
theorem exists_ofLineGroups {groups : List (List String)}
    (all : ∀ texts ∈ groups, ∀ text ∈ texts, Text.FormsLine strict text) :
    ∃ entered : List (Spacing × List (Entry strict)),
      entered.map group = groups.map Group.ofLines ∧
        entered.map layouts = groups.map Layout.lineGroup := by
  induction groups with
  | nil => exact ⟨[], rfl, rfl⟩
  | cons texts rest ih =>
    obtain ⟨first, others⟩ := List.forall_mem_cons.mp all
    obtain ⟨entries, items, lines⟩ := exists_ofLines first
    obtain ⟨entered, groups, alsoLines⟩ := ih others
    refine ⟨(.close, entries) :: entered, ?_, ?_⟩
    · rw [List.map_cons, List.map_cons, groups, group, items]
      rfl
    · rw [List.map_cons, List.map_cons, alsoLines, layouts, lines]
      rfl

section Writing

variable (spacing : Spacing) (hadOutput wroteAny : Bool)

/-- The items of one group write their lines in order, and do not fail. -/
theorem lays_writeItems (entries : List (Entry strict)) :
    (∀ r, (Sections.writeItems (·.update Writer.newLine) spacing hadOutput wroteAny
      (Item.attempts (entries.map item)) r).2 = none) ∧
    Run.Lays (fun r => (Sections.writeItems (·.update Writer.newLine) spacing hadOutput wroteAny
      (Item.attempts (entries.map item)) r).1)
      (.separated (Sections.markedItems spacing hadOutput wroteAny (entries.map lines))) := by
  induction entries generalizing wroteAny with
  | nil => exact ⟨fun _ => rfl, Run.lays_id.congr fun _ => rfl⟩
  | cons entry rest ih =>
    obtain ⟨succeeds, lays⟩ := ih true
    refine ⟨fun r => ?_, ?_⟩
    · rw [List.map_cons, Run.writeItems_cons _ _ _ entry.succeeds]
      exact succeeds _
    · have gap : Run.Lays (fun r => if Sections.separates spacing hadOutput wroteAny
          then r.update Writer.newLine else r)
          (if Sections.separates spacing hadOutput wroteAny then [.blank] else []) := by
        split
        · exact Run.lays_newLine
        · exact Run.lays_id
      have all := (gap.comp entry.lays).comp lays
      have same : Layout.separated (Sections.markedItems spacing hadOutput wroteAny
          ((entry :: rest).map lines)) =
          (if Sections.separates spacing hadOutput wroteAny then [.blank] else []) ++ entry.lines ++
            Layout.separated (Sections.markedItems spacing hadOutput true (rest.map lines)) := by
        rw [List.map_cons, Sections.markedItems, Layout.separated, List.flatMap_cons]
        cases Sections.separates spacing hadOutput wroteAny <;> rfl
      rw [same]
      exact all.congr fun r => by rw [List.map_cons, Run.writeItems_cons _ _ _ entry.succeeds]

/-- Groups of entries are laid out one after another, with the blank lines that the spacings ask
for. -/
theorem lays_writeGroups (groups : List (Spacing × List (Entry strict))) :
    Run.Lays (fun r => (Sections.writeGroups (·.update Writer.newLine) hadOutput
      (Group.attempts (groups.map group)) r).state)
      (.separated (Sections.marked hadOutput (groups.map layouts))) := by
  induction groups generalizing hadOutput with
  | nil => exact Run.lays_id.congr fun _ => rfl
  | cons g rest ih =>
    obtain ⟨spacing, entries⟩ := g
    obtain ⟨succeeds, lays⟩ := lays_writeItems spacing hadOutput false entries
    have none : (entries.map lines).isEmpty = (entries.map item).isEmpty := by cases entries <;> rfl
    have all := lays.comp (ih (hadOutput || !(entries.map lines).isEmpty))
    change Run.Lays _ (.separated (Sections.marked hadOutput
      ((spacing, entries.map lines) :: rest.map layouts)))
    rw [Sections.marked, Layout.separated_append]
    refine all.congr fun r => congrArg Run.writer ?_
    rw [List.map_cons, group, none]
    exact Run.writeGroups_cons spacing hadOutput succeeds (rest.map group) r

end Writing

/-- What holds of all entries holds of the lines of their groups. -/
theorem forall_mem_layouts {P : Layout → Prop} (all : ∀ entry : Entry strict, P entry.lines)
    (groups : List (Spacing × List (Entry strict))) :
    ∀ g ∈ groups.map layouts, ∀ ls ∈ g.2, P ls := by
  intro g isGroup ls isItem
  obtain ⟨g, -, rfl⟩ := List.mem_map.mp isGroup
  obtain ⟨entry, -, rfl⟩ := List.mem_map.mp isItem
  exact all entry

theorem filled_layouts (groups : List (Spacing × List (Entry strict))) :
    ∀ g ∈ groups.map layouts, ∀ ls ∈ g.2, ls ≠ [] := forall_mem_layouts (P := (· ≠ [])) filled groups

/-- Groups write their entries in order, with blank lines between them. -/
theorem forms_sections (groups : List (Spacing × List (Entry strict))) :
    Script.Forms strict [.sections (groups.map group)] (.ofGroups (groups.map layouts)) where
  lays := (lays_writeGroups false groups).congr fun _ => rfl
  oneLine := Layout.oneLine_separated
    (Sections.forall_mem_marked (forall_mem_layouts oneLine groups) false)
  neat demanded := Layout.neat_ofGroups
    (forall_mem_layouts (fun entry => ⟨entry.neat demanded, entry.filled⟩) groups)

end Entry

/-- A group whose items do not fail and write complete lines. -/
def Group.Enters (strict : Prop) (g : Group) : Prop :=
  ∃ entered : Spacing × List (Entry strict), Entry.group entered = g

theorem Group.enters_ofScripts (spacing : Spacing) {scripts : List Script}
    (all : ∀ script ∈ scripts, script.Paragraph strict) :
    (Group.ofScripts spacing scripts).Enters strict := by
  obtain ⟨entries, same⟩ := Entry.exists_ofScripts all
  exact ⟨(spacing, entries), congrArg (Group.mk spacing) same⟩

theorem Group.exists_entered {groups : List Group} (all : ∀ group ∈ groups, group.Enters strict) :
    ∃ entered : List (Spacing × List (Entry strict)), entered.map Entry.group = groups := by
  induction groups with
  | nil => exact ⟨[], rfl⟩
  | cons g rest ih =>
    obtain ⟨⟨first, isFirst⟩, others⟩ := List.forall_mem_cons.mp all
    obtain ⟨entered, same⟩ := ih others
    exact ⟨first :: entered, by rw [List.map_cons, isFirst, same]⟩

/-- Sections whose groups hold paragraphs are a passage. -/
theorem Script.passage_sections {groups : List Group}
    (all : ∀ group ∈ groups, group.Enters strict) : Passage strict [.sections groups] := by
  obtain ⟨entered, rfl⟩ := Group.exists_entered all
  exact ⟨_, Entry.forms_sections entered⟩

end CSharpGen

import CSharpGen.Proofs.File.Namespace
import CSharpGen.Proofs.Script.Keeps

/-!
# The head of a file

What stands above the namespace and the types of a file: groups of lines with an empty line between
them. The text of a file starts with its head, whatever its types write (`File.build_head`).
-/

namespace CSharpGen

open Text (OneLine FormsLine)
open Wording (AllMeet allMeet_append allMeet_of_orderly)

variable {strict : Prop}

/-! ## Groups of lines -/

/-- The lines of groups, with an empty line between those that have any. -/
def Text.spaced (groups : List (List String)) : List String :=
  [""].intercalate (groups.filter (!·.isEmpty))

theorem Text.intercalate_cons (first : List String) (rest : List (List String)) :
    [""].intercalate (first :: rest) = first ++ rest.flatMap ("" :: ·) := by
  induction rest generalizing first with
  | nil => simp
  | cons second rest ih =>
    rw [List.intercalate_cons_cons, ih, List.flatMap_cons, List.append_assoc]
    rfl

/-- Between groups of lines there is nothing but blank lines. -/
theorem Text.mem_spaced {groups : List (List String)} {line : String} (h : line ∈ spaced groups) :
    line = "" ∨ ∃ lines ∈ groups, line ∈ lines := by
  unfold spaced at h
  cases filled : groups.filter (!·.isEmpty) with
  | nil =>
    rw [filled] at h
    cases h
  | cons first rest =>
    have own : ∀ lines ∈ first :: rest, lines ∈ groups := fun lines member =>
      (List.mem_filter.mp (filled ▸ member)).1
    rw [filled, intercalate_cons, List.mem_append, List.mem_flatMap] at h
    rcases h with here | ⟨lines, later, here⟩
    · exact .inr ⟨first, own first List.mem_cons_self, here⟩
    · exact (List.mem_cons.mp here).imp_right fun here =>
        ⟨lines, own lines (List.mem_cons_of_mem _ later), here⟩

namespace Layout

/-- Lines that are not indented. -/
def flat (texts : List String) : Layout := texts.map ({ text := · })

theorem flat_append (before after : List String) :
    flat (before ++ after) = flat before ++ flat after := List.map_append

theorem separated_markedItems_lines (hadOutput : Bool) (texts : List String) :
    separated (Sections.markedItems .close hadOutput true (texts.map fun text => [{ text }])) =
      flat texts := by
  induction texts with
  | nil => rfl
  | cons text rest ih => exact congrArg (({ text } : Line) :: ·) ih

/-- Groups of lines are separated by one blank line, and empty groups by none. -/
theorem separated_lineGroups (hadOutput : Bool) (groups : List (List String)) :
    separated (Sections.marked hadOutput (groups.map lineGroup)) =
      flat (if hadOutput then (groups.filter (!·.isEmpty)).flatMap ("" :: ·)
        else Text.spaced groups) := by
  -- `hadOutput` is general: below the first group with lines each group has an empty line above it.
  induction groups generalizing hadOutput with
  | nil => cases hadOutput <;> rfl
  | cons texts rest ih =>
    rw [List.map_cons, lineGroup, Sections.marked, separated_append, ih]
    cases texts with
    | nil => cases hadOutput <;> rfl
    | cons text others =>
      have first : separated (Sections.markedItems .close hadOutput false
          ((text :: others).map fun text => [{ text }])) =
          flat (if hadOutput then "" :: text :: others else text :: others) := by
        have tail := separated_markedItems_lines hadOutput others
        cases hadOutput with
        | false => exact congrArg (({ text } : Line) :: ·) tail
        | true => exact congrArg (Line.blank :: { text } :: ·) tail
      have next : (hadOutput || !((text :: others).map fun text => [({ text } : Line)]).isEmpty) =
          true := by
        simp
      rw [first, next, if_pos rfl, ← flat_append]
      cases hadOutput with
      | false =>
        rw [if_neg Bool.false_ne_true, if_neg Bool.false_ne_true, Text.spaced]
        exact congrArg flat (Text.intercalate_cons _ _).symm
      | true => rfl

/-- Groups of lines come out with an empty line between those that have any. -/
theorem ofGroups_lineGroups (groups : List (List String)) :
    ofGroups (groups.map lineGroup) = flat (Text.spaced groups) := separated_lineGroups false groups

theorem body_flat (style : Indent) (s : String) :
    Line.body style 0 { text := s } = Text.trimEnd s := by
  unfold Line.body
  split
  · next blank =>
    have none : Text.dropTailWhile Text.isBlank s.toList = [] :=
      Text.dropTailWhile_eq_nil_iff.mpr (Text.isBlankText_iff.mp blank)
    rw [Text.trimEnd, none, String.ofList_nil]
  · exact String.empty_append

/-- Lines that are not indented and have no blanks at their ends are written as they are. -/
theorem map_body_flat (style : Indent) {texts : List String}
    (plain : ∀ line ∈ texts, Text.OneLine line ∧ Text.trimEnd line = line) :
    (flat texts).map (Line.body style 0) = texts := by
  rw [flat, List.map_map]
  refine (List.map_congr_left fun line isLine => ?_).trans (List.map_id texts)
  rw [Function.comp_apply, body_flat, (plain line isLine).2, id]

/-- A layout of lines without blanks at their end is read back line by line. -/
theorem lines_text_flat (style : Indent) {texts : List String}
    (plain : ∀ line ∈ texts, Text.OneLine line ∧ Text.trimEnd line = line) :
    Text.lines (text style 0 (flat texts)) = texts := by
  have one : Layout.OneLine (flat texts) :=
    List.forall_mem_map.mpr fun line isLine => (plain line isLine).1
  rw [lines_text one, map_body_flat style plain]

end Layout

/-! ## The head -/

/-- The line of an assembly attribute starts like one and has no blanks at its end. -/
theorem AssemblyAttribute.startsWith_line? {text line : String} (written : line? text = some line) :
    Text.startsWith "[assembly:" line = true ∧ Text.trimEnd line = line := by
  simp only [line?] at written
  split at written
  · next starts =>
    obtain rfl := Option.some.inj written
    exact ⟨starts, Text.trimEnd_trim text⟩
  · obtain ⟨body, -, rfl⟩ := Option.map_eq_some_iff.mp written
    exact ⟨Text.startsWith_append (Text.startsWith_append (by decide) body) "]",
      Text.trimEnd_append _ (by decide)⟩

namespace File

variable {f : File} {p : Preamble}

/-- The lines of the head are written as they are. -/
def PlainHead (f : File) (p : Preamble) : Prop :=
  ∀ lines ∈ f.headLines p, ∀ line ∈ lines, OneLine line ∧ Text.trimEnd line = line

/-- Texts of one line, and codes without blanks at their ends, make a plain head. -/
theorem plainHead (orderly : ∀ w ∈ f.disabledWarnings.map .text ++ p.wording, w.Orderly)
    (codes : ∀ code ∈ f.disabledWarnings, Text.nonBlank? code = some code) : f.PlainHead p := by
  obtain ⟨warnings, registered⟩ := allMeet_append.mp (allMeet_of_orderly orderly)
  have trimmed : ∀ lines ∈ f.headLines p, ∀ line ∈ lines, Text.trimEnd line = line := by
    simp only [headLines, List.forall_mem_cons]
    refine ⟨?_, ?_, ?_, fun line isLine => ?_, List.forall_mem_nil _⟩
    · exact List.forall_mem_map.mpr fun state _ => by cases state <;> decide
    · refine List.forall_mem_map.mpr fun code isCode => ?_
      obtain ⟨same, filled⟩ := Text.nonBlank?_eq_some (codes code isCode)
      have whole : Text.trimEnd code = code := by rw [same, Text.trimEnd_trim]
      exact (Text.trimEnd_append _ filled).trans (congrArg _ whole)
    · exact List.forall_mem_map.mpr fun name _ => Text.trimEnd_append _ (by decide)
    · obtain ⟨text, -, written⟩ := List.mem_filterMap.mp (Text.mem_ascending.mp isLine)
      exact (AssemblyAttribute.startsWith_line? written).2
  exact fun lines isGroup line isLine =>
    ⟨(formsLine_headLines warnings registered lines isGroup line isLine).oneLine,
      trimmed lines isGroup line isLine⟩

theorem PlainHead.spaced (plain : f.PlainHead p) :
    ∀ line ∈ Text.spaced (f.headLines p), OneLine line ∧ Text.trimEnd line = line := by
  intro line isLine
  rcases Text.mem_spaced isLine with rfl | ⟨lines, isGroup, isLine⟩
  · exact ⟨by decide, by decide⟩
  · exact plain lines isGroup line isLine

/-- The head of a plain file is laid out as its groups of lines, with blank lines between them. -/
theorem PlainHead.exists_entered (plain : f.PlainHead p) :
    ∃ entered : List (Spacing × List (Entry False)),
      entered.map Entry.group = f.preambleGroups p ∧
        Layout.ofGroups (entered.map Entry.layouts) =
          Layout.flat (Text.spaced (f.headLines p)) := by
  have forms : ∀ lines ∈ f.headLines p, ∀ line ∈ lines, FormsLine False line :=
    fun lines isGroup line isLine => ⟨(plain lines isGroup line isLine).1, False.elim⟩
  obtain ⟨entered, isHead, layouts⟩ := Entry.exists_ofLineGroups forms
  exact ⟨entered, isHead, by rw [layouts, Layout.ofGroups_lineGroups]⟩

/-- The text of a file starts with that of its head, whatever its types write. The lines of the head
are groups with an empty line between them. -/
theorem build_head (plain : f.PlainHead p) {text : String} (ok : f.build p = .ok text) :
    ∃ head rest, f.headOnly.build p = .ok head ∧ text = head ++ rest ∧
      Text.lines head = Text.spaced (f.headLines p) := by
  obtain ⟨entered, isHead, layout⟩ := plain.exists_entered
  let head := Layout.text f.options.indent 0 (Layout.flat (Text.spaced (f.headLines p)))
  obtain ⟨script, okScript, rfl⟩ := build_ok ok
  obtain ⟨scripts, -, okScript⟩ := bind_eq_ok.mp okScript
  cases okScript
  have opens : (Script.write [.sections (f.preambleGroups p ++ f.typeGroups scripts)]
      (.empty f.options.indent)).Opens head := by
    -- Nothing is known of what the types write, so only the head goes through its layout; whatever
    -- comes after it keeps the start of the text.
    let fresh : Run := { writer := .empty f.options.indent }
    obtain ⟨n, written⟩ := (Entry.forms_sections entered).lays.result fresh
    rw [layout, isHead] at written
    have start : (fresh.sections (Group.attempts (f.preambleGroups p))).writer.Opens head :=
      ⟨"", (congrArg Writer.firstText written).trans
        (String.empty_append.trans String.append_empty.symm)⟩
    exact (Writer.keeps_opens head).sections _ _ start
  obtain ⟨rest, starts⟩ := opens.render
  refine ⟨head, rest, ?_, starts, Layout.lines_text_flat _ plain.spaced⟩
  rw [build_headOnly isHead, layout]

end File

end CSharpGen

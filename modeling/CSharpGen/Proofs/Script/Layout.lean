import CSharpGen.Proofs.Text.OneLine
import CSharpGen.Proofs.Writer.Written

/-!
# Layouts

A layout is what a script writes, before it is indented: lines with their levels below the place
where the script starts. One level of depth puts one indent unit before each line that is not empty
(`Layout.text_indent`).
-/

namespace CSharpGen

/-- A line some levels below the place where its layout starts. -/
structure Line where
  level : Nat := 0
  text : String

abbrev Layout := List Line

/-- The text with `unit` before each of its lines that is not empty. -/
def Text.indentLines (unit s : String) : String :=
  String.join ((lines s).map fun line => (if line = "" then "" else unit ++ line) ++ "\n")

namespace Line

/-- The written line at a depth, without its end. Blank lines are not indented. -/
def body (style : Indent) (base : Nat) (l : Line) : String :=
  if Text.isBlankText l.text then "" else style.levels (base + l.level) ++ Text.trimEnd l.text

/-- The line one level further in. -/
def deeper (l : Line) : Line := { l with level := l.level + 1 }

/-- An empty line. -/
def blank : Line := { text := "" }

/-- The line of an opening brace. -/
def opening : Line := { text := "\x7b" }

/-- The line of a closing brace. -/
def closing : Line := { text := "\x7d" }

theorem body_deeper (style : Indent) (base : Nat) (l : Line) :
    l.deeper.body style base = l.body style (base + 1) := by
  rw [body, body, deeper, Nat.add_right_comm, Nat.add_assoc]

/-- A written line says what the line says, with other blanks around it. -/
theorem trim_body (style : Indent) (base : Nat) (l : Line) :
    Text.trim (l.body style base) = Text.trim l.text := by
  unfold body
  split
  · next blank => exact (String.isEmpty_iff.mp blank).symm
  · exact Text.trim_indented _ (fun c member => (style.levels_chars _ c member).1) l.text

theorem isBlankText_body (style : Indent) (base : Nat) (l : Line) :
    Text.isBlankText (l.body style base) = Text.isBlankText l.text :=
  Text.isBlankText_eq_trim (l.trim_body style base)

/-- A written line is empty exactly when the line is blank. -/
theorem body_eq_empty_iff {style : Indent} {base : Nat} {l : Line} :
    l.body style base = "" ↔ Text.isBlankText l.text = true := by
  constructor
  · intro empty
    rw [← l.isBlankText_body style base, empty]
    decide
  · exact fun blank => if_pos blank

theorem oneLine_body (style : Indent) (base : Nat) {l : Line} (h : Text.OneLine l.text) :
    Text.OneLine (l.body style base) := by
  unfold body
  split
  · exact List.not_mem_nil
  · rw [Text.oneLine_append]
    exact ⟨fun member => (style.levels_chars _ _ member).2.1 rfl, h.trimEnd⟩

/-- A written line does not end with a blank. -/
theorem getLast?_body {style : Indent} {base : Nat} {l : Line} {c : Char}
    (last : (l.body style base).toList.getLast? = some c) : Text.isBlank c = false := by
  unfold body at last
  split at last
  · cases last
  · next filled =>
    have left : ¬Text.dropTailWhile Text.isBlank l.text.toList = [] := by
      rw [Text.dropTailWhile_eq_nil_iff, ← Text.isBlankText_iff]
      exact filled
    rw [Text.trimEnd, String.toList_append, String.toList_ofList, List.getLast?_append,
      List.getLast?_eq_some_getLast left, Option.some_or] at last
    exact Text.getLast?_dropTailWhile ((List.getLast?_eq_some_getLast left).trans last)

end Line

namespace Layout

/-- The written lines at a depth. -/
def text (style : Indent) (base : Nat) (ls : Layout) : String :=
  String.join (ls.map fun l => l.body style base ++ "\n")

/-- All lines one level further in. -/
def deeper (ls : Layout) : Layout := ls.map Line.deeper

/-- No text of a line breaks it. -/
def OneLine (ls : Layout) : Prop := ∀ l ∈ ls, Text.OneLine l.text

variable {style : Indent} {base : Nat} {ls : Layout}

@[simp] theorem text_nil : text style base [] = "" := rfl

@[simp] theorem text_cons (l : Line) : text style base (l :: ls) =
    l.body style base ++ "\n" ++ text style base ls := by
  simp [text, String.join_cons]

@[simp] theorem text_append (before after : Layout) : text style base (before ++ after) =
    text style base before ++ text style base after := by
  induction before with
  | nil => simp
  | cons l rest ih =>
    rw [List.cons_append, text_cons, ih, text_cons]
    exact String.append_assoc.symm

/-- Going one level further in is the same for the lines and for the place where they are written.
-/
theorem text_deeper (ls : Layout) : text style base ls.deeper = text style (base + 1) ls := by
  rw [text, text, deeper, List.map_map]
  exact congrArg String.join (List.map_congr_left fun l _ => congrArg (· ++ "\n") (l.body_deeper _ _))

/-- A layout has a text as soon as it has a line, even an empty one. -/
theorem text_eq_empty_iff : text style base ls = "" ↔ ls = [] := by
  cases ls with
  | nil => simp
  | cons l rest => simp

/-- The text of a layout is complete lines. -/
theorem wholeLines_text (style : Indent) (base : Nat) (ls : Layout) :
    Text.WholeLines (text style base ls) := by
  induction ls with
  | nil => exact .inl rfl
  | cons l rest ih =>
    rw [text_cons]
    exact Text.wholeLines_append (Text.wholeLines_newline _) ih

/-- After at least one written line the text is at the end of a line. -/
theorem endsLine_text (filled : ls ≠ []) (before : String) :
    Text.endsLine (before ++ text style base ls) = true := by
  have full : text style base ls ≠ "" := mt text_eq_empty_iff.mp filled
  exact Text.endsLine_append_right before ((wholeLines_text style base ls).resolve_left full)

theorem oneLine_nil : OneLine [] := List.forall_mem_nil _

theorem oneLine_singleton {l : Line} : OneLine [l] ↔ Text.OneLine l.text := List.forall_mem_singleton

theorem oneLine_append {before after : Layout} :
    OneLine (before ++ after) ↔ OneLine before ∧ OneLine after := List.forall_mem_append

theorem OneLine.deeper (h : ls.OneLine) : ls.deeper.OneLine := by
  intro l member
  obtain ⟨inner, isInner, rfl⟩ := List.mem_map.mp member
  exact h inner isInner

/-- The lines of a written layout are its lines. -/
theorem lines_text (h : ls.OneLine) :
    Text.lines (text style base ls) = ls.map (Line.body style base) := by
  induction ls with
  | nil => rfl
  | cons l rest ih =>
    obtain ⟨first, others⟩ := List.forall_mem_cons.mp h
    have finished : (l.body style base).toList.getLast? ≠ some '\r' := fun last =>
      absurd (Line.getLast?_body last) (by decide)
    rw [text_cons, Text.lines_append (Text.wholeLines_newline _),
      Text.lines_finished (Line.oneLine_body style base first) finished, ih others, List.map_cons]
    rfl

/-- Writing a layout one level deeper indents the lines of its text that are not empty. -/
theorem text_indent (h : ls.OneLine) :
    text style (base + 1) ls = Text.indentLines style.unit (text style base ls) := by
  have line (l : Line) : l.body style (base + 1) =
      if l.body style base = "" then "" else style.unit ++ l.body style base := by
    by_cases blank : Text.isBlankText l.text
    · rw [if_pos (Line.body_eq_empty_iff.mpr blank), Line.body, if_pos blank]
    · rw [if_neg (mt Line.body_eq_empty_iff.mp blank), Line.body, Line.body, if_neg blank,
        if_neg blank, Nat.add_right_comm, Indent.levels, String.append_assoc]
  rw [Text.indentLines, lines_text h, List.map_map, text]
  exact congrArg String.join (List.map_congr_left fun l _ => congrArg (· ++ "\n") (line l))

end Layout

end CSharpGen

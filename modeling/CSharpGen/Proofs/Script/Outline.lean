import CSharpGen.Proofs.Script.Lays
import CSharpGen.Text.Cut

/-!
# Outlines

An outline is a text before its indent units are chosen: complete lines, each with its own level.
Whatever writes complete lines draws an outline that depends on the level at which it is written,
and not on the style of the writer (`Run.Draws`), also where its texts have several lines.
-/

namespace CSharpGen

namespace Text

/-- A carriage return at the end of a line belongs to its ending. -/
theorem lineChars_return {cs : List Char} (one : '\n' ∉ cs) :
    lineChars (cs ++ ['\r', '\n']) = [cs] := by
  induction cs with
  | nil => rfl
  | cons c cs ih =>
    obtain ⟨notEnd, others⟩ := not_or.mp (mt List.mem_cons.mpr one)
    have noReturn : ∀ tail, c = '\r' → cs ++ ['\r', '\n'] = '\n' :: tail → False := by
      intro tail _ next
      cases cs with
      | nil => exact absurd (List.cons.inj next).1 (by decide)
      | cons d ds => exact others (List.mem_cons.mpr (.inl (List.cons.inj next).1.symm))
    rw [List.cons_append, lineChars.eq_4 _ _ (Ne.symm notEnd) noReturn, ih others]

/-- An ended line, after an indentation without ends of lines. -/
theorem lines_ended {indent s : String} (plain : ∀ c ∈ indent.toList, c ≠ '\n' ∧ c ≠ '\r')
    (one : OneLine s) : lines (indent ++ s ++ "\n") = [indent ++ dropStop "\r" s] := by
  have whole : OneLine (indent ++ s) :=
    oneLine_append.mpr ⟨fun member => (plain _ member).1 rfl, one⟩
  unfold dropStop
  split
  · next rest found =>
    have ending : s.toList = rest ++ ['\r'] :=
      (List.isSuffixOf?_eq_some_iff_append_eq.mp found).symm
    have before : '\n' ∉ indent.toList ++ rest := by
      rw [OneLine, String.toList_append, ending, ← List.append_assoc] at whole
      exact fun member => whole (List.mem_append_left _ member)
    have chars : (indent ++ s ++ "\n").toList = (indent.toList ++ rest) ++ ['\r', '\n'] := by
      rw [String.toList_append, String.toList_append, ending]
      simp
    rw [lines, chars, lineChars_return before]
    simp
  · next missing =>
    refine lines_finished whole fun last => ?_
    rw [String.toList_append, List.getLast?_append] at last
    cases tail : s.toList.getLast? with
    | none =>
      rw [tail, Option.none_or] at last
      exact (plain _ (List.mem_of_getLast? last)).2 rfl
    | some c =>
      rw [tail, Option.some_or] at last
      obtain rfl := Option.some.inj last
      obtain ⟨rest, split⟩ := List.getLast?_eq_some_iff.mp tail
      have found := List.isSuffixOf?_eq_some_iff_append_eq.mpr split.symm
      rw [show "\r".toList = ['\r'] from rfl, found] at missing
      cases missing

end Text

/-- Complete lines at levels of their own. No text breaks its line. -/
structure Outline where
  lines : List Line
  oneLine : ∀ l ∈ lines, Text.OneLine l.text

namespace Outline

/-- The lines, each with the units of its level. -/
def text (style : Indent) (o : Outline) : String :=
  String.join (o.lines.map fun l => style.levels l.level ++ l.text ++ "\n")

def empty : Outline := ⟨[], List.forall_mem_nil _⟩

def line (level : Nat) (text : String) (one : Text.OneLine text) : Outline :=
  ⟨[{ level, text }], List.forall_mem_singleton.mpr one⟩

instance : Append Outline where
  append o p := ⟨o.lines ++ p.lines, List.forall_mem_append.mpr ⟨o.oneLine, p.oneLine⟩⟩

variable {style : Indent}

@[simp] theorem text_empty : text style empty = "" := rfl

@[simp] theorem text_line (level : Nat) {s : String} (one : Text.OneLine s) :
    text style (line level s one) = style.levels level ++ s ++ "\n" :=
  String.empty_append

@[simp] theorem text_append (o p : Outline) : text style (o ++ p) = text style o ++ text style p := by
  obtain ⟨before, one⟩ := o
  change String.join ((before ++ p.lines).map _) = String.join (before.map _) ++ text style p
  rw [List.map_append, String.join_append]
  rfl

/-- The text of an outline is complete lines in every style. -/
theorem wholeLines_text (style : Indent) (o : Outline) : Text.WholeLines (text style o) := by
  obtain ⟨ls, one⟩ := o
  induction ls with
  | nil => exact .inl rfl
  | cons l rest ih =>
    rw [text, List.map_cons, String.join_cons]
    exact Text.wholeLines_append (Text.wholeLines_newline _) (ih (List.forall_mem_cons.mp one).2)

/-- The lines of a text are those of its outline, with the units of the style. -/
theorem lines_text (style : Indent) (o : Outline) : Text.lines (text style o) =
    o.lines.map fun l => style.levels l.level ++ Text.dropStop "\r" l.text := by
  obtain ⟨ls, one⟩ := o
  induction ls with
  | nil => rfl
  | cons l rest ih =>
    obtain ⟨first, others⟩ := List.forall_mem_cons.mp one
    have indent : ∀ c ∈ (style.levels l.level).toList, c ≠ '\n' ∧ c ≠ '\r' :=
      fun c member => (style.levels_chars l.level c member).2
    rw [text, List.map_cons, String.join_cons, Text.lines_append (Text.wholeLines_newline _),
      Text.lines_ended indent first, List.map_cons, ← ih others]
    rfl

/-- Any text behind its indentation has an outline: its first line has the level, and the lines
after that have none. -/
theorem exists_of_text (level : Nat) (s : String) :
    ∃ o : Outline, ∀ style : Indent, style.levels level ++ s ++ "\n" = text style o := by
  have cut (cs : List Char) (level : Nat) (start : String) (one : Text.OneLine start) :
      ∃ o : Outline, ∀ style : Indent,
        style.levels level ++ (start ++ String.ofList cs) ++ "\n" = text style o := by
    induction cs generalizing level start with
    | nil => exact ⟨line level start one, fun style => by simp⟩
    | cons c cs ih =>
      by_cases ends : c = '\n'
      · obtain ⟨o, same⟩ := ih 0 "" (by decide)
        refine ⟨line level start one ++ o, fun style => ?_⟩
        have shape : String.ofList (c :: cs) = "\n" ++ String.ofList cs := by
          rw [ends, ← String.toList_inj]
          simp
        rw [text_append, text_line, ← same style, shape]
        simp [Indent.levels, String.append_assoc]
      · have grown : Text.OneLine (start ++ String.singleton c) :=
          Text.oneLine_append.mpr ⟨one, by simpa [Text.OneLine] using Ne.symm ends⟩
        obtain ⟨o, same⟩ := ih level _ grown
        refine ⟨o, fun style => ?_⟩
        have shape : String.ofList (c :: cs) = String.singleton c ++ String.ofList cs := by
          rw [← String.toList_inj]
          simp
        rw [← same style, shape]
        simp only [String.append_assoc]
  obtain ⟨o, same⟩ := cut s.toList level "" (by decide)
  exact ⟨o, fun style => by simpa using same style⟩

/-- Every layout has an outline at every depth, whatever its texts are. -/
theorem exists_of_layout (base : Nat) (ls : Layout) :
    ∃ o : Outline, ∀ style : Indent, Layout.text style base ls = text style o := by
  induction ls with
  | nil => exact ⟨empty, fun _ => Layout.text_nil.trans text_empty.symm⟩
  | cons l rest ih =>
    obtain ⟨others, same⟩ := ih
    obtain ⟨first, isFirst⟩ : ∃ o : Outline, ∀ style : Indent,
        l.body style base ++ "\n" = text style o := by
      by_cases blank : Text.isBlankText l.text
      · refine ⟨line 0 "" (by decide), fun style => ?_⟩
        rw [Line.body, if_pos blank, text_line, Indent.levels]
        simp only [String.empty_append]
      · obtain ⟨o, isText⟩ := exists_of_text (base + l.level) (Text.trimEnd l.text)
        refine ⟨o, fun style => ?_⟩
        rw [Line.body, if_neg blank, isText]
    exact ⟨first ++ others, fun style => by
      rw [Layout.text_cons, isFirst style, same style, text_append]⟩

/-- An indented text and what follows it on the line. -/
theorem exists_of_pieces (base : Nat) (start rest : String) :
    ∃ o : Outline, ∀ w : Writer, w.depth + w.extraIndent = base →
      w.indented start ++ rest ++ "\n" = text w.style o := by
  by_cases blank : Text.isBlankText start
  · obtain ⟨o, same⟩ := exists_of_text 0 rest
    refine ⟨o, fun w _ => ?_⟩
    rw [Writer.indented, if_pos blank, ← same]
    rfl
  · obtain ⟨o, same⟩ := exists_of_text base (Text.trimEnd start ++ rest)
    refine ⟨o, fun w isBase => ?_⟩
    rw [Writer.indented, if_neg blank, ← same, Cursor.indentation, isBase]
    simp only [String.append_assoc]

end Outline

/-- A line that is written in pieces is one text: only the first of them is indented. -/
theorem Writer.applyAll_pieces (w : Writer) (start : String) (others : List String) :
    w.applyAll (.append start :: others.map .appendUnindented ++ [.newLine]) =
      w.appendRaw (w.indented start ++ String.join (others.map Text.trimEnd) ++ "\n") := by
  have follows (w : Writer) : w.applyAll (others.map .appendUnindented) =
      w.appendRaw (String.join (others.map Text.trimEnd)) := by
    induction others generalizing w with
    | nil => simp [applyAll]
    | cons text rest ih =>
      rw [List.map_cons, List.map_cons, String.join_cons, ← appendRaw_appendRaw]
      exact ih _
  have all : w.applyAll (.append start :: others.map .appendUnindented ++ [.newLine]) =
      ((w.append start).applyAll (others.map .appendUnindented)).newLine := by
    simp [applyAll, apply]
  rw [all, follows, append_eq, appendRaw_appendRaw, newLine, appendRaw_appendRaw]

namespace Run

/-- `f` appends the lines of one outline for each level at which it is run, in any style, and leaves
every count of the writer but the numbering of its blocks. -/
structure Draws (f : Run → Run) : Prop where
  result : ∀ base, ∃ o : Outline, ∀ r, r.writer.depth + r.writer.extraIndent = base →
    ∃ nextBlock, (f r).writer = { r.writer.appendRaw (o.text r.writer.style) with nextBlock }

variable {f g : Run → Run}

/-- A layout is an outline once the level is known. -/
theorem Lays.draws {ls : Layout} (h : Lays f ls) : Draws f where
  result base := by
    obtain ⟨o, same⟩ := Outline.exists_of_layout base ls
    refine ⟨o, fun r isBase => ?_⟩
    obtain ⟨n, written⟩ := h.result r
    exact ⟨n, by rw [written, Writer.lay, isBase, same]⟩

theorem draws_id : Draws (fun r => r) := lays_id.draws

theorem draws_newLine : Draws (fun r => r.update Writer.newLine) := lays_newLine.draws

theorem Draws.congr (h : Draws f) (same : ∀ r, (g r).writer = (f r).writer) : Draws g where
  result base := by
    obtain ⟨o, drawn⟩ := h.result base
    exact ⟨o, fun r isBase => by rw [same]; exact drawn r isBase⟩

theorem Draws.observed (h : Draws f) : Draws (fun r => f r.observe) where
  result base := by
    obtain ⟨o, drawn⟩ := h.result base
    exact ⟨o, fun r isBase => drawn r.observe isBase⟩

/-- Runs one after the other draw their outlines one after the other. -/
theorem Draws.comp (first : Draws f) (second : Draws g) : Draws (fun r => g (f r)) where
  result base := by
    obtain ⟨o, afterFirst⟩ := first.result base
    obtain ⟨p, afterSecond⟩ := second.result base
    refine ⟨o ++ p, fun r isBase => ?_⟩
    obtain ⟨n, isFirst⟩ := afterFirst r isBase
    obtain ⟨m, isSecond⟩ := afterSecond (f r) (by rw [isFirst]; exact isBase)
    refine ⟨m, ?_⟩
    rw [isSecond, isFirst, Outline.text_append, ← Writer.appendRaw_appendRaw]
    rfl

/-- What is drawn under an extra indent is drawn one level deeper. -/
theorem Draws.indented (h : Draws f) :
    Draws (fun r => (f (r.update Writer.increaseIndent)).update Writer.decreaseIndent) where
  result base := by
    obtain ⟨o, drawn⟩ := h.result (base + 1)
    refine ⟨o, fun r isBase => ?_⟩
    have deeper : r.writer.depth + (r.writer.extraIndent + 1) = base + 1 := congrArg (· + 1) isBase
    obtain ⟨n, inner⟩ := drawn (r.update Writer.increaseIndent) deeper
    exact ⟨n, congrArg Writer.decreaseIndent inner⟩

/-- What `f` writes at a level. -/
def textOf (f : Run → Run) (style : Indent) (level : Nat) : String :=
  (f { writer := { style, baseDepth := level } }).writer.body

/-- At a given level the drawn text is that of one outline in all styles. -/
theorem Draws.exists_textOf (h : Draws f) (level : Nat) :
    ∃ o : Outline, ∀ style : Indent, textOf f style level = o.text style := by
  obtain ⟨o, drawn⟩ := h.result level
  refine ⟨o, fun style => ?_⟩
  obtain ⟨n, written⟩ := drawn { writer := { style, baseDepth := level } } rfl
  rw [textOf, written]
  exact String.empty_append.trans String.empty_append

/-- The same text is written from every state. -/
theorem Draws.writer_eq (h : Draws f) (r : Run) : ∃ nextBlock, (f r).writer =
    { r.writer.appendRaw (textOf f r.writer.style (r.writer.depth + r.writer.extraIndent)) with
      nextBlock } := by
  let level := r.writer.depth + r.writer.extraIndent
  obtain ⟨o, drawn⟩ := h.result level
  obtain ⟨n, written⟩ := drawn r rfl
  obtain ⟨m, alone⟩ := drawn { writer := { style := r.writer.style, baseDepth := level } } rfl
  have text : textOf f r.writer.style level = o.text r.writer.style := by
    rw [textOf, alone]
    exact String.empty_append.trans String.empty_append
  exact ⟨n, by rw [written, text]⟩

/-- The text of a block around the text of its body. -/
def blockText (header : String) (constraints : List String) (style : Indent) (level : Nat)
    (inner : String) : String :=
  let opening := Layout.heads [header] ++ (Layout.heads constraints).deeper ++ [.opening]
  Layout.text style level opening ++ inner ++ Layout.text style level [.closing]

/-- Whatever the header and the continuation lines are, the brace that opens the block ends a
line. -/
theorem Draws.writer_inBlock (h : Draws f) (header : String) (constraints : List String) (r : Run) :
    let level := r.writer.depth + r.writer.extraIndent
    ∃ nextBlock, (r.inBlock header constraints f).writer = { r.writer.appendRaw
      (blockText header constraints r.writer.style level (textOf f r.writer.style (level + 1))) with
        nextBlock } := by
  intro level
  let opening := Layout.text r.writer.style level
    (Layout.heads [header] ++ (Layout.heads constraints).deeper ++ [.opening])
  let inner := textOf f r.writer.style (level + 1)
  let opened : Writer := { r.writer.appendRaw opening with
    openBlocks := r.writer.nextBlock :: r.writer.openBlocks
    nextBlock := r.writer.nextBlock + 1 }
  have opens : r.writer.openBlock header constraints = (opened, r.writer.nextBlock) := by
    rw [Writer.openBlock_eq, Writer.opening_eq]
  have deeper : opened.depth + opened.extraIndent = level + 1 := by
    simp only [opened, level, Writer.appendRaw, Cursor.depth, List.length_cons]
    omega
  obtain ⟨n, inside⟩ := h.writer_eq { r with writer := opened }
  have ended : Text.endsLine (r.writer.buffer ++ (opening ++ inner)) = true := by
    have brace : Text.endsLine opening = true := by
      rw [← String.empty_append (s := opening)]
      exact Layout.endsLine_text (by simp) ""
    have whole : Text.WholeLines inner := by
      obtain ⟨o, isText⟩ := h.exists_textOf (level + 1)
      change Text.WholeLines (textOf f r.writer.style (level + 1))
      rw [isText]
      exact o.wholeLines_text r.writer.style
    have full : opening ++ inner ≠ "" := fun empty =>
      Text.ne_empty_of_endsLine brace (String.append_eq_empty_iff.mp empty).1
    exact Text.endsLine_append_right _
      ((Text.wholeLines_append (.inr brace) whole).resolve_left full)
  refine ⟨n, ?_⟩
  have closes : (r.inBlock header constraints f).writer =
      (f { r with writer := opened }).writer.closeBlock r.writer.nextBlock := by
    rw [Run.inBlock, opens]
    rfl
  rw [deeper] at inside
  rw [closes, inside, blockText, ← r.writer.closeBlock_innermost ended n,
    ← Writer.appendRaw_appendRaw]
  rfl

/-- A block draws its braces around the outline of its body. -/
theorem Draws.inBlock (h : Draws f) (header : String) (constraints : List String) :
    Draws (fun r => r.inBlock header constraints f) where
  result base := by
    obtain ⟨opening, isOpening⟩ := Outline.exists_of_layout base
      (Layout.heads [header] ++ (Layout.heads constraints).deeper ++ [.opening])
    obtain ⟨inner, isInner⟩ := h.exists_textOf (base + 1)
    obtain ⟨closing, isClosing⟩ := Outline.exists_of_layout base [.closing]
    refine ⟨opening ++ inner ++ closing, fun r isBase => ?_⟩
    obtain ⟨n, written⟩ := h.writer_inBlock header constraints r
    refine ⟨n, ?_⟩
    rw [written, isBase, blockText, isOpening, isInner, isClosing, Outline.text_append,
      Outline.text_append]

end Run

namespace Script

/-- Running the script draws an outline. -/
abbrev Draws (script : Script) : Prop := Run.Draws (Step.runAll script)

variable {script first second : Script}

theorem draws_nil : Draws [] := Run.draws_id

theorem Draws.append (h : Draws first) (alsoSecond : Draws second) : Draws (first ++ second) :=
  (Run.Draws.comp h alsoSecond).congr fun r => congrArg Run.writer (Step.runAll_append _ _ r)

theorem draws_lines (texts : List String) : Draws (Step.lines texts) := (lays_lines texts).draws

theorem draws_line (text : String) : Draws [.line text] := (lays_line text).draws

theorem draws_newLine : Draws [.op .newLine] := lays_newLine.draws

theorem Draws.indented (h : Draws script) :
    Draws (.op .increaseIndent :: (script ++ [.op .decreaseIndent])) := by
  refine (Run.Draws.indented h.observed).congr fun r => ?_
  rw [Step.runAll, Step.runAll_append]
  rfl

theorem Draws.block (h : Draws script) (header : String) (constraints : List String) :
    Draws [.block header constraints script] :=
  (h.observed.inBlock header constraints).congr fun _ => rfl

theorem Draws.isolated (h : Draws script) : Draws [.isolated script] where
  result base := by
    obtain ⟨o, drawn⟩ := h.result base
    exact ⟨o, fun r isBase => drawn { r with reserved := [] } isBase⟩

/-- Pieces of one line: the first is indented unless it is blank, and the others follow it. -/
theorem draws_pieces (start : String) (others : List String) :
    Draws (.op (.append start) :: (others.map fun text => .op (.appendUnindented text)) ++
      [.op .newLine]) where
  result base := by
    obtain ⟨o, drawn⟩ := Outline.exists_of_pieces base start (String.join (others.map Text.trimEnd))
    refine ⟨o, fun r isBase => ⟨r.writer.nextBlock, ?_⟩⟩
    have steps : (Step.op (.append start) ::
        (others.map fun text => Step.op (.appendUnindented text)) ++ [Step.op .newLine]) =
        (Op.append start :: others.map .appendUnindented ++ [Op.newLine]).map .op := by
      simp [Function.comp_def]
    rw [steps, runAll_ops, Writer.applyAll_pieces, drawn r.writer isBase]
    rfl

end Script

/-! ## Groups -/

/-- An item that does not fail and draws an outline. -/
structure Item.Draws (item : Item) : Prop where
  succeeds : ∀ r, (item.attempt r).2 = none
  draws : Run.Draws fun r => (item.attempt r).1

/-- A group of such items. -/
def Group.Draws : Group → Prop
  | .mk _ items => ∀ item ∈ items, item.Draws

theorem Group.draws_ofLines (texts : List String) : (Group.ofLines texts).Draws :=
  List.forall_mem_map.mpr fun text _ =>
    ⟨fun _ => rfl, (Run.lays_line text).draws.congr fun _ => rfl⟩

theorem Group.draws_ofScripts (spacing : Spacing) {scripts : List Script}
    (all : ∀ script ∈ scripts, script.Draws) : (Group.ofScripts spacing scripts).Draws :=
  List.forall_mem_map.mpr fun script isScript =>
    ⟨fun _ => rfl, (all script isScript).congr fun _ => rfl⟩

namespace Run

/-- Items that draw never fail, and a group of them draws. -/
theorem draws_writeItems (spacing : Spacing) (hadOutput wroteAny : Bool) {items : List Item}
    (all : ∀ item ∈ items, item.Draws) :
    (∀ r, (Sections.writeItems (·.update Writer.newLine) spacing hadOutput wroteAny
      (Item.attempts items) r).2 = none) ∧
    Draws (fun r => (Sections.writeItems (·.update Writer.newLine) spacing hadOutput wroteAny
      (Item.attempts items) r).1) := by
  induction items generalizing wroteAny with
  | nil => exact ⟨fun _ => rfl, draws_id.congr fun _ => rfl⟩
  | cons item rest ih =>
    obtain ⟨own, others⟩ := List.forall_mem_cons.mp all
    obtain ⟨succeeds, draws⟩ := ih true others
    refine ⟨fun r => ?_, ?_⟩
    · rw [writeItems_cons _ _ _ own.succeeds]
      exact succeeds _
    · have gap : Draws (fun r => if Sections.separates spacing hadOutput wroteAny
          then r.update Writer.newLine else r) := by
        split
        · exact draws_newLine
        · exact draws_id
      exact ((gap.comp own.draws).comp draws).congr fun r => by
        rw [writeItems_cons _ _ _ own.succeeds]

/-- So do groups of such items, with the separators between them. -/
theorem draws_writeGroups (hadOutput : Bool) {groups : List Group}
    (all : ∀ group ∈ groups, group.Draws) :
    Draws (fun r => (Sections.writeGroups (·.update Writer.newLine) hadOutput
      (Group.attempts groups) r).state) := by
  induction groups generalizing hadOutput with
  | nil => exact draws_id.congr fun _ => rfl
  | cons group rest ih =>
    obtain ⟨spacing, items⟩ := group
    obtain ⟨own, others⟩ := List.forall_mem_cons.mp all
    obtain ⟨succeeds, draws⟩ := draws_writeItems spacing hadOutput false own
    exact (draws.comp (ih (hadOutput || !items.isEmpty) others)).congr fun r =>
      congrArg Run.writer (writeGroups_cons spacing hadOutput succeeds rest r)

end Run

theorem Script.draws_sections {groups : List Group} (all : ∀ group ∈ groups, group.Draws) :
    Draws [.sections groups] := (Run.draws_writeGroups false all).congr fun _ => rfl

/-- What the script writes at a level. -/
def Script.textAt (style : Indent) (level : Nat) (script : Script) : String :=
  Run.textOf (Step.runAll script) style level

/-- A script on its own is written at the outermost level. -/
theorem Script.Draws.render_eq {script : Script} (h : script.Draws) (style : Indent) :
    script.render style = script.textAt style 0 := by
  obtain ⟨n, written⟩ := h.writer_eq { writer := .empty style }
  rw [Script.render, Script.write, Script.run, written]
  exact String.empty_append.trans String.empty_append

/-- A whole script renders one outline in all styles. -/
theorem Script.Draws.exists_render {script : Script} (h : script.Draws) :
    ∃ o : Outline, ∀ style : Indent, script.render style = o.text style := by
  obtain ⟨o, same⟩ := h.exists_textOf 0
  exact ⟨o, fun style => (h.render_eq style).trans (same style)⟩

end CSharpGen

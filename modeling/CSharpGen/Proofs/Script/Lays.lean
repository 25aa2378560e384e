import CSharpGen.Proofs.Script.Layout
import CSharpGen.Proofs.Script.Sections
import CSharpGen.Proofs.Writer.Guards

/-!
# Scripts and their layouts

`Run.Lays f ls` says that `f` appends exactly the lines of `ls`, indented for the place where they
are written, and leaves every count of the writer but the numbering of its blocks. Blocks, branches
and groups of items compose.
-/

namespace CSharpGen

namespace Writer

variable (w : Writer)

/-- The writer with the lines of a layout. -/
def lay (ls : Layout) : Writer := w.appendRaw (Layout.text w.style (w.depth + w.extraIndent) ls)

/-- Lines that are laid one after the other are laid together. -/
theorem lay_lay (before after : Layout) : (w.lay before).lay after = w.lay (before ++ after) := by
  rw [lay, lay, lay, Layout.text_append, ← appendRaw_appendRaw]
  rfl

theorem appendLine_lay (text : String) : w.appendLine text = w.lay [{ text }] := by
  rw [appendLine_eq, lay, Layout.text_cons, Layout.text_nil, String.append_empty]
  rfl

theorem newLine_lay : w.newLine = w.lay [.blank] := rfl

/-- Lines laid under an extra indent stand one level further in. -/
theorem increaseIndent_lay (ls : Layout) :
    (w.increaseIndent.lay ls).decreaseIndent = w.lay ls.deeper := by
  rw [lay, lay, Layout.text_deeper]
  rfl

end Writer

namespace Layout

/-- The lines for the texts that are not blank. -/
def heads (texts : List String) : Layout :=
  (texts.filter (!Text.isBlankText ·)).map fun text => { text }

/-- A block with continuation lines below its header. -/
def block (header : String) (constraints : List String) (inner : Layout) : Layout :=
  heads [header] ++ (heads constraints).deeper ++ .opening :: inner.deeper ++
    [.closing]

/-- Layouts with a blank line before those that are marked. -/
def separated (parts : List (Bool × Layout)) : Layout :=
  parts.flatMap fun (gap, ls) => if gap then .blank :: ls else ls

/-- The items of groups, separated as their groups say. -/
def ofGroups (groups : List (Spacing × List Layout)) : Layout :=
  separated (Sections.marked false groups)

theorem separated_append (before after : List (Bool × Layout)) :
    separated (before ++ after) = separated before ++ separated after := List.flatMap_append

/-- What holds of empty lines and of the lines of all parts. -/
theorem forall_mem_separated {P : Line → Prop} (empty : P .blank) {parts : List (Bool × Layout)}
    (all : ∀ part ∈ parts, ∀ l ∈ part.2, P l) : ∀ l ∈ separated parts, P l := by
  refine List.forall_mem_flatMap.mpr fun (gap, ls) isPart => ?_
  have own : ∀ l ∈ ls, P l := all _ isPart
  cases gap with
  | false => exact own
  | true => exact List.forall_mem_cons.mpr ⟨empty, own⟩

/-- Head lines are a layout in which blank texts have no line. -/
theorem text_heads (w : Writer) (texts : List String) :
    w.headLines texts = text w.style (w.depth + w.extraIndent) (heads texts) := by
  rw [Writer.headLines, text, heads, List.map_map]
  rfl

theorem text_brace {style : Indent} {base : Nat} {brace : Line}
    (h : brace = .opening ∨ brace = .closing) :
    text style base [brace] = style.levels base ++ (brace.text ++ "\n") := by
  have solid : brace.level = 0 ∧ Text.isBlankText brace.text = false ∧
      Text.trimEnd brace.text = brace.text := by
    rcases h with rfl | rfl <;> decide
  rw [text_cons, text_nil, String.append_empty, Line.body, solid.1, solid.2.1, solid.2.2]
  exact String.append_assoc

end Layout

namespace Writer

variable (w : Writer)

/-! ## Blocks -/

/-- The writer in a block that it opened, with the lines written since then. -/
def opened (ls : Layout) (nextBlock : Nat) : Writer :=
  { w.lay ls with openBlocks := w.nextBlock :: w.openBlocks, nextBlock }

/-- The head of a block is a layout: its header, its continuation lines further in, its brace. -/
theorem opening_eq (header : String) (constraints : List String) : w.opening header constraints =
    Layout.text w.style (w.depth + w.extraIndent)
      (Layout.heads [header] ++ (Layout.heads constraints).deeper ++ [.opening]) := by
  rw [opening, Layout.text_append, Layout.text_append, Layout.text_deeper, Layout.text_heads,
    Layout.text_heads, Layout.text_brace (.inl rfl)]
  rfl

/-- A text that ends with a character that is not blank is indented as it is. -/
theorem indented_of_endsSolid {text : String} (h : Text.EndsSolid text) :
    w.indented text = w.indentation ++ text := by
  rw [indented, h.not_blank, h.trimEnd_eq]
  rfl

/-- Texts that end with something solid are written as they are. -/
theorem headLines_of_endsSolid {texts : List String} (all : ∀ text ∈ texts, Text.EndsSolid text) :
    w.headLines texts = String.join (texts.map (w.indentation ++ · ++ "\n")) := by
  have filled : texts.filter (!Text.isBlankText ·) = texts :=
    List.filter_eq_self.mpr fun text member => by rw [(all text member).not_blank]; rfl
  rw [headLines, filled]
  exact congrArg String.join
    (List.map_congr_left fun text member => by rw [w.indented_of_endsSolid (all text member)])

/-- The lines of a header and of what continues it, and the line of the brace. -/
theorem opening_of_endsSolid {header : String} (head : Text.EndsSolid header)
    {constraints : List String} (all : ∀ text ∈ constraints, Text.EndsSolid text) :
    w.opening header constraints = w.indentation ++ header ++ "\n" ++
      String.join (constraints.map (w.increaseIndent.indentation ++ · ++ "\n")) ++
      (w.indentation ++ "\x7b" ++ "\n") := by
  have brace : w.indentation ++ "\x7b" ++ "\n" = w.indentation ++ "\x7b\n" := String.append_assoc
  rw [opening, w.headLines_of_endsSolid (List.forall_mem_singleton.mpr head),
    w.increaseIndent.headLines_of_endsSolid all, brace, List.map_singleton, String.join_cons,
    String.join_nil, String.append_empty]

theorem openBlock_opened (header : String) (constraints : List String) :
    w.openBlock header constraints =
      (w.opened (Layout.heads [header] ++ (Layout.heads constraints).deeper ++ [.opening])
        (w.nextBlock + 1), w.nextBlock) := by
  rw [openBlock_eq, opening_eq, opened, lay]

/-- Lines inside an open block stand one level further in. -/
theorem opened_lay (before ls : Layout) (n m : Nat) :
    { (w.opened before n).lay ls with nextBlock := m } = w.opened (before ++ ls.deeper) m := by
  have deeper : (w.opened before n).depth + (w.opened before n).extraIndent =
      w.depth + w.extraIndent + 1 := by
    simp only [opened, lay, appendRaw, Cursor.depth, List.length_cons]
    omega
  rw [lay, deeper, opened, opened, lay, lay, Layout.text_append, Layout.text_deeper,
    ← appendRaw_appendRaw]
  rfl

/-- Closing the innermost block of a writer that is at the end of a line. -/
theorem closeBlock_innermost {text : String} (ended : Text.endsLine (w.buffer ++ text) = true)
    (n : Nat) :
    closeBlock { w.appendRaw text with openBlocks := w.nextBlock :: w.openBlocks, nextBlock := n }
        w.nextBlock =
      { w.appendRaw (text ++ Layout.text w.style (w.depth + w.extraIndent) [.closing]) with
        nextBlock := n } := by
  let inside : Writer :=
    { w.appendRaw text with openBlocks := w.nextBlock :: w.openBlocks, nextBlock := n }
  have closes : inside.closeBlock w.nextBlock = _ := closeBlock_of_endsLine rfl ended
  have brace : Layout.text w.style (w.depth + w.extraIndent) [.closing] =
      w.style.levels (w.depth + w.extraIndent) ++ "\x7d" ++ "\n" := by
    rw [Layout.text_brace (.inr rfl), String.append_assoc]
    rfl
  change inside.closeBlock w.nextBlock = _
  rw [closes, brace, ← appendRaw_appendRaw w text]
  rfl

/-- Closing the block puts its brace behind the lines inside it. -/
theorem opened_closeBlock {ls : Layout} (filled : ls ≠ []) (n : Nat) :
    (w.opened ls n).closeBlock w.nextBlock =
      { w.lay (ls ++ [.closing]) with nextBlock := n } := by
  rw [lay, Layout.text_append]
  exact w.closeBlock_innermost (Layout.endsLine_text filled w.buffer) n

end Writer

namespace Run

/-- `f` appends exactly the lines of `ls`. -/
structure Lays (f : Run → Run) (ls : Layout) : Prop where
  result : ∀ r, ∃ nextBlock, (f r).writer = { r.writer.lay ls with nextBlock }

variable {f g : Run → Run} {ls before after : Layout}

theorem lays_id : Lays (fun r => r) [] where
  result r := ⟨r.writer.nextBlock, (Writer.appendRaw_empty r.writer).symm⟩

/-- Runs one after the other lay their lines one after the other. -/
theorem Lays.comp (first : Lays f before) (second : Lays g after) :
    Lays (fun r => g (f r)) (before ++ after) where
  result r := by
    obtain ⟨n, afterFirst⟩ := first.result r
    obtain ⟨m, afterSecond⟩ := second.result (f r)
    refine ⟨m, ?_⟩
    rw [afterSecond, afterFirst, ← Writer.lay_lay]
    rfl

/-- Only the writer matters. -/
theorem Lays.congr (h : Lays f ls) (same : ∀ r, (g r).writer = (f r).writer) : Lays g ls where
  result r := by
    obtain ⟨n, written⟩ := h.result r
    exact ⟨n, (same r).trans written⟩

/-- What a body observed of names and errors does not show in its lines. -/
theorem Lays.observed (h : Lays f ls) : Lays (fun r => f r.observe) ls where
  result r := h.result r.observe

theorem lays_update {change : Writer → Writer} (same : ∀ w : Writer, change w = w.lay ls) :
    Lays (fun r => r.update change) ls where
  result r := ⟨r.writer.nextBlock, same r.writer⟩

theorem lays_line (text : String) : Lays (fun r => r.update (·.appendLine text)) [{ text }] :=
  lays_update fun w => w.appendLine_lay text

theorem lays_newLine : Lays (fun r => r.update Writer.newLine) [.blank] :=
  lays_update fun w => w.newLine_lay

theorem Lays.indented (h : Lays f ls) :
    Lays (fun r => (f (r.update Writer.increaseIndent)).update Writer.decreaseIndent)
      ls.deeper where
  result r := by
    obtain ⟨n, inner⟩ := h.result (r.update Writer.increaseIndent)
    refine ⟨n, ?_⟩
    rw [← Writer.increaseIndent_lay]
    exact congrArg Writer.decreaseIndent inner

/-- A block lays its header and braces around the lines of its body. -/
theorem Lays.inBlock (h : Lays f ls) (header : String) (constraints : List String) :
    Lays (fun r => r.inBlock header constraints f) (.block header constraints ls) where
  result r := by
    obtain ⟨n, inner⟩ :=
      h.result { r with writer := (r.writer.openBlock header constraints).1 }
    refine ⟨n, ?_⟩
    have closes : (r.inBlock header constraints f).writer =
        (f { r with writer := (r.writer.openBlock header constraints).1 }).writer.closeBlock
          (r.writer.openBlock header constraints).2 := rfl
    rw [closes, inner, Writer.openBlock_opened, Writer.opened_lay,
      Writer.opened_closeBlock _ (by simp), Layout.block]
    simp

theorem update_update (r : Run) (first second : Writer → Writer) :
    (r.update first).update second = r.update fun w => second (first w) := rfl

/-- A label, lines below it and a break. -/
theorem Lays.inCase (h : Lays f ls) (label : String) : Lays (fun r => r.inCase label f)
    (({ text := label } : Line) :: Layout.deeper (ls ++ [{ text := "break;" }])) := by
  have below := (h.comp (lays_line "break;")).indented
  refine ((lays_line label).comp below).congr fun r => ?_
  rw [update_update, update_update]
  rfl

end Run

/-! ## Scripts -/

namespace Script

/-- The lines that a script writes. -/
abbrev Lays (script : Script) (ls : Layout) : Prop := Run.Lays (Step.runAll script) ls

variable {script first second : Script} {ls before after : Layout}

theorem lays_nil : Lays [] [] := Run.lays_id

theorem Lays.append (h : Lays first before) (alsoSecond : Lays second after) :
    Lays (first ++ second) (before ++ after) :=
  (Run.Lays.comp h alsoSecond).congr fun r => congrArg Run.writer (Step.runAll_append _ _ r)

theorem lays_line (text : String) : Lays [.line text] [{ text }] :=
  (Run.lays_line text).congr fun _ => rfl

theorem lays_newLine : Lays [.op .newLine] [.blank] := Run.lays_newLine.congr fun _ => rfl

theorem lays_lines (texts : List String) : Lays (Step.lines texts) (texts.map ({ text := · })) := by
  induction texts with
  | nil => exact lays_nil
  | cons text rest ih => exact (lays_line text).append ih

theorem Lays.indented (h : Lays script ls) :
    Lays (.op .increaseIndent :: (script ++ [.op .decreaseIndent])) ls.deeper := by
  refine h.observed.indented.congr fun r => ?_
  rw [Step.runAll, Step.runAll_append]
  rfl

theorem Lays.block (h : Lays script ls) (header : String) (constraints : List String) :
    Lays [.block header constraints script] (.block header constraints ls) := by
  exact (h.observed.inBlock header constraints).congr fun _ => rfl

/-- Operations as steps. -/
theorem runAll_ops (ops : List Op) (r : Run) :
    (Step.runAll (ops.map .op) r).writer = r.writer.applyAll ops := by
  induction ops generalizing r with
  | nil => rfl
  | cons op rest ih => exact ih _

/-- Operations write what they write one after the other. -/
theorem lays_ops {ops : List Op} (same : ∀ w : Writer, w.applyAll ops = w.lay ls) :
    Lays (ops.map .op) ls where
  result r := ⟨r.writer.nextBlock, (runAll_ops ops r).trans (same r.writer)⟩

theorem Lays.isolated (h : Lays script ls) : Lays [.isolated script] ls where
  result r := h.result { r with reserved := [] }

/-- A script on its own is the text of its layout. -/
theorem Lays.render_eq (h : Lays script ls) (style : Indent) :
    script.render style = Layout.text style 0 ls := by
  obtain ⟨n, written⟩ := h.result { writer := .empty style }
  rw [Script.render, Script.write, Script.run, written]
  exact String.empty_append.trans String.empty_append

/-- The depth and the extra indent of the writer are as before. -/
theorem Lays.write_depth (h : Lays script ls) (w : Writer) :
    (script.write w).depth = w.depth ∧ (script.write w).extraIndent = w.extraIndent := by
  obtain ⟨n, written⟩ := h.result { writer := w }
  rw [Script.write, Script.run, written]
  exact ⟨rfl, rfl⟩

end Script

end CSharpGen

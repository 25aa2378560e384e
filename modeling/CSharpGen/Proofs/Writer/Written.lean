import CSharpGen.Proofs.Writer.Tree

/-!
# What each call writes

Every call but the reservation of a sub-writer appends one text to the buffer and moves the
counters. The text depends on the counters before the call, and for a closing brace on whether the
writer ends in the middle of a line.
-/

namespace CSharpGen.Writer

@[simp] theorem appendRaw_empty (w : Writer) : w.appendRaw "" = w := by
  simp [appendRaw]

@[simp] theorem appendRaw_appendRaw (w : Writer) (s t : String) :
    (w.appendRaw s).appendRaw t = w.appendRaw (s ++ t) := by
  simp [appendRaw, String.append_assoc]

@[simp] theorem appendRaw_segments (w : Writer) (s : String) :
    (w.appendRaw s).segments = w.segments := rfl

@[simp] theorem appendRaw_buffer (w : Writer) (s : String) :
    (w.appendRaw s).buffer = w.buffer ++ s := rfl

@[simp] theorem appendRaw_openBlocks (w : Writer) (s : String) :
    (w.appendRaw s).openBlocks = w.openBlocks := rfl

@[simp] theorem appendRaw_indentation (w : Writer) (s : String) :
    (w.appendRaw s).indentation = w.indentation := rfl

/-! ## Text -/

/-- An indented text, or nothing for a blank one. -/
def indented (w : Writer) (text : String) : String :=
  if Text.isBlankText text then "" else w.indentation ++ Text.trimEnd text

@[simp] theorem appendRaw_indented (w : Writer) (s : String) :
    (w.appendRaw s).indented = w.indented := rfl

/-- Appending writes the indented text, or nothing for a blank one. -/
theorem append_eq (w : Writer) (text : String) : w.append text = w.appendRaw (w.indented text) := by
  unfold append indented
  split <;> simp

theorem appendLine_eq (w : Writer) (text : String) :
    w.appendLine text = w.appendRaw (w.indented text ++ "\n") := by
  rw [appendLine, append_eq, newLine, appendRaw_appendRaw]

theorem appendUnindentedLine_eq (w : Writer) (text : String) :
    w.appendUnindentedLine text = w.appendRaw (Text.trimEnd text ++ "\n") := by
  rw [appendUnindentedLine, appendUnindented, newLine, appendRaw_appendRaw]

/-- Indented lines for the texts that are not blank. -/
def headLines (w : Writer) (texts : List String) : String :=
  String.join ((texts.filter (!Text.isBlankText ·)).map (w.indented · ++ "\n"))

/-- The lines before a block are written as one text. -/
theorem appendNonBlankLines_eq (w : Writer) (texts : List String) :
    w.appendNonBlankLines texts = w.appendRaw (w.headLines texts) := by
  unfold appendNonBlankLines headLines
  induction texts.filter (!Text.isBlankText ·) generalizing w with
  | nil => simp
  | cons text rest ih =>
    rw [List.foldl_cons, ih, appendLine_eq, appendRaw_appendRaw]
    simp [String.join_cons]

/-! ## Blocks -/

theorem appendLine_brace (w : Writer) {brace : String} (h : brace = "\x7b" ∨ brace = "\x7d") :
    w.appendLine brace = w.appendRaw (w.indentation ++ (brace ++ "\n")) := by
  rw [appendLine_eq, indented]
  rcases h with rfl | rfl
  · rw [if_neg (by decide), show Text.trimEnd "\x7b" = "\x7b" from rfl, String.append_assoc]
  · rw [if_neg (by decide), show Text.trimEnd "\x7d" = "\x7d" from rfl, String.append_assoc]

/-- What opening a block writes: its header, its continuation lines and its brace. -/
def opening (w : Writer) (header : String) (constraints : List String) : String :=
  w.headLines [header] ++ w.increaseIndent.headLines constraints ++ (w.indentation ++ "\x7b\n")

/-- Opening a block writes its head with the brace and pushes its number; nothing else changes. -/
theorem openBlock_eq (w : Writer) (header : String) (constraints : List String) :
    w.openBlock header constraints =
      ({ w.appendRaw (w.opening header constraints) with
          openBlocks := w.nextBlock :: w.openBlocks, nextBlock := w.nextBlock + 1 },
        w.nextBlock) := by
  have head : (w.appendNonBlankLines [header]).increaseIndent =
      w.increaseIndent.appendRaw (w.headLines [header]) := by
    rw [appendNonBlankLines_eq]
    rfl
  have rest : ((w.increaseIndent.appendRaw (w.headLines [header])).appendNonBlankLines
      constraints).decreaseIndent =
      w.appendRaw (w.headLines [header] ++ w.increaseIndent.headLines constraints) := by
    rw [appendNonBlankLines_eq, appendRaw_appendRaw]
    rfl
  unfold openBlock opening
  simp only [head, rest, appendLine_brace _ (.inl rfl), appendRaw_appendRaw,
    appendRaw_indentation]
  rfl

/-- What closing a block writes: its brace on a line of its own. -/
def closing (w : Writer) : String :=
  (if w.endsMidLine then "\n" else "") ++ (w.indentation ++ "\x7d\n")

/-- Where the text ends in the middle of a line, that line is ended before the brace. -/
theorem closeBrace_eq (w : Writer) : w.closeBrace = w.appendRaw w.closing := by
  unfold closeBrace closing
  split
  · rw [newLine, appendLine_brace _ (.inr rfl), appendRaw_appendRaw, appendRaw_indentation]
    rfl
  · rw [appendLine_brace _ (.inr rfl), String.empty_append]
    rfl

theorem endBlock_nil {w : Writer} (none : w.openBlocks = []) : w.endBlock = w := by
  simp [endBlock, none]

/-- Ending a block pops its number and writes the brace one level further out. -/
theorem endBlock_cons {w : Writer} {id : Nat} {outer : List Nat}
    (opened : w.openBlocks = id :: outer) :
    w.endBlock = { w with openBlocks := outer }.appendRaw (closing { w with openBlocks := outer }) := by
  simp [endBlock, opened, closeBrace_eq]

/-! ## Operations -/

/-- What an operation writes that neither opens nor closes a block. -/
def written (w : Writer) : Op → String
  | .append text => w.indented text
  | .appendLine text => w.indented text ++ "\n"
  | .appendUnindented text => Text.trimEnd text
  | .appendUnindentedLine text => Text.trimEnd text ++ "\n"
  | .newLine => "\n"
  | .increaseIndent | .decreaseIndent | .beginBlock _ | .endBlock => ""

/-- An operation writes a text, moves the extra indent, opens a block or closes one. -/
theorem apply_cases (op : Op) :
    (∀ w : Writer, w.apply op = w.appendRaw (w.written op)) ∨
      (op = .increaseIndent ∨ op = .decreaseIndent) ∨
      (∃ header, op = .beginBlock header) ∨ op = .endBlock := by
  cases op with
  | append text => exact .inl fun w => append_eq w text
  | appendLine text => exact .inl fun w => appendLine_eq w text
  | appendUnindented => exact .inl fun _ => rfl
  | appendUnindentedLine text => exact .inl fun w => appendUnindentedLine_eq w text
  | newLine => exact .inl fun _ => rfl
  | increaseIndent => exact .inr (.inl (.inl rfl))
  | decreaseIndent => exact .inr (.inl (.inr rfl))
  | beginBlock header => exact .inr (.inr (.inl ⟨header, rfl⟩))
  | endBlock => exact .inr (.inr (.inr rfl))

/-! ## Characters -/

section Characters

variable {P : Char → Prop} (blank : ∀ c, Text.isBlank c = true → P c)

include blank

/-- Besides the characters of the given texts, calls write blanks and the braces of blocks. -/
theorem forall_mem_indented (w : Writer) {text : String} (h : ∀ c ∈ text.toList, P c) :
    ∀ c ∈ (w.indented text).toList, P c := by
  unfold indented
  split
  · exact List.forall_mem_nil _
  · rw [String.toList_append, Text.trimEnd, String.toList_ofList, List.forall_mem_append]
    exact ⟨fun c member => blank c (w.style.levels_chars _ c member).1,
      fun c member => h c (Text.mem_of_mem_dropTailWhile member)⟩

theorem forall_mem_ended {s : String} (h : ∀ c ∈ s.toList, P c) :
    ∀ c ∈ (s ++ "\n").toList, P c := by
  rw [String.toList_append, List.forall_mem_append]
  exact ⟨h, List.forall_mem_singleton.mpr (blank '\n' (by decide))⟩

/-- The characters of head lines are blanks, line ends and those of the texts. -/
theorem forall_mem_headLines (w : Writer) {texts : List String}
    (h : ∀ text ∈ texts, ∀ c ∈ text.toList, P c) : ∀ c ∈ (w.headLines texts).toList, P c := by
  rw [headLines, String.toList_join]
  refine List.forall_mem_flatMap.mpr (List.forall_mem_map.mpr fun text kept => ?_)
  exact forall_mem_ended blank (w.forall_mem_indented blank (h text (List.mem_filter.mp kept).1))

/-- The characters that an operation writes are blanks, line ends and those of its texts. -/
theorem forall_mem_written (w : Writer) {op : Op}
    (h : ∀ text ∈ (Call.op op).texts, ∀ c ∈ text.toList, P c) :
    ∀ c ∈ (w.written op).toList, P c := by
  have trimmed {text : String} (h : ∀ c ∈ text.toList, P c) :
      ∀ c ∈ (Text.trimEnd text).toList, P c := by
    rw [Text.trimEnd, String.toList_ofList]
    exact fun c member => h c (Text.mem_of_mem_dropTailWhile member)
  cases op with
  | append text => exact w.forall_mem_indented blank (h text (by simp [Call.texts]))
  | appendLine text =>
    exact forall_mem_ended blank (w.forall_mem_indented blank (h text (by simp [Call.texts])))
  | appendUnindented text => exact trimmed (h text (by simp [Call.texts]))
  | appendUnindentedLine text =>
    exact forall_mem_ended blank (trimmed (h text (by simp [Call.texts])))
  | newLine => simpa [written] using blank '\n' (by decide)
  | increaseIndent | decreaseIndent | beginBlock | endBlock => exact List.forall_mem_nil _

end Characters

end CSharpGen.Writer

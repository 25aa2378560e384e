import CSharpGen.Proofs.Writer.Braces
import CSharpGen.Proofs.Writer.WholeLines

/-!
# Aligned braces

In runs that write complete lines and never move the extra indent by hand, a block is closed at the
depth at which it was opened. Its two brace lines match and have the same indentation.
-/

namespace CSharpGen

/-- A call that leaves the extra indent to blocks. -/
def Call.KeepsIndent : Call → Prop
  | .op .increaseIndent | .op .decreaseIndent => False
  | _ => True

instance : DecidablePred Call.KeepsIndent := fun c => by
  unfold Call.KeepsIndent
  split <;> infer_instance

/-- The indentations of the brace lines of `n` blocks, innermost first. -/
def Indent.blockIndents (style : Indent) (level : Nat) : Nat → List String
  | 0 => []
  | n + 1 => style.levels (level + n) :: style.blockIndents level n

namespace Writer

open Text (openIndents? openIndents?_append openIndents?_of_braceFree)

/-- An opening brace adds its indentation to the open ones, and a closing brace with the same
indentation takes it away. -/
theorem openIndents?_brace (style : Indent) (level : Nat) (indents : List String) :
    openIndents? indents (style.levels level ++ "\x7b\n") = some (style.levels level :: indents) ∧
      openIndents? (style.levels level :: indents) (style.levels level ++ "\x7d\n") =
        some indents := by
  have chars := style.levels_chars level
  have line (brace : Char) (mark : brace ≠ '\n' ∧ brace ≠ '\r') :
      Text.lines (style.levels level ++ String.ofList [brace] ++ "\n") =
        [style.levels level ++ String.ofList [brace]] := by
    refine Text.lines_single fun c member => ?_
    rw [String.toList_append, String.toList_ofList] at member
    rcases List.mem_append.mp member with indent | single
    · exact (chars c indent).2
    · exact List.mem_singleton.mp single ▸ mark
  obtain ⟨opening, closing⟩ := Text.braceLineStep_indented (fun c member => (chars c member).1) indents
  constructor
  · rw [show "\x7b\n" = String.ofList ['\x7b'] ++ "\n" from rfl, ← String.append_assoc, openIndents?,
      line _ (by decide), List.foldlM_cons]
    exact congrArg (Option.bind · _) opening
  · rw [show "\x7d\n" = String.ofList ['\x7d'] ++ "\n" from rfl, ← String.append_assoc, openIndents?,
      line _ (by decide), List.foldlM_cons]
    exact congrArg (Option.bind · _) closing

/-- The head of a block adds the indentation at which its brace stands. -/
theorem openIndents?_opening (w : Writer) {header : String} {constraints : List String}
    (free : ∀ t ∈ header :: constraints, Text.BraceFree t) (indents : List String) :
    openIndents? indents (w.opening header constraints) = some (w.indentation :: indents) := by
  obtain ⟨first, others⟩ := List.forall_mem_cons.mp free
  have head : Text.BraceFree (w.headLines [header]) :=
    w.braceFree_headLines fun t member => List.mem_singleton.mp member ▸ first
  have rest : Text.BraceFree (w.increaseIndent.headLines constraints) :=
    braceFree_headLines _ others
  have whole := Text.wholeLines_append (w.wholeLines_headLines [header])
    (w.increaseIndent.wholeLines_headLines constraints)
  rw [opening, openIndents?_append whole, openIndents?_of_braceFree (Text.braceFree_append head rest)]
  exact (openIndents?_brace w.style _ indents).1

/-- The end of a block takes the innermost indentation away. -/
theorem openIndents?_closing (w : Writer) (indents : List String) :
    openIndents? (w.indentation :: indents) w.closing = some indents := by
  have free : Text.BraceFree (if w.endsMidLine then "\n" else "") := by split <;> decide
  have whole : Text.WholeLines (if w.endsMidLine then "\n" else "") := by
    split
    · exact .inr (by decide)
    · exact .inl rfl
  rw [closing, openIndents?_append whole, openIndents?_of_braceFree free]
  exact (openIndents?_brace w.style _ indents).2

/-- The lines that close some blocks take away as many indentations. -/
theorem openIndents?_closingLines (style : Indent) (level n : Nat) (indents : List String) :
    openIndents? (style.blockIndents level n ++ indents) (Cursor.closingLines style level n) =
      some indents := by
  induction n with
  | zero => rfl
  | succ n ih =>
    have line : Text.WholeLines (style.levels (level + n) ++ "\x7d\n") :=
      wholeLines_brace _ (by decide)
    rw [Indent.blockIndents, Cursor.closingLines, openIndents?_append line, List.cons_append,
      (openIndents?_brace style (level + n) (style.blockIndents level n ++ indents)).2]
    exact ih

/-! ## The invariant -/

/-- The brace lines that are open in the own text of a writer are those of its open blocks. -/
structure Aligned (w : Writer) : Prop where
  whole : w.WholeLines
  noExtra : w.extraIndent = 0
  indents : ∀ indents, openIndents? indents w.ownText =
    some (w.style.blockIndents w.baseDepth w.openBlocks.length ++ indents)

/-- The calls under which braces stay aligned. -/
def AlignedCall (c : Call) : Prop := c.WritesLines ∧ c.KeepsIndent ∧ c.BraceFree

theorem Aligned.wholeLines_ownText {w : Writer} (h : w.Aligned) : Text.WholeLines w.ownText :=
  texts_ownText wholeLines_joins h.whole

theorem aligned_appendRaw {w : Writer} (h : w.Aligned) {s : String} (whole : Text.WholeLines s)
    (free : Text.BraceFree s) : (w.appendRaw s).Aligned where
  whole := texts_appendRaw wholeLines_joins h.whole whole
  noExtra := h.noExtra
  indents indents := by
    rw [ownText_appendRaw, openIndents?_append h.wholeLines_ownText, h.indents indents]
    exact openIndents?_of_braceFree free _

/-- Without extra indentation a line is indented by the open blocks alone. -/
theorem indentation_of_aligned {w : Writer} (h : w.Aligned) :
    w.indentation = w.style.levels (w.baseDepth + w.openBlocks.length) := by
  rw [Cursor.indentation, Cursor.depth, h.noExtra, Nat.add_zero]

theorem aligned_openBlock {w : Writer} (h : w.Aligned) {header : String}
    {constraints : List String} (free : ∀ t ∈ header :: constraints, Text.BraceFree t) :
    (w.openBlock header constraints).1.Aligned where
  whole :=
    texts_openBlock wholeLines_joins h.whole (w.wholeLines_opening header constraints)
  noExtra := by
    rw [openBlock_eq]
    exact h.noExtra
  indents indents := by
    rw [ownText_openBlock, openIndents?_append h.wholeLines_ownText, h.indents indents,
      Option.bind_some, openIndents?_opening w free, indentation_of_aligned h, openBlock_eq]
    rfl

/-- A closing brace is indented as the brace that it answers. -/
theorem aligned_endBlock {w : Writer} (h : w.Aligned) : w.endBlock.Aligned := by
  cases opened : w.openBlocks with
  | nil => rwa [endBlock_nil opened]
  | cons id outer =>
    have own : ({ w with openBlocks := outer } : Writer).ownText = w.ownText := rfl
    have level : ({ w with openBlocks := outer } : Writer).indentation =
        w.style.levels (w.baseDepth + outer.length) := by
      rw [Cursor.indentation, Cursor.depth]
      exact congrArg w.style.levels (by simp [h.noExtra])
    refine ⟨texts_endBlock wholeLines_joins h.whole, ?_, fun indents => ?_⟩
    · rw [endBlock_cons opened]
      exact h.noExtra
    · rw [endBlock_cons opened, ownText_appendRaw, own, openIndents?_append h.wholeLines_ownText,
        h.indents indents, opened, Option.bind_some, List.length_cons, Indent.blockIndents,
        List.cons_append, ← level, openIndents?_closing]
      rfl

theorem aligned_apply {w : Writer} (h : w.Aligned) {op : Op} (ok : AlignedCall (.op op)) :
    (w.apply op).Aligned := by
  obtain ⟨lines, keeps, free⟩ := ok
  rcases apply_cases op with writes | (rfl | rfl) | ⟨header, rfl⟩ | rfl
  · rw [writes]
    exact aligned_appendRaw h (wholeLines_writes.written w _ lines) (w.braceFree_written free)
  · exact keeps.elim
  · exact keeps.elim
  · exact aligned_openBlock h free
  · exact aligned_endBlock h

theorem aligned_child {w : Writer} (noExtra : w.extraIndent = 0) {header : Option String}
    (free : (Call.reserve header).BraceFree) : (w.child header).Aligned := by
  have fresh : ({ style := w.style, baseDepth := w.depth, extraIndent := w.extraIndent } :
      Writer).Aligned := ⟨wholeLines_child w none, noExtra, fun _ => rfl⟩
  cases header with
  | none => exact fresh
  | some text => exact aligned_openBlock fresh free

theorem aligned_reserve {w : Writer} (h : w.Aligned) (header : Option String) :
    (w.reserve header).1.Aligned := by
  refine ⟨texts_reserve wholeLines_joins h.whole header, ?_, fun indents => ?_⟩
  · rw [reserve_toCursor]
    exact h.noExtra
  · rw [ownText_reserve, h.indents indents, reserve_toCursor]

/-- Calls that end their lines and leave the extra indent to blocks keep brace lines aligned. -/
theorem aligned_invariant : Invariant Aligned AlignedCall where
  call w c ok h := by
    cases c with
    | op op => exact aligned_apply h.here ok
    | openBlock header constraints => exact aligned_openBlock h.here ok.2.2
    | closeBlock id => exact closeBlock_keeps (Q := Aligned) (fun _ => aligned_endBlock) h.here id
    | reserve header => exact aligned_reserve h.here header
  child _ _ ok h := aligned_child h.here.noExtra ok.2.2
  setSub w i old new found h := by
    refine ⟨texts_setSub h.whole i new, h.noExtra, fun indents => ?_⟩
    rw [ownText_setSub found, h.indents indents, setSub_toCursor]

/-! ## Rendered brace lines -/

/-- A rendered writer leaves the open brace lines around it as they are. -/
theorem openIndents?_render {w : Writer} (aligned : Everywhere Aligned w)
    (grounded : Everywhere Grounded w) (indents : List String) :
    openIndents? indents w.render = some indents := by
  induction aligned generalizing indents with
  | intro w here below ih =>
    have whole : Everywhere WholeLines w := (Everywhere.intro w here below).mono fun _ h => h.whole
    have segments := Segment.scan_renderAllAfter Text.WholeLines
      (fun indents s t h => openIndents?_append h indents t) (renderAfter_of_mem grounded)
      (fun s member => by
        rcases segment_cases member with ⟨text, rfl⟩ | ⟨i, sub, found, rfl⟩
        · simp [Segment.renderAfter, Segment.ownText, here.whole.2 text member]
        · exact ⟨texts_render wholeLines_joins (whole.sub found), .inl rfl,
            ih i sub found (grounded.sub found)⟩)
    have inner : Text.WholeLines (Segment.renderAllAfter w.segments "") :=
      texts_segments wholeLines_joins whole (.inl rfl)
    have own : openIndents? indents w.body = openIndents? indents w.ownText := by
      rw [body, ownText, openIndents?_append inner, segments,
        openIndents?_append (texts_joined wholeLines_joins here.whole)]
    by_cases opened : w.openBlocks = []
    · rw [render_eq_body opened, own, here.indents, opened]
      rfl
    · have body := texts_body wholeLines_joins whole
      rw [render_eq_closing opened, Text.finishLine_of_wholeLines body, openIndents?_append body, own,
        here.indents, here.noExtra, Option.bind_some, Nat.add_zero, openIndents?_closingLines]

/-- In every run on a tree of writers that is given no braces, the braces of the rendered text are
balanced. In runs that also write complete lines and leave the extra indent to blocks, the lines of
one brace match, and both lines of a pair have the same indentation. -/
theorem render_braces_match (style : Indent) (actions : List Action)
    (free : ∀ a ∈ actions, a.call.BraceFree) :
    Text.BracesBalanced ((Writer.empty style).run actions).render ∧
      ((∀ a ∈ actions, a.call.WritesLines ∧ a.call.KeepsIndent) →
        Text.BraceLinesAligned ((Writer.empty style).run actions).render) := by
  have grounded := grounded_run style actions
  constructor
  · have matched : Everywhere Matched ((Writer.empty style).run actions) :=
      matched_invariant.run free (everywhere_of_segments_nil (fun _ => rfl) rfl)
    exact Text.bracesBalanced_of_braceDepth? (braceDepth?_render matched grounded 0)
  · intro lines
    have fresh : (Writer.empty style).Aligned := ⟨⟨.inl rfl, by simp [empty]⟩, rfl, fun _ => rfl⟩
    have aligned : Everywhere Aligned ((Writer.empty style).run actions) :=
      aligned_invariant.run (fun a member => ⟨(lines a member).1, (lines a member).2, free a member⟩)
        (everywhere_of_segments_nil fresh rfl)
    exact openIndents?_render aligned grounded []

/-- A sub-writer that is filled and closed after the block around it was closed by its guard. -/
def lateBranch : List Action := [
  ⟨[], .openBlock "class Box<T>" ["where T : class"]⟩, ⟨[], .op (.beginBlock "void Run()")⟩,
  ⟨[], .reserve (some "if (ready)")⟩, ⟨[], .closeBlock 0⟩, ⟨[1], .op (.appendLine "Go();")⟩,
  ⟨[1], .op .endBlock⟩, ⟨[], .op .endBlock⟩]

theorem render_braces_match_lateBranch :
    ((∀ a ∈ lateBranch, a.call.BraceFree) ∧
      ∀ a ∈ lateBranch, a.call.WritesLines ∧ a.call.KeepsIndent) ∧
    Text.BracesBalanced ((Writer.empty .spaces).run lateBranch).render ∧
      Text.BraceLinesAligned ((Writer.empty .spaces).run lateBranch).render := by
  have free : ∀ a ∈ lateBranch, a.call.BraceFree := by decide
  have lines : ∀ a ∈ lateBranch, a.call.WritesLines ∧ a.call.KeepsIndent := by decide
  obtain ⟨balanced, aligned⟩ := render_braces_match .spaces lateBranch free
  exact ⟨⟨free, lines⟩, balanced, aligned lines⟩

end Writer

end CSharpGen

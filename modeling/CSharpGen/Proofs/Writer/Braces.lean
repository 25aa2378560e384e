import CSharpGen.Proofs.Text.Braces
import CSharpGen.Proofs.Writer.OwnText

/-!
# Balanced braces

The depth of the braces in a writer's own text is the number of its open blocks. Sub-writers render
to balanced texts, so they do not count, and rendering closes what is open.
-/

namespace CSharpGen

/-- A call that is given no braces. -/
def Call.BraceFree (c : Call) : Prop := ∀ text ∈ c.texts, Text.BraceFree text

instance : DecidablePred Call.BraceFree := fun c => List.decidableBAll Text.BraceFree c.texts

namespace Text

/-- No blank is a brace. -/
theorem ne_brace_of_isBlank (c : Char) (blank : isBlank c = true) : c ≠ '\x7b' ∧ c ≠ '\x7d' := by
  constructor <;> rintro rfl <;> cases blank

theorem braceFree_append {s t : String} (hs : BraceFree s) (ht : BraceFree t) :
    BraceFree (s ++ t) := by
  intro c member
  rw [String.toList_append] at member
  exact (List.mem_append.mp member).elim (hs c) (ht c)

theorem braceFree_levels (style : Indent) (n : Nat) : BraceFree (style.levels n) :=
  fun c member => ne_brace_of_isBlank c (style.levels_chars n c member).1

end Text

namespace Writer

open Text (BraceFree braceDepth? braceDepth?_append braceDepth?_of_braceFree braceFree_append)

/-! ## What calls write -/

theorem braceFree_headLines (w : Writer) {texts : List String} (h : ∀ t ∈ texts, BraceFree t) :
    BraceFree (w.headLines texts) := w.forall_mem_headLines Text.ne_brace_of_isBlank h

/-- What an operation without braces in its texts writes has none either. -/
theorem braceFree_written (w : Writer) {op : Op} (free : (Call.op op).BraceFree) :
    BraceFree (w.written op) := w.forall_mem_written Text.ne_brace_of_isBlank free

/-- An opening brace goes one level down, whatever indents it, and a closing one comes back up. -/
theorem braceDepth?_brace (style : Indent) (levels depth : Nat) :
    braceDepth? depth (style.levels levels ++ "\x7b\n") = some (depth + 1) ∧
      braceDepth? (depth + 1) (style.levels levels ++ "\x7d\n") = some depth := by
  have indented (d : Nat) := braceDepth?_of_braceFree (Text.braceFree_levels style levels) d
  constructor
  · rw [braceDepth?_append, indented]
    rfl
  · rw [braceDepth?_append, indented]
    rfl

/-- The head of a block goes one level down. -/
theorem braceDepth?_opening (w : Writer) {header : String} {constraints : List String}
    (h : ∀ t ∈ header :: constraints, BraceFree t) (depth : Nat) :
    braceDepth? depth (w.opening header constraints) = some (depth + 1) := by
  obtain ⟨first, others⟩ := List.forall_mem_cons.mp h
  have head : BraceFree (w.headLines [header]) :=
    w.braceFree_headLines fun t member => List.mem_singleton.mp member ▸ first
  have rest : BraceFree (w.increaseIndent.headLines constraints) := braceFree_headLines _ others
  rw [opening, braceDepth?_append, braceDepth?_of_braceFree (braceFree_append head rest)]
  exact (braceDepth?_brace w.style _ depth).1

/-- The end of a block goes one level up. -/
theorem braceDepth?_closing (w : Writer) (depth : Nat) :
    braceDepth? (depth + 1) w.closing = some depth := by
  have start : BraceFree (if w.endsMidLine then "\n" else "") := by split <;> decide
  rw [closing, braceDepth?_append, braceDepth?_of_braceFree start]
  exact (braceDepth?_brace w.style _ depth).2

/-- The lines that close some blocks come up as many levels. -/
theorem braceDepth?_closingLines (style : Indent) (level n depth : Nat) :
    braceDepth? (depth + n) (Cursor.closingLines style level n) = some depth := by
  induction n with
  | zero => rfl
  | succ n ih =>
    rw [Cursor.closingLines, braceDepth?_append, ← Nat.add_assoc,
      (braceDepth?_brace style (level + n) (depth + n)).2]
    exact ih

/-! ## The invariant -/

/-- The own text of a writer is as deep in braces as blocks are open. -/
def Matched (w : Writer) : Prop :=
  ∀ depth, braceDepth? depth w.ownText = some (depth + w.openBlocks.length)

theorem matched_appendRaw {w : Writer} (h : w.Matched) {s : String} (free : BraceFree s) :
    (w.appendRaw s).Matched := by
  intro depth
  rw [ownText_appendRaw, braceDepth?_append, h depth]
  exact braceDepth?_of_braceFree free _

theorem matched_openBlock {w : Writer} (h : w.Matched) {header : String}
    {constraints : List String} (free : ∀ t ∈ header :: constraints, BraceFree t) :
    (w.openBlock header constraints).1.Matched := by
  intro depth
  rw [ownText_openBlock, braceDepth?_append, h depth, openBlock_openBlocks, List.length_cons,
    Option.bind_some, braceDepth?_opening w free, Nat.add_assoc]

/-- Ending a block keeps the number of open braces and open blocks the same. -/
theorem matched_endBlock {w : Writer} (h : w.Matched) : w.endBlock.Matched := by
  intro depth
  cases opened : w.openBlocks with
  | nil => rw [endBlock_nil opened, h depth]
  | cons id outer =>
    have own : ({ w with openBlocks := outer } : Writer).ownText = w.ownText := rfl
    rw [endBlock_cons opened, ownText_appendRaw, own, braceDepth?_append, h depth, opened,
      Option.bind_some, List.length_cons, ← Nat.add_assoc, braceDepth?_closing,
      appendRaw_openBlocks]

theorem matched_apply {w : Writer} (h : w.Matched) {op : Op} (free : (Call.op op).BraceFree) :
    (w.apply op).Matched := by
  rcases apply_cases op with writes | (rfl | rfl) | ⟨header, rfl⟩ | rfl
  · rw [writes]
    exact matched_appendRaw h (w.braceFree_written free)
  · exact h
  · exact h
  · exact matched_openBlock h free
  · exact matched_endBlock h

theorem matched_child (w : Writer) {header : Option String}
    (free : (Call.reserve header).BraceFree) : (w.child header).Matched := by
  cases header with
  | none => exact fun _ => rfl
  | some text => exact matched_openBlock (fun _ => rfl) free

/-- Calls without braces in their texts keep the own text of a writer as deep in braces as blocks
are open. -/
theorem matched_invariant : Invariant Matched Call.BraceFree where
  call w c free h := by
    cases c with
    | op op => exact matched_apply h.here free
    | openBlock header constraints => exact matched_openBlock h.here free
    | closeBlock id => exact closeBlock_keeps (Q := Matched) (fun _ => matched_endBlock) h.here id
    | reserve header =>
      intro depth
      rw [call, ownText_reserve, h.here depth, reserve_toCursor]
  child w header free _ := matched_child w free
  setSub w i old new found h depth := by
    rw [ownText_setSub found, h depth, setSub_toCursor]

/-! ## Rendered braces -/

/-- Balanced sub-writers do not count, so the depth of a body is that of the own text. -/
theorem braceDepth?_body {w : Writer} (grounded : Everywhere Grounded w)
    (subs : ∀ i sub, w.sub? i = some sub → ∀ depth, braceDepth? depth sub.render = some depth)
    (depth : Nat) : braceDepth? depth w.body = braceDepth? depth w.ownText := by
  have segments := Segment.scan_renderAllAfter (fun _ => True)
    (fun depth s t _ => braceDepth?_append depth s t) (renderAfter_of_mem grounded)
    (fun s member => ⟨trivial, trivial, fun depth => by
      rcases segment_cases member with ⟨text, rfl⟩ | ⟨i, sub, found, rfl⟩
      · simp [Segment.renderAfter, Segment.ownText]
      · exact subs i sub found depth⟩) depth
  rw [body, ownText, braceDepth?_append, braceDepth?_append, segments]

/-- A rendered writer leaves the depth of the text around it as it is. -/
theorem braceDepth?_render {w : Writer} (matched : Everywhere Matched w)
    (grounded : Everywhere Grounded w) (depth : Nat) :
    braceDepth? depth w.render = some depth := by
  induction matched generalizing depth with
  | intro w here _ ih =>
    have own := braceDepth?_body grounded (fun i sub found => ih i sub found (grounded.sub found))
    by_cases opened : w.openBlocks = []
    · rw [render_eq_body opened, own, here, opened]
      rfl
    · have newline : BraceFree (if (Text.unfinished? w.body).getD false then "\n" else "") := by
        split <;> decide
      rw [render_eq_closing opened, braceDepth?_append, Text.finishLine_eq, braceDepth?_append,
        own, here, Option.bind_some, braceDepth?_of_braceFree newline, Option.bind_some,
        braceDepth?_closingLines]

end Writer

end CSharpGen

import CSharpGen.Proofs.Text.LineEnds
import CSharpGen.Proofs.Writer.Run

/-!
# Rendering

A writer with an open block has text of its own: the brace of the block. By this invariant what a
writer renders after other output is its own text, whatever that output is, and what a writer knows
of the end of its text is what its rendered text shows.
-/

namespace CSharpGen

namespace Writer

/-- The text of a writer before the braces that rendering adds. -/
def body (w : Writer) : String := Segment.renderAllAfter w.segments "" ++ w.buffer

/-- Whether something was written to the writer itself. -/
def HasText (w : Writer) : Prop := w.buffer ≠ "" ∨ ∃ text, text ≠ "" ∧ Segment.text text ∈ w.segments

/-- An open block has left its brace in the writer. -/
def Grounded (w : Writer) : Prop := w.openBlocks ≠ [] → w.HasText

theorem hasText_appendRaw {w : Writer} (h : w.HasText) (s : String) : (w.appendRaw s).HasText := by
  rcases h with buffer | segment
  · exact .inl (by simp [buffer])
  · exact .inr segment

theorem hasText_of_appendRaw {s : String} (h : s ≠ "") (w : Writer) : (w.appendRaw s).HasText :=
  .inl (by simp [h])

theorem opening_ne_empty (w : Writer) (header : String) (constraints : List String) :
    w.opening header constraints ≠ "" := by
  simp [opening]

theorem closing_ne_empty (w : Writer) : w.closing ≠ "" := by
  simp [closing]

/-- A block leaves at least its brace behind. -/
theorem hasText_openBlock (w : Writer) (header : String) (constraints : List String) :
    (w.openBlock header constraints).1.HasText := by
  rw [openBlock_eq]
  exact hasText_of_appendRaw (opening_ne_empty w header constraints) w

theorem grounded_openBlock (w : Writer) (header : String) (constraints : List String) :
    (w.openBlock header constraints).1.Grounded := fun _ => hasText_openBlock w header constraints

/-- Ending a block adds text, so a writer that had some still has. -/
theorem grounded_endBlock {w : Writer} (h : w.Grounded) : w.endBlock.Grounded := by
  cases opened : w.openBlocks with
  | nil => rwa [endBlock_nil opened]
  | cons id outer =>
    intro _
    rw [endBlock_cons opened]
    exact hasText_of_appendRaw (closing_ne_empty _) _

theorem grounded_apply {w : Writer} (h : w.Grounded) (op : Op) : (w.apply op).Grounded := by
  rcases apply_cases op with writes | (rfl | rfl) | ⟨header, rfl⟩ | rfl
  · rw [writes]
    exact fun opened => hasText_appendRaw (h opened) _
  · exact h
  · exact h
  · exact grounded_openBlock _ _ _
  · exact grounded_endBlock h

theorem hasText_flush {w : Writer} (h : w.HasText) : w.flush.HasText := by
  unfold flush
  split
  · exact h
  · next full => exact .inr ⟨w.buffer, by simpa using full, by simp⟩

theorem hasText_reserve {w : Writer} (h : w.HasText) (header : Option String) :
    (w.reserve header).1.HasText := by
  rcases hasText_flush h with buffer | ⟨text, full, member⟩
  · exact .inl buffer
  · exact .inr ⟨text, full, List.mem_append_left _ member⟩

theorem grounded_reserve {w : Writer} (h : w.Grounded) (header : Option String) :
    (w.reserve header).1.Grounded := by
  intro opened
  rw [reserve_toCursor] at opened
  exact hasText_reserve (h opened) header

/-- A sub-writer has no open block, or its header and brace. -/
theorem grounded_child (w : Writer) (header : Option String) : (w.child header).Grounded := by
  cases header with
  | none => exact fun opened => absurd rfl opened
  | some text => exact grounded_openBlock _ _ _

theorem hasText_setSub {w old : Writer} {i : Nat} (found : w.sub? i = some old) (h : w.HasText)
    (new : Writer) : (w.setSub i new).HasText := by
  rcases h with buffer | ⟨text, full, member⟩
  · exact .inl buffer
  · refine .inr ⟨text, full, ?_⟩
    obtain ⟨j, at_j⟩ := List.mem_iff_getElem?.mp member
    have different : i ≠ j := by
      rintro rfl
      rw [sub?_eq_some_iff.mp found] at at_j
      cases at_j
    exact List.mem_iff_getElem?.mpr ⟨j, by rw [setSub, List.getElem?_set_ne different, at_j]⟩

theorem grounded_setSub {w old : Writer} {i : Nat} (found : w.sub? i = some old) (h : w.Grounded)
    (new : Writer) : (w.setSub i new).Grounded := fun opened => hasText_setSub found (h opened) new

/-- Every call keeps open blocks grounded. -/
theorem grounded_invariant : Invariant Grounded fun _ => True where
  call w c _ h := by
    cases c with
    | op op => exact grounded_apply h.here op
    | openBlock header constraints => exact grounded_openBlock w header constraints
    | closeBlock id => exact closeBlock_keeps (Q := Grounded) (fun _ => grounded_endBlock) h.here id
    | reserve header => exact grounded_reserve h.here header
  child w header _ _ := grounded_child w header
  setSub _ _ _ new found h := grounded_setSub found h new

/-- Every writer of a tree that was built by calls has the brace of its open blocks. -/
theorem grounded_run (style : Indent) (actions : List Action) :
    Everywhere Grounded ((Writer.empty style).run actions) :=
  grounded_invariant.run (fun _ _ => trivial)
    (everywhere_of_segments_nil (fun opened => absurd rfl opened) rfl)

/-! ## Rendered text -/

end Writer

/-- Segments that render behind a text what they render alone do so together. -/
theorem Segment.renderAllAfter_eq {segments : List Segment}
    (each : ∀ s ∈ segments, ∀ out, s.renderAfter out = out ++ s.renderAfter "") (out : String) :
    Segment.renderAllAfter segments out = out ++ Segment.renderAllAfter segments "" := by
  induction segments generalizing out with
  | nil => simp [renderAllAfter]
  | cons s rest ih =>
    have others := ih fun t member => each t (List.mem_cons_of_mem s member)
    rw [renderAllAfter, renderAllAfter, others, others (s.renderAfter ""),
      each s List.mem_cons_self out, String.append_assoc]

theorem Segment.renderAllAfter_eq_empty_iff {segments : List Segment}
    (each : ∀ s ∈ segments, ∀ out, s.renderAfter out = out ++ s.renderAfter "") :
    Segment.renderAllAfter segments "" = "" ↔ ∀ s ∈ segments, s.renderAfter "" = "" := by
  induction segments with
  | nil => simp [renderAllAfter]
  | cons s rest ih =>
    have others : ∀ t ∈ rest, ∀ out, t.renderAfter out = out ++ t.renderAfter "" :=
      fun t member => each t (List.mem_cons_of_mem s member)
    rw [renderAllAfter, renderAllAfter_eq others, String.append_eq_empty_iff, ih others,
      List.forall_mem_cons]

namespace Writer

theorem renderAllAfter_append (front back : List Segment) (out : String) :
    Segment.renderAllAfter (front ++ back) out =
      Segment.renderAllAfter back (Segment.renderAllAfter front out) := by
  induction front generalizing out with
  | nil => rfl
  | cons s rest ih => exact ih (s.renderAfter out)

/-- A segment is a text or one of the sub-writers. -/
theorem segment_cases {w : Writer} {s : Segment} (member : s ∈ w.segments) :
    (∃ text, s = .text text) ∨ ∃ i sub, w.sub? i = some sub ∧ s = sub.toSegment := by
  cases s with
  | text content => exact .inl ⟨content, rfl⟩
  | nested cursor segments =>
    have member : ({ toCursor := cursor, segments } : Writer).toSegment ∈ w.segments := member
    obtain ⟨i, found⟩ := sub?_of_mem member
    exact .inr ⟨i, _, found, rfl⟩

theorem renderAfter_segment {w : Writer}
    (subs : ∀ i sub, w.sub? i = some sub → ∀ out, sub.renderAfter out = out ++ sub.render) :
    ∀ s ∈ w.segments, ∀ out, s.renderAfter out = out ++ s.renderAfter "" := by
  intro s member out
  rcases segment_cases member with ⟨text, rfl⟩ | ⟨i, sub, found, rfl⟩
  · simp [Segment.renderAfter]
  · exact subs i sub found out

/-- A body is empty exactly when every part of it is. -/
theorem body_eq_empty_iff {w : Writer}
    (each : ∀ s ∈ w.segments, ∀ out, s.renderAfter out = out ++ s.renderAfter "") :
    w.body = "" ↔ w.buffer = "" ∧ ∀ s ∈ w.segments, s.renderAfter "" = "" := by
  rw [body, String.append_eq_empty_iff, Segment.renderAllAfter_eq_empty_iff each, and_comm]

theorem body_ne_empty {w : Writer} (h : w.HasText)
    (each : ∀ s ∈ w.segments, ∀ out, s.renderAfter out = out ++ s.renderAfter "") :
    w.body ≠ "" := by
  rw [Ne, body_eq_empty_iff each]
  rintro ⟨noBuffer, noSegments⟩
  rcases h with buffer | ⟨text, full, member⟩
  · exact buffer noBuffer
  · exact full (by simpa [Segment.renderAfter] using noSegments _ member)

/-- What closes the blocks does not depend on what stands before the text, as a text with open
blocks is not empty. -/
theorem closeAfter_append {c : Cursor} {text : String} (out : String)
    (full : c.openBlocks ≠ [] → text ≠ "") :
    c.closeAfter (out ++ text) = out ++ c.closeAfter text := by
  unfold Cursor.closeAfter
  cases opened : c.openBlocks with
  | nil => rfl
  | cons id outer =>
    have nonempty := full (by simp [opened])
    simp [Text.finishLine_append out nonempty, String.append_assoc]

/-- A writer renders its own text after whatever was rendered before it. -/
theorem renderAfter_eq {w : Writer} (h : Everywhere Grounded w) (out : String) :
    w.renderAfter out = out ++ w.render := by
  induction h generalizing out with
  | intro w grounded _ ih =>
    have each := renderAfter_segment fun i sub found => ih i sub found
    have split : Segment.renderAllAfter w.segments out ++ w.buffer = out ++ w.body := by
      rw [Segment.renderAllAfter_eq each, String.append_assoc, body]
    have grown := closeAfter_append (c := w.toCursor) out
      fun opened => body_ne_empty (grounded opened) each
    rw [render, renderAfter, renderAfter, split, grown, ← body]

theorem renderAfter_of_mem {w : Writer} (h : Everywhere Grounded w) :
    ∀ s ∈ w.segments, ∀ out, s.renderAfter out = out ++ s.renderAfter "" :=
  renderAfter_segment fun _ _ found => renderAfter_eq (h.sub found)

/-- The brace of an open block is part of the text. -/
theorem body_ne_empty_of_opened {w : Writer} (h : Everywhere Grounded w)
    (opened : w.openBlocks ≠ []) : w.body ≠ "" :=
  body_ne_empty (h.here opened) (renderAfter_of_mem h)

/-! ## The end of the text -/

theorem closingLines_endsLine (style : Indent) (level n : Nat) :
    Text.endsLine (Cursor.closingLines style level (n + 1)) = true := by
  induction n with
  | zero =>
    rw [Cursor.closingLines, Cursor.closingLines, String.append_empty]
    exact Text.endsLine_append_right _ rfl
  | succ n ih => exact Text.endsLine_append_right _ ih

theorem render_eq_body {w : Writer} (closed : w.openBlocks = []) : w.render = w.body := by
  simp [render, renderAfter, Cursor.closeAfter, closed, body]

/-- With open blocks, rendering ends the last line and closes them from the innermost out. -/
theorem render_eq_closing {w : Writer} (opened : w.openBlocks ≠ []) :
    w.render = Text.finishLine w.body ++
      Cursor.closingLines w.style (w.baseDepth + w.extraIndent) w.openBlocks.length := by
  simp [render, renderAfter, Cursor.closeAfter, opened, body]

/-- Rendering only adds to the text. -/
theorem render_ne_empty {w : Writer} (full : w.body ≠ "") : w.render ≠ "" := by
  by_cases opened : w.openBlocks = []
  · rwa [render_eq_body opened]
  · rw [render_eq_closing opened, Text.finishLine_eq]
    simp [full]

/-- A writer with open blocks renders to complete lines. -/
theorem render_endsLine {w : Writer} (opened : w.openBlocks ≠ []) :
    Text.endsLine w.render = true := by
  obtain ⟨id, outer, eq⟩ := List.exists_cons_of_ne_nil opened
  rw [render_eq_closing opened, eq, List.length_cons]
  exact Text.endsLine_append_right _ (closingLines_endsLine _ _ _)

/-- Asking the segments from the last one on finds the end of the text that they render. -/
theorem lastEndsMidLine?_eq {segments : List Segment}
    (grow : ∀ s ∈ segments, ∀ out, s.renderAfter out = out ++ s.renderAfter "")
    (each : ∀ s ∈ segments, s.endsMidLine? = Text.unfinished? (s.renderAfter "")) :
    Segment.lastEndsMidLine? segments =
      Text.unfinished? (Segment.renderAllAfter segments "") := by
  induction segments with
  | nil => rfl
  | cons s rest ih =>
    have growRest : ∀ t ∈ rest, ∀ out, t.renderAfter out = out ++ t.renderAfter "" :=
      fun t member => grow t (List.mem_cons_of_mem s member)
    rw [Segment.lastEndsMidLine?, Segment.renderAllAfter, Segment.renderAllAfter_eq growRest,
      Text.unfinished?_append, each s List.mem_cons_self,
      ih growRest fun t member => each t (List.mem_cons_of_mem s member)]

theorem lastEndsMidLine?_segments {w : Writer} (h : Everywhere Grounded w) :
    Segment.lastEndsMidLine? w.segments =
      Text.unfinished? (Segment.renderAllAfter w.segments "") := by
  induction h with
  | intro w grounded below ih =>
    refine lastEndsMidLine?_eq (renderAfter_of_mem (.intro w grounded below)) fun s member => ?_
    rcases segment_cases member with ⟨text, rfl⟩ | ⟨i, sub, found, rfl⟩
    · simp [Segment.endsMidLine?, Segment.renderAfter, Text.unfinished?]
    · have render : sub.toSegment.renderAfter "" = sub.render := rfl
      rw [render, toSegment, Segment.endsMidLine?, ih i sub found]
      by_cases opened : sub.openBlocks = []
      · rw [render_eq_body opened, body, Text.unfinished?_append]
        by_cases empty : sub.buffer = "" <;> simp [opened, empty, Text.unfinished?]
      · have full : sub.render ≠ "" := Text.ne_empty_of_endsLine (render_endsLine opened)
        simp [opened, Text.unfinished?, render_endsLine opened, full]

/-- What a writer says of the end of its text is what the text shows. -/
theorem endsMidLine_eq {w : Writer} (h : Everywhere Grounded w) :
    w.endsMidLine = (Text.unfinished? w.body).getD false := by
  rw [endsMidLine, lastEndsMidLine?_segments h, body, Text.unfinished?_append]
  by_cases empty : w.buffer = "" <;> simp [empty, Text.unfinished?]

/-- A buffer that ends a line decides alone. -/
theorem endsMidLine_of_endsLine {w : Writer} (ended : Text.endsLine w.buffer = true) :
    w.endsMidLine = false := by
  have full : w.buffer.isEmpty = false := by simp [Text.ne_empty_of_endsLine ended]
  rw [endsMidLine, full, ended]
  rfl

end Writer

end CSharpGen

import CSharpGen.Proofs.Writer.Texts

/-!
# Runs that write complete lines

Calls that end every line they write keep all texts of a tree at the start of a line. Then no
writer ever ends in the middle of a line.
-/

namespace CSharpGen

/-- A call that ends the lines it writes. -/
def Call.WritesLines : Call → Prop
  | .op (.append _) | .op (.appendUnindented _) => False
  | _ => True

instance : DecidablePred Call.WritesLines := fun c => by
  unfold Call.WritesLines
  split <;> infer_instance

namespace Writer

/-- Everything written to the writer itself is complete lines. -/
def WholeLines (w : Writer) : Prop :=
  Text.WholeLines w.buffer ∧ ∀ text, Segment.text text ∈ w.segments → Text.WholeLines text

/-! ## What calls write -/

theorem wholeLines_brace (s : String) {brace : String} (h : Text.endsLine brace = true) :
    Text.WholeLines (s ++ brace) := .inr (Text.endsLine_append_right s h)

theorem wholeLines_joins : Text.Joins Text.WholeLines where
  empty := .inl rfl
  newline := Text.wholeLines_newline ""
  brace style n := wholeLines_brace _ (by decide)
  append := Text.wholeLines_append

theorem wholeLines_headLines (w : Writer) (texts : List String) :
    Text.WholeLines (w.headLines texts) :=
  wholeLines_joins.headLines w fun _ _ => Text.wholeLines_newline _

/-- The head of a block ends with its brace, which ends a line. -/
theorem wholeLines_opening (w : Writer) (header : String) (constraints : List String) :
    Text.WholeLines (w.opening header constraints) := by
  rw [opening, ← String.append_assoc]
  exact wholeLines_brace _ (by decide)

/-- Operations that write lines write whole ones. -/
theorem wholeLines_writes : Call.Writes Text.WholeLines Call.WritesLines where
  written w op lines := by
    cases op with
    | append | appendUnindented => exact lines.elim
    | appendLine | appendUnindentedLine => exact Text.wholeLines_newline _
    | newLine => exact Text.wholeLines_newline ""
    | increaseIndent | decreaseIndent | beginBlock | endBlock => exact .inl rfl
  opening w _ header constraints _ _ := w.wholeLines_opening header constraints

theorem wholeLines_invariant : Invariant WholeLines Call.WritesLines :=
  texts_invariant wholeLines_joins wholeLines_writes

theorem wholeLines_child (w : Writer) (header : Option String) : (w.child header).WholeLines :=
  texts_child wholeLines_joins w fun v text _ => v.wholeLines_opening text []

/-! ## No line is unfinished -/

theorem lastEndsMidLine?_ne {segments : List Segment}
    (each : ∀ s ∈ segments, s.endsMidLine? ≠ some true) :
    Segment.lastEndsMidLine? segments ≠ some true := by
  induction segments with
  | nil => simp [Segment.lastEndsMidLine?]
  | cons s rest ih =>
    have others := ih fun t member => each t (List.mem_cons_of_mem s member)
    have first := each s List.mem_cons_self
    rw [Segment.lastEndsMidLine?]
    cases last : Segment.lastEndsMidLine? rest with
    | none => rwa [Option.none_or]
    | some mid => rwa [Option.some_or, ← last]

/-- A tree of whole lines never says that it ends in the middle of one. -/
theorem lastEndsMidLine?_wholeLines {w : Writer} (h : Everywhere WholeLines w) :
    Segment.lastEndsMidLine? w.segments ≠ some true := by
  induction h with
  | intro w here below ih =>
    refine lastEndsMidLine?_ne fun s member => ?_
    rcases segment_cases member with ⟨text, rfl⟩ | ⟨i, sub, found, rfl⟩
    · rcases here.2 text member with rfl | ended
      · simp [Segment.endsMidLine?]
      · simp [Segment.endsMidLine?, ended]
    · have segments := ih i sub found
      have buffer := (below i sub found).here.1
      by_cases opened : sub.openBlocks = []
      · rcases buffer with empty | ended
        · simpa [toSegment, Segment.endsMidLine?, opened, empty] using segments
        · by_cases empty : sub.buffer = ""
          · simpa [toSegment, Segment.endsMidLine?, opened, empty] using segments
          · simp [toSegment, Segment.endsMidLine?, opened, empty, ended]
      · simp [toSegment, Segment.endsMidLine?, opened]

/-- A writer of complete lines starts no new line before a brace. -/
theorem endsMidLine_wholeLines {w : Writer} (h : Everywhere WholeLines w) :
    w.endsMidLine = false := by
  unfold endsMidLine
  split
  · cases last : Segment.lastEndsMidLine? w.segments with
    | none => rfl
    | some mid =>
      have finished := lastEndsMidLine?_wholeLines h
      rw [last] at finished
      simpa using finished
  · next full =>
    rcases h.here.1 with empty | ended
    · simp [empty] at full
    · simp [ended]

end Writer

end CSharpGen

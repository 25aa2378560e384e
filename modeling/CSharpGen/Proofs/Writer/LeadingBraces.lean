import CSharpGen.Proofs.Text.LeadingBraces
import CSharpGen.Proofs.Writer.Closing
import CSharpGen.Proofs.Writer.Growth
import CSharpGen.Proofs.Writer.Guards

/-!
# Closing braces on lines of their own

A closing brace that a writer adds may rely on the end of a line before it. Inside a text that end
stands for ever; the start of a text relies on the segments before it. Where these do end a line,
the closing braces of the rendered text lead (`leadsAfter_render`).
-/

namespace CSharpGen

/-- A call that is given no closing braces. -/
def Call.ClosingFree (c : Call) : Prop := ∀ text ∈ c.texts, Text.ClosingFree text

instance : DecidablePred Call.ClosingFree := fun c =>
  List.decidableBAll Text.ClosingFree c.texts

namespace Writer

open Text (ClosingFree LeadsAfter endsLine leadsAfter_empty leadsAfter_of_closingFree)

/-- The closing braces of the writer's own texts lead, provided that the segments in `starts` stand
at the start of a line. -/
structure OwnLeads (starts : Nat → Prop) (w : Writer) : Prop where
  segments : ∀ k text, w.segments[k]? = some (.text text) → LeadsAfter (starts k) text
  buffer : LeadsAfter (starts w.segments.length) w.buffer

/-! ## What calls write -/

theorem ne_closing_of_isBlank (c : Char) (blank : Text.isBlank c = true) : c ≠ '\x7d' := by
  rintro rfl
  cases blank

/-- What an operation writes has a closing brace only if its texts have one. -/
theorem closingFree_written (w : Writer) {op : Op} (free : (Call.op op).ClosingFree) :
    ClosingFree (w.written op) := w.forall_mem_written ne_closing_of_isBlank free

theorem closingFree_levels (style : Indent) (n : Nat) : ClosingFree (style.levels n) :=
  fun c member => ne_closing_of_isBlank c (style.levels_chars n c member).1

theorem closingFree_opening (w : Writer) {header : String} {constraints : List String}
    (free : ∀ text ∈ header :: constraints, ClosingFree text) :
    ClosingFree (w.opening header constraints) := by
  obtain ⟨first, others⟩ := List.forall_mem_cons.mp free
  have head : ClosingFree (w.headLines [header]) :=
    w.forall_mem_headLines ne_closing_of_isBlank (List.forall_mem_singleton.mpr first)
  have rest : ClosingFree (w.increaseIndent.headLines constraints) :=
    forall_mem_headLines ne_closing_of_isBlank _ others
  have brace : ClosingFree "\x7b\n" := by decide
  simp only [ClosingFree, opening, String.toList_append, List.forall_mem_append]
  exact ⟨⟨head, rest⟩, closingFree_levels _ _, brace⟩

/-- An indented brace leads its line. -/
theorem leadsAfter_brace (style : Indent) (n : Nat) :
    LeadsAfter True (style.levels n ++ "\x7d\n") := by
  intro blank known
  obtain rfl := known trivial
  have indent := Text.leads?_of_blank fun c member => (style.levels_chars n c member).1
  rw [Text.leads?_append, indent]
  rfl

/-- A closing brace relies on the end of a line unless it starts a line itself. -/
theorem leadsAfter_closing (w : Writer) : LeadsAfter (w.endsMidLine = false) w.closing := by
  have start : LeadsAfter (w.endsMidLine = false) (if w.endsMidLine then "\n" else "") :=
    leadsAfter_of_closingFree (by split <;> decide) _
  refine start.append (leadsAfter_brace w.style _) fun _ => ?_
  cases mid : w.endsMidLine with
  | true => exact .inl rfl
  | false => exact .inr ⟨rfl, rfl⟩

/-- At the start of a line, lines of indented closing braces lead. -/
theorem leadsAfter_closingLines (style : Indent) (level n : Nat) :
    LeadsAfter True (Cursor.closingLines style level n) := by
  induction n with
  | zero => exact leadsAfter_empty _
  | succ n ih =>
    have ended := Text.endsLine_append_right (style.levels (level + n)) (t := "\x7d\n") rfl
    exact (leadsAfter_brace style _).append ih fun _ => .inl ended

/-! ## The invariant -/

variable {starts : Nat → Prop} {w : Writer}

/-- A text that relies on the end of a line may follow one in the buffer, or the segments when the
buffer is empty. -/
theorem ownLeads_appendRaw (h : OwnLeads starts w) {ended : Prop} {s : String}
    (leads : LeadsAfter ended s)
    (ends : ended → endsLine w.buffer = true ∨ w.buffer = "" ∧ starts w.segments.length) :
    OwnLeads starts (w.appendRaw s) :=
  ⟨h.segments, h.buffer.append leads ends⟩

/-- A text without closing braces relies on nothing. -/
theorem ownLeads_write (h : OwnLeads starts w) {s : String} (free : ClosingFree s) :
    OwnLeads starts (w.appendRaw s) :=
  ownLeads_appendRaw h (leadsAfter_of_closingFree free False) False.elim

theorem ownLeads_openBlock (h : OwnLeads starts w) {header : String} {constraints : List String}
    (free : ∀ text ∈ header :: constraints, ClosingFree text) :
    OwnLeads starts (w.openBlock header constraints).1 := by
  have written := ownLeads_write h (w.closingFree_opening free)
  rw [openBlock_eq]
  exact ⟨written.segments, written.buffer⟩

/-- A call that closes a block of the writer. Other calls write no closing brace, and neither does
one that would close a block that is not open. -/
def ClosesBlock (w : Writer) : Call → Prop
  | .op .endBlock => w.openBlocks ≠ []
  | .closeBlock id => id ∈ w.openBlocks
  | _ => False

/-- The next text, if it starts right behind segments that end a line, may rely on them. -/
def Relied (starts : Nat → Prop) (w : Writer) : Prop :=
  w.buffer = "" → w.StartsLine w.segments.length → starts w.segments.length

/-- A closing brace relies on what stands before it only where no line was ended for it. -/
theorem ownLeads_endBlock (h : OwnLeads starts w) (grounded : Everywhere Grounded w)
    (relied : w.openBlocks ≠ [] → w.Relied starts) : OwnLeads starts w.endBlock := by
  cases opened : w.openBlocks with
  | nil => rwa [endBlock_nil opened]
  | cons id outer =>
    let inner : Writer := { w with openBlocks := outer }
    have full : w.body ≠ "" := body_ne_empty_of_opened grounded (by simp [opened])
    have inside : OwnLeads starts inner := ⟨h.segments, h.buffer⟩
    rw [endBlock_cons opened]
    refine ownLeads_appendRaw inside (leadsAfter_closing inner) fun ended => ?_
    have ended : endsLine w.body = true := by
      have same : inner.body = w.body := rfl
      rw [endsMidLine_eq (everywhere_openBlocks grounded (by simp [opened])), same] at ended
      simpa [Text.unfinished?, full] using ended
    by_cases empty : w.buffer = ""
    · rw [body, empty, String.append_empty] at ended
      exact .inr ⟨empty, relied (by simp [opened]) empty (by rwa [StartsLine, List.take_length])⟩
    · rw [body, Text.endsLine_append _ empty] at ended
      exact .inl ended

/-- After a closing brace the buffer is not empty, so nothing relies on the segments any more. -/
theorem relied_endBlock (relied : w.Relied starts) : w.endBlock.Relied starts := by
  cases opened : w.openBlocks with
  | nil => rwa [endBlock_nil opened]
  | cons id outer =>
    rw [endBlock_cons opened]
    exact fun empty => absurd empty (by simp [closing_ne_empty])

theorem ownLeads_closeBlock (h : OwnLeads starts w) (grounded : Everywhere Grounded w) {id : Nat}
    (relied : id ∈ w.openBlocks → w.Relied starts) : OwnLeads starts (w.closeBlock id) := by
  have step (v : Writer) (h : OwnLeads starts v ∧ Everywhere Grounded v ∧ v.Relied starts) :
      OwnLeads starts v.endBlock ∧ Everywhere Grounded v.endBlock ∧ v.endBlock.Relied starts :=
    ⟨ownLeads_endBlock h.1 h.2.1 fun _ => h.2.2,
      grounded_invariant.everywhere_call (c := .op .endBlock) trivial h.2.1, relied_endBlock h.2.2⟩
  by_cases opened : id ∈ w.openBlocks
  · exact (closeBlock_keeps step ⟨h, grounded, relied opened⟩ id).1
  · rwa [closeBlock_of_notMem opened]

theorem ownLeads_apply (h : OwnLeads starts w) (grounded : Everywhere Grounded w) {op : Op}
    (free : (Call.op op).ClosingFree) (relied : w.ClosesBlock (.op op) → w.Relied starts) :
    OwnLeads starts (w.apply op) := by
  rcases apply_cases op with writes | (rfl | rfl) | ⟨header, rfl⟩ | rfl
  · rw [writes]
    exact ownLeads_write h (w.closingFree_written free)
  · exact ⟨h.segments, h.buffer⟩
  · exact ⟨h.segments, h.buffer⟩
  · exact ownLeads_openBlock h free
  · exact ownLeads_endBlock h grounded relied

theorem segment_concat {segments : List Segment} {last s : Segment} {k : Nat}
    (found : (segments ++ [last])[k]? = some s) :
    segments[k]? = some s ∨ k = segments.length ∧ s = last := by
  have bound : k ≤ segments.length := by
    have within := (List.getElem?_eq_some_iff.mp found).1
    rwa [List.length_append, List.length_singleton, Nat.lt_succ_iff] at within
  rcases Nat.lt_or_eq_of_le bound with before | rfl
  · rw [List.getElem?_append_left before] at found
    exact .inl found
  · rw [List.getElem?_concat_length] at found
    exact .inr ⟨rfl, (Option.some.inj found).symm⟩

theorem ownLeads_flush (h : OwnLeads starts w) : OwnLeads starts w.flush := by
  unfold flush
  split
  · exact h
  · refine ⟨fun k text found => ?_, leadsAfter_empty _⟩
    rcases segment_concat found with old | ⟨rfl, new⟩
    · exact h.segments k text old
    · cases new
      exact h.buffer

/-- A reservation makes a segment of the buffer, which keeps what it relies on. -/
theorem ownLeads_reserve (h : OwnLeads starts w) (header : Option String) :
    OwnLeads starts (w.reserve header).1 := by
  have flushed := ownLeads_flush h
  refine ⟨fun k text found => ?_, by simpa [reserve_toCursor] using leadsAfter_empty _⟩
  rw [reserve_fst] at found
  rcases segment_concat found with old | ⟨-, new⟩
  · exact flushed.segments k text old
  · cases new

/-- Sub-writers have no part in the own braces. -/
theorem ownLeads_setSub (h : OwnLeads starts w) (i : Nat) (sub : Writer) :
    OwnLeads starts (w.setSub i sub) := by
  refine ⟨fun k text found => ?_, by simpa [setSub] using h.buffer⟩
  rw [setSub, List.getElem?_set] at found
  split at found
  · split at found <;> cases found
  · exact h.segments k text found

theorem ownLeads_of_empty (none : w.segments = []) (buffer : w.buffer = "") :
    OwnLeads starts w :=
  ⟨by simp [none], buffer ▸ leadsAfter_empty _⟩

theorem ownLeads_child (w : Writer) {header : Option String}
    (free : (Call.reserve header).ClosingFree) : OwnLeads starts (w.child header) := by
  cases header with
  | none => exact ownLeads_of_empty rfl rfl
  | some text => exact ownLeads_openBlock (ownLeads_of_empty rfl rfl) free

/-- A call keeps the own braces of a writer leading. -/
theorem ownLeads_call (h : OwnLeads starts w) (grounded : Everywhere Grounded w) {c : Call}
    (free : c.ClosingFree) (relied : w.ClosesBlock c → w.Relied starts) :
    OwnLeads starts (w.call c) := by
  cases c with
  | op op => exact ownLeads_apply h grounded free relied
  | openBlock header constraints => exact ownLeads_openBlock h free
  | closeBlock id => exact ownLeads_closeBlock h grounded relied
  | reserve header => exact ownLeads_reserve h header

/-! ## Rendered braces -/

/-- The segments up to any place have leading braces when the sub-writers among them do. -/
theorem leadsAfter_take (own : OwnLeads w.StartsLine w) (grounded : Everywhere Grounded w)
    (subs : ∀ i sub, w.sub? i = some sub → LeadsAfter False sub.render) (k : Nat) :
    LeadsAfter False (Segment.renderAllAfter (w.segments.take k) "") := by
  induction k with
  | zero => exact leadsAfter_empty _
  | succ k ih =>
    cases found : w.segments[k]? with
    | none =>
      rw [List.take_add_one, found]
      simpa using ih
    | some s =>
      rw [renderAllAfter_take_succ grounded found]
      rcases segment_cases (List.mem_of_getElem? found) with ⟨text, rfl⟩ | ⟨i, sub, isSub, rfl⟩
      · have empty : (Segment.text text).renderAfter "" = text := by simp [Segment.renderAfter]
        rw [empty]
        exact ih.append (own.segments k text found) .inl
      · exact ih.append (subs i sub isSub) False.elim

theorem leadsAfter_body (own : OwnLeads w.StartsLine w) (grounded : Everywhere Grounded w)
    (subs : ∀ i sub, w.sub? i = some sub → LeadsAfter False sub.render) :
    LeadsAfter False w.body := by
  have segments := leadsAfter_take own grounded subs w.segments.length
  rw [List.take_length] at segments
  refine segments.append own.buffer fun start => .inl ?_
  rwa [StartsLine, List.take_length] at start

/-- The closing braces of a rendered tree lead, whatever stands before it. -/
theorem leadsAfter_render (own : Everywhere (fun w => OwnLeads w.StartsLine w) w)
    (grounded : Everywhere Grounded w) : LeadsAfter False w.render := by
  induction own with
  | intro w here _ ih =>
    have body := leadsAfter_body here grounded fun i sub found => ih i sub found (grounded.sub found)
    by_cases opened : w.openBlocks = []
    · rwa [render_eq_body opened]
    · have full : w.body ≠ "" := body_ne_empty_of_opened grounded opened
      have newline : LeadsAfter False (if (Text.unfinished? w.body).getD false then "\n" else "") :=
        leadsAfter_of_closingFree (by split <;> decide) _
      have finished : LeadsAfter False (Text.finishLine w.body) := by
        rw [Text.finishLine_eq]
        exact body.append newline False.elim
      rw [render_eq_closing opened]
      exact finished.append (leadsAfter_closingLines _ _ _) fun _ =>
        .inl (Text.endsLine_finishLine full)

end Writer

end CSharpGen

import CSharpGen.Proofs.Writer.Handles
import CSharpGen.Proofs.Writer.Rendering

/-!
# What stands in a text for ever

Calls write behind what is there or fill the places of sub-writers. So a text that was written
stays where it is, and a writer that rendered something renders something ever after. A place that
stood at the start of a line still does, unless the sub-writer right before it was written to since
and now ends in the middle of a line (`startsLine_run`).
-/

namespace CSharpGen

namespace Writer

variable {w : Writer}

/-! ## Texts stay -/

/-- A call on a writer only appends segments. -/
theorem segments_call (w : Writer) (c : Call) : w.segments <+: (w.call c).segments := by
  have same {v : Writer} (same : v.segments = w.segments) : w.segments <+: v.segments :=
    same ▸ List.prefix_rfl
  cases c with
  | op op => exact same (apply_segments w op)
  | openBlock header constraints => exact same (openBlock_segments w header constraints)
  | closeBlock id => exact same (closeBlock_segments w id)
  | reserve header =>
    have flushed : w.segments <+: w.flush.segments := by
      unfold flush
      split
      · exact List.prefix_rfl
      · exact List.prefix_append _ _
    exact flushed.trans (List.prefix_append _ _)

theorem text_act {k : Nat} {text : String} (found : w.segments[k]? = some (.text text))
    (a : Action) : (w.act a).segments[k]? = some (.text text) := by
  unfold act
  cases a.path with
  | nil =>
    obtain ⟨more, grown⟩ := segments_call w a.call
    have bound := (List.getElem?_eq_some_iff.mp found).1
    rw [updateAt, ← grown, List.getElem?_append_left bound, found]
  | cons i path =>
    cases isSub : w.sub? i with
    | none => rwa [updateAt_cons_none isSub]
    | some sub =>
      have different : i ≠ k := by
        rintro rfl
        rw [sub?_eq_some_iff.mp isSub] at found
        cases found
      rw [updateAt_cons isSub, setSub, List.getElem?_set_ne different, found]

/-- A text that was moved out of the buffer never changes. -/
theorem text_run {k : Nat} {text : String} (found : w.segments[k]? = some (.text text))
    (actions : List Action) : (w.run actions).segments[k]? = some (.text text) := by
  induction actions generalizing w with
  | nil => exact found
  | cons a rest ih => exact ih (text_act found a)

/-! ## Rendered texts stay -/

theorem hasText_call (h : w.HasText) (c : Call) : (w.call c).HasText := by
  have ends (v : Writer) (h : v.HasText) : v.endBlock.HasText := by
    cases opened : v.openBlocks with
    | nil => rwa [endBlock_nil opened]
    | cons id outer =>
      rw [endBlock_cons opened]
      exact hasText_of_appendRaw (closing_ne_empty _) _
  cases c with
  | op op =>
    rcases apply_cases op with writes | (rfl | rfl) | ⟨header, rfl⟩ | rfl
    · rw [call, writes]
      exact hasText_appendRaw h _
    · exact h
    · exact h
    · exact hasText_openBlock w header []
    · exact ends w h
  | openBlock header constraints => exact hasText_openBlock w header constraints
  | closeBlock id => exact closeBlock_keeps ends h id
  | reserve header => exact hasText_reserve h header

/-- Something is rendered when something was written to the writer or below it. -/
theorem render_ne_empty_iff (grounded : Everywhere Grounded w) :
    w.render ≠ "" ↔ w.HasText ∨ ∃ i sub, w.sub? i = some sub ∧ sub.render ≠ "" := by
  have each := renderAfter_of_mem grounded
  constructor
  · refine fun full => Classical.byContradiction fun none => full ?_
    obtain ⟨noText, noSub⟩ := not_or.mp none
    have closed : w.openBlocks = [] :=
      Classical.byContradiction fun opened => noText (grounded.here opened)
    refine (render_eq_body closed).trans ((body_eq_empty_iff each).mpr ⟨?_, ?_⟩)
    · exact Classical.byContradiction fun buffer => noText (.inl buffer)
    · intro s member
      rcases segment_cases member with ⟨text, rfl⟩ | ⟨i, sub, found, rfl⟩
      · refine Classical.byContradiction fun full => noText (.inr ⟨text, ?_, member⟩)
        simpa [Segment.renderAfter] using full
      · exact Classical.byContradiction fun full => noSub ⟨i, sub, found, full⟩
  · rintro (own | ⟨i, sub, found, nonempty⟩)
    · exact render_ne_empty (body_ne_empty own each)
    · refine render_ne_empty fun empty => nonempty ?_
      exact ((body_eq_empty_iff each).mp empty).2 _ (List.mem_of_getElem? (sub?_eq_some_iff.mp found))

/-- No call empties a text. -/
theorem render_updateAt_ne_empty (grounded : Everywhere Grounded w) (full : w.render ≠ "")
    (c : Call) (path : List Nat) : (updateAt (·.call c) path w).render ≠ "" := by
  induction path generalizing w with
  | nil =>
    refine (render_ne_empty_iff (grounded_invariant.everywhere_call trivial grounded)).mpr ?_
    rcases (render_ne_empty_iff grounded).mp full with own | ⟨i, sub, found, nonempty⟩
    · exact .inl (hasText_call own c)
    · exact .inr ⟨i, sub, sub?_call_of_sub found c, nonempty⟩
  | cons i path ih =>
    cases found : w.sub? i with
    | none => rwa [updateAt_cons_none found]
    | some old =>
      have changed := grounded_invariant.act (a := ⟨i :: path, c⟩) trivial grounded
      rw [act, updateAt_cons found] at changed
      rw [updateAt_cons found]
      refine (render_ne_empty_iff changed).mpr ?_
      rcases (render_ne_empty_iff grounded).mp full with own | ⟨j, sub, other, nonempty⟩
      · exact .inl (hasText_setSub found own _)
      · by_cases same : i = j
        · subst same
          obtain rfl := Option.some.inj (found.symm.trans other)
          exact .inr ⟨i, _, sub?_setSub_self found _, ih (grounded.sub found) nonempty⟩
        · exact .inr ⟨j, sub, (sub?_setSub_ne w _ same).trans other, nonempty⟩

/-- A writer that rendered something renders something ever after. -/
theorem render_run_ne_empty (grounded : Everywhere Grounded w) (full : w.render ≠ "")
    (actions : List Action) : (w.run actions).render ≠ "" := by
  induction actions generalizing w with
  | nil => exact full
  | cons a rest ih =>
    exact ih (grounded_invariant.act trivial grounded)
      (render_updateAt_ne_empty grounded full a.call a.path)

/-! ## Places at the start of a line -/

/-- Whether a segment stands at the start of a line that the segments before it end. -/
def StartsLine (w : Writer) (k : Nat) : Prop :=
  Text.endsLine (Segment.renderAllAfter (w.segments.take k) "") = true

theorem endsMidLine_of_startsLine (grounded : Everywhere Grounded w) (buffer : w.buffer = "")
    (start : w.StartsLine w.segments.length) : w.endsMidLine = false := by
  rw [StartsLine, List.take_length] at start
  rw [endsMidLine_eq grounded, body, buffer, String.append_empty]
  simp [Text.unfinished?, start, Text.ne_empty_of_endsLine start]

/-- The text up to a segment and the text of the segment alone make up the text up to the next one.
-/
theorem renderAllAfter_take_succ (grounded : Everywhere Grounded w) {k : Nat} {s : Segment}
    (found : w.segments[k]? = some s) :
    Segment.renderAllAfter (w.segments.take (k + 1)) "" =
      Segment.renderAllAfter (w.segments.take k) "" ++ s.renderAfter "" := by
  rw [List.take_add_one, renderAllAfter_append, found]
  exact renderAfter_of_mem grounded s (List.mem_of_getElem? found) _

/-- Texts stay as they are, and sub-writers are continued by the calls that are made below them. -/
theorem segment_run {k : Nat} {s : Segment} (found : w.segments[k]? = some s)
    (later : List Action) :
    (∃ text, s = .text text ∧ (w.run later).segments[k]? = some (.text text)) ∨
      ∃ sub, w.sub? k = some sub ∧ s = sub.toSegment ∧
        (w.run later).segments[k]? = some (sub.run (Action.under [k] later)).toSegment := by
  cases s with
  | text content => exact .inl ⟨content, rfl, text_run found later⟩
  | nested cursor segments =>
    have isSub : w.sub? k = some { toCursor := cursor, segments } := sub?_eq_some_iff.mpr found
    have reached := at?_run (at?_cons isSub []) later
    obtain ⟨after, foundAfter, same⟩ := Option.bind_eq_some_iff.mp reached
    obtain rfl := Option.some.inj same
    exact .inr ⟨_, isSub, rfl, sub?_eq_some_iff.mp foundAfter⟩

/-- Nothing is rendered between two segments. -/
def NothingBetween (w : Writer) (i n : Nat) : Prop :=
  ∀ k s, i < k → k < n → w.segments[k]? = some s → s.renderAfter "" = ""

/-- A segment without text extends the stretch in which nothing is rendered. -/
theorem NothingBetween.succ {i n : Nat} (nothing : w.NothingBetween i n) {s : Segment}
    (found : w.segments[n]? = some s) (silent : s.renderAfter "" = "") :
    w.NothingBetween i (n + 1) := by
  intro k t after before foundK
  rcases Nat.lt_succ_iff_lt_or_eq.mp before with inside | rfl
  · exact nothing k t after inside foundK
  · obtain rfl := Option.some.inj (found.symm.trans foundK)
    exact silent

/-- A place stays at the start of a line when the sub-writer right before it ends in complete lines
if it is written to. -/
theorem startsLine_run (grounded : Everywhere Grounded w) {later : List Action} {n : Nat}
    (bound : n ≤ w.segments.length)
    (whole : ∀ i sub, i < n → w.sub? i = some sub → Action.under [i] later ≠ [] →
      (w.run later).NothingBetween i n → Text.WholeLines (sub.run (Action.under [i] later)).render)
    (start : w.StartsLine n) : (w.run later).StartsLine n := by
  have groundedLater : Everywhere Grounded (w.run later) :=
    grounded_invariant.run (fun _ _ => trivial) grounded
  -- on the segments from the last one down: those that render nothing at the end never did
  induction n with
  | zero => exact start
  | succ n ih =>
    have found : w.segments[n]? = some w.segments[n] := List.getElem?_eq_getElem bound
    generalize w.segments[n] = s at found
    obtain ⟨t, foundLater, grows, keeps⟩ : ∃ t, (w.run later).segments[n]? = some t ∧
        (s.renderAfter "" ≠ "" → t.renderAfter "" ≠ "") ∧
        (t = s ∨ Text.WholeLines (t.renderAfter "")) := by
      rcases segment_run found later with ⟨text, rfl, after⟩ | ⟨sub, isSub, rfl, after⟩
      · exact ⟨_, after, id, .inl rfl⟩
      · refine ⟨_, after, fun full => render_run_ne_empty (grounded.sub isSub) full _, ?_⟩
        by_cases untouched : Action.under [n] later = []
        · exact .inl (by rw [untouched]; rfl)
        · refine .inr (whole n sub (Nat.lt_succ_self n) isSub untouched ?_)
          exact fun k _ after before => absurd before (Nat.not_lt.mpr after)
    rw [StartsLine, renderAllAfter_take_succ grounded found] at start
    rw [StartsLine, renderAllAfter_take_succ groundedLater foundLater]
    by_cases silent : t.renderAfter "" = ""
    · have never : s.renderAfter "" = "" := Classical.byContradiction fun full => grows full silent
      rw [never, String.append_empty] at start
      rw [silent, String.append_empty]
      refine ih (Nat.le_of_lt bound) (fun i sub before isSub touched nothing => ?_) start
      exact whole i sub (Nat.lt_succ_of_lt before) isSub touched (nothing.succ foundLater silent)
    · refine Text.endsLine_append_right _ ?_
      rcases keeps with rfl | lines
      · rwa [Text.endsLine_append _ silent] at start
      · exact lines.resolve_left silent

end Writer

end CSharpGen

import CSharpGen.Proofs.Script.Keeps
import CSharpGen.Proofs.Writer.Follows
import CSharpGen.Proofs.Writer.Growth

/-!
# Places of texts

A writer that goes on holds every text of the earlier one in its place, and the last of them may
have grown. Only the sub-writers of the earlier one may hold other texts. So what a script wrote
stands in every later text between what its start and its end have become
(`Writer.Continues.exists_since`).
-/

namespace CSharpGen

/-- What was appended to a text. -/
def Text.since (before after : String) : String :=
  String.ofList (after.toList.drop before.toList.length)

theorem Text.since_append (before appended : String) :
    since before (before ++ appended) = appended := by
  simp [since]

namespace Writer

/-- The segments, with the buffer as the last one. -/
def pieces (w : Writer) : List Segment := w.segments ++ [.text w.buffer]

/-- A later writer has the texts of an earlier one in their places. -/
structure Continues (w v : Writer) : Prop where
  reaches : w.segments.length ≤ v.segments.length
  grows : ∀ {k : Nat} {text : String}, w.pieces[k]? = some (.text text) → text ≠ "" →
    ∃ more, v.pieces[k]? = some (.text (text ++ more))

/-- What the text of an earlier writer has become in a later one. -/
def textIn (w v : Writer) : String :=
  Segment.renderAllAfter (v.segments.take w.segments.length) "" ++ w.buffer

variable {u v w : Writer}

/-! ## Pieces -/

theorem pieces_of_lt {k : Nat} (bound : k < w.segments.length) : w.pieces[k]? = w.segments[k]? :=
  List.getElem?_append_left bound

theorem pieces_last (w : Writer) : w.pieces[w.segments.length]? = some (.text w.buffer) := by
  simp [pieces]

theorem le_of_pieces {k : Nat} {s : Segment} (found : w.pieces[k]? = some s) :
    k ≤ w.segments.length := by
  have bound := (List.getElem?_eq_some_iff.mp found).1
  simp only [pieces, List.length_append, List.length_singleton] at bound
  omega

/-! ## Later writers -/

theorem continues_refl (w : Writer) : w.Continues w where
  reaches := Nat.le_refl _
  grows found _ := ⟨"", by rwa [String.append_empty]⟩

/-- Places of texts carry over from one writer to the next, so writers of a run are compared with
any earlier one. -/
theorem Continues.trans (first : u.Continues v) (second : v.Continues w) : u.Continues w where
  reaches := Nat.le_trans first.reaches second.reaches
  grows {k text} found filled := by
    obtain ⟨more, next⟩ := first.grows found filled
    have still : text ++ more ≠ "" := fun empty => filled (String.append_eq_empty_iff.mp empty).1
    obtain ⟨others, last⟩ := second.grows next still
    exact ⟨more ++ others, by rw [last, String.append_assoc]⟩

theorem continues_of_buffer (segments : v.segments = w.segments) {s : String}
    (buffer : v.buffer = w.buffer ++ s) : w.Continues v where
  reaches := Nat.le_of_eq (congrArg List.length segments.symm)
  grows {k text} found _ := by
    rcases Nat.lt_or_eq_of_le (le_of_pieces found) with bound | rfl
    · refine ⟨"", ?_⟩
      rw [pieces_of_lt bound] at found
      rw [String.append_empty, pieces_of_lt (segments ▸ bound), segments, found]
    · rw [pieces_last] at found
      cases found
      exact ⟨s, by rw [← segments, pieces_last, buffer]⟩

theorem continues_appendRaw (w : Writer) (s : String) : w.Continues (w.appendRaw s) :=
  continues_of_buffer rfl rfl

theorem continues_openBlock (w : Writer) (header : String) (constraints : List String) :
    w.Continues (w.openBlock header constraints).1 := by
  rw [openBlock_eq]
  exact continues_of_buffer rfl rfl

theorem continues_endBlock (w : Writer) : w.Continues w.endBlock := by
  cases opened : w.openBlocks with
  | nil =>
    rw [endBlock_nil opened]
    exact continues_refl w
  | cons id outer =>
    rw [endBlock_cons opened]
    exact continues_of_buffer rfl rfl

/-- No operation takes a text out of its place or cuts it short. -/
theorem continues_apply (w : Writer) (op : Op) : w.Continues (w.apply op) := by
  rcases apply_cases op with writes | (rfl | rfl) | ⟨header, rfl⟩ | rfl
  · rw [writes]
    exact continues_appendRaw w _
  · exact continues_of_buffer rfl String.append_empty.symm
  · exact continues_of_buffer rfl String.append_empty.symm
  · exact continues_openBlock w header []
  · exact continues_endBlock w

/-- A reservation makes a segment of the buffer, unless it is empty. -/
theorem continues_reserve (w : Writer) (header : Option String) :
    w.Continues (w.reserve header).1 where
  reaches := (segments_call w (.reserve header)).length_le
  grows {k text} found filled := by
    refine ⟨"", ?_⟩
    have segment : (w.reserve header).1.segments[k]? = some (.text text) := by
      rcases Nat.lt_or_eq_of_le (le_of_pieces found) with bound | rfl
      · obtain ⟨more, grown⟩ := segments_call w (.reserve header)
        rw [pieces_of_lt bound] at found
        rw [call] at grown
        rw [← grown, List.getElem?_append_left bound, found]
      · rw [pieces_last] at found
        cases found
        simp [reserve_fst, flush, filled]
    rw [String.append_empty, pieces_of_lt (List.getElem?_eq_some_iff.mp segment).1, segment]

theorem continues_setSub {old : Writer} {i : Nat} (isSub : w.sub? i = some old) (new : Writer) :
    w.Continues (w.setSub i new) where
  reaches := Nat.le_of_eq List.length_set.symm
  grows {k text} found _ := by
    refine ⟨"", ?_⟩
    have same : (w.setSub i new).segments.length = w.segments.length := List.length_set
    rw [String.append_empty]
    rcases Nat.lt_or_eq_of_le (le_of_pieces found) with bound | rfl
    · rw [pieces_of_lt bound] at found
      have different : i ≠ k := by
        rintro rfl
        rw [sub?_eq_some_iff.mp isSub] at found
        cases found
      rw [pieces_of_lt (same ▸ bound), setSub, List.getElem?_set_ne different, found]
    · rw [← same, pieces_last, ← found, pieces_last]
      rfl

theorem keeps_continues (w : Writer) : Script.Keeps w.Continues where
  op h op := h.trans (continues_apply _ op)
  openBlock h header constraints := h.trans (continues_openBlock _ header constraints)
  reserve h header := h.trans (continues_reserve _ header)
  setSub h found sub := h.trans (continues_setSub found sub)

/-! ## Texts in later writers -/

theorem textIn_self (w : Writer) : w.textIn w = w.body := by
  rw [textIn, List.take_length, body]

theorem textIn_of_buffer (segments : v.segments = w.segments) {s : String}
    (buffer : v.buffer = w.buffer ++ s) (later : Writer) : v.textIn later = w.textIn later ++ s := by
  rw [textIn, textIn, segments, buffer, String.append_assoc]

/-- What was appended before a sub-writer was reserved stands at the same place in every later
writer. -/
theorem textIn_appendRaw (w : Writer) (s : String) (later : Writer) :
    (w.appendRaw s).textIn later = w.textIn later ++ s :=
  textIn_of_buffer (v := w.appendRaw s) (w := w) rfl rfl later

theorem textIn_openBlock (w : Writer) (header : String) (constraints : List String)
    (later : Writer) : (w.openBlock header constraints).1.textIn later =
      w.textIn later ++ w.opening header constraints := by
  rw [openBlock_eq]
  exact textIn_appendRaw w _ later

/-- What was written between two earlier writers stands in the text behind the first of them. -/
theorem Continues.exists_since (first : u.Continues v) (second : v.Continues w) :
    ∃ written, v.textIn w = u.textIn w ++ written := by
  have last := first.grows (pieces_last u)
  rcases Nat.lt_or_eq_of_le first.reaches with more | same
  · -- segments were added, and the buffer of `u` is the start of the first of them
    have split : w.segments.take v.segments.length = w.segments.take u.segments.length ++
        (w.segments.take v.segments.length).drop u.segments.length := by
      conv_lhs => rw [← List.take_append_drop u.segments.length (w.segments.take _)]
      rw [List.take_take, Nat.min_eq_left (Nat.le_of_lt more)]
    by_cases empty : u.buffer = ""
    · obtain ⟨written, extended⟩ := Segment.renderAllAfter_extends
        ((w.segments.take v.segments.length).drop u.segments.length)
        (Segment.renderAllAfter (w.segments.take u.segments.length) "")
      refine ⟨written ++ v.buffer, ?_⟩
      rw [textIn, textIn, split, renderAllAfter_append, extended, empty, String.append_empty,
        String.append_assoc]
    · obtain ⟨grown, found⟩ := last empty
      obtain ⟨others, found⟩ := second.grows found
        fun none => empty (String.append_eq_empty_iff.mp none).1
      have bound : u.segments.length < w.segments.length := Nat.lt_of_lt_of_le more second.reaches
      rw [pieces_of_lt bound] at found
      have next : (w.segments.take v.segments.length).drop u.segments.length =
          .text (u.buffer ++ grown ++ others) ::
            (w.segments.take v.segments.length).drop (u.segments.length + 1) := by
        rw [List.drop_eq_getElem?_toList_append, List.getElem?_take_of_lt more, found]
        rfl
      obtain ⟨written, extended⟩ := Segment.renderAllAfter_extends
        ((w.segments.take v.segments.length).drop (u.segments.length + 1))
        (Segment.renderAllAfter (w.segments.take u.segments.length) "" ++
          (u.buffer ++ grown ++ others))
      refine ⟨grown ++ others ++ written ++ v.buffer, ?_⟩
      rw [textIn, textIn, split, renderAllAfter_append, next, Segment.renderAllAfter,
        Segment.renderAfter, extended]
      simp only [String.append_assoc]
  · have buffer : ∃ more, v.buffer = u.buffer ++ more := by
      by_cases empty : u.buffer = ""
      · exact ⟨v.buffer, by rw [empty, String.empty_append]⟩
      · obtain ⟨more, found⟩ := last empty
        rw [same, pieces_last, Option.some.injEq, Segment.text.injEq] at found
        exact ⟨more, found⟩
    obtain ⟨more, buffer⟩ := buffer
    exact ⟨more, by rw [textIn, textIn, same, buffer, String.append_assoc]⟩

/-- What was written between two earlier writers, as it has become in a later one. -/
def writtenIn (start finish later : Writer) : String :=
  Text.since (start.textIn later) (finish.textIn later)

/-- The text up to an earlier writer and what was written from there on make up the text up to a
later one. -/
theorem textIn_append_writtenIn (first : u.Continues v) (second : v.Continues w) :
    u.textIn w ++ writtenIn u v w = v.textIn w := by
  obtain ⟨written, since⟩ := first.exists_since second
  rw [writtenIn, since, Text.since_append]

/-! ## Scripts -/

/-- Scripts move a writer neither to another style nor to another base depth. -/
theorem keeps_base (style : Indent) (baseDepth : Nat) :
    Script.Keeps fun w => w.style = style ∧ w.baseDepth = baseDepth where
  op {w} h op := by
    obtain ⟨style, base⟩ := call_base w (.op op)
    exact ⟨style.trans h.1, base.trans h.2⟩
  openBlock {w} h header constraints := by
    obtain ⟨style, base⟩ := call_base w (.openBlock header constraints)
    exact ⟨style.trans h.1, base.trans h.2⟩
  reserve {w} h header := by
    obtain ⟨style, base⟩ := call_base w (.reserve header)
    exact ⟨style.trans h.1, base.trans h.2⟩
  setSub h _ _ := h

end Writer

/-- A script goes on where it was started. -/
theorem Script.continues (script : Script) (r : Run) :
    r.writer.Continues (Step.runAll script r).writer :=
  (Writer.keeps_continues r.writer).runAll script (Writer.continues_refl _)

theorem Script.base_runAll (script : Script) (r : Run) :
    (Step.runAll script r).writer.style = r.writer.style ∧
      (Step.runAll script r).writer.baseDepth = r.writer.baseDepth :=
  (Writer.keeps_base _ _).runAll script ⟨rfl, rfl⟩

/-- The writer behind a block: the body runs behind the opening line, and the block that was opened
is the one that is closed. -/
theorem Run.writer_inBlock (r : Run) (header : String) (constraints : List String)
    (body : Run → Run) : (r.inBlock header constraints body).writer =
      (body { r with writer := (r.writer.openBlock header constraints).1 }).writer.closeBlock
        (r.writer.openBlock header constraints).2 := rfl

/-- The closed block goes on where its body ended. -/
theorem Run.continues_inBlock (r : Run) (header : String) (constraints : List String)
    (body : Run → Run) :
    (body { r with writer := (r.writer.openBlock header constraints).1 }).writer.Continues
      (r.inBlock header constraints body).writer := by
  rw [writer_inBlock]
  generalize body { r with writer := (r.writer.openBlock header constraints).1 } = inner
  exact Writer.closeBlock_keeps (Q := inner.writer.Continues)
    (fun w reaches => reaches.trans (Writer.continues_endBlock w)) (Writer.continues_refl _) _

/-- What opens a block stands in the text when its body was run, whatever the body did. -/
theorem Step.opening_stands (header : String) (constraints : List String) (body : Script) (r : Run) :
    ∃ before rest, ((Step.block header constraints body).run r).writer.body =
      before ++ r.writer.opening header constraints ++ rest := by
  let inner (r : Run) : Run := Step.runAll body r.observe
  let opened : Run := { r with writer := (r.writer.openBlock header constraints).1 }
  let after := (r.inBlock header constraints inner).writer
  have goesOn : opened.writer.Continues after :=
    (Script.continues body opened.observe).trans (r.continues_inBlock header constraints inner)
  obtain ⟨rest, since⟩ := goesOn.exists_since (Writer.continues_refl after)
  rw [Writer.textIn_self, Writer.textIn_openBlock] at since
  exact ⟨_, rest, since⟩

end CSharpGen

import CSharpGen.Proofs.Writer.Run
import CSharpGen.Script.Run

/-!
# What scripts keep

What every operation keeps of a writer, a script keeps of it, whatever its bodies and items do
(`Script.Keeps.runAll`). So what a writer starts with stays the start of its text.
-/

namespace CSharpGen

/-- What every operation on a writer keeps. A sub-writer is only ever replaced by what became of it. -/
structure Script.Keeps (P : Writer → Prop) : Prop where
  op : ∀ {w : Writer}, P w → ∀ op, P (w.apply op)
  openBlock : ∀ {w : Writer}, P w → ∀ header constraints, P (w.openBlock header constraints).1
  reserve : ∀ {w : Writer}, P w → ∀ header, P (w.reserve header).1
  setSub : ∀ {w old : Writer} {index : Nat}, P w → w.sub? index = some old →
    ∀ sub, P (w.setSub index sub)

namespace Script.Keeps

variable {P : Writer → Prop}

section

variable (keeps : Keeps P)

include keeps

/-- A block keeps what its body keeps. -/
theorem inBlock {r : Run} (start : P r.writer) (header : String) (constraints : List String)
    {body : Run → Run} (inner : ∀ r : Run, P r.writer → P (body r).writer) :
    P (r.inBlock header constraints body).writer := by
  let opened : Run := { r with writer := (r.writer.openBlock header constraints).1 }
  have closes : (r.inBlock header constraints body).writer =
      (body opened).writer.closeBlock (r.writer.openBlock header constraints).2 := rfl
  rw [closes]
  exact Writer.closeBlock_keeps (Q := P) (fun _ h => keeps.op h .endBlock)
    (inner opened (keeps.openBlock start header constraints)) _

theorem inCase {r : Run} (start : P r.writer) (label : String) {body : Run → Run}
    (inner : ∀ r : Run, P r.writer → P (body r).writer) : P (r.inCase label body).writer := by
  let labelled : Run :=
    { r with writer := (r.writer.apply (.appendLine label)).apply .increaseIndent }
  have ends : (r.inCase label body).writer =
      ((body labelled).writer.apply (.appendLine "break;")).apply .decreaseIndent := rfl
  rw [ends]
  have written := inner labelled (keeps.op (keeps.op start (.appendLine label)) .increaseIndent)
  exact keeps.op (keeps.op written (.appendLine "break;")) .decreaseIndent

/-- Whatever is written to a sub-writer, to the writer above it is a replacement. -/
theorem inSub {r : Run} (start : P r.writer) (name : String) (body : Run → Run) :
    P (r.inSub name body).writer := by
  unfold Run.inSub
  split
  · exact start
  · next index sub found =>
    obtain ⟨place, -, found⟩ := Option.bind_eq_some_iff.mp found
    obtain ⟨old, isOld, same⟩ := Option.map_eq_some_iff.mp found
    obtain ⟨rfl, rfl⟩ := Prod.mk.inj same
    exact keeps.setSub start isOld _

/-- Writing items keeps what every item keeps, separators included. -/
theorem writeItems (spacing : Spacing) (hadOutput wroteAny : Bool)
    {items : List (Attempt Run String)}
    (all : ∀ item ∈ items, ∀ r : Run, P r.writer → P (item r).1.writer) {r : Run}
    (start : P r.writer) :
    P (Sections.writeItems (·.update Writer.newLine) spacing hadOutput wroteAny items r).1.writer := by
  induction items generalizing wroteAny r with
  | nil => exact start
  | cons item rest ih =>
    obtain ⟨first, others⟩ := List.forall_mem_cons.mp all
    let separated :=
      if Sections.separates spacing hadOutput wroteAny then r.update Writer.newLine else r
    have separates : P separated.writer := by
      unfold separated
      split
      · exact keeps.op start .newLine
      · exact start
    have written := first separated separates
    rw [Sections.writeItems]
    split
    · next same =>
      rw [same] at written
      exact ih true others written
    · next same =>
      rw [same] at written
      exact written

theorem writeGroups (hadOutput : Bool) {groups : List (Spacing × List (Attempt Run String))}
    (all : ∀ group ∈ groups, ∀ item ∈ group.2, ∀ r : Run, P r.writer → P (item r).1.writer)
    {r : Run} (start : P r.writer) :
    P (Sections.writeGroups (·.update Writer.newLine) hadOutput groups r).state.writer := by
  induction groups generalizing hadOutput r with
  | nil => exact start
  | cons group rest ih =>
    obtain ⟨spacing, items⟩ := group
    obtain ⟨first, others⟩ := List.forall_mem_cons.mp all
    have written := keeps.writeItems spacing hadOutput false first start
    rw [Sections.writeGroups]
    split
    · next same =>
      rw [same] at written
      exact ih _ others written
    · next same =>
      rw [same] at written
      exact written

/-- What holds after the first groups still holds after all of them. -/
theorem writeGroups_append (hadOutput : Bool)
    {before after : List (Spacing × List (Attempt Run String))}
    (all : ∀ group ∈ after, ∀ item ∈ group.2, ∀ r : Run, P r.writer → P (item r).1.writer)
    {r : Run}
    (start : P (Sections.writeGroups (·.update Writer.newLine) hadOutput before r).state.writer) :
    P (Sections.writeGroups (·.update Writer.newLine) hadOutput (before ++ after) r).state.writer := by
  induction before generalizing hadOutput r with
  | nil => exact keeps.writeGroups hadOutput all start
  | cons group rest ih =>
    obtain ⟨spacing, items⟩ := group
    rw [Sections.writeGroups] at start
    rw [List.cons_append, Sections.writeGroups]
    split at start
    · exact ih _ start
    · exact start

end

mutual

/-- A step keeps what the operations on a writer keep. -/
theorem run (keeps : Keeps P) : (step : Step) → {r : Run} → P r.writer → P (step.run r).writer
  | .op op, _, start => keeps.op start op
  | .block header constraints body, _, start =>
    keeps.inBlock start header constraints fun r h => runAll keeps body (r := r.observe) h
  | .statement branches, _, start => runBlocks keeps branches start
  | .switch _ branches, _, start => keeps.inBlock start _ [] fun _ h => runCases keeps branches h
  | .reserve _ header, _, start => keeps.reserve start header
  | .inside name body, _, start => keeps.inSub start name (Step.runAll body)
  | .sections groups, _, start => keeps.writeGroups false (attemptsAll keeps groups) start
  | .isolated body, r, start => runAll keeps body (r := { r with reserved := [] }) start

/-- A script keeps what every operation keeps. -/
theorem runAll (keeps : Keeps P) : (steps : List Step) → {r : Run} → P r.writer →
    P (Step.runAll steps r).writer
  | [], _, start => start
  | step :: rest, _, start => runAll keeps rest (run keeps step start)

theorem runBlocks (keeps : Keeps P) : (branches : List Branch) → {r : Run} → P r.writer →
    P (Branch.runBlocks branches r).writer
  | [], _, start => start
  | .mk header body :: rest, _, start =>
    runBlocks keeps rest (keeps.inBlock start header [] fun _ h => runAll keeps body h)

theorem runCases (keeps : Keeps P) : (branches : List Branch) → {r : Run} → P r.writer →
    P (Branch.runCases branches r).writer
  | [], _, start => start
  | .mk label body :: rest, _, start =>
    runCases keeps rest (keeps.inCase start label fun _ h => runAll keeps body h)

theorem attempt (keeps : Keeps P) : (item : Item) → {r : Run} → P r.writer →
    P (item.attempt r).1.writer
  | .line text, _, start => keeps.op start (.appendLine text)
  | .fail _, _, start => start
  | .steps body, _, start => runAll keeps body start

theorem attempts (keeps : Keeps P) : (items : List Item) → ∀ item ∈ Item.attempts items,
    ∀ r : Run, P r.writer → P (item r).1.writer
  | [] => List.forall_mem_nil _
  | item :: rest => List.forall_mem_cons.mpr ⟨fun _ => attempt keeps item, attempts keeps rest⟩

theorem attemptsAll (keeps : Keeps P) : (groups : List Group) → ∀ group ∈ Group.attempts groups,
    ∀ item ∈ group.2, ∀ r : Run, P r.writer → P (item r).1.writer
  | [] => List.forall_mem_nil _
  | .mk _ items :: rest => List.forall_mem_cons.mpr ⟨attempts keeps items, attemptsAll keeps rest⟩

end

/-- After the first groups of some sections, the others can be any. -/
theorem sections (keeps : Keeps P) (before after : List Group) {r : Run}
    (start : P (r.sections (Group.attempts before)).writer) :
    P (r.sections (Group.attempts (before ++ after))).writer := by
  have split : Group.attempts (before ++ after) = Group.attempts before ++ Group.attempts after := by
    clear start
    induction before with
    | nil => rfl
    | cons group rest ih =>
      obtain ⟨spacing, items⟩ := group
      exact congrArg ((spacing, Item.attempts items) :: ·) ih
  rw [split]
  exact keeps.writeGroups_append false (attemptsAll keeps after) start

end Script.Keeps

/-! ## The start of a text -/

namespace Writer

/-- The text before the first place of a sub-writer, as far as it is certain to be the start of the
text of the writer. -/
def firstText (w : Writer) : String :=
  match w.segments with
  | [] => w.buffer
  | .text content :: _ => content
  | .nested _ _ :: _ => ""

/-- Whether the text of a writer is certain to start with `head`. -/
def Opens (head : String) (w : Writer) : Prop := ∃ rest, w.firstText = head ++ rest

variable {head : String} {w : Writer}

theorem opens_of_buffer {v : Writer} (h : w.Opens head) (segments : v.segments = w.segments)
    {s : String} (buffer : v.buffer = w.buffer ++ s) : v.Opens head := by
  obtain ⟨rest, opens⟩ := h
  unfold firstText at opens
  unfold Opens firstText
  rw [segments, buffer]
  split at opens
  · exact ⟨rest ++ s, by rw [opens, String.append_assoc]⟩
  · exact ⟨rest, opens⟩
  · exact ⟨rest, opens⟩

theorem firstText_reserve (w : Writer) (header : Option String) :
    (w.reserve header).1.firstText = w.firstText := by
  have segments : (w.reserve header).1.segments =
      w.flush.segments ++ [(w.child header).toSegment] := rfl
  rw [firstText, firstText, segments]
  by_cases empty : w.buffer.isEmpty
  · rw [flush, if_pos empty]
    cases w.segments with
    | nil => exact (String.isEmpty_iff.mp empty).symm
    | cons s rest => cases s <;> rfl
  · rw [flush, if_neg empty]
    cases w.segments with
    | nil => rfl
    | cons s rest => cases s <;> rfl

theorem firstText_setSub {old : Writer} {i : Nat} (found : w.sub? i = some old) (new : Writer) :
    (w.setSub i new).firstText = w.firstText := by
  rw [sub?_eq_some_iff] at found
  unfold setSub firstText
  cases i with
  | zero =>
    cases segments : w.segments with
    | nil => rfl
    | cons s rest =>
      rw [segments, List.getElem?_cons_zero] at found
      rw [Option.some.inj found]
      rfl
  | succ i =>
    cases w.segments with
    | nil => rfl
    | cons s rest => cases s <;> rfl

/-- Whatever scripts do to a writer, its text starts as it did. -/
theorem keeps_opens (head : String) : Script.Keeps (Opens head) where
  op {w} h op := by
    rcases apply_cases op with writes | (rfl | rfl) | ⟨header, rfl⟩ | rfl
    · rw [writes]
      exact opens_of_buffer h rfl rfl
    · exact h
    · exact h
    · rw [apply, beginBlock, openBlock_eq]
      exact opens_of_buffer h rfl rfl
    · cases opened : w.openBlocks with
      | nil => rwa [apply, endBlock_nil opened]
      | cons id outer =>
        rw [apply, endBlock_cons opened]
        exact opens_of_buffer h rfl rfl
  openBlock {w} h header constraints := by
    rw [openBlock_eq]
    exact opens_of_buffer h rfl rfl
  reserve h header := by rwa [Opens, firstText_reserve]
  setSub h found sub := by rwa [Opens, firstText_setSub found]

end Writer

theorem Cursor.closeAfter_extends (c : Cursor) (out s : String) :
    ∃ more, c.closeAfter (out ++ s) = out ++ more := by
  unfold closeAfter Text.finishLine
  split
  · exact ⟨s, rfl⟩
  · split
    · exact ⟨s ++ _, String.append_assoc⟩
    · exact ⟨s ++ "\n" ++ _, by rw [String.append_assoc, String.append_assoc, String.append_assoc]⟩

mutual

/-- Rendering a segment adds to the output. -/
theorem Segment.renderAfter_extends : (s : Segment) → (out : String) →
    ∃ more, s.renderAfter out = out ++ more
  | .text content, _ => ⟨content, rfl⟩
  | .nested cursor segments, out => by
    obtain ⟨more, inner⟩ := Segment.renderAllAfter_extends segments out
    rw [Segment.renderAfter, inner, String.append_assoc]
    exact cursor.closeAfter_extends out _

/-- Rendering further segments only appends to the text in front of them. -/
theorem Segment.renderAllAfter_extends : (segments : List Segment) → (out : String) →
    ∃ more, Segment.renderAllAfter segments out = out ++ more
  | [], _ => ⟨"", String.append_empty.symm⟩
  | s :: rest, out => by
    obtain ⟨more, first⟩ := s.renderAfter_extends out
    obtain ⟨others, last⟩ := Segment.renderAllAfter_extends rest (s.renderAfter out)
    exact ⟨more ++ others, by rw [Segment.renderAllAfter, last, first, String.append_assoc]⟩

end

/-- A writer whose first text starts with `head` renders to a text that starts with it. -/
theorem Writer.Opens.render {head : String} {w : Writer} (h : w.Opens head) :
    ∃ rest, w.render = head ++ rest := by
  obtain ⟨rest, opens⟩ := h
  have body : ∃ more, Segment.renderAllAfter w.segments "" ++ w.buffer = head ++ more := by
    unfold firstText at opens
    split at opens
    · next none => exact ⟨rest, by rw [none, Segment.renderAllAfter, String.empty_append, opens]⟩
    · next content others segments =>
      obtain ⟨more, extends'⟩ := Segment.renderAllAfter_extends others ("" ++ content)
      refine ⟨rest ++ more ++ w.buffer, ?_⟩
      rw [segments, Segment.renderAllAfter, Segment.renderAfter, extends', String.empty_append, opens]
      simp only [String.append_assoc]
    -- A sub-writer comes first, so the start that is certain is empty.
    · obtain ⟨rfl, -⟩ := String.append_eq_empty_iff.mp opens.symm
      exact ⟨_, String.empty_append.symm⟩
  obtain ⟨more, same⟩ := body
  rw [Writer.render, Writer.renderAfter, same]
  exact w.closeAfter_extends head more

end CSharpGen

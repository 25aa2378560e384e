import CSharpGen.Proofs.Writer.Closing
import CSharpGen.Proofs.Writer.Filling
import CSharpGen.Proofs.Writer.Guards

/-!
# Writers that get the same calls

Of two writers one can have a lead: text and open blocks that the other one has not, and shifted
numbers for the blocks that both open. It keeps this lead as long as both get the same calls and no
call closes a block of the lead (`Guarded.Follows.run`).
-/

namespace CSharpGen

namespace Writer

/-! ## Text -/

theorem body_appendRaw (w : Writer) (s : String) : (w.appendRaw s).body = w.body ++ s := by
  simp [body, String.append_assoc]

/-- After its buffer became a segment a writer goes on with an empty one. -/
theorem flush_buffer (w : Writer) : w.flush.buffer = "" := by
  unfold flush
  split
  · next empty => exact String.isEmpty_iff.mp empty
  · rfl

theorem body_flush (w : Writer) : w.flush.body = w.body := by
  unfold flush
  split
  · rfl
  · simp [body, renderAllAfter_append, Segment.renderAllAfter, Segment.renderAfter]

theorem reserveFilled_eq (header : Option String) (fill : Writer → Writer) (w : Writer) :
    reserveFilled header fill w =
      { w.flush with segments := w.flush.segments ++ [(fill (w.child header)).toSegment] } := by
  rw [reserveFilled, setSub, reserve_fst, reserve_snd]
  simp

theorem reserve_eq_reserveFilled (w : Writer) (header : Option String) :
    (w.reserve header).1 = reserveFilled header id w := by
  rw [reserveFilled_eq, reserve_fst]
  rfl

theorem reserveFilled_nextBlock (header : Option String) (fill : Writer → Writer) (w : Writer) :
    (reserveFilled header fill w).nextBlock = w.nextBlock := by
  rw [reserveFilled, setSub_toCursor, reserve_toCursor]

/-- Reserving and filling a sub-writer changes nothing of the writer but its segments and its
buffer. -/
theorem reserveFilled_toCursor (header : Option String) (fill : Writer → Writer) (w : Writer) :
    (reserveFilled header fill w).toCursor = { w.toCursor with buffer := "" } := by
  rw [reserveFilled, setSub_toCursor, reserve_toCursor]

/-- A filled sub-writer stands after what was written before it. -/
theorem body_reserveFilled {header : Option String} {fill : Writer → Writer} {w : Writer}
    (h : Everywhere Grounded (fill (w.child header))) :
    (reserveFilled header fill w).body = w.body ++ (fill (w.child header)).render := by
  have before : Segment.renderAllAfter w.flush.segments "" = w.body := by
    rw [← body_flush, body, flush_buffer, String.append_empty]
  have own : (fill (w.child header)).toSegment.renderAfter w.body =
      w.body ++ (fill (w.child header)).render := renderAfter_eq h w.body
  rw [reserveFilled_eq, body, renderAllAfter_append, before, Segment.renderAllAfter,
    Segment.renderAllAfter, own, flush_buffer, String.append_empty]

/-! ## What calls depend on -/

theorem indented_congr {v w : Writer} (level : v.indentation = w.indentation) :
    v.indented = w.indented := by
  funext text
  rw [indented, indented, level]

/-- The head of a block depends on the level alone. -/
theorem opening_congr {v w : Writer} (level : v.indentation = w.indentation)
    (deeper : v.increaseIndent.indentation = w.increaseIndent.indentation) (header : String)
    (constraints : List String) : v.opening header constraints = w.opening header constraints := by
  simp only [opening, headLines, indented_congr level, indented_congr deeper, level]

theorem written_congr {v w : Writer} (level : v.indentation = w.indentation) (op : Op) :
    v.written op = w.written op := by
  cases op <;> simp only [written, indented_congr level]

/-- A sub-writer takes nothing from the writer above it but the style and the level. -/
theorem child_congr {v w : Writer} (style : v.style = w.style) (depth : v.depth = w.depth)
    (extraIndent : v.extraIndent = w.extraIndent) (header : Option String) :
    v.child header = w.child header := by
  simp only [child, style, depth, extraIndent]

/-- A call moves a writer neither to another style nor to another base depth. -/
theorem call_base (w : Writer) (c : Call) :
    (w.call c).style = w.style ∧ (w.call c).baseDepth = w.baseDepth := by
  have ended (v : Writer) (h : v.style = w.style ∧ v.baseDepth = w.baseDepth) :
      v.endBlock.style = w.style ∧ v.endBlock.baseDepth = w.baseDepth := by
    cases opened : v.openBlocks with
    | nil => rwa [endBlock_nil opened]
    | cons id outer =>
      rw [endBlock_cons opened]
      exact h
  cases c with
  | op op =>
    rcases apply_cases op with writes | (rfl | rfl) | ⟨header, rfl⟩ | rfl
    · rw [call, writes]
      exact ⟨rfl, rfl⟩
    · exact ⟨rfl, rfl⟩
    · exact ⟨rfl, rfl⟩
    · rw [call, apply, beginBlock, openBlock_eq]
      exact ⟨rfl, rfl⟩
    · exact ended w ⟨rfl, rfl⟩
  | openBlock header constraints =>
    rw [call, openBlock_eq]
    exact ⟨rfl, rfl⟩
  | closeBlock id => exact closeBlock_keeps ended ⟨rfl, rfl⟩ id
  | reserve header =>
    rw [call, reserve_toCursor]
    exact ⟨rfl, rfl⟩

/-! ## Writers that get the same calls -/

/-- What one of two writers has that the other has not: the text and the open blocks that it had
before, and numbers that it gave to blocks of its own. -/
structure Lead where
  text : String
  below : List Nat
  /-- Blocks from this number on have numbers that are higher by `shift`. -/
  start : Nat
  shift : Nat
  apart : ∀ n, (if n < start then n else n + shift) ∉ below

namespace Lead

/-- The number of a block in the writer that has the lead. -/
def number (l : Lead) (n : Nat) : Nat := if n < l.start then n else n + l.shift

/-- Blocks of one writer never have the numbers that the other one had before. -/
theorem number_notMem (l : Lead) (n : Nat) : l.number n ∉ l.below := l.apart n

theorem number_of_lt {l : Lead} {n : Nat} (early : n < l.start) : l.number n = n := if_pos early

theorem number_of_le {l : Lead} {n : Nat} (late : l.start ≤ n) : l.number n = n + l.shift :=
  if_neg (Nat.not_lt.mpr late)

/-- Different blocks keep different numbers. -/
theorem number_injective {l : Lead} {m n : Nat} (same : l.number m = l.number n) : m = n := by
  unfold number at same
  split at same <;> split at same <;> omega

theorem number_mem_map {l : Lead} {id : Nat} {ids : List Nat} :
    l.number id ∈ ids.map l.number ↔ id ∈ ids := by
  refine ⟨fun member => ?_, List.mem_map_of_mem⟩
  obtain ⟨other, member, same⟩ := List.mem_map.mp member
  exact number_injective same ▸ member

theorem map_number_of_lt {l : Lead} {ids : List Nat} (early : ∀ id ∈ ids, id < l.start) :
    ids.map l.number = ids := by
  refine (List.map_congr_left fun id member => ?_).trans (List.map_id ids)
  exact number_of_lt (early id member)

end Lead

/-- The writer `outer` has what `inner` has, and its lead. -/
structure Follows (l : Lead) (inner outer : Writer) : Prop where
  style : outer.style = inner.style
  extraIndent : outer.extraIndent = inner.extraIndent
  baseDepth : inner.baseDepth = outer.baseDepth + l.below.length
  body : outer.body = l.text ++ inner.body
  openBlocks : outer.openBlocks = inner.openBlocks.map l.number ++ l.below
  nextBlock : outer.nextBlock = l.number inner.nextBlock
  started : l.start ≤ inner.nextBlock

namespace Follows

variable {l : Lead} {inner outer : Writer}

theorem depth (f : Follows l inner outer) : outer.depth = inner.depth := by
  simp only [Cursor.depth, f.openBlocks, f.baseDepth, List.length_append, List.length_map]
  omega

/-- Both writers indent alike: what one has in its base depth the other has in open blocks. -/
theorem indentation (f : Follows l inner outer) : outer.indentation = inner.indentation := by
  rw [Cursor.indentation, Cursor.indentation, f.style, f.depth, f.extraIndent]

/-! ### Text and indents -/

theorem appendRaw (f : Follows l inner outer) (s : String) :
    Follows l (inner.appendRaw s) (outer.appendRaw s) :=
  { f with body := by rw [body_appendRaw, body_appendRaw, f.body, String.append_assoc] }

theorem increaseIndent (f : Follows l inner outer) :
    Follows l inner.increaseIndent outer.increaseIndent :=
  { f with extraIndent := congrArg (· + 1) f.extraIndent }

theorem decreaseIndent (f : Follows l inner outer) :
    Follows l inner.decreaseIndent outer.decreaseIndent :=
  { f with extraIndent := congrArg (· - 1) f.extraIndent }

/-! ### Blocks -/

/-- Both writers open the same block, each under its own number. -/
theorem openBlock (f : Follows l inner outer) (header : String) (constraints : List String) :
    Follows l (inner.openBlock header constraints).1 (outer.openBlock header constraints).1 := by
  have text := opening_congr f.indentation f.increaseIndent.indentation header constraints
  have written := f.appendRaw (inner.opening header constraints)
  rw [openBlock_eq, openBlock_eq, text]
  have next : outer.nextBlock + 1 = l.number (inner.nextBlock + 1) := by
    rw [f.nextBlock, Lead.number_of_le f.started,
      Lead.number_of_le (Nat.le_succ_of_le f.started), Nat.add_right_comm]
  exact { written with
    openBlocks := by simp [f.openBlocks, f.nextBlock]
    nextBlock := next
    started := Nat.le_succ_of_le f.started }

/-- The brace of a block stands on a line of its own in both writers. -/
theorem closing (f : Follows l inner outer) (innerGrounded : Everywhere Grounded inner)
    (outerGrounded : Everywhere Grounded outer) (full : inner.body ≠ "") :
    outer.closing = inner.closing := by
  have ends : Text.unfinished? outer.body = Text.unfinished? inner.body := by
    rw [f.body, Text.unfinished?_append]
    simp [Text.unfinished?, full]
  rw [Writer.closing, Writer.closing, endsMidLine_eq innerGrounded, endsMidLine_eq outerGrounded,
    ends, f.indentation]

/-- Ending a block that was opened by a common call. -/
theorem endBlock (f : Follows l inner outer) (innerGrounded : Everywhere Grounded inner)
    (outerGrounded : Everywhere Grounded outer) (opened : inner.openBlocks ≠ []) :
    Follows l inner.endBlock outer.endBlock := by
  obtain ⟨id, rest, eq⟩ := List.exists_cons_of_ne_nil opened
  have outerEq : outer.openBlocks = l.number id :: (rest.map l.number ++ l.below) := by
    rw [f.openBlocks, eq, List.map_cons, List.cons_append]
  have popped : Follows l { inner with openBlocks := rest }
      { outer with openBlocks := rest.map l.number ++ l.below } := { f with openBlocks := rfl }
  have full : inner.body ≠ "" := body_ne_empty_of_opened innerGrounded opened
  have brace := popped.closing (everywhere_openBlocks innerGrounded fun _ => opened)
    (everywhere_openBlocks outerGrounded fun _ => by simp [outerEq]) full
  rw [endBlock_cons eq, endBlock_cons outerEq, brace]
  exact popped.appendRaw _

/-- Closing blocks that are open in both closes the same ones. -/
theorem endBlocks (f : Follows l inner outer) (innerGrounded : Everywhere Grounded inner)
    (outerGrounded : Everywhere Grounded outer) {n : Nat} (opened : n ≤ inner.openBlocks.length) :
    Follows l (inner.endBlocks n) (outer.endBlocks n) := by
  induction n generalizing inner outer with
  | zero => exact f
  | succ n ih =>
    have ended : Follows l inner.endBlock outer.endBlock :=
      f.endBlock innerGrounded outerGrounded fun empty => by simp [empty] at opened
    refine ih ended (grounded_invariant.everywhere_call (c := .op .endBlock) trivial innerGrounded)
      (grounded_invariant.everywhere_call (c := .op .endBlock) trivial outerGrounded) ?_
    rw [endBlock_openBlocks, List.length_tail]
    omega

/-- Releasing the guards that one call gave. -/
theorem closeBlock (f : Follows l inner outer) (innerGrounded : Everywhere Grounded inner)
    (outerGrounded : Everywhere Grounded outer) (id : Nat) :
    Follows l (inner.closeBlock id) (outer.closeBlock (l.number id)) := by
  by_cases opened : id ∈ inner.openBlocks
  · obtain ⟨inside, around, eq, apart⟩ := List.eq_append_cons_of_mem opened
    have outerEq : outer.openBlocks =
        inside.map l.number ++ l.number id :: (around.map l.number ++ l.below) := by
      simp [f.openBlocks, eq]
    have outerApart : l.number id ∉ inside.map l.number := apart ∘ Lead.number_mem_map.mp
    rw [closeBlock_eq eq apart, closeBlock_eq outerEq outerApart, List.length_map]
    exact f.endBlocks innerGrounded outerGrounded (by simp [eq])
  · have outerClosed : l.number id ∉ outer.openBlocks := by
      rw [f.openBlocks, List.mem_append, Lead.number_mem_map]
      exact not_or.mpr ⟨opened, l.number_notMem id⟩
    rw [closeBlock_of_notMem opened, closeBlock_of_notMem outerClosed]
    exact f

/-! ### Sub-writers -/

/-- Both writers reserve the same sub-writer. -/
theorem reserve (f : Follows l inner outer) (header : Option String) :
    Follows l (inner.reserve header).1 (outer.reserve header).1 := by
  have child : outer.child header = inner.child header :=
    child_congr f.style f.depth f.extraIndent header
  have grounded : Everywhere Grounded (inner.child header) :=
    everywhere_of_segments_nil (grounded_child inner header) (child_segments inner header)
  have innerBody : (inner.reserve header).1.body = inner.body ++ (inner.child header).render := by
    rw [reserve_eq_reserveFilled, body_reserveFilled grounded, id]
  have outerBody : (outer.reserve header).1.body = outer.body ++ (inner.child header).render := by
    rw [reserve_eq_reserveFilled, body_reserveFilled (child ▸ grounded), id, child]
  exact {
    style := by simpa only [reserve_toCursor] using f.style
    extraIndent := by simpa only [reserve_toCursor] using f.extraIndent
    baseDepth := by simpa only [reserve_toCursor] using f.baseDepth
    body := by rw [outerBody, innerBody, f.body, String.append_assoc]
    openBlocks := by simpa only [reserve_toCursor] using f.openBlocks
    nextBlock := by simpa only [reserve_toCursor] using f.nextBlock
    started := by simpa only [reserve_toCursor] using f.started }

end Follows

end Writer

/-! ## Programs that make the same calls -/

namespace Guarded

open Writer (Lead Everywhere Grounded)

/-- The guards of one call have numbers of the same block. -/
structure Follows (l : Lead) (inner outer : Guarded) : Prop where
  writer : Writer.Follows l inner.writer outer.writer
  guards : outer.guards = inner.guards.map l.number
  innerGrounded : Everywhere Grounded inner.writer
  outerGrounded : Everywhere Grounded outer.writer

namespace Follows

variable {l : Lead} {inner outer : Guarded}

/-- An operation that closes none of the blocks that were there before. -/
theorem apply (f : Follows l inner outer) (op : Op)
    (kept : l.below <:+ (outer.writer.apply op).openBlocks) :
    Writer.Follows l (inner.writer.apply op) (outer.writer.apply op) := by
  rcases Writer.apply_cases op with writes | (rfl | rfl) | ⟨header, rfl⟩ | rfl
  · rw [writes, writes, Writer.written_congr f.writer.indentation]
    exact f.writer.appendRaw _
  · exact f.writer.increaseIndent
  · exact f.writer.decreaseIndent
  · exact f.writer.openBlock header []
  · by_cases opened : inner.writer.openBlocks = []
    · have outerBlocks : outer.writer.openBlocks = l.below := by
        rw [f.writer.openBlocks, opened, List.map_nil, List.nil_append]
      rw [Writer.apply, Writer.endBlock_openBlocks, outerBlocks] at kept
      have none : l.below = [] := by
        have fewer := kept.length_le
        rw [List.length_tail] at fewer
        exact List.length_eq_zero_iff.mp (by omega)
      rw [Writer.apply, Writer.apply, Writer.endBlock_nil opened,
        Writer.endBlock_nil (outerBlocks.trans none)]
      exact f.writer
    · exact f.writer.endBlock f.innerGrounded f.outerGrounded opened

/-- One call keeps the lead when it leaves the blocks open that the lead is about. -/
theorem call (f : Follows l inner outer) (c : Call)
    (kept : l.below <:+ (outer.call c).writer.openBlocks) :
    Follows l (inner.call c) (outer.call c) := by
  have grounded {g : Guarded} (h : Everywhere Grounded g.writer) :
      Everywhere Grounded (g.call c).writer :=
    run_everywhere Writer.grounded_invariant h [c]
  refine ⟨?writer, ?guards, grounded f.innerGrounded, grounded f.outerGrounded⟩
  case writer =>
    cases c with
    | op op => exact f.apply op kept
    | openBlock header constraints => exact f.writer.openBlock header constraints
    | reserve header => exact f.writer.reserve header
    | closeBlock place =>
      rw [Guarded.call, Guarded.call, f.guards, List.getElem?_map]
      cases inner.guards[place]? with
      | none => exact f.writer
      | some id => exact f.writer.closeBlock f.innerGrounded f.outerGrounded id
  case guards =>
    cases c with
    | op | closeBlock | reserve => exact f.guards
    | openBlock header constraints =>
      rw [Guarded.call, Guarded.call, Writer.openBlock_eq, Writer.openBlock_eq]
      simp only [f.guards, f.writer.nextBlock, List.map_append, List.map_cons, List.map_nil]

/-- Calls keep the lead as long as the blocks that it is about stay open. -/
theorem run (f : Follows l inner outer) (calls : List Call)
    (kept : ∀ n ≤ calls.length, l.below <:+ (outer.run (calls.take n)).writer.openBlocks) :
    Follows l (inner.run calls) (outer.run calls) := by
  induction calls generalizing inner outer with
  | nil => exact f
  | cons c rest ih =>
    have first : l.below <:+ (outer.call c).writer.openBlocks :=
      kept 1 (Nat.succ_le_succ (Nat.zero_le _))
    refine ih (f.call c first) fun n bound => ?_
    exact kept (n + 1) (Nat.succ_le_succ bound)

/-- Writers without a lead in text and open blocks render the same text. -/
theorem render_eq (f : Follows l inner outer) (text : l.text = "") (below : l.below = []) :
    inner.writer.render = outer.writer.render := by
  have body : outer.writer.body = inner.writer.body := by
    rw [f.writer.body, text, String.empty_append]
  have count : outer.writer.openBlocks.length = inner.writer.openBlocks.length := by
    simp [f.writer.openBlocks, below]
  have base : inner.writer.baseDepth = outer.writer.baseDepth := by
    simpa [below] using f.writer.baseDepth
  by_cases closed : inner.writer.openBlocks = []
  · have outerClosed : outer.writer.openBlocks = [] := by
      rw [← List.length_eq_zero_iff, count, closed, List.length_nil]
    rw [Writer.render_eq_body closed, Writer.render_eq_body outerClosed, body]
  · have outerOpened : outer.writer.openBlocks ≠ [] := by
      rwa [ne_eq, ← List.length_eq_zero_iff, count, List.length_eq_zero_iff]
    rw [Writer.render_eq_closing closed, Writer.render_eq_closing outerOpened, body, count, base,
      f.writer.style, f.writer.extraIndent]

end Follows

end Guarded

end CSharpGen

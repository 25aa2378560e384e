import CSharpGen.Proofs.Writer.Rendering

/-!
# Guards

A program that opens a block holds its guard, and the guard holds the number of the block. Numbers
are given in ascending order, so the open blocks of a writer have the numbers of a strictly
descending list, all of them below the next one (`numbered_run`). Closing a block by its number
closes what is open inside it and nothing else.
-/

namespace CSharpGen

/-- A writer in the hands of a program, with the numbers that the guards of the program hold. -/
structure Guarded where
  writer : Writer
  /-- In the order in which the guards were given. A released guard keeps its place. -/
  guards : List Nat := []

namespace Guarded

/-- A call of the program. Here a block is closed by the place of its guard. -/
def call (g : Guarded) : Call → Guarded
  | .op op => { g with writer := g.writer.apply op }
  | .openBlock header constraints =>
    let (writer, id) := g.writer.openBlock header constraints
    { writer, guards := g.guards ++ [id] }
  | .closeBlock place => { g with writer := g.guards[place]?.elim g.writer g.writer.closeBlock }
  | .reserve header => { g with writer := (g.writer.reserve header).1 }

def run (g : Guarded) (calls : List Call) : Guarded := calls.foldl call g

@[simp] theorem run_nil (g : Guarded) : g.run [] = g := rfl

@[simp] theorem run_cons (g : Guarded) (c : Call) (rest : List Call) :
    g.run (c :: rest) = (g.call c).run rest := rfl

/-- What the program calls is a call with the number of a block, or nothing at all. -/
theorem call_cases (g : Guarded) (c : Call) :
    (g.call c).writer = g.writer ∨ ∃ d, (g.call c).writer = g.writer.call d := by
  cases c with
  | op op => exact .inr ⟨.op op, rfl⟩
  | openBlock header constraints => exact .inr ⟨.openBlock header constraints, rfl⟩
  | reserve header => exact .inr ⟨.reserve header, rfl⟩
  | closeBlock place =>
    rw [call]
    cases g.guards[place]? with
    | none => exact .inl rfl
    | some id => exact .inr ⟨.closeBlock id, rfl⟩

/-- What every call keeps, a program keeps. -/
theorem run_keeps {Q : Writer → Prop} (keeps : ∀ w c, Q w → Q (w.call c)) {g : Guarded}
    (h : Q g.writer) (calls : List Call) : Q (g.run calls).writer := by
  induction calls generalizing g with
  | nil => exact h
  | cons c rest ih =>
    refine ih ?_
    rcases g.call_cases c with same | ⟨d, same⟩
    · rwa [same]
    · rw [same]
      exact keeps _ d h

/-- What the calls on a writer keep, the calls through its guards keep, as those are closings of its
blocks. -/
theorem run_everywhere {P : Writer → Prop} (inv : Writer.Invariant P fun _ => True) {g : Guarded}
    (h : Writer.Everywhere P g.writer) (calls : List Call) :
    Writer.Everywhere P (g.run calls).writer :=
  run_keeps (fun _ _ => inv.everywhere_call trivial) h calls

end Guarded

namespace Writer

/-- Calls with guards of their own, which are forgotten at the end. -/
def perform (w : Writer) (calls : List Call) : Writer := ((⟨w, []⟩ : Guarded).run calls).writer

/-! ## Closing by number -/

theorem endBlock_openBlocks (w : Writer) : w.endBlock.openBlocks = w.openBlocks.tail := by
  cases opened : w.openBlocks with
  | nil => rw [endBlock_nil opened, opened, List.tail_nil]
  | cons id outer => rw [endBlock_cons opened, appendRaw_openBlocks, List.tail_cons]

theorem endBlocks_openBlocks (w : Writer) (n : Nat) :
    (w.endBlocks n).openBlocks = w.openBlocks.drop n := by
  induction n generalizing w with
  | zero => rfl
  | succ n ih => rw [endBlocks, ih, endBlock_openBlocks, List.drop_tail]

/-- Closing a block by its number ends the blocks inside it and then the block itself. -/
theorem closeBlock_eq {w : Writer} {id : Nat} {inside outer : List Nat}
    (opened : w.openBlocks = inside ++ id :: outer) (apart : id ∉ inside) :
    w.closeBlock id = w.endBlocks (inside.length + 1) := by
  have place : w.openBlocks.idxOf? id = some inside.length := by
    rw [List.idxOf?_eq_some_iff, opened]
    refine ⟨by simp, by simp, fun j before => ?_⟩
    rw [List.getElem_append_left before]
    intro same
    exact apart (same ▸ List.getElem_mem before)
  rw [closeBlock, place]

/-- Closing a block that is not open does nothing. -/
theorem closeBlock_of_notMem {w : Writer} {id : Nat} (closed : id ∉ w.openBlocks) :
    w.closeBlock id = w := by
  rw [closeBlock, List.idxOf?_eq_none_iff.mpr closed]

/-- Closing the innermost block of a writer that is at the end of a line. -/
theorem closeBlock_of_endsLine {w : Writer} {id : Nat} {outer : List Nat}
    (opened : w.openBlocks = id :: outer) (ended : Text.endsLine w.buffer = true) :
    w.closeBlock id = { w with openBlocks := outer }.appendRaw
      (w.style.levels (w.baseDepth + outer.length + w.extraIndent) ++ "\x7d" ++ "\n") := by
  have stack : w.openBlocks = [] ++ id :: outer := opened
  have innermost : w.closeBlock id = w.endBlock := closeBlock_eq stack List.not_mem_nil
  have atStart : endsMidLine { w with openBlocks := outer } = false := endsMidLine_of_endsLine ended
  have brace : closing { w with openBlocks := outer } =
      w.style.levels (w.baseDepth + outer.length + w.extraIndent) ++ "\x7d" ++ "\n" := by
    rw [closing, atStart, String.append_assoc]
    exact String.empty_append
  rw [innermost, endBlock_cons opened, brace]

/-- Closing a block closes the ones inside it and none around it. -/
theorem closeBlock_openBlocks {w : Writer} {id : Nat} {inside outer : List Nat}
    (opened : w.openBlocks = inside ++ id :: outer) (apart : id ∉ inside) :
    (w.closeBlock id).openBlocks = outer := by
  rw [closeBlock_eq opened apart, endBlocks_openBlocks, opened]
  simp

/-! ## Numbers of blocks -/

/-- The numbers of the open blocks, innermost first, descend from the next number. -/
def Numbered (w : Writer) : Prop := (w.nextBlock :: w.openBlocks).Pairwise (· > ·)

/-- The next number is above those of all open blocks. -/
theorem Numbered.lt {w : Writer} (h : w.Numbered) {id : Nat} (opened : id ∈ w.openBlocks) :
    id < w.nextBlock := List.rel_of_pairwise_cons h opened

theorem numbered_openBlock {w : Writer} (h : w.Numbered) (header : String)
    (constraints : List String) : (w.openBlock header constraints).1.Numbered := by
  rw [openBlock_eq]
  refine List.pairwise_cons.mpr ⟨fun id opened => Nat.lt_succ_of_le ?_, h⟩
  rcases List.mem_cons.mp opened with rfl | outer
  · exact Nat.le_refl _
  · exact Nat.le_of_lt (h.lt outer)

theorem endBlock_nextBlock (w : Writer) : w.endBlock.nextBlock = w.nextBlock := by
  cases opened : w.openBlocks with
  | nil => rw [endBlock_nil opened]
  | cons id outer =>
    rw [endBlock_cons opened]
    rfl

theorem numbered_endBlock {w : Writer} (h : w.Numbered) : w.endBlock.Numbered := by
  have fewer : (w.openBlocks.tail).Sublist w.openBlocks := List.tail_sublist _
  rw [Numbered, endBlock_nextBlock, endBlock_openBlocks]
  exact h.sublist (fewer.cons_cons _)

theorem numbered_child (w : Writer) (header : Option String) : (w.child header).Numbered := by
  cases header with
  | none => exact List.pairwise_singleton _ _
  | some text =>
    have fresh : Numbered
        { style := w.style, baseDepth := w.depth, extraIndent := w.extraIndent } :=
      List.pairwise_singleton _ _
    exact numbered_openBlock fresh text []

theorem numbered_invariant : Invariant Numbered fun _ => True where
  call w c _ h := by
    cases c with
    | op op =>
      rcases apply_cases op with writes | (rfl | rfl) | ⟨header, rfl⟩ | rfl
      · rw [call, writes]
        exact h.here
      · exact h.here
      · exact h.here
      · exact numbered_openBlock h.here header []
      · exact numbered_endBlock h.here
    | openBlock header constraints => exact numbered_openBlock h.here header constraints
    | closeBlock id => exact closeBlock_keeps (Q := Numbered) (fun _ => numbered_endBlock) h.here id
    | reserve header =>
      rw [call, Numbered, reserve_toCursor]
      exact h.here
  child w header _ _ := numbered_child w header
  setSub _ _ _ _ _ h := h

/-- In every tree that was built by calls, the numbers of the open blocks of a writer descend from
its next number. -/
theorem numbered_run (style : Indent) (actions : List Action) :
    Everywhere Numbered ((Writer.empty style).run actions) :=
  numbered_invariant.run (fun _ _ => trivial)
    (everywhere_of_segments_nil (List.pairwise_singleton _ _) rfl)

end Writer

end CSharpGen

import CSharpGen.Proofs.File.BlankLines
import CSharpGen.Proofs.Script.Places
import CSharpGen.Proofs.Script.Separators

/-!
# The texts of types

A built file is the file without types, with what the scripts of the types wrote inside it or below
it: their texts in the order of the types, with one empty line between two of them
(`File.build_holdsTypes`). A body may continue a sub-writer that was reserved before it, so the text of a
type is what it has become in the finished file.
-/

namespace CSharpGen

/-! ## What closes blocks -/

/-- Blanks and closing braces, and nothing else. -/
def Text.OnlyCloses (s : String) : Prop := ∀ c ∈ s.toList, Text.isBlank c = true ∨ c = '\x7d'

namespace Text

theorem onlyCloses_empty : OnlyCloses "" := by simp [OnlyCloses]

theorem OnlyCloses.append {s t : String} (h : OnlyCloses s) (also : OnlyCloses t) :
    OnlyCloses (s ++ t) := by
  intro c member
  rw [String.toList_append] at member
  exact (List.mem_append.mp member).elim (h c) (also c)

/-- The line of a closing brace. -/
theorem onlyCloses_brace (style : Indent) (n : Nat) :
    OnlyCloses (style.levels n ++ "\x7d\n") := by
  refine OnlyCloses.append (fun c member => .inl (style.levels_chars n c member).1) ?_
  simp [OnlyCloses, isBlank]

theorem onlyCloses_lineEnd : OnlyCloses "\n" := by simp [OnlyCloses, isBlank]

end Text

open Text (OnlyCloses onlyCloses_empty onlyCloses_brace onlyCloses_lineEnd)

namespace Cursor

theorem onlyCloses_closingLines (style : Indent) (level n : Nat) :
    OnlyCloses (closingLines style level n) := by
  induction n with
  | zero => exact onlyCloses_empty
  | succ n ih => exact (onlyCloses_brace style (level + n)).append ih

theorem exists_closeAfter (c : Cursor) (out : String) :
    ∃ closers, OnlyCloses closers ∧ c.closeAfter out = out ++ closers := by
  have lines := onlyCloses_closingLines c.style (c.baseDepth + c.extraIndent) c.openBlocks.length
  unfold closeAfter Text.finishLine
  split
  · exact ⟨"", onlyCloses_empty, String.append_empty.symm⟩
  · split
    · exact ⟨_, lines, rfl⟩
    · exact ⟨_, onlyCloses_lineEnd.append lines, String.append_assoc⟩

end Cursor

namespace Writer

theorem onlyCloses_closing (w : Writer) : OnlyCloses w.closing := by
  refine OnlyCloses.append ?_ (onlyCloses_brace w.style _)
  split
  · exact onlyCloses_lineEnd
  · exact onlyCloses_empty

/-- Closing a block writes nothing but what closes it and the blocks inside it. -/
theorem exists_closeBlock (w : Writer) (id : Nat) : ∃ closers, OnlyCloses closers ∧
    (w.closeBlock id).segments = w.segments ∧ (w.closeBlock id).buffer = w.buffer ++ closers := by
  refine closeBlock_keeps (Q := fun v => ∃ closers, OnlyCloses closers ∧
    v.segments = w.segments ∧ v.buffer = w.buffer ++ closers) (fun v kept => ?_)
    ⟨"", onlyCloses_empty, rfl, String.append_empty.symm⟩ id
  obtain ⟨closers, only, segments, buffer⟩ := kept
  cases opened : v.openBlocks with
  | nil =>
    rw [endBlock_nil opened]
    exact ⟨closers, only, segments, buffer⟩
  | cons id outer =>
    rw [endBlock_cons opened]
    exact ⟨_, only.append (onlyCloses_closing _), segments,
      (congrArg (· ++ _) buffer).trans String.append_assoc⟩

/-- Rendering adds nothing but what closes the open blocks. -/
theorem exists_render (w : Writer) : ∃ closers, OnlyCloses closers ∧ w.render = w.body ++ closers :=
  w.exists_closeAfter w.body

/-- Closing the only block of a writer that is at the end of a line. -/
theorem render_closeBlock {w : Writer} {id : Nat} (opened : w.openBlocks = [id])
    (ended : Text.endsLine w.buffer = true) (base : w.baseDepth = 0) (extra : w.extraIndent = 0) :
    (w.closeBlock id).render = w.body ++ "\x7d\n" := by
  have same : body { w with openBlocks := [] } = w.body := rfl
  have margin : w.style.levels (w.baseDepth + ([] : List Nat).length + w.extraIndent) = "" := by
    rw [base, extra]
    rfl
  rw [closeBlock_of_endsLine opened ended, render_eq_body rfl, margin, body_appendRaw, same,
    String.empty_append]
  rfl

/-- A block without content. -/
theorem render_emptyBlock {w : Writer} (none : w.openBlocks = []) (base : w.baseDepth = 0)
    (extra : w.extraIndent = 0) (header : String) :
    ((w.openBlock header []).1.closeBlock (w.openBlock header []).2).render =
      (w.openBlock header []).1.body ++ "\x7d\n" := by
  rw [openBlock_eq]
  refine render_closeBlock (congrArg (w.nextBlock :: ·) none) ?_ base extra
  exact Text.endsLine_append_right _
    ((w.wholeLines_opening header []).resolve_left (w.opening_ne_empty header []))

/-- A later writer with the same segments holds the text as it is. -/
theorem textIn_of_segments {w v : Writer} (same : v.segments = w.segments) :
    w.textIn v = w.body := by
  rw [textIn, same, List.take_length, body]

/-- The text of a writer without sub-writers is the same in every later writer. -/
theorem textIn_of_flat {w : Writer} (flat : w.segments = []) (v : Writer) : w.textIn v = w.body := by
  rw [textIn, body, flat]
  rfl

end Writer

/-- The pieces that scripts wrote, one after the other behind `front` and an empty line between two
of them, as they stand in the text of a later writer. -/
inductive Script.Stand (v : Writer) : (front : String) → List Script → List String → Prop where
  | none {front : String} : Stand v front [] []
  | next {front piece : String} {script : Script} {rest : List Script} {pieces : List String}
      (r : Run) (starts : r.writer.textIn v = front)
      (reaches : (Step.runAll script r).writer.Continues v)
      (wrote : (Step.runAll script r).writer.textIn v = front ++ piece)
      (later : Stand v (front ++ piece ++ "\n") rest pieces) :
      Stand v front (script :: rest) (piece :: pieces)

/-! ## Spaced scripts -/

namespace Script

variable {v : Writer}

theorem Stand.length_eq {front : String} {scripts : List Script} {pieces : List String}
    (h : Stand v front scripts pieces) : pieces.length = scripts.length := by
  induction h with
  | none => rfl
  | next _ _ _ _ _ ih => exact congrArg (· + 1) ih

theorem continues_runEach (parts : List (Bool × Script)) (r : Run) :
    r.writer.Continues (runEach parts r).writer := by
  induction parts generalizing r with
  | nil => exact Writer.continues_refl _
  | cons part rest ih =>
    obtain ⟨gap, script⟩ := part
    cases gap with
    | false => exact (continues script r).trans (ih _)
    | true =>
      exact (Writer.continues_apply r.writer .newLine).trans
        ((continues script (r.update Writer.newLine)).trans (ih _))

/-- Scripts with an empty line before each of them. -/
theorem exists_stand (scripts : List Script) {r : Run}
    (reaches : (runEach (scripts.map (true, ·)) r).writer.Continues v) :
    ∃ pieces, Stand v (r.writer.textIn v ++ "\n") scripts pieces ∧
      (runEach (scripts.map (true, ·)) r).writer.textIn v =
        r.writer.textIn v ++ Sections.eachAfter "\n" pieces := by
  induction scripts generalizing r with
  | nil => exact ⟨[], .none, String.append_empty.symm⟩
  | cons script rest ih =>
    let start := r.update Writer.newLine
    let after := Step.runAll script start
    obtain ⟨pieces, later, all⟩ := ih (r := after) reaches
    have goesOn : after.writer.Continues v := (continues_runEach _ after).trans reaches
    have starts : start.writer.textIn v = r.writer.textIn v ++ "\n" :=
      r.writer.textIn_appendRaw "\n" v
    obtain ⟨piece, wrote⟩ := (continues script start).exists_since goesOn
    rw [starts] at wrote
    change after.writer.textIn v = _ at wrote
    refine ⟨piece :: pieces, .next start starts goesOn wrote (wrote ▸ later), ?_⟩
    rw [List.map_cons, runEach, if_pos rfl, all, wrote, Sections.eachAfter, Sections.eachAfter,
      List.map_cons, String.join_cons]
    simp only [String.append_assoc]

theorem markedItems_spaced (hadOutput : Bool) (scripts : List Script) :
    Sections.markedItems .spaced hadOutput true scripts = scripts.map (true, ·) := by
  induction scripts with
  | nil => rfl
  | cons script rest ih => exact congrArg ((true, script) :: ·) ih

/-- The scripts of a spaced group, below an empty line when something stands above the group. -/
theorem exists_stand_spaced (hadOutput : Bool) (scripts : List Script) {r : Run}
    (reaches : (runEach (Sections.markedItems .spaced hadOutput false scripts) r).writer.Continues
      v) :
    ∃ gap pieces, (gap = "" ∨ hadOutput = true ∧ gap = "\n") ∧
      Stand v (r.writer.textIn v ++ gap) scripts pieces ∧
      (runEach (Sections.markedItems .spaced hadOutput false scripts) r).writer.textIn v =
        r.writer.textIn v ++ gap ++ "\n".intercalate pieces := by
  cases scripts with
  | nil => exact ⟨"", [], .inl rfl, .none, by simp [runEach, Sections.markedItems]⟩
  | cons script rest =>
    rw [Sections.markedItems, markedItems_spaced, runEach] at reaches ⊢
    have starts : ∃ gap, (gap = "" ∨ hadOutput = true ∧ gap = "\n") ∧
        (if Sections.separates .spaced hadOutput false = true then r.update Writer.newLine
          else r).writer.textIn v = r.writer.textIn v ++ gap := by
      cases hadOutput with
      | false => exact ⟨"", .inl rfl, String.append_empty.symm⟩
      | true => exact ⟨"\n", .inr ⟨rfl, rfl⟩, r.writer.textIn_appendRaw "\n" v⟩
    obtain ⟨gap, isGap, starts⟩ := starts
    generalize (if Sections.separates .spaced hadOutput false = true
      then r.update Writer.newLine else r) = start at reaches starts ⊢
    let after := Step.runAll script start
    obtain ⟨pieces, later, all⟩ := exists_stand rest reaches
    have goesOn : after.writer.Continues v := (continues_runEach _ after).trans reaches
    obtain ⟨piece, wrote⟩ := (continues script start).exists_since goesOn
    rw [starts] at wrote
    refine ⟨gap, piece :: pieces, isGap, .next start starts goesOn wrote (wrote ▸ later), ?_⟩
    rw [all, wrote, Sections.intercalate_cons, ← String.append_assoc]

end Script

/-! ## The groups of a file -/

namespace Run

/-- Lines only add to the buffer, and do not fail. -/
theorem writeItems_lines (spacing : Spacing) (hadOutput wroteAny : Bool) (texts : List String)
    (r : Run) :
    let outcome := Sections.writeItems (·.update Writer.newLine) spacing hadOutput wroteAny
      (Item.attempts (texts.map .line)) r
    outcome.2 = none ∧ ∃ s, outcome.1.writer = r.writer.appendRaw s := by
  induction texts generalizing wroteAny r with
  | nil => exact ⟨rfl, "", by simp [Item.attempts, Sections.writeItems, Writer.appendRaw]⟩
  | cons text rest ih =>
    rw [List.map_cons, writeItems_cons spacing hadOutput wroteAny fun _ => rfl]
    generalize isStart : (if Sections.separates spacing hadOutput wroteAny
      then r.update Writer.newLine else r) = start
    have gap : ∃ s, start.writer = r.writer.appendRaw s := by
      rw [← isStart]
      split
      · exact ⟨"\n", rfl⟩
      · exact ⟨"", by simp [Writer.appendRaw]⟩
    obtain ⟨s, starts⟩ := gap
    obtain ⟨succeeds, more, added⟩ := ih true (start.update (·.appendLine text))
    refine ⟨succeeds, s ++ (start.writer.indented text ++ "\n") ++ more, ?_⟩
    have line : (start.update (·.appendLine text)).writer =
        start.writer.appendRaw (start.writer.indented text ++ "\n") := Writer.appendLine_eq ..
    refine added.trans ?_
    rw [line, starts, Writer.appendRaw_appendRaw, Writer.appendRaw_appendRaw, ← String.append_assoc]

/-- Groups of lines do not fail, so what comes after them is written. It is written behind the same
text, whatever it is. -/
theorem exists_writeGroups_lines (hadOutput : Bool) (groups : List (List String)) (r : Run) :
    ∃ before start, (∃ s, start.writer = r.writer.appendRaw s) ∧ ∀ rest : List Group,
      (Sections.writeGroups (·.update Writer.newLine) hadOutput
        (Group.attempts (groups.map .ofLines ++ rest)) r).state =
      (Sections.writeGroups (·.update Writer.newLine) before (Group.attempts rest) start).state := by
  induction groups generalizing hadOutput r with
  | nil => exact ⟨hadOutput, r, ⟨"", by simp [Writer.appendRaw]⟩, fun rest => rfl⟩
  | cons texts others ih =>
    obtain ⟨s, added⟩ := (writeItems_lines .close hadOutput false texts r).2
    obtain ⟨before, start, ⟨more, starts⟩, same⟩ := ih (hadOutput || !(texts.map Item.line).isEmpty)
      (Sections.writeItems (·.update Writer.newLine) .close hadOutput false
        (Item.attempts (texts.map .line)) r).1
    refine ⟨before, start, ⟨s ++ more, ?_⟩, fun rest => ?_⟩
    · rw [starts, added, Writer.appendRaw_appendRaw]
    · rw [List.map_cons, List.cons_append, Group.ofLines,
        writeGroups_cons .close hadOutput fun r => (writeItems_lines .close hadOutput false texts r).1]
      exact same rest

/-- A group of spaced scripts below groups of lines. -/
theorem exists_writeGroups_spaced (groups : List (List String)) (r : Run) :
    ∃ before start, (∃ s, start.writer = r.writer.appendRaw s) ∧ ∀ scripts : List Script,
      (r.sections (Group.attempts (groups.map .ofLines ++ [.ofScripts .spaced scripts]))).writer =
        (Script.runEach (Sections.markedItems .spaced before false scripts) start).writer := by
  obtain ⟨before, start, starts, same⟩ := exists_writeGroups_lines false groups r
  refine ⟨before, start, starts, fun scripts => ?_⟩
  have alone := (writeGroups_scripts before [(.spaced, scripts)] start).1
  rw [Sections.marked, Sections.marked, List.append_nil] at alone
  have all := congrArg Run.writer ((same [.ofScripts .spaced scripts]).trans alone)
  exact all

/-- Spaced scripts in a block. -/
theorem writer_block_spaced (header : String) (scripts : List Script) (r : Run) :
    ((Step.block header [] [.sections [.ofScripts .spaced scripts]]).run r).writer =
      (Script.runEach (Sections.markedItems .spaced false false scripts)
        (observe { r with writer := (r.writer.openBlock header []).1 })).writer.closeBlock
          (r.writer.openBlock header []).2 := by
  have inner := sections_ofScripts [(.spaced, scripts)]
    (observe { r with writer := (r.writer.openBlock header []).1 })
  rw [Sections.marked, Sections.marked, List.append_nil] at inner
  rw [← inner, Step.run]
  exact r.writer_inBlock header [] fun r => Step.runAll [.sections [.ofScripts .spaced scripts]]
    r.observe

/-- Spaced scripts in a block below groups of lines. -/
theorem exists_writeGroups_block (groups : List (List String)) (header : String) (r : Run) :
    ∃ start : Run, (∃ s, start.writer = r.writer.appendRaw s) ∧ ∀ scripts : List Script,
      (r.sections (Group.attempts (groups.map .ofLines ++
          [.ofScripts .close [[.block header [] [.sections [.ofScripts .spaced scripts]]]]]))).writer =
        ((Step.block header [] [.sections [.ofScripts .spaced scripts]]).run start).writer := by
  obtain ⟨before, start, ⟨s, starts⟩, same⟩ := exists_writeGroups_lines false groups r
  refine ⟨if Sections.separates .close before false then start.update Writer.newLine else start,
    ?_, fun scripts => ?_⟩
  · split
    · exact ⟨s ++ "\n", (congrArg Writer.newLine starts).trans (Writer.appendRaw_appendRaw ..)⟩
    · exact ⟨s, starts⟩
  · have alone := (writeGroups_scripts before
      [(.close, [[.block header [] [.sections [.ofScripts .spaced scripts]]]])] start).1
    have all := congrArg Run.writer ((same _).trans alone)
    exact all

end Run

namespace File

variable {f : File} {p : Preamble} {text : String}

/-- What is written for a file whose types have the given scripts. -/
def writer (f : File) (p : Preamble) (types : List Script) : Writer :=
  Script.write [.sections (f.preambleGroups p ++ f.typeGroups types)] (.empty f.options.indent)

/-- The types are written one after the other from a run that does not depend on them. Either
nothing comes after them, or a block is closed that opened right before them. -/
theorem exists_runEach (f : File) (p : Preamble) : ∃ hadOutput r,
    r.writer.segments = [] ∧
    ((r.writer.openBlocks = [] ∧ ∀ scripts, f.writer p scripts =
        (Script.runEach (Sections.markedItems .spaced hadOutput false scripts) r).writer) ∨
      (hadOutput = false ∧ ∃ id, (r.writer.closeBlock id).render = r.writer.body ++ "\x7d\n" ∧
        ∀ scripts, f.writer p scripts =
          (Script.runEach (Sections.markedItems .spaced hadOutput false scripts)
            r).writer.closeBlock id)) := by
  let fresh : Run := { writer := .empty f.options.indent }
  have below (lines : List (List String))
      (split : ∀ scripts, f.preambleGroups p ++ f.typeGroups scripts =
        lines.map .ofLines ++ [.ofScripts .spaced scripts]) :
      ∃ hadOutput r, r.writer.segments = [] ∧ r.writer.openBlocks = [] ∧ ∀ scripts,
        f.writer p scripts =
          (Script.runEach (Sections.markedItems .spaced hadOutput false scripts) r).writer := by
    obtain ⟨before, start, ⟨s, starts⟩, same⟩ := fresh.exists_writeGroups_spaced lines
    refine ⟨before, start, by rw [starts]; rfl, by rw [starts]; rfl, fun scripts => ?_⟩
    rw [writer, split scripts, ← same scripts]
    rfl
  cases named : f.namespaceName with
  | none =>
    obtain ⟨hadOutput, r, flat, closed, same⟩ := below (f.headLines p) fun scripts => by
      rw [typeGroups, named]
      rfl
    exact ⟨hadOutput, r, flat, .inl ⟨closed, same⟩⟩
  | some name =>
    cases style : f.options.namespaceStyle with
    | fileScoped =>
      obtain ⟨hadOutput, r, flat, closed, same⟩ :=
        below (f.headLines p ++ [[s!"namespace {name};"]]) fun scripts => by
          rw [typeGroups, named, style, List.map_append, List.append_assoc]
          rfl
      exact ⟨hadOutput, r, flat, .inl ⟨closed, same⟩⟩
    | block =>
      let header := s!"namespace {name}"
      obtain ⟨r, ⟨text, isRun⟩, same⟩ := fresh.exists_writeGroups_block (f.headLines p) header
      refine ⟨false, Run.observe { r with writer := (r.writer.openBlock header []).1 }, ?_,
        .inr ⟨rfl, (r.writer.openBlock header []).2, ?_, fun scripts => ?_⟩⟩
      · exact (r.writer.openBlock_segments header []).trans (by rw [isRun]; rfl)
      · exact Writer.render_emptyBlock (by rw [isRun]; rfl) (by rw [isRun]; rfl)
          (by rw [isRun]; rfl) header
      · rw [← Run.writer_block_spaced, ← same scripts, writer, typeGroups, named, style]
        rfl

/-- What stands in front of the types: the file without them, up to the brace that closes its
namespace, or with an empty line below it. -/
def Front (f : File) (p : Preamble) (front : String) : Prop :=
  ∃ bare, build { f with types := [] } p = .ok bare ∧
    (bare = front ++ "\x7d\n" ∨ front = bare ∨ front = bare ++ "\n")

/-- A text holds the types of a file: what their scripts wrote, in the order of the types with one
empty line between two of them, and around it only what the file has without types. -/
def HoldsTypes (f : File) (p : Preamble) (text : String) (pieces : List String) : Prop :=
  ∃ scripts front tail, f.types.mapM TypeDeclaration.script = .ok scripts ∧
    (f.writer p scripts).render = text ∧ Script.Stand (f.writer p scripts) front scripts pieces ∧
    f.Front p front ∧ OnlyCloses tail ∧ text = front ++ "\n".intercalate pieces ++ tail

theorem HoldsTypes.length_eq {pieces : List String} (h : f.HoldsTypes p text pieces) :
    pieces.length = f.types.length := by
  obtain ⟨scripts, front, tail, ok, -, stand, -⟩ := h
  rw [stand.length_eq, length_of_mapM_ok ok]

/-- A built file holds its types. -/
theorem build_holdsTypes (ok : f.build p = .ok text) : ∃ pieces, f.HoldsTypes p text pieces := by
  obtain ⟨script, okScript, rfl⟩ := build_ok ok
  obtain ⟨scripts, okTypes, okScript⟩ := bind_eq_ok.mp okScript
  cases okScript
  have bare : build { f with types := [] } p = .ok (f.writer p []).render := rfl
  obtain ⟨hadOutput, r, flat, around⟩ := f.exists_runEach p
  let types := (Script.runEach (Sections.markedItems .spaced hadOutput false scripts) r).writer
  have closes : types.Continues (f.writer p scripts) ∧
      (f.writer p scripts).segments = types.segments ∧
      ∃ closers, OnlyCloses closers ∧ (f.writer p scripts).buffer = types.buffer ++ closers := by
    rcases around with ⟨-, same⟩ | ⟨-, id, -, same⟩
    · rw [same scripts]
      exact ⟨Writer.continues_refl _, rfl, "", onlyCloses_empty, String.append_empty.symm⟩
    · rw [same scripts]
      obtain ⟨closers, only, segments, buffer⟩ := types.exists_closeBlock id
      exact ⟨Writer.closeBlock_keeps (Q := types.Continues)
        (fun w reaches => reaches.trans (Writer.continues_endBlock w)) (Writer.continues_refl _) id,
        segments, closers, only, buffer⟩
  obtain ⟨reaches, segments, closers, only, buffer⟩ := closes
  obtain ⟨gap, pieces, isGap, stand, all⟩ := Script.exists_stand_spaced hadOutput scripts reaches
  rw [r.writer.textIn_of_flat flat] at stand all
  have front : f.Front p (r.writer.body ++ gap) := by
    refine ⟨_, bare, ?_⟩
    rcases around with ⟨closed, same⟩ | ⟨none, id, empty, same⟩
    · have start : f.writer p [] = r.writer := same []
      rw [start, Writer.render_eq_body closed]
      rcases isGap with rfl | ⟨-, rfl⟩
      · exact .inr (.inl String.append_empty)
      · exact .inr (.inr rfl)
    · have start : f.writer p [] = r.writer.closeBlock id := same []
      rcases isGap with rfl | ⟨some, -⟩
      · exact .inl (by rw [start, empty, String.append_empty])
      · exact absurd (none.symm.trans some) Bool.false_ne_true
  obtain ⟨last, alsoOnly, rendered⟩ := (f.writer p scripts).exists_render
  have inside : types.textIn (f.writer p scripts) = types.body :=
    Writer.textIn_of_segments segments
  have body : (f.writer p scripts).body = types.body ++ closers := by
    rw [Writer.body, Writer.body, segments, buffer, String.append_assoc]
  refine ⟨pieces, scripts, r.writer.body ++ gap, closers ++ last, okTypes, rfl, stand, front,
    only.append alsoOnly, ?_⟩
  change (f.writer p scripts).render = _
  rw [rendered, body, ← inside, all, String.append_assoc]

end File

end CSharpGen

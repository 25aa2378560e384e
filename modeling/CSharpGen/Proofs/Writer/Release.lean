import CSharpGen.Proofs.Writer.Follows

/-!
# Releasing guards

A call takes blocks off the stack of a writer or puts one with a new number on it. So the blocks
below the block of a guard are the ones that were below it when the guard was given, and a block
that was closed is closed for ever. Releasing a guard closes its own block with the blocks inside
it, or nothing (`closeBlock_after_body`).
-/

namespace CSharpGen.Writer

variable {v w : Writer} {id : Nat}

/-! ## The stack -/

/-- Some of the innermost blocks are closed, or one is opened under the next number. -/
def StackStep (w after : Writer) : Prop :=
  (∃ n, after.openBlocks = w.openBlocks.drop n ∧ after.nextBlock = w.nextBlock) ∨
    (after.openBlocks = w.nextBlock :: w.openBlocks ∧ after.nextBlock = w.nextBlock + 1)

theorem stackStep_of_same (blocks : v.openBlocks = w.openBlocks)
    (next : v.nextBlock = w.nextBlock) : StackStep w v := .inl ⟨0, blocks, next⟩

theorem stackStep_openBlock (w : Writer) (header : String) (constraints : List String) :
    StackStep w (w.openBlock header constraints).1 := by
  rw [openBlock_eq]
  exact .inr ⟨rfl, rfl⟩

theorem endBlocks_nextBlock (w : Writer) (n : Nat) : (w.endBlocks n).nextBlock = w.nextBlock :=
  endBlocks_keeps (Q := fun v => v.nextBlock = w.nextBlock)
    (fun v same => (endBlock_nextBlock v).trans same) rfl n

theorem stackStep_endBlocks (w : Writer) (n : Nat) : StackStep w (w.endBlocks n) :=
  .inl ⟨n, endBlocks_openBlocks w n, endBlocks_nextBlock w n⟩

/-- A call closes some of the innermost blocks of its writer or opens one. -/
theorem stackStep_call (w : Writer) (c : Call) : StackStep w (w.call c) := by
  cases c with
  | op op =>
    rcases apply_cases op with writes | (rfl | rfl) | ⟨header, rfl⟩ | rfl
    · rw [call, writes]
      exact stackStep_of_same rfl rfl
    · exact stackStep_of_same rfl rfl
    · exact stackStep_of_same rfl rfl
    · exact stackStep_openBlock w header []
    · exact stackStep_endBlocks w 1
  | openBlock header constraints => exact stackStep_openBlock w header constraints
  | closeBlock id =>
    rw [call, closeBlock]
    split
    · exact stackStep_of_same rfl rfl
    · exact stackStep_endBlocks w _
  | reserve header =>
    rw [call]
    exact stackStep_of_same (by rw [reserve_toCursor]) (by rw [reserve_toCursor])

/-- Calls on the sub-writers leave the stack of the writer above alone. -/
theorem stackStep_act (w : Writer) (a : Action) : StackStep w (w.act a) := by
  unfold act
  cases a.path with
  | nil => exact stackStep_call w a.call
  | cons i path =>
    cases found : w.sub? i with
    | none =>
      rw [updateAt_cons_none found]
      exact stackStep_of_same rfl rfl
    | some sub =>
      rw [updateAt_cons found]
      exact stackStep_of_same rfl rfl

/-! ## What stays -/

/-- A number that was given, whose block stands on the blocks of `below` as long as it is open. -/
structure StandsOn (id : Nat) (below : List Nat) (w : Writer) : Prop where
  given : id < w.nextBlock
  outer_eq : ∀ inside outer, w.openBlocks = inside ++ id :: outer → outer = below

/-- A block that was just opened stands on the blocks that were open before it. -/
theorem standsOn_openBlock (numbered : w.Numbered) (header : String) (constraints : List String) :
    StandsOn w.nextBlock w.openBlocks (w.openBlock header constraints).1 := by
  rw [openBlock_eq]
  refine ⟨Nat.lt_succ_self _, fun inside outer split => ?_⟩
  cases inside with
  | nil => exact (List.cons.inj split).2.symm
  | cons _ inside =>
    have twice : w.nextBlock ∈ w.openBlocks := by simp [(List.cons.inj split).2]
    exact absurd (numbered.lt twice) (Nat.lt_irrefl _)

theorem StandsOn.step {below : List Nat} (h : StandsOn id below w) (step : StackStep w v) :
    StandsOn id below v := by
  rcases step with ⟨n, blocks, next⟩ | ⟨blocks, next⟩
  · refine ⟨next ▸ h.given, fun inside outer split =>
      h.outer_eq (w.openBlocks.take n ++ inside) outer ?_⟩
    rw [List.append_assoc, ← split, blocks, List.take_append_drop]
  · refine ⟨next ▸ Nat.lt_succ_of_lt h.given, fun inside outer split => ?_⟩
    rw [blocks] at split
    cases inside with
    | nil => exact absurd (List.cons.inj split).1 (Nat.ne_of_gt h.given)
    | cons _ inside => exact h.outer_eq inside outer (List.cons.inj split).2

/-- As long as a block is open, what it stands on does not change. -/
theorem StandsOn.run {below : List Nat} (h : StandsOn id below w) (actions : List Action) :
    StandsOn id below (w.run actions) := by
  induction actions generalizing w with
  | nil => exact h
  | cons a rest ih => exact ih (h.step (stackStep_act w a))

/-- A number that was given and whose block is not open. -/
def Closed (id : Nat) (w : Writer) : Prop := id < w.nextBlock ∧ id ∉ w.openBlocks

/-- A closed block stays closed: its number is not given again. -/
theorem Closed.step (h : Closed id w) (step : StackStep w v) : Closed id v := by
  obtain ⟨given, closed⟩ := h
  rcases step with ⟨n, blocks, next⟩ | ⟨blocks, next⟩
  · exact ⟨next ▸ given, fun opened => closed (List.mem_of_mem_drop (blocks ▸ opened))⟩
  · refine ⟨next ▸ Nat.lt_succ_of_lt given, fun opened => ?_⟩
    rcases List.mem_cons.mp (blocks ▸ opened) with rfl | opened
    · exact Nat.lt_irrefl _ given
    · exact closed opened

/-- The numbers of the blocks of a writer that a run closes, in the order of the actions. -/
def closings : Writer → List Action → List Nat
  | _, [] => []
  | w, a :: rest => w.openBlocks.filter (· ∉ (w.act a).openBlocks) ++ closings (w.act a) rest

/-- No run closes a block that is closed already. -/
theorem Closed.notMem_closings (h : Closed id w) (actions : List Action) :
    id ∉ closings w actions := by
  induction actions generalizing w with
  | nil => exact List.not_mem_nil
  | cons a rest ih =>
    rw [closings, List.mem_append, not_or]
    exact ⟨fun now => h.2 (List.mem_filter.mp now).1, ih (h.step (stackStep_act w a))⟩

/-- What an action takes off the stack was given before and is closed afterwards. -/
theorem closed_of_mem_filter (numbered : w.Numbered) {a : Action}
    (closes : id ∈ w.openBlocks.filter (· ∉ (w.act a).openBlocks)) : Closed id (w.act a) := by
  obtain ⟨opened, gone⟩ := List.mem_filter.mp closes
  refine ⟨?_, of_decide_eq_true gone⟩
  have given := numbered.lt opened
  rcases stackStep_act w a with ⟨_, _, next⟩ | ⟨_, next⟩
  · exact next ▸ given
  · exact next ▸ Nat.lt_succ_of_lt given

/-- No number is closed twice. -/
theorem nodup_closings (numbered : Everywhere Numbered w) (actions : List Action) :
    (closings w actions).Nodup := by
  induction actions generalizing w with
  | nil => exact List.nodup_nil
  | cons a rest ih =>
    have distinct : w.openBlocks.Nodup :=
      (List.pairwise_cons.mp numbered.here).2.imp Nat.ne_of_gt
    rw [closings, List.nodup_append]
    refine ⟨distinct.filter _, ih (numbered_invariant.act trivial numbered), ?_⟩
    rintro id now other later rfl
    exact (closed_of_mem_filter numbered.here now).notMem_closings rest later

/-! ## The text of a release -/

theorem endsMidLine_appendRaw (w : Writer) {text : String} (ended : Text.endsLine text = true) :
    (w.appendRaw text).endsMidLine = false :=
  endsMidLine_of_endsLine (Text.endsLine_append_right _ ended)

/-- The writer with a text after its own, and with other open blocks. -/
def leaving (w : Writer) (text : String) (blocks : List Nat) : Writer :=
  { w.appendRaw text with openBlocks := blocks }

/-- Closing some blocks and then others is closing them at once, with the texts one after the other.
-/
theorem leaving_leaving (w : Writer) (first second : String) (middle outer : List Nat) :
    (w.leaving first middle).leaving second outer = w.leaving (first ++ second) outer := by
  simp only [leaving, appendRaw, String.append_assoc]

/-- What closing the `n` innermost blocks writes when `outer` are open around them: a line for each
brace, innermost first, after the end of an unfinished line. -/
def releaseText (w : Writer) (outer : List Nat) (n : Nat) : String :=
  (if w.endsMidLine then "\n" else "") ++
    Cursor.closingLines w.style (w.baseDepth + outer.length + w.extraIndent) n

/-- Closing a block leaves no unfinished line. -/
theorem endsLine_releaseText (w : Writer) (outer : List Nat) (n : Nat) :
    Text.endsLine (w.releaseText outer (n + 1)) = true :=
  Text.endsLine_append_right _ (closingLines_endsLine _ _ n)

/-- The innermost block is closed first. -/
theorem releaseText_succ (w : Writer) (inside outer : List Nat) :
    w.releaseText (inside ++ outer) 1 ++
        (w.leaving (w.releaseText (inside ++ outer) 1) (inside ++ outer)).releaseText outer
          inside.length =
      w.releaseText outer (inside.length + 1) := by
  have level : w.baseDepth + (inside ++ outer).length + w.extraIndent =
      w.baseDepth + outer.length + w.extraIndent + inside.length := by
    rw [List.length_append]
    omega
  have start : (w.leaving (w.releaseText (inside ++ outer) 1) (inside ++ outer)).endsMidLine =
      false := w.endsMidLine_appendRaw (w.endsLine_releaseText (inside ++ outer) 0)
  have rest : (w.leaving (w.releaseText (inside ++ outer) 1) (inside ++ outer)).releaseText outer
      inside.length =
        Cursor.closingLines w.style (w.baseDepth + outer.length + w.extraIndent) inside.length := by
    rw [releaseText, start]
    exact String.empty_append
  rw [rest, releaseText, releaseText, level, Cursor.closingLines, Cursor.closingLines,
    Cursor.closingLines, String.append_empty, Nat.add_zero, String.append_assoc]

/-- Closing the innermost block writes its brace and leaves the outer ones open. -/
theorem endBlock_eq {outer : List Nat} (opened : w.openBlocks = id :: outer) :
    w.endBlock = w.leaving (w.releaseText outer 1) outer := by
  have text : closing { w with openBlocks := outer } = w.releaseText outer 1 :=
    congrArg _ String.append_empty.symm
  rw [endBlock_cons opened, text]
  rfl

/-- Closing blocks one by one writes one text and leaves the outer ones open. -/
theorem endBlocks_eq {inside outer : List Nat} (opened : w.openBlocks = id :: inside ++ outer) :
    w.endBlocks (inside.length + 1) =
      w.leaving (w.releaseText outer (inside.length + 1)) outer := by
  induction inside generalizing w id with
  | nil => exact endBlock_eq opened
  | cons next inside ih =>
    have innermost : w.endBlock =
        w.leaving (w.releaseText (next :: inside ++ outer) 1) (next :: inside ++ outer) :=
      endBlock_eq opened
    calc w.endBlocks (inside.length + 2)
        = w.endBlock.endBlocks (inside.length + 1) := rfl
      _ = _ := by
          rw [innermost, ih rfl, leaving_leaving]
          exact congrArg (w.leaving · outer) (w.releaseText_succ (next :: inside) outer)

/-- A block that is still open is closed with the blocks inside it. -/
theorem closeBlock_leaving {inside outer : List Nat} (numbered : w.Numbered)
    (opened : w.openBlocks = inside ++ id :: outer) :
    w.closeBlock id = w.leaving (w.releaseText outer (inside.length + 1)) outer := by
  have descending : (inside ++ id :: outer).Pairwise (· > ·) :=
    opened ▸ (List.pairwise_cons.mp numbered).2
  have apart : id ∉ inside := fun twice =>
    Nat.lt_irrefl id ((List.pairwise_append.mp descending).2.2 id twice id List.mem_cons_self)
  rw [closeBlock_eq opened apart]
  cases inside with
  | nil =>
    have alone : w.openBlocks = id :: [] ++ outer := opened
    exact endBlocks_eq alone
  | cons first inside =>
    have all : w.openBlocks = first :: (inside ++ [id]) ++ outer := by simp [opened]
    simpa using endBlocks_eq all

/-! ## Releasing a guard -/

/-- A block that is open when its guard is released is closed with all blocks inside it, which
leaves open what was open before it. When the block was closed already, releasing its guard changes
nothing, whatever was opened since. This rests on the numbers of the open blocks, which ascend from
the outermost one and are below the next number, so that no number is closed twice. -/
theorem closeBlock_after_body (style : Indent) (actions : List Action) {path : List Nat}
    (reached : at? path ((Writer.empty style).run actions) = some w) (header : String)
    (constraints : List String) (body : List Action) :
    let guard := (w.openBlock header constraints).2
    let v := (w.openBlock header constraints).1.run body
    (guard ∈ v.openBlocks → ∃ inside, v.openBlocks = inside ++ guard :: w.openBlocks ∧
      v.closeBlock guard =
        v.leaving (v.releaseText w.openBlocks (inside.length + 1)) w.openBlocks) ∧
    (guard ∉ v.openBlocks → v.closeBlock guard = v) ∧
    Everywhere Numbered ((Writer.empty style).run actions) ∧ Everywhere Numbered v ∧
    ∀ later, (closings w later).Nodup := by
  intro guard v
  have everywhere := numbered_run style actions
  have numbered : Everywhere Numbered w := everywhere.at? reached
  have given : guard = w.nextBlock := by simp only [guard, openBlock_eq]
  have opened : Everywhere Numbered (w.openBlock header constraints).1 :=
    numbered_invariant.everywhere_call (c := .openBlock header constraints) trivial numbered
  have numberedAfter : Everywhere Numbered v := numbered_invariant.run (fun _ _ => trivial) opened
  have stands : StandsOn guard w.openBlocks v :=
    given ▸ (standsOn_openBlock numbered.here header constraints).run body
  refine ⟨fun still => ?_, closeBlock_of_notMem, everywhere, numberedAfter,
    nodup_closings numbered⟩
  obtain ⟨inside, outer, split⟩ := List.append_of_mem still
  obtain rfl := stands.outer_eq inside outer split
  exact ⟨inside, split, closeBlock_leaving numberedAfter.here split⟩

/-- The writer of a program inside a namespace. -/
def inNamespace : Writer := (Writer.empty .spaces).run [⟨[], .openBlock "namespace Shop" []⟩]

/-- A body with a nested guard that is released and a block that is left open in the middle of a
line. -/
def unfinishedBody : List Action := [
  ⟨[], .openBlock "enum Kind" []⟩, ⟨[], .closeBlock 2⟩, ⟨[], .op (.beginBlock "void Run()")⟩,
  ⟨[], .op (.append "Go();")⟩]

/-- A body that closes the block of its guard and the namespace, and opens two blocks after that. -/
def overrunBody : List Action := [
  ⟨[], .op .endBlock⟩, ⟨[], .op .endBlock⟩, ⟨[], .op (.beginBlock "namespace Hall")⟩,
  ⟨[], .op (.beginBlock "class Desk")⟩]

/-- The writer when the guard of a class in the namespace is released. -/
def classBody (body : List Action) : Writer :=
  (inNamespace.openBlock "class Till" []).1.run body

theorem closeBlock_after_body_inNamespace :
    at? [] ((Writer.empty .spaces).run [⟨[], .openBlock "namespace Shop" []⟩]) =
        some inNamespace ∧
      (classBody unfinishedBody).openBlocks = [3, 1, 0] ∧
      (classBody unfinishedBody).closeBlock 1 =
        (classBody unfinishedBody).leaving "\n        \x7d\n    \x7d\n" [0] ∧
      (classBody overrunBody).openBlocks = [3, 2] ∧
      (classBody overrunBody).closeBlock 1 = classBody overrunBody ∧
      (closings inNamespace overrunBody).Nodup := by
  have reached : at? [] ((Writer.empty .spaces).run [⟨[], .openBlock "namespace Shop" []⟩]) =
      some inNamespace := rfl
  have guard : (inNamespace.openBlock "class Till" []).2 = 1 := by decide +kernel
  have outer : inNamespace.openBlocks = [0] := by decide +kernel
  have text : (classBody unfinishedBody).releaseText [0] 2 = "\n        \x7d\n    \x7d\n" := by
    decide +kernel
  obtain ⟨stillOpen, -⟩ := closeBlock_after_body _ _ reached "class Till" [] unfinishedBody
  obtain ⟨-, closedBefore, -, -, once⟩ :=
    closeBlock_after_body _ _ reached "class Till" [] overrunBody
  rw [guard, outer] at stillOpen
  rw [guard] at closedBefore
  have blocks : (classBody unfinishedBody).openBlocks = [3, 1, 0] := by decide +kernel
  have others : (classBody overrunBody).openBlocks = [3, 2] := by decide +kernel
  refine ⟨reached, blocks, ?_, others, closedBefore ?_, once overrunBody⟩
  · obtain ⟨inside, split, released⟩ := stillOpen (List.mem_of_elem_eq_true (blocks ▸ rfl))
    have one : inside.length = 1 := by simpa using congrArg List.length (blocks.symm.trans split)
    rw [one] at released
    exact text ▸ released
  · exact fun opened => absurd (others ▸ opened) (by decide)

end CSharpGen.Writer

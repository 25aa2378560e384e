import CSharpGen.Proofs.Script.Lays
import CSharpGen.Proofs.Script.Places
import CSharpGen.Proofs.Writer.Guards

/-!
# Switches

The body of a case may do anything with the writer. When it leaves the open blocks and the extra
indent as it found them, the switch leaves them too, and its text is made of the switch line, the
braces and the cases, each with its label one level deeper, what its body wrote and its break
(`Run.body_switch`). A label stands on a line of its own behind every body. A break does so only
behind a body that ended its last line.
-/

namespace CSharpGen

/-- A line of its own: it stands behind complete lines, and its end follows. -/
structure Text.LineBehind (before line whole : String) : Prop where
  starts : WholeLines before
  stands : ∃ rest, whole = before ++ (line ++ "\n") ++ rest

/-- The run of a case: its label and the writer at the start and at the end of its body. -/
structure CaseRun where
  label : String
  start : Writer
  finish : Writer

namespace CaseRun

/-- The body leaves the open blocks and the extra indent as it found them. -/
structure Restores (c : CaseRun) : Prop where
  openBlocks : c.finish.openBlocks = c.start.openBlocks
  extraIndent : c.finish.extraIndent = c.start.extraIndent

instance (c : CaseRun) : Decidable c.Restores :=
  decidable_of_iff (c.finish.openBlocks = c.start.openBlocks ∧
    c.finish.extraIndent = c.start.extraIndent) ⟨fun h => ⟨h.1, h.2⟩, fun h => ⟨h.1, h.2⟩⟩

/-- What the body wrote, as it stands in the text of a later writer. -/
def written (c : CaseRun) (later : Writer) : String := Writer.writtenIn c.start c.finish later

/-- A case with its label at a level, as it stands in the text of a later writer. -/
def text (style : Indent) (level : Nat) (later : Writer) (c : CaseRun) : String :=
  style.levels level ++ c.label ++ "\n" ++ c.written later ++
    (style.levels (level + 1) ++ "break;" ++ "\n")

end CaseRun

namespace Branch

/-- The label for a value, or for all other values. -/
def labelOf : Option String → String
  | some value => s!"case {value}:"
  | none => "default:"

/-- The branch for a value, or for all other values. -/
def ofCase : Option String × Script → Branch
  | (some value, body) => .case value body
  | (none, body) => .otherwise body

/-- The runs of the cases, one after the other. -/
def caseRuns : List Branch → Run → List CaseRun
  | [], _ => []
  | .mk label body :: rest, r =>
    let started := r.update fun w => (w.appendLine label).increaseIndent
    let finished := Step.runAll body started
    ⟨label, started.writer, finished.writer⟩ ::
      caseRuns rest (finished.update fun w => (w.appendLine "break;").decreaseIndent)

end Branch

/-- A run inside the braces of a switch. -/
def Run.inSwitch (r : Run) (value : String) : Run :=
  { r with writer := (r.writer.openBlock s!"switch ({value})" []).1 }

/-! ## Lines -/

theorem Branch.endsSolid_labelOf (value? : Option String) : Text.EndsSolid (labelOf value?) := by
  have colon : Text.EndsSolid ":" := ⟨':', rfl, by decide⟩
  cases value? with
  | none => exact Text.endsSolid_append "default" colon
  | some value => exact Text.endsSolid_append ("case " ++ value) colon

theorem Run.endsSolid_switch (value : String) : Text.EndsSolid s!"switch ({value})" :=
  Text.endsSolid_append ("switch (" ++ value) ⟨')', rfl, by decide⟩

/-! ## What the parts of a switch add -/

namespace Writer

/-- From `w` to `v` the text grew by `added`, as it stands in a later writer, and the place where
the next line starts is the same. -/
structure Adds (w v later : Writer) (added : String) : Prop where
  textIn : v.textIn later = w.textIn later ++ added
  style : v.style = w.style
  baseDepth : v.baseDepth = w.baseDepth
  openBlocks : v.openBlocks = w.openBlocks
  extraIndent : v.extraIndent = w.extraIndent

variable {u v w later : Writer}

theorem adds_refl (w later : Writer) : w.Adds w later "" :=
  ⟨String.append_empty.symm, rfl, rfl, rfl, rfl⟩

theorem Adds.trans {first second : String} (before : u.Adds v later first)
    (after : v.Adds w later second) : u.Adds w later (first ++ second) where
  textIn := by rw [after.textIn, before.textIn, String.append_assoc]
  style := after.style.trans before.style
  baseDepth := after.baseDepth.trans before.baseDepth
  openBlocks := after.openBlocks.trans before.openBlocks
  extraIndent := after.extraIndent.trans before.extraIndent

theorem Adds.depth {added : String} (h : w.Adds v later added) : v.depth = w.depth := by
  rw [Cursor.depth, Cursor.depth, h.baseDepth, h.openBlocks]

theorem adds_appendLine (w : Writer) {text : String} (solid : Text.EndsSolid text)
    (later : Writer) : w.Adds (w.appendLine text) later (w.indentation ++ text ++ "\n") where
  textIn := by rw [appendLine_eq, textIn_appendRaw, w.indented_of_endsSolid solid]
  style := by rw [appendLine_eq]; rfl
  baseDepth := by rw [appendLine_eq]; rfl
  openBlocks := by rw [appendLine_eq]; rfl
  extraIndent := by rw [appendLine_eq]; rfl

/-- A body one level deeper, which keeps the open blocks and the extra indent, and a break. -/
theorem adds_body {w finish later : Writer} (goesOn : w.increaseIndent.Continues finish)
    (reaches : finish.Continues later) (style : finish.style = w.style)
    (baseDepth : finish.baseDepth = w.baseDepth) (openBlocks : finish.openBlocks = w.openBlocks)
    (extraIndent : finish.extraIndent = w.extraIndent + 1) :
    w.Adds (finish.appendLine "break;").decreaseIndent later
      (writtenIn w.increaseIndent finish later ++
        (w.style.levels (w.depth + w.extraIndent + 1) ++ "break;" ++ "\n")) := by
  have last : finish.Adds (finish.appendLine "break;") later _ :=
    finish.adds_appendLine ⟨';', rfl, by decide⟩ later
  have deeper : finish.indentation = w.style.levels (w.depth + w.extraIndent + 1) := by
    rw [Cursor.indentation, Cursor.depth, style, baseDepth, openBlocks, extraIndent]
    rfl
  have body : finish.textIn later = w.textIn later ++ writtenIn w.increaseIndent finish later :=
    (textIn_append_writtenIn goesOn reaches).symm
  generalize finish.appendLine "break;" = broken at last ⊢
  exact {
    textIn := by
      rw [← String.append_assoc, ← body, ← deeper]
      exact last.textIn
    style := last.style.trans style
    baseDepth := last.baseDepth.trans baseDepth
    openBlocks := last.openBlocks.trans openBlocks
    extraIndent := congrArg (· - 1) (last.extraIndent.trans extraIndent) }

/-- A case adds its label, what its body wrote and its break, when the body went on from its start
and kept the open blocks and the extra indent. -/
theorem adds_case (w : Writer) (value? : Option String) {finish later : Writer}
    (goesOn : (w.appendLine (Branch.labelOf value?)).increaseIndent.Continues finish)
    (reaches : finish.Continues later)
    (base : finish.style = (w.appendLine (Branch.labelOf value?)).increaseIndent.style ∧
      finish.baseDepth = (w.appendLine (Branch.labelOf value?)).increaseIndent.baseDepth)
    (restores : CaseRun.Restores
      ⟨Branch.labelOf value?, (w.appendLine (Branch.labelOf value?)).increaseIndent, finish⟩) :
    w.Adds (finish.appendLine "break;").decreaseIndent later
      (CaseRun.text w.style (w.depth + w.extraIndent) later
        ⟨Branch.labelOf value?, (w.appendLine (Branch.labelOf value?)).increaseIndent, finish⟩) := by
  have label := w.adds_appendLine (Branch.endsSolid_labelOf value?) later
  obtain ⟨openBlocks, extraIndent⟩ := restores
  generalize w.appendLine (Branch.labelOf value?) = labelled at *
  have below := adds_body goesOn reaches base.1 base.2 openBlocks extraIndent
  rw [label.style, label.depth, label.extraIndent] at below
  have whole := label.trans below
  rw [Cursor.indentation, ← String.append_assoc] at whole
  exact whole

end Writer

/-- A case ends with the line of its break. -/
theorem Run.endsLine_inCase (r : Run) (label : String) (body : Run → Run) :
    Text.endsLine (r.inCase label body).writer.buffer = true := by
  let finished := body (r.update fun w => (w.appendLine label).increaseIndent)
  have ended : Text.endsLine (finished.writer.appendLine "break;").buffer = true :=
    Text.endsLine_append_right (finished.writer.append "break;").buffer (t := "\n") rfl
  change Text.endsLine (finished.writer.appendLine "break;").decreaseIndent.buffer = true
  generalize finished.writer.appendLine "break;" = broken at ended ⊢
  exact ended

namespace Branch

theorem ofCase_eq (value? : Option String) (body : Script) :
    ofCase (value?, body) = .mk (labelOf value?) body := by
  cases value? <;> rfl

theorem map_label_caseRuns (cases : List (Option String × Script)) (r : Run) :
    (caseRuns (cases.map ofCase) r).map CaseRun.label = cases.map fun c => labelOf c.1 := by
  induction cases generalizing r with
  | nil => rfl
  | cons first rest ih =>
    obtain ⟨value?, body⟩ := first
    rw [List.map_cons, ofCase_eq, caseRuns, List.map_cons, ih]
    rfl

/-- The writer ends a line after the cases when it ended one before them. -/
theorem endsLine_runCases (branches : List Branch) {r : Run}
    (ended : Text.endsLine r.writer.buffer = true) :
    Text.endsLine (runCases branches r).writer.buffer = true := by
  induction branches generalizing r with
  | nil => exact ended
  | cons first rest ih =>
    obtain ⟨label, body⟩ := first
    rw [runCases]
    exact ih (r.endsLine_inCase label (Step.runAll body))

/-- The cases add what each of them adds, in order. -/
theorem adds_runCases (cases : List (Option String × Script)) {r : Run} {later : Writer}
    (restores : ∀ c ∈ caseRuns (cases.map ofCase) r, c.Restores)
    (reaches : (runCases (cases.map ofCase) r).writer.Continues later) :
    r.writer.Adds (runCases (cases.map ofCase) r).writer later
      (String.join ((caseRuns (cases.map ofCase) r).map
        (CaseRun.text r.writer.style (r.writer.depth + r.writer.extraIndent) later))) := by
  induction cases generalizing r with
  | nil => exact Writer.adds_refl r.writer later
  | cons first rest ih =>
    obtain ⟨value?, body⟩ := first
    rw [List.map_cons, ofCase_eq] at restores reaches ⊢
    let started := r.update fun w => (w.appendLine (labelOf value?)).increaseIndent
    let finished := Step.runAll body started
    let next := finished.update fun w => (w.appendLine "break;").decreaseIndent
    obtain ⟨own, others⟩ := List.forall_mem_cons.mp restores
    have fromNext : next.writer.Continues (runCases (rest.map ofCase) next).writer :=
      (Writer.keeps_continues next.writer).runCases _ (Writer.continues_refl _)
    have fromBody : finished.writer.Continues later := by
      have broken : finished.writer.Continues next.writer :=
        (Writer.continues_apply finished.writer (.appendLine "break;")).trans
          (Writer.continues_apply _ .decreaseIndent)
      exact broken.trans (fromNext.trans reaches)
    have one : r.writer.Adds next.writer later _ :=
      r.writer.adds_case value? (Script.continues body started) fromBody
        (Script.base_runAll body started) own
    have more := ih (r := next) others reaches
    rw [one.style, one.depth, one.extraIndent] at more
    rw [caseRuns, List.map_cons, String.join_cons]
    exact one.trans more

end Branch

/-! ## The braces of a switch -/

namespace Writer

/-- The place of the next line in a block that was opened. -/
structure Enters (w inside : Writer) : Prop where
  style : inside.style = w.style
  baseDepth : inside.baseDepth = w.baseDepth
  openBlocks : inside.openBlocks = w.nextBlock :: w.openBlocks
  extraIndent : inside.extraIndent = w.extraIndent
  ended : Text.endsLine inside.buffer = true

theorem enters_openBlock (w : Writer) (header : String) (constraints : List String) :
    w.Enters (w.openBlock header constraints).1 := by
  have brace : Text.endsLine (w.indentation ++ "\x7b\n") = true := Text.endsLine_append_right _ rfl
  rw [openBlock_eq]
  exact ⟨rfl, rfl, rfl, rfl,
    Text.endsLine_append_right w.buffer (Text.endsLine_append_right _ brace)⟩

end Writer

/-! ## Lines of their own -/

namespace Text

/-- Behind an ended line, a text is made of complete lines when what was written since is. -/
theorem wholeLines_append_iff {s t : String} (ended : endsLine s = true) :
    WholeLines (s ++ t) ↔ WholeLines t := by
  by_cases empty : t = ""
  · simp [WholeLines, empty, ended]
  · simp [WholeLines, empty, endsLine_append s empty]

end Text

namespace CaseRun

variable (style : Indent) (level : Nat) (later : Writer)

/-- Every case ends with the line of its break. -/
theorem endsLine_texts {front : String} (ended : Text.endsLine front = true)
    (runs : List CaseRun) :
    Text.endsLine (front ++ String.join (runs.map (text style level later))) = true := by
  induction runs generalizing front with
  | nil => rwa [List.map_nil, String.join_nil, String.append_empty]
  | cons c rest ih =>
    rw [List.map_cons, String.join_cons, ← String.append_assoc]
    refine ih (Text.endsLine_append_right _ ?_)
    rw [text, ← String.append_assoc]
    exact Text.endsLine_append_right _ rfl

/-- Every label of cases behind complete lines is a line of its own. A break is one just when what
the body of its case wrote is made of complete lines. -/
theorem lines_own {front : String} (ended : Text.endsLine front = true) (before : List CaseRun)
    (c : CaseRun) (others : List CaseRun) (rest : String) :
    let whole := front ++ String.join ((before ++ c :: others).map (text style level later)) ++ rest
    let ahead := front ++ String.join (before.map (text style level later))
    let label := style.levels level ++ c.label
    Text.LineBehind ahead label whole ∧
      (Text.LineBehind (ahead ++ (label ++ "\n") ++ c.written later)
        (style.levels (level + 1) ++ "break;") whole ↔ Text.WholeLines (c.written later)) := by
  intro whole ahead label
  let last := style.levels (level + 1) ++ "break;"
  let more := String.join (others.map (text style level later)) ++ rest
  have split : whole =
      ahead ++ (label ++ "\n") ++ c.written later ++ (last ++ "\n") ++ more := by
    simp only [whole, ahead, label, last, more, List.map_append, List.map_cons, String.join_append,
      String.join_cons, text, String.append_assoc]
  have aheadEnded : Text.endsLine ahead = true := endsLine_texts style level later ended before
  have labelEnded : Text.endsLine (ahead ++ (label ++ "\n")) = true := by
    rw [← String.append_assoc]
    exact Text.endsLine_append_right _ rfl
  constructor
  case left =>
    exact ⟨.inr aheadEnded, c.written later ++ (last ++ "\n") ++ more, by
      rw [split]
      simp only [String.append_assoc]⟩
  case right =>
    rw [← Text.wholeLines_append_iff labelEnded]
    exact ⟨Text.LineBehind.starts, fun starts => ⟨starts, more, split⟩⟩

end CaseRun

/-! ## The switch -/

/-- The text up to the brace that opens a switch, as it stands in a later writer. -/
def Run.switchHead (r : Run) (value : String) (later : Writer) : String :=
  r.writer.textIn later ++ (r.writer.indentation ++ s!"switch ({value})" ++ "\n") ++
    (r.writer.indentation ++ "\x7b" ++ "\n")

/-- The switch line and its brace, behind what the writer held. -/
theorem Run.textIn_inSwitch (r : Run) (value : String) (later : Writer) :
    (r.inSwitch value).writer.textIn later = r.switchHead value later := by
  rw [inSwitch, Writer.textIn_openBlock,
    r.writer.opening_of_endsSolid (endsSolid_switch value) (List.forall_mem_nil _), List.map_nil,
    String.join_nil, String.append_empty, switchHead]
  exact String.append_assoc.symm

/-- A switch closes the block of its own number. -/
theorem Step.run_switch (value : String) (branches : List Branch) (r : Run) :
    ((Step.switch value branches).run r).writer =
      (Branch.runCases branches (r.inSwitch value)).writer.closeBlock r.writer.nextBlock := by
  have guard : (r.writer.openBlock s!"switch ({value})" []).2 = r.writer.nextBlock := by
    rw [Writer.openBlock_eq]
  rw [Step.run, Run.observe, Run.note, Run.writer_inBlock, guard, Run.inSwitch]

/-- A later writer goes on where the cases of a switch ended. -/
theorem Step.continues_switch (value : String) (branches : List Branch) (r : Run) :
    (Branch.runCases branches (r.inSwitch value)).writer.Continues
      ((Step.switch value branches).run r).writer := by
  rw [Step.run]
  exact r.continues_inBlock _ [] (Branch.runCases branches)

/-- A switch keeps the place where the next line starts, and its text is its head, its cases and the
line of its closing brace. -/
theorem Run.closes_switch (r : Run) (value : String) (cases : List (Option String × Script))
    (restores : ∀ c ∈ Branch.caseRuns (cases.map Branch.ofCase) (r.inSwitch value), c.Restores) :
    let after := ((Step.switch value (cases.map Branch.ofCase)).run r).writer
    let level := r.writer.depth + r.writer.extraIndent
    (after.openBlocks = r.writer.openBlocks ∧ after.depth = r.writer.depth ∧
      after.extraIndent = r.writer.extraIndent) ∧
    after.body = r.switchHead value after ++
      String.join ((Branch.caseRuns (cases.map Branch.ofCase) (r.inSwitch value)).map
        (CaseRun.text r.writer.style (level + 1) after)) ++
      (r.writer.style.levels level ++ "\x7d" ++ "\n") := by
  intro after level
  let inner := (Branch.runCases (cases.map Branch.ofCase) (r.inSwitch value)).writer
  have enters : r.writer.Enters (r.inSwitch value).writer := r.writer.enters_openBlock _ []
  have within : (r.inSwitch value).writer.Adds inner after _ :=
    Branch.adds_runCases cases restores (Step.continues_switch value _ r)
  have closed := Writer.closeBlock_of_endsLine (within.openBlocks.trans enters.openBlocks)
    (Branch.endsLine_runCases (cases.map Branch.ofCase) enters.ended)
  rw [← Step.run_switch, within.style, within.baseDepth, within.extraIndent, enters.style,
    enters.baseDepth, enters.extraIndent] at closed
  change after = _ at closed
  have deeper : (r.inSwitch value).writer.depth + (r.inSwitch value).writer.extraIndent =
      level + 1 := by
    rw [Cursor.depth, enters.baseDepth, enters.openBlocks, enters.extraIndent, List.length_cons]
    simp only [level, Cursor.depth]
    omega
  have brace : after.textIn after =
      inner.textIn after ++ (r.writer.style.levels level ++ "\x7d" ++ "\n") :=
    Writer.textIn_of_buffer (by rw [closed]; rfl) (by rw [closed]; rfl) after
  refine ⟨⟨by rw [closed]; rfl, by rw [closed]; rfl, by rw [closed]; rfl⟩, ?_⟩
  rw [← Writer.textIn_self, brace, within.textIn, r.textIn_inSwitch, deeper, enters.style]

/-- When the body of every case leaves the open blocks and the extra indent as it found them, so
does a switch. What it adds to the text are the lines of its head, its cases in order and the line
of its closing brace. Each label is a line of its own one level deeper than the switch line, behind
any body. Each break stands one level deeper than its label, and it is a line of its own just when
what the body wrote is made of complete lines. -/
theorem Run.body_switch (r : Run) (value : String) (cases : List (Option String × Script))
    (restores : ∀ c ∈ Branch.caseRuns (cases.map Branch.ofCase) (r.inSwitch value), c.Restores) :
    let after := ((Step.switch value (cases.map Branch.ofCase)).run r).writer
    let runs := Branch.caseRuns (cases.map Branch.ofCase) (r.inSwitch value)
    let style := r.writer.style
    let level := r.writer.depth + r.writer.extraIndent
    let text := CaseRun.text style (level + 1) after
    (after.openBlocks = r.writer.openBlocks ∧ after.depth = r.writer.depth ∧
      after.extraIndent = r.writer.extraIndent) ∧
    runs.map CaseRun.label = cases.map (fun c => Branch.labelOf c.1) ∧
    after.body = r.switchHead value after ++ String.join (runs.map text) ++
      (style.levels level ++ "\x7d" ++ "\n") ∧
    (Text.WholeLines (r.writer.textIn after) → Text.LineBehind (r.writer.textIn after)
      (style.levels level ++ s!"switch ({value})") after.body) ∧
    ∀ before c others, runs = before ++ c :: others →
      let ahead := r.switchHead value after ++ String.join (before.map text)
      let label := style.levels (level + 1) ++ c.label
      Text.LineBehind ahead label after.body ∧
        (Text.LineBehind (ahead ++ (label ++ "\n") ++ c.written after)
          (style.levels (level + 2) ++ "break;") after.body ↔
            Text.WholeLines (c.written after)) := by
  intro after runs style level text
  obtain ⟨place, body⟩ := r.closes_switch value cases restores
  change after.body = _ at body
  have head : Text.endsLine (r.switchHead value after) = true :=
    Text.endsLine_append_right _ (Text.endsLine_append_right _ rfl)
  refine ⟨place, Branch.map_label_caseRuns cases _, body, fun starts => ⟨starts, ?_⟩,
    fun before c others split => ?_⟩
  · exact ⟨_, by rw [body, switchHead]; simp only [String.append_assoc]; rfl⟩
  · have own := CaseRun.lines_own style (level + 1) after head before c others
      (style.levels level ++ "\x7d" ++ "\n")
    rw [← split] at own
    rw [body]
    exact own

/-- Cases of which the first holds a block, and the last ends in the middle of a line after it
continued a sub-writer in front of the switch. -/
def nestedCases : List (Option String × Script) := [
  (some "A", [.block "lock (gate)" [] []]),
  (none, [.inside "log" [.op (.append "Log();")], .op (.append "Stop();")])]

/-- A run inside a method, with a sub-writer in front of the next line. -/
def insideMethod : Run :=
  Step.runAll [.op (.beginBlock "void Run()"), .reserve "log" none, .op .newLine]
    { writer := .empty .tabs }

theorem Run.body_switch_nested :
    let after := ((Step.switch "kind" (nestedCases.map Branch.ofCase)).run insideMethod).writer
    let runs := Branch.caseRuns (nestedCases.map Branch.ofCase) (insideMethod.inSwitch "kind")
    let head := "void Run()\n\x7b\n\tLog();\n\tswitch (kind)\n\t\x7b\n"
    (∀ c ∈ runs, c.Restores) ∧ after.depth = 1 ∧ after.extraIndent = 0 ∧
      Text.LineBehind "void Run()\n\x7b\n\tLog();\n" "\tswitch (kind)" after.body ∧
      ∃ first last, runs = [first, last] ∧
        first.written after = "\t\t\tlock (gate)\n\t\t\t\x7b\n\t\t\t\x7d\n" ∧
        Text.LineBehind head "\t\tcase A:" after.body ∧
        Text.LineBehind (head ++ "\t\tcase A:\n" ++ first.written after) "\t\t\tbreak;"
          after.body := by
  intro after runs head
  have restores : ∀ c ∈ runs, c.Restores := by decide +kernel
  have style : insideMethod.writer.style = .tabs := by decide +kernel
  have level : insideMethod.writer.depth = 1 := by decide +kernel
  have extra : insideMethod.writer.extraIndent = 0 := by decide +kernel
  have front : insideMethod.writer.textIn after = "void Run()\n\x7b\n\tLog();\n" := by
    decide +kernel
  have ahead : insideMethod.switchHead "kind" after = head := by
    rw [switchHead, front, Cursor.indentation, style, level, extra]
    decide
  have count : runs.length = 2 := rfl
  have written : runs.head?.map (·.written after) =
      some "\t\t\tlock (gate)\n\t\t\t\x7b\n\t\t\t\x7d\n" := by
    decide +kernel
  obtain ⟨⟨-, depth, extraIndent⟩, labels, -, starts, own⟩ :=
    Run.body_switch insideMethod "kind" nestedCases restores
  obtain ⟨first, last, split⟩ := List.length_eq_two.mp count
  obtain ⟨label, broken⟩ := own [] first [last] split
  change runs.map CaseRun.label = _ at labels
  rw [split] at labels written
  have named : first.label = "case A:" := (List.cons.inj labels).1
  have wrote : first.written after = _ := Option.some.inj written
  have whole : Text.WholeLines (first.written after) := by
    rw [wrote]
    exact .inr (by decide +kernel)
  have noCases : insideMethod.switchHead "kind" after ++ String.join (List.map (CaseRun.text
      insideMethod.writer.style (insideMethod.writer.depth + insideMethod.writer.extraIndent + 1)
      after) []) = head := by
    rw [ahead, List.map_nil, String.join_nil, String.append_empty]
  rw [noCases, named, style, level, extra] at label broken
  rw [front, style, level, extra] at starts
  refine ⟨restores, depth.trans level, ?_, starts (.inr (by decide +kernel)), first, last, split,
    wrote, label, broken.mpr whole⟩
  rw [← extra, ← extraIndent]

/-- A case that leaves its only line unfinished. -/
def unfinishedCases : List (Option String × Script) := [(some "A", [.op (.append "Go();")])]

/-- Behind an unfinished line a break is no line of its own. -/
theorem Script.render_unfinishedCases :
    let switch := Step.switch "kind" (unfinishedCases.map Branch.ofCase)
    let r : Run := { writer := .empty .spaces }
    (∀ c ∈ Branch.caseRuns (unfinishedCases.map Branch.ofCase) (r.inSwitch "kind"), c.Restores) ∧
      Text.lines (Script.render .spaces [switch]) =
        ["switch (kind)", "\x7b", "    case A:", "        Go();        break;", "\x7d"] ∧
      ∀ line ∈ Text.lines (Script.render .spaces [switch]), Text.trim line ≠ "break;" := by
  intro switch r
  have text : Script.render .spaces [switch] =
      "switch (kind)\n\x7b\n    case A:\n        Go();        break;\n\x7d\n" := by
    rfl
  have lines : Text.lines (Script.render .spaces [switch]) =
      ["switch (kind)", "\x7b", "    case A:", "        Go();        break;", "\x7d"] := by
    rw [text]
    decide +kernel
  refine ⟨by decide +kernel, lines, ?_⟩
  rw [lines]
  decide +kernel

end CSharpGen

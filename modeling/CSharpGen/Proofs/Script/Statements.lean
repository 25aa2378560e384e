import CSharpGen.Proofs.Script.Lays

/-!
# Programs of statements

A program is made of lines, blank lines, blocks, conditionals, loops and switches, nested in each
other to any depth. Its reference layout gives each line the number of blocks and case bodies around
it as its level. Running a program appends the text of this layout and restores the depth, the extra
indent and the open blocks (`Statement.runAll_toScript`).
-/

namespace CSharpGen

mutual

inductive Statement where
  | line (text : String)
  | blank
  | block (header : String) (constraints : List String) (body : List Statement)
  | conditional (condition : String) (body : List Statement) (rest : Alternatives)
  | forLoop (start condition step : String) (body : List Statement)
  | whileLoop (condition : String) (body : List Statement)
  | forEach (item collection : String) (body : List Statement)
  | switch (value : String) (cases : Cases)

/-- What follows a branch of a conditional. -/
inductive Alternatives where
  | done
  | otherwise (body : List Statement)
  | elseIf (condition : String) (body : List Statement) (rest : Alternatives)

/-- The cases of a switch. -/
inductive Cases where
  | done
  | case (value : String) (body : List Statement) (rest : Cases)
  | otherwise (body : List Statement) (rest : Cases)

end

/-! ## Scripts of programs -/

mutual

def Statement.toStep : Statement → Step
  | .line text => .line text
  | .blank => .op .newLine
  | .block header constraints body => .block header constraints (Statement.toScript body)
  | .conditional condition body rest =>
    .conditional condition (Statement.toScript body) rest.others rest.last?
  | .forLoop start condition step body => .forLoop start condition step (Statement.toScript body)
  | .whileLoop condition body => .whileLoop condition (Statement.toScript body)
  | .forEach item collection body => .forEach item collection (Statement.toScript body)
  | .switch value cases => .switch value cases.toBranches

def Statement.toScript : List Statement → Script
  | [] => []
  | statement :: rest => statement.toStep :: Statement.toScript rest

/-- The further conditions with their bodies. -/
def Alternatives.others : Alternatives → List (String × Script)
  | .done | .otherwise _ => []
  | .elseIf condition body rest => (condition, Statement.toScript body) :: rest.others

/-- The body without a condition. -/
def Alternatives.last? : Alternatives → Option Script
  | .done => none
  | .otherwise body => some (Statement.toScript body)
  | .elseIf _ _ rest => rest.last?

def Cases.toBranches : Cases → List Branch
  | .done => []
  | .case value body rest => .case value (Statement.toScript body) :: rest.toBranches
  | .otherwise body rest => .otherwise (Statement.toScript body) :: rest.toBranches

end

/-! ## Reference layouts -/

/-- A label with a body and a break below it. -/
def Layout.labelled (label : String) (body : Layout) : Layout :=
  { text := label } :: Layout.deeper (body ++ [{ text := "break;" }])

mutual

/-- The lines of a statement. Blank headers and continuation lines of a block are left out. -/
def Statement.reference : Statement → Layout
  | .line text => [{ text }]
  | .blank => [.blank]
  | .block header constraints body => .block header constraints (Statement.references body)
  | .conditional condition body rest =>
    .block s!"if ({condition})" [] (Statement.references body) ++ rest.reference
  | .forLoop start condition step body =>
    .block s!"for ({start}; {condition}; {step})" [] (Statement.references body)
  | .whileLoop condition body => .block s!"while ({condition})" [] (Statement.references body)
  | .forEach item collection body =>
    .block s!"foreach ({item} in {collection})" [] (Statement.references body)
  | .switch value cases => .block s!"switch ({value})" [] cases.reference

def Statement.references : List Statement → Layout
  | [] => []
  | statement :: rest => statement.reference ++ Statement.references rest

def Alternatives.reference : Alternatives → Layout
  | .done => []
  | .otherwise body => .block "else" [] (Statement.references body)
  | .elseIf condition body rest =>
    .block s!"else if ({condition})" [] (Statement.references body) ++ rest.reference

def Cases.reference : Cases → Layout
  | .done => []
  | .case value body rest =>
    .labelled s!"case {value}:" (Statement.references body) ++ rest.reference
  | .otherwise body rest => .labelled "default:" (Statement.references body) ++ rest.reference

end

/-! ## Running programs -/

/-- The branches of a conditional after its first one. -/
def Alternatives.toBranches (a : Alternatives) : List Branch :=
  a.others.map (fun (condition, body) => .mk s!"else if ({condition})" body) ++
    (a.last?.map (Branch.mk "else")).toList

namespace Branch

variable {label : String} {body : Script} {rest : List Branch} {inner others : Layout}

/-- One more branch of a statement is its block. -/
theorem lays_runBlocks_cons (first : body.Lays inner) (later : Run.Lays (runBlocks rest) others) :
    Run.Lays (runBlocks (.mk label body :: rest)) (.block label [] inner ++ others) :=
  ((first.inBlock label []).comp later).congr fun _ => rfl

/-- One more branch of a switch is its label with what belongs under it. -/
theorem lays_runCases_cons (first : body.Lays inner) (later : Run.Lays (runCases rest) others) :
    Run.Lays (runCases (.mk label body :: rest)) (.labelled label inner ++ others) :=
  ((first.inCase label).comp later).congr fun _ => rfl

/-- A statement of a single branch. -/
theorem lays_single (first : body.Lays inner) :
    Run.Lays (Step.run (.statement [.mk label body])) (.block label [] inner) := by
  have alone : Run.Lays (runBlocks [.mk label body]) (Layout.block label [] inner ++ []) :=
    lays_runBlocks_cons first (Run.lays_id.congr fun _ => rfl)
  rw [List.append_nil] at alone
  exact alone.congr fun _ => rfl

end Branch

mutual

/-- A statement is written as its reference says. -/
theorem Statement.lays_toStep : (s : Statement) → Run.Lays s.toStep.run s.reference
  | .line text => (Run.lays_line text).congr fun _ => rfl
  | .blank => Run.lays_newLine.congr fun _ => rfl
  | .block header constraints body =>
    ((Statement.lays_toScript body).observed.inBlock header constraints).congr fun _ => rfl
  | .conditional _ body rest =>
    (Branch.lays_runBlocks_cons (Statement.lays_toScript body) rest.lays_toBranches).congr
      fun _ => rfl
  | .forLoop _ _ _ body => Branch.lays_single (Statement.lays_toScript body)
  | .whileLoop _ body => Branch.lays_single (Statement.lays_toScript body)
  | .forEach _ _ body => Branch.lays_single (Statement.lays_toScript body)
  | .switch value cases =>
    (cases.lays_toBranches.inBlock s!"switch ({value})" []).congr fun _ => rfl

/-- The statements of a program are written one after the other. -/
theorem Statement.lays_toScript : (program : List Statement) →
    (Statement.toScript program).Lays (Statement.references program)
  | [] => Script.lays_nil
  | statement :: rest =>
    (statement.lays_toStep.comp (Statement.lays_toScript rest)).congr fun _ => rfl

/-- The further branches of a conditional follow the first one. -/
theorem Alternatives.lays_toBranches : (a : Alternatives) →
    Run.Lays (Branch.runBlocks a.toBranches) a.reference
  | .done => Run.lays_id.congr fun _ => rfl
  | .otherwise body => by
    have last : Run.Lays (Branch.runBlocks [.mk "else" (Statement.toScript body)])
        (Layout.block "else" [] (Statement.references body) ++ []) :=
      Branch.lays_runBlocks_cons (Statement.lays_toScript body) (Run.lays_id.congr fun _ => rfl)
    rwa [List.append_nil] at last
  | .elseIf _ body rest =>
    Branch.lays_runBlocks_cons (Statement.lays_toScript body) rest.lays_toBranches

/-- The cases of a switch follow each other. -/
theorem Cases.lays_toBranches : (cases : Cases) →
    Run.Lays (Branch.runCases cases.toBranches) cases.reference
  | .done => Run.lays_id.congr fun _ => rfl
  | .case _ body rest =>
    Branch.lays_runCases_cons (Statement.lays_toScript body) rest.lays_toBranches
  | .otherwise body rest =>
    Branch.lays_runCases_cons (Statement.lays_toScript body) rest.lays_toBranches

end

/-- Running a program appends the text of its reference layout, indented for the place where it is
run, and leaves the depth, the extra indent and the open blocks of the writer as they were. Only the
numbering of its blocks goes on. -/
theorem Statement.runAll_toScript (program : List Statement) (r : Run) :
    ∃ nextBlock, (Step.runAll (Statement.toScript program) r).writer =
      { r.writer with
        buffer := r.writer.buffer ++ Layout.text r.writer.style
          (r.writer.depth + r.writer.extraIndent) (Statement.references program)
        nextBlock } :=
  (Statement.lays_toScript program).result r

example : (Statement.toScript [.switch "kind" (.case "Kind.A" [.whileLoop "Busy()" [.blank]]
      (.otherwise [] .done))]).render .tabs =
    "switch (kind)\n\x7b\n\tcase Kind.A:\n\t\twhile (Busy())\n\t\t\x7b\n\n\t\t\x7d\n\t\tbreak;\n" ++
      "\tdefault:\n\t\tbreak;\n\x7d\n" := by
  decide

end CSharpGen

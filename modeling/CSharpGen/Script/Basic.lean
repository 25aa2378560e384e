import CSharpGen.Script.Sections
import CSharpGen.Writer.Op

/-!
# Scripts

A script says what to write, without a writer: lines, blocks, statements, groups of items, and
sub-writers that are reserved under a name and filled later. Every declaration of a file denotes a
script, and the body of a method is one.
-/

namespace CSharpGen

mutual

inductive Step where
  | op (op : Op)
  /-- A block with continuation lines between its header and its brace. -/
  | block (header : String) (constraints : List String) (body : List Step)
  /-- Blocks that follow each other, such as the branches of a conditional. -/
  | statement (branches : List Branch)
  /-- A switch block: each branch has its label, its body and a break. -/
  | switch (value : String) (branches : List Branch)
  /-- Reserves a sub-writer. A later use of the name replaces it. -/
  | reserve (name : String) (header : Option String)
  /-- Continues the sub-writer that was reserved under a name. -/
  | inside (name : String) (body : List Step)
  | sections (groups : List Group)
  /-- Names reserved outside are unknown to the body, and those of the body are unknown outside. -/
  | isolated (body : List Step)

/-- A header or label and what belongs under it. -/
inductive Branch where
  | mk (label : String) (body : List Step)

inductive Group where
  | mk (spacing : Spacing) (items : List Item)

inductive Item where
  | line (text : String)
  | fail (reason : String)
  | steps (body : List Step)

end

/-- Steps in the order in which they are written. -/
abbrev Script := List Step

namespace Step

def line (text : String) : Step := .op (.appendLine text)

def lines (texts : List String) : Script := texts.map line

end Step

/-- A group whose items are scripts. -/
def Group.ofScripts (spacing : Spacing) (scripts : List Script) : Group :=
  .mk spacing (scripts.map .steps)

/-- A group of lines. -/
def Group.ofLines (texts : List String) : Group := .mk .close (texts.map .line)

/-! ## Statements -/

namespace Step

/-- A conditional with its further conditions and its last branch. -/
def conditional (condition : String) (body : Script) (others : List (String × Script))
    (otherwise : Option Script) : Step :=
  .statement <|
    .mk s!"if ({condition})" body ::
      others.map (fun (condition, body) => .mk s!"else if ({condition})" body) ++
      (otherwise.map (Branch.mk "else")).toList

def forLoop (start condition step : String) (body : Script) : Step :=
  .statement [.mk s!"for ({start}; {condition}; {step})" body]

def whileLoop (condition : String) (body : Script) : Step :=
  .statement [.mk s!"while ({condition})" body]

def forEach (item collection : String) (body : Script) : Step :=
  .statement [.mk s!"foreach ({item} in {collection})" body]

end Step

/-- The branch for one value of a switch. -/
def Branch.case (value : String) (body : Script) : Branch := .mk s!"case {value}:" body

/-- The branch for all other values of a switch. -/
def Branch.otherwise (body : Script) : Branch := .mk "default:" body

end CSharpGen

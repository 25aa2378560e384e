import CSharpGen.Writer.Basic

/-!
# Elementary writer operations

The operations that need neither a scope nor a sub-writer, as data, so that statements can range
over runs of them.
-/

namespace CSharpGen

inductive Op where
  | append (text : String)
  | appendLine (text : String)
  | appendUnindented (text : String)
  | appendUnindentedLine (text : String)
  | newLine
  | increaseIndent
  | decreaseIndent
  | beginBlock (header : String)
  | endBlock
  deriving DecidableEq, Repr

namespace Writer

def apply (w : Writer) : Op → Writer
  | .append text => w.append text
  | .appendLine text => w.appendLine text
  | .appendUnindented text => w.appendUnindented text
  | .appendUnindentedLine text => w.appendUnindentedLine text
  | .newLine => w.newLine
  | .increaseIndent => w.increaseIndent
  | .decreaseIndent => w.decreaseIndent
  | .beginBlock header => w.beginBlock header
  | .endBlock => w.endBlock

def applyAll (w : Writer) (ops : List Op) : Writer := ops.foldl apply w

end Writer

end CSharpGen

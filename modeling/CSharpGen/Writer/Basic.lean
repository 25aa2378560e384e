import CSharpGen.Text.Blank
import CSharpGen.Text.Line
import CSharpGen.Writer.Indent

/-!
# Writers

A writer accumulates indented text with blocks in braces. Its text is a list of segments followed
by a buffer; a segment is finished text or the place of a sub-writer that is filled later. The
depth of a writer counts its open blocks on top of the depth at which it was reserved. Rendering
closes the blocks that are still open without changing the writer.
-/

namespace CSharpGen

/-- The place where a writer writes next. Open blocks are named by numbers, innermost first. -/
structure Cursor where
  style : Indent
  buffer : String := ""
  baseDepth : Nat := 0
  extraIndent : Nat := 0
  openBlocks : List Nat := []
  nextBlock : Nat := 0
  deriving DecidableEq, Repr, Inhabited

/-- Finished text, or the content of a sub-writer. -/
inductive Segment where
  | text (content : String)
  | nested (cursor : Cursor) (segments : List Segment)
  deriving Repr, Inhabited

structure Writer extends Cursor where
  segments : List Segment := []
  deriving Repr, Inhabited

namespace Cursor

/-- Block depth, with the depth inherited from the writer above. -/
def depth (c : Cursor) : Nat := c.baseDepth + c.openBlocks.length

/-- The indentation of the next line. -/
def indentation (c : Cursor) : String := c.style.levels (c.depth + c.extraIndent)

/-- Lines that close `n` blocks of which the outermost is indented by `level`, innermost first. -/
def closingLines (style : Indent) (level : Nat) : Nat → String
  | 0 => ""
  | n + 1 => style.levels (level + n) ++ "\x7d\n" ++ closingLines style level n

/-- Closes the open blocks of a writer after `out`, each on a line of its own. -/
def closeAfter (c : Cursor) (out : String) : String :=
  if c.openBlocks.isEmpty then out
  else Text.finishLine out ++
    closingLines c.style (c.baseDepth + c.extraIndent) c.openBlocks.length

end Cursor

/-! ## Views -/

mutual

/-- The text of a segment after `out`. -/
def Segment.renderAfter : Segment → String → String
  | .text content, out => out ++ content
  | .nested cursor segments, out =>
    cursor.closeAfter (Segment.renderAllAfter segments out ++ cursor.buffer)

/-- The text of all segments after `out`. -/
def Segment.renderAllAfter : List Segment → String → String
  | [], out => out
  | s :: rest, out => Segment.renderAllAfter rest (s.renderAfter out)

end

mutual

/-- Whether nothing was written to a segment. -/
def Segment.isEmpty : Segment → Bool
  | .text content => content.isEmpty
  | .nested cursor segments => cursor.buffer.isEmpty && Segment.allEmpty segments

def Segment.allEmpty : List Segment → Bool
  | [] => true
  | s :: rest => s.isEmpty && Segment.allEmpty rest

end

mutual

/-- Whether a segment leaves its last line unfinished; nothing for a segment without text. A
sub-writer with open blocks ends with a closing brace. -/
def Segment.endsMidLine? : Segment → Option Bool
  | .text content => if content.isEmpty then none else some (!Text.endsLine content)
  | .nested cursor segments =>
    if !cursor.openBlocks.isEmpty then some false
    else if !cursor.buffer.isEmpty then some (!Text.endsLine cursor.buffer)
    else Segment.lastEndsMidLine? segments

/-- The answer of the last segment that has text. -/
def Segment.lastEndsMidLine? : List Segment → Option Bool
  | [] => none
  | s :: rest => (Segment.lastEndsMidLine? rest).or s.endsMidLine?

end

namespace Writer

def empty (style : Indent) : Writer := { style }

/-- The text of the writer after `out`. -/
def renderAfter (w : Writer) (out : String) : String :=
  w.closeAfter (Segment.renderAllAfter w.segments out ++ w.buffer)

def render (w : Writer) : String := w.renderAfter ""

/-- Whether nothing was written to the writer or its sub-writers. -/
def isEmpty (w : Writer) : Bool := w.buffer.isEmpty && Segment.allEmpty w.segments

/-- Whether the last text written is in the middle of a line. -/
def endsMidLine (w : Writer) : Bool :=
  if w.buffer.isEmpty then (Segment.lastEndsMidLine? w.segments).getD false
  else !Text.endsLine w.buffer

/-! ## Text -/

def appendRaw (w : Writer) (text : String) : Writer := { w with buffer := w.buffer ++ text }

/-- A bare line end. -/
def newLine (w : Writer) : Writer := w.appendRaw "\n"

/-- Indented text without a line end. A blank text writes nothing. -/
def append (w : Writer) (text : String) : Writer :=
  if Text.isBlankText text then w
  else w.appendRaw (w.indentation ++ Text.trimEnd text)

def appendLine (w : Writer) (text : String) : Writer := (w.append text).newLine

/-- Text without indentation and without a line end. -/
def appendUnindented (w : Writer) (text : String) : Writer := w.appendRaw (Text.trimEnd text)

def appendUnindentedLine (w : Writer) (text : String) : Writer :=
  (w.appendUnindented text).newLine

def increaseIndent (w : Writer) : Writer := { w with extraIndent := w.extraIndent + 1 }

/-- Undoes one increase. Without one it changes nothing. -/
def decreaseIndent (w : Writer) : Writer := { w with extraIndent := w.extraIndent - 1 }

/-! ## Blocks -/

/-- Non-blank lines, each indented. -/
def appendNonBlankLines (w : Writer) (texts : List String) : Writer :=
  (texts.filter (!Text.isBlankText ·)).foldl appendLine w

/-- Opens a block under a header, with continuation lines one level deeper than the header, and
gives its number. Blank headers and continuation lines are left out. -/
def openBlock (w : Writer) (header : String) (constraints : List String) : Writer × Nat :=
  let w := (w.appendNonBlankLines [header]).increaseIndent
  let w := (w.appendNonBlankLines constraints).decreaseIndent.appendLine "\x7b"
  ({ w with openBlocks := w.nextBlock :: w.openBlocks, nextBlock := w.nextBlock + 1 }, w.nextBlock)

def beginBlock (w : Writer) (header : String) : Writer := (w.openBlock header []).1

/-- Writes a closing brace on a line of its own. -/
def closeBrace (w : Writer) : Writer :=
  (if w.endsMidLine then w.newLine else w).appendLine "\x7d"

/-- Closes the innermost block. Without an open block it changes nothing. -/
def endBlock (w : Writer) : Writer :=
  match w.openBlocks with
  | [] => w
  | _ :: outer => closeBrace { w with openBlocks := outer }

/-- Closes the `n` innermost blocks. -/
def endBlocks (w : Writer) : Nat → Writer
  | 0 => w
  | n + 1 => w.endBlock.endBlocks n

/-- Closes block `id` and the blocks inside it, when it is still open. -/
def closeBlock (w : Writer) (id : Nat) : Writer :=
  match w.openBlocks.idxOf? id with
  | none => w
  | some above => w.endBlocks (above + 1)

/-! ## Sub-writers -/

/-- Moves the buffer to a segment of its own. -/
def flush (w : Writer) : Writer :=
  if w.buffer.isEmpty then w
  else { w with segments := w.segments ++ [.text w.buffer], buffer := "" }

/-- The segment that holds a sub-writer. -/
def toSegment (w : Writer) : Segment := .nested w.toCursor w.segments

/-- A new writer at the depth and extra indent of `w`. With a header its block is open. -/
def child (w : Writer) (header : Option String) : Writer :=
  let fresh : Writer := { style := w.style, baseDepth := w.depth, extraIndent := w.extraIndent }
  match header with
  | none => fresh
  | some text => fresh.beginBlock text

/-- Reserves a sub-writer at the current place and gives its index. -/
def reserve (w : Writer) (header : Option String) : Writer × Nat :=
  let flushed := w.flush
  ({ flushed with segments := flushed.segments ++ [(w.child header).toSegment] },
    flushed.segments.length)

/-- The sub-writer at an index. -/
def sub? (w : Writer) (index : Nat) : Option Writer :=
  match w.segments[index]? with
  | some (.nested cursor segments) => some { toCursor := cursor, segments }
  | _ => none

/-- The writer with its sub-writer at an index replaced. -/
def setSub (w : Writer) (index : Nat) (sub : Writer) : Writer :=
  { w with segments := w.segments.set index sub.toSegment }

end Writer

end CSharpGen

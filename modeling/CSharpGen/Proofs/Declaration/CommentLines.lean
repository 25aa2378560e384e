import CSharpGen.Proofs.Declaration.Outer
import CSharpGen.Proofs.Writer.Follows

/-!
# Lines of documentation comments

A summary is written line by line, and each of its lines is a comment. Names and texts of parameters
and the source of inherited documentation are written as they are given: when one of them holds a
line feed, what follows it stands outside of the comment unless it starts like a comment itself
(`Documentation.comment_of_run`).
-/

namespace CSharpGen

namespace Text

theorem comment_chars : ∀ c ∈ "///".toList, c ≠ '\n' ∧ c ≠ '\r' := by simp

theorem trimEnd_comment (s : String) : trimEnd ("///" ++ s) = "///" ++ trimEnd s := by
  have mark : dropTailWhile isBlank "///".toList = "///".toList := by decide
  rw [trimEnd, String.toList_append, dropTailWhile_append, mark, trimEnd]
  split
  · next none => simp [none]
  · rw [String.ofList_append, String.ofList_toList]

end Text

/-! ## Written comments -/

/-- A line that is indented for the writer and starts like a comment. -/
def Writer.Comments (w : Writer) (line : String) : Prop :=
  Text.startsWith (w.indentation ++ "///") line = true

instance (w : Writer) : DecidablePred w.Comments := fun _ => inferInstanceAs (Decidable (_ = true))

/-- A text that starts like a comment, and that is one line or does not end with a blank. -/
structure CommentText (s : String) : Prop where
  marked : Text.startsWith "///" s = true
  ended : Text.OneLine s ∨ ∃ c, s.toList.getLast? = some c ∧ Text.isBlank c = false

namespace CommentText

variable {s : String}

/-- Ending the line of a comment leaves what comes after its first line. -/
theorem tail_lines_ended (h : CommentText s) :
    (Text.lines (Text.trimEnd s ++ "\n")).tail = (Text.lines s).tail := by
  rcases h.ended with one | ⟨c, last, solid⟩
  · have noReturn : (Text.trimEnd s).toList.getLast? ≠ some '\r' := by
      intro last
      rw [Text.trimEnd, String.toList_ofList] at last
      exact absurd (Text.getLast?_dropTailWhile last) (by decide)
    rw [Text.lines_finished one.trimEnd noReturn, List.tail_cons, one.tail_lines]
  · have notEnd : c ≠ '\n' := by
      rintro rfl
      exact absurd solid (by decide)
    have notReturn : c ≠ '\r' := by
      rintro rfl
      exact absurd solid (by decide)
    have chars : Text.lines (s ++ "\n") = Text.lines s := by
      rw [Text.lines, String.toList_append]
      exact congrArg _ (Text.lineChars_ended last notEnd notReturn)
    rw [Text.trimEnd_of_last last solid, chars]

theorem exists_append (h : CommentText s) : ∃ rest, s = "///" ++ String.ofList rest := by
  obtain ⟨rest, chars⟩ := Text.startsWith_iff.mp h.marked
  have own : (String.ofList rest).toList = rest := String.toList_ofList
  refine ⟨rest, ?_⟩
  rw [← String.toList_inj, String.toList_append, own]
  exact chars.symm

theorem not_blank (h : CommentText s) : Text.isBlankText s = false := by
  obtain ⟨rest, split⟩ := h.exists_append
  rw [split]
  exact Text.isBlankText_append (by decide) _

/-- Only the first line of a comment is indented. -/
theorem lines_body (h : CommentText s) (style : Indent) (base : Nat) :
    ∃ first, Text.lines (Line.body style base { text := s } ++ "\n") =
      (style.levels base ++ "///" ++ first) :: (Text.lines s).tail := by
  obtain ⟨rest, split⟩ := h.exists_append
  have plain : ∀ c ∈ (style.levels base ++ "///").toList, c ≠ '\n' ∧ c ≠ '\r' := by
    rw [String.toList_append, List.forall_mem_append]
    exact ⟨fun c member => (style.levels_chars base c member).2, Text.comment_chars⟩
  have later := h.tail_lines_ended
  rw [split, Text.trimEnd_comment, String.append_assoc,
    Text.lines_behind (by decide) Text.comment_chars, ← split, List.tail_cons] at later
  have body : Line.body style base { text := s } =
      style.levels base ++ "///" ++ Text.trimEnd (String.ofList rest) := by
    rw [Line.body, if_neg (by simp [h.not_blank]), Nat.add_zero, split, Text.trimEnd_comment,
      ← String.append_assoc]
  rw [body, String.append_assoc, Text.lines_behind (by simp) plain, later]
  exact ⟨_, rfl⟩

end CommentText

namespace Writer

variable {w : Writer} {texts : List String}

theorem lines_layout (w : Writer) (texts : List String) :
    Text.lines (Layout.text w.style (w.depth + w.extraIndent) (texts.map ({ text := · }))) =
      texts.flatMap fun s =>
        Text.lines (Line.body w.style (w.depth + w.extraIndent) { text := s } ++ "\n") := by
  induction texts with
  | nil => rfl
  | cons s rest ih =>
    rw [List.map_cons, Layout.text_cons, Text.lines_append (Text.wholeLines_newline _), ih,
      List.flatMap_cons]

/-- The lines of comments are comments as far as what comes after their first lines is. -/
theorem comments_layout (all : ∀ s ∈ texts, CommentText s) :
    (∀ line ∈ Text.lines (Layout.text w.style (w.depth + w.extraIndent)
        (texts.map ({ text := · }))), w.Comments line) ↔
      ∀ s ∈ texts, ∀ later ∈ (Text.lines s).tail, w.Comments later := by
  rw [lines_layout, List.forall_mem_flatMap]
  refine forall₂_congr fun s member => ?_
  obtain ⟨first, lines⟩ := (all s member).lines_body w.style (w.depth + w.extraIndent)
  have marked : w.Comments (w.indentation ++ "///" ++ first) :=
    Text.startsWith_append (Text.startsWith_iff.mpr List.prefix_rfl) first
  rw [lines, List.forall_mem_cons]
  exact and_iff_right marked

theorem body_write_lines (w : Writer) (texts : List String) :
    (Script.write (Step.lines texts) w).body =
      w.body ++ Layout.text w.style (w.depth + w.extraIndent) (texts.map ({ text := · })) := by
  obtain ⟨n, written⟩ := (Script.lays_lines texts).result { writer := w }
  rw [Script.write, Script.run, written]
  exact body_appendRaw w _

end Writer

/-! ## Documentation -/

/-- A call that documents something. -/
inductive DocumentationCall where
  | summary (text : String)
  | inherit (source : Option String)
  | parameter (member name doc : String)
  deriving DecidableEq, Repr

/-- The texts that a call gives. -/
def DocumentationCall.wording : DocumentationCall → List Wording
  | .summary text => [.passage text]
  | .inherit source => source.toList.map .text
  | .parameter _ name doc => [.text name, .text doc]

namespace Documentation

/-- The documentation after a call. A refused call leaves it as it was. -/
def call (d : Documentation) : DocumentationCall → Documentation
  | .summary text => d.setSummary text
  | .inherit source => .inherited source
  | .parameter member name doc =>
    match d.addParameter member name doc with
    | .ok d => d
    | .error _ => d

/-- The documentation after several calls. -/
def run (calls : List DocumentationCall) : Documentation := calls.foldl call .empty

def inheritedLine (source : String) : String := s!"/// <inheritdoc cref=\"{source}\" />"

/-- The comment lines that hold no text, or one that is cut into lines before. -/
def framedLines : Documentation → List String
  | .summary (some text) _ => summaryLines text
  | .inherited none => ["/// <inheritdoc />"]
  | _ => []

/-- The comment lines that hold texts as they were given. -/
def verbatimLines (d : Documentation) (known : String → Bool) : List String :=
  match d with
  | .summary _ parameters =>
    (parameters.filter (known ·.1)).map fun (name, doc) => parameterLine name doc
  | .inherited (some source) => [inheritedLine source]
  | _ => []

theorem linesWhere_eq (d : Documentation) (known : String → Bool) :
    d.linesWhere known = d.framedLines ++ d.verbatimLines known := by
  cases d with
  | empty => rfl
  | inherited source => cases source <;> rfl
  | summary text parameters => cases text <;> rfl

theorem commentText_framedLines (d : Documentation) :
    ∀ line ∈ d.framedLines, CommentText line ∧ Text.OneLine line := by
  have comment {s : String} (marked : Text.startsWith "///" s = true) (one : Text.OneLine s) :
      CommentText s ∧ Text.OneLine s := ⟨⟨marked, .inl one⟩, one⟩
  unfold framedLines
  split
  · next text _ =>
    refine List.forall_mem_append.mpr ⟨List.forall_mem_cons.mpr
      ⟨comment (by decide) (by decide), List.forall_mem_map.mpr fun line isLine => ?_⟩,
      List.forall_mem_singleton.mpr (comment (by decide) (by decide))⟩
    exact comment (Text.startsWith_append (s := "/// ") (by decide) _)
      (Text.oneLine_append.mpr ⟨by decide, (Text.oneLine_of_mem_lines isLine).trim⟩)
  · exact List.forall_mem_singleton.mpr (comment (by decide) (by decide))
  · exact List.forall_mem_nil _

theorem commentText_verbatimLines (d : Documentation) (known : String → Bool) :
    ∀ line ∈ d.verbatimLines known, CommentText line := by
  have element {start stop : String} (marked : Text.startsWith "///" start = true)
      (last : stop.toList.getLast? = some '>') : CommentText (start ++ stop) := by
    refine ⟨Text.startsWith_append marked stop, .inr ⟨'>', ?_, by decide⟩⟩
    rw [String.toList_append, List.getLast?_append, last, Option.some_or]
  unfold verbatimLines
  split
  · refine List.forall_mem_map.mpr fun (name, doc) _ => ?_
    exact element (Text.startsWith_append (Text.startsWith_append (Text.startsWith_append
      (s := "/// <param name=\"") (by decide) name) "\">") doc) (by decide)
  · next source =>
    exact List.forall_mem_singleton.mpr (element (Text.startsWith_append
      (s := "/// <inheritdoc cref=\"") (by decide) source) (by decide))
  · exact List.forall_mem_nil _

/-- What is written is comments as far as the texts are that are written as they were given. -/
theorem lines_write (d : Documentation) (known : String → Bool) {w : Writer}
    (start : Text.WholeLines w.body) :
    ∃ written, Text.lines (Script.write (Step.lines (d.linesWhere known)) w).body =
        Text.lines w.body ++ written ∧
      ((∀ line ∈ written, w.Comments line) ↔
        ∀ text ∈ d.verbatimLines known, ∀ later ∈ (Text.lines text).tail, w.Comments later) := by
  have comments : ∀ s ∈ d.linesWhere known, CommentText s := by
    rw [linesWhere_eq, List.forall_mem_append]
    exact ⟨fun line isLine => (d.commentText_framedLines line isLine).1,
      d.commentText_verbatimLines known⟩
  have framed : ∀ text ∈ d.framedLines, ∀ later ∈ (Text.lines text).tail, w.Comments later := by
    intro text isText later isLater
    rw [(d.commentText_framedLines text isText).2.tail_lines] at isLater
    cases isLater
  refine ⟨_, ?_, Writer.comments_layout comments |>.trans ?_⟩
  · rw [Writer.body_write_lines, Text.lines_append start]
  · rw [linesWhere_eq, List.forall_mem_append]
    exact and_iff_right framed

/-! ## Calls -/

theorem mem_setEntry {name doc : String} {entries : List (String × String)} {e : String × String}
    (member : e ∈ setEntry name doc entries) : e = (name, doc) ∨ e ∈ entries := by
  induction entries with
  | nil => exact .inl (List.mem_singleton.mp member)
  | cons first rest ih =>
    rw [setEntry] at member
    split at member
    · exact (List.mem_cons.mp member).imp_right (List.mem_cons_of_mem _)
    · rcases List.mem_cons.mp member with rfl | member
      · exact .inr List.mem_cons_self
      · exact (ih member).imp_right (List.mem_cons_of_mem _)

/-- A call adds nothing but what it gives. -/
theorem wording_call {d : Documentation} {c : DocumentationCall} {given : Wording}
    (member : given ∈ (d.call c).wording) : given ∈ c.wording ∨ given ∈ d.wording := by
  cases c with
  | summary text =>
    cases d with
    | empty | inherited =>
      exact .inl (by simpa [call, setSummary, wording, DocumentationCall.wording] using member)
    | summary old parameters =>
      rcases List.mem_append.mp member with isText | isEntry
      · exact .inl isText
      · exact .inr (List.mem_append_right _ isEntry)
  | inherit source => exact .inl member
  | parameter owner name doc =>
    cases d with
    | empty =>
      exact .inl (by simpa [call, addParameter, wording, DocumentationCall.wording] using member)
    | inherited source => exact .inr member
    | summary text parameters =>
      rcases List.mem_append.mp member with isText | isEntry
      · exact .inr (List.mem_append_left _ isText)
      · obtain ⟨e, isEntry, isGiven⟩ := List.mem_flatMap.mp isEntry
        rcases mem_setEntry isEntry with rfl | old
        · exact .inl isGiven
        · exact .inr (List.mem_append_right _ (List.mem_flatMap.mpr ⟨e, old, isGiven⟩))

/-- What documentation holds was given by a call. -/
theorem wording_run {calls : List DocumentationCall} {given : Wording}
    (member : given ∈ (run calls).wording) : ∃ c ∈ calls, given ∈ c.wording := by
  have later (d : Documentation) (member : given ∈ (calls.foldl call d).wording) :
      (∃ c ∈ calls, given ∈ c.wording) ∨ given ∈ d.wording := by
    clear * - member
    induction calls generalizing d with
    | nil => exact .inr member
    | cons c rest ih =>
      rcases ih (d.call c) member with ⟨other, isCall, isGiven⟩ | held
      · exact .inl ⟨other, List.mem_cons_of_mem c isCall, isGiven⟩
      · exact (wording_call held).imp_left fun isGiven => ⟨c, List.mem_cons_self, isGiven⟩
  exact (later .empty member).resolve_right List.not_mem_nil

/-- The comment of a declaration consists of indented comment lines as far as the names, the texts
of parameters and the sources do that are written as they were given. So it does when none of them
has several lines, whatever the summaries are. -/
theorem comment_of_run (calls : List DocumentationCall) (names : Option (List String)) {w : Writer}
    (start : Text.WholeLines w.body) :
    let d := run calls
    let known := names.elim (fun _ => true) fun names => names.contains
    ∃ written,
      Text.lines (Script.write (Step.lines (names.elim d.lines d.linesFor)) w).body =
        Text.lines w.body ++ written ∧
      ((∀ line ∈ written, w.Comments line) ↔
        ∀ text ∈ d.verbatimLines known, ∀ later ∈ (Text.lines text).tail, w.Comments later) ∧
      ((∀ c ∈ calls, ∀ given ∈ c.wording, given.Orderly) → ∀ line ∈ written, w.Comments line) := by
  intro d known
  have comment : names.elim d.lines d.linesFor = d.linesWhere known := by cases names <;> rfl
  rw [comment]
  obtain ⟨written, lines, comments⟩ := d.lines_write known start
  refine ⟨written, lines, comments, fun orderly => comments.mpr fun text isText later isLater => ?_⟩
  have given : Wording.AllMeet False d.wording := Wording.allMeet_of_orderly fun g isGiven => by
    obtain ⟨c, isCall, isGiven⟩ := wording_run isGiven
    exact orderly c isCall g isGiven
  have isLine : text ∈ d.linesWhere known := by
    rw [linesWhere_eq]
    exact List.mem_append_right _ isText
  have one : Text.OneLine text := (formsLine_linesWhere given known text isLine).1
  rw [one.tail_lines] at isLater
  cases isLater

/-- A writer in the block of a class. -/
def inClass : Writer := (Writer.empty .tabs).beginBlock "class Counter"

/-- A summary of three lines and a parameter. -/
def counterCalls : List DocumentationCall := [
  .summary "Counts.\n\nNever stops.", .parameter "Run" "start" "Where to start."]

theorem comment_of_run_counter :
    Text.WholeLines inClass.body ∧
      (∀ c ∈ counterCalls, ∀ given ∈ c.wording, given.Orderly) ∧
      ∃ written, Text.lines (Script.write (Step.lines (run counterCalls).lines) inClass).body =
        ["class Counter", "\x7b"] ++ written ∧ ∀ line ∈ written, inClass.Comments line := by
  have start : Text.WholeLines inClass.body := .inr (by decide +kernel)
  have orderly : ∀ c ∈ counterCalls, ∀ given ∈ c.wording, given.Orderly := by decide
  have before : Text.lines inClass.body = ["class Counter", "\x7b"] := by decide +kernel
  obtain ⟨written, lines, -, inside⟩ := comment_of_run counterCalls none start
  exact ⟨start, orderly, written, before ▸ lines, inside orderly⟩

/-- A text of a parameter and a source that have two lines. The second one is code. -/
theorem not_comments_secondLine :
    Text.lines (Script.write (Step.lines (run [.parameter "Run" "count" "How many\ntimes."]).lines)
      (.empty .spaces)).body = ["/// <param name=\"count\">How many", "times.</param>"] ∧
    Text.lines (Script.write (Step.lines (run [.inherit (some "Base\nRun")]).lines)
      (.empty .spaces)).body = ["/// <inheritdoc cref=\"Base", "Run\" />"] ∧
    ¬(Writer.empty .spaces).Comments "times.</param>" ∧
    ¬(Writer.empty .spaces).Comments "Run\" />" := by
  decide +kernel

end Documentation

end CSharpGen

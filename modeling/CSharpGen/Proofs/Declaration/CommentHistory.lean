import Mathlib.Data.List.DropRight
import CSharpGen.Proofs.Declaration.CommentLines
import CSharpGen.Proofs.Declaration.Refusals
import CSharpGen.Text.TextSet

/-!
# Comments by their history

What a comment says follows from the calls that made it. Calls before the last one that inherits
have no effect. Of those after it the last summary counts, and for each parameter that was accepted
the last text, in the order of their first mention. A parameter is refused as long as no summary has
come after the inheritance (`Documentation.comment_by_history`).
-/

namespace CSharpGen

namespace DocumentationCall

def inherits : DocumentationCall → Bool
  | .inherit _ => true
  | _ => false

def source? : DocumentationCall → Option (Option String)
  | .inherit source => some source
  | _ => none

def summary? : DocumentationCall → Option String
  | .summary text => some text
  | _ => none

def entry? : DocumentationCall → Option (String × String)
  | .parameter _ name doc => some (name, doc)
  | _ => none

end DocumentationCall

namespace Documentation

variable {calls before : List DocumentationCall} {c : DocumentationCall} {d new : Documentation}

/-! ## Entries -/

/-- The text that was given last for a name. -/
def lastText (given : List (String × String)) (name : String) : String :=
  (given.reverse.lookup name).getD ""

/-- One entry for each name, in the order of their first mention, with the text given last. -/
def latest (given : List (String × String)) : List (String × String) :=
  (given.map Prod.fst).eraseDups.map fun name => (name, lastText given name)

/-- A text for a name stands in place of the earlier ones for it. -/
theorem lastText_concat (given : List (String × String)) (name doc other : String) :
    lastText (given ++ [(name, doc)]) other =
      if other = name then doc else lastText given other := by
  rw [lastText, List.reverse_append, List.reverse_singleton, List.singleton_append,
    List.lookup_cons]
  by_cases same : other = name
  · rw [beq_iff_eq.mpr same, if_pos same, Option.getD_some]
  · rw [beq_eq_false_iff_ne.mpr same, if_neg same, lastText]

/-- Setting an entry keeps one entry for each name: the text is exchanged in place, and a new name
is appended. -/
theorem setEntry_map (name doc : String) {names : List String} (distinct : names.Nodup)
    (text : String → String) :
    setEntry name doc (names.map fun n => (n, text n)) =
      (if name ∈ names then names else names ++ [name]).map fun n =>
        (n, if n = name then doc else text n) := by
  induction names with
  | nil => simp [setEntry]
  | cons first rest ih =>
    obtain ⟨fresh, others⟩ := List.nodup_cons.mp distinct
    rw [List.map_cons, setEntry]
    by_cases same : first = name
    · subst same
      have kept : ∀ n ∈ rest, (n, text n) = (n, if n = first then doc else text n) := by
        intro n member
        have apart : n ≠ first := fun same => fresh (same ▸ member)
        rw [if_neg apart]
      rw [if_pos rfl, if_pos List.mem_cons_self, List.map_cons, if_pos rfl,
        List.map_congr_left kept]
    · have member : name ∈ first :: rest ↔ name ∈ rest := by simp [Ne.symm same]
      rw [if_neg same, ih others]
      by_cases known : name ∈ rest
      · rw [if_pos known, if_pos (member.mpr known), List.map_cons, if_neg same]
      · rw [if_neg known, if_neg (mt member.mp known), List.cons_append, List.map_cons, if_neg same]

/-- An entry keeps its place when it is given another text. -/
theorem setEntry_latest (given : List (String × String)) (name doc : String) :
    setEntry name doc (latest given) = latest (given ++ [(name, doc)]) := by
  rw [latest, setEntry_map name doc (TextSet.nodup_eraseDups _), latest, List.map_append,
    List.map_singleton, TextSet.eraseDups_concat]
  simp only [List.mem_eraseDups, lastText_concat]

theorem latest_singleton (name doc : String) : latest [(name, doc)] = [(name, doc)] :=
  (setEntry_latest [] name doc).symm

/-! ## Histories -/

/-- The calls after the last one that inherits. -/
def since (calls : List DocumentationCall) : List DocumentationCall :=
  calls.rtakeWhile (!·.inherits)

/-- The last summary since the documentation was inherited last. -/
def lastSummary? (calls : List DocumentationCall) : Option String :=
  ((since calls).filterMap DocumentationCall.summary?).getLast?

/-- The source of the last call that inherits, unless a summary has come after it. -/
def inheritance? (calls : List DocumentationCall) : Option (Option String) :=
  if lastSummary? calls = none then (calls.filterMap DocumentationCall.source?).getLast? else none

/-- The answer to a call. -/
def answer (d : Documentation) : DocumentationCall → Except Error Documentation
  | .summary text => .ok (d.setSummary text)
  | .inherit source => .ok (.inherited source)
  | .parameter member name doc => d.addParameter member name doc

/-- The calls that are accepted, in order. -/
def accepted (calls : List DocumentationCall) : List DocumentationCall :=
  Refusable.accepted answer .empty calls

/-- The parameters that were accepted since the documentation was inherited last. -/
def given (calls : List DocumentationCall) : List (String × String) :=
  (since (accepted calls)).filterMap DocumentationCall.entry?

/-- A call that inherits discards what came before it. -/
theorem since_concat (before : List DocumentationCall) (c : DocumentationCall) :
    since (before ++ [c]) = if c.inherits then [] else since before ++ [c] := by
  rw [since, List.rtakeWhile_concat, since]
  cases c.inherits <;> rfl

theorem lastSummary?_concat (before : List DocumentationCall) (c : DocumentationCall) :
    lastSummary? (before ++ [c]) =
      match c with
      | .summary text => some text
      | .inherit _ => none
      | .parameter .. => lastSummary? before := by
  rw [lastSummary?, since_concat]
  cases c <;> simp [DocumentationCall.inherits, DocumentationCall.summary?, lastSummary?]

theorem inheritance?_concat (before : List DocumentationCall) (c : DocumentationCall) :
    inheritance? (before ++ [c]) =
      match c with
      | .summary _ => none
      | .inherit source => some source
      | .parameter .. => inheritance? before := by
  rw [inheritance?, lastSummary?_concat]
  cases c <;> simp [DocumentationCall.source?, inheritance?]

theorem next_answer (d : Documentation) (c : DocumentationCall) :
    Refusable.next answer d c = d.call c := by
  cases c with
  | summary | inherit => rfl
  | parameter member name doc =>
    rw [Refusable.next, answer, call]
    cases d.addParameter member name doc <;> rfl

/-- Documentation refuses calls the way every list of the model does. -/
theorem run_eq_run (calls : List DocumentationCall) :
    run calls = Refusable.run answer .empty calls := by
  have steps : Refusable.next answer = call := funext₂ next_answer
  rw [run, Refusable.run, steps]

theorem run_concat_ok (ok : (run before).answer c = .ok new) : run (before ++ [c]) = new := by
  rw [run_eq_run] at ok ⊢
  exact Refusable.run_concat_ok ok

theorem run_concat_error {e : Error} (refused : (run before).answer c = .error e) :
    run (before ++ [c]) = run before := by
  rw [run_eq_run] at refused
  rw [run_eq_run, run_eq_run]
  exact Refusable.run_concat_error refused

/-- An accepted call adds its entry to those that count, or discards them when it inherits. -/
theorem given_concat_ok (ok : (run before).answer c = .ok new) : given (before ++ [c]) =
    if c.inherits then [] else given before ++ c.entry?.toList := by
  rw [run_eq_run] at ok
  rw [given, accepted, Refusable.accepted_concat_ok ok, since_concat, given, accepted]
  cases c <;> simp [DocumentationCall.inherits, DocumentationCall.entry?]

theorem given_concat_error {e : Error} (refused : (run before).answer c = .error e) :
    given (before ++ [c]) = given before := by
  rw [run_eq_run] at refused
  rw [given, accepted, Refusable.accepted_concat_error refused, given, accepted]

/-- What documentation holds after several calls. -/
inductive Holds (calls : List DocumentationCall) : Documentation → Prop
  | empty (own : inheritance? calls = none) (blank : lastSummary? calls = none)
      (none : given calls = []) : Holds calls .empty
  | summary (own : inheritance? calls = none) :
      Holds calls (.summary (lastSummary? calls) (latest (given calls)))
  | inherited {source : Option String} (other : inheritance? calls = some source)
      (blank : lastSummary? calls = none) (none : given calls = []) :
      Holds calls (.inherited source)

namespace Holds

theorem setSummary (h : Holds before (run before)) (text : String) :
    Holds (before ++ [.summary text]) ((run before).setSummary text) := by
  have kept : given (before ++ [.summary text]) = given before := by
    rw [given_concat_ok rfl]
    exact List.append_nil _
  have own := inheritance?_concat before (.summary text)
  have said := lastSummary?_concat before (.summary text)
  have result := summary own
  rw [said, kept] at result
  generalize run before = d at h
  cases h with
  | summary => exact result
  | empty _ _ none | inherited _ _ none =>
    rw [none] at result
    exact result

theorem inherit (before : List DocumentationCall) (source : Option String) :
    Holds (before ++ [.inherit source]) (.inherited source) :=
  .inherited (inheritance?_concat before (.inherit source))
    (lastSummary?_concat before (.inherit source)) (given_concat_ok rfl)

/-- A parameter is refused when the documentation is inherited, and is documented otherwise. -/
theorem addParameter (h : Holds before (run before)) (member name doc : String) :
    let c := DocumentationCall.parameter member name doc
    Holds (before ++ [c]) (run (before ++ [c])) := by
  intro c
  have same : inheritance? (before ++ [c]) = inheritance? before := inheritance?_concat before c
  have said : lastSummary? (before ++ [c]) = lastSummary? before := lastSummary?_concat before c
  cases result : (run before).answer c with
  | error e =>
    have kept := given_concat_error result
    rw [run_concat_error result]
    generalize run before = d at h result
    cases h with
    | empty | summary => cases result
    | inherited other blank none =>
      exact .inherited (same.trans other) (said.trans blank) (kept.trans none)
  | ok new =>
    have more : given (before ++ [c]) = given before ++ [(name, doc)] := given_concat_ok result
    rw [run_concat_ok result]
    generalize run before = d at h result
    cases h with
    | inherited => cases result
    | empty own blank none =>
      cases result
      have now := summary (same.trans own)
      rw [said, blank, more, none, List.nil_append, latest_singleton] at now
      exact now
    | summary own =>
      cases result
      have now := summary (same.trans own)
      rw [said, more, ← setEntry_latest] at now
      exact now

end Holds

/-- What a run of calls leaves is told by its history. -/
theorem holds_run (calls : List DocumentationCall) : Holds calls (run calls) := by
  induction calls using List.reverseRecOn with
  | nil => exact .empty rfl rfl rfl
  | append_singleton before c ih =>
    cases c with
    | summary text =>
      rw [run_concat_ok (c := .summary text) rfl]
      exact ih.setSummary text
    | inherit source =>
      rw [run_concat_ok (c := .inherit source) rfl]
      exact .inherit before source
    | parameter member name doc => exact ih.addParameter member name doc

/-! ## Comments -/

/-- The comment lines that a history leads to, with the entries whose name satisfies `known`. -/
def historyLines (calls : List DocumentationCall) (known : String → Bool) : List String :=
  match inheritance? calls with
  | some none => ["/// <inheritdoc />"]
  | some (some source) => [s!"/// <inheritdoc cref=\"{source}\" />"]
  | none =>
    let summary := (lastSummary? calls).elim [] fun text =>
      "/// <summary>" :: (Text.lines text).map (fun line => s!"/// {Text.trim line}") ++
        ["/// </summary>"]
    let entries := (latest (given calls)).filter (known ·.1)
    summary ++ entries.map fun (name, doc) => s!"/// <param name=\"{name}\">{doc}</param>"

/-- The lines of the comment can be read off the calls, whatever state they lead to. -/
theorem linesWhere_run (calls : List DocumentationCall) (known : String → Bool) :
    (run calls).linesWhere known = historyLines calls known := by
  have holds := holds_run calls
  generalize run calls = d at holds
  unfold historyLines
  cases holds with
  | empty own blank none =>
    rw [own, blank, none]
    rfl
  | summary own =>
    rw [own, linesWhere]
    rfl
  | @inherited source other =>
    rw [other]
    cases source <;> rfl

/-- Every line of a comment is indented for the writer and ended. -/
theorem body_write_comment (w : Writer) {texts : List String} (all : ∀ s ∈ texts, CommentText s) :
    (Script.write (Step.lines texts) w).body =
      w.body ++ String.join (texts.map fun s => w.indentation ++ Text.trimEnd s ++ "\n") := by
  have line : ∀ s ∈ texts, Line.body w.style (w.depth + w.extraIndent) { text := s } ++ "\n" =
      w.indentation ++ Text.trimEnd s ++ "\n" := by
    intro s member
    rw [Line.body, (all s member).not_blank]
    rfl
  rw [Writer.body_write_lines, Layout.text, List.map_map]
  exact congrArg (w.body ++ String.join ·) (List.map_congr_left line)

/-- Only a parameter is refused, and only while the documentation is inherited. -/
theorem refused_iff (calls : List DocumentationCall) (c : DocumentationCall) (e : Error) :
    (run calls).answer c = .error e ↔ (inheritance? calls).isSome = true ∧
      ∃ member name doc, c = .parameter member name doc ∧ e = .inheritedDocumentation member := by
  have holds := holds_run calls
  generalize run calls = d at holds
  cases c with
  | summary text => simp [answer]
  | inherit source => simp [answer]
  | parameter member name doc =>
    cases holds with
    | empty own | summary own => simp [answer, Documentation.addParameter, own]
    | inherited other => simp [answer, Documentation.addParameter, other, eq_comm]

/-- A call is refused when it documents a parameter and the last inheritance has no later summary,
and then nothing changes. A comment is the line of the last inheritance, or is the last summary
since then, followed by one entry for each name that was accepted since then. Parameters that are
not known are left out. -/
theorem comment_by_history (calls : List DocumentationCall) :
    (∀ c e, (run calls).answer c = .error e ↔ (inheritance? calls).isSome = true ∧
      ∃ member name doc, c = .parameter member name doc ∧ e = .inheritedDocumentation member) ∧
    (∀ c e, (run calls).answer c = .error e → run (calls ++ [c]) = run calls) ∧
    ∀ w : Writer,
      let comment known := String.join ((historyLines calls known).map fun line =>
        w.indentation ++ Text.trimEnd line ++ "\n")
      (Script.write (Step.lines (run calls).lines) w).body = w.body ++ comment (fun _ => true) ∧
      ∀ names : List String, (Script.write (Step.lines ((run calls).linesFor names)) w).body =
        w.body ++ comment names.contains := by
  have written (known : String → Bool) (w : Writer) :
      (Script.write (Step.lines ((run calls).linesWhere known)) w).body = w.body ++
        String.join ((historyLines calls known).map fun line =>
          w.indentation ++ Text.trimEnd line ++ "\n") := by
    rw [body_write_comment w fun line isLine => ?_, linesWhere_run]
    rw [linesWhere_eq, List.mem_append] at isLine
    rcases isLine with framed | verbatim
    · exact (commentText_framedLines _ line framed).1
    · exact commentText_verbatimLines _ known line verbatim
  exact ⟨refused_iff calls, fun c e refused => run_concat_error refused, fun w =>
    ⟨written _ w, fun names => written names.contains w⟩⟩

example : historyLines [
    .summary "Old.", .inherit none, .parameter "Run" "start" "Refused.",
    .summary "Runs.", .parameter "Run" "start" "From.", .parameter "Run" "stop" "To.",
    .summary "Runs on.", .parameter "Run" "start" "Where to start."] (fun _ => true) = [
    "/// <summary>", "/// Runs on.", "/// </summary>",
    "/// <param name=\"start\">Where to start.</param>",
    "/// <param name=\"stop\">To.</param>"] := by decide

end Documentation

end CSharpGen

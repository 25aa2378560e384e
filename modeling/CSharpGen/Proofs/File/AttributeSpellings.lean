import CSharpGen.Proofs.Edit.Directives
import CSharpGen.Proofs.Text.Cuts

/-!
# Spellings of assembly attributes

An assembly attribute can be registered as its body alone, in brackets, for `assembly:`, or as a
whole line, with blanks around it. The spellings of one body give one line
(`Preamble.assemblyAttributeLines_of_spelled`).
-/

namespace CSharpGen

open Text (StartsSolid EndsSolid nonBlank?_self_iff)

/-- What an attribute says, without blanks at its ends and without a mark of another spelling. -/
structure AttributeBody where
  text : String
  whole : Text.nonBlank? text = some text
  unopened : Text.startsWith "[" text = false
  untargeted : Text.startsWith "assembly:" text = false
  unclosed : text.toList.getLast? ≠ some ']'

inductive AttributeSpelling where
  | bare
  | bracketed
  | targeted
  | full
  deriving DecidableEq, Repr

def AttributeSpelling.write : AttributeSpelling → String → String
  | bare, body => body
  | bracketed, body => s!"[{body}]"
  | targeted, body => s!"assembly: {body}"
  | full, body => s!"[assembly: {body}]"

/-- A body in one of its spellings, with blanks around it. -/
structure SpelledAttribute where
  body : AttributeBody
  spelling : AttributeSpelling
  before : String := ""
  after : String := ""
  blankBefore : Text.isBlankText before = true
  blankAfter : Text.isBlankText after = true

def SpelledAttribute.text (a : SpelledAttribute) : String :=
  a.before ++ a.spelling.write a.body.text ++ a.after

/-! ## Lines of spellings -/

namespace AttributeBody

variable (body : AttributeBody)

theorem startsSolid : StartsSolid body.text := (nonBlank?_self_iff.mp body.whole).1

theorem endsSolid : EndsSolid body.text := (nonBlank?_self_iff.mp body.whole).2

theorem trim_text : Text.trim body.text = body.text :=
  Text.trim_of_solid body.startsSolid body.endsSolid

/-- A closing bracket behind the body does not make it start with a target. -/
theorem untargeted_closed : Text.startsWith "assembly:" (body.text ++ "]") = false := by
  have closed : (body.text ++ "]").toList = body.text.toList ++ [']'] := String.toList_append
  rw [Bool.eq_false_iff, ne_eq, Text.startsWith_iff, closed, List.prefix_concat_iff]
  rintro (same | starts)
  · have last := congrArg List.getLast? same
    rw [List.getLast?_concat] at last
    exact absurd last (by decide)
  · rw [← Text.startsWith_iff, body.untargeted] at starts
    cases starts

/-- Whatever stands before the body, no closing bracket is at its end. -/
theorem dropStop_append (front : String) :
    Text.dropStop "]" (front ++ body.text) = front ++ body.text := by
  obtain ⟨c, last, -⟩ := body.endsSolid
  refine Text.dropStop_of_not fun closed => body.unclosed ?_
  have closed := List.singleton_suffix_iff_getLast?_eq_some.mp closed
  rwa [String.toList_append, List.getLast?_append, last, Option.some_or, ← last] at closed

end AttributeBody

namespace AssemblyAttribute

variable {text line : String} (body : AttributeBody)

/-- A text that is no line yet becomes the line of what is left without brackets and target. -/
theorem line?_of_left {left : String} (trimmed : Text.trim text = text)
    (other : Text.startsWith "[assembly:" text = false)
    (cut : Text.nonBlank? (Text.dropStart "assembly:"
      (Text.trim (Text.dropStop "]" (Text.dropStart "[" text)))) = some left) :
    line? text = some s!"[assembly: {left}]" := by
  simp only [line?, trimmed, other, cut, Option.map_some]
  rfl

theorem line?_bare : line? body.text = some s!"[assembly: {body.text}]" := by
  have other : Text.startsWith "[assembly:" body.text = false := by
    rw [Bool.eq_false_iff]
    intro starts
    have opened : Text.startsWith "[" body.text = true := Text.startsWith_trans (by decide) starts
    rw [body.unopened] at opened
    cases opened
  refine line?_of_left body.trim_text other ?_
  have closed := body.dropStop_append ""
  rw [String.empty_append] at closed
  rw [Text.dropStart_of_not body.unopened, closed, body.trim_text,
    Text.dropStart_of_not body.untargeted, body.whole]

theorem line?_bracketed : line? s!"[{body.text}]" = some s!"[assembly: {body.text}]" := by
  have spelled : s!"[{body.text}]" = "[" ++ (body.text ++ "]") := String.append_assoc
  rw [spelled]
  have trimmed : Text.trim ("[" ++ (body.text ++ "]")) = "[" ++ (body.text ++ "]") :=
    Text.trim_of_solid (StartsSolid.append ⟨'[', rfl, by decide⟩ _)
      (Text.endsSolid_append _ (Text.endsSolid_append _ ⟨']', rfl, by decide⟩))
  have other : Text.startsWith "[assembly:" ("[" ++ (body.text ++ "]")) = false := by
    rw [Text.startsWith, String.toList_append]
    exact body.untargeted_closed
  refine line?_of_left trimmed other ?_
  rw [Text.dropStart_append, Text.dropStop_append, body.trim_text,
    Text.dropStart_of_not body.untargeted, body.whole]

theorem line?_targeted : line? s!"assembly: {body.text}" = some s!"[assembly: {body.text}]" := by
  have mark : "assembly: " = "assembly:" ++ " " := by decide
  have spelled : s!"assembly: {body.text}" = "assembly:" ++ (" " ++ body.text) :=
    (congrArg (· ++ body.text) mark).trans String.append_assoc
  rw [spelled]
  have trimmed : Text.trim ("assembly:" ++ (" " ++ body.text)) = "assembly:" ++ (" " ++ body.text) :=
    Text.trim_of_solid (StartsSolid.append ⟨'a', rfl, by decide⟩ _)
      (Text.endsSolid_append _ (Text.endsSolid_append _ body.endsSolid))
  have apart (start : String) (rest : List Char) (h : start.toList = '[' :: rest) :
      Text.startsWith start ("assembly:" ++ (" " ++ body.text)) = false := by
    rw [Text.startsWith, String.toList_append, h]
    rfl
  have closed := body.dropStop_append ("assembly:" ++ " ")
  rw [String.append_assoc] at closed
  have blank : Text.nonBlank? (" " ++ body.text) = some body.text := by
    have surrounded : Text.trim (" " ++ body.text ++ "") = Text.trim body.text :=
      Text.trim_surrounded (by decide) Text.isBlankText_empty body.text
    rw [String.append_empty] at surrounded
    rw [Text.nonBlank?, surrounded, ← Text.nonBlank?, body.whole]
  refine line?_of_left trimmed (apart _ _ rfl) ?_
  rw [Text.dropStart_of_not (apart _ _ rfl), closed, trimmed,
    Text.dropStart_append, blank]

/-- A text that starts like a line is kept, without the blanks at its ends. -/
theorem line?_kept (starts : Text.startsWith "[assembly:" text = true)
    (ends : EndsSolid text) : line? text = some text := by
  have first : StartsSolid text :=
    StartsSolid.of_startsWith ⟨'[', rfl, by decide⟩ starts
  rw [line?, Text.trim_of_solid first ends, if_pos starts]

theorem line?_full : line? s!"[assembly: {body.text}]" = some s!"[assembly: {body.text}]" := by
  refine line?_kept ?_ (Text.endsSolid_append _ ⟨']', rfl, by decide⟩)
  exact Text.startsWith_append (Text.startsWith_append (by decide) _) "]"

/-- A line is its own line, and no blanks are at its ends. -/
theorem line?_line (written : line? text = some line) :
    line? line = some line ∧ Text.nonBlank? line = some line := by
  obtain ⟨starts, trimmed⟩ := startsWith_line? written
  have first : StartsSolid line := StartsSolid.of_startsWith ⟨'[', rfl, by decide⟩ starts
  exact ⟨line?_kept starts (first.endsSolid trimmed),
    nonBlank?_self_iff.mpr ⟨first, first.endsSolid trimmed⟩⟩

end AssemblyAttribute

/-- Every spelling of a body gives the same line. -/
theorem SpelledAttribute.line?_text (a : SpelledAttribute) :
    AssemblyAttribute.line? a.text = some s!"[assembly: {a.body.text}]" := by
  rw [← AssemblyAttribute.line?_trim, text, Text.trim_surrounded a.blankBefore a.blankAfter,
    AssemblyAttribute.line?_trim]
  cases a.spelling with
  | bare => exact AssemblyAttribute.line?_bare a.body
  | bracketed => exact AssemblyAttribute.line?_bracketed a.body
  | targeted => exact AssemblyAttribute.line?_targeted a.body
  | full => exact AssemblyAttribute.line?_full a.body

/-! ## Registered spellings -/

/-- The text of an assembly attribute that is registered. -/
def Registration.attributeText? : Registration → Option String
  | .assemblyAttribute text => some text
  | _ => none

namespace Preamble

theorem line_injective : Function.Injective fun body : String => s!"[assembly: {body}]" := by
  intro a b same
  exact (String.append_right_inj _).mp ((String.append_left_inj _).mp same)

/-- A line that is listed is registered again without a change of the list. -/
theorem assemblyAttributeLines_register_line {p : Preamble} {line : String}
    (listed : line ∈ p.assemblyAttributeLines) :
    (p.register (.assemblyAttribute line)).assemblyAttributeLines = p.assemblyAttributeLines := by
  have registered := Text.mem_ascending.mp listed
  obtain ⟨text, -, written⟩ := List.mem_filterMap.mp registered
  obtain ⟨same, whole⟩ := AssemblyAttribute.line?_line written
  refine Text.ascending_congr fun other => ?_
  simp only [List.mem_filterMap, ← TextSet.mem_def, mem_attributes_register, attributeOf?, whole]
    at registered ⊢
  constructor
  · rintro ⟨given, old | new, isLine⟩
    · exact ⟨given, old, isLine⟩
    · obtain rfl := Option.some.inj new
      rw [same] at isLine
      exact Option.some.inj isLine ▸ registered
  · rintro ⟨given, old, isLine⟩
    exact ⟨given, .inl old, isLine⟩

/-- Attributes are listed once for each body, in strictly ascending order, however they were spelled,
and listed lines that are registered again change nothing. -/
theorem assemblyAttributeLines_of_spelled (rs : List Registration) (spelled : List SpelledAttribute)
    (given : rs.filterMap Registration.attributeText? = spelled.map (·.text)) :
    let lines := (registerAll {} rs).assemblyAttributeLines
    (lines.Pairwise (· < ·) ∧
      lines.Perm ((spelled.map (·.body.text)).eraseDups.map fun body => s!"[assembly: {body}]")) ∧
    ∀ p : Preamble, ∀ line ∈ p.assemblyAttributeLines,
      (p.register (.assemblyAttribute line)).assemblyAttributeLines = p.assemblyAttributeLines := by
  intro lines
  obtain ⟨ascends, members⟩ := enumerates_assemblyAttributeLines rs
  have asked (text : String) : .assemblyAttribute text ∈ rs ↔ ∃ a ∈ spelled, a.text = text := by
    rw [← List.mem_map, ← given, List.mem_filterMap]
    constructor
    · intro member
      exact ⟨_, member, rfl⟩
    · rintro ⟨r, member, isText⟩
      cases r with
      | assemblyAttribute other =>
        obtain rfl := Option.some.inj isText
        exact member
      | _ => cases isText
  refine ⟨⟨ascends, ?_⟩, fun p line => assemblyAttributeLines_register_line⟩
  have distinct := (TextSet.nodup_eraseDups (spelled.map (·.body.text))).map line_injective
  refine (List.perm_ext_iff_of_nodup ascends.nodup distinct).mpr fun line => ?_
  simp only [members, asked, List.mem_map, List.mem_eraseDups]
  constructor
  · rintro ⟨_, ⟨a, member, rfl⟩, written⟩
    rw [a.line?_text] at written
    exact ⟨a.body.text, ⟨a, member, rfl⟩, Option.some.inj written⟩
  · rintro ⟨_, ⟨a, member, rfl⟩, rfl⟩
    exact ⟨a.text, ⟨a, member, rfl⟩, a.line?_text⟩

/-- Two bodies, one of them in three spellings. -/
def spelledVersions : List SpelledAttribute :=
  let tests : AttributeBody :=
    ⟨"InternalsVisibleTo(\"Tests\")", by decide, by decide, by decide, by decide⟩
  let version : AttributeBody :=
    ⟨"AssemblyVersion(\"1.0\")", by decide, by decide, by decide, by decide⟩
  [⟨tests, .bare, "\t\r", "", by decide, Text.isBlankText_empty⟩,
    ⟨version, .full, "", "\u3000", Text.isBlankText_empty, by decide⟩,
    ⟨tests, .bracketed, "", "\u00A0\n", Text.isBlankText_empty, by decide⟩,
    ⟨tests, .targeted, "", "", Text.isBlankText_empty, Text.isBlankText_empty⟩]

theorem assemblyAttributeLines_of_spelledVersions :
    let rs : List Registration :=
      .importNamespace "System" :: spelledVersions.map fun a => .assemblyAttribute a.text
    let p := registerAll {} rs
    let tests := "[assembly: InternalsVisibleTo(\"Tests\")]"
    let version := "[assembly: AssemblyVersion(\"1.0\")]"
    rs.filterMap Registration.attributeText? = spelledVersions.map (·.text) ∧
      p.assemblyAttributeLines.Pairwise (· < ·) ∧
      p.assemblyAttributeLines.Perm [tests, version] ∧
      version ∈ p.assemblyAttributeLines ∧
      (p.register (.assemblyAttribute version)).assemblyAttributeLines = p.assemblyAttributeLines := by
  intro rs p tests version
  have given : rs.filterMap Registration.attributeText? = spelledVersions.map (·.text) := by
    decide +kernel
  obtain ⟨⟨ascends, perm⟩, again⟩ := assemblyAttributeLines_of_spelled rs spelledVersions given
  have bodies : ((spelledVersions.map (·.body.text)).eraseDups.map
      fun body => s!"[assembly: {body}]") = [tests, version] := by decide +kernel
  rw [bodies] at perm
  have listed : version ∈ p.assemblyAttributeLines :=
    perm.mem_iff.mpr (List.mem_cons_of_mem _ List.mem_cons_self)
  exact ⟨given, ascends, perm, listed, again p version listed⟩

end Preamble

end CSharpGen

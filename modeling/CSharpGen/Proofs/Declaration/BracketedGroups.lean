import CSharpGen.Declaration.Attributes
import CSharpGen.Proofs.Text.Cuts

/-!
# Bracketed groups

What a group can hold is said by a grammar: plain characters, literals in quotes and groups. A text
is split exactly when it is a sequence of groups with blanks around them, into the texts that they
hold (`Bracketed.bodies?_iff`). Any other text is one body (`Attributes.split_joined`).
-/

namespace CSharpGen

namespace Bracketed

/-! ## The grammar -/

/-- What stands in a literal: no `mark` but behind a backslash. -/
inductive Literal (mark : Char) : List Char → Prop
  | nil : Literal mark []
  | plain {c : Char} {rest : List Char} : c ≠ mark → c ≠ '\\' → Literal mark rest →
    Literal mark (c :: rest)
  | escape {c : Char} {rest : List Char} : Literal mark rest → Literal mark ('\\' :: c :: rest)

/-- What stands in a group: plain characters, literals and groups. -/
inductive Body : List Char → Prop
  | nil : Body []
  | plain {c : Char} {rest : List Char} : c ∉ ['[', ']', '"', '\''] → Body rest → Body (c :: rest)
  | literal {mark : Char} {inner rest : List Char} : mark ∈ ['"', '\''] → Literal mark inner →
    Body rest → Body (mark :: (inner ++ mark :: rest))
  | group {inner rest : List Char} : Body inner → Body rest → Body ('[' :: (inner ++ ']' :: rest))

/-- A sequence of groups with blanks around them, and what the groups hold. -/
inductive Groups : List Char → List (List Char) → Prop
  | nil : Groups [] []
  | blank {c : Char} {rest : List Char} {bodies : List (List Char)} : Text.isBlank c = true →
    Groups rest bodies → Groups (c :: rest) bodies
  | group {body rest : List Char} {bodies : List (List Char)} : Body body → Groups rest bodies →
    Groups ('[' :: (body ++ ']' :: rest)) (body :: bodies)

/-! ## Groups are found -/

/-- The inside of a literal is read over without counting its brackets. -/
theorem bodies?_literal {mark : Char} {inner : List Char} (h : Literal mark inner) (outer : Nat)
    (before rest : List Char) : bodies? (.quoted outer before mark) (inner ++ rest) =
      bodies? (.quoted outer (inner.reverse ++ before) mark) rest := by
  induction h generalizing before with
  | nil => rfl
  | plain notMark notEscape _ ih =>
    simp [bodies?, notMark, notEscape, ih]
  | escape _ ih =>
    simp [bodies?, ih]

theorem bodies?_mark {mark : Char} (isMark : mark ∈ ['"', '\'']) (outer : Nat)
    (before rest : List Char) : bodies? (.inside outer before) (mark :: rest) =
      bodies? (.quoted outer (mark :: before) mark) rest := by
  obtain rfl | rfl : mark = '"' ∨ mark = '\'' := by simpa using isMark
  · simp [bodies?]
  · simp [bodies?]

theorem bodies?_plain {c : Char} (isPlain : c ∉ ['[', ']', '"', '\'']) (outer : Nat)
    (before rest : List Char) : bodies? (.inside outer before) (c :: rest) =
      bodies? (.inside outer (c :: before)) rest := by
  simp only [List.mem_cons, List.not_mem_nil, or_false, not_or] at isPlain
  simp [bodies?, isPlain]

/-- A body is read over as a whole and leaves the depth as it was. -/
theorem bodies?_body {body : List Char} (h : Body body) (outer : Nat) (before rest : List Char) :
    bodies? (.inside outer before) (body ++ rest) =
      bodies? (.inside outer (body.reverse ++ before)) rest := by
  induction h generalizing outer before rest with
  | nil => rfl
  | plain isPlain _ ih =>
    rw [List.cons_append, bodies?_plain isPlain, ih]
    simp
  | @literal mark inner behind isMark isLiteral _ ih =>
    have notEscape : mark ≠ '\\' := by
      rintro rfl
      exact absurd isMark (by decide)
    have closes (before rest : List Char) : bodies? (.quoted outer before mark) (mark :: rest) =
        bodies? (.inside outer (mark :: before)) rest := by simp [bodies?, notEscape]
    rw [List.cons_append, List.append_assoc, bodies?_mark isMark, bodies?_literal isLiteral,
      List.cons_append, closes, ih]
    simp
  | @group inner behind _ _ ihInner ihBehind =>
    have opens (rest : List Char) : bodies? (.inside outer before) ('[' :: rest) =
        bodies? (.inside (outer + 1) ('[' :: before)) rest := by simp [bodies?]
    have closes (before rest : List Char) : bodies? (.inside (outer + 1) before) (']' :: rest) =
        bodies? (.inside outer (']' :: before)) rest := by simp [bodies?]
    rw [List.cons_append, List.append_assoc, opens, ihInner, List.cons_append, closes, ihBehind]
    simp

/-- The scan finds the bodies of groups with blanks around them. -/
theorem bodies?_of_groups {text : List Char} {bodies : List (List Char)} (h : Groups text bodies) :
    bodies? .outside text = some bodies := by
  induction h with
  | nil => rfl
  | @blank c rest bodies isBlank _ ih =>
    have notOpening : c ≠ '[' := by
      rintro rfl
      exact absurd isBlank (by decide)
    simp [bodies?, notOpening, isBlank, ih]
  | @group body rest bodies isBody _ ih =>
    have opens : bodies? .outside ('[' :: (body ++ ']' :: rest)) =
        bodies? (.inside 0 []) (body ++ ']' :: rest) := by simp [bodies?]
    rw [opens, bodies?_body isBody]
    simp [bodies?, ih]

/-! ## Nothing else is found -/

/-- What is left of the bodies that a place is inside of, the innermost one first. -/
def Left : (outer : Nat) → List Char → Prop
  | 0, text => Body text
  | outer + 1, text => ∃ body rest, Body body ∧ Left outer rest ∧ text = body ++ ']' :: rest

theorem Left.prepend {first : List Char} (grows : ∀ {body}, Body body → Body (first ++ body))
    {outer : Nat} {text : List Char} (h : Left outer text) : Left outer (first ++ text) := by
  cases outer with
  | zero => exact grows h
  | succ outer =>
    obtain ⟨body, rest, isBody, left, rfl⟩ := h
    exact ⟨first ++ body, rest, grows isBody, left, by simp⟩

/-- An opening bracket begins a group that is closed one level further in. -/
theorem Left.opening {outer : Nat} {text : List Char} (h : Left (outer + 1) text) :
    Left outer ('[' :: text) := by
  obtain ⟨body, rest, isBody, left, rfl⟩ := h
  have grows {other : List Char} (isOther : Body other) :
      Body ('[' :: (body ++ [']']) ++ other) := by
    simpa using isBody.group isOther
  simpa using left.prepend grows

theorem Left.closing {outer : Nat} {text : List Char} (h : Left outer text) :
    Left (outer + 1) (']' :: text) := ⟨[], text, .nil, h, rfl⟩

/-- What bodies found from a place on say of the text: the group that the place is in is completed,
and groups follow. -/
def Completes : Place → List Char → List (List Char) → Prop
  | .outside, text, bodies => Groups text bodies
  | .inside outer before, text, bodies => ∃ left rest others,
    Left outer left ∧ Groups rest others ∧ text = left ++ ']' :: rest ∧
      bodies = (before.reverse ++ left) :: others
  | .quoted outer before mark, text, bodies => ∃ inner left rest others,
    Literal mark inner ∧ Left outer left ∧ Groups rest others ∧
      text = inner ++ mark :: (left ++ ']' :: rest) ∧
      bodies = (before.reverse ++ (inner ++ mark :: left)) :: others
  | .escaped outer before mark, text, bodies => ∃ c inner left rest others,
    Literal mark inner ∧ Left outer left ∧ Groups rest others ∧
      text = c :: (inner ++ mark :: (left ++ ']' :: rest)) ∧
      bodies = (before.reverse ++ (c :: (inner ++ mark :: left))) :: others

/-- Where the scan succeeds, the text completes the group that it began in. -/
theorem completes_of_bodies? {place : Place} {text : List Char} {bodies : List (List Char)}
    (found : bodies? place text = some bodies) : Completes place text bodies := by
  -- along the scan: an opening bracket leaves one more body to complete, a closing one ends the
  -- innermost of them, and any other character or literal goes before what is left of that one
  fun_induction bodies? place text generalizing bodies with
  | case1 =>
    obtain rfl := Option.some.inj found
    exact .nil
  | case2 | case5 => cases found
  | case3 c rest isOpening ih =>
    obtain rfl := eq_of_beq isOpening
    obtain ⟨body, rest, others, isBody, groups, rfl, rfl⟩ := ih found
    exact .group isBody groups
  | case4 c rest _ isBlank ih => exact .blank isBlank (ih found)
  | case6 outer before mark rest isMark ih =>
    obtain ⟨inner, left, rest, others, isLiteral, isLeft, groups, rfl, rfl⟩ := ih found
    have quote : mark ∈ ['"', '\''] := by simpa using isMark
    have grows {body : List Char} (isBody : Body body) :
        Body (mark :: (inner ++ [mark]) ++ body) := by
      simpa using isBody.literal quote isLiteral
    exact ⟨_, rest, others, isLeft.prepend grows, groups, by simp, by simp⟩
  | case7 outer before c rest _ isOpening ih =>
    obtain rfl := eq_of_beq isOpening
    obtain ⟨left, rest, others, isLeft, groups, rfl, rfl⟩ := ih found
    exact ⟨'[' :: left, rest, others, isLeft.opening, groups, rfl, by simp⟩
  | case8 before c rest _ _ isClosing ih =>
    obtain rfl := eq_of_beq isClosing
    obtain ⟨others, foundAfter, rfl⟩ := Option.map_eq_some_iff.mp found
    exact ⟨[], rest, others, .nil, ih foundAfter, rfl, by simp⟩
  | case9 before c rest _ _ isClosing outer ih =>
    obtain rfl := eq_of_beq isClosing
    obtain ⟨left, rest, others, isLeft, groups, rfl, rfl⟩ := ih found
    exact ⟨']' :: left, rest, others, isLeft.closing, groups, rfl, by simp⟩
  | case10 outer before c rest notMark notOpening notClosing ih =>
    obtain ⟨left, rest, others, isLeft, groups, rfl, rfl⟩ := ih found
    have isPlain : c ∉ ['[', ']', '"', '\''] := by
      simp only [beq_iff_eq, Bool.or_eq_true, not_or] at notMark notOpening notClosing
      simp [notMark, notOpening, notClosing]
    have grows {body : List Char} (isBody : Body body) : Body ([c] ++ body) := .plain isPlain isBody
    exact ⟨_, rest, others, isLeft.prepend grows, groups, rfl, by simp⟩
  | case11 outer before mark c rest isEscape ih =>
    obtain rfl := eq_of_beq isEscape
    obtain ⟨c, inner, left, rest, others, isLiteral, isLeft, groups, rfl, rfl⟩ := ih found
    exact ⟨'\\' :: c :: inner, left, rest, others, isLiteral.escape, isLeft, groups, rfl, by simp⟩
  | case12 outer before mark c rest _ isMark ih =>
    obtain rfl := eq_of_beq isMark
    obtain ⟨left, rest, others, isLeft, groups, rfl, rfl⟩ := ih found
    exact ⟨[], left, rest, others, .nil, isLeft, groups, rfl, by simp⟩
  | case13 outer before mark c rest notEscape notMark ih =>
    obtain ⟨inner, left, rest, others, isLiteral, isLeft, groups, rfl, rfl⟩ := ih found
    exact ⟨c :: inner, left, rest, others,
      .plain (by simpa using notMark) (by simpa using notEscape) isLiteral, isLeft, groups, rfl, by simp⟩
  | case14 outer before mark c rest ih =>
    obtain ⟨inner, left, rest, others, isLiteral, isLeft, groups, rfl, rfl⟩ := ih found
    exact ⟨c, inner, left, rest, others, isLiteral, isLeft, groups, rfl, by simp⟩

/-- The scan finds the groups of a sequence of groups, and nothing in any other text. -/
theorem bodies?_iff {text : List Char} {bodies : List (List Char)} :
    bodies? .outside text = some bodies ↔ Groups text bodies :=
  ⟨completes_of_bodies?, bodies?_of_groups⟩

/-! ## Written groups -/

/-- Blanks in front belong to no group. -/
theorem Groups.dropWhile {text : List Char} {bodies : List (List Char)} (h : Groups text bodies) :
    Groups (text.dropWhile Text.isBlank) bodies := by
  induction h with
  | nil => exact .nil
  | blank isBlank _ ih =>
    rw [List.dropWhile_cons_of_pos isBlank]
    exact ih
  | group isBody groups _ =>
    rw [List.dropWhile_cons_of_neg (by decide)]
    exact .group isBody groups

/-- Dropping blanks at the end stops at the last group. -/
theorem dropTailWhile_group (body rest : List Char) :
    Text.dropTailWhile Text.isBlank ('[' :: (body ++ ']' :: rest)) =
      '[' :: (body ++ ']' :: Text.dropTailWhile Text.isBlank rest) := by
  have ended : Text.dropTailWhile Text.isBlank ('[' :: body ++ [']']) = '[' :: body ++ [']'] := by
    rw [Text.dropTailWhile, List.reverse_append, List.reverse_singleton, List.singleton_append,
      List.dropWhile_cons_of_neg (by decide)]
    simp
  have cut : '[' :: (body ++ ']' :: rest) = ('[' :: body ++ [']']) ++ rest := by simp
  rw [cut, Text.dropTailWhile_append, ended]
  split
  · next none => simp [none]
  · simp

theorem Groups.dropTailWhile {text : List Char} {bodies : List (List Char)}
    (h : Groups text bodies) : Groups (Text.dropTailWhile Text.isBlank text) bodies := by
  induction h with
  | nil => exact .nil
  | @blank c rest bodies isBlank _ ih =>
    have alone : Text.dropTailWhile Text.isBlank [c] = [] := by simp [Text.dropTailWhile, isBlank]
    rw [← List.singleton_append, Text.dropTailWhile_append, alone]
    split
    · next none => rwa [none] at ih
    · exact .blank isBlank ih
  | @group body rest bodies isBody _ ih =>
    rw [dropTailWhile_group]
    exact .group isBody ih

/-- Trimming a sequence of groups keeps all of its groups. -/
theorem Groups.trim {text : String} {bodies : List (List Char)} (h : Groups text.toList bodies) :
    Groups (Text.trim text).toList bodies := by
  rw [Text.trim, String.toList_ofList]
  exact h.dropWhile.dropTailWhile

/-- A group with the blanks after it. -/
structure Group where
  body : String
  gap : String
  isBody : Body body.toList
  isBlank : Text.isBlankText gap = true

/-- The group without blanks after it. -/
def Group.tight (g : Group) : Group := { g with gap := "", isBlank := by decide }

/-- Groups after a text. -/
def joined (lead : String) (groups : List Group) : String :=
  lead ++ String.join (groups.map fun g => Attributes.written g.body ++ g.gap)

theorem toList_written (body : String) :
    (Attributes.written body).toList = '[' :: (body.toList ++ [']']) := by
  have pieces : Attributes.written body = "[" ++ body ++ "]" := rfl
  rw [pieces, String.toList_append, String.toList_append]
  rfl

theorem toList_joined_cons (lead : String) (g : Group) (rest : List Group) :
    (joined lead (g :: rest)).toList =
      lead.toList ++ '[' :: (g.body.toList ++ ']' :: (joined g.gap rest).toList) := by
  simp [joined, toList_written, String.join_cons]

theorem groups_blanks {blanks text : List Char} {bodies : List (List Char)}
    (all : ∀ c ∈ blanks, Text.isBlank c) (h : Groups text bodies) :
    Groups (blanks ++ text) bodies := by
  induction blanks with
  | nil => exact h
  | cons c blanks ih =>
    obtain ⟨first, others⟩ := List.forall_mem_cons.mp all
    exact .blank first (ih others)

/-- Groups that are written one after another, with blanks between them, are groups with these
bodies. -/
theorem groups_joined {lead : String} (blank : Text.isBlankText lead = true) (groups : List Group) :
    Groups (joined lead groups).toList (groups.map (·.body.toList)) := by
  induction groups generalizing lead with
  | nil =>
    have none : joined lead [] = lead := by simp [joined]
    rw [none, ← List.append_nil lead.toList]
    exact groups_blanks (Text.isBlankText_iff.mp blank) .nil
  | cons g rest ih =>
    rw [toList_joined_cons]
    exact groups_blanks (Text.isBlankText_iff.mp blank) (.group g.isBody (ih g.isBlank))

/-- Every sequence of groups is written that way. -/
theorem exists_joined {text : List Char} {bodies : List (List Char)} (h : Groups text bodies) :
    ∃ lead groups, Text.isBlankText lead = true ∧ text = (joined lead groups).toList := by
  induction h with
  | nil => exact ⟨"", [], by decide, rfl⟩
  | @blank c rest bodies isBlank _ ih =>
    obtain ⟨lead, groups, blank, rfl⟩ := ih
    refine ⟨String.singleton c ++ lead, groups, ?_, by simp [joined]⟩
    rw [Text.isBlankText_iff] at blank ⊢
    simpa using ⟨isBlank, blank⟩
  | @group body rest bodies isBody _ ih =>
    obtain ⟨gap, groups, blank, rfl⟩ := ih
    let first : Group := ⟨String.ofList body, gap, by simpa using isBody, blank⟩
    refine ⟨"", first :: groups, by decide, ?_⟩
    rw [toList_joined_cons]
    simp [first]

theorem split_of_groups {text : String} {bodies : List (List Char)} (h : Groups text.toList bodies)
    (filled : bodies ≠ []) : split text = bodies.map String.ofList := by
  obtain ⟨body, others, rfl⟩ := List.exists_cons_of_ne_nil filled
  rw [split, bodies?_of_groups h]

theorem split_joined_eq {lead : String} (blank : Text.isBlankText lead = true) {groups : List Group}
    (filled : groups ≠ []) : split (joined lead groups) = groups.map (·.body) := by
  rw [split_of_groups (groups_joined blank groups) (by simpa using filled), List.map_map]
  exact List.map_congr_left fun g _ => String.ofList_toList

theorem blank_empty : Text.isBlankText "" = true := by decide

theorem join_written (groups : List Group) :
    String.join ((groups.map (·.body)).map Attributes.written) =
      joined "" (groups.map Group.tight) := by
  rw [joined, String.empty_append, List.map_map, List.map_map]
  refine congrArg String.join (List.map_congr_left fun g _ => ?_)
  exact String.append_empty.symm

/-- A sequence of groups that starts with a bracket has nothing before its first group. -/
theorem notGroups_written {body : String}
    (none : ¬∃ groups, Attributes.written body = joined "" groups) (bodies : List (List Char)) :
    ¬Groups (Attributes.written body).toList bodies := by
  intro h
  obtain ⟨lead, groups, blank, same⟩ := exists_joined h
  have empty : lead = "" := by
    rw [Text.isBlankText_iff] at blank
    rw [toList_written, joined, String.toList_append] at same
    cases chars : lead.toList with
    | nil => simpa using chars
    | cons c rest =>
      rw [chars] at same blank
      obtain ⟨rfl, -⟩ := List.cons.inj same
      exact absurd (blank '[' List.mem_cons_self) (by decide)
  exact none ⟨groups, String.toList_inj.mp (empty ▸ same)⟩

/-- Stripping undoes writing. -/
theorem strip_written (body : String) : strip (Attributes.written body) = body := by
  have pieces : Attributes.written body = "[" ++ (body ++ "]") := String.append_assoc
  rw [strip, pieces, Text.dropStart_append, Text.dropStop_append]

theorem exists_written {text : String} (starts : Text.startsWith "[" text = true)
    (ends : text.toList.getLast? = some ']') : ∃ body, text = Attributes.written body := by
  obtain ⟨rest, opens⟩ := List.isPrefixOf_iff_prefix.mp starts
  have filled : rest ≠ [] := by
    rintro rfl
    rw [← opens] at ends
    cases ends
  rw [← opens, List.getLast?_append_of_ne_nil _ filled] at ends
  obtain ⟨body, rfl⟩ := List.getLast?_eq_some_iff.mp ends
  refine ⟨String.ofList body, ?_⟩
  rw [← String.toList_inj, toList_written, ← opens]
  simp

/-- A text that is no sequence of groups is split into itself without its brackets. -/
theorem split_of_notGroups {text : String} (none : ∀ bodies, ¬Groups text.toList bodies) :
    split text = [strip text] := by
  unfold split
  split
  · rfl
  · rfl
  · next bodies _ found => exact absurd (bodies?_iff.mp found) (none bodies)

/-- Whether a text stands in a group can be tried out: it does when it is found in brackets. -/
theorem body_iff {body : List Char} :
    Body body ↔ bodies? .outside ('[' :: (body ++ [']'])) = some [body] := by
  refine ⟨fun isBody => bodies?_of_groups (.group isBody .nil), fun found => ?_⟩
  have groups := bodies?_iff.mp found
  generalize shape : '[' :: (body ++ [']']) = text at groups
  cases groups with
  | group isBody => exact isBody
  | blank isBlank =>
    obtain ⟨rfl, -⟩ := List.cons.inj shape
    exact absurd isBlank (by decide)

instance : DecidablePred Body := fun _ => decidable_of_iff' _ body_iff

end Bracketed

/-! ## Attributes -/

namespace Attributes

open Bracketed

/-- Groups with blanks around them are split into what they hold, and added without the blanks
around each of them and without those that are blank or known. A text in brackets is split without
loss: what it is split into, in brackets again, is the text without the blanks between its groups,
or the text itself when it is no sequence of groups. -/
theorem split_joined :
    (∀ (lead : String) (groups : List Group), Text.isBlankText lead = true → groups ≠ [] →
      let text := joined lead groups
      let bodies := groups.map (·.body)
      split text = bodies ∧
        ∀ a : Attributes,
          (a.add text).bodies.items =
            (a.bodies.items ++ bodies.filterMap Text.nonBlank?).eraseDups ∧
          (a.brings text = true ↔ ∃ body ∈ bodies.filterMap Text.nonBlank?, body ∉ a.bodies)) ∧
    ∀ text, Text.startsWith "[" text = true → text.toList.getLast? = some ']' →
      let rejoined := String.join ((split text).map written)
      (∃ groups, text = joined "" groups ∧ rejoined = joined "" (groups.map Group.tight)) ∨
        (∀ groups, text ≠ joined "" groups) ∧ rejoined = text := by
  refine ⟨fun lead groups blank filled => ⟨split_joined_eq blank filled, fun a => ?_⟩,
    fun text starts ends => ?_⟩
  · have trimmed : split (Text.trim (joined lead groups)) = groups.map (·.body) := by
      rw [split_of_groups (groups_joined blank groups).trim (by simpa using filled)]
      simp
    have new : bodiesOf (joined lead groups) =
        (groups.map (·.body)).filterMap Text.nonBlank? := by rw [bodiesOf, trimmed]
    constructor
    · rw [add, new, TextSet.items_insertAll]
    · rw [brings, new, List.any_eq_true]
      simp only [decide_eq_true_eq]
  · intro rejoined
    obtain ⟨body, rfl⟩ := exists_written starts ends
    by_cases grouped : ∃ groups, written body = joined "" groups
    · obtain ⟨groups, same⟩ := grouped
      have filled : groups ≠ [] := by
        rintro rfl
        rw [same] at ends
        simp [joined] at ends
      refine .inl ⟨groups, same, ?_⟩
      rw [← join_written, ← split_joined_eq blank_empty filled, ← same]
    · have whole : split (written body) = [body] := by
        rw [split_of_notGroups (notGroups_written grouped), strip_written]
      refine .inr ⟨fun groups same => grouped ⟨groups, same⟩, ?_⟩
      simp [rejoined, whole]

/-- Two attributes with brackets in them, and a blank one. -/
def attributeGroups : List Group := [
  ⟨"Obsolete(\"use ]\")", " ", by decide +kernel, by decide⟩,
  ⟨" Values[0] ", "\t", by decide +kernel, by decide⟩,
  ⟨" ", "", by decide, by decide⟩]

theorem split_joined_attributeGroups :
    Text.isBlankText " " = true ∧ attributeGroups ≠ [] ∧
      split (joined " " attributeGroups) = ["Obsolete(\"use ]\")", " Values[0] ", " "] ∧
      (({} : Attributes).add (joined " " attributeGroups)).bodies.items =
        ["Obsolete(\"use ]\")", "Values[0]"] ∧
      String.join ((split "[A], [B]").map written) = "[A], [B]" := by
  have blank : Text.isBlankText " " = true := by decide
  have filled : attributeGroups ≠ [] := List.cons_ne_nil _ _
  obtain ⟨groups, stored⟩ := split_joined.1 " " attributeGroups blank filled
  refine ⟨blank, filled, groups, ((stored {}).1).trans (by decide +kernel), ?_⟩
  obtain ⟨groups, same, -⟩ | ⟨-, rejoined⟩ := split_joined.2 "[A], [B]" (by decide) (by decide)
  · have found := bodies?_of_groups (groups_joined blank_empty groups)
    have notFound : bodies? .outside "[A], [B]".toList = none := by decide +kernel
    rw [← same, notFound] at found
    cases found
  · exact rejoined

end Attributes

end CSharpGen

import CSharpGen.Declaration.Parameter
import CSharpGen.Proofs.Text.Cuts

/-!
# Names of parameters that have none

A parameter without a name is named after the last name of its type. Such a name is never a
reserved word, and it is empty when the last segment of the type does not start with a character
of an identifier (`Parameter.derived_name_of_type`).
-/

namespace CSharpGen

/-! ## The parts of a type -/

/-- A letter, a number or an underscore. -/
def isIdentifierChar (c : Char) : Bool := Text.isAlphanumeric c || c == '_'

/-- A type as it is cut: the prefix of the global namespace, the segments before the last with their
dots, the characters of an identifier with which the last segment starts, what follows them in it,
and the type arguments. -/
@[ext] structure TypeParts where
  root : List Char
  qualifier : List Char
  identifier : List Char
  suffix : List Char
  arguments : List Char

namespace TypeParts

variable {parts : TypeParts} {type : String}

/-- The last dotted segment before the type arguments. -/
def segment (parts : TypeParts) : List Char := parts.identifier ++ parts.suffix

/-- A type has these parts. Each of them ends where the next one has to start. -/
structure Of (parts : TypeParts) (type : String) : Prop where
  whole : parts.root ++ (parts.qualifier ++ parts.segment ++ parts.arguments) = type.toList
  root : parts.root = if Text.startsWith "global::" type then "global::".toList else []
  plain : '<' ∉ parts.qualifier ++ parts.segment
  arguments : ∀ c ∈ parts.arguments.head?, c = '<'
  qualifier : ∀ c ∈ parts.qualifier.getLast?, c = '.'
  undotted : '.' ∉ parts.segment
  identifier : ∀ c ∈ parts.identifier, isIdentifierChar c = true
  suffix : ∀ c ∈ parts.suffix.head?, isIdentifierChar c = false

/-- The parts of a type by the cuts that derive a name. -/
def ofType (type : String) : TypeParts :=
  let bare := Text.dropStart "global::" type
  let names := Text.beforeFirst '<' bare
  let segment := (Text.afterLast '.' names).toList
  { root := if Text.startsWith "global::" type then "global::".toList else []
    qualifier := Text.dropTailWhile (· != '.') names.toList
    identifier := segment.takeWhile isIdentifierChar
    suffix := segment.dropWhile isIdentifierChar
    arguments := bare.toList.dropWhile (· != '<') }

theorem root_append_iff {rest : List Char} :
    (if Text.startsWith "global::" type then "global::".toList else []) ++ rest = type.toList ↔
      rest = (Text.dropStart "global::" type).toList := by
  rcases Text.dropStart_cases "global::" type with ⟨starts, split⟩ | ⟨none, same⟩
  · rw [if_pos starts]
    conv_lhs => rw [split, String.toList_append, List.append_cancel_left_eq]
  · rw [if_neg (by simp [none]), same, List.nil_append]

/-- A type has the parts into which it is cut, and no others. -/
theorem of_iff : parts.Of type ↔ parts = ofType type := by
  -- the cuts are taken from the outside in, and put together again from the inside out
  let bare := Text.dropStart "global::" type
  let names := Text.beforeFirst '<' bare
  have cutArguments {run rest : List Char} :=
    @Text.run_iff (· != '<') run rest bare.toList
  have cutQualifier {run rest : List Char} :=
    @Text.run_at_end_iff (· != '.') run rest names.toList
  have cutSegment {run rest : List Char} :=
    @Text.run_iff isIdentifierChar run rest (Text.afterLast '.' names).toList
  simp only [bne_iff_ne, List.forall_mem_ne', bne_eq_false_iff_eq] at cutArguments cutQualifier
  have ofNames : names.toList = bare.toList.takeWhile (· != '<') := String.toList_ofList
  have ofSegment : (Text.afterLast '.' names).toList =
      (names.toList.reverse.takeWhile (· != '.')).reverse := String.toList_ofList
  rw [← ofNames] at cutArguments
  rw [← ofSegment] at cutQualifier
  simp only [TypeParts.ext_iff, ofType]
  constructor
  · rintro ⟨whole, root, plain, arguments, qualifier, undotted, identifier, suffix⟩
    rw [root, root_append_iff] at whole
    obtain ⟨front, arguments⟩ := cutArguments.mp ⟨whole, plain, arguments⟩
    obtain ⟨segment, qualifier⟩ := cutQualifier.mp ⟨front, undotted, qualifier⟩
    obtain ⟨identifier, suffix⟩ := cutSegment.mp ⟨segment, identifier, suffix⟩
    exact ⟨root, qualifier, identifier, suffix, arguments⟩
  · rintro ⟨root, qualifier, identifier, suffix, arguments⟩
    obtain ⟨segment, identifier, suffix⟩ := cutSegment.mpr ⟨identifier, suffix⟩
    obtain ⟨front, undotted, qualifier⟩ := cutQualifier.mpr ⟨segment, qualifier⟩
    obtain ⟨whole, plain, arguments⟩ := cutArguments.mpr ⟨front, arguments⟩
    refine ⟨?_, root, plain, arguments, qualifier, undotted, identifier, suffix⟩
    rw [root, root_append_iff]
    exact whole

end TypeParts

namespace Parameter

/-! ## Reserved words -/

theorem keywords_unescaped : ∀ word ∈ keywords, word.toList.head? ≠ some '@' := by decide +kernel

theorem escaped_not_keyword (name : String) : escaped name ∉ keywords := by
  rw [escaped]
  split
  · intro member
    exact keywords_unescaped _ member (by rw [String.toList_append]; rfl)
  · next free => simpa using free

/-! ## Derived names -/

theorem identifierOf_eq (type : String) : identifierOf type = (TypeParts.ofType type).identifier := by
  have same : isIdentifierChar = fun c => Text.isAlphanumeric c || c == '_' := funext fun _ => rfl
  simp only [identifierOf, TypeParts.ofType, same]

theorem lowerChar_ne_nil (c : Char) : Text.lowerChar c ≠ [] := by
  unfold Text.lowerChar
  split
  · exact List.cons_ne_nil _ _
  · split <;> exact List.cons_ne_nil _ _

theorem lowerHead_eq_nil_iff {cs : List Char} : Text.lowerHead cs = [] ↔ cs = [] := by
  cases cs with
  | nil => exact Iff.rfl
  | cons c rest => simp [Text.lowerHead, lowerChar_ne_nil]

theorem escaped_eq_empty_iff {name : String} : escaped name = "" ↔ name = "" := by
  rw [escaped]
  split
  · next word =>
    constructor
    · intro none
      rw [String.append_eq_empty_iff] at none
      exact absurd none.1 (by decide)
    · rintro rfl
      cases word
  · exact Iff.rfl

/-- A derived name is no reserved word. It is the start of the last segment of the type, as far as
the characters of an identifier go, with the first of them in lower case, and with an at sign before
it when that is a reserved word. There is no name when the segment starts with another character. -/
theorem derived_name_of_type (type : String) (default : Option String) :
    let name := (make type none default).name
    name ∉ keywords ∧
      ∃ parts : TypeParts, (∀ other : TypeParts, other.Of (Text.trim type) ↔ other = parts) ∧
        let lowered := String.ofList (Text.lowerHead parts.identifier)
        (name = if lowered ∈ keywords then "@" ++ lowered else lowered) ∧
        (name = "" ↔ parts.identifier = []) := by
  have derived : (make type none default).name =
      escaped (String.ofList (Text.lowerHead (TypeParts.ofType (Text.trim type)).identifier)) := by
    rw [make, Option.bind_none, Option.getD_none, derivedName, identifierOf_eq]
  refine ⟨?_, TypeParts.ofType (Text.trim type), fun _ => TypeParts.of_iff, ?_, ?_⟩
  · rw [derived]
    exact escaped_not_keyword _
  · simp only [derived, escaped, List.contains_iff_mem]
  · rw [derived, escaped_eq_empty_iff, String.ofList_eq_empty_iff, lowerHead_eq_nil_iff]

example : (make " global::Acme.Item.ÄEvent<int>[] " none none).name = "äEvent" := by decide +kernel

/-- The at sign of an escaped name, the parenthesis of a tuple and a blank after a dot are no
characters of an identifier. What is left of the last segment is nothing. -/
theorem derived_name_missing :
    Text.isBlankText "Acme.@event" = false ∧ (make "Acme.@event" none none).name = "" ∧
      render (make "Acme.@event" none none) = "Acme.@event " ∧
      (make "(int, string)" none none).name = "" ∧ (make "Acme. Widget" none none).name = "" := by
  decide +kernel

end Parameter

end CSharpGen

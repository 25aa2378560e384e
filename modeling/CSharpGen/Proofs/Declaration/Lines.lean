import CSharpGen.Proofs.Declaration.Wording

/-!
# Lines of declarations

The texts of which declarations are made are of one line when their wording is, and each line of a
declaration has a character that is neither blank nor a brace.
-/

namespace CSharpGen

variable {strict : Prop}

namespace Text

variable {s t : String}

theorem formsLine_of (h : OneLine s ∧ Solid s) : FormsLine strict s := ⟨h.1, fun _ => h.2⟩

/-- A part that is solid makes the whole solid. -/
theorem FormsLine.append (h : FormsLine strict s) (oneLine : OneLine t) :
    FormsLine strict (s ++ t) :=
  ⟨oneLine_append.mpr ⟨h.oneLine, oneLine⟩, fun demanded => solid_append.mpr (.inl (h.solid demanded))⟩

theorem FormsLine.prepend (h : FormsLine strict t) (oneLine : OneLine s) :
    FormsLine strict (s ++ t) :=
  ⟨oneLine_append.mpr ⟨oneLine, h.oneLine⟩, fun demanded => solid_append.mpr (.inr (h.solid demanded))⟩

theorem oneLine_commaSeparated {parts : List String} (all : ∀ part ∈ parts, OneLine part) :
    OneLine (", ".intercalate parts) := OneLine.intercalate (by decide) all

/-- Digits and a sign. -/
theorem oneLine_int (n : Int) : OneLine (toString n) := by
  have digits (m : Nat) : OneLine (toString m) := by
    intro member
    have isDigit := Nat.isDigit_of_mem_toDigits (b := 10) (n := m) (by decide) (by decide)
      (c := '\n') (by simpa [toString, Nat.repr] using member)
    simp at isDigit
  cases n with
  | ofNat m => exact digits m
  | negSucc m => exact oneLine_append.mpr ⟨by decide, digits (m + 1)⟩

end Text

open Text (OneLine Solid FormsLine formsLine_of oneLine_append)

namespace Wording

/-- What is asked of the wording of a declaration. -/
def AllMeet (strict : Prop) (ws : List Wording) : Prop :=
  ∀ w ∈ ws, w.Orderly ∧ (strict → w.Plain)

variable {w : Wording} {ws before after : List Wording}

theorem allMeet_cons :
    AllMeet strict (w :: ws) ↔ (w.Orderly ∧ (strict → w.Plain)) ∧ AllMeet strict ws :=
  List.forall_mem_cons

theorem allMeet_append :
    AllMeet strict (before ++ after) ↔ AllMeet strict before ∧ AllMeet strict after :=
  List.forall_mem_append

theorem allMeet_flatMap {α : Type} {items : List α} {own : α → List Wording} :
    AllMeet strict (items.flatMap own) ↔ ∀ item ∈ items, AllMeet strict (own item) := by
  simp only [AllMeet, List.mem_flatMap]
  exact ⟨fun h item member w isOwn => h w ⟨item, member, isOwn⟩,
    fun h w ⟨item, member, isOwn⟩ => h item member w isOwn⟩

/-- Where nothing has to be plain, orderly wordings do. -/
theorem allMeet_of_orderly (orderly : ∀ w ∈ ws, w.Orderly) : AllMeet False ws :=
  fun w member => ⟨orderly w member, False.elim⟩

/-- Texts are of one line. -/
theorem AllMeet.texts {texts : List String} (h : AllMeet strict (texts.map text)) :
    ∀ s ∈ texts, OneLine s := fun _ isText => (h _ (List.mem_map_of_mem isText)).1

theorem AllMeet.option {text : Option String} (h : AllMeet strict (text.toList.map Wording.text)) :
    ∀ s, text = some s → OneLine s := fun _ given => h.texts _ (by simp [given])

end Wording

open Wording (AllMeet)

/-! ## Words -/

namespace Declaration

/-- Words of one line make one line: a blank between two of them ends none. -/
theorem oneLine_words {parts : List String} (all : ∀ part ∈ parts, OneLine part) :
    OneLine (words parts) := by
  refine OneLine.intercalate (by decide) fun word isWord => ?_
  obtain ⟨part, isPart, written⟩ := List.mem_filterMap.mp isWord
  rw [(Text.nonBlank?_eq_some written).1]
  exact (all part isPart).trim

/-- One solid word makes the line solid. -/
theorem solid_words {parts : List String} {part : String} (member : part ∈ parts)
    (solid : Solid part) : Solid (words parts) := by
  refine Text.solid_intercalate " " (List.mem_filterMap.mpr ⟨part, member, ?_⟩) solid.trim
  rw [Text.nonBlank?, if_neg]
  exact Bool.eq_false_iff.mp solid.not_blank

/-- A line of words of which one is written for certain. -/
theorem formsLine_words {parts : List String} (all : ∀ part ∈ parts, OneLine part) (part : String)
    (member : part ∈ parts) (solid : strict → Solid part) : FormsLine strict (words parts) :=
  ⟨oneLine_words all, fun demanded => solid_words member (solid demanded)⟩

theorem oneLine_wordIf (condition : Bool) {word : String} (h : OneLine word) :
    OneLine (wordIf condition word) := by
  cases condition with
  | false => exact List.not_mem_nil
  | true => exact h

theorem oneLine_keywordsOf (access : Option Access) : OneLine (Access.keywordsOf access) := by
  rcases access with _ | access
  · decide
  · cases access <;> decide

theorem oneLine_returnType {type : Option String} (h : AllMeet strict (type.toList.map .text)) :
    OneLine (returnType type) := by
  unfold returnType
  cases given : type.bind Text.nonBlank? with
  | none => decide
  | some written =>
    obtain ⟨type, rfl, trimmed⟩ := Option.bind_eq_some_iff.mp given
    obtain ⟨rfl, -⟩ := Text.nonBlank?_eq_some trimmed
    exact (h.option type rfl).trim

/-- A line for each attribute. -/
theorem formsLine_written {body : String} (h : OneLine body) :
    FormsLine strict (Attributes.written body) :=
  ((formsLine_of (by decide)).append h).append (by decide)

end Declaration

/-- Every attribute forms a line of its own. -/
theorem Attributes.formsLine_lines {a : Attributes} (h : AllMeet strict a.wording) :
    ∀ line ∈ a.lines, FormsLine strict line :=
  List.forall_mem_map.mpr fun body isBody => Declaration.formsLine_written (h.texts body isBody)

theorem Attributes.formsLine_sortedLines {a : Attributes} (h : AllMeet strict a.wording) :
    ∀ line ∈ a.sortedLines, FormsLine strict line :=
  List.forall_mem_map.mpr fun body isBody =>
    Declaration.formsLine_written (h.texts body (Text.mem_ascending.mp isBody))

/-- The lines of a comment, of which each starts with slashes. -/
theorem Documentation.formsLine_linesWhere {d : Documentation} (h : AllMeet strict d.wording)
    (known : String → Bool) : ∀ line ∈ d.linesWhere known, FormsLine strict line := by
  cases d with
  | empty => exact List.forall_mem_nil _
  | inherited source =>
    cases source with
    | none => exact List.forall_mem_singleton.mpr (formsLine_of (by decide))
    | some source =>
      have one : OneLine source := h.option source rfl
      exact List.forall_mem_singleton.mpr (((formsLine_of (by decide)).append one).append (by decide))
  | summary text parameters =>
    obtain ⟨-, entries⟩ := Wording.allMeet_append.mp h
    rw [Documentation.linesWhere, List.forall_mem_append]
    constructor
    · cases text with
      | none => exact List.forall_mem_nil _
      | some text =>
        refine List.forall_mem_append.mpr ⟨List.forall_mem_cons.mpr ⟨formsLine_of (by decide), ?_⟩,
          List.forall_mem_singleton.mpr (formsLine_of (by decide))⟩
        exact List.forall_mem_map.mpr fun line isLine =>
          (formsLine_of (by decide)).append (Text.oneLine_of_mem_lines isLine).trim
    · refine List.forall_mem_map.mpr fun (name, doc) member => ?_
      have both := Wording.allMeet_flatMap.mp entries _ (List.mem_filter.mp member).1
      obtain ⟨ofName, ofDoc⟩ := Wording.allMeet_cons.mp both
      have oneName : OneLine name := ofName.1
      have oneDoc : OneLine doc := (Wording.allMeet_cons.mp ofDoc).1.1
      exact ((((formsLine_of (by decide)).append oneName).append (by decide)).append oneDoc).append
        (by decide)

/-! ## Parameters -/

/-- A parameter is one line, its default included. -/
theorem Parameter.oneLine_render {p : Parameter} (h : AllMeet strict p.wording) :
    OneLine p.render := by
  obtain ⟨ofType, h⟩ := Wording.allMeet_cons.mp h
  obtain ⟨ofName, default⟩ := Wording.allMeet_cons.mp h
  have declared : OneLine s!"{p.type} {p.name}" :=
    oneLine_append.mpr ⟨oneLine_append.mpr ⟨ofType.1, by decide⟩, ofName.1⟩
  unfold render
  cases given : p.default with
  | none => exact declared
  | some value =>
    have value := default.option value given
    exact oneLine_append.mpr ⟨oneLine_append.mpr ⟨declared, by decide⟩, value⟩

theorem Parameters.oneLine_render {ps : List Parameter}
    (h : AllMeet strict (ps.flatMap Parameter.wording)) : OneLine (Parameters.render ps) :=
  Text.oneLine_commaSeparated (List.forall_mem_map.mpr fun p member =>
    Parameter.oneLine_render (Wording.allMeet_flatMap.mp h p member))

theorem GenericParameter.oneLine_name {p : GenericParameter} (h : AllMeet strict p.wording) :
    OneLine p.name := (Wording.allMeet_cons.mp (Wording.allMeet_append.mp h).1).1.1

/-- A where clause names its parameter, so it is never blank. -/
theorem GenericParameter.formsLine_whereClause {p : GenericParameter}
    (h : AllMeet strict p.wording) : ∀ clause ∈ p.whereClause?, FormsLine strict clause := by
  intro clause written
  obtain ⟨head, others⟩ := Wording.allMeet_append.mp h
  obtain ⟨ofName, primary⟩ := Wording.allMeet_cons.mp head
  have constraints : ∀ c ∈ p.written, OneLine c := by
    refine List.forall_mem_append.mpr ⟨List.forall_mem_append.mpr ⟨primary.texts, others.texts⟩, ?_⟩
    split
    · exact List.forall_mem_singleton.mpr (by decide)
    · exact List.forall_mem_nil _
  unfold whereClause? at written
  split at written
  · cases written
  · obtain rfl := Option.some.inj written
    exact (((formsLine_of (by decide)).append ofName.1).append (by decide)).append
      (Text.oneLine_commaSeparated constraints)

namespace Generics

variable {g : Generics}

theorem oneLine_suffix (h : AllMeet strict g.wording) : OneLine g.suffix := by
  unfold suffix
  split
  · decide
  · have names : ∀ name ∈ g.names, OneLine name := List.forall_mem_map.mpr fun p member =>
      p.oneLine_name (Wording.allMeet_flatMap.mp h p member)
    exact oneLine_append.mpr
      ⟨oneLine_append.mpr ⟨by decide, Text.oneLine_commaSeparated names⟩, by decide⟩

/-- Every where clause of a declaration forms a line of its own. -/
theorem formsLine_whereClauses (h : AllMeet strict g.wording) :
    ∀ clause ∈ g.whereClauses, FormsLine strict clause := by
  intro clause isClause
  obtain ⟨p, member, written⟩ := List.mem_filterMap.mp isClause
  exact p.formsLine_whereClause (Wording.allMeet_flatMap.mp h p member) clause written

/-- The name of a declaration with its generic parameters and its parameters. -/
theorem formsLine_signature (h : AllMeet strict g.wording) {name : String} (one : OneLine name)
    {ps : List Parameter} (parameters : AllMeet strict (ps.flatMap Parameter.wording)) :
    FormsLine strict s!"{name}{g.suffix}({Parameters.render ps})" := by
  have mark : FormsLine strict (name ++ g.suffix ++ "(") :=
    (formsLine_of (by decide)).prepend (oneLine_append.mpr ⟨one, oneLine_suffix h⟩)
  exact (mark.append (Parameters.oneLine_render parameters)).append (by decide)

end Generics

end CSharpGen

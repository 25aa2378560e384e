import CSharpGen.Edit.Member
import CSharpGen.Proofs.Declaration.Members
import CSharpGen.Proofs.Declaration.Outer
import CSharpGen.Proofs.Script.Lays
import CSharpGen.Proofs.Script.Places

/-!
# Forwarded arguments

The call of another constructor has the names of the pairs that were given last, in their order.
A pair with a type has a parameter of that type and name, which no later edit takes away. A pair
without a type has none, but its name is an argument all the same (`Constructor.forwards_last`).
-/

namespace CSharpGen

/-! ## Parameter lists -/

namespace Parameters

variable (ps : List Parameter)

theorem subset_insert (p : Parameter) (index : Option Nat) : ps ⊆ insert ps p index := by
  intro q member
  unfold insert
  split
  · exact member
  · cases index with
    | none => exact List.mem_append_left [p] member
    | some i =>
      dsimp only
      split
      · next bound => exact (List.mem_insertIdx bound).mpr (.inr member)
      · exact List.mem_append_left [p] member

/-- A parameter with a type is in the list once it was added, unless one of the same type and name
was there before. -/
theorem exists_mem_insert {p : Parameter} (typed : p.type.isEmpty = false) :
    ∃ q ∈ insert ps p none, q.type = p.type ∧ q.name = p.name := by
  unfold insert
  split
  · next skipped =>
    rw [typed, Bool.false_or] at skipped
    obtain ⟨q, member, same⟩ := List.any_eq_true.mp skipped
    rw [Parameter.sameAs, Bool.and_eq_true, beq_iff_eq, beq_iff_eq] at same
    exact ⟨q, member, same.1.symm, same.2.symm⟩
  · exact ⟨p, List.mem_append_right ps (List.mem_singleton_self p), rfl, rfl⟩

variable {ps}

theorem subset_foldl_insert (more : List Parameter) : ps ⊆ more.foldl (insert · · none) ps := by
  induction more generalizing ps with
  | nil => exact List.Subset.refl ps
  | cons p rest ih => exact List.Subset.trans (subset_insert ps p none) ih

theorem exists_mem_foldl_insert {more : List Parameter} {p : Parameter} (member : p ∈ more)
    (typed : p.type.isEmpty = false) :
    ∃ q ∈ more.foldl (insert · · none) ps, q.type = p.type ∧ q.name = p.name := by
  induction more generalizing ps with
  | nil => cases member
  | cons first rest ih =>
    rcases List.mem_cons.mp member with rfl | later
    · obtain ⟨q, added, same⟩ := exists_mem_insert ps typed
      exact ⟨q, subset_foldl_insert rest added, same⟩
    · exact ih later

end Parameters

/-! ## Edits -/

/-- The call of another constructor that an edit asks for. -/
def ConstructorEdit.call? : ConstructorEdit → Option (InitializerTarget × List (String × String))
  | .forward target pairs => some (target, pairs)
  | _ => none

namespace Constructor

/-- The argument for a type and a name. A blank name is derived from the type. -/
def argument (pair : String × String) : String := (Parameter.make pair.1 (some pair.2) none).name

/-- The constructor calls another one as it was asked to, and has the parameters for the arguments
whose types are not blank. -/
structure Forwards (call? : Option (InitializerTarget × List (String × String)))
    (c : Constructor) : Prop where
  initializer : c.initializer =
    call?.map fun (target, pairs) => { target, arguments := pairs.map argument }
  declared : ∀ target pairs, call? = some (target, pairs) → ∀ pair ∈ pairs,
    Text.isBlankText pair.1 = false →
      ∃ p ∈ c.parameters, p.type = Text.trim pair.1 ∧ p.name = argument pair

variable {call? : Option (InitializerTarget × List (String × String))} {c new : Constructor}

theorem Forwards.congr (h : c.Forwards call?) (initializer : new.initializer = c.initializer)
    (parameters : c.parameters ⊆ new.parameters) : new.Forwards call? where
  initializer := initializer.trans h.initializer
  declared target pairs asked pair member typed := by
    obtain ⟨p, present, same⟩ := h.declared target pairs asked pair member typed
    exact ⟨p, parameters present, same⟩

theorem forwards_forward (c : Constructor) (target : InitializerTarget)
    (pairs : List (String × String)) : (c.forward target pairs).Forwards (some (target, pairs)) where
  initializer := by
    simp [forward, Parameters.names, Function.comp_def, argument]
  declared target pairs asked pair member typed := by
    cases asked
    exact Parameters.exists_mem_foldl_insert (List.mem_map_of_mem member) typed

theorem Forwards.perform (h : c.Forwards call?) (edit : ConstructorEdit) :
    (c.perform edit).value.Forwards (edit.call?.or call?) := by
  cases edit with
  | forward target pairs => exact c.forwards_forward target pairs
  | parameter edit =>
    exact h.congr rfl (Parameters.subset_insert c.parameters edit.parameter edit.index)
  | documentParameter name doc =>
    rw [Constructor.perform]
    cases documented : c.documentParameter name doc with
    | error => exact h
    | ok new =>
      obtain ⟨documentation, -, same⟩ := bind_eq_ok.mp documented
      cases same
      exact h.congr rfl (List.Subset.refl _)
  | _ =>
    simp only [Constructor.perform, Edited.done, Edited.registering]
    exact h.congr rfl (List.Subset.refl _)

theorem Forwards.performAll (h : c.Forwards call?) (edits : List ConstructorEdit) :
    (c.performAll edits).value.Forwards ((edits.filterMap (·.call?)).getLast?.or call?) := by
  induction edits generalizing c call? with
  | nil => exact h
  | cons edit rest ih =>
    have later := ih (h.perform edit)
    rw [← Option.or_assoc] at later
    have last : ((edit :: rest).filterMap (·.call?)).getLast? =
        (rest.filterMap (·.call?)).getLast?.or edit.call? := by
      cases asked : edit.call? with
      | none => rw [List.filterMap_cons_none asked, Option.or_none]
      | some call => rw [List.filterMap_cons_some asked, List.getLast?_cons, Option.or_some]
    rw [last]
    exact later

end Constructor

/-! ## The text of a constructor -/

namespace Text

/-- What is trimmed from the start of a text stands before a part that starts and ends with other
characters than blanks. -/
theorem exists_trim_append (s : String) {t : String} {c : Char} {rest : List Char}
    (first : t.toList = c :: rest) (solid : isBlank c = false) (ends : EndsSolid t) :
    ∃ front, trim (s ++ t) = front ++ t := by
  have whole : t.toList.dropWhile isBlank = t.toList := by
    rw [first, List.dropWhile_cons_of_neg (by simp [solid])]
  have kept : (s ++ t).toList.dropWhile isBlank = s.toList.dropWhile isBlank ++ t.toList := by
    rw [String.toList_append, List.dropWhile_append]
    split
    · next none => rw [whole, List.isEmpty_iff.mp none, List.nil_append]
    · rfl
  refine ⟨trimStart s, ?_⟩
  rw [← (endsSolid_append (trimStart s) ends).trimEnd_eq, trim, kept, trimEnd, trimStart,
    String.toList_append, String.toList_ofList]

end Text

theorem Initializer.endsSolid_line (i : Initializer) : Text.EndsSolid i.line := by
  have close (front : String) : Text.EndsSolid (front ++ ")") :=
    Text.endsSolid_append front ⟨')', rfl, by decide⟩
  rw [line]
  cases i.target with
  | base => exact close (": base(" ++ ", ".intercalate i.arguments)
  | this => exact close (": this(" ++ ", ".intercalate i.arguments)

namespace Constructor

/-- The declaration ends with the parameter list. -/
theorem exists_declaration (c : Constructor) :
    ∃ head, c.declaration = head ++ ("(" ++ Parameters.render c.parameters ++ ")") := by
  let list := "(" ++ Parameters.render c.parameters ++ ")"
  have ends : Text.EndsSolid list := Text.endsSolid_append _ ⟨')', rfl, by decide⟩
  have starts : list.toList = '(' :: (Parameters.render c.parameters ++ ")").toList := by
    simp [list]
  obtain ⟨front, trimmed⟩ := Text.exists_trim_append c.className starts (by decide) ends
  have filled : (Text.trim (c.className ++ list)).isEmpty = false :=
    (Text.endsSolid_append c.className ends).not_blank
  have signature : Text.nonBlank? (c.className ++ list) = some (front ++ list) := by
    rw [Text.nonBlank?, filled, trimmed]
    rfl
  have words : c.declaration =
      Declaration.words [Access.keywordsOf c.access, c.className ++ list] := by
    simp only [declaration, list, toString, String.append_assoc]
  rw [words, Declaration.words]
  cases keyword : Text.nonBlank? (Access.keywordsOf c.access) with
  | none =>
    rw [List.filterMap_cons_none keyword, List.filterMap_cons_some signature]
    exact ⟨front, String.intercalate_singleton⟩
  | some word =>
    rw [List.filterMap_cons_some keyword, List.filterMap_cons_some signature]
    refine ⟨word ++ " " ++ front, ?_⟩
    rw [List.filterMap_nil, String.intercalate_cons_cons, String.intercalate_singleton]
    simp only [list, String.append_assoc]

/-- The lines of the head, indented for the place of a writer. -/
def headText (c : Constructor) (w : Writer) : String :=
  w.indentation ++ c.declaration ++ "\n" ++
    String.join (c.initializer.toList.map (w.increaseIndent.indentation ++ ·.line ++ "\n")) ++
    (w.indentation ++ "\x7b" ++ "\n")

/-- The head of a constructor stands in the text that it is written to, whatever its body does. -/
theorem headText_stands (c : Constructor) (r : Run) : ∃ before rest,
    (Step.runAll c.script r).writer.body = before ++ c.headText r.writer ++ rest := by
  let lines := c.documentation.linesFor (Parameters.names c.parameters) ++
    Declaration.warningLines c.warning ++ c.attributes.lines
  let constraints := c.initializer.toList.map Initializer.line
  have script : c.script =
      Step.lines lines ++ [.block c.declaration constraints (c.body.toList.map .isolated)] := by
    rw [Constructor.script, Declaration.warning_eq]
    simp only [lines, constraints, Step.lines, List.map_append]
  obtain ⟨n, laid⟩ := (Script.lays_lines lines).result r
  obtain ⟨before, rest, stands⟩ := Step.opening_stands c.declaration constraints
    (c.body.toList.map .isolated) (Step.runAll (Step.lines lines) r)
  have ends : Text.EndsSolid c.declaration := by
    obtain ⟨head, same⟩ := c.exists_declaration
    rw [same]
    exact Text.endsSolid_append head (Text.endsSolid_append _ ⟨')', rfl, by decide⟩)
  have clauses : ∀ text ∈ constraints, Text.EndsSolid text :=
    List.forall_mem_map.mpr fun i _ => i.endsSolid_line
  have head : (Step.runAll (Step.lines lines) r).writer.opening c.declaration constraints =
      c.headText r.writer := by
    rw [Writer.opening_of_endsSolid _ ends clauses, laid, List.map_map]
    rfl
  rw [script, Step.runAll_append]
  exact ⟨before, rest, head ▸ stands⟩

/-- The call of another constructor is the last one that was asked for, with the names of its pairs
as arguments in their order. Every pair whose type is not blank has a parameter of its type and
name in the list, whatever was done before or after. The list and the call stand in the text as one
head. -/
theorem forwards_last (className : String) (edits : List ConstructorEdit) :
    let c := (performAll { className } edits).value
    c.Forwards (edits.filterMap (·.call?)).getLast? ∧
      ∀ r, ∃ before rest, (Step.runAll c.script r).writer.body =
        before ++ c.headText r.writer ++ rest := by
  intro c
  have start : Forwards none { className } := ⟨rfl, nofun⟩
  have kept := start.performAll edits
  rw [Option.or_none] at kept
  exact ⟨kept, c.headText_stands⟩

/-- Two calls with parameters before, between and after them. The last call names one of its two
parameters after its type, and the other one was added before. -/
def forwardingEdits : List ConstructorEdit := [
  .parameter (.addNamed "string" "name"), .forward .this [("int", "size")],
  .forward .base [("Shop.Logger", " "), ("string", "name")],
  .parameter (.insert "bool" (some "open") none (some 0))]

theorem forwards_last_widget :
    let c := (performAll { className := "Widget" } forwardingEdits).value
    c.initializer = some { target := .base, arguments := ["logger", "name"] } ∧
      (∃ p ∈ c.parameters, p.type = "Shop.Logger" ∧ p.name = "logger") ∧
      (∃ p ∈ c.parameters, p.type = "string" ∧ p.name = "name") ∧
      ∃ before rest, (Step.runAll c.script { writer := .empty .tabs }).writer.body = before ++
        ("Widget(bool open, string name, int size, " ++
          "Shop.Logger logger)\n\t: base(logger, name)\n\x7b\n") ++ rest := by
  intro c
  obtain ⟨forwards, stands⟩ := forwards_last "Widget" forwardingEdits
  have asked : (forwardingEdits.filterMap (·.call?)).getLast? =
      some (.base, [("Shop.Logger", " "), ("string", "name")]) := rfl
  have derived : argument ("Shop.Logger", " ") = "logger" := by decide +kernel
  have given : argument ("string", "name") = "name" := by decide +kernel
  have types : Text.trim "Shop.Logger" = "Shop.Logger" ∧ Text.trim "string" = "string" := by
    decide +kernel
  have initializer := forwards.initializer
  simp only [asked, Option.map_some, List.map_cons, List.map_nil, derived, given] at initializer
  obtain ⟨first, others⟩ := List.forall_mem_cons.mp (forwards.declared _ _ asked)
  have logger := first (by decide +kernel)
  have name := List.forall_mem_singleton.mp others (by decide +kernel)
  rw [types.1, derived] at logger
  rw [types.2, given] at name
  have head : c.headText (.empty .tabs) = "Widget(bool open, string name, int size, " ++
      "Shop.Logger logger)\n\t: base(logger, name)\n\x7b\n" := by
    decide +kernel
  exact ⟨initializer, logger, name, head ▸ stands { writer := .empty .tabs }⟩

/-- A pair without a type is an argument without a parameter. -/
theorem forward_blankType :
    let c := (performAll { className := "Stack" } [.forward .base [("", "x")]]).value
    c.initializer = some { target := .base, arguments := ["x"] } ∧
      Parameters.names c.parameters = [] ∧
      Script.render .spaces c.script = "Stack()\n    : base(x)\n\x7b\n\x7d\n" := by
  decide +kernel

end Constructor

end CSharpGen

import CSharpGen.Declaration.Generics
import CSharpGen.Proofs.Declaration.Refusals
import CSharpGen.Proofs.Text.OneLine
import CSharpGen.Text.TextSet

/-!
# Lists of generic parameters

A list of generic parameters is put together by calls, of which those with a blank or a taken name
are refused. It holds the accepted calls in order, and the clause of a parameter depends on the
trimmed texts of its constraints alone: the last primary one, then the others by first mention, then
`new()` (`Generics.parameters_of_run`).
-/

namespace CSharpGen

/-! ## Clauses -/

/-- The trimmed text that a constraint stands for. -/
def Constraint.given : Constraint → String
  | .text words => Text.trim words
  | .reference => "class"
  | .valueType => "struct"
  | .constructible => "new()"

namespace GenericParameter

/-- The primary constraint among several: the one that was given last. -/
def lastPrimary? (given : List String) : Option String :=
  (given.filter primaryConstraints.contains).getLast?

/-- Whether a constraint is neither blank nor primary nor `new()`. -/
def isOther (text : String) : Bool :=
  text != "" && text != "new()" && !primaryConstraints.contains text

/-- The constraints of a clause, in the order in which it lists them. -/
def listed (given : List String) : List String :=
  (lastPrimary? given).toList ++ (given.filter isOther).eraseDups ++
    if "new()" ∈ given then ["new()"] else []

/-- The parameter that was given constraints with these texts. -/
def ofGiven (name : String) (given : List String) : GenericParameter where
  name
  primary := lastPrimary? given
  others := (given.filter isOther).eraseDups
  constructible := decide ("new()" ∈ given)

variable {name text : String} {given : List String}

theorem written_ofGiven (name : String) (given : List String) :
    (ofGiven name given).written = listed given := by
  simp only [written, ofGiven, listed, decide_eq_true_eq]

/-- A primary constraint takes the place of the one before it, and any other leaves it. -/
theorem lastPrimary?_concat (given : List String) (t : String) : lastPrimary? (given ++ [t]) =
    if t ∈ primaryConstraints then some t else lastPrimary? given := by
  rw [lastPrimary?, List.filter_append]
  split
  · next primary =>
    rw [List.filter_cons_of_pos (by simpa using primary), List.filter_nil, List.getLast?_concat]
  · next other =>
    rw [List.filter_cons_of_neg (by simpa using other), List.filter_nil, List.append_nil,
      lastPrimary?]

/-- A constraint of its own is listed behind the others unless it was given before. -/
theorem others_concat (given : List String) (t : String) :
    ((given ++ [t]).filter isOther).eraseDups =
      if isOther t = true ∧ t ∉ given then (given.filter isOther).eraseDups ++ [t]
      else (given.filter isOther).eraseDups := by
  rw [List.filter_append]
  by_cases other : isOther t = true
  · have member : t ∈ given.filter isOther ↔ t ∈ given := by simp [other]
    rw [List.filter_cons_of_pos other, List.filter_nil, TextSet.eraseDups_concat]
    simp only [member, other, true_and, ite_not]
  · rw [List.filter_cons_of_neg other, List.filter_nil, List.append_nil, if_neg (other ·.1)]

/-- A constraint counts by its trimmed text. -/
theorem constrainBy_ofGiven (name : String) (given : List String) (text : String) :
    (ofGiven name given).constrainBy text = ofGiven name (given ++ [Text.trim text]) := by
  unfold constrainBy
  generalize Text.trim text = t
  unfold ofGiven
  rw [lastPrimary?_concat, others_concat]
  by_cases new : t = "new()"
  · subst new
    simp [isOther, primaryConstraints]
  · have others : "new()" ≠ t := Ne.symm new
    by_cases primary : t ∈ primaryConstraints
    · simp [isOther, new, primary, others]
    · by_cases blank : t = ""
      · subst blank
        simp [isOther, primaryConstraints]
      · by_cases known : t ∈ given
        · simp [isOther, new, primary, blank, known, others]
        · simp [isOther, new, primary, blank, known, others]

/-- Constraining a parameter once more is giving it one text more. -/
theorem constrain_ofGiven (name : String) (given : List String) (c : Constraint) :
    (ofGiven name given).constrain c = ofGiven name (given ++ [c.given]) := by
  have keyword (word : String) (trimmed : Text.trim word = word) :
      (ofGiven name given).constrainBy word = ofGiven name (given ++ [word]) := by
    have counted := constrainBy_ofGiven name given word
    rwa [trimmed] at counted
  cases c with
  | text words => exact constrainBy_ofGiven name given words
  | reference => exact keyword "class" (by decide)
  | valueType => exact keyword "struct" (by decide)
  | constructible => exact keyword "new()" (by decide)

theorem foldl_constrain (name : String) (constraints : List Constraint) :
    constraints.foldl constrain { name } = ofGiven name (constraints.map Constraint.given) := by
  induction constraints using List.reverseRecOn with
  | nil => rfl
  | append_singleton before c ih =>
    rw [List.foldl_append, List.map_append, ih]
    exact constrain_ofGiven name _ c

/-- Every constraint is listed unless it is blank. -/
theorem listed_eq_nil_iff : listed given = [] ↔ ∀ text ∈ given, text = "" := by
  have dups (texts : List String) : texts.eraseDups = [] ↔ texts = [] := by
    simp only [List.eq_nil_iff_forall_not_mem, List.mem_eraseDups]
  have last : (if "new()" ∈ given then ["new()"] else []) = [] ↔ "new()" ∉ given := by
    split <;> simp_all
  simp only [listed, List.append_eq_nil_iff, Option.toList_eq_nil_iff, lastPrimary?, dups, last,
    List.getLast?_eq_none_iff, List.filter_eq_nil_iff, List.contains_iff_mem]
  constructor
  · rintro ⟨⟨primary, other⟩, new⟩ t member
    have notNew : t ≠ "new()" := fun same => new (same ▸ member)
    have isBlank := other t member
    simpa [isOther, primary t member, notNew] using isBlank
  · intro blank
    refine ⟨⟨fun t member => ?_, fun t member => ?_⟩, fun member => ?_⟩
    · rw [blank t member]
      decide
    · rw [blank t member]
      decide
    · exact absurd (blank _ member) (by decide)

end GenericParameter

/-! ## Calls -/

/-- A call that adds a generic parameter to the declaration `owner`. -/
structure GenericCall where
  owner : String
  name : String
  constraints : List Constraint
  deriving DecidableEq, Repr

namespace GenericCall

/-- The name without the blanks around it. -/
def key (c : GenericCall) : String := Text.trim c.name

/-- The trimmed texts of the constraints. -/
def given (c : GenericCall) : List String := c.constraints.map Constraint.given

/-- Whether one of the constraints is not blank. -/
def isConstrained (c : GenericCall) : Bool := c.given.any (· != "")

def clause (c : GenericCall) : String :=
  let constraints := ", ".intercalate (GenericParameter.listed c.given)
  s!"where {c.key} : {constraints}"

/-- The parameter that the call adds. -/
def parameter (c : GenericCall) : GenericParameter := .ofGiven c.key c.given

/-- A parameter has a clause exactly when one of its constraints is not blank. -/
theorem whereClause?_parameter (c : GenericCall) :
    c.parameter.whereClause? = if c.isConstrained then some c.clause else none := by
  have blank : (GenericParameter.listed c.given).isEmpty = !c.isConstrained := by
    rw [Bool.eq_iff_iff, List.isEmpty_iff, GenericParameter.listed_eq_nil_iff]
    simp [isConstrained]
  rw [GenericParameter.whereClause?, parameter, GenericParameter.written_ofGiven, blank]
  cases c.isConstrained <;> rfl

end GenericCall

namespace Generics

/-- The answer to a call. -/
def answer (g : Generics) (c : GenericCall) : Except Error Generics :=
  g.add c.owner c.name c.constraints

/-- The list after several calls. -/
def run (calls : List GenericCall) : Generics := Refusable.run answer {} calls

/-- The calls that are accepted, in order. -/
def accepted (calls : List GenericCall) : List GenericCall := Refusable.accepted answer {} calls

/-- A blank name is refused, then a name that the list has; every other call appends its parameter.
-/
theorem answer_eq (g : Generics) (c : GenericCall) : g.answer c =
    if c.key = "" then .error (.emptyIdentifier s!"generic parameter of '{c.owner}'")
    else if c.key ∈ g.names then .error (.duplicateGeneric c.owner c.key)
    else .ok ⟨g.parameters ++ [c.parameter]⟩ := by
  have new : c.constraints.foldl GenericParameter.constrain { name := c.key } = c.parameter :=
    GenericParameter.foldl_constrain c.key c.constraints
  have key : Text.trim c.name = c.key := rfl
  simp only [answer, add, key, new, String.isEmpty_iff, List.contains_iff_mem]

theorem of_answer_ok {g new : Generics} {c : GenericCall} (ok : g.answer c = .ok new) :
    c.key ≠ "" ∧ c.key ∉ g.names ∧ new = ⟨g.parameters ++ [c.parameter]⟩ := by
  rw [answer_eq] at ok
  split at ok
  · cases ok
  · next named =>
    split at ok
    · cases ok
    · next free => exact ⟨named, free, (Except.ok.inj ok).symm⟩

theorem run_concat_ok {calls : List GenericCall} {c : GenericCall} {new : Generics}
    (ok : (run calls).answer c = .ok new) : run (calls ++ [c]) = new := Refusable.run_concat_ok ok

theorem run_concat_error {calls : List GenericCall} {c : GenericCall} {e : Error}
    (refused : (run calls).answer c = .error e) : run (calls ++ [c]) = run calls :=
  Refusable.run_concat_error refused

/-- The list holds what the accepted calls add. -/
theorem run_eq (calls : List GenericCall) :
    run calls = ⟨(accepted calls).map GenericCall.parameter⟩ := by
  induction calls using List.reverseRecOn with
  | nil => rfl
  | append_singleton before c ih =>
    cases result : (run before).answer c with
    | error e =>
      rw [run_concat_error result, accepted, Refusable.accepted_concat_error result]
      exact ih
    | ok new =>
      rw [run_concat_ok result, (of_answer_ok result).2.2, accepted,
        Refusable.accepted_concat_ok result, List.map_append, ih]
      rfl

/-- The names of a list are those of the accepted calls, in their order. -/
theorem names_run (calls : List GenericCall) :
    (run calls).names = (accepted calls).map GenericCall.key := by
  rw [run_eq, names, List.map_map]
  rfl

/-- Accepted names are distinct, and none of them is empty. -/
theorem names_distinct (calls : List GenericCall) :
    (run calls).names.Nodup ∧ "" ∉ (run calls).names := by
  induction calls using List.reverseRecOn with
  | nil => exact ⟨List.nodup_nil, List.not_mem_nil⟩
  | append_singleton before c ih =>
    obtain ⟨distinct, filled⟩ := ih
    cases result : (run before).answer c with
    | error e =>
      rw [run_concat_error result]
      exact ⟨distinct, filled⟩
    | ok new =>
      obtain ⟨named, free, rfl⟩ := of_answer_ok result
      have names : names ⟨(run before).parameters ++ [c.parameter]⟩ =
          (run before).names ++ [c.key] := List.map_append
      rw [run_concat_ok result, names]
      constructor
      · refine List.nodup_append.mpr ⟨distinct, List.pairwise_singleton .., ?_⟩
        rintro a member b isNew rfl
        exact free (List.mem_singleton.mp isNew ▸ member)
      · rw [List.mem_append, List.mem_singleton]
        exact not_or.mpr ⟨filled, named.symm⟩

/-- The suffix lists the accepted names, and without any there is none. -/
theorem suffix_run (calls : List GenericCall) : (run calls).suffix =
    if accepted calls = [] then ""
    else "<" ++ ", ".intercalate ((accepted calls).map GenericCall.key) ++ ">" := by
  have none : (run calls).parameters.isEmpty = true ↔ accepted calls = [] := by
    rw [run_eq, List.isEmpty_iff, List.map_eq_nil_iff]
  simp only [suffix, none, names_run]
  rfl

/-- The clauses are those of the accepted calls that constrain their parameter, in their order. -/
theorem whereClauses_run (calls : List GenericCall) : (run calls).whereClauses =
    ((accepted calls).filter GenericCall.isConstrained).map GenericCall.clause := by
  rw [whereClauses, run_eq, List.filterMap_map]
  generalize accepted calls = kept
  induction kept with
  | nil => rfl
  | cons c rest ih =>
    rw [List.filterMap_cons, List.filter_cons, Function.comp, c.whereClause?_parameter, ih]
    cases c.isConstrained <;> rfl

/-- A call is refused when its trimmed name is empty, or is the name of a call that was accepted
before, and then the list is as before. The list holds the accepted calls in order, with trimmed and
distinct names that are not empty. It has one clause for each of them that was given a constraint
that is not blank. -/
theorem parameters_of_run (calls : List GenericCall) :
    (∀ c, (run calls).answer c =
        if c.key = "" then .error (.emptyIdentifier s!"generic parameter of '{c.owner}'")
        else if c.key ∈ (accepted calls).map GenericCall.key then
          .error (.duplicateGeneric c.owner c.key)
        else .ok (run (calls ++ [c]))) ∧
    (∀ c e, (run calls).answer c = .error e → run (calls ++ [c]) = run calls) ∧
    (accepted calls).Sublist calls ∧
    (run calls).names = (accepted calls).map GenericCall.key ∧ (run calls).names.Nodup ∧
    (∀ name ∈ (run calls).names, name ≠ "" ∧ Text.trim name = name) ∧
    (run calls).suffix = (if accepted calls = [] then ""
      else "<" ++ ", ".intercalate ((accepted calls).map GenericCall.key) ++ ">") ∧
    (run calls).whereClauses =
      ((accepted calls).filter GenericCall.isConstrained).map GenericCall.clause := by
  obtain ⟨distinct, filled⟩ := names_distinct calls
  refine ⟨fun c => ?_, fun c e refused => run_concat_error refused,
    Refusable.accepted_sublist _ _, names_run calls, distinct, fun name member => ⟨?_, ?_⟩,
    suffix_run calls, whereClauses_run calls⟩
  · have result := answer_eq (run calls) c
    rw [← names_run, result]
    split
    · rfl
    · split
      · rfl
      · next named free =>
        rw [if_neg named, if_neg free] at result
        rw [run_concat_ok result]
  · exact fun empty => filled (empty ▸ member)
  · rw [names_run] at member
    obtain ⟨c, -, rfl⟩ := List.mem_map.mp member
    exact Text.trim_idem c.name

example : (run [
    ⟨"Stack", " T ", [.constructible, .text " IKey", .reference, .text "IKey"]⟩,
    ⟨"Stack", "T", [.valueType]⟩,
    ⟨"Stack", "U", [.text " "]⟩]).whereClauses = ["where T : class, IKey, new()"] := by decide

end Generics

end CSharpGen

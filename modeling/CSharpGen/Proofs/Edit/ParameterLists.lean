import CSharpGen.Proofs.Edit.Constants
import CSharpGen.Proofs.Text.SolidChars

/-!
# Lists of parameters

Parameters come into a list one at a time, whichever edit of whichever declaration adds them. An
addition puts one parameter at one place or changes nothing at all (`Parameters.Adds`), and no list
that edits lead to has two parameters of the same type and name, a parameter without a type, or a
type or name with blanks around it (`Parameters.Sound`).
-/

namespace CSharpGen

/-! ## Trimmed types and names -/

namespace Parameter

theorem solid_derivedName (type : String) :
    ∀ c ∈ (derivedName type).toList, Text.isBlank c = false := by
  have identifier : ∀ c ∈ identifierOf type, Text.isBlank c = false := by
    intro c member
    have isPart := List.mem_takeWhile_imp member
    simp only [Bool.or_eq_true, beq_iff_eq] at isPart
    rcases isPart with alphanumeric | rfl
    · exact Text.isBlank_of_isAlphanumeric alphanumeric
    · decide
  have lowered : ∀ c ∈ Text.lowerHead (identifierOf type), Text.isBlank c = false :=
    Text.isBlank_of_mem_lowerHead identifier
  rw [← String.toList_ofList (l := Text.lowerHead (identifierOf type))] at lowered
  rw [derivedName, escaped]
  split
  · have mark : "@".toList = ['@'] := rfl
    rw [String.toList_append, mark]
    exact List.forall_mem_cons.mpr ⟨by decide, lowered⟩
  · exact lowered

/-- The type and the name of a parameter have no blanks around them, also when the name is derived
from the type. -/
theorem trim_make (type : String) (name default : Option String) :
    Text.trim (make type name default).type = (make type name default).type ∧
      Text.trim (make type name default).name = (make type name default).name := by
  constructor
  · exact Text.trim_idem type
  · cases given : name.bind Text.nonBlank? with
    | none =>
      simp only [make, given, Option.getD_none]
      exact Text.trim_of_forall_solid (solid_derivedName (Text.trim type))
    | some text =>
      obtain ⟨raw, -, trimmed⟩ := Option.bind_eq_some_iff.mp given
      obtain ⟨rfl, -⟩ := Text.nonBlank?_eq_some trimmed
      simp only [make, given, Option.getD_some]
      exact Text.trim_idem raw

end Parameter

theorem ParameterEdit.trim_parameter (e : ParameterEdit) :
    Text.trim e.parameter.type = e.parameter.type ∧
      Text.trim e.parameter.name = e.parameter.name := by
  cases e <;> exact Parameter.trim_make _ _ _

/-! ## What is added -/

/-- The name of a parameter of a type: the given one without the blanks around it, or the name that
is derived from the type when none is given or nothing but blanks. -/
inductive Parameter.Named (type : String) : Option String → String → Prop
  | given (raw : String) (filled : Text.trim raw ≠ "") : Named type (some raw) (Text.trim raw)
  | blank (raw : String) (empty : Text.trim raw = "") :
    Named type (some raw) (derivedName (Text.trim type))
  | missing : Named type none (derivedName (Text.trim type))

/-- A parameter has the given type without the blanks around it, and the default as it is given. -/
structure Parameter.Has (type : String) (name default : Option String) (p : Parameter) : Prop where
  typed : p.type = Text.trim type
  named : Named type name p.name
  defaults : p.default = default

theorem Parameter.has_make (type : String) (name default : Option String) :
    Has type name default (make type name default) := by
  refine ⟨rfl, ?_, rfl⟩
  cases name with
  | none =>
    simp only [make, Option.bind_none, Option.getD_none]
    exact .missing
  | some raw =>
    by_cases empty : Text.trim raw = ""
    · have none : Text.nonBlank? raw = none := by simp [Text.nonBlank?, empty]
      simp only [make, Option.bind_some, none, Option.getD_none]
      exact .blank raw empty
    · have given : Text.nonBlank? raw = some (Text.trim raw) := by simp [Text.nonBlank?, empty]
      simp only [make, Option.bind_some, given, Option.getD_some]
      exact .given raw empty

/-- What an addition asks for. -/
def ParameterEdit.Asks : ParameterEdit → Parameter → Prop
  | add type => Parameter.Has type none none
  | addNamed type name => Parameter.Has type (some name) none
  | addWithDefault type name default => Parameter.Has type name (some default)
  | addWithNull type name => Parameter.Has type name (some "null")
  | insert type name default _ => Parameter.Has type name default

theorem ParameterEdit.asks_parameter (e : ParameterEdit) : e.Asks e.parameter := by
  cases e <;> exact Parameter.has_make _ _ _

namespace Parameters

/-! ## One addition -/

/-- A parameter that can be added to a list: it has a type, and no parameter of the list has the
same type and name. -/
structure Lacks (ps : List Parameter) (p : Parameter) : Prop where
  typed : p.type ≠ ""
  free : ∀ q ∈ ps, ¬(p.type = q.type ∧ p.name = q.name)

/-- What one addition makes of a list. When the type is blank, of which trimming leaves nothing, or
when the type and name are taken, the list stays as it is, also with the default that it has. Else
the parameter is put at the index that was asked for, or at the end without an index or when that
lies past the end. -/
inductive Adds (e : ParameterEdit) : List Parameter → List Parameter → Prop
  | untyped (ps : List Parameter) (none : e.parameter.type = "") : Adds e ps ps
  | taken (ps : List Parameter) (q : Parameter) (present : q ∈ ps)
    (type : e.parameter.type = q.type) (name : e.parameter.name = q.name) : Adds e ps ps
  | placed (front back : List Parameter) (asked : e.index = some front.length)
    (new : Lacks (front ++ back) e.parameter) :
    Adds e (front ++ back) (front ++ e.parameter :: back)
  | appended (ps : List Parameter) (past : ∀ i, e.index = some i → ps.length < i)
    (new : Lacks ps e.parameter) : Adds e ps (ps ++ [e.parameter])

variable {ps new : List Parameter} {p : Parameter} {e : ParameterEdit}

/-- A parameter is skipped when its type is blank or when the list has one of its type and name. -/
theorem skips_iff : (p.type.isEmpty || ps.any p.sameAs) = true ↔
    p.type = "" ∨ ∃ q ∈ ps, p.type = q.type ∧ p.name = q.name := by
  simp only [Bool.or_eq_true, String.isEmpty_iff, List.any_eq_true, Parameter.sameAs,
    Bool.and_eq_true, beq_iff_eq]

theorem insert_of_skips (skips : p.type = "" ∨ ∃ q ∈ ps, p.type = q.type ∧ p.name = q.name)
    (index : Option Nat) : insert ps p index = ps := if_pos (skips_iff.mpr skips)

theorem insert_of_lacks (lacks : Lacks ps p) (index : Option Nat) : insert ps p index =
    match index with
    | some i => if i ≤ ps.length then ps.insertIdx i p else ps ++ [p]
    | none => ps ++ [p] := by
  refine if_neg fun skips => ?_
  rcases skips_iff.mp skips with untyped | ⟨q, member, same⟩
  · exact lacks.typed untyped
  · exact lacks.free q member same

theorem insertIdx_front {α : Type} (front back : List α) (p : α) :
    (front ++ back).insertIdx front.length p = front ++ p :: back := by
  induction front with
  | nil => rfl
  | cons q front ih =>
    rw [List.cons_append, List.length_cons, List.insertIdx_succ_cons, ih, List.cons_append]

/-- The model's addition of a parameter is a possible outcome. -/
theorem adds_apply (e : ParameterEdit) (ps : List Parameter) : Adds e ps (e.apply ps) := by
  by_cases skips :
      e.parameter.type = "" ∨ ∃ q ∈ ps, e.parameter.type = q.type ∧ e.parameter.name = q.name
  · rw [ParameterEdit.apply, insert_of_skips skips]
    rcases skips with untyped | ⟨q, present, type, name⟩
    · exact .untyped ps untyped
    · exact .taken ps q present type name
  · obtain ⟨typed, free⟩ := not_or.mp skips
    have lacks : Lacks ps e.parameter := ⟨typed, fun q member same => free ⟨q, member, same⟩⟩
    rw [ParameterEdit.apply, insert_of_lacks lacks]
    cases asked : e.index with
    | none => exact .appended ps (by simp [asked]) lacks
    | some i =>
      by_cases bound : i ≤ ps.length
      -- the list is cut at the index, which the relation does not mention
      · obtain ⟨front, back, rfl, rfl⟩ : ∃ front back, ps = front ++ back ∧ i = front.length :=
          ⟨ps.take i, ps.drop i, (List.take_append_drop i ps).symm,
            (List.length_take_of_le bound).symm⟩
        simp only [if_pos bound, insertIdx_front]
        exact .placed front back asked lacks
      · have past : ∀ j, e.index = some j → ps.length < j := by
          rw [asked]
          rintro j ⟨⟩
          exact Nat.not_le.mp bound
        simp only [if_neg bound]
        exact .appended ps past lacks

/-- The list after an addition is the only one that the addition can lead to. -/
theorem adds_iff : Adds e ps new ↔ new = e.apply ps := by
  constructor
  · intro adds
    cases adds with
    | untyped ps none => exact (insert_of_skips (.inl none) _).symm
    | taken ps q present type name => exact (insert_of_skips (.inr ⟨q, present, type, name⟩) _).symm
    | placed front back asked lacks =>
      rw [ParameterEdit.apply, insert_of_lacks lacks, asked]
      simp only [List.length_append, Nat.le_add_right, if_true, insertIdx_front]
    | appended ps past lacks =>
      rw [ParameterEdit.apply, insert_of_lacks lacks]
      cases asked : e.index with
      | none => rfl
      | some i => exact (if_neg (Nat.not_le.mpr (past i asked))).symm
  · rintro rfl
    exact adds_apply e ps

/-! ## Several additions -/

/-- Additions one after the other. -/
inductive AddsAll : List ParameterEdit → List Parameter → List Parameter → Prop
  | nil (ps : List Parameter) : AddsAll [] ps ps
  | cons {e : ParameterEdit} {rest : List ParameterEdit} {ps next new : List Parameter}
    (first : Adds e ps next) (others : AddsAll rest next new) : AddsAll (e :: rest) ps new

/-- The outcome of several additions is the one that the model computes. -/
theorem addsAll_iff {edits : List ParameterEdit} :
    AddsAll edits ps new ↔ new = edits.foldl ParameterEdit.apply ps := by
  constructor
  · intro adds
    induction adds with
    | nil ps => rfl
    | cons first others ih => rw [ih, adds_iff.mp first, List.foldl_cons]
  · rintro rfl
    induction edits generalizing ps with
    | nil => exact .nil ps
    | cons e rest ih => exact .cons (adds_apply e ps) ih

/-- No two parameters of a list have the same type and name, none has a blank type, and there are no
blanks around types and names. -/
structure Sound (ps : List Parameter) : Prop where
  distinct : ps.Pairwise fun p q => ¬(p.type = q.type ∧ p.name = q.name)
  typed : ∀ p ∈ ps, Text.isBlankText p.type = false
  trimmed : ∀ p ∈ ps, Text.trim p.type = p.type ∧ Text.trim p.name = p.name

theorem sound_nil : Sound [] := ⟨.nil, nofun, nofun⟩

theorem Sound.insert {front back : List Parameter} (h : Sound (front ++ back))
    (lacks : Lacks (front ++ back) p)
    (trimmed : Text.trim p.type = p.type ∧ Text.trim p.name = p.name) :
    Sound (front ++ p :: back) where
  distinct := by
    refine (List.pairwise_middle fun apart same => apart ⟨same.1.symm, same.2.symm⟩).mpr ?_
    exact List.pairwise_cons.mpr ⟨lacks.free, h.distinct⟩
  typed := by
    have typed : Text.isBlankText p.type = false := by
      rw [Text.isBlankText, trimmed.1]
      exact Bool.eq_false_iff.mpr fun empty => lacks.typed (String.isEmpty_iff.mp empty)
    have others := h.typed
    rw [List.forall_mem_append] at others ⊢
    exact ⟨others.1, List.forall_mem_cons.mpr ⟨typed, others.2⟩⟩
  trimmed := by
    have others := h.trimmed
    rw [List.forall_mem_append] at others ⊢
    exact ⟨others.1, List.forall_mem_cons.mpr ⟨trimmed, others.2⟩⟩

/-- An addition keeps parameters distinct, typed and trimmed. -/
theorem Sound.adds (h : Sound ps) (adds : Adds e ps new) : Sound new := by
  cases adds with
  | untyped | taken => exact h
  | placed front back asked lacks => exact h.insert lacks e.trim_parameter
  | appended ps past lacks =>
    -- the end is the place with nothing behind it
    rw [← List.append_nil ps] at h lacks
    exact h.insert lacks e.trim_parameter

theorem Sound.addsAll {edits : List ParameterEdit} (h : Sound ps) (adds : AddsAll edits ps new) :
    Sound new := by
  induction adds with
  | nil => exact h
  | cons first others ih => exact ih (h.adds first)

/-- A list is what additions make of the empty one, one after the other, and it is sound. Each of
them adds the parameter that it asks for. -/
structure Collects (edits : List ParameterEdit) (ps : List Parameter) : Prop where
  sound : Sound ps
  added : ∀ new, AddsAll edits [] new ↔ new = ps
  asked : ∀ e ∈ edits, e.Asks e.parameter

/-- Additions to an empty list collect exactly what they ask for. -/
theorem collects_foldl (edits : List ParameterEdit) :
    Collects edits (edits.foldl ParameterEdit.apply []) where
  sound := sound_nil.addsAll (addsAll_iff.mpr rfl)
  added _ := addsAll_iff
  asked e _ := e.asks_parameter

end Parameters

/-! ## Edits of declarations -/

/-- What edits make of a part of a declaration, when each of them makes of it what some calls do. -/
theorem Edited.each_foldl {α ε β κ : Type} {part : α → β} {act : β → κ → β} {calls : ε → List κ}
    {perform : α → ε → Edited Reply α}
    (step : ∀ a edit, part (perform a edit).value = (calls edit).foldl act (part a)) (a : α)
    (edits : List ε) :
    part (Edited.each perform a edits).value = (edits.flatMap calls).foldl act (part a) := by
  induction edits generalizing a with
  | nil => rfl
  | cons edit rest ih =>
    rw [List.flatMap_cons, List.foldl_append, ← step]
    exact ih _

/-- The additions to the parameter list that an edit asks for. -/
def MethodEdit.additions : MethodEdit → List ParameterEdit
  | .parameter edit => [edit]
  | _ => []

/-- The pairs of a call of another constructor are added one after the other, without an index. -/
def ConstructorEdit.additions : ConstructorEdit → List ParameterEdit
  | .parameter edit => [edit]
  | .forward _ pairs => pairs.map fun (type, name) => .addNamed type name
  | _ => []

def DelegateEdit.additions : DelegateEdit → List ParameterEdit
  | .parameter edit => [edit]
  | _ => []

theorem Method.parameters_perform (m : Method) (edit : MethodEdit) :
    (m.perform edit).value.parameters = edit.additions.foldl ParameterEdit.apply m.parameters := by
  cases edit with
  | generic name constraints =>
    rw [Method.perform, Method.addGeneric]
    exact Edited.attempt_same Method.parameters fun _ => rfl
  | documentParameter name doc =>
    rw [Method.perform, Method.documentParameter]
    exact Edited.attempt_same Method.parameters fun _ => rfl
  | _ =>
    simp only [Method.perform, Edited.done, Edited.registering, MethodEdit.additions, List.foldl]

theorem Constructor.parameters_perform (c : Constructor) (edit : ConstructorEdit) :
    (c.perform edit).value.parameters = edit.additions.foldl ParameterEdit.apply c.parameters := by
  cases edit with
  | documentParameter name doc =>
    rw [Constructor.perform, Constructor.documentParameter]
    exact Edited.attempt_same Constructor.parameters fun _ => rfl
  | forward target pairs =>
    -- the parameters of all pairs are made before the first one is inserted
    simp only [Constructor.perform, Edited.done, Constructor.forward, ConstructorEdit.additions,
      List.foldl_map]
    rfl
  | _ =>
    simp only [Constructor.perform, Edited.done, Edited.registering, ConstructorEdit.additions,
      List.foldl]

theorem Delegate.parameters_perform (d : Delegate) (edit : DelegateEdit) :
    (d.perform edit).value.parameters = edit.additions.foldl ParameterEdit.apply d.parameters := by
  cases edit with
  | generic name constraints =>
    rw [Delegate.perform, Delegate.addGeneric]
    exact Edited.attempt_same Delegate.parameters fun _ => rfl
  | documentParameter name doc =>
    rw [Delegate.perform, Delegate.documentParameter]
    exact Edited.attempt_same Delegate.parameters fun _ => rfl
  | _ =>
    simp only [Delegate.perform, Edited.done, Edited.registering, DelegateEdit.additions, List.foldl]

namespace Parameters

/-- Whatever edits a method, a constructor or a delegate goes through, its parameter list is what
the additions among them make of the empty list one after the other, those of the pairs that a
constructor forwards included. Each of them leaves the list alone or puts the parameter that it asks
for at one place, and the list is sound. -/
theorem collects_performAll :
    (∀ (name : String) (edits : List MethodEdit), Collects (edits.flatMap MethodEdit.additions)
      ((Method.ofName name).performAll edits).value.parameters) ∧
    (∀ (className : String) (edits : List ConstructorEdit),
      Collects (edits.flatMap ConstructorEdit.additions)
        (Constructor.performAll { className } edits).value.parameters) ∧
    ∀ (name : String) (edits : List DelegateEdit),
      Collects (edits.flatMap DelegateEdit.additions)
        ((Delegate.ofName name).performAll edits).value.parameters := by
  refine ⟨fun name edits => ?_, fun className edits => ?_, fun name edits => ?_⟩
  · rw [Method.performAll, Edited.each_foldl Method.parameters_perform]
    exact collects_foldl _
  · rw [Constructor.performAll, Edited.each_foldl Constructor.parameters_perform]
    exact collects_foldl _
  · rw [Delegate.performAll, Edited.each_foldl Delegate.parameters_perform]
    exact collects_foldl _

/-- The first default stays, an index past the end is the end, and a pair without a type is left
out. -/
example : ((Constructor.performAll { className := "Lamp" } [
      .parameter (.addWithDefault " int " (some "watts") "60"),
      .forward .base [("string", "name"), ("int", "watts"), (" ", "x")],
      .parameter (.insert "Acme.Socket" none none (some 9)),
      .parameter (.insert "bool" (some " on ") none (some 1))]).value.parameters.map
        Parameter.render) =
    ["int watts = 60", "bool on", "string name", "Acme.Socket socket"] := by
  decide +kernel

end Parameters

end CSharpGen

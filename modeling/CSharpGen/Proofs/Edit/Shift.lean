import CSharpGen.Proofs.Edit.Calls

/-!
# Shifted edits

Imports, assembly attributes, disabled warnings and interfaces are asked for by free edits. A shift
moves one of them past another edit or makes it once more, at whatever level of a file. The edits
still ask for the same, and members come out the same.
-/

namespace CSharpGen

/-- Lists of edits that differ in one place: a free edit stands behind the edit that follows it, it
is made once more, or one edit differs inside. -/
inductive Shift {ε : Type} (isFree : ε → Bool) (inside : ε → ε → Prop) : List ε → List ε → Prop where
  | swap {free : ε} (h : isFree free) (next : ε) (rest : List ε) :
    Shift isFree inside (free :: next :: rest) (next :: free :: rest)
  | again {free : ε} (h : isFree free) (rest : List ε) :
    Shift isFree inside (free :: rest) (free :: free :: rest)
  | inside {edit new : ε} (h : inside edit new) (rest : List ε) :
    Shift isFree inside (edit :: rest) (new :: rest)
  | later (edit : ε) {rest new : List ε} (h : Shift isFree inside rest new) :
    Shift isFree inside (edit :: rest) (edit :: new)

/-- Lists of edits that differ only in where and how often free edits stand. -/
abbrev MemberShift {ε : Type} (isFree : ε → Bool) : List ε → List ε → Prop :=
  Shift isFree fun _ _ => False

/-! ## Free edits -/

def PropertyEdit.isFree : PropertyEdit → Bool
  | .importNamespace _ => true
  | _ => false

def MethodEdit.isFree : MethodEdit → Bool
  | .importNamespace _ => true
  | _ => false

def ConstructorEdit.isFree : ConstructorEdit → Bool
  | .importNamespace _ => true
  | _ => false

def EventEdit.isFree : EventEdit → Bool
  | .importNamespace _ => true
  | _ => false

def DelegateEdit.isFree : DelegateEdit → Bool
  | .importNamespace _ | .assemblyAttribute _ => true
  | _ => false

def EnumEdit.isFree : EnumEdit → Bool
  | .importNamespace _ => true
  | _ => false

def RecordEdit.isFree : RecordEdit → Bool
  | .importNamespace _ => true
  | _ => false

def ClassEdit.isFree : ClassEdit → Bool
  | .importNamespace _ | .assemblyAttribute _ | .addInterfaces _ => true
  | _ => false

def FileEdit.isFree : FileEdit → Bool
  | .importNamespaces _ | .assemblyAttribute _ | .disableWarning _ => true
  | _ => false

/-- Edits of a class that differ in the edits of one member, or in the order in which one call names
its interfaces. -/
inductive ClassEdit.Inside : ClassEdit → ClassEdit → Prop where
  | interfaces {types new : List String} (same : ∀ type, type ∈ types ↔ type ∈ new) :
    Inside (.addInterfaces types) (.addInterfaces new)
  | property (name : String) {edits new : List PropertyEdit}
    (h : MemberShift PropertyEdit.isFree edits new) :
    Inside (.addProperty name edits) (.addProperty name new)
  | backingField (property : String) {edits new : List PropertyEdit}
    (h : MemberShift PropertyEdit.isFree edits new) :
    Inside (.addBackingField property edits) (.addBackingField property new)
  | method (name : String) {edits new : List MethodEdit}
    (h : MemberShift MethodEdit.isFree edits new) :
    Inside (.addMethod name edits) (.addMethod name new)
  | constructor {edits new : List ConstructorEdit}
    (h : MemberShift ConstructorEdit.isFree edits new) :
    Inside (.addConstructor edits) (.addConstructor new)
  | event (name : String) {edits new : List EventEdit}
    (h : MemberShift EventEdit.isFree edits new) :
    Inside (.addEvent name edits) (.addEvent name new)
  | explicitEvent (name interface handler : String) {edits new : List EventEdit}
    (h : MemberShift EventEdit.isFree edits new) :
    Inside (.addExplicitEvent name interface handler edits)
      (.addExplicitEvent name interface handler new)
  | delegate (name : String) {edits new : List DelegateEdit}
    (h : MemberShift DelegateEdit.isFree edits new) :
    Inside (.addDelegate name edits) (.addDelegate name new)
  | class (name : String) {edits new : List ClassEdit} (h : Shift isFree Inside edits new) :
    Inside (.addClass name edits) (.addClass name new)

/-- Edits of a file that differ in the edits of one type or copy, or in the order in which one call
names its imports. -/
inductive FileEdit.Inside : FileEdit → FileEdit → Prop where
  | imports {names new : List String} (same : ∀ name, name ∈ names ↔ name ∈ new) :
    Inside (.importNamespaces names) (.importNamespaces new)
  | class (name : String) {edits new : List ClassEdit}
    (h : Shift ClassEdit.isFree ClassEdit.Inside edits new) :
    Inside (.addClass name edits) (.addClass name new)
  | enum (name : String) {edits new : List EnumEdit} (h : MemberShift EnumEdit.isFree edits new) :
    Inside (.addEnum name edits) (.addEnum name new)
  | record (name : String) {edits new : List RecordEdit}
    (h : MemberShift RecordEdit.isFree edits new) :
    Inside (.addRecord name edits) (.addRecord name new)
  | delegate (name : String) {edits new : List DelegateEdit}
    (h : MemberShift DelegateEdit.isFree edits new) :
    Inside (.addDelegate name edits) (.addDelegate name new)
  | copy {edits new : List FileEdit} (h : Shift isFree Inside edits new) :
    Inside (.copy edits) (.copy new)

/-- Edits of a file in another order: shifts of free edits, at whatever level, one after the other. -/
def FileEdit.Rearranged : List FileEdit → List FileEdit → Prop :=
  Relation.EqvGen (Shift isFree Inside)

/-! ## Members -/

namespace Shift

variable {ε α : Type} {isFree : ε → Bool} {edits new : List ε}

/-- A shift keeps what is registered, though not in which order. -/
theorem mem_flatMap {inside : ε → ε → Prop} {calls : ε → List Registration}
    (same : ∀ edit new, inside edit new → ∀ r, r ∈ calls edit ↔ r ∈ calls new)
    (h : Shift isFree inside edits new) (r : Registration) :
    r ∈ edits.flatMap calls ↔ r ∈ new.flatMap calls := by
  induction h with
  | swap => simp only [List.flatMap_cons, List.mem_append, or_left_comm]
  | again => simp only [List.flatMap_cons, List.mem_append, or_self_left]
  | inside h rest => simp only [List.flatMap_cons, List.mem_append, same _ _ h r]
  | later edit h ih => simp only [List.flatMap_cons, List.mem_append, ih]

/-- Where free edits stand does not matter to a member that they leave alone. -/
theorem value_each {perform : α → ε → Edited Reply α}
    (free : ∀ value edit, isFree edit → (perform value edit).value = value)
    (h : MemberShift isFree edits new) (value : α) :
    (Edited.each perform value edits).value = (Edited.each perform value new).value := by
  induction h generalizing value with
  | swap isFree next rest => simp only [Edited.each, free _ _ isFree]
  | again isFree rest => simp only [Edited.each, free _ _ isFree]
  | inside never rest => exact never.elim
  | later edit h ih => exact ih _

end Shift

/-- A free edit of a member registers something and leaves the member as it is. -/
theorem Property.performAll_shift {edits new : List PropertyEdit}
    (h : MemberShift PropertyEdit.isFree edits new) (p : Property) :
    (p.performAll edits).value = (p.performAll new).value := by
  refine h.value_each (fun _ edit isFree => ?_) p
  cases edit with
  | importNamespace => rfl
  | _ => cases isFree

theorem Method.performAll_shift {edits new : List MethodEdit}
    (h : MemberShift MethodEdit.isFree edits new) (m : Method) :
    (m.performAll edits).value = (m.performAll new).value := by
  refine h.value_each (fun _ edit isFree => ?_) m
  cases edit with
  | importNamespace => rfl
  | _ => cases isFree

theorem Constructor.performAll_shift {edits new : List ConstructorEdit}
    (h : MemberShift ConstructorEdit.isFree edits new) (c : Constructor) :
    (c.performAll edits).value = (c.performAll new).value := by
  refine h.value_each (fun _ edit isFree => ?_) c
  cases edit with
  | importNamespace => rfl
  | _ => cases isFree

theorem Event.performAll_shift {edits new : List EventEdit}
    (h : MemberShift EventEdit.isFree edits new) (e : Event) :
    (e.performAll edits).value = (e.performAll new).value := by
  refine h.value_each (fun _ edit isFree => ?_) e
  cases edit with
  | importNamespace => rfl
  | _ => cases isFree

theorem Delegate.performAll_shift {edits new : List DelegateEdit}
    (h : MemberShift DelegateEdit.isFree edits new) (d : Delegate) :
    (d.performAll edits).value = (d.performAll new).value := by
  refine h.value_each (fun _ edit isFree => ?_) d
  cases edit with
  | importNamespace | assemblyAttribute => rfl
  | _ => cases isFree

theorem Record.performAll_shift {edits new : List RecordEdit}
    (h : MemberShift RecordEdit.isFree edits new) (r : Record) :
    (r.performAll edits).value = (r.performAll new).value := by
  refine h.value_each (fun _ edit isFree => ?_) r
  cases edit with
  | importNamespace => rfl
  | _ => cases isFree

theorem Enum.performAll_shift {edits new : List EnumEdit}
    (h : MemberShift EnumEdit.isFree edits new) (e : Enum) :
    (e.performAll edits).value = (e.performAll new).value := by
  refine h.value_each (fun _ edit isFree => ?_) e
  cases edit with
  | importNamespace => rfl
  | _ => cases isFree

/-! ## What shifted edits ask for -/

namespace ClassEdit

/-- A free edit adds no property. -/
theorem adds?_of_isFree {edit : ClassEdit} (isFree : edit.isFree) (names : List String) :
    edit.adds? names = none := by
  cases edit with
  | importNamespace | assemblyAttribute | addInterfaces => rfl
  | _ => cases isFree

/-- What a free edit registers does not depend on the properties that are there. -/
theorem calls_of_isFree {edit : ClassEdit} (isFree : edit.isFree) (names others : List String) :
    edit.calls names = edit.calls others := by
  cases edit with
  | importNamespace | assemblyAttribute | addInterfaces => simp only [calls]
  | _ => cases isFree

/-- A change inside one edit adds a property of the same name. -/
theorem Inside.adds?_eq {edit new : ClassEdit} (h : Inside edit new) (names : List String) :
    edit.adds? names = new.adds? names := by
  cases h <;> rfl

mutual

/-- A change inside one edit keeps what is registered. -/
theorem Inside.mem_calls : (edit : ClassEdit) → {new : ClassEdit} → Inside edit new →
    ∀ names r, r ∈ edit.calls names ↔ r ∈ new.calls names
  | _, _, .interfaces same, _, _ => by simp only [calls, List.mem_map, same]
  | _, _, .property _ h, _, r | _, _, .method _ h, _, r | _, _, .constructor h, _, r
  | _, _, .event _ h, _, r | _, _, .explicitEvent _ _ _ h, _, r | _, _, .delegate _ h, _, r => by
    simpa only [calls] using h.mem_flatMap (fun _ _ never => never.elim) r
  | _, _, .backingField property h, names, r => by
    simp only [calls]
    split
    · exact h.mem_flatMap (fun _ _ never => never.elim) r
    · rfl
  | .addClass _ edits, _, .class _ h, _, r => by simpa only [calls] using mem_callsAll edits h [] r

/-- A shift keeps what is registered: the names known to later edits stay the same. -/
theorem mem_callsAll : (edits : List ClassEdit) → {new : List ClassEdit} →
    Shift isFree Inside edits new → ∀ names r, r ∈ callsAll names edits ↔ r ∈ callsAll names new
  | [], _, h, _, _ => nomatch h
  | edit :: rest, _, h, names, r => by
    cases h with
    | swap isFree next rest =>
      simp only [callsAll, adds?_of_isFree isFree, Option.toList_none, List.append_nil,
        List.mem_append, calls_of_isFree isFree names (names ++ (next.adds? names).toList)]
      exact or_left_comm
    | again isFree =>
      simp only [callsAll, adds?_of_isFree isFree, Option.toList_none, List.append_nil,
        List.mem_append, or_self_left]
    | inside h =>
      simp only [callsAll, List.mem_append, h.adds?_eq, Inside.mem_calls edit h]
    | later edit h =>
      simp only [callsAll, List.mem_append, mem_callsAll rest h]

end

end ClassEdit

namespace FileEdit

/-- A change inside one edit disables the same warnings. -/
theorem Inside.warning?_eq {edit new : FileEdit} (h : Inside edit new) :
    edit.warning? = new.warning? := by
  cases h <;> rfl

/-- Shifted edits disable the same warnings. -/
theorem mem_warnings {edits new : List FileEdit} (h : Shift isFree Inside edits new)
    (code : String) : code ∈ edits.filterMap warning? ↔ code ∈ new.filterMap warning? := by
  induction h with
  | swap => simp only [List.mem_filterMap, List.exists_mem_cons_iff, or_left_comm]
  | again => simp only [List.mem_filterMap, List.exists_mem_cons_iff, or_self_left]
  | inside h => simp only [List.mem_filterMap, List.exists_mem_cons_iff, h.warning?_eq]
  | later edit h ih =>
    simp only [List.mem_filterMap, List.exists_mem_cons_iff] at ih ⊢
    rw [ih]

mutual

theorem Inside.mem_calls : (edit : FileEdit) → {new : FileEdit} → Inside edit new →
    ∀ r, r ∈ edit.calls ↔ r ∈ new.calls
  | _, _, .imports same, _ => by simp only [calls, List.mem_map, same]
  | _, _, .class _ h, r => by simpa only [calls] using ClassEdit.mem_callsAll _ h [] r
  | _, _, .enum _ h, r | _, _, .record _ h, r | _, _, .delegate _ h, r => by
    simpa only [calls] using h.mem_flatMap (fun _ _ never => never.elim) r
  | .copy edits, _, .copy h, r => by simpa only [calls] using mem_callsAll edits h r

/-- Shifted edits ask for the same. -/
theorem mem_callsAll : (edits : List FileEdit) → {new : List FileEdit} →
    Shift isFree Inside edits new → ∀ r, r ∈ callsAll edits ↔ r ∈ callsAll new
  | [], _, h, _ => nomatch h
  | edit :: rest, _, h, r => by
    cases h with
    | swap => simp only [callsAll, List.mem_append, or_left_comm]
    | again => simp only [callsAll, List.mem_append, or_self_left]
    | inside h => simp only [callsAll, List.mem_append, Inside.mem_calls edit h]
    | later edit h => simp only [callsAll, List.mem_append, mem_callsAll rest h]

end

end FileEdit

end CSharpGen

import CSharpGen.Proofs.Declaration.Members
import CSharpGen.Proofs.Edit.Copies
import CSharpGen.Proofs.File.TypeTexts
import Mathlib.Data.List.Forall2

/-!
# Types on shelves

The types of a file can be kept on four shelves, one for each kind of declaration, with a list of
slots that says in which order they were added. Every slot leads to a declaration and no slot stands
twice in the list, so each call does to the shelves what it does to the types
(`ShelvedFile.represents_perform`). The list follows the calls: it has one declaration for each call
that adds one, with its kind and its trimmed name, and a built file holds their texts in this order
(`Desk.types_in_call_order`).
-/

namespace CSharpGen

/-! ## Titles -/

namespace TypeDeclaration

inductive Kind where
  | «class» | enum | record | delegate
  deriving DecidableEq, Repr

def kind : TypeDeclaration → Kind
  | .class _ => .class
  | .enum _ => .enum
  | .record _ => .record
  | .delegate _ => .delegate

/-- The kind and the name. -/
def title (t : TypeDeclaration) : Kind × String := (t.kind, t.name)

end TypeDeclaration

theorem Enum.name_perform (e : Enum) (edit : EnumEdit) : (e.perform edit).value.name = e.name := by
  cases edit <;> simp only [perform, Edited.done, Edited.registering, Edited.into]

theorem Record.name_perform (r : Record) (edit : RecordEdit) :
    (r.perform edit).value.name = r.name := by
  cases edit <;> simp only [perform, Edited.done, Edited.registering, Edited.into]

theorem Delegate.name_perform (d : Delegate) (edit : DelegateEdit) :
    (d.perform edit).value.name = d.name := by
  cases edit with
  | generic name constraints =>
    rw [perform, addGeneric]
    exact Edited.attempt_same Delegate.name fun _ => rfl
  | documentParameter name doc =>
    rw [perform, Delegate.documentParameter]
    exact Edited.attempt_same Delegate.name fun _ => rfl
  | _ => simp only [perform, Edited.done, Edited.registering]

namespace Class

/-- No edit renames a class. -/
theorem name_perform (edit : ClassEdit) (c : Class) : (Class.perform edit c).value.name = c.name := by
  cases edit with
  | generic name constraints =>
    rw [perform, addGeneric]
    exact Edited.attempt_same (fun new : Class => new.name) fun _ => rfl
  | addBackingField property edits =>
    rw [perform, performBacking]
    split <;> simp only [addProperty]
  | _ =>
    simp only [perform, Edited.done, Edited.registering, Edited.into, addProperty, addMethod,
      addConstructor, addEvent, addClass, addDelegate]

theorem name_performAll (edits : List ClassEdit) (c : Class) :
    (Class.performAll edits c).value.name = c.name := by
  induction edits generalizing c with
  | nil => rfl
  | cons edit rest ih => exact (ih (Class.perform edit c).value).trans (name_perform edit c)

/-- A call on a class, or on one inside it, does not rename the class. -/
theorem name_call (call : ClassCall) (c : Class) : (c.call call).value.name = c.name := by
  cases call with
  | edit edit =>
    rw [Class.call]
    exact name_perform edit c
  | _ => simp only [Class.call, Edited.map]

end Class

/-- No call changes the kind or the name of a declaration. -/
theorem TypeDeclaration.title_call (t : TypeDeclaration) (call : TypeCall) :
    (t.call call).value.title = t.title := by
  unfold TypeDeclaration.call
  split
  · next c call => exact congrArg (Kind.class, ·) (Class.name_call call c)
  · next e edit => exact congrArg (Kind.enum, ·) (e.name_perform edit)
  · rfl
  · next r edit => exact congrArg (Kind.record, ·) (r.name_perform edit)
  · rfl
  · next d edit => exact congrArg (Kind.delegate, ·) (d.name_perform edit)
  · rfl

/-! ## Slots -/

/-- A shelf and an index on it. -/
inductive TypeSlot where
  | class (i : Nat)
  | enum (i : Nat)
  | record (i : Nat)
  | delegate (i : Nat)
  deriving DecidableEq, Repr

def TypeSlot.kind : TypeSlot → TypeDeclaration.Kind
  | .class _ => .class
  | .enum _ => .enum
  | .record _ => .record
  | .delegate _ => .delegate

/-- Declarations on the shelves of their kinds, with the slots in the order of the types. -/
structure TypeShelves where
  classes : List Class := []
  enums : List Enum := []
  records : List Record := []
  delegates : List Delegate := []
  order : List TypeSlot := []

namespace TypeShelves

/-- The declaration in a slot, unless its index is out of range. -/
def at? (s : TypeShelves) : TypeSlot → Option TypeDeclaration
  | .class i => s.classes[i]?.map .class
  | .enum i => s.enums[i]?.map .enum
  | .record i => s.records[i]?.map .record
  | .delegate i => s.delegates[i]?.map .delegate

/-- The declarations in order. One index out of range, and there are none. -/
def types? (s : TypeShelves) : Option (List TypeDeclaration) := s.order.mapM s.at?

/-- The slot for a new declaration: behind the last one of its kind. -/
def nextSlot (s : TypeShelves) : TypeDeclaration → TypeSlot
  | .class _ => .class s.classes.length
  | .enum _ => .enum s.enums.length
  | .record _ => .record s.records.length
  | .delegate _ => .delegate s.delegates.length

def add (s : TypeShelves) (t : TypeDeclaration) : TypeShelves :=
  let order := s.order ++ [s.nextSlot t]
  match t with
  | .class c => { s with classes := s.classes ++ [c], order }
  | .enum e => { s with enums := s.enums ++ [e], order }
  | .record r => { s with records := s.records ++ [r], order }
  | .delegate d => { s with delegates := s.delegates ++ [d], order }

/-- Replaces the declaration in a slot by one of the same kind. -/
def put (s : TypeShelves) : TypeSlot → TypeDeclaration → TypeShelves
  | .class i, .class c => { s with classes := s.classes.set i c }
  | .enum i, .enum e => { s with enums := s.enums.set i e }
  | .record i, .record r => { s with records := s.records.set i r }
  | .delegate i, .delegate d => { s with delegates := s.delegates.set i d }
  | _, _ => s

/-- A call on the declaration at a place of the order. -/
def call (s : TypeShelves) (place : Nat) (call : TypeCall) : TypeShelves :=
  match s.order[place]? with
  | none => s
  | some slot => (s.at? slot).elim s fun t => s.put slot (t.call call).value

variable {s : TypeShelves} {slot other : TypeSlot} {t u : TypeDeclaration}

/-- A slot that holds something holds the same after another declaration was added. -/
theorem at?_add (h : s.at? slot = some u) (t : TypeDeclaration) :
    (s.add t).at? slot = some u := by
  have bound {α : Type} {items : List α} {i : Nat} {f : α → TypeDeclaration}
      (found : items[i]?.map f = some u) (a : α) : (items ++ [a])[i]?.map f = some u := by
    obtain ⟨item, isItem, -⟩ := Option.map_eq_some_iff.mp found
    rwa [List.getElem?_append_left (List.getElem?_eq_some_iff.mp isItem).1]
  cases slot <;> cases t <;> first | exact h | exact bound h _

/-- The slot for a new declaration is free. -/
theorem at?_nextSlot (s : TypeShelves) (t : TypeDeclaration) : s.at? (s.nextSlot t) = none := by
  cases t <;> simp [nextSlot, at?]

theorem at?_add_nextSlot (s : TypeShelves) (t : TypeDeclaration) :
    (s.add t).at? (s.nextSlot t) = some t := by
  cases t <;> simp [nextSlot, at?, add]

theorem order_add (s : TypeShelves) (t : TypeDeclaration) :
    (s.add t).order = s.order ++ [s.nextSlot t] := by
  cases t <;> rfl

/-- Replacing a declaration keeps the order. -/
theorem order_put (s : TypeShelves) (slot : TypeSlot) (t : TypeDeclaration) :
    (s.put slot t).order = s.order := by
  cases slot <;> cases t <;> rfl

theorem kind_at? (h : s.at? slot = some u) : u.kind = slot.kind := by
  cases slot <;> obtain ⟨item, -, rfl⟩ := Option.map_eq_some_iff.mp h <;> rfl

/-- A declaration of the same kind is found in the slot that it was put into. -/
theorem at?_put (h : s.at? slot = some u) (kind : t.kind = u.kind) :
    (s.put slot t).at? slot = some t := by
  have inRange {α : Type} {items : List α} {i : Nat} {f : α → TypeDeclaration}
      (found : items[i]?.map f = some u) (a : α) : (items.set i a)[i]?.map f = some (f a) := by
    obtain ⟨item, isItem, -⟩ := Option.map_eq_some_iff.mp found
    rw [List.getElem?_set_self (List.getElem?_eq_some_iff.mp isItem).1]
    rfl
  rw [kind_at? h] at kind
  cases slot <;> cases t <;> first | exact inRange h _ | cases kind

/-- Replacing a declaration leaves all other slots as they are. -/
theorem at?_put_of_ne (different : other ≠ slot) (t : TypeDeclaration) :
    (s.put slot t).at? other = s.at? other := by
  have apart {α : Type} (items : List α) {i j : Nat} (a : α) (indices : i ≠ j) :
      (items.set i a)[j]? = items[j]? := List.getElem?_set_ne indices
  cases slot <;> cases t <;> cases other <;>
    first
      | rfl
      | exact congrArg (Option.map _) (apart _ _ fun same => different (same ▸ rfl))

/-! ## What shelves hold -/

/-- The slots lead to the given declarations, in order, and no slot stands twice in the order. -/
structure Holds (s : TypeShelves) (types : List TypeDeclaration) : Prop where
  found : s.order.map s.at? = types.map some
  distinct : s.order.Nodup

variable {types : List TypeDeclaration}

theorem holds_empty : Holds {} [] := ⟨rfl, List.nodup_nil⟩

/-- No slot of the order is out of range. -/
theorem Holds.exists_at? (h : s.Holds types) (member : slot ∈ s.order) : ∃ u, s.at? slot = some u := by
  have isFound := List.mem_map_of_mem (f := s.at?) member
  rw [h.found] at isFound
  obtain ⟨u, -, same⟩ := List.mem_map.mp isFound
  exact ⟨u, same.symm⟩

/-- No index is out of range. -/
theorem Holds.types?_eq (h : s.Holds types) : s.types? = some types := by
  have all (order : List TypeSlot) (types : List TypeDeclaration)
      (found : order.map s.at? = types.map some) : order.mapM s.at? = some types := by
    induction order generalizing types with
    | nil =>
      obtain rfl := List.map_eq_nil_iff.mp found.symm
      rfl
    | cons slot rest ih =>
      cases types with
      | nil => cases found
      | cons t types =>
        obtain ⟨here, others⟩ := List.cons.inj found
        rw [List.mapM_cons, here, ih types others]
        rfl
  exact all s.order types h.found

/-- The new declaration comes last, in a slot that was not in use. -/
theorem Holds.add (h : s.Holds types) (t : TypeDeclaration) : (s.add t).Holds (types ++ [t]) where
  found := by
    have kept : s.order.map (s.add t).at? = s.order.map s.at? :=
      List.map_congr_left fun slot member => by
        obtain ⟨u, found⟩ := h.exists_at? member
        rw [found, at?_add found]
    rw [order_add, List.map_append, kept, h.found, List.map_singleton, at?_add_nextSlot,
      List.map_append, List.map_singleton]
  distinct := by
    have unused : s.nextSlot t ∉ s.order := by
      intro used
      obtain ⟨u, found⟩ := h.exists_at? used
      rw [at?_nextSlot] at found
      cases found
    rw [order_add]
    exact List.concat_eq_append ▸ h.distinct.concat unused

/-- A slot of the order gets another declaration of its kind. -/
theorem Holds.put (h : s.Holds types) {place : Nat} (isSlot : s.order[place]? = some slot)
    (found : s.at? slot = some u) (kind : t.kind = u.kind) :
    (s.put slot t).Holds (types.set place t) where
  found := by
    rw [order_put, List.map_set, ← h.found]
    refine List.ext_getElem? fun k => ?_
    obtain ⟨bound, isAt⟩ := List.getElem?_eq_some_iff.mp isSlot
    rw [List.getElem?_map, List.getElem?_set, List.length_map, List.getElem?_map]
    split
    · next same =>
      subst same
      rw [isSlot, Option.map_some, at?_put found kind]
    · next different =>
      cases isOther : s.order[k]? with
      | none => rfl
      | some other =>
        have apart : other ≠ slot := by
          rintro rfl
          obtain ⟨alsoBound, isAlsoAt⟩ := List.getElem?_eq_some_iff.mp isOther
          exact different (h.distinct.getElem_inj_iff.mp (isAt.trans isAlsoAt.symm))
        rw [Option.map_some, Option.map_some, at?_put_of_ne apart]
  distinct := by
    rw [order_put]
    exact h.distinct

/-- A call on one declaration reaches its slot and no other. -/
theorem Holds.call (h : s.Holds types) (place : Nat) (call : TypeCall) :
    (s.call place call).Holds (Edited.atIndex (·.call call) types place).value := by
  have same : (s.order[place]?).map s.at? = (types[place]?).map some := by
    rw [← List.getElem?_map, h.found, List.getElem?_map]
  rw [TypeShelves.call, Edited.atIndex]
  cases isSlot : s.order[place]? with
  | none =>
    rw [isSlot] at same
    rw [Option.map_eq_none_iff.mp same.symm]
    exact h
  | some slot =>
    rw [isSlot] at same
    obtain ⟨t, isType, found⟩ := Option.map_eq_some_iff.mp same.symm
    have kind : (t.call call).value.kind = t.kind := congrArg Prod.fst (t.title_call call)
    have put := h.put isSlot found.symm kind
    simp only [isType, ← found, Option.elim_some, Edited.map]
    exact put

end TypeShelves

/-! ## Files on shelves -/

/-- A file whose types are on shelves. Those of the frame are not in use. -/
structure ShelvedFile where
  frame : File
  shelves : TypeShelves := {}

namespace ShelvedFile

def ofNamespace (name : String) : ShelvedFile := { frame := .ofNamespace name }

/-- The file with the types that its slots lead to. -/
def file? (s : ShelvedFile) : Option File :=
  s.shelves.types?.map fun types => { s.frame with types }

def add (s : ShelvedFile) (t : TypeDeclaration) : ShelvedFile :=
  { s with shelves := s.shelves.add t }

/-- A call on a file or on something inside it. An edited copy is dropped, and what is registered
does not stand in the file. -/
def perform (s : ShelvedFile) : FileCall → ShelvedFile
  | .edit (.disableWarning code) => { s with frame := s.frame.disableWarning code }
  | .edit (.options options) => { s with frame := { s.frame with options } }
  | .edit (.addClass name edits) =>
    s.add (.class (Class.performAll edits (s.frame.newClass name)).value)
  | .edit (.addEnum name edits) => s.add (.enum ((s.frame.newEnum name).performAll edits).value)
  | .edit (.addRecord name edits) =>
    s.add (.record ((s.frame.newRecord name).performAll edits).value)
  | .edit (.addDelegate name edits) =>
    s.add (.delegate ((Delegate.ofName name).performAll edits).value)
  | .edit (.importNamespaces _) | .edit (.assemblyAttribute _) | .edit (.copy _) | .edit .look => s
  | .type place call => { s with shelves := s.shelves.call place call }

/-- The shelves hold the types of a file, and the frame is the rest of it. -/
structure Represents (s : ShelvedFile) (f : File) : Prop where
  frame : s.frame = { f with types := [] }
  holds : s.shelves.Holds f.types

variable {s : ShelvedFile} {f : File}

/-- The slots lead to the types of the file that is represented, and none of them is out of range.
-/
theorem Represents.file?_eq (h : s.Represents f) : s.file? = some f := by
  rw [file?, h.holds.types?_eq, h.frame]
  rfl

theorem represents_of_types_nil (empty : f.types = []) : Represents { frame := f } f where
  frame := by rw [← empty]
  holds := empty ▸ TypeShelves.holds_empty

theorem represents_ofNamespace (name : String) : (ofNamespace name).Represents (.ofNamespace name) :=
  represents_of_types_nil rfl

/-- A type that is added last comes last in the order of the slots. -/
theorem Represents.add (h : s.Represents f) (t : TypeDeclaration) :
    (s.add t).Represents (f.add t) :=
  ⟨h.frame, h.holds.add t⟩

theorem Represents.disableWarning (h : s.Represents f) (code : String) :
    Represents { s with frame := s.frame.disableWarning code } (f.disableWarning code) where
  frame := by
    rw [h.frame, File.disableWarning, File.disableWarning]
    cases Text.nonBlank? code <;> rfl
  holds := by
    rw [f.disableWarning_types code]
    exact h.holds

/-- A call does to the shelves what it does to the types of the file. -/
theorem Represents.perform (h : s.Represents f) (call : FileCall) (p : Preamble) :
    (s.perform call).Represents (call.perform ⟨f, p⟩).1.file := by
  cases call with
  | type place call => exact ⟨h.frame, h.holds.call place call⟩
  | edit edit =>
    cases edit with
    | addClass name edits =>
      have new : s.frame.newClass name = f.newClass name := by rw [h.frame]; rfl
      simp only [ShelvedFile.perform, new]
      exact h.add _
    | addEnum name edits =>
      have new : s.frame.newEnum name = f.newEnum name := by rw [h.frame]; rfl
      simp only [ShelvedFile.perform, new]
      exact h.add _
    | addRecord name edits =>
      have new : s.frame.newRecord name = f.newRecord name := by rw [h.frame]; rfl
      simp only [ShelvedFile.perform, new]
      exact h.add _
    | addDelegate name edits => exact h.add _
    | disableWarning code =>
      simp only [ShelvedFile.perform, FileCall.perform, FileEdit.perform]
      exact h.disableWarning code
    | options options => exact ⟨congrArg (fun g : File => { g with options }) h.frame, h.holds⟩
    | importNamespaces | assemblyAttribute | copy | look => exact h

end ShelvedFile

/-! ## What calls declare -/

namespace FileCall

/-- What a call on a file declares: a kind and a trimmed name. -/
def declared : FileCall → List (TypeDeclaration.Kind × String)
  | .edit (.addClass name _) => [(.class, Text.trim name)]
  | .edit (.addEnum name _) => [(.enum, Text.trim name)]
  | .edit (.addRecord name _) => [(.record, Text.trim name)]
  | .edit (.addDelegate name _) => [(.delegate, Text.trim name)]
  | _ => []

/-- A call on a type keeps the kinds and names of all types. -/
theorem titles_atIndex (types : List TypeDeclaration) (i : Nat) (call : TypeCall) :
    (Edited.atIndex (·.call call) types i).value.map TypeDeclaration.title =
      types.map TypeDeclaration.title := by
  unfold Edited.atIndex
  split
  · rfl
  · next t found =>
    obtain ⟨bound, rfl⟩ := List.getElem?_eq_some_iff.mp found
    rw [Edited.map, List.map_set, types[i].title_call call, ← List.map_set, List.set_getElem_self]

theorem titles_add (f : File) {t : TypeDeclaration} {kind : TypeDeclaration.Kind} {name : String}
    (same : t.title = (kind, name)) : (f.add t).types.map TypeDeclaration.title =
      f.types.map TypeDeclaration.title ++ [(kind, name)] := by
  rw [File.add, List.map_append, List.map_singleton, same]

/-- The kinds and names of the types are those that were declared. -/
theorem titles_perform (call : FileCall) (f : File) (p : Preamble) :
    (call.perform ⟨f, p⟩).1.file.types.map TypeDeclaration.title =
      f.types.map TypeDeclaration.title ++ call.declared := by
  cases call with
  | type i call => exact (titles_atIndex f.types i call).trans (List.append_nil _).symm
  | edit edit =>
    cases edit with
    | addClass name edits =>
      exact titles_add f (congrArg (TypeDeclaration.Kind.class, ·) (Class.name_performAll edits _))
    | addEnum name edits =>
      exact titles_add f (congrArg (TypeDeclaration.Kind.enum, ·)
        (Edited.each_same Enum.name_perform _ edits))
    | addRecord name edits =>
      exact titles_add f (congrArg (TypeDeclaration.Kind.record, ·)
        (Edited.each_same Record.name_perform _ edits))
    | addDelegate name edits =>
      exact titles_add f (congrArg (TypeDeclaration.Kind.delegate, ·)
        (Edited.each_same Delegate.name_perform _ edits))
    | disableWarning code =>
      have types := f.disableWarning_types code
      exact (congrArg (List.map TypeDeclaration.title) types).trans (List.append_nil _).symm
    | importNamespaces | assemblyAttribute | options | copy | look => exact (List.append_nil _).symm

end FileCall

/-! ## Files on a desk -/

/-- A file on shelves, with the kinds and names that its calls declared so far. -/
structure TrackedFile where
  shelved : ShelvedFile
  declared : List (TypeDeclaration.Kind × String) := []

namespace TrackedFile

def perform (t : TrackedFile) (call : FileCall) : TrackedFile where
  shelved := t.shelved.perform call
  declared := t.declared ++ call.declared

/-- The shelves hold the types of a file, which have the kinds and names that were declared. -/
structure Represents (t : TrackedFile) (f : File) : Prop where
  shelved : t.shelved.Represents f
  titles : f.types.map TypeDeclaration.title = t.declared

theorem Represents.perform {t : TrackedFile} {f : File} (h : t.Represents f) (call : FileCall)
    (p : Preamble) : (t.perform call).Represents (call.perform ⟨f, p⟩).1.file where
  shelved := h.shelved.perform call p
  titles := by rw [call.titles_perform, h.titles, TrackedFile.perform]

end TrackedFile

namespace Desk

/-- Follows every file of a desk through a step. A copy starts where its file has come to. -/
def follow (tracked : List TrackedFile) : Step → List TrackedFile
  | .file i call => tracked.modify i (·.perform call)
  | .copyFile i => tracked ++ tracked[i]?.toList
  | .register _ | .copyType .. | .loose .. => tracked

def followAll (tracked : List TrackedFile) (steps : List Step) : List TrackedFile :=
  steps.foldl follow tracked

theorem files_step_file (desk : Desk) (i : Nat) (call : FileCall) :
    (desk.step (.file i call)).files =
      desk.files.modify i fun f => (call.perform ⟨f, desk.preamble⟩).1.file := by
  rw [step, draft?, List.modify_eq_set_getElem?]
  cases desk.files[i]? <;> rfl

theorem forall₂_modify {α β : Type} {R : α → β → Prop} {f : α → α} {g : β → β}
    (keeps : ∀ a b, R a b → R (f a) (g b)) {as : List α} {bs : List β} (h : List.Forall₂ R as bs)
    (i : Nat) : List.Forall₂ R (as.modify i f) (bs.modify i g) := by
  induction h generalizing i with
  | nil => simp
  | cons first rest ih =>
    cases i with
    | zero => exact .cons (keeps _ _ first) rest
    | succ i => exact .cons first (ih i)

theorem forall₂_getElem? {α β : Type} {R : α → β → Prop} {as : List α} {bs : List β}
    (h : List.Forall₂ R as bs) (i : Nat) : List.Forall₂ R as[i]?.toList bs[i]?.toList := by
  induction h generalizing i with
  | nil => exact .nil
  | cons first rest ih =>
    cases i with
    | zero => exact .cons first .nil
    | succ i => exact ih i

/-- A step on a desk keeps every file represented, copies included. -/
theorem represents_step {tracked : List TrackedFile} {desk : Desk}
    (h : List.Forall₂ TrackedFile.Represents tracked desk.files) (s : Step) :
    List.Forall₂ TrackedFile.Represents (follow tracked s) (desk.step s).files := by
  cases s with
  | file i call =>
    rw [files_step_file]
    exact forall₂_modify (fun t f represents => represents.perform call desk.preamble) h i
  | copyFile i => exact List.rel_append h (forall₂_getElem? h i)
  | register | copyType | loose => exact h

/-- So do several steps. -/
theorem represents_run {tracked : List TrackedFile} {desk : Desk}
    (h : List.Forall₂ TrackedFile.Represents tracked desk.files) (steps : List Step) :
    List.Forall₂ TrackedFile.Represents (followAll tracked steps) (desk.run steps).files := by
  induction steps generalizing tracked desk with
  | nil => exact h
  | cons s rest ih => exact ih (represents_step h s)

/-- The types of every file on a desk, whatever calls were made on the file and on what is inside
it, on its copies and on copies of its types. No index of its shelves is out of range, and they hold
its types in order. There is one type for each call that added one, in the order of these calls and
with the kind and the trimmed name of the call; a copy has those that its file had until then. A
built file holds their texts in this order. -/
theorem types_in_call_order (name : String) (steps : List Step) :
    let desk := (⟨{}, [.ofNamespace name], []⟩ : Desk).run steps
    List.Forall₂ (fun (t : TrackedFile) (f : File) =>
        t.shelved.file? = some f ∧ f.types.map TypeDeclaration.title = t.declared ∧
        ∀ text, f.build desk.preamble = .ok text →
          ∃ pieces, pieces.length = t.declared.length ∧ f.HoldsTypes desk.preamble text pieces)
      (followAll [{ shelved := .ofNamespace name }] steps) desk.files := by
  intro desk
  have start : List.Forall₂ TrackedFile.Represents [{ shelved := .ofNamespace name }]
      (⟨{}, [.ofNamespace name], []⟩ : Desk).files :=
    .cons ⟨ShelvedFile.represents_ofNamespace name, rfl⟩ .nil
  refine (represents_run start steps).imp fun t f h => ?_
  refine ⟨h.shelved.file?_eq, h.titles, fun text ok => ?_⟩
  obtain ⟨pieces, holds⟩ := File.build_holdsTypes ok
  refine ⟨pieces, ?_, holds⟩
  rw [holds.length_eq, ← h.titles, List.length_map]

/-- Four kinds of types, one of them edited after it was added, and a copy that goes its own way. -/
def sampleSteps : List Step := [
  .file 0 (.edit (.addRecord "Point" [.addProperty "int" "X" []])),
  .file 0 (.edit (.addDelegate " Callback " [])),
  .copyFile 0,
  .file 1 (.edit (.addClass "Zebra" [])),
  .file 0 (.edit (.addEnum "Color" [])),
  .file 0 (.type 2 (.enum (.addValue "Red" none []))),
  .file 0 (.edit (.options { indent := .tabs })),
  .file 0 (.edit (.addClass "Zebra" [.makeSealed]))]

theorem types_in_call_order_sample :
    let desk := (⟨{}, [.ofNamespace "Sample"], []⟩ : Desk).run sampleSteps
    ∃ file copy text pieces, desk.files = [file, copy] ∧
      file.types.map TypeDeclaration.title =
        [(.record, "Point"), (.delegate, "Callback"), (.enum, "Color"), (.class, "Zebra")] ∧
      copy.types.map TypeDeclaration.title =
        [(.record, "Point"), (.delegate, "Callback"), (.class, "Zebra")] ∧
      file.build desk.preamble = .ok text ∧ pieces.length = 4 ∧
      file.HoldsTypes desk.preamble text pieces := by
  intro desk
  obtain ⟨t, u, tracked, first, second⟩ : ∃ t u : TrackedFile,
      followAll [{ shelved := .ofNamespace "Sample" }] sampleSteps = [t, u] ∧
      t.declared = [(.record, "Point"), (.delegate, "Callback"), (.enum, "Color"),
        (.class, "Zebra")] ∧
      u.declared = [(.record, "Point"), (.delegate, "Callback"), (.class, "Zebra")] :=
    ⟨_, _, rfl, by decide, by decide⟩
  obtain ⟨file, copy, files, none⟩ : ∃ file copy, desk.files = [file, copy] ∧
      file.allProperties = [] := ⟨_, _, rfl, rfl⟩
  have all := types_in_call_order "Sample" sampleSteps
  dsimp only at all
  rw [tracked, files, List.forall₂_cons, List.forall₂_cons, first, second] at all
  obtain ⟨⟨-, titles, builds⟩, ⟨-, copied, -⟩, -⟩ := all
  obtain ⟨text, ok⟩ := file.exists_build (by simp [none]) (by simp [none]) desk.preamble
  obtain ⟨pieces, length, holds⟩ := builds text ok
  exact ⟨file, copy, text, pieces, files, titles, copied, ok, length, holds⟩

end Desk

end CSharpGen

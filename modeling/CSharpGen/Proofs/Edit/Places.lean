import CSharpGen.Proofs.Edit.Calls

/-!
# Declarations at their places

A declaration that was added to a file can be edited at its place, as can its members, the classes
nested in it and theirs. The place is given by the indices that lead to it. As for any edit, what is
registered does not depend on the preamble (`FileCall.preamble_perform`), and neither does the file
that is left (`FileCall.file_perform`).
-/

namespace CSharpGen

namespace Edited

variable {ρ α β : Type}

def map (f : α → β) (e : Edited ρ α) : Edited ρ β :=
  { value := f e.value, reply := e.reply, registered := e.registered }

/-- Edits the item at an index. -/
def atIndex (perform : α → Edited Reply α) (items : List α) (i : Nat) : Edited Reply (List α) :=
  match items[i]? with
  | none => { value := items, reply := .absent }
  | some item => (perform item).map (items.set i)

/-- The item that was added last. -/
theorem atIndex_length (perform : α → Edited Reply α) (before : List α) (item : α) :
    atIndex perform (before ++ [item]) before.length =
      (perform item).map fun new => before ++ [new] := by
  unfold atIndex
  rw [List.getElem?_append_right (Nat.le_refl _), Nat.sub_self]
  simp [map, List.set_append_right]

end Edited

/-! ## Calls -/

/-- A call on a class or on something inside it. -/
inductive ClassCall where
  | edit (edit : ClassEdit)
  | property (i : Nat) (edit : PropertyEdit)
  | method (i : Nat) (edit : MethodEdit)
  | constructor (i : Nat) (edit : ConstructorEdit)
  | event (i : Nat) (edit : EventEdit)
  | delegate (i : Nat) (edit : DelegateEdit)
  | nested (i : Nat) (call : ClassCall)

/-- A call on a type or on something inside it. -/
inductive TypeCall where
  | class (call : ClassCall)
  | enum (edit : EnumEdit)
  | enumValue (i : Nat) (edit : EnumValueEdit)
  | record (edit : RecordEdit)
  | recordProperty (i : Nat) (edit : RecordPropertyEdit)
  | delegate (edit : DelegateEdit)

/-- A call on a file or on something inside it. -/
inductive FileCall where
  | edit (edit : FileEdit)
  | type (i : Nat) (call : TypeCall)

def Class.call : ClassCall → Class → Edited Reply Class
  | .edit edit, c => Class.perform edit c
  | .property i edit, c =>
    (Edited.atIndex (·.perform edit) c.properties i).map ({ c with properties := · })
  | .method i edit, c => (Edited.atIndex (·.perform edit) c.methods i).map ({ c with methods := · })
  | .constructor i edit, c =>
    (Edited.atIndex (·.perform edit) c.constructors i).map ({ c with constructors := · })
  | .event i edit, c => (Edited.atIndex (·.perform edit) c.events i).map ({ c with events := · })
  | .delegate i edit, c =>
    (Edited.atIndex (·.perform edit) c.delegates i).map ({ c with delegates := · })
  | .nested i call, c => (Edited.atIndex (Class.call call) c.nested i).map ({ c with nested := · })

/-- A call that does not fit the type finds nothing to act on. -/
def TypeDeclaration.call : TypeDeclaration → TypeCall → Edited Reply TypeDeclaration
  | .class c, .class call => (c.call call).map .class
  | .enum e, .enum edit => (e.perform edit).map .enum
  | .enum e, .enumValue i edit =>
    (Edited.atIndex (·.perform edit) e.values i).map fun values => .enum { e with values }
  | .record r, .record edit => (r.perform edit).map .record
  | .record r, .recordProperty i edit =>
    (Edited.atIndex (·.perform edit) r.properties i).map fun properties =>
      .record { r with properties }
  | .delegate d, .delegate edit => (d.perform edit).map .delegate
  | t, _ => { value := t, reply := .absent }

namespace FileCall

def perform : FileCall → Draft → Draft × Reply
  | .edit e, d => FileEdit.perform e d
  | .type i call, d =>
    let types := Edited.atIndex (·.call call) d.file.types i
    ({ d with file := { d.file with types := types.value } }.register types.registered, types.reply)

def performAll (calls : List FileCall) (d : Draft) : Draft :=
  calls.foldl (fun d call => (call.perform d).1) d

/-- What a call on a file asks for. -/
def registered (f : File) : FileCall → List Registration
  | .edit e => e.calls
  | .type i call => (Edited.atIndex (·.call call) f.types i).registered

theorem preamble_perform (call : FileCall) (d : Draft) :
    (call.perform d).1.preamble = d.preamble.registerAll (call.registered d.file) := by
  cases call with
  | edit e => exact e.preamble_perform d
  | type i call => rfl

/-- What a call makes of a file does not depend on what was registered before. -/
theorem file_perform (call : FileCall) (f : File) (p q : Preamble) :
    (call.perform ⟨f, p⟩).1.file = (call.perform ⟨f, q⟩).1.file := by
  cases call with
  | edit e => cases e <;> rfl
  | type i call => rfl

end FileCall

/-! ## Edits through a handle -/

/-- Editing a class after it was added is adding the edited class. -/
theorem FileEdit.perform_addClass (name : String) (edits : List ClassEdit) (d : Draft) :
    (FileEdit.perform (.addClass name edits) d).1 =
      FileCall.performAll (edits.map fun edit => .type d.file.types.length (.class (.edit edit)))
        (FileEdit.perform (.addClass name []) d).1 := by
  let holding (c : Class) (asked : List Registration) : Draft :=
    { d with file := d.file.add (.class c) }.register asked
  have first (edit : ClassEdit) (c : Class) (asked : List Registration) :
      ((FileCall.type d.file.types.length (.class (.edit edit))).perform (holding c asked)).1 =
        holding (Class.perform edit c).value (asked ++ (Class.perform edit c).registered) := by
    have last := Edited.atIndex_length (TypeDeclaration.call · (.class (.edit edit)))
      d.file.types (.class c)
    simp only [holding, FileCall.perform, Draft.register, File.add, last,
      Preamble.registerAll_append]
    rfl
  have all (c : Class) (asked : List Registration) :
      holding (Class.performAll edits c).value (asked ++ (Class.performAll edits c).registered) =
        FileCall.performAll (edits.map fun edit => .type d.file.types.length (.class (.edit edit)))
          (holding c asked) := by
    induction edits generalizing c asked with
    | nil => simp [FileCall.performAll, Class.performAll]
    | cons edit rest ih =>
      rw [Class.performAll, ← List.append_assoc, ih, ← first, List.map_cons]
      rfl
  exact all (d.file.newClass name) []

end CSharpGen

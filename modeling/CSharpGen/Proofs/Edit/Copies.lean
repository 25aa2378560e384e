import CSharpGen.Proofs.Edit.Places

/-!
# Copies of files

A copy of a file shares the preamble with the file and nothing else. Whatever is done to other
copies, to declarations in them and to copies of these declarations, a file sees only what is
registered; apart from that it is what its own calls make of it (`Desk.copyFile_independent`).
-/

namespace CSharpGen

/-- Files that share one preamble, and copies of types that stand in no file. -/
structure Desk where
  preamble : Preamble
  files : List File
  loose : List TypeDeclaration := []

namespace Desk

inductive Step where
  /-- A registration by hand. -/
  | register (r : Registration)
  | file (i : Nat) (call : FileCall)
  | copyFile (i : Nat)
  /-- Copies a type of a file, or a class inside it. -/
  | copyType (i t : Nat) (path : List Nat)
  | loose (i : Nat) (call : TypeCall)

/-- A file with the preamble that it shares. -/
def draft? (desk : Desk) (i : Nat) : Option Draft := desk.files[i]?.map (⟨·, desk.preamble⟩)

/-- The type itself, or the class that the indices lead to. -/
def inner? : List Nat → TypeDeclaration → Option TypeDeclaration
  | [], t => some t
  | i :: path, .class c => c.nested[i]?.bind fun inner => inner? path (.class inner)
  | _ :: _, _ => none

/-- The type that the indices lead to, if there is one. -/
def typeAt (desk : Desk) (i t : Nat) (path : List Nat) : Option TypeDeclaration := do
  let file ← desk.files[i]?
  inner? path (← file.types[t]?)

def step (desk : Desk) : Step → Desk
  | .register r => { desk with preamble := desk.preamble.register r }
  | .file i call =>
    match desk.draft? i with
    | none => desk
    | some d =>
      let new := (call.perform d).1
      { desk with preamble := new.preamble, files := desk.files.set i new.file }
  | .copyFile i => { desk with files := desk.files ++ desk.files[i]?.toList }
  | .copyType i t path => { desk with loose := desk.loose ++ (desk.typeAt i t path).toList }
  | .loose i call =>
    let types := Edited.atIndex (·.call call) desk.loose i
    { desk with loose := types.value, preamble := desk.preamble.registerAll types.registered }

def run (desk : Desk) (steps : List Step) : Desk := steps.foldl step desk

/-- What a step registers. -/
def asked (desk : Desk) : Step → List Registration
  | .register r => [r]
  | .file i call => desk.files[i]?.elim [] (call.registered ·)
  | .copyFile _ | .copyType .. => []
  | .loose i call => (Edited.atIndex (·.call call) desk.loose i).registered

/-- What a run registers, in order. -/
def askedAll : Desk → List Step → List Registration
  | _, [] => []
  | desk, s :: rest => desk.asked s ++ askedAll (desk.step s) rest

theorem preamble_step (desk : Desk) (s : Step) :
    (desk.step s).preamble = desk.preamble.registerAll (desk.asked s) := by
  cases s with
  | file i call =>
    rw [step, asked, draft?]
    cases desk.files[i]? with
    | none => rfl
    | some f => exact call.preamble_perform ⟨f, desk.preamble⟩
  | register | copyFile | copyType | loose => rfl

/-! ## What one file sees -/

/-- What happens to a file: a call on it, or registrations by others. -/
inductive Turn where
  | own (call : FileCall)
  | others (rs : List Registration)

def Turn.perform : Turn → Draft → Draft
  | .own call, d => (call.perform d).1
  | .others rs, d => d.register rs

def Turn.performAll (turns : List Turn) (d : Draft) : Draft :=
  turns.foldl (fun d turn => turn.perform d) d

/-- A call on the file at a place or on something inside it. -/
def Step.On (place : Nat) : Step → Prop
  | .file i _ => i = place
  | _ => False

/-- What a step is for the file at a place. -/
def turn (desk : Desk) (place : Nat) (s : Step) : Turn :=
  match s with
  | .file i call => if i = place then .own call else .others (desk.asked s)
  | _ => .others (desk.asked s)

/-- What a run is for the file at a place. -/
def turns (place : Nat) : Desk → List Step → List Turn
  | _, [] => []
  | desk, s :: rest => desk.turn place s :: turns place (desk.step s) rest

/-- A step that is no call on a file leaves the file as it is. -/
theorem step_files {desk : Desk} {place : Nat} {f : File} (found : desk.files[place]? = some f)
    {s : Step} (other : ¬s.On place) : (desk.step s).files[place]? = some f := by
  cases s with
  | file i call =>
    rw [step]
    cases desk.draft? i with
    | none => exact found
    | some d => exact (List.getElem?_set_ne other).trans found
  | copyFile i =>
    have bound := (List.getElem?_eq_some_iff.mp found).1
    exact (List.getElem?_append_left bound).trans found
  | register | copyType | loose => exact found

theorem draft?_step_of_not_on {desk : Desk} {place : Nat} {d : Draft}
    (held : desk.draft? place = some d) {s : Step} (other : ¬s.On place) :
    (desk.step s).draft? place = some (d.register (desk.asked s)) := by
  obtain ⟨f, found, rfl⟩ := Option.map_eq_some_iff.mp held
  rw [draft?, step_files found other, preamble_step]
  rfl

theorem draft?_step_file {desk : Desk} {place : Nat} {d : Draft}
    (held : desk.draft? place = some d) (call : FileCall) :
    (desk.step (.file place call)).draft? place = some (call.perform d).1 := by
  obtain ⟨f, found, -⟩ := Option.map_eq_some_iff.mp held
  have bound := (List.getElem?_eq_some_iff.mp found).1
  rw [step, held]
  simp [draft?, bound]

theorem draft?_step {desk : Desk} {place : Nat} {d : Draft} (held : desk.draft? place = some d)
    (s : Step) : (desk.step s).draft? place = some ((desk.turn place s).perform d) := by
  unfold turn
  split
  · next i call =>
    split
    · next same =>
      subst same
      exact draft?_step_file held call
    · next other => exact draft?_step_of_not_on held other
  · next other =>
    refine draft?_step_of_not_on held fun own => ?_
    cases s with
    | file i call => exact other i call rfl
    | register | copyFile | copyType | loose => exact own

theorem draft?_run {desk : Desk} {place : Nat} {d : Draft} (held : desk.draft? place = some d)
    (steps : List Step) :
    (desk.run steps).draft? place = some (Turn.performAll (desk.turns place steps) d) := by
  induction steps generalizing desk d with
  | nil => exact held
  | cons s rest ih => exact ih (draft?_step held s)

theorem draft?_run_of_not_on {desk : Desk} {place : Nat} {d : Draft}
    (held : desk.draft? place = some d) {steps : List Step} (others : ∀ s ∈ steps, ¬s.On place) :
    (desk.run steps).draft? place = some (d.register (desk.askedAll steps)) := by
  induction steps generalizing desk d with
  | nil => exact held
  | cons s rest ih =>
    have first := draft?_step_of_not_on held (others s List.mem_cons_self)
    rw [askedAll, Draft.register, Preamble.registerAll_append]
    exact ih first fun other member => others other (List.mem_cons_of_mem s member)

/-! ## A file and its copy -/

/-- A copy is the file that it was made of. -/
theorem draft?_copyFile {desk : Desk} {i : Nat} {d : Draft} (held : desk.draft? i = some d) :
    (desk.step (.copyFile i)).draft? i = some d ∧
      (desk.step (.copyFile i)).draft? desk.files.length = some d := by
  obtain ⟨f, found, rfl⟩ := Option.map_eq_some_iff.mp held
  have bound := (List.getElem?_eq_some_iff.mp found).1
  constructor
  · rw [draft?, step, List.getElem?_append_left bound, found]
    rfl
  · simp [draft?, step, found]

/-- A copy shares the preamble with its file and nothing else. After any steps, whether on the file,
on the copy, on other copies or on types copied out of them, the file and the copy are each what
their own calls make of the file as it was, with the registrations of the other steps in between.
Where there are no calls on one of them, it is the file as it was with these registrations, so it
has the same types and options and builds as that does. -/
theorem copyFile_independent {desk : Desk} {i : Nat} {d : Draft} (held : desk.draft? i = some d)
    (steps : List Step) :
    let copied := desk.step (.copyFile i)
    ∀ place, place = i ∨ place = desk.files.length →
      (copied.run steps).draft? place = some (Turn.performAll (copied.turns place steps) d) ∧
        ((∀ s ∈ steps, ¬s.On place) →
          (copied.run steps).draft? place = some (d.register (copied.askedAll steps))) := by
  intro copied place either
  have start : copied.draft? place = some d := by
    rcases either with rfl | rfl
    · exact (draft?_copyFile held).1
    · exact (draft?_copyFile held).2
  exact ⟨draft?_run start steps, draft?_run_of_not_on start⟩

/-- Edits of the file at a place, one after the other. -/
theorem draft?_run_edits {desk : Desk} {place : Nat} {d : Draft}
    (held : desk.draft? place = some d) (edits : List FileEdit) :
    (desk.run (edits.map fun edit => .file place (.edit edit))).draft? place =
        some (FileEdit.performAll edits d).1 ∧
      desk.askedAll (edits.map fun edit => .file place (.edit edit)) = FileEdit.callsAll edits := by
  induction edits generalizing desk d with
  | nil => exact ⟨held, rfl⟩
  | cons edit rest ih =>
    obtain ⟨f, found, -⟩ := Option.map_eq_some_iff.mp held
    obtain ⟨file, calls⟩ := ih (draft?_step_file held (.edit edit))
    refine ⟨file, ?_⟩
    rw [List.map_cons, askedAll, calls, asked, found]
    rfl

/-- The edit that edits a copy and drops it does what editing a copy does to its file. -/
theorem draft?_run_copy (d : Draft) (edits : List FileEdit) :
    let copied := (⟨d.preamble, [d.file], []⟩ : Desk).step (.copyFile 0)
    (copied.run (edits.map fun edit => .file 1 (.edit edit))).draft? 0 =
      some (FileEdit.perform (.copy edits) d).1 := by
  intro copied
  have held : (⟨d.preamble, [d.file], []⟩ : Desk).draft? 0 = some d := rfl
  obtain ⟨file, copy⟩ := draft?_copyFile held
  have others : ∀ s ∈ edits.map fun edit => Step.file 1 (.edit edit), ¬s.On 0 := by
    simp [Step.On]
  have dropped : (FileEdit.perform (.copy edits) d).1 = d.register (FileEdit.callsAll edits) :=
    congrArg (fun p => { d with preamble := p }) (FileEdit.preamble_performAll edits d)
  rw [draft?_run_of_not_on file others, dropped]
  exact congrArg (fun rs => some (d.register rs)) (draft?_run_edits copy edits).2

/-- A shop with one class. -/
def shop : Draft := (FileEdit.performAll [.addClass "Shop" []] (.ofNamespace "Sample")).1

/-- Edits of a copy, of the class in it and of a copy of that class. -/
def shopSteps : List Step := [
  .file 1 (.type 0 (.class (.edit (.base "Trade.Branch")))),
  .file 1 (.edit (.addEnum "Days" [.flags])),
  .copyType 1 0 [],
  .loose 0 (.class (.edit (.addInterfaces ["Tax.IPayer"]))),
  .file 1 (.edit (.options { indent := .tabs })),
  .register (.assemblyAttribute "CLSCompliant(true)")]

theorem copyFile_independent_shop :
    let copied := (⟨shop.preamble, [shop.file], []⟩ : Desk).step (.copyFile 0)
    (∀ s ∈ shopSteps, ¬s.On 0) ∧
      (copied.run shopSteps).draft? 0 = some (shop.register [
        .importNamespaceOf "Trade.Branch", .importNamespace "System",
        .importNamespaceOf "Tax.IPayer", .assemblyAttribute "CLSCompliant(true)"]) ∧
      (copied.run shopSteps).draft? 1 = some (Turn.performAll (copied.turns 1 shopSteps) shop) := by
  intro copied
  have held : (⟨shop.preamble, [shop.file], []⟩ : Desk).draft? 0 = some shop := rfl
  have others : ∀ s ∈ shopSteps, ¬s.On 0 := by simp [shopSteps, Step.On]
  have file := (copyFile_independent held shopSteps 0 (.inl rfl)).2 others
  have copy := (copyFile_independent held shopSteps 1 (.inr rfl)).1
  exact ⟨others, file, copy⟩

end Desk

end CSharpGen

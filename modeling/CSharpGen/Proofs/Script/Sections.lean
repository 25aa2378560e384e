import CSharpGen.Script.Run

/-!
# Groups of scripts

Writing groups of scripts runs each script once, in the order of the groups, and adds nothing but
blank lines between them (`Run.sections_ofScripts`).
-/

namespace CSharpGen

namespace Sections

variable {α : Type}

/-- The items of one group, each with whether a blank line goes before it. -/
def markedItems (spacing : Spacing) (hadOutput : Bool) : (wroteAny : Bool) → List α → List (Bool × α)
  | _, [] => []
  | wroteAny, item :: rest =>
    (separates spacing hadOutput wroteAny, item) :: markedItems spacing hadOutput true rest

/-- The items of all groups, each with whether a blank line goes before it. -/
def marked : (hadOutput : Bool) → List (Spacing × List α) → List (Bool × α)
  | _, [] => []
  | hadOutput, (spacing, items) :: rest =>
    markedItems spacing hadOutput false items ++ marked (hadOutput || !items.isEmpty) rest

theorem markedItems_map_snd (spacing : Spacing) (hadOutput wroteAny : Bool) (items : List α) :
    (markedItems spacing hadOutput wroteAny items).map (·.2) = items := by
  induction items generalizing wroteAny with
  | nil => rfl
  | cons item rest ih => rw [markedItems, List.map_cons, ih]

theorem marked_map_snd (hadOutput : Bool) (groups : List (Spacing × List α)) :
    (marked hadOutput groups).map (·.2) = groups.flatMap (·.2) := by
  induction groups generalizing hadOutput with
  | nil => rfl
  | cons group rest ih =>
    rw [marked, List.map_append, markedItems_map_snd, ih, List.flatMap_cons]

/-- What holds of all items of the groups. -/
theorem forall_mem_marked {P : α → Prop} {groups : List (Spacing × List α)}
    (all : ∀ group ∈ groups, ∀ item ∈ group.2, P item) (hadOutput : Bool) :
    ∀ part ∈ marked hadOutput groups, P part.2 := by
  intro part member
  have isItem := List.mem_map_of_mem (f := (·.2)) member
  rw [marked_map_snd] at isItem
  obtain ⟨group, isGroup, isItem⟩ := List.mem_flatMap.mp isItem
  exact all group isGroup part.2 isItem

end Sections

/-- Runs scripts one after the other, with a blank line before those that are marked. -/
def Script.runEach : List (Bool × Script) → Run → Run
  | [], r => r
  | (gap, script) :: rest, r =>
    runEach rest (Step.runAll script (if gap then r.update Writer.newLine else r))

namespace Run

theorem runEach_append (before after : List (Bool × Script)) (r : Run) :
    Script.runEach (before ++ after) r = Script.runEach after (Script.runEach before r) := by
  induction before generalizing r with
  | nil => rfl
  | cons entry rest ih => exact ih _

/-- An item that does not fail, with the items after it. -/
theorem writeItems_cons (spacing : Spacing) (hadOutput wroteAny : Bool) {item : Item}
    (succeeds : ∀ r, (item.attempt r).2 = none) (rest : List Item) (r : Run) :
    Sections.writeItems (·.update Writer.newLine) spacing hadOutput wroteAny
        (Item.attempts (item :: rest)) r =
      Sections.writeItems (·.update Writer.newLine) spacing hadOutput true (Item.attempts rest)
        (item.attempt (if Sections.separates spacing hadOutput wroteAny
          then r.update Writer.newLine else r)).1 :=
  Sections.writeItems_of_succeeds (Prod.ext rfl (succeeds _)) (Item.attempts rest)

/-- A group whose items do not fail, with the groups after it. -/
theorem writeGroups_cons (spacing : Spacing) (hadOutput : Bool) {items : List Item}
    (succeeds : ∀ r, (Sections.writeItems (·.update Writer.newLine) spacing hadOutput false
      (Item.attempts items) r).2 = none) (rest : List Group) (r : Run) :
    (Sections.writeGroups (·.update Writer.newLine) hadOutput
        (Group.attempts (.mk spacing items :: rest)) r).state =
      (Sections.writeGroups (·.update Writer.newLine) (hadOutput || !items.isEmpty)
        (Group.attempts rest) (Sections.writeItems (·.update Writer.newLine) spacing hadOutput false
          (Item.attempts items) r).1).state := by
  have none : (Item.attempts items).isEmpty = items.isEmpty := by cases items <;> rfl
  rw [Group.attempts, Sections.writeGroups_of_succeeds (Prod.ext rfl (succeeds r)), none]

/-- Scripts as items of a group. -/
theorem writeItems_scripts (spacing : Spacing) (hadOutput wroteAny : Bool) (scripts : List Script)
    (r : Run) :
    Sections.writeItems (·.update Writer.newLine) spacing hadOutput wroteAny
        (Item.attempts (scripts.map .steps)) r =
      (Script.runEach (Sections.markedItems spacing hadOutput wroteAny scripts) r, none) := by
  induction scripts generalizing wroteAny r with
  | nil => rfl
  | cons script rest ih => exact ih true _

theorem attempts_isEmpty (scripts : List Script) :
    (Item.attempts (scripts.map .steps)).isEmpty = scripts.isEmpty := by
  cases scripts <;> rfl

theorem writeGroups_scripts (hadOutput : Bool) (groups : List (Spacing × List Script)) (r : Run) :
    let outcome := Sections.writeGroups (·.update Writer.newLine) hadOutput
      (Group.attempts (groups.map fun group => .ofScripts group.1 group.2)) r
    outcome.state = Script.runEach (Sections.marked hadOutput groups) r ∧ outcome.failure = none := by
  induction groups generalizing hadOutput r with
  | nil => exact ⟨rfl, rfl⟩
  | cons group rest ih =>
    obtain ⟨spacing, scripts⟩ := group
    simp only [List.map_cons, Group.ofScripts, Group.attempts, Sections.writeGroups,
      writeItems_scripts, attempts_isEmpty, Sections.marked, runEach_append]
    exact ih _ _

/-- Groups of scripts run their scripts in order. -/
theorem sections_ofScripts (groups : List (Spacing × List Script)) (r : Run) :
    (r.sections (Group.attempts (groups.map fun group => .ofScripts group.1 group.2))).writer =
      (Script.runEach (Sections.marked false groups) r).writer := by
  have all := congrArg Run.writer (writeGroups_scripts false groups r).1
  exact all

/-- What a block leaves in the writer depends on what its body leaves there. -/
theorem inBlock_congr {r : Run} {header : String} {constraints : List String} {f g : Run → Run}
    (same : ∀ r, (f r).writer = (g r).writer) :
    (r.inBlock header constraints f).writer = (r.inBlock header constraints g).writer :=
  congrArg (fun w : Writer => w.closeBlock _) (same _)

end Run

/-- Steps run one after the other. -/
theorem Step.runAll_append (before after : Script) (r : Run) :
    Step.runAll (before ++ after) r = Step.runAll after (Step.runAll before r) := by
  induction before generalizing r with
  | nil => rfl
  | cons step rest ih => exact ih _

end CSharpGen

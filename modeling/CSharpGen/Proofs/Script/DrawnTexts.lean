import CSharpGen.Proofs.Script.Outline
import CSharpGen.Proofs.Writer.Follows

/-!
# Texts of drawn scripts

A script that draws an outline writes one text for each level, whatever the writer holds. So the
text of a block is that of its body between two braces, the text of a group of scripts is put
together from their texts, and each of them stands in it as it is (`Script.textAt_sections`,
`Script.within_sections`).
-/

namespace CSharpGen

/-! ## Parts of texts -/

/-- A text that stands in another one. -/
def Text.Within (part whole : String) : Prop := ∃ before after, whole = before ++ part ++ after

namespace Text.Within

variable {s t u : String}

theorem refl (s : String) : Within s s := ⟨"", "", by simp⟩

theorem trans (h : Within s t) (also : Within t u) : Within s u := by
  obtain ⟨before, after, rfl⟩ := h
  obtain ⟨start, stop, rfl⟩ := also
  exact ⟨start ++ before, after ++ stop, by simp only [String.append_assoc]⟩

theorem before (h : Within s t) (u : String) : Within s (t ++ u) :=
  h.trans ⟨"", u, by rw [String.empty_append]⟩

theorem behind (h : Within s t) (u : String) : Within s (u ++ t) :=
  h.trans ⟨u, "", by rw [String.append_empty]⟩

end Text.Within

open Text (Within)

/-! ## Runs -/

namespace Run

variable {f g : Run → Run} {style : Indent} {level : Nat}

theorem textOf_congr (same : ∀ r, (g r).writer = (f r).writer) :
    textOf g style level = textOf f style level := congrArg Writer.body (same _)

/-- What a drawing run appends depends on nothing but the style and the level. -/
theorem Draws.body_eq (h : Draws f) (r : Run) : (f r).writer.body =
    r.writer.body ++ textOf f r.writer.style (r.writer.depth + r.writer.extraIndent) := by
  obtain ⟨n, written⟩ := h.writer_eq r
  rw [written]
  exact Writer.body_appendRaw r.writer _

/-- Two drawing runs draw their texts one after the other. -/
theorem textOf_comp (first : Draws f) (second : Draws g) : textOf (fun r => g (f r)) style level =
    textOf f style level ++ textOf g style level := by
  obtain ⟨n, written⟩ := first.writer_eq { writer := { style, baseDepth := level } }
  have text := second.body_eq (f { writer := { style, baseDepth := level } })
  rw [textOf, text]
  refine congrArg (textOf f style level ++ ·) ?_
  rw [written]
  rfl

theorem textOf_observed (h : Draws f) : textOf (fun r => f r.observe) style level =
    textOf f style level :=
  (h.body_eq { writer := { style, baseDepth := level } : Run }.observe).trans String.empty_append

/-- A block draws its head and its brace around what is drawn inside it, one level deeper. -/
theorem textOf_inBlock (h : Draws f) (header : String) (constraints : List String) :
    textOf (fun r => r.inBlock header constraints f) style level =
      blockText header constraints style level (textOf f style (level + 1)) := by
  let start : Writer := { style, baseDepth := level }
  obtain ⟨n, written⟩ := h.writer_inBlock header constraints { writer := start }
  have text := start.body_appendRaw
    (blockText header constraints style level (textOf f style (level + 1)))
  have nothing : start.body = "" := rfl
  rw [nothing, String.empty_append] at text
  rw [← text, textOf, written]
  rfl

theorem within_blockText (header : String) (constraints : List String) (inner : String) :
    Within inner (blockText header constraints style level inner) :=
  ((Within.refl inner).behind _).before _

end Run

/-! ## Scripts -/

namespace Script

variable {script first second : Script} {style : Indent} {level : Nat}

/-- Scripts that follow each other draw their texts one after the other. -/
theorem textAt_append (h : Draws first) (also : Draws second) :
    textAt style level (first ++ second) = textAt style level first ++ textAt style level second :=
  (Run.textOf_congr fun r => congrArg Run.writer (Step.runAll_append first second r)).trans
    (Run.textOf_comp h also)

theorem textAt_block (h : Draws script) (header : String) (constraints : List String) :
    textAt style level [.block header constraints script] =
      Run.blockText header constraints style level (script.textAt style (level + 1)) := by
  have inBlock : textAt style level [.block header constraints script] =
      Run.textOf (fun r => r.inBlock header constraints fun r => Step.runAll script r.observe)
        style level := Run.textOf_congr fun _ => rfl
  rw [inBlock, Run.textOf_inBlock h.observed, Run.textOf_observed h, textAt]

/-- The texts of scripts, with a blank line before those that are marked. -/
def eachText (style : Indent) (level : Nat) (parts : List (Bool × Script)) : String :=
  String.join (parts.map fun (gap, script) =>
    (if gap then "\n" else "") ++ script.textAt style level)

/-- Scripts with marked gaps draw their texts with empty lines at the marks. -/
theorem draws_runEach {parts : List (Bool × Script)} (all : ∀ part ∈ parts, part.2.Draws) :
    Run.Draws (runEach parts) ∧
      Run.textOf (runEach parts) style level = eachText style level parts := by
  induction parts with
  | nil => exact ⟨Run.draws_id, rfl⟩
  | cons part rest ih =>
    obtain ⟨gap, script⟩ := part
    obtain ⟨own, others⟩ := List.forall_mem_cons.mp all
    obtain ⟨draws, text⟩ := ih others
    have start : Run.Draws (fun r => if gap then r.update Writer.newLine else r) ∧
        Run.textOf (fun r => if gap then r.update Writer.newLine else r) style level =
          if gap then "\n" else "" := by
      cases gap with
      | false => exact ⟨Run.draws_id, rfl⟩
      | true => exact ⟨Run.draws_newLine, rfl⟩
    have both := start.1.comp own
    refine ⟨both.comp draws, ?_⟩
    have steps : Run.textOf (runEach ((gap, script) :: rest)) style level =
        Run.textOf (fun r => Step.runAll script (if gap then r.update Writer.newLine else r))
          style level ++ Run.textOf (runEach rest) style level := Run.textOf_comp both draws
    rw [steps, Run.textOf_comp start.1 own, start.2, text, eachText, eachText, List.map_cons,
      String.join_cons]
    rfl

/-- The texts of groups of scripts. -/
theorem textAt_sections {groups : List (Spacing × List Script)}
    (all : ∀ group ∈ groups, ∀ script ∈ group.2, script.Draws) :
    textAt style level [.sections (groups.map fun group => .ofScripts group.1 group.2)] =
      eachText style level (Sections.marked false groups) := by
  have parts := Sections.forall_mem_marked all false
  rw [← (draws_runEach parts).2]
  exact Run.textOf_congr fun r => Run.sections_ofScripts groups r

/-- The text of each script stands in that of all. -/
theorem within_eachText {part : Bool × Script} {parts : List (Bool × Script)}
    (member : part ∈ parts) : Within (part.2.textAt style level) (eachText style level parts) := by
  induction parts with
  | nil => cases member
  | cons first rest ih =>
    have split : eachText style level (first :: rest) =
        ((if first.1 then "\n" else "") ++ first.2.textAt style level) ++
          eachText style level rest := String.join_cons
    rw [split]
    rcases List.mem_cons.mp member with rfl | later
    · exact ((Within.refl _).behind _).before _
    · exact (ih later).behind _

end Script

/-! ## Groups with other items -/

namespace Run

variable {style : Indent} {level : Nat} {script : Script}

/-- The text of an item stands in that of its group, whichever separators there are. -/
theorem within_writeItems (spacing : Spacing) (hadOutput wroteAny : Bool) {items : List Item}
    (all : ∀ item ∈ items, item.Draws) (member : .steps script ∈ items) :
    Within (script.textAt style level)
      (textOf (fun r => (Sections.writeItems (·.update Writer.newLine) spacing hadOutput wroteAny
        (Item.attempts items) r).1) style level) := by
  induction items generalizing wroteAny with
  | nil => cases member
  | cons item rest ih =>
    obtain ⟨own, others⟩ := List.forall_mem_cons.mp all
    have draws := (draws_writeItems spacing hadOutput true others).2
    have gap : Draws (fun r => if Sections.separates spacing hadOutput wroteAny
        then r.update Writer.newLine else r) := by
      split
      · exact draws_newLine
      · exact draws_id
    have steps : textOf (fun r => (Sections.writeItems (·.update Writer.newLine) spacing hadOutput
        wroteAny (Item.attempts (item :: rest)) r).1) style level = _ :=
      (textOf_congr fun r => by rw [writeItems_cons _ _ _ own.succeeds]).trans
        (textOf_comp (gap.comp own.draws) draws)
    rw [steps, textOf_comp gap own.draws]
    rcases List.mem_cons.mp member with rfl | later
    · exact ((Within.refl _).behind _).before _
    · exact (ih true others later).behind _

/-- The text of an item stands in that of all groups. -/
theorem within_writeGroups (hadOutput : Bool) {groups : List Group}
    (all : ∀ group ∈ groups, group.Draws) {spacing : Spacing} {items : List Item}
    (isGroup : .mk spacing items ∈ groups) (isItem : .steps script ∈ items) :
    Within (script.textAt style level)
      (textOf (fun r => (Sections.writeGroups (·.update Writer.newLine) hadOutput
        (Group.attempts groups) r).state) style level) := by
  induction groups generalizing hadOutput with
  | nil => cases isGroup
  | cons group rest ih =>
    obtain ⟨gap, first⟩ := group
    obtain ⟨own, others⟩ := List.forall_mem_cons.mp all
    obtain ⟨succeeds, draws⟩ := draws_writeItems gap hadOutput false own
    have steps : textOf (fun r => (Sections.writeGroups (·.update Writer.newLine) hadOutput
        (Group.attempts (.mk gap first :: rest)) r).state) style level = _ :=
      (textOf_congr fun r =>
        congrArg Run.writer (writeGroups_cons gap hadOutput succeeds rest r)).trans
          (textOf_comp draws (draws_writeGroups (hadOutput || !first.isEmpty) others))
    rw [steps]
    rcases List.mem_cons.mp isGroup with same | later
    · cases same
      exact (within_writeItems spacing hadOutput false own isItem).before _
    · exact (ih _ others later).behind _

end Run

/-- A script in a group stands in the text of all groups. -/
theorem Script.within_sections {script : Script} {groups : List Group}
    (all : ∀ group ∈ groups, group.Draws) {spacing : Spacing} {items : List Item}
    (isGroup : .mk spacing items ∈ groups) (isItem : .steps script ∈ items) (style : Indent)
    (level : Nat) :
    Within (script.textAt style level) (textAt style level [.sections groups]) :=
  Run.within_writeGroups false all isGroup isItem

end CSharpGen

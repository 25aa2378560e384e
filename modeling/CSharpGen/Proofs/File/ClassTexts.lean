import CSharpGen.Proofs.Declaration.Outlines
import CSharpGen.Proofs.File.BlankLines
import CSharpGen.Proofs.Script.DrawnTexts

/-!
# The texts of classes in their file

The text of a class is its declaration around the texts of its members in order. The text of a
nested class stands in it one level further in, and so the text of every class stands in that of its
file (`Class.exists_textAround`, `File.within_build`).
-/

namespace CSharpGen

open Text (Within)

/-! ## Classes -/

/-- The text of a class around the texts of its members. -/
def ClassCore.textAround (c : ClassCore) (style : Indent) (level : Nat) (members : String) :
    String :=
  c.headScript.textAt style level ++
    Run.blockText c.declaration c.generics.whereClauses style level members

/-- The class at a path, which has the place of the nested class for each level. -/
def Class.at? (c : Class) : List Nat → Option Class
  | [] => some c
  | i :: path => c.nested[i]?.bind (·.at? path)

namespace Class

variable {c : Class} {script : Script}

theorem draws_member (h : ∀ w ∈ c.wording, w.Draws) :
    ∀ member ∈ c.members, ∀ script, member.script = .ok script → script.Draws := by
  obtain ⟨core, nested⟩ := c
  rw [wording, List.forall_mem_append] at h
  exact draws_members (c := ⟨core, nested⟩) h.1 (draws_nested nested h.2)

theorem wordingAll_eq (cs : List Class) : wordingAll cs = cs.flatMap wording := by
  induction cs with
  | nil => rfl
  | cons c rest ih => rw [wordingAll, ih, List.flatMap_cons]

theorem draws_inner (h : ∀ w ∈ c.wording, w.Draws) {inner : Class} (member : inner ∈ c.nested) :
    ∀ w ∈ inner.wording, w.Draws := by
  obtain ⟨core, nested⟩ := c
  rw [wording, List.forall_mem_append, wordingAll_eq, List.forall_mem_flatMap] at h
  exact h.2 inner member

/-- The text of a class is made of the texts of its members, each once and in order. -/
theorem exists_textAround (h : ∀ w ∈ c.wording, w.Draws) (ok : c.script = .ok script) :
    ∃ written : List (Bool × Script), c.members.mapM Member.script = .ok (written.map (·.2)) ∧
      ∀ style level, script.textAt style level =
        c.textAround style level (Script.eachText style (level + 1) written) := by
  obtain ⟨groups, members, rfl⟩ := exists_groups ok
  have draws : ∀ group ∈ groups, ∀ script ∈ group.2, script.Draws := by
    intro group isGroup script isScript
    obtain ⟨member, isMember, written⟩ := exists_of_mapM_ok members script
      (List.mem_flatMap.mpr ⟨group, isGroup, isScript⟩)
    exact draws_member h member isMember script written
  have items : Script.Draws [.sections (groups.map fun group => .ofScripts group.1 group.2)] :=
    Script.draws_sections (List.forall_mem_map.mpr fun group isGroup =>
      Group.draws_ofScripts group.1 (draws group isGroup))
  refine ⟨Sections.marked false groups, (Sections.marked_map_snd false groups).symm ▸ members,
    fun style level => ?_⟩
  have head : c.headScript.Draws := (Script.draws_lines _).append (Script.draws_lines _)
  rw [Script.textAt_append head (items.block _ _), Script.textAt_block items,
    Script.textAt_sections draws, ClassCore.textAround]

theorem within_nested (h : ∀ w ∈ c.wording, w.Draws) (ok : c.script = .ok script) {inner : Class}
    (member : inner ∈ c.nested) (style : Indent) (level : Nat) : ∃ below : Script,
      inner.script = .ok below ∧
      Within (below.textAt style (level + 1)) (script.textAt style level) := by
  obtain ⟨written, members, text⟩ := exists_textAround h ok
  have isMember : .class inner ∈ c.members :=
    List.mem_append_right _ (List.mem_map_of_mem member)
  obtain ⟨below, isWritten, okInner⟩ := mem_of_mapM_ok members isMember
  obtain ⟨part, isPart, rfl⟩ := List.mem_map.mp isWritten
  refine ⟨part.2, okInner, ?_⟩
  rw [text, ClassCore.textAround]
  exact ((Script.within_eachText isPart).trans (Run.within_blockText _ _ _)).behind _

/-- The text of a class at any depth stands in the text of the outermost one. -/
theorem within_at {path : List Nat} {inner : Class} (h : ∀ w ∈ c.wording, w.Draws)
    (ok : c.script = .ok script) (found : c.at? path = some inner) (style : Indent) (level : Nat) :
    (∀ w ∈ inner.wording, w.Draws) ∧ ∃ below : Script, inner.script = .ok below ∧
      Within (below.textAt style (level + path.length)) (script.textAt style level) := by
  induction path generalizing c script level with
  | nil =>
    cases found
    exact ⟨h, script, ok, .refl _⟩
  | cons i path ih =>
    obtain ⟨child, isChild, found⟩ := Option.bind_eq_some_iff.mp found
    have member := List.mem_of_getElem? isChild
    obtain ⟨below, okChild, outer⟩ := within_nested h ok member style level
    obtain ⟨draws, last, okLast, inside⟩ := ih (draws_inner h member) okChild found (level + 1)
    refine ⟨draws, last, okLast, ?_⟩
    rw [List.length_cons, Nat.add_comm path.length, ← Nat.add_assoc]
    exact inside.trans outer

end Class

/-! ## Files -/

namespace File

variable {f : File} {p : Preamble} {text : String}

/-- The class at a path, which starts with the place of a type. -/
def class? (f : File) : List Nat → Option Class
  | [] => none
  | i :: path =>
    match f.types[i]? with
    | some (.class c) => c.at? path
    | _ => none

/-- The level at which the types are written. -/
def typeLevel (f : File) : Nat :=
  if f.namespaceName.isSome && f.options.namespaceStyle == .block then 1 else 0

theorem within_sections {types : List Script} (all : ∀ script ∈ types, script.Draws)
    {script : Script} (member : script ∈ types) (style : Indent) :
    Within (script.textAt style f.typeLevel)
      (Script.textAt style 0 [.sections (f.preambleGroups p ++ f.typeGroups types)]) := by
  have draws : ∀ group ∈ f.preambleGroups p ++ f.typeGroups types, group.Draws := draws_groups all
  have own : ∀ group ∈ [Group.ofScripts .spaced types], group.Draws :=
    List.forall_mem_singleton.mpr (Group.draws_ofScripts .spaced all)
  have isItem : .steps script ∈ types.map Item.steps := List.mem_map_of_mem member
  cases named : f.namespaceName with
  | none =>
    have level : f.typeLevel = 0 := by simp [typeLevel, named]
    have isGroup : Group.ofScripts .spaced types ∈ f.typeGroups types := by simp [typeGroups, named]
    rw [level]
    exact Script.within_sections draws (List.mem_append_right _ isGroup) isItem style 0
  | some name =>
    cases placed : f.options.namespaceStyle with
    | fileScoped =>
      have level : f.typeLevel = 0 := by simp [typeLevel, placed]
      have isGroup : Group.ofScripts .spaced types ∈ f.typeGroups types := by
        simp [typeGroups, named, placed]
      rw [level]
      exact Script.within_sections draws (List.mem_append_right _ isGroup) isItem style 0
    | block =>
      let inner : Script := [.sections [.ofScripts .spaced types]]
      let block : Script := [.block s!"namespace {name}" [] inner]
      have level : f.typeLevel = 1 := by simp [typeLevel, named, placed]
      have isGroup : Group.mk .close [.steps block] ∈ f.typeGroups types := by
        simp [typeGroups, named, placed, Group.ofScripts, block, inner]
      have outer := Script.within_sections draws (List.mem_append_right _ isGroup)
        List.mem_cons_self style 0
      rw [Script.textAt_block (Script.draws_sections own)] at outer
      rw [level]
      exact ((Script.within_sections own List.mem_cons_self isItem style 1).trans
        (Run.within_blockText _ _ _)).trans outer

/-- The text of every class stands in the text of its file. -/
theorem within_build (h : ∀ c, .class c ∈ f.types → ∀ w ∈ c.wording, w.Draws)
    (ok : f.build p = .ok text) {path : List Nat} {c : Class} (found : f.class? path = some c) :
    (∀ w ∈ c.wording, w.Draws) ∧ ∃ script level, c.script = .ok script ∧
      Within (script.textAt f.options.indent level) text := by
  cases path with
  | nil => cases found
  | cons i path =>
    rw [class?] at found
    split at found
    · next outer isType =>
      have member := List.mem_of_getElem? isType
      obtain ⟨script, okScript, rfl⟩ := build_ok ok
      have whole := draws h okScript
      obtain ⟨types, okTypes, okScript⟩ := bind_eq_ok.mp okScript
      cases okScript
      obtain ⟨top, isTop, okTop⟩ := mem_of_mapM_ok okTypes member
      obtain ⟨inner, below, okBelow, inside⟩ :=
        Class.within_at (h outer member) okTop found f.options.indent f.typeLevel
      refine ⟨inner, below, _, okBelow, inside.trans ?_⟩
      rw [whole.render_eq]
      exact within_sections (draws_types h okTypes) isTop f.options.indent
    · cases found

end File

end CSharpGen

import CSharpGen.Proofs.Text.OneLine
import CSharpGen.Text.Cut

/-!
# What cuts leave

A cut leaves a part of a text, and all of it when there is nothing to cut. A text that neither
starts nor ends with a blank is its own trimmed text.
-/

namespace CSharpGen.Text

variable {start stop s : String}

/-! ## Trimmed texts -/

/-- The text starts with a character that is not blank. -/
def StartsSolid (s : String) : Prop := ∃ c, s.toList.head? = some c ∧ isBlank c = false

theorem StartsSolid.append (h : StartsSolid s) (t : String) : StartsSolid (s ++ t) := by
  obtain ⟨c, first, solid⟩ := h
  exact ⟨c, by rw [String.toList_append, List.head?_append, first, Option.some_or], solid⟩

/-- A text that starts and ends with something solid is trimmed already. -/
theorem trim_of_solid (starts : StartsSolid s) (ends : EndsSolid s) : trim s = s := by
  obtain ⟨c, first, solid⟩ := starts
  obtain ⟨rest, split⟩ := List.head?_eq_some_iff.mp first
  have kept : s.toList.dropWhile isBlank = s.toList := by
    rw [split, List.dropWhile_cons_of_neg (by simp [solid])]
  rw [trim, kept]
  exact ends.trimEnd_eq

theorem dropTailWhile_sublist (p : Char → Bool) (cs : List Char) :
    (dropTailWhile p cs).Sublist cs := by
  have kept := (List.dropWhile_sublist p (l := cs.reverse)).reverse
  rwa [List.reverse_reverse] at kept

/-- A tail is dropped unless the list ends with a character outside the class. -/
theorem dropTailWhile_eq_self_iff {p : Char → Bool} {cs : List Char} :
    dropTailWhile p cs = cs ↔ ∀ c, cs.getLast? = some c → p c = false := by
  constructor
  · intro same c last
    rw [← same] at last
    exact getLast?_dropTailWhile last
  · intro outside
    cases last : cs.getLast? with
    | none =>
      rw [List.getLast?_eq_none_iff.mp last]
      rfl
    | some c =>
      obtain ⟨front, rfl⟩ := List.getLast?_eq_some_iff.mp last
      have kept : dropTailWhile p [c] = [c] := by simp [dropTailWhile, outside c last]
      rw [dropTailWhile_append, kept, if_neg (List.cons_ne_nil c [])]

theorem StartsSolid.endsSolid (starts : StartsSolid s) (trimmed : trimEnd s = s) : EndsSolid s := by
  obtain ⟨c, first, -⟩ := starts
  have full : s.toList ≠ [] := fun none => by
    rw [none] at first
    cases first
  have kept : dropTailWhile isBlank s.toList = s.toList := by
    rw [← String.toList_ofList (l := dropTailWhile isBlank s.toList)]
    exact congrArg String.toList trimmed
  exact ⟨_, List.getLast?_eq_some_getLast full,
    dropTailWhile_eq_self_iff.mp kept _ (List.getLast?_eq_some_getLast full)⟩

theorem trim_sublist (s : String) : (trim s).toList.Sublist s.toList := by
  rw [trim, String.toList_ofList]
  exact (dropTailWhile_sublist _ _).trans (List.dropWhile_sublist isBlank)

/-- A text is left as it is by trimming when blanks are at neither of its ends. -/
theorem nonBlank?_self_iff : nonBlank? s = some s ↔ StartsSolid s ∧ EndsSolid s := by
  constructor
  · intro whole
    obtain ⟨trimmed, filled⟩ := nonBlank?_eq_some whole
    have full : s.toList ≠ [] := by
      rintro none
      rw [isBlankText, ← trimmed, String.toList_eq_nil_iff.mp none] at filled
      cases filled
    have tail : s.toList = dropTailWhile isBlank (s.toList.dropWhile isBlank) := by
      conv_lhs => rw [trimmed, trim, String.toList_ofList]
    constructor
    · obtain ⟨c, first⟩ : ∃ c, s.toList.head? = some c := ⟨_, List.head?_eq_some_head full⟩
      have head := List.head?_dropWhile_not isBlank (dropTailWhile isBlank s.toList)
      rw [dropWhile_dropTailWhile, ← tail, first] at head
      exact ⟨c, first, by simpa using head⟩
    · obtain ⟨c, last⟩ : ∃ c, s.toList.getLast? = some c :=
        ⟨_, List.getLast?_eq_some_getLast full⟩
      refine ⟨c, last, ?_⟩
      rw [tail] at last
      exact getLast?_dropTailWhile last
  · rintro ⟨starts, ends⟩
    have filled : (trim s).isEmpty = false := ends.not_blank
    rw [nonBlank?, filled, trim_of_solid starts ends]
    rfl

theorem isBlankText_empty : isBlankText "" = true := by decide

/-- Blanks around a text are trimmed. -/
theorem trim_surrounded {before after : String} (left : isBlankText before = true)
    (right : isBlankText after = true) (s : String) : trim (before ++ s ++ after) = trim s := by
  rw [isBlankText_iff] at left right
  rw [trim, trim, String.toList_append, String.toList_append, List.append_assoc,
    List.dropWhile_append_of_pos left, ← dropWhile_dropTailWhile, dropTailWhile_append,
    if_pos (dropTailWhile_eq_nil_iff.mpr right), dropWhile_dropTailWhile]

/-! ## Runs of one class -/

section Runs

variable {p : Char → Bool} {run rest cs : List Char}

/-- A list falls in one way into a run of the class and a rest that does not start with a member
of it. -/
theorem run_iff :
    run ++ rest = cs ∧ (∀ c ∈ run, p c = true) ∧ (∀ c ∈ rest.head?, p c = false) ↔
      run = cs.takeWhile p ∧ rest = cs.dropWhile p := by
  constructor
  · rintro ⟨rfl, inside, outside⟩
    rw [List.takeWhile_append_of_pos inside, List.dropWhile_append_of_pos inside]
    cases rest with
    | nil => exact ⟨(List.append_nil run).symm, rfl⟩
    | cons c rest =>
      have next : ¬p c = true := by simp [outside c rfl]
      rw [List.takeWhile_cons_of_neg next, List.dropWhile_cons_of_neg next]
      exact ⟨(List.append_nil run).symm, rfl⟩
  · rintro ⟨rfl, rfl⟩
    refine ⟨List.takeWhile_append_dropWhile, List.all_eq_true.mp List.all_takeWhile,
      fun c first => ?_⟩
    have head := List.head?_dropWhile_not p cs
    rw [Option.mem_def.mp first] at head
    simpa using head

/-- The same from the end of the list. -/
theorem run_at_end_iff :
    rest ++ run = cs ∧ (∀ c ∈ run, p c = true) ∧ (∀ c ∈ rest.getLast?, p c = false) ↔
      run = (cs.reverse.takeWhile p).reverse ∧ rest = dropTailWhile p cs := by
  have mirrored := @run_iff p run.reverse rest.reverse cs.reverse
  simp only [List.mem_reverse, List.head?_reverse] at mirrored
  rw [← List.reverse_append, List.reverse_inj] at mirrored
  rw [mirrored, List.reverse_eq_iff, List.reverse_eq_iff, dropTailWhile]

end Runs

/-! ## Starts and ends -/

theorem startsWith_iff : startsWith start s = true ↔ start.toList <+: s.toList :=
  List.isPrefixOf_iff_prefix

theorem startsWith_trans {start longer s : String} (h : startsWith start longer = true)
    (starts : startsWith longer s = true) : startsWith start s = true :=
  startsWith_iff.mpr ((startsWith_iff.mp h).trans (startsWith_iff.mp starts))

theorem StartsSolid.of_startsWith (solid : StartsSolid start)
    (starts : startsWith start s = true) : StartsSolid s := by
  obtain ⟨c, first, isSolid⟩ := solid
  obtain ⟨rest, split⟩ := startsWith_iff.mp starts
  exact ⟨c, by rw [← split, List.head?_append, first, Option.some_or], isSolid⟩

theorem startsWith_append (h : startsWith start s = true) (t : String) :
    startsWith start (s ++ t) = true := by
  rw [startsWith_iff, String.toList_append]
  exact (startsWith_iff.mp h).trans (List.prefix_append _ _)

/-- A start that is there is cut off once. -/
theorem dropStart_append (start s : String) : dropStart start (start ++ s) = s := by
  have found : start.toList.isPrefixOf? (start ++ s).toList = some s.toList :=
    List.isPrefixOf?_eq_some_iff_append_eq.mpr String.toList_append.symm
  rw [dropStart, found]
  exact String.ofList_toList

theorem dropStop_append (s stop : String) : dropStop stop (s ++ stop) = s := by
  have found : stop.toList.isSuffixOf? (s ++ stop).toList = some s.toList :=
    List.isSuffixOf?_eq_some_iff_append_eq.mpr String.toList_append.symm
  rw [dropStop, found]
  exact String.ofList_toList

/-- A text either starts with `start` or is left whole. -/
theorem dropStart_cases (start s : String) :
    (startsWith start s = true ∧ s = start ++ dropStart start s) ∨
      (startsWith start s = false ∧ dropStart start s = s) := by
  unfold dropStart
  split
  · next rest found =>
    have split := List.isPrefixOf?_eq_some_iff_append_eq.mp found
    refine .inl ⟨startsWith_iff.mpr ⟨rest, split⟩, ?_⟩
    rw [← String.toList_inj, String.toList_append, String.toList_ofList, split]
  · next none =>
    refine .inr ⟨Bool.eq_false_iff.mpr fun starts => ?_, rfl⟩
    obtain ⟨rest, split⟩ := startsWith_iff.mp starts
    rw [List.isPrefixOf?_eq_some_iff_append_eq.mpr split] at none
    cases none

/-- Where the start is missing nothing is cut off. -/
theorem dropStart_of_not (h : startsWith start s = false) : dropStart start s = s := by
  rcases dropStart_cases start s with ⟨starts, -⟩ | ⟨-, same⟩
  · rw [h] at starts
    cases starts
  · exact same

theorem dropStart_sublist (start s : String) : (dropStart start s).toList.Sublist s.toList := by
  rcases dropStart_cases start s with ⟨-, split⟩ | ⟨-, same⟩
  · conv_rhs => rw [split, String.toList_append]
    exact List.sublist_append_right _ _
  · rw [same]

theorem dropStop_of_not (h : ¬stop.toList <:+ s.toList) : dropStop stop s = s := by
  unfold dropStop
  split
  · next rest found =>
    exact absurd ⟨rest, List.isSuffixOf?_eq_some_iff_append_eq.mp found⟩ h
  · rfl

theorem dropStop_sublist (stop s : String) : (dropStop stop s).toList.Sublist s.toList := by
  unfold dropStop
  split
  · next rest found =>
    rw [String.toList_ofList, ← List.isSuffixOf?_eq_some_iff_append_eq.mp found]
    exact List.sublist_append_left _ _
  · rfl

/-! ## Parts at a mark -/

/-- What stands before a mark has no other characters than the text. -/
theorem beforeFirst_subset (mark : Char) (s : String) : (beforeFirst mark s).toList ⊆ s.toList := by
  rw [beforeFirst, String.toList_ofList]
  exact (List.takeWhile_sublist _).subset

theorem beforeLast?_subset {mark : Char} {s before : String}
    (cut : beforeLast? mark s = some before) : before.toList ⊆ s.toList := by
  unfold beforeLast? at cut
  split at cut
  · cases cut
  · next rest found =>
    obtain rfl := Option.some.inj cut
    rw [String.toList_ofList]
    intro c member
    have later : c ∈ s.toList.reverse.dropWhile (· != mark) := by
      rw [found]
      exact List.mem_cons_of_mem _ (List.mem_reverse.mp member)
    exact List.mem_reverse.mp ((List.dropWhile_sublist _).subset later)

end CSharpGen.Text

import CSharpGen.Proofs.Text.OneLine

/-!
# Blanks at the ends of lines

A text has no trailing blanks when each of its lines, the last one included, is empty or ends with a
character that is not blank. Such texts can be put behind each other (`noTrailingBlanks_append`).
-/

namespace CSharpGen.Text

variable {s t : String}

/-- The lines of a text, finished or not, end with characters that are not blank. -/
def NoTrailingBlanks (s : String) : Prop :=
  ∀ line ∈ s.toList.splitOn '\n', ∀ c ∈ line.getLast?, isBlank c = false

-- found by instance search, the inner decision could run over all characters there are
instance : DecidablePred NoTrailingBlanks := fun s =>
  have (line : List Char) : Decidable (∀ c ∈ line.getLast?, isBlank c = false) :=
    Option.decidableForallMem line.getLast?
  List.decidableBAll (fun line : List Char => ∀ c ∈ line.getLast?, isBlank c = false)
    (s.toList.splitOn '\n')

/-- The last line of a list goes on with the first line of what follows. -/
theorem splitOn_append {α : Type} [BEq α] (a : α) (cs ds : List α) :
    ∃ before last first after, cs.splitOn a = before ++ [last] ∧ ds.splitOn a = first :: after ∧
      (cs ++ ds).splitOn a = before ++ (last ++ first) :: after := by
  obtain ⟨first, after, second⟩ := List.exists_cons_of_ne_nil (List.splitOn_ne_nil a ds)
  induction cs with
  | nil => exact ⟨[], [], first, after, List.splitOn_nil a, second, second⟩
  | cons c cs ih =>
    obtain ⟨before, last, first, after, here, there, joined⟩ := ih
    rw [List.cons_append, List.splitOn_cons_eq_if_modifyHead, List.splitOn_cons_eq_if_modifyHead,
      here, joined]
    split
    · exact ⟨[] :: before, last, first, after, rfl, there, rfl⟩
    · cases before with
      | nil => exact ⟨[], c :: last, first, after, rfl, there, rfl⟩
      | cons line lines => exact ⟨(c :: line) :: lines, last, first, after, rfl, there, rfl⟩

theorem noTrailingBlanks_append (hs : NoTrailingBlanks s) (ht : NoTrailingBlanks t) :
    NoTrailingBlanks (s ++ t) := by
  obtain ⟨before, last, first, after, ofS, ofT, joined⟩ := splitOn_append '\n' s.toList t.toList
  rw [NoTrailingBlanks, ofS, List.forall_mem_append, List.forall_mem_singleton] at hs
  rw [NoTrailingBlanks, ofT, List.forall_mem_cons] at ht
  rw [NoTrailingBlanks, String.toList_append, joined, List.forall_mem_append, List.forall_mem_cons]
  refine ⟨hs.1, fun c isLast => ?_, ht.2⟩
  -- the joined line ends like the second of its parts, and like the first if the second is empty
  rw [List.getLast?_append, Option.mem_def, Option.or_eq_some_iff] at isLast
  rcases isLast with second | ⟨-, first⟩
  · exact ht.1 c second
  · exact hs.2 c first

theorem noTrailingBlanks_empty : NoTrailingBlanks "" := by decide +kernel

theorem noTrailingBlanks_newline : NoTrailingBlanks "\n" := by decide +kernel

/-- A text of one line is its own last line. -/
theorem OneLine.noTrailingBlanks (one : OneLine s)
    (solid : ∀ c ∈ s.toList.getLast?, isBlank c = false) : NoTrailingBlanks s := by
  rw [NoTrailingBlanks, List.splitOn_eq_singleton one, List.forall_mem_singleton]
  exact solid

theorem EndsSolid.noTrailingBlanks (ends : EndsSolid s) (one : OneLine s) : NoTrailingBlanks s := by
  obtain ⟨c, last, solid⟩ := ends
  refine one.noTrailingBlanks fun d isLast => ?_
  rw [Option.mem_def, last] at isLast
  exact Option.some.inj isLast ▸ solid

theorem OneLine.noTrailingBlanks_trimEnd (one : OneLine s) : NoTrailingBlanks (Text.trimEnd s) :=
  one.trimEnd.noTrailingBlanks fun c last => by
    rw [Text.trimEnd, String.toList_ofList] at last
    exact getLast?_dropTailWhile last

end CSharpGen.Text

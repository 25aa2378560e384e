import CSharpGen.Proofs.Text.LineEnds
import CSharpGen.Text.Blank

/-!
# Braces in texts

The depth of a text is followed character by character, and fails where a closing brace has no
opening one before it. The lines that hold a single brace are followed with a stack of the
indentations that are open.
-/

namespace CSharpGen.Text

/-- As many opening as closing braces, and in no prefix more closing ones. -/
def BracesBalanced (s : String) : Prop :=
  s.toList.count '\x7b' = s.toList.count '\x7d' ∧
    ∀ start, start <+: s.toList → start.count '\x7d' ≤ start.count '\x7b'

/-- A text without braces. -/
def BraceFree (s : String) : Prop := ∀ c ∈ s.toList, c ≠ '\x7b' ∧ c ≠ '\x7d'

instance : DecidablePred BraceFree := fun s =>
  List.decidableBAll (fun c => c ≠ '\x7b' ∧ c ≠ '\x7d') s.toList

/-! ## Depth -/

def braceStep (depth : Nat) (c : Char) : Option Nat :=
  if c = '\x7b' then some (depth + 1)
  else if c = '\x7d' then (if depth = 0 then none else some (depth - 1))
  else some depth

/-- The depth after a text, from the depth before it. -/
def braceDepth? (depth : Nat) (s : String) : Option Nat := s.toList.foldlM braceStep depth

theorem braceDepth?_append (depth : Nat) (s t : String) :
    braceDepth? depth (s ++ t) = (braceDepth? depth s).bind (braceDepth? · t) := by
  simp [braceDepth?, List.foldlM_append]

theorem braceDepth?_of_braceFree {s : String} (free : BraceFree s) (depth : Nat) :
    braceDepth? depth s = some depth := by
  unfold BraceFree at free
  unfold braceDepth?
  generalize s.toList = cs at free
  induction cs with
  | nil => rfl
  | cons c rest ih =>
    obtain ⟨first, others⟩ := List.forall_mem_cons.mp free
    have step : braceStep depth c = some depth := by simp [braceStep, first]
    simpa [List.foldlM_cons, step] using ih others

/-- What the depth says about numbers of braces. -/
theorem count_of_braceDepth? {cs : List Char} {before after : Nat}
    (h : cs.foldlM braceStep before = some after) :
    cs.count '\x7b' + before = cs.count '\x7d' + after ∧
      ∀ start, start <+: cs → start.count '\x7d' ≤ start.count '\x7b' + before := by
  induction cs generalizing before with
  | nil =>
    cases h
    simp
  | cons c rest ih =>
    rw [List.foldlM_cons] at h
    obtain ⟨next, step, h⟩ := Option.bind_eq_some_iff.mp h
    obtain ⟨total, starts⟩ := ih h
    unfold braceStep at step
    refine ⟨by grind, fun start isStart => ?_⟩
    cases start with
    | nil => simp
    | cons d start =>
      obtain ⟨rfl, shorter⟩ := List.cons_prefix_cons.mp isStart
      have := starts start shorter
      grind

theorem bracesBalanced_of_braceDepth? {s : String} (h : braceDepth? 0 s = some 0) :
    BracesBalanced s := by
  obtain ⟨total, starts⟩ := count_of_braceDepth? h
  exact ⟨total, starts⟩

/-! ## Lines of one brace -/

/-- The blanks at the start of a line. -/
def indentOf (line : String) : String := String.ofList (line.toList.takeWhile isBlank)

/-- One line, from the indentations of the brace lines that are open before it, innermost first. A
closing brace has to stand where its opening one stands. -/
def braceLineStep (indents : List String) (line : String) : Option (List String) :=
  if trim line = "\x7b" then some (indentOf line :: indents)
  else if trim line = "\x7d" then
    match indents with
    | [] => none
    | top :: outer => if top = indentOf line then some outer else none
  else some indents

/-- The indentations that are open after the lines of a text. -/
def openIndents? (indents : List String) (s : String) : Option (List String) :=
  (lines s).foldlM braceLineStep indents

/-- The brace lines match like parentheses, and both lines of a pair have the same indentation. -/
def BraceLinesAligned (s : String) : Prop := openIndents? [] s = some []

theorem openIndents?_append {s : String} (h : WholeLines s) (indents : List String) (t : String) :
    openIndents? indents (s ++ t) = (openIndents? indents s).bind (openIndents? · t) := by
  simp [openIndents?, lines_append h]

/-- Lines without braces open and close nothing. -/
theorem openIndents?_of_braceFree {s : String} (free : BraceFree s) (indents : List String) :
    openIndents? indents s = some indents := by
  have skip : ∀ line ∈ lines s, braceLineStep indents line = some indents := by
    intro line isLine
    obtain ⟨chars, isChars, rfl⟩ := List.mem_map.mp isLine
    have noBrace : ∀ brace, (brace = '\x7b' ∨ brace = '\x7d') →
        trim (String.ofList chars) ≠ String.ofList [brace] := by
      intro brace isBrace trimmed
      have inTrim : brace ∈ (trim (String.ofList chars)).toList := by simp [trimmed]
      have inLine : brace ∈ chars := by
        rw [trim, String.toList_ofList, String.toList_ofList] at inTrim
        exact (List.dropWhile_sublist isBlank).subset (mem_of_mem_dropTailWhile inTrim)
      have := free brace (mem_of_mem_lineChars isChars inLine)
      rcases isBrace with rfl | rfl <;> simp at this
    unfold braceLineStep
    rw [if_neg (noBrace _ (.inl rfl)), if_neg (noBrace _ (.inr rfl))]
  unfold openIndents?
  generalize lines s = ls at skip
  induction ls with
  | nil => rfl
  | cons line rest ih =>
    rw [List.foldlM_cons, skip line List.mem_cons_self]
    exact ih fun other member => skip other (List.mem_cons_of_mem line member)

/-- An indented brace on a line of its own. -/
theorem braceLineStep_indented {indent : String} (blank : ∀ c ∈ indent.toList, isBlank c = true)
    (indents : List String) :
    braceLineStep indents (indent ++ "\x7b") = some (indent :: indents) ∧
      braceLineStep (indent :: indents) (indent ++ "\x7d") = some indents := by
  have trimmed (brace : Char) (mark : isBlank brace = false) :
      trim (indent ++ String.ofList [brace]) = String.ofList [brace] ∧
        indentOf (indent ++ String.ofList [brace]) = indent := by
    constructor
    · simp [trim, List.dropWhile_append_of_pos blank, mark, dropTailWhile]
    · simp [indentOf, List.takeWhile_append_of_pos blank, mark]
  obtain ⟨opening, place⟩ := trimmed '\x7b' (by decide)
  obtain ⟨closing, under⟩ := trimmed '\x7d' (by decide)
  unfold braceLineStep
  constructor
  · rw [if_pos opening]
    exact congrArg (fun i => some (i :: indents)) place
  · rw [if_neg (fun h => absurd (closing.symm.trans h) (by decide)), if_pos closing]
    exact if_pos under.symm

end CSharpGen.Text

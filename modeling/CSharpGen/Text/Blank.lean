/-!
# Blank characters and trimming

A character is blank when it has the White_Space property, which is larger than the class of
core's `Char.isWhitespace`. All trimming in the library is by this class. The lemmas say where a
trimmed text can still hold a blank.
-/

namespace CSharpGen.Text

/-- White_Space: the ASCII controls from tab to carriage return, the space, and seventeen
characters beyond ASCII. -/
def isBlank (c : Char) : Bool :=
  let n := c.toNat
  (0x9 ≤ n && n ≤ 0xD) || n == 0x20 || n == 0x85 || n == 0xA0 || n == 0x1680 ||
    (0x2000 ≤ n && n ≤ 0x200A) || n == 0x2028 || n == 0x2029 || n == 0x202F || n == 0x205F ||
    n == 0x3000

/-- Drops the longest tail whose members all satisfy `p`. -/
def dropTailWhile (p : Char → Bool) (cs : List Char) : List Char :=
  (cs.reverse.dropWhile p).reverse

def trimStart (s : String) : String := String.ofList (s.toList.dropWhile isBlank)

def trimEnd (s : String) : String := String.ofList (dropTailWhile isBlank s.toList)

def trim (s : String) : String :=
  String.ofList (dropTailWhile isBlank (s.toList.dropWhile isBlank))

/-- The trimmed text, unless nothing is left of it. -/
def nonBlank? (s : String) : Option String :=
  if (trim s).isEmpty then none else some (trim s)

/-- Whether a text is empty or made of blanks only. -/
def isBlankText (s : String) : Bool := (trim s).isEmpty

theorem dropWhile_eq_nil_iff_all {p : Char → Bool} {cs : List Char} :
    cs.dropWhile p = [] ↔ ∀ c ∈ cs, p c = true := by
  induction cs with
  | nil => simp
  | cons c cs ih => by_cases h : p c <;> simp [h, ih]

theorem dropTailWhile_eq_nil_iff {p : Char → Bool} {cs : List Char} :
    dropTailWhile p cs = [] ↔ ∀ c ∈ cs, p c = true := by
  simp only [dropTailWhile, List.reverse_eq_nil_iff, dropWhile_eq_nil_iff_all, List.mem_reverse]

/-- A text that trims to nothing is made of blanks only. -/
theorem nonBlank?_eq_none_iff {s : String} : nonBlank? s = none ↔ ∀ c ∈ s.toList, isBlank c := by
  have rest : nonBlank? s = none ↔ ∀ c ∈ s.toList.dropWhile isBlank, isBlank c := by
    rw [← dropTailWhile_eq_nil_iff]
    simp [nonBlank?, trim]
  have whole : s.toList.dropWhile isBlank = [] ↔ ∀ c ∈ s.toList, isBlank c :=
    dropWhile_eq_nil_iff_all
  rw [rest, ← whole]
  constructor
  · intro blank
    have head := List.head?_dropWhile_not isBlank s.toList
    cases left : s.toList.dropWhile isBlank with
    | nil => rfl
    | cons c cs =>
      rw [left] at head blank
      simp [blank c List.mem_cons_self] at head
  · intro none
    simp [none]

theorem mem_of_mem_dropTailWhile {p : Char → Bool} {cs : List Char} {c : Char}
    (member : c ∈ dropTailWhile p cs) : c ∈ cs := by
  rw [dropTailWhile, List.mem_reverse] at member
  exact List.mem_reverse.mp ((List.dropWhile_sublist p).subset member)

/-- What is left after dropping a tail does not end in a member of the class. -/
theorem getLast?_dropTailWhile {p : Char → Bool} {cs : List Char} {c : Char}
    (h : (dropTailWhile p cs).getLast? = some c) : p c = false := by
  rw [dropTailWhile, List.getLast?_reverse] at h
  have := List.head?_dropWhile_not p cs.reverse
  rw [h] at this
  simpa using this

end CSharpGen.Text

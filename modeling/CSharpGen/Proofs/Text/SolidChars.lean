import CSharpGen.Proofs.Text.Cuts
import CSharpGen.Text.Letter
import CSharpGen.Text.Lowercase

/-!
# Characters that are not blank

Letters and numbers are not blank, and the lower case of a character is not blank when the character
itself is not. So a text that is made of them is its own trimmed text.
-/

namespace CSharpGen.Text

variable {c d : Char}

/-- The blanks as inclusive ranges of code points. -/
def blankRanges : List (Nat × Nat) := [(0x9, 0xD), (0x20, 0x20), (0x85, 0x85), (0xA0, 0xA0),
  (0x1680, 0x1680), (0x2000, 0x200A), (0x2028, 0x2029), (0x202F, 0x202F), (0x205F, 0x205F),
  (0x3000, 0x3000)]

/-- Every blank character lies in one of the ranges. -/
theorem exists_blankRange (blank : isBlank c = true) :
    ∃ range ∈ blankRanges, range.1 ≤ c.toNat ∧ c.toNat ≤ range.2 := by
  simp only [isBlank, Bool.or_eq_true, Bool.and_eq_true, decide_eq_true_eq, beq_iff_eq] at blank
  simp only [blankRanges, List.mem_cons, List.not_mem_nil, or_false, exists_eq_or_imp,
    exists_eq_left]
  omega

theorem blankRanges_bounds : ∀ range ∈ blankRanges, 0 < range.1 ∧ range.2 < 0x10000 := by
  decide +kernel

/-- No range of letters and digits meets a range of blanks. -/
theorem alphanumericRanges_apart : ∀ letters ∈ alphanumericRanges, ∀ blanks ∈ blankRanges,
    letters.2 < blanks.1 ∨ blanks.2 < letters.1 := by
  decide +kernel

/-- No capital has a blank as its lower case. -/
theorem caseRuns_apart : ∀ run ∈ caseRuns, ∀ blanks ∈ blankRanges,
    run.last + run.shift < blanks.1 ∨ blanks.2 < run.first + run.shift := by
  decide +kernel

/-- Letters and digits are no blanks. -/
theorem isBlank_of_isAlphanumeric (h : isAlphanumeric c = true) : isBlank c = false := by
  rw [Bool.eq_false_iff]
  intro blank
  obtain ⟨blanks, isRange, above, below⟩ := exists_blankRange blank
  have small : c.toNat < 0x10000 := Nat.lt_of_le_of_lt below (blankRanges_bounds _ isRange).2
  rw [isAlphanumeric, if_pos small, inRanges, List.any_eq_true] at h
  obtain ⟨letters, isLetters, holds⟩ := h
  simp only [Bool.and_eq_true, decide_eq_true_eq] at holds
  have apart := alphanumericRanges_apart letters isLetters blanks isRange
  omega

/-- The character of a number is that code point, or the first of all when there is none. -/
theorem toNat_ofNat_cases (n : Nat) : (Char.ofNat n).toNat = n ∨ (Char.ofNat n).toNat = 0 := by
  by_cases valid : n.isValidChar
  · rw [Char.ofNat, dif_pos valid]
    exact .inl rfl
  · rw [Char.ofNat, dif_neg valid]
    exact .inr rfl

/-- The character that a run of the case table leads to is no blank. -/
theorem isBlank_of_holds {run : CaseRun} (isRun : run ∈ caseRuns)
    (holds : run.holds c.toNat = true) :
    isBlank (Char.ofNat (c.toNat + run.shift).toNat) = false := by
  rw [Bool.eq_false_iff]
  intro blank
  obtain ⟨blanks, isRange, above, below⟩ := exists_blankRange blank
  have positive := (blankRanges_bounds _ isRange).1
  have point := toNat_ofNat_cases (c.toNat + run.shift).toNat
  have apart := caseRuns_apart run isRun blanks isRange
  simp only [CaseRun.holds, Bool.and_eq_true, decide_eq_true_eq] at holds
  omega

/-- A character that is no blank has none in its lower case. -/
theorem isBlank_of_mem_lowerChar (solid : isBlank c = false) (member : d ∈ lowerChar c) :
    isBlank d = false := by
  unfold lowerChar at member
  split at member
  · rcases List.mem_pair.mp member with rfl | rfl <;> decide
  · split at member
    · next run found =>
      obtain rfl := List.mem_singleton.mp member
      have holds := List.find?_some found
      exact isBlank_of_holds (List.mem_of_find?_eq_some found) holds
    · obtain rfl := List.mem_singleton.mp member
      exact solid

theorem isBlank_of_mem_lowerHead {cs : List Char} (solid : ∀ c ∈ cs, isBlank c = false) :
    ∀ c ∈ lowerHead cs, isBlank c = false := by
  cases cs with
  | nil => exact solid
  | cons c rest =>
    obtain ⟨first, others⟩ := List.forall_mem_cons.mp solid
    exact List.forall_mem_append.mpr ⟨fun _ => isBlank_of_mem_lowerChar first, others⟩

/-- Trimming leaves a text without blanks as it is. -/
theorem trim_of_forall_solid {s : String} (solid : ∀ c ∈ s.toList, isBlank c = false) :
    trim s = s := by
  by_cases nothing : s.toList = []
  · rw [String.toList_eq_nil_iff.mp nothing]
    rfl
  · exact trim_of_solid ⟨_, List.head?_eq_some_head nothing, solid _ (List.head_mem nothing)⟩
      ⟨_, List.getLast?_eq_some_getLast nothing, solid _ (List.getLast_mem nothing)⟩

end CSharpGen.Text

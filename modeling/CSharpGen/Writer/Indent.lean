import CSharpGen.Text.Blank
import CSharpGen.Text.Lowercase

/-!
# Indentation units

A file is indented either by four spaces a level or by one tab a level.
-/

namespace CSharpGen

inductive Indent where
  | spaces | tabs
  deriving DecidableEq, Repr, Inhabited

namespace Indent

/-- The text of one level. -/
def unit : Indent → String
  | spaces => "    "
  | tabs => "\t"

/-- The text of `n` levels. -/
def levels (style : Indent) : Nat → String
  | 0 => ""
  | n + 1 => style.unit ++ style.levels n

theorem unit_chars (style : Indent) :
    ∀ c ∈ style.unit.toList, Text.isBlank c = true ∧ c ≠ '\n' ∧ c ≠ '\r' := by
  have all : style.unit.toList.all (fun c => Text.isBlank c && c != '\n' && c != '\r') = true := by
    cases style <;> decide
  simpa [and_assoc] using all

/-- Indentation is made of blanks other than line ends. -/
theorem levels_chars (style : Indent) (n : Nat) :
    ∀ c ∈ (style.levels n).toList, Text.isBlank c = true ∧ c ≠ '\n' ∧ c ≠ '\r' := by
  induction n with
  | zero => simp [levels]
  | succ n ih =>
    intro c member
    rw [levels, String.toList_append] at member
    exact (List.mem_append.mp member).elim (style.unit_chars c) (ih c)

/-- The name in manifests and on the command line. -/
def name : Indent → String
  | spaces => "spaces"
  | tabs => "tabs"

def ofName? : String → Option Indent
  | "spaces" => some spaces
  | "tabs" => some tabs
  | _ => none

/-- Reads a style in any letter case, in the singular or the plural. -/
def parse (text : String) : Except String Indent :=
  match Text.lower text with
  | "spaces" | "space" => .ok spaces
  | "tabs" | "tab" => .ok tabs
  | _ => .error s!"unknown indent style '{text}', expected 'spaces' or 'tabs'"

end Indent

end CSharpGen

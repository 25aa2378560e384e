/-!
# Sections

Groups of items with blank lines between them: the items of a spaced group are separated by one
blank line, those of a close group by none, and two non-empty groups by one. An item may fail,
which keeps what it wrote and stops everything after it.
-/

namespace CSharpGen

/-- The separation of the items of one group. -/
inductive Spacing where
  | close | spaced
  deriving DecidableEq, Repr, Inhabited

/-- Writing that may fail. What was written before the failure stays. -/
abbrev Attempt (σ ε : Type) := σ → σ × Option ε

namespace Sections

/-- Whether a blank line goes before an item: between two items of a spaced group, and before the
first item of a group when an earlier group had output. -/
def separates (spacing : Spacing) (hadOutput wroteAny : Bool) : Bool :=
  if wroteAny then spacing == .spaced else hadOutput

variable {σ ε : Type}

/-- Writes the items of one group. -/
def writeItems (blankLine : σ → σ) (spacing : Spacing) (hadOutput : Bool) :
    (wroteAny : Bool) → List (Attempt σ ε) → Attempt σ ε
  | _, [], s => (s, none)
  | wroteAny, item :: rest, s =>
    match item (if separates spacing hadOutput wroteAny then blankLine s else s) with
    | (s, none) => writeItems blankLine spacing hadOutput true rest s
    | (s, some reason) => (s, some reason)

/-- What writing groups leaves behind. -/
structure Outcome (σ ε : Type) where
  state : σ
  hadOutput : Bool
  failure : Option ε

/-- Writes groups in order. Only complete groups count as output. -/
def writeGroups (blankLine : σ → σ) :
    (hadOutput : Bool) → List (Spacing × List (Attempt σ ε)) → σ → Outcome σ ε
  | hadOutput, [], s => ⟨s, hadOutput, none⟩
  | hadOutput, (spacing, items) :: rest, s =>
    match writeItems blankLine spacing hadOutput false items s with
    | (s, none) => writeGroups blankLine (hadOutput || !items.isEmpty) rest s
    | (s, some reason) => ⟨s, hadOutput, some reason⟩

variable {blankLine : σ → σ} {spacing : Spacing} {hadOutput wroteAny : Bool} {s after : σ}
  {reason : ε}

/-! ## One item, one group -/

section

variable {item : Attempt σ ε}

/-- After an item that succeeds the others follow. -/
theorem writeItems_of_succeeds
    (called : item (if separates spacing hadOutput wroteAny then blankLine s else s) = (after, none))
    (rest : List (Attempt σ ε)) :
    writeItems blankLine spacing hadOutput wroteAny (item :: rest) s =
      writeItems blankLine spacing hadOutput true rest after := by
  rw [writeItems, called]

/-- An item that fails is the last one. -/
theorem writeItems_of_fails
    (called : item (if separates spacing hadOutput wroteAny then blankLine s else s) =
      (after, some reason)) (rest : List (Attempt σ ε)) :
    writeItems blankLine spacing hadOutput wroteAny (item :: rest) s = (after, some reason) := by
  rw [writeItems, called]

end

section

variable {items : List (Attempt σ ε)}

/-- A complete group counts as output when it has items. -/
theorem writeGroups_of_succeeds
    (written : writeItems blankLine spacing hadOutput false items s = (after, none))
    (rest : List (Spacing × List (Attempt σ ε))) :
    writeGroups blankLine hadOutput ((spacing, items) :: rest) s =
      writeGroups blankLine (hadOutput || !items.isEmpty) rest after := by
  rw [writeGroups, written]

/-- A group that is not complete is the last one, and it does not count as output. -/
theorem writeGroups_of_fails
    (written : writeItems blankLine spacing hadOutput false items s = (after, some reason))
    (rest : List (Spacing × List (Attempt σ ε))) :
    writeGroups blankLine hadOutput ((spacing, items) :: rest) s =
      ⟨after, hadOutput, some reason⟩ := by
  rw [writeGroups, written]

end

end Sections

end CSharpGen

/-!
# Texts in order

Texts are compared by code points. `ascending` is the strictly ascending list of the members of a
list, so it depends on the set of them alone. `stableSort` keeps the order of entries with equal
keys.
-/

namespace CSharpGen.Text

/-- Puts a text at its place in a strictly ascending list, unless it is there already. -/
def insertAscending (x : String) : List String → List String
  | [] => [x]
  | y :: ys =>
    if x < y then x :: y :: ys
    else if x = y then y :: ys
    else y :: insertAscending x ys

/-- The distinct members of a list in strictly ascending order. -/
def ascending (xs : List String) : List String := xs.foldr insertAscending []

/-- Entries in ascending order of their keys; equal keys keep the order of the list. -/
def stableSort {α : Type} (key : α → String) (xs : List α) : List α :=
  xs.mergeSort fun a b => decide (key a ≤ key b)

@[simp] theorem mem_insertAscending {x a : String} {xs : List String} :
    a ∈ insertAscending x xs ↔ a = x ∨ a ∈ xs := by
  induction xs with
  | nil => simp [insertAscending]
  | cons y ys ih =>
    unfold insertAscending
    split
    · simp
    · split
      · simp_all
      · simp only [List.mem_cons, ih]
        exact or_left_comm

@[simp] theorem mem_ascending {a : String} {xs : List String} : a ∈ ascending xs ↔ a ∈ xs := by
  induction xs with
  | nil => simp [ascending]
  | cons x xs ih => simp_all [ascending]

/-- Inserting keeps a list strictly ascending. -/
theorem pairwise_insertAscending {x : String} {xs : List String} (h : xs.Pairwise (· < ·)) :
    (insertAscending x xs).Pairwise (· < ·) := by
  induction xs with
  | nil => simp [insertAscending]
  | cons y ys ih =>
    obtain ⟨first, others⟩ := List.pairwise_cons.mp h
    unfold insertAscending
    split
    · next before =>
      refine List.pairwise_cons.mpr ⟨fun a member => ?_, h⟩
      rcases List.mem_cons.mp member with rfl | member
      · exact before
      · exact String.lt_trans before (first a member)
    · next notBefore =>
      split
      · exact h
      · next different =>
        refine List.pairwise_cons.mpr ⟨fun a member => ?_, ih others⟩
        rcases mem_insertAscending.mp member with rfl | member
        · exact Std.lt_of_le_of_ne (String.not_lt.mp notBefore) (Ne.symm different)
        · exact first a member

theorem pairwise_ascending (xs : List String) : (ascending xs).Pairwise (· < ·) := by
  induction xs with
  | nil => exact List.Pairwise.nil
  | cons x xs ih => exact pairwise_insertAscending ih

end CSharpGen.Text

import Mathlib.Data.List.Sort
import CSharpGen.Text.Order

/-!
# Strictly ascending lists

A strictly ascending list is determined by the set of its members, so the order and the number of
times in which texts are given to `ascending` do not matter (`ascending_congr`).
-/

namespace CSharpGen.Text

variable {xs ys : List String}

theorem eq_of_ascending (ascends : xs.Pairwise (· < ·)) (alsoAscends : ys.Pairwise (· < ·))
    (same : ∀ x, x ∈ xs ↔ x ∈ ys) : xs = ys := ascends.eq_of_mem_iff alsoAscends same

theorem ascending_congr (same : ∀ x, x ∈ xs ↔ x ∈ ys) : ascending xs = ascending ys :=
  eq_of_ascending (pairwise_ascending xs) (pairwise_ascending ys) (by simpa using same)

/-- A strictly ascending list of the texts with a property. -/
structure Enumerates (xs : List String) (P : String → Prop) : Prop where
  ascends : xs.Pairwise (· < ·)
  mem_iff : ∀ x, x ∈ xs ↔ P x

theorem enumerates_ascending {P : String → Prop} (same : ∀ x, x ∈ xs ↔ P x) :
    Enumerates (ascending xs) P :=
  ⟨pairwise_ascending xs, fun x => mem_ascending.trans (same x)⟩

/-- A common start does not change how texts compare. -/
theorem append_lt_append {start a b : String} : start ++ a < start ++ b ↔ a < b := by
  rw [String.lt_iff, String.lt_iff, String.toList_append, String.toList_append]
  induction start.toList with
  | nil => rfl
  | cons c cs ih => rwa [List.cons_append, List.cons_append, List.cons_lt_cons_self]

/-- Texts behind a common start. -/
theorem Enumerates.prepend {P : String → Prop} (h : Enumerates xs P) (start : String) :
    Enumerates (xs.map (start ++ ·)) fun line => ∃ x, P x ∧ start ++ x = line where
  ascends := List.pairwise_map.mpr (h.ascends.imp append_lt_append.mpr)
  mem_iff line := by simp only [List.mem_map, h.mem_iff]

end CSharpGen.Text

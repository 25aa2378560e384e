import Mathlib.Data.List.Nodup
import CSharpGen.Text.Order

/-!
# Stable sorting

A list in the order of a relation, where the entries that are alike in it stay as they were. Merging
sorts stably, and a part of the entries that is picked out by a condition is sorted with them.
-/

namespace CSharpGen

section

variable {α : Type} {le : α → α → Bool} {entries sorted : List α}

/-- The entries in the order `le`. Those that are alike in it keep the order of `entries`. -/
structure StableSort (le : α → α → Bool) (entries sorted : List α) : Prop where
  perm : sorted.Perm entries
  ordered : sorted.Pairwise fun a b => le a b
  alike : ∀ a, sorted.filter (fun b => le a b && le b a) =
    entries.filter fun b => le a b && le b a

theorem stableSort_mergeSort (trans : ∀ a b c, le a b → le b c → le a c)
    (total : ∀ a b, le a b || le b a) (entries : List α) :
    StableSort le entries (entries.mergeSort le) where
  perm := List.mergeSort_perm entries le
  ordered := List.pairwise_mergeSort trans total entries
  alike a := by
    let same (b : α) : Bool := le a b && le b a
    have ordered : (entries.filter same).Pairwise fun b c => le b c := by
      refine List.pairwise_of_forall_mem_list fun b isSame c alsoSame => ?_
      have toA := (Bool.and_eq_true_iff.mp (List.mem_filter.mp isSame).2).2
      have fromA := (Bool.and_eq_true_iff.mp (List.mem_filter.mp alsoSame).2).1
      exact trans b a c toA fromA
    -- sorting keeps the alike entries as a sublist, and there are equally many of them
    have kept := (List.sublist_mergeSort trans total ordered List.filter_sublist).filter same
    simp only [List.filter_filter, Bool.and_self] at kept
    have size := ((List.mergeSort_perm entries le).filter same).length_eq
    exact (kept.eq_of_length size.symm).symm

/-- The entries that satisfy a condition are sorted among themselves. -/
theorem StableSort.filter (h : StableSort le entries sorted) (p : α → Bool) :
    StableSort le (entries.filter p) (sorted.filter p) where
  perm := h.perm.filter p
  ordered := h.ordered.filter p
  alike a := by
    have same := congrArg (List.filter p) (h.alike a)
    simpa only [List.filter_filter, Bool.and_comm, Bool.and_left_comm] using same

/-- Entries with distinct keys are sorted in one way, whatever their order before. -/
theorem StableSort.eq_of_perm {κ : Type} {key : α → κ} {others alsoSorted : List α}
    (h : StableSort le entries sorted) (alsoSorts : StableSort le others alsoSorted)
    (same : entries.Perm others) (keyed : ∀ a b, le a b → le b a → key a = key b)
    (distinct : (entries.map key).Nodup) : sorted = alsoSorted := by
  have arranged : sorted.Perm alsoSorted := (h.perm.trans same).trans alsoSorts.perm.symm
  refine arranged.eq_of_pairwise (fun a b isEntry isOther before after => ?_) h.ordered
    alsoSorts.ordered
  have alsoEntry : b ∈ entries := same.mem_iff.mpr (alsoSorts.perm.mem_iff.mp isOther)
  exact List.inj_on_of_nodup_map distinct (h.perm.mem_iff.mp isEntry) alsoEntry
    (keyed a b before after)

/-- The entries that are alike `a` in the order `le`. -/
def alikeTo (le : α → α → Bool) (a : α) (entries : List α) : List α :=
  entries.filter fun b => le a b && le b a

theorem mem_of_alike (refl : ∀ a, le a a = true)
    (alike : ∀ a, alikeTo le a entries = alikeTo le a sorted) {a : α} (member : a ∈ entries) :
    a ∈ sorted := by
  have isAlike : a ∈ alikeTo le a entries := List.mem_filter.mpr ⟨member, by rw [refl]; rfl⟩
  exact (List.mem_filter.mp (alike a ▸ isAlike)).1

/-- Lists in the order `le` are equal when the entries that are alike in it stand alike in both. -/
theorem eq_of_ordered_of_alike (refl : ∀ a, le a a = true)
    (ordered : entries.Pairwise fun a b => le a b)
    (alsoOrdered : sorted.Pairwise fun a b => le a b)
    (alike : ∀ a, alikeTo le a entries = alikeTo le a sorted) : entries = sorted := by
  induction entries generalizing sorted with
  | nil => exact (List.eq_nil_iff_forall_not_mem.mpr fun a member =>
      List.not_mem_nil (mem_of_alike refl (fun a => (alike a).symm) member)).symm
  | cons a rest ih =>
    obtain ⟨below, later⟩ := List.pairwise_cons.mp ordered
    cases sorted with
    | nil => exact absurd (mem_of_alike refl alike List.mem_cons_self) List.not_mem_nil
    | cons b others =>
      obtain ⟨alsoBelow, alsoLater⟩ := List.pairwise_cons.mp alsoOrdered
      -- each of the two first entries stands before the other, and so they are alike
      have before : le a b = true := by
        have member : b ∈ a :: rest :=
          mem_of_alike refl (fun a => (alike a).symm) List.mem_cons_self
        rcases List.mem_cons.mp member with rfl | member
        · exact refl b
        · exact below b member
      have after : le b a = true := by
        have member : a ∈ b :: others := mem_of_alike refl alike List.mem_cons_self
        rcases List.mem_cons.mp member with rfl | member
        · exact refl a
        · exact alsoBelow a member
      have first := alike a
      rw [alikeTo, alikeTo, List.filter_cons_of_pos (by rw [refl]; rfl),
        List.filter_cons_of_pos (by rw [before, after]; rfl)] at first
      obtain ⟨rfl, -⟩ := List.cons.inj first
      refine congrArg (a :: ·) (ih later alsoLater fun c => ?_)
      have both := alike c
      rw [alikeTo, alikeTo, List.filter_cons, List.filter_cons] at both
      split at both
      · exact (List.cons.inj both).2
      · exact both

/-- Two lists are sorted in one way when they differ in nothing but the order of entries that are
not alike. -/
theorem StableSort.eq_of_alike {others alsoSorted : List α} (refl : ∀ a, le a a = true)
    (h : StableSort le entries sorted) (alsoSorts : StableSort le others alsoSorted)
    (same : ∀ a, alikeTo le a entries = alikeTo le a others) : sorted = alsoSorted :=
  eq_of_ordered_of_alike refl h.ordered alsoSorts.ordered fun a =>
    (h.alike a).trans ((same a).trans (alsoSorts.alike a).symm)

theorem stableSort_self (all : ∀ a b, le a b) (entries : List α) :
    StableSort le entries entries where
  perm := .refl entries
  ordered := List.pairwise_of_forall all
  alike _ := rfl

end

theorem Text.stableSort_stable {α : Type} (key : α → String) (entries : List α) :
    StableSort (fun a b => decide (key a ≤ key b)) entries (Text.stableSort key entries) := by
  refine stableSort_mergeSort (fun a b c first second => ?_) (fun a b => ?_) entries
  · rw [decide_eq_true_eq] at first second ⊢
    exact String.le_trans first second
  · simpa only [Bool.or_eq_true, decide_eq_true_eq] using String.le_total (key a) (key b)

end CSharpGen

import Mathlib.Data.List.Basic
import CSharpGen.Proofs.Writer.Run

/-!
# Handles

The handle of a sub-writer is its place among the segments of the writer above. Calls only add
segments after those that are there, so a handle leads to the same sub-writer for ever
(`at?_run`): what is found below it is that sub-writer after the calls that were made on it.
-/

namespace CSharpGen

/-- An action as the writer at a path sees it, when it concerns this writer or one below it. -/
def Action.under? (path : List Nat) (a : Action) : Option Action :=
  (path.isPrefixOf? a.path).map fun rest => ⟨rest, a.call⟩

/-- The actions on the writer at a path and on those below it. -/
def Action.under (path : List Nat) (actions : List Action) : List Action :=
  actions.filterMap (Action.under? path)

theorem Action.mem_under {path : List Nat} {actions : List Action} {b : Action} :
    b ∈ Action.under path actions ↔ ⟨path ++ b.path, b.call⟩ ∈ actions := by
  obtain ⟨inner, c⟩ := b
  simp only [Action.under, Action.under?, List.mem_filterMap, Option.map_eq_some_iff, mk.injEq,
    List.isPrefixOf?_eq_some_iff_append_eq]
  constructor
  · rintro ⟨a, member, rest, same, rfl, rfl⟩
    rwa [same]
  · exact fun member => ⟨_, member, inner, rfl, rfl, rfl⟩

namespace Writer

/-- A change of a writer that leaves the sub-writers below it alone. -/
def KeepsSubs (f : Writer → Writer) : Prop :=
  ∀ w i sub, w.sub? i = some sub → (f w).sub? i = some sub

/-- A call on a writer leaves its sub-writers where they are. -/
theorem keepsSubs_call (c : Call) : KeepsSubs (·.call c) := fun _ _ _ found =>
  sub?_call_of_sub found c

/-! ## Changes at a path -/

variable {f g : Writer → Writer} {w x sub : Writer} {i j : Nat} {path : List Nat}

theorem at?_append (before after : List Nat) (w : Writer) :
    at? (before ++ after) w = (at? before w).bind (at? after) := by
  induction before generalizing w with
  | nil => rfl
  | cons i before ih =>
    cases found : w.sub? i with
    | none => simp [at?, found]
    | some sub => rw [List.cons_append, at?_cons found, at?_cons found, ih]

/-- A change below a path is a change of the writer at that path. -/
theorem updateAt_append (f : Writer → Writer) (before after : List Nat) (w : Writer) :
    updateAt f (before ++ after) w = updateAt (updateAt f after) before w := by
  induction before generalizing w with
  | nil => rfl
  | cons i before ih =>
    cases found : w.sub? i with
    | none => rw [List.cons_append, updateAt_cons_none found, updateAt_cons_none found]
    | some sub => rw [List.cons_append, updateAt_cons found, updateAt_cons found, ih]

theorem updateAt_updateAt (f g : Writer → Writer) (path : List Nat) (w : Writer) :
    updateAt g path (updateAt f path w) = updateAt (fun v => g (f v)) path w := by
  induction path generalizing w with
  | nil => rfl
  | cons i path ih =>
    cases found : w.sub? i with
    | none => rw [updateAt_cons_none found, updateAt_cons_none found, updateAt_cons_none found]
    | some sub =>
      rw [updateAt_cons found, updateAt_cons found, updateAt_cons (sub?_setSub_self found _),
        setSub_setSub, ih]

/-- Only the writer that is found matters. -/
theorem updateAt_congr (found : at? path w = some x) (same : f x = g x) :
    updateAt f path w = updateAt g path w := by
  induction path generalizing w with
  | nil =>
    cases found
    exact same
  | cons i path ih =>
    obtain ⟨sub, first, rest⟩ := Option.bind_eq_some_iff.mp found
    rw [updateAt_cons first, updateAt_cons first, ih rest]

theorem updateAt_id (path : List Nat) (w : Writer) : updateAt (fun v => v) path w = w := by
  induction path generalizing w with
  | nil => rfl
  | cons i path ih =>
    cases found : w.sub? i with
    | none => rw [updateAt_cons_none found]
    | some sub => rw [updateAt_cons found, ih, setSub_self found]

theorem isPrefixOf?_cons (i j : Nat) (path other : List Nat) :
    (i :: path).isPrefixOf? (j :: other) = if i == j then path.isPrefixOf? other else none := rfl

theorem isPrefixOf?_self (path : List Nat) : path.isPrefixOf? path = some [] := by
  induction path with
  | nil => rfl
  | cons i path ih => rw [isPrefixOf?_cons, ih, beq_self_eq_true, if_pos rfl]

/-- A change at one path is seen at another when it is made there or below. -/
theorem at?_updateAt (keeps : KeepsSubs f) (found : at? path w = some x) (changed : List Nat) :
    at? path (updateAt f changed w) =
      some (match path.isPrefixOf? changed with
        | some rest => updateAt f rest x
        | none => x) := by
  induction path generalizing w changed with
  | nil =>
    cases found
    rfl
  | cons i path ih =>
    obtain ⟨sub, first, rest⟩ := Option.bind_eq_some_iff.mp found
    cases changed with
    | nil => exact (at?_cons (keeps w i sub first) path).trans rest
    | cons j changed =>
      by_cases same : i = j
      · subst same
        rw [updateAt_cons first, at?_cons (sub?_setSub_self first _), ih rest, isPrefixOf?_cons,
          beq_self_eq_true, if_pos rfl]
      · have apart : (i :: path).isPrefixOf? (j :: changed) = none := by
          simp [isPrefixOf?_cons, same]
        rw [apart]
        cases other : w.sub? j with
        | none => rw [updateAt_cons_none other, found]
        | some old =>
          have unchanged := sub?_setSub_ne w (updateAt f changed old) (Ne.symm same)
          rw [updateAt_cons other, at?_cons (unchanged.trans first), rest]

theorem at?_updateAt_isSome (keeps : KeepsSubs f) (found : (at? path w).isSome)
    (changed : List Nat) : (at? path (updateAt f changed w)).isSome := by
  obtain ⟨x, found⟩ := Option.isSome_iff_exists.mp found
  rw [at?_updateAt keeps found]
  rfl

theorem at?_updateAt_self (keeps : KeepsSubs f) (found : at? path w = some x) :
    at? path (updateAt f path w) = some (f x) := by
  rw [at?_updateAt keeps found, isPrefixOf?_self]
  rfl

/-! ## Runs seen from a path -/

/-- A writer sees of an action only what happens at it or below it. -/
theorem at?_act (found : at? path w = some x) (a : Action) :
    at? path (w.act a) = some (x.run (a.under? path).toList) := by
  rw [act, at?_updateAt (keepsSubs_call a.call) found, Action.under?]
  cases path.isPrefixOf? a.path <;> rfl

/-- A writer of the tree only sees the calls on itself and on those below it. -/
theorem at?_run (found : at? path w = some x) (actions : List Action) :
    at? path (w.run actions) = some (x.run (Action.under path actions)) := by
  induction actions generalizing w x with
  | nil => exact found
  | cons a rest ih =>
    have below : Action.under path (a :: rest) =
        (a.under? path).toList ++ Action.under path rest := by
      unfold Action.under
      cases seen : a.under? path <;> simp [seen]
    rw [run_cons, ih (at?_act found a), below, run_append]

/-- The handle of a reservation leads to the sub-writer that was reserved. -/
theorem at?_reserve (found : at? path w = some x) (header : Option String) :
    at? (path ++ [(x.reserve header).2]) (w.act ⟨path, .reserve header⟩) =
      some (x.child header) := by
  have reserved := at?_updateAt_self (keepsSubs_call (.reserve header)) found
  rw [act, at?_append, reserved, Option.bind_some]
  exact at?_cons (sub?_reserve_self x header) []

/-- The handle of a reservation was not in use. -/
theorem at?_handle (found : at? path w = some x) (header : Option String) :
    at? (path ++ [(x.reserve header).2]) w = none := by
  rw [at?_append, found, Option.bind_some, at?, sub?_reserve_handle, Option.bind_none]

end Writer

end CSharpGen

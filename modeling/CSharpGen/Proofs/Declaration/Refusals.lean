import Mathlib.Data.List.Induction
import CSharpGen.Error

/-!
# Runs of calls that can be refused

A call gives a new state or is refused, and a refused call leaves the state as it was. The calls
that a run accepts are those that were not refused, each by the state that it met.
-/

namespace CSharpGen.Refusable

variable {σ κ : Type} (answer : σ → κ → Except Error σ)

/-- The state after a call. -/
def next (s : σ) (c : κ) : σ :=
  match answer s c with
  | .ok new => new
  | .error _ => s

/-- The state after several calls. -/
def run (s : σ) (calls : List κ) : σ := calls.foldl (next answer) s

/-- The calls that are accepted. -/
def accepted : σ → List κ → List κ
  | _, [] => []
  | s, c :: rest =>
    match answer s c with
    | .ok new => c :: accepted new rest
    | .error _ => accepted s rest

variable {answer} {s new : σ} {c : κ} {e : Error}

theorem next_ok (ok : answer s c = .ok new) : next answer s c = new := by rw [next, ok]

/-- A refused call changes nothing. -/
theorem next_error (refused : answer s c = .error e) : next answer s c = s := by rw [next, refused]

theorem run_concat (s : σ) (calls : List κ) (c : κ) :
    run answer s (calls ++ [c]) = next answer (run answer s calls) c := List.foldl_append ..

/-- After an accepted last call the state is the one that the call answers with. -/
theorem run_concat_ok {calls : List κ} (ok : answer (run answer s calls) c = .ok new) :
    run answer s (calls ++ [c]) = new := (run_concat s calls c).trans (next_ok ok)

/-- A refused last call leaves what the calls before it have left. -/
theorem run_concat_error {calls : List κ} (refused : answer (run answer s calls) c = .error e) :
    run answer s (calls ++ [c]) = run answer s calls :=
  (run_concat s calls c).trans (next_error refused)

/-- Which calls are accepted depends on what the earlier ones have left. -/
theorem accepted_append (s : σ) (before after : List κ) : accepted answer s (before ++ after) =
    accepted answer s before ++ accepted answer (run answer s before) after := by
  induction before generalizing s with
  | nil => rfl
  | cons c rest ih =>
    rw [List.cons_append, accepted, accepted, run, List.foldl_cons]
    split
    · next ok =>
      rw [ih, next_ok ok]
      rfl
    · next refused =>
      rw [ih, next_error refused]
      rfl

theorem accepted_concat_ok {calls : List κ} (ok : answer (run answer s calls) c = .ok new) :
    accepted answer s (calls ++ [c]) = accepted answer s calls ++ [c] := by
  rw [accepted_append, accepted, ok]
  rfl

/-- A refused last call is not among the accepted ones. -/
theorem accepted_concat_error {calls : List κ}
    (refused : answer (run answer s calls) c = .error e) :
    accepted answer s (calls ++ [c]) = accepted answer s calls := by
  rw [accepted_append, accepted, refused]
  exact List.append_nil _

/-- Accepted calls keep their order. -/
theorem accepted_sublist (s : σ) (calls : List κ) : (accepted answer s calls).Sublist calls := by
  induction calls generalizing s with
  | nil => exact .slnil
  | cons c rest ih =>
    rw [accepted]
    split
    · exact (ih _).cons_cons c
    · exact (ih _).cons c

end CSharpGen.Refusable

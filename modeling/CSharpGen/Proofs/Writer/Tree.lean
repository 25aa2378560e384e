import CSharpGen.Writer.Op

/-!
# Runs on trees of writers

A writer and its sub-writers form a tree. An action is a call on one writer of the tree, which is
reached from the root by the handles that the reservations gave. Releasing the guard of a block is
the call that closes the block by its number. Here any number may be closed at any time, so the runs
of a program with guards are among the runs of actions. An action whose handles lead nowhere changes
nothing.
-/

namespace CSharpGen

/-- One call on a writer. -/
inductive Call where
  | op (op : Op)
  | openBlock (header : String) (constraints : List String)
  | closeBlock (id : Nat)
  | reserve (header : Option String)
  deriving DecidableEq, Repr

namespace Call

/-- The texts that a call is given. -/
def texts : Call → List String
  | .op (.append text) | .op (.appendLine text) => [text]
  | .op (.appendUnindented text) | .op (.appendUnindentedLine text) => [text]
  | .op (.beginBlock header) => [header]
  | .op .newLine | .op .increaseIndent | .op .decreaseIndent | .op .endBlock => []
  | .openBlock header constraints => header :: constraints
  | .closeBlock _ => []
  | .reserve header => header.toList

end Call

/-- A call on the writer that the handles lead to. -/
structure Action where
  path : List Nat
  call : Call
  deriving DecidableEq, Repr

namespace Writer

def call (w : Writer) : Call → Writer
  | .op op => w.apply op
  | .openBlock header constraints => (w.openBlock header constraints).1
  | .closeBlock id => w.closeBlock id
  | .reserve header => (w.reserve header).1

/-- The writer that handles lead to. -/
def at? : List Nat → Writer → Option Writer
  | [], w => some w
  | i :: path, w => (w.sub? i).bind (at? path)

/-- Changes the writer that handles lead to. -/
def updateAt (f : Writer → Writer) : List Nat → Writer → Writer
  | [], w => f w
  | i :: path, w =>
    match w.sub? i with
    | none => w
    | some sub => w.setSub i (updateAt f path sub)

def act (w : Writer) (a : Action) : Writer := updateAt (·.call a.call) a.path w

def run (w : Writer) (actions : List Action) : Writer := actions.foldl act w

@[simp] theorem run_nil (w : Writer) : w.run [] = w := rfl

@[simp] theorem run_cons (w : Writer) (a : Action) (rest : List Action) :
    w.run (a :: rest) = (w.act a).run rest := rfl

theorem run_append (w : Writer) (before after : List Action) :
    w.run (before ++ after) = (w.run before).run after := List.foldl_append

/-! ## Sub-writers by their handles -/

theorem sub?_eq_some_iff {w sub : Writer} {i : Nat} :
    w.sub? i = some sub ↔ w.segments[i]? = some sub.toSegment := by
  unfold sub?
  split
  · next cursor segments found =>
    rw [found]
    cases sub
    simp [toSegment]
  · next other =>
    constructor
    · intro none
      cases none
    · intro found
      exact absurd found (other _ _)

theorem sub?_congr {v w : Writer} (same : v.segments = w.segments) (i : Nat) :
    v.sub? i = w.sub? i := by
  unfold sub?
  rw [same]

theorem sub?_lt {w sub : Writer} {i : Nat} (found : w.sub? i = some sub) :
    i < w.segments.length :=
  (List.getElem?_eq_some_iff.mp (sub?_eq_some_iff.mp found)).1

/-- Every nested segment is the sub-writer of a handle. -/
theorem sub?_of_mem {w sub : Writer} (member : sub.toSegment ∈ w.segments) :
    ∃ i, w.sub? i = some sub := by
  obtain ⟨i, found⟩ := List.mem_iff_getElem?.mp member
  exact ⟨i, sub?_eq_some_iff.mpr found⟩

@[simp] theorem setSub_toCursor (w : Writer) (i : Nat) (sub : Writer) :
    (w.setSub i sub).toCursor = w.toCursor := rfl

/-- A replaced sub-writer is found where the old one was. -/
theorem sub?_setSub_self {w old : Writer} {i : Nat} (found : w.sub? i = some old) (sub : Writer) :
    (w.setSub i sub).sub? i = some sub := by
  rw [sub?_eq_some_iff]
  simp [setSub, sub?_lt found]

theorem sub?_setSub_ne (w sub : Writer) {i j : Nat} (different : i ≠ j) :
    (w.setSub i sub).sub? j = w.sub? j := by
  simp [sub?, setSub, List.getElem?_set_ne different]

theorem setSub_self {w sub : Writer} {i : Nat} (found : w.sub? i = some sub) :
    w.setSub i sub = w := by
  obtain ⟨bound, eq⟩ := List.getElem?_eq_some_iff.mp (sub?_eq_some_iff.mp found)
  simp [setSub, ← eq]

@[simp] theorem setSub_setSub (w : Writer) (i : Nat) (first second : Writer) :
    (w.setSub i first).setSub i second = w.setSub i second := by
  simp [setSub]

/-- Replacements at two places do not depend on their order. -/
theorem setSub_comm (w first second : Writer) {i j : Nat} (different : i ≠ j) :
    (w.setSub i first).setSub j second = (w.setSub j second).setSub i first := by
  simp [setSub, List.set_comm _ _ different]

/-! ## Writers at a path -/

theorem at?_cons {w sub : Writer} {i : Nat} (found : w.sub? i = some sub) (path : List Nat) :
    at? (i :: path) w = at? path sub := by
  simp [at?, found]

theorem updateAt_cons {w sub : Writer} {i : Nat} (found : w.sub? i = some sub)
    (f : Writer → Writer) (path : List Nat) :
    updateAt f (i :: path) w = w.setSub i (updateAt f path sub) := by
  simp [updateAt, found]

/-- A change below a place that holds no sub-writer changes nothing. -/
theorem updateAt_cons_none {w : Writer} {i : Nat} (found : w.sub? i = none)
    (f : Writer → Writer) (path : List Nat) : updateAt f (i :: path) w = w := by
  simp [updateAt, found]

/-! ## What holds at every writer of a tree -/

/-- A property holds of a writer and of all sub-writers below it. -/
inductive Everywhere (P : Writer → Prop) : Writer → Prop
  | intro (w : Writer) (here : P w)
      (below : ∀ i sub, w.sub? i = some sub → Everywhere P sub) : Everywhere P w

variable {P : Writer → Prop} {w : Writer}

theorem Everywhere.here (h : Everywhere P w) : P w := by
  cases h
  assumption

theorem Everywhere.sub (h : Everywhere P w) {i : Nat} {sub : Writer}
    (found : w.sub? i = some sub) : Everywhere P sub := by
  cases h with
  | intro _ _ below => exact below i sub found

theorem Everywhere.mono {Q : Writer → Prop} (weaker : ∀ w, P w → Q w) (h : Everywhere P w) :
    Everywhere Q w := by
  induction h with
  | intro w here _ ih => exact .intro w (weaker w here) ih

/-- What holds everywhere in a tree holds at the place that a path leads to. -/
theorem Everywhere.at? (h : Everywhere P w) {path : List Nat} {x : Writer}
    (reached : Writer.at? path w = some x) : Everywhere P x := by
  induction path generalizing w with
  | nil =>
    cases reached
    exact h
  | cons i path ih =>
    obtain ⟨sub, found, reached⟩ := Option.bind_eq_some_iff.mp reached
    exact ih (h.sub found) reached

/-- What holds at every path of a tree holds everywhere in it. -/
theorem Everywhere.of_at? {Q : Writer → Prop} (h : Everywhere P w)
    (all : ∀ path x, Writer.at? path w = some x → Q x) : Everywhere Q w := by
  induction h with
  | intro w _ _ ih =>
    refine .intro w (all [] w rfl) fun i sub found => ih i sub found fun path x reached => ?_
    exact all (i :: path) x ((at?_cons found path).trans reached)

/-- A writer without segments is the whole tree. -/
theorem everywhere_of_segments_nil (here : P w) (none : w.segments = []) : Everywhere P w := by
  refine .intro w here fun i sub found => ?_
  simp [sub?, none] at found

/-- What holds everywhere is kept when a sub-writer is replaced by one in which it holds everywhere,
provided that the writer itself keeps it. -/
theorem everywhere_setSub {i : Nat} {sub : Writer} (h : Everywhere P w)
    (here : P (w.setSub i sub)) (new : Everywhere P sub) : Everywhere P (w.setSub i sub) := by
  refine .intro _ here fun j x found => ?_
  by_cases same : i = j
  · subst same
    have bound : i < w.segments.length := by simpa [setSub] using sub?_lt found
    have : (w.setSub i sub).segments[i]? = some sub.toSegment := by simp [setSub, bound]
    rw [sub?_eq_some_iff.mpr this] at found
    cases found
    exact new
  · rw [sub?_setSub_ne w sub same] at found
    exact h.sub found

end Writer

end CSharpGen

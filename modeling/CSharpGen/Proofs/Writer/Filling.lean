import CSharpGen.Proofs.Writer.Handles
import CSharpGen.Proofs.Writer.WholeLines

/-!
# Filling sub-writers

The only thing that a writer reads of its sub-writers is whether they end in the middle of a line.
Where only complete lines are written they never do, so changes of different writers of a tree can
be made in any order (`updateAt_comm`).
-/

namespace CSharpGen.Writer

/-- A change of a writer that does not depend on what its sub-writers hold. -/
structure Local (f : Writer → Writer) : Prop where
  whole : ∀ {w}, Everywhere WholeLines w → Everywhere WholeLines (f w)
  keeps : KeepsSubs f
  setSub : ∀ {w i old new}, Everywhere WholeLines w → Everywhere WholeLines new →
    w.sub? i = some old → f (w.setSub i new) = (f w).setSub i new

theorem Local.id : Local fun w => w := ⟨fun h => h, fun _ _ _ found => found, fun _ _ _ => rfl⟩

/-- Changes that do not depend on what sub-writers hold compose. -/
theorem Local.comp {f g : Writer → Writer} (first : Local f) (second : Local g) :
    Local fun w => g (f w) where
  whole h := second.whole (first.whole h)
  keeps w i sub found := second.keeps (f w) i sub (first.keeps w i sub found)
  setSub {w i old new} h ok found := by
    rw [first.setSub h ok found, second.setSub (first.whole h) ok (first.keeps w i old found)]

/-! ## Operations -/

variable {w old new : Writer} {i : Nat}

theorem wholeLines_everywhere_setSub (h : Everywhere WholeLines w)
    (ok : Everywhere WholeLines new) (i : Nat) : Everywhere WholeLines (w.setSub i new) :=
  everywhere_setSub h (texts_setSub h.here i new) ok

theorem openBlock_setSub (w new : Writer) (i : Nat) (header : String) (constraints : List String) :
    ((w.setSub i new).openBlock header constraints).1 =
      (w.openBlock header constraints).1.setSub i new := by
  rw [openBlock_eq, openBlock_eq]
  rfl

/-- After whole lines a closing brace needs no line end before it. -/
theorem closing_wholeLines (h : Everywhere WholeLines w) :
    w.closing = w.indentation ++ "\x7d\n" := by
  simp [closing, endsMidLine_wholeLines h]

/-- Ending a block asks only whether the writer ends in the middle of a line, which whole lines
never do; so it may come before or after a sub-writer is filled. -/
theorem endBlock_setSub (h : Everywhere WholeLines w) (ok : Everywhere WholeLines new) :
    (w.setSub i new).endBlock = w.endBlock.setSub i new := by
  cases opened : w.openBlocks with
  | nil =>
    have none : (w.setSub i new).openBlocks = [] := opened
    rw [endBlock_nil opened, endBlock_nil none]
  | cons id outer =>
    have some : (w.setSub i new).openBlocks = id :: outer := opened
    have popped : Everywhere WholeLines { w with openBlocks := outer } :=
      .intro _ h.here fun _ _ found => h.sub found
    have filled : Everywhere WholeLines { w.setSub i new with openBlocks := outer } :=
      wholeLines_everywhere_setSub popped ok i
    rw [endBlock_cons opened, endBlock_cons some, closing_wholeLines popped,
      closing_wholeLines filled]
    rfl

theorem written_setSub (w new : Writer) (i : Nat) (op : Op) :
    (w.setSub i new).written op = w.written op := by
  cases op <;> rfl

/-- An operation that writes lines does not depend on what sub-writers hold. -/
theorem local_apply {op : Op} (lines : (Call.op op).WritesLines) : Local (·.apply op) where
  whole h := wholeLines_invariant.everywhere_call (c := .op op) lines h
  keeps := keepsSubs_call (.op op)
  setSub {w i old new} h ok _ := by
    rcases apply_cases op with writes | (rfl | rfl) | ⟨header, rfl⟩ | rfl
    · rw [writes, writes, written_setSub]
      rfl
    · rfl
    · rfl
    · exact openBlock_setSub w new i header []
    · exact endBlock_setSub h ok

/-! ## Reservations -/

theorem flush_setSub (new : Writer) (bound : i < w.segments.length) :
    (w.setSub i new).flush = w.flush.setSub i new := by
  unfold flush
  rw [setSub_toCursor]
  split
  · rfl
  · simp [setSub, List.set_append_left _ _ bound]

theorem le_flush_length (w : Writer) : w.segments.length ≤ w.flush.segments.length := by
  unfold flush
  split <;> simp

theorem child_setSub (w new : Writer) (i : Nat) (header : Option String) :
    (w.setSub i new).child header = w.child header := rfl

/-- A reservation comes behind the sub-writers that are there and leaves them alone. -/
theorem reserve_setSub (found : w.sub? i = some old) (header : Option String) :
    (w.setSub i new).reserve header =
      ((w.reserve header).1.setSub i new, (w.reserve header).2) := by
  have bound := sub?_lt found
  have flushed := flush_setSub new bound
  have length := Nat.lt_of_lt_of_le bound (le_flush_length w)
  refine Prod.ext ?_ ?_
  · rw [reserve_fst, reserve_fst, flushed, child_setSub]
    simp [setSub, List.set_append_left _ _ length]
  · rw [reserve_snd, reserve_snd, flushed]
    simp [setSub]

/-- Reserves a sub-writer and fills it at once. -/
def reserveFilled (header : Option String) (fill : Writer → Writer) (w : Writer) : Writer :=
  (w.reserve header).1.setSub (w.reserve header).2 (fill (w.child header))

/-- Reserving a sub-writer and filling it at once does not depend on what the others hold. -/
theorem local_reserveFilled {fill : Writer → Writer} (filling : Local fill)
    (header : Option String) : Local (reserveFilled header fill) where
  whole {w} h := by
    have child : Everywhere WholeLines (w.child header) :=
      everywhere_of_segments_nil (wholeLines_child w header) (child_segments w header)
    have reserved : Everywhere WholeLines (w.reserve header).1 :=
      wholeLines_invariant.everywhere_call (c := .reserve header) trivial h
    exact wholeLines_everywhere_setSub reserved (filling.whole child) _
  keeps w i sub found := by
    rw [reserveFilled, sub?_setSub_ne _ _ (ne_handle found header).symm]
    exact keepsSubs_call (.reserve header) w i sub found
  setSub {w i old new} _ _ found := by
    rw [reserveFilled, reserve_setSub found, child_setSub, reserveFilled,
      setSub_comm _ _ _ (ne_handle found header)]

/-! ## Different writers -/

variable {f g : Writer → Writer} {p q : List Nat}

/-- A local change leaves whole lines everywhere, whichever writer of the tree is changed. -/
theorem Local.whole_updateAt (change : Local f) (h : Everywhere WholeLines w) (path : List Nat) :
    Everywhere WholeLines (updateAt f path w) :=
  wholeLines_invariant.everywhere_updateAt (fun _ => change.whole) path h

/-- A change of the root commutes with one below it. -/
theorem updateAt_root_comm (first : Local f) (second : Local g) (h : Everywhere WholeLines w)
    (found : w.sub? i = some old) (path : List Nat) :
    f (updateAt g (i :: path) w) = updateAt g (i :: path) (f w) := by
  rw [updateAt_cons found, updateAt_cons (first.keeps w i old found),
    first.setSub h (second.whole_updateAt (h.sub found) path) found]

/-- Changes of different writers of a tree can be made in any order. -/
theorem updateAt_comm (first : Local f) (second : Local g) (different : p ≠ q)
    (h : Everywhere WholeLines w) (atP : (at? p w).isSome) (atQ : (at? q w).isSome) :
    updateAt f p (updateAt g q w) = updateAt g q (updateAt f p w) := by
  induction p generalizing q w with
  | nil =>
    cases q with
    | nil => exact absurd rfl different
    | cons j q =>
      cases found : w.sub? j with
      | none => simp [at?, found] at atQ
      | some sub => exact updateAt_root_comm first second h found q
  | cons i p ih =>
    cases found : w.sub? i with
    | none => simp [at?, found] at atP
    | some sub =>
      rw [at?_cons found] at atP
      cases q with
      | nil => exact (updateAt_root_comm second first h found p).symm
      | cons j q =>
        by_cases same : i = j
        · subst same
          rw [at?_cons found] at atQ
          have inner := ih (fun eq => different (congrArg (i :: ·) eq)) (h.sub found) atP atQ
          rw [updateAt_cons found, updateAt_cons (sub?_setSub_self found _), setSub_setSub,
            updateAt_cons found, updateAt_cons (sub?_setSub_self found _), setSub_setSub, inner]
        · cases other : w.sub? j with
          | none => simp [at?, other] at atQ
          | some sub' =>
            have left := (sub?_setSub_ne w (updateAt g q sub') (Ne.symm same)).trans found
            have right := (sub?_setSub_ne w (updateAt f p sub) same).trans other
            rw [updateAt_cons other, updateAt_cons left, updateAt_cons found, updateAt_cons right,
              setSub_comm _ _ _ (Ne.symm same)]

end CSharpGen.Writer

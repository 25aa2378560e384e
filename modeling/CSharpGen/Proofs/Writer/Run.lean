import CSharpGen.Proofs.Writer.Written

/-!
# What runs keep

A call leaves the sub-writers below its writer alone, and a reservation adds one below the handle
that it gives. So what every call keeps at every writer of a tree holds at every writer after every
run (`Invariant.run`).
-/

namespace CSharpGen.Writer

/-! ## Segments after a call -/

/-- Closing braces go to the buffer. -/
theorem endBlock_segments (w : Writer) : w.endBlock.segments = w.segments := by
  cases opened : w.openBlocks with
  | nil => rw [endBlock_nil opened]
  | cons => rw [endBlock_cons opened, appendRaw_segments]

/-- What ending the innermost block keeps, ending several or closing one by its number keeps. -/
theorem endBlocks_keeps {Q : Writer → Prop} (keeps : ∀ w, Q w → Q w.endBlock) {w : Writer}
    (h : Q w) (n : Nat) : Q (w.endBlocks n) := by
  induction n generalizing w with
  | zero => exact h
  | succ n ih => exact ih (keeps w h)

/-- What ending a block keeps is kept by closing any block. -/
theorem closeBlock_keeps {Q : Writer → Prop} (keeps : ∀ w, Q w → Q w.endBlock) {w : Writer}
    (h : Q w) (id : Nat) : Q (w.closeBlock id) := by
  unfold closeBlock
  split
  · exact h
  · exact endBlocks_keeps keeps h _

theorem closeBlock_segments (w : Writer) (id : Nat) :
    (w.closeBlock id).segments = w.segments :=
  closeBlock_keeps (fun v same => (endBlock_segments v).trans same) rfl id

theorem openBlock_segments (w : Writer) (header : String) (constraints : List String) :
    (w.openBlock header constraints).1.segments = w.segments := by
  rw [openBlock_eq, appendRaw_segments]

theorem openBlock_openBlocks (w : Writer) (header : String) (constraints : List String) :
    (w.openBlock header constraints).1.openBlocks = w.nextBlock :: w.openBlocks := by
  rw [openBlock_eq]

/-- No operation on the text touches the places of sub-writers. -/
theorem apply_segments (w : Writer) (op : Op) : (w.apply op).segments = w.segments := by
  rcases apply_cases op with writes | (rfl | rfl) | ⟨header, rfl⟩ | rfl
  · rw [writes, appendRaw_segments]
  · rfl
  · rfl
  · exact openBlock_segments _ _ _
  · exact endBlock_segments w

theorem child_segments (w : Writer) (header : Option String) : (w.child header).segments = [] := by
  cases header with
  | none => rfl
  | some text => exact openBlock_segments _ _ _

/-! ## Sub-writers after a call -/

theorem sub?_of_length_le {w : Writer} {i : Nat} (beyond : w.segments.length ≤ i) :
    w.sub? i = none := by
  simp only [sub?, List.getElem?_eq_none beyond]

theorem sub?_flush (w : Writer) (i : Nat) : w.flush.sub? i = w.sub? i := by
  unfold flush
  split
  · rfl
  · rcases Nat.lt_trichotomy i w.segments.length with before | rfl | after
    · simp only [sub?, List.getElem?_append_left before]
    · simp [sub?]
    · rw [sub?_of_length_le (Nat.le_of_lt after), sub?_of_length_le]
      rw [List.length_append, List.length_singleton]
      exact after

theorem reserve_fst (w : Writer) (header : Option String) : (w.reserve header).1 =
    { w.flush with segments := w.flush.segments ++ [(w.child header).toSegment] } := rfl

theorem reserve_snd (w : Writer) (header : Option String) :
    (w.reserve header).2 = w.flush.segments.length := rfl

/-- A reservation flushes the buffer and moves no counter. -/
theorem reserve_toCursor (w : Writer) (header : Option String) :
    (w.reserve header).1.toCursor = { w.toCursor with buffer := "" } := by
  rw [reserve_fst, flush]
  split
  · next empty =>
    have same : { w.toCursor with buffer := w.buffer } = w.toCursor := rfl
    rwa [String.isEmpty_iff.mp empty, eq_comm] at same
  · rfl

/-- A reservation adds one sub-writer, below the handle that it gives. -/
theorem sub?_reserve (w : Writer) (header : Option String) (i : Nat) :
    (w.reserve header).1.sub? i =
      if i = (w.reserve header).2 then some (w.child header) else w.sub? i := by
  rw [← sub?_flush w i, reserve_snd, reserve_fst]
  rcases Nat.lt_trichotomy i w.flush.segments.length with before | rfl | after
  · rw [if_neg (Nat.ne_of_lt before)]
    simp only [sub?, List.getElem?_append_left before]
  · simp [sub?, toSegment]
  · rw [if_neg (Nat.ne_of_gt after), sub?_of_length_le (Nat.le_of_lt after), sub?_of_length_le]
    rw [List.length_append, List.length_singleton]
    exact after

/-- The handle of a reservation leads to the fresh sub-writer. -/
theorem sub?_reserve_self (w : Writer) (header : Option String) :
    (w.reserve header).1.sub? (w.reserve header).2 = some (w.child header) := by
  rw [sub?_reserve, if_pos rfl]

/-- The handle of a reservation is new. -/
theorem sub?_reserve_handle (w : Writer) (header : Option String) :
    w.sub? (w.reserve header).2 = none := by
  rw [← sub?_flush, reserve_snd]
  exact sub?_of_length_le (Nat.le_refl _)

/-- A new handle is none of those that were given before. -/
theorem ne_handle {w sub : Writer} {i : Nat} (found : w.sub? i = some sub)
    (header : Option String) : i ≠ (w.reserve header).2 := by
  rintro rfl
  rw [sub?_reserve_handle] at found
  cases found

/-- A call keeps the sub-writers that are there. -/
theorem sub?_call_of_sub {w sub : Writer} {i : Nat} (found : w.sub? i = some sub) (c : Call) :
    (w.call c).sub? i = some sub := by
  cases c with
  | op op => rw [call, sub?_congr (apply_segments w op), found]
  | openBlock => rw [call, sub?_congr (openBlock_segments _ _ _), found]
  | closeBlock id => rw [call, sub?_congr (closeBlock_segments w id), found]
  | reserve header => rw [call, sub?_reserve, if_neg (ne_handle found header), found]

/-- A call has no sub-writers but those that were there and the one that it reserves. -/
theorem sub?_call_cases {w sub : Writer} {i : Nat} {c : Call}
    (found : (w.call c).sub? i = some sub) :
    w.sub? i = some sub ∨ ∃ header, c = .reserve header ∧ sub = w.child header := by
  cases c with
  | op op => exact .inl (sub?_congr (apply_segments w op) i ▸ found)
  | openBlock header constraints =>
    exact .inl (sub?_congr (openBlock_segments w header constraints) i ▸ found)
  | closeBlock id => exact .inl (sub?_congr (closeBlock_segments w id) i ▸ found)
  | reserve header =>
    rw [call, sub?_reserve] at found
    split at found
    · cases found
      exact .inr ⟨header, rfl, rfl⟩
    · exact .inl found

/-! ## Invariants -/

/-- A property of writers that allowed calls keep and that fresh sub-writers have. Filling a
sub-writer does not touch it. -/
structure Invariant (P : Writer → Prop) (allowed : Call → Prop) : Prop where
  call : ∀ w c, allowed c → Everywhere P w → P (w.call c)
  child : ∀ w header, allowed (.reserve header) → Everywhere P w → P (w.child header)
  setSub : ∀ w i old new, w.sub? i = some old → P w → P (w.setSub i new)

namespace Invariant

variable {P : Writer → Prop} {allowed : Call → Prop} {w : Writer}

/-- A call on one writer keeps an invariant in the whole tree. -/
theorem everywhere_call (inv : Invariant P allowed) {c : Call} (ok : allowed c)
    (h : Everywhere P w) : Everywhere P (w.call c) := by
  refine .intro _ (inv.call w c ok h) fun i sub found => ?_
  rcases sub?_call_cases found with old | ⟨header, rfl, rfl⟩
  · exact h.sub old
  · exact everywhere_of_segments_nil (inv.child w header ok h) (child_segments w header)

theorem everywhere_updateAt (inv : Invariant P allowed) {f : Writer → Writer}
    (keeps : ∀ w, Everywhere P w → Everywhere P (f w)) (path : List Nat) (h : Everywhere P w) :
    Everywhere P (updateAt f path w) := by
  induction path generalizing w with
  | nil => exact keeps w h
  | cons i path ih =>
    cases found : w.sub? i with
    | none => rwa [updateAt_cons_none found]
    | some sub =>
      rw [updateAt_cons found]
      exact everywhere_setSub h (inv.setSub w i sub _ found h.here) (ih (h.sub found))

theorem act (inv : Invariant P allowed) {a : Action} (ok : allowed a.call)
    (h : Everywhere P w) : Everywhere P (w.act a) :=
  inv.everywhere_updateAt (fun _ => inv.everywhere_call ok) a.path h

/-- An invariant is kept by every run of allowed calls. -/
theorem run (inv : Invariant P allowed) {actions : List Action}
    (ok : ∀ a ∈ actions, allowed a.call) (h : Everywhere P w) :
    Everywhere P (w.run actions) := by
  induction actions generalizing w with
  | nil => exact h
  | cons a rest ih =>
    have first := inv.act (ok a List.mem_cons_self) h
    exact ih (fun b member => ok b (List.mem_cons_of_mem a member)) first

end Invariant

end CSharpGen.Writer

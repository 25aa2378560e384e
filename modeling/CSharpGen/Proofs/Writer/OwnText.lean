import CSharpGen.Proofs.Writer.Rendering

/-!
# The text of a writer without its sub-writers

What was written to a writer itself, in order, with nothing in the places of its sub-writers. It
changes only by calls on that writer. Whatever follows a text piece by piece, and is led nowhere by
the sub-writers, follows the rendered text as it follows the writer's own.
-/

namespace CSharpGen

def Segment.ownText : Segment → String
  | .text content => content
  | .nested _ _ => ""

namespace Writer

def ownText (w : Writer) : String := String.join (w.segments.map Segment.ownText) ++ w.buffer

@[simp] theorem ownText_appendRaw (w : Writer) (s : String) :
    (w.appendRaw s).ownText = w.ownText ++ s := by
  simp [ownText, String.append_assoc]

theorem ownText_openBlock (w : Writer) (header : String) (constraints : List String) :
    (w.openBlock header constraints).1.ownText = w.ownText ++ w.opening header constraints := by
  rw [openBlock_eq]
  exact ownText_appendRaw w _

/-- Moving the buffer to a segment moves no text. -/
theorem ownText_flush (w : Writer) : w.flush.ownText = w.ownText := by
  unfold flush
  split
  · rfl
  · simp [ownText, Segment.ownText]

/-- A reserved place is no text of the writer itself. -/
theorem ownText_reserve (w : Writer) (header : Option String) :
    (w.reserve header).1.ownText = w.ownText := by
  rw [← ownText_flush w, reserve_fst]
  simp [ownText, toSegment, Segment.ownText]

/-- The texts of sub-writers are not among the own texts. -/
theorem ownText_setSub {w old : Writer} {i : Nat} (found : w.sub? i = some old) (new : Writer) :
    (w.setSub i new).ownText = w.ownText := by
  have place : (w.segments.map Segment.ownText)[i]? = some "" := by
    rw [List.getElem?_map, sub?_eq_some_iff.mp found]
    rfl
  obtain ⟨bound, eq⟩ := List.getElem?_eq_some_iff.mp place
  have same : (w.segments.set i new.toSegment).map Segment.ownText =
      w.segments.map Segment.ownText := by
    rw [List.map_set, toSegment, Segment.ownText, ← eq, List.set_getElem_self]
  simp only [ownText, setSub, same]

end Writer

/-- Something that follows texts takes the same course through rendered segments as through the
texts among them, when no sub-writer leads it anywhere. -/
theorem Segment.scan_renderAllAfter {σ : Type} {scan : σ → String → Option σ}
    (whole : String → Prop)
    (append : ∀ x s t, whole s → scan x (s ++ t) = (scan x s).bind (scan · t))
    {segments : List Segment}
    (grow : ∀ s ∈ segments, ∀ out, s.renderAfter out = out ++ s.renderAfter "")
    (each : ∀ s ∈ segments, whole (s.renderAfter "") ∧ whole s.ownText ∧
      ∀ x, scan x (s.renderAfter "") = scan x s.ownText) (x : σ) :
    scan x (Segment.renderAllAfter segments "") =
      scan x (String.join (segments.map Segment.ownText)) := by
  induction segments generalizing x with
  | nil => rfl
  | cons s rest ih =>
    have growRest : ∀ t ∈ rest, ∀ out, t.renderAfter out = out ++ t.renderAfter "" :=
      fun t member => grow t (List.mem_cons_of_mem s member)
    have others := ih growRest fun t member => each t (List.mem_cons_of_mem s member)
    obtain ⟨rendered, own, same⟩ := each s List.mem_cons_self
    rw [renderAllAfter, renderAllAfter_eq growRest, append _ _ _ rendered, same, List.map_cons,
      String.join_cons, append _ _ _ own]
    exact congrArg _ (funext others)

end CSharpGen

import CSharpGen.Proofs.Writer.Rendering

/-!
# Closing blocks does not show

Rendering closes the blocks that are open. Closing one of them by hand writes at once what rendering
would have added later, so the text of the root stays the same, whichever writer of the tree the
block belongs to.
-/

namespace CSharpGen

namespace Call

/-- A call that only closes blocks. -/
def Closes : Call → Prop
  | .op .endBlock | .closeBlock _ => True
  | _ => False

instance : DecidablePred Closes := fun c => by
  unfold Closes
  split <;> infer_instance

end Call

namespace Writer

/-! ## One writer -/

theorem everywhere_openBlocks {w : Writer} (h : Everywhere Grounded w) {outer : List Nat}
    (fewer : outer ≠ [] → w.openBlocks ≠ []) :
    Everywhere Grounded { w with openBlocks := outer } :=
  .intro _ (fun opened => h.here (fewer opened)) fun _ _ found => h.sub found

theorem closeAfter_of_endsLine (c : Cursor) {text : String} (ended : Text.endsLine text = true) :
    c.closeAfter text =
      text ++ Cursor.closingLines c.style (c.baseDepth + c.extraIndent) c.openBlocks.length := by
  unfold Cursor.closeAfter
  cases c.openBlocks with
  | nil => simp [Cursor.closingLines]
  | cons => simp [Text.finishLine_of_endsLine ended]

/-- The innermost closing line, which ending the block writes and rendering would write. -/
theorem append_closing {w : Writer} (h : Everywhere Grounded w) (full : w.body ≠ "")
    (out : String) : out ++ w.body ++ w.closing =
      Text.finishLine (out ++ w.body) ++ (w.indentation ++ "\x7d\n") := by
  rw [Text.finishLine_append out full, Text.finishLine_eq, ← endsMidLine_eq h, closing]
  simp only [String.append_assoc]

/-- Ending the innermost block renders the text that leaving it open renders. -/
theorem renderAfter_endBlock {w : Writer} (h : Everywhere Grounded w) (out : String) :
    w.endBlock.renderAfter out = w.renderAfter out := by
  cases opened : w.openBlocks with
  | nil => rw [endBlock_nil opened]
  | cons id outer =>
    let inner : Writer := { w with openBlocks := outer }
    have grounded : Everywhere Grounded inner := everywhere_openBlocks h (by simp [opened])
    have full : w.body ≠ "" := body_ne_empty_of_opened h (by simp [opened])
    have text : Segment.renderAllAfter w.segments out ++ w.buffer = out ++ w.body := by
      rw [Segment.renderAllAfter_eq (renderAfter_of_mem h), String.append_assoc, body]
    have closed : Segment.renderAllAfter w.segments out ++ (w.buffer ++ inner.closing) =
        Text.finishLine (out ++ w.body) ++ (inner.indentation ++ "\x7d\n") := by
      rw [← String.append_assoc, text]
      exact append_closing grounded full out
    have ended : Text.endsLine
        (Text.finishLine (out ++ w.body) ++ (inner.indentation ++ "\x7d\n")) = true :=
      Text.endsLine_append_right _ (Text.endsLine_append_right _ rfl)
    calc w.endBlock.renderAfter out
        = inner.closeAfter
            (Segment.renderAllAfter w.segments out ++ (w.buffer ++ inner.closing)) := by
          rw [endBlock_cons opened]
          rfl
      _ = Text.finishLine (out ++ w.body) ++ (inner.indentation ++ "\x7d\n") ++
            Cursor.closingLines w.style (w.baseDepth + w.extraIndent) outer.length := by
          rw [closed, closeAfter_of_endsLine _ ended]
      _ = w.renderAfter out := by
          have level : inner.indentation =
              w.style.levels (w.baseDepth + w.extraIndent + outer.length) := by
            simp only [inner, Cursor.indentation, Cursor.depth]
            congr 1
            omega
          rw [renderAfter, text, Cursor.closeAfter, level]
          simp only [opened, List.isEmpty_cons, List.length_cons, Cursor.closingLines,
            String.append_assoc]
          rfl

/-- A call that only closes blocks renders the same text. -/
theorem renderAfter_call {w : Writer} (h : Everywhere Grounded w) {c : Call} (closes : c.Closes)
    (out : String) : (w.call c).renderAfter out = w.renderAfter out := by
  have step (v : Writer) (same : Everywhere Grounded v ∧ v.renderAfter out = w.renderAfter out) :
      Everywhere Grounded v.endBlock ∧ v.endBlock.renderAfter out = w.renderAfter out :=
    ⟨grounded_invariant.everywhere_call (c := .op .endBlock) trivial same.1,
      (renderAfter_endBlock same.1 out).trans same.2⟩
  match c, closes with
  | .op .endBlock, _ => exact renderAfter_endBlock h out
  | .closeBlock id, _ => exact (closeBlock_keeps step ⟨h, rfl⟩ id).2

/-! ## The tree around it -/

theorem renderAllAfter_set {segments : List Segment} {i : Nat} {old : Segment}
    (found : segments[i]? = some old) (new : Segment)
    (same : ∀ out, new.renderAfter out = old.renderAfter out) (out : String) :
    Segment.renderAllAfter (segments.set i new) out = Segment.renderAllAfter segments out := by
  induction segments generalizing i out with
  | nil => rfl
  | cons s rest ih =>
    cases i with
    | zero =>
      cases found
      simp [Segment.renderAllAfter, same]
    | succ i => exact ih found (s.renderAfter out)

/-- The root renders the same text when the changed writer does. -/
theorem renderAfter_updateAt {f : Writer → Writer} (path : List Nat) {w : Writer}
    (same : ∀ x, at? path w = some x → ∀ out, (f x).renderAfter out = x.renderAfter out)
    (out : String) : (updateAt f path w).renderAfter out = w.renderAfter out := by
  induction path generalizing w out with
  | nil => exact same w rfl out
  | cons i path ih =>
    cases found : w.sub? i with
    | none => rw [updateAt_cons_none found]
    | some sub =>
      have inner : ∀ out, (updateAt f path sub).renderAfter out = sub.renderAfter out :=
        ih fun x reached => same x ((at?_cons found path).trans reached)
      rw [updateAt_cons found]
      have all := renderAllAfter_set (sub?_eq_some_iff.mp found)
        (updateAt f path sub).toSegment inner out
      exact congrArg (fun text => w.closeAfter (text ++ w.buffer)) all

theorem render_run_of_closes {w : Writer} (h : Everywhere Grounded w) (closings : List Action)
    (closes : ∀ a ∈ closings, a.call.Closes) : (w.run closings).render = w.render := by
  induction closings generalizing w with
  | nil => rfl
  | cons a rest ih =>
    have first : (w.act a).render = w.render :=
      renderAfter_updateAt a.path
        (fun x reached => renderAfter_call (h.at? reached) (closes a List.mem_cons_self)) ""
    have grounded := grounded_invariant.act (a := a) trivial h
    rw [run_cons, ih grounded fun b member => closes b (List.mem_cons_of_mem a member), first]

/-- Closing any blocks of any writers of a tree, by hand or by releasing guards, leaves the text of
the root as it was. So closing all of them renders what leaving them to rendering does. -/
theorem render_unchanged_by_closing (style : Indent) (actions closings : List Action)
    (closes : ∀ a ∈ closings, a.call.Closes) :
    (((Writer.empty style).run actions).run closings).render =
      ((Writer.empty style).run actions).render :=
  render_run_of_closes (grounded_run style actions) closings closes

/-- An unfinished line in a branch, with the block around it. -/
def unfinishedBranch : List Action := [
  ⟨[], .openBlock "void Run()" []⟩, ⟨[], .op .increaseIndent⟩,
  ⟨[], .reserve (some "if (ready)")⟩, ⟨[1], .op (.append "Go();")⟩]

theorem render_unchanged_by_closing_outermost :
    (∀ a ∈ [Action.mk [] (.closeBlock 0), ⟨[1], .op .endBlock⟩], a.call.Closes) ∧
    (((Writer.empty .tabs).run unfinishedBranch).run
        [⟨[], .closeBlock 0⟩, ⟨[1], .op .endBlock⟩]).render =
      ((Writer.empty .tabs).run unfinishedBranch).render := by
  have closes : ∀ a ∈ [Action.mk [] (.closeBlock 0), ⟨[1], .op .endBlock⟩], a.call.Closes := by
    decide
  exact ⟨closes, render_unchanged_by_closing .tabs unfinishedBranch _ closes⟩

end Writer

end CSharpGen

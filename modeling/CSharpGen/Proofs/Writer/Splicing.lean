import CSharpGen.Proofs.Writer.Rendering

/-!
# Splicing

Rendering hands the text so far from one sub-writer to the next, and each of them looks at its end
before it closes its blocks. All the same a writer adds its own text and nothing else: the text of a
writer is that of its segments, one after the other, with the sub-writers rendered by themselves.
What a writer answers about its emptiness and about the end of its text can be read off that text.
-/

namespace CSharpGen

/-- What a segment stands for by itself. -/
def Segment.rendered : Segment → String
  | .text content => content
  | .nested cursor segments => Writer.render { toCursor := cursor, segments }

theorem Segment.renderAfter_empty (s : Segment) : s.renderAfter "" = s.rendered := by
  cases s with
  | text content => exact String.empty_append
  | nested cursor segments => rfl

namespace Writer

/-- The text of a writer so far: its segments with the sub-writers in place, then its buffer. The
braces that rendering adds for the open blocks of the writer itself are not part of it. -/
def textSoFar (w : Writer) : String := String.join (w.segments.map Segment.rendered) ++ w.buffer

end Writer

theorem Segment.renderAllAfter_eq_join {segments : List Segment}
    (each : ∀ s ∈ segments, ∀ out, s.renderAfter out = out ++ s.renderAfter "") (out : String) :
    Segment.renderAllAfter segments out = out ++ String.join (segments.map Segment.rendered) := by
  induction segments generalizing out with
  | nil => exact String.append_empty.symm
  | cons s rest ih =>
    have others := ih fun t member => each t (List.mem_cons_of_mem s member)
    rw [renderAllAfter, others, each s List.mem_cons_self out, renderAfter_empty, List.map_cons,
      String.join_cons, String.append_assoc]

theorem Segment.allEmpty_iff {segments : List Segment} :
    Segment.allEmpty segments = true ↔ ∀ s ∈ segments, s.isEmpty = true := by
  induction segments with
  | nil => simp [allEmpty]
  | cons s rest ih => rw [allEmpty, Bool.and_eq_true, ih, List.forall_mem_cons]

namespace Writer

variable {w : Writer}

theorem body_eq_textSoFar (h : Everywhere Grounded w) : w.body = w.textSoFar := by
  rw [body, textSoFar, Segment.renderAllAfter_eq_join (renderAfter_of_mem h), String.empty_append]

theorem render_eq_closeAfter (h : Everywhere Grounded w) :
    w.render = w.closeAfter w.textSoFar := by
  rw [← body_eq_textSoFar h]
  rfl

/-- A writer that renders to nothing has no text, since an open block has left its brace in it. -/
theorem render_eq_empty_iff (h : Everywhere Grounded w) : w.render = "" ↔ w.body = "" := by
  constructor
  · exact Decidable.not_imp_not.mp render_ne_empty
  · intro nothing
    have closed : w.openBlocks = [] :=
      Decidable.not_not.mp fun opened => body_ne_empty_of_opened h opened nothing
    rw [render_eq_body closed, nothing]

theorem isEmpty_iff (h : Everywhere Grounded w) : w.isEmpty = true ↔ w.render = "" := by
  induction h with
  | intro w grounded below ih =>
    have here := Everywhere.intro w grounded below
    -- emptiness does not look at open blocks, whose braces are rendered, but these have left text
    have segments : ∀ s ∈ w.segments, s.isEmpty = true ↔ s.renderAfter "" = "" := by
      intro s member
      rcases segment_cases member with ⟨text, rfl⟩ | ⟨i, sub, found, rfl⟩
      · simp [Segment.isEmpty, Segment.renderAfter]
      · exact ih i sub found
    rw [render_eq_empty_iff here, body_eq_empty_iff (renderAfter_of_mem here), isEmpty,
      Bool.and_eq_true, String.isEmpty_iff, Segment.allEmpty_iff]
    exact and_congr_right fun _ => forall₂_congr segments

/-- The answer about the end of a line, which is looked for from the last segment backwards, is what
the end of the text shows. -/
theorem endsMidLine_iff (h : Everywhere Grounded w) :
    w.endsMidLine = true ↔ w.textSoFar ≠ "" ∧ Text.endsLine w.textSoFar = false := by
  rw [endsMidLine_eq h, body_eq_textSoFar h, Text.unfinished?]
  by_cases nothing : w.textSoFar = "" <;> simp [nothing]

/-- In every tree that was built by calls, a writer renders to the text of its segments and its
buffer, with the braces of its own open blocks after it, and adds just that to whatever was rendered
before. It is empty when that is no text, and it is in the middle of a line when its text, without
these braces, does not end one. -/
theorem renders_by_splicing (style : Indent) (actions : List Action) (path : List Nat) (w : Writer)
    (reached : at? path ((Writer.empty style).run actions) = some w) :
    (∀ out, w.renderAfter out = out ++ w.render) ∧
      w.render = w.closeAfter w.textSoFar ∧
      (w.isEmpty = true ↔ w.render = "") ∧
      (w.endsMidLine = true ↔ w.textSoFar ≠ "" ∧ Text.endsLine w.textSoFar = false) := by
  have grounded : Everywhere Grounded w := (grounded_run style actions).at? reached
  exact ⟨renderAfter_eq grounded, render_eq_closeAfter grounded, isEmpty_iff grounded,
    endsMidLine_iff grounded⟩

/-- A class with a place that stays empty and a method whose call is finished below it. -/
def lampActions : List Action := [
  ⟨[], .openBlock "class Lamp" []⟩, ⟨[], .reserve none⟩, ⟨[], .reserve (some "void Light()")⟩,
  ⟨[2], .op (.append "Glow(")⟩, ⟨[2], .reserve none⟩, ⟨[2, 1], .op (.appendUnindented "60);")⟩]

theorem renders_by_splicing_lamp :
    let lamp := (Writer.empty .spaces).run lampActions
    (∃ place, at? [1] lamp = some place ∧ place.isEmpty = true ∧ place.render = "") ∧
      ∃ light, at? [2] lamp = some light ∧ light.endsMidLine = true ∧
        light.textSoFar = "    void Light()\n    \x7b\n        Glow(60);" ∧
        light.renderAfter "lamp:" =
          "lamp:" ++ "    void Light()\n    \x7b\n        Glow(60);\n    \x7d\n" := by
  intro lamp
  obtain ⟨place, atPlace, isEmpty⟩ := Option.map_eq_some_iff.mp
    (show (at? [1] lamp).map isEmpty = some true by decide +kernel)
  obtain ⟨light, atLight, shows⟩ := Option.map_eq_some_iff.mp
    (show (at? [2] lamp).map (fun w => (w.textSoFar, w.render)) =
      some ("    void Light()\n    \x7b\n        Glow(60);",
        "    void Light()\n    \x7b\n        Glow(60);\n    \x7d\n") by decide +kernel)
  obtain ⟨text, render⟩ := Prod.mk.inj shows
  obtain ⟨-, -, nothing, -⟩ := renders_by_splicing .spaces lampActions [1] place atPlace
  obtain ⟨after, -, -, ends⟩ := renders_by_splicing .spaces lampActions [2] light atLight
  refine ⟨⟨place, atPlace, isEmpty, nothing.mp isEmpty⟩, light, atLight, ?_, text, ?_⟩
  · rw [ends, text]
    decide +kernel
  · rw [after, render]

end Writer

end CSharpGen

import CSharpGen.Proofs.Text.TrailingBlanks
import CSharpGen.Proofs.Writer.Texts

/-!
# Writers leave no trailing blanks

Every text is written without the blanks at its end, indentation is written before a text only, and
braces stand at the ends of their lines. So no line of a rendered writer ends with a blank
(`Writer.render_noTrailingBlanks`).
-/

namespace CSharpGen

/-- A call that is given texts of one line. -/
def Call.OneLine (c : Call) : Prop := ∀ text ∈ c.texts, Text.OneLine text

instance : DecidablePred Call.OneLine := fun c => List.decidableBAll Text.OneLine c.texts

namespace Writer

open Text (NoTrailingBlanks noTrailingBlanks_append noTrailingBlanks_newline)

/-! ## What calls write -/

theorem oneLine_levels (style : Indent) (n : Nat) : Text.OneLine (style.levels n) :=
  fun member => (style.levels_chars n '\n' member).2.1 rfl

/-- An indented text is trimmed at its end, and a blank one leaves no indentation behind. -/
theorem noTrailingBlanks_indented (w : Writer) {text : String} (one : Text.OneLine text) :
    NoTrailingBlanks (w.indented text) := by
  unfold indented
  split
  · exact Text.noTrailingBlanks_empty
  · next filled =>
    have line : Text.OneLine (w.indentation ++ text) :=
      Text.oneLine_append.mpr ⟨oneLine_levels _ _, one⟩
    rw [← Text.trimEnd_append w.indentation (Bool.eq_false_iff.mpr filled)]
    exact line.noTrailingBlanks_trimEnd

/-- Nothing but a line end stands behind an indented brace. -/
theorem noTrailingBlanks_brace (style : Indent) (n : Nat) {line : String}
    (h : line = "\x7b\n" ∨ line = "\x7d\n") : NoTrailingBlanks (style.levels n ++ line) := by
  obtain ⟨brace, ended, one, ends⟩ : ∃ brace, line = brace ++ "\n" ∧ Text.OneLine brace ∧
      Text.EndsSolid brace := by
    rcases h with rfl | rfl
    · exact ⟨"\x7b", by decide, by decide, '\x7b', rfl, by decide⟩
    · exact ⟨"\x7d", by decide, by decide, '\x7d', rfl, by decide⟩
  have indented : Text.OneLine (style.levels n ++ brace) :=
    Text.oneLine_append.mpr ⟨oneLine_levels style n, one⟩
  rw [ended, ← String.append_assoc]
  exact noTrailingBlanks_append ((Text.endsSolid_append _ ends).noTrailingBlanks indented)
    noTrailingBlanks_newline

/-- The last line counts as well, so texts without trailing blanks can be put one behind the other.
-/
theorem noTrailingBlanks_joins : Text.Joins NoTrailingBlanks where
  empty := Text.noTrailingBlanks_empty
  newline := noTrailingBlanks_newline
  brace style n := noTrailingBlanks_brace style n (.inr rfl)
  append := noTrailingBlanks_append

theorem noTrailingBlanks_headLines (w : Writer) {texts : List String}
    (one : ∀ text ∈ texts, Text.OneLine text) : NoTrailingBlanks (w.headLines texts) :=
  noTrailingBlanks_joins.headLines w fun text given =>
    noTrailingBlanks_append (w.noTrailingBlanks_indented (one text given)) noTrailingBlanks_newline

/-- Whatever a call with texts of one line writes has no trailing blanks. -/
theorem noTrailingBlanks_writes : Call.Writes NoTrailingBlanks Call.OneLine where
  written w op one := by
    cases op with
    | append text => exact w.noTrailingBlanks_indented (one text List.mem_cons_self)
    | appendLine text =>
      exact noTrailingBlanks_append (w.noTrailingBlanks_indented (one text List.mem_cons_self))
        noTrailingBlanks_newline
    | appendUnindented text => exact (one text List.mem_cons_self).noTrailingBlanks_trimEnd
    | appendUnindentedLine text =>
      exact noTrailingBlanks_append (one text List.mem_cons_self).noTrailingBlanks_trimEnd
        noTrailingBlanks_newline
    | newLine => exact noTrailingBlanks_newline
    | increaseIndent | decreaseIndent | beginBlock | endBlock => exact Text.noTrailingBlanks_empty
  opening w c header constraints one given := by
    rw [Call.OneLine, given] at one
    obtain ⟨first, others⟩ := List.forall_mem_cons.mp one
    exact noTrailingBlanks_append
      (noTrailingBlanks_append (w.noTrailingBlanks_headLines (List.forall_mem_singleton.mpr first))
        (w.increaseIndent.noTrailingBlanks_headLines others))
      (noTrailingBlanks_brace w.style _ (.inl rfl))

/-! ## Rendered texts -/

/-- After any calls that are given texts of one line, whatever blanks these hold, no line of any
writer of the tree ends with a blank. -/
theorem render_noTrailingBlanks (style : Indent) (actions : List Action)
    (one : ∀ a ∈ actions, a.call.OneLine) (path : List Nat) (x : Writer)
    (reached : at? path ((empty style).run actions) = some x) : NoTrailingBlanks x.render :=
  texts_run noTrailingBlanks_joins noTrailingBlanks_writes style one reached

/-- Pieces of lines with blanks of many kinds at their ends, one of them in a sub-writer. -/
def blankEnds : List Action := [
  ⟨[], .op (.append "var total =\u00A0")⟩, ⟨[], .op (.append "\t \u2003")⟩,
  ⟨[], .op (.appendUnindentedLine " first;\r")⟩,
  ⟨[], .openBlock "while (next) " ["", "// until the end\u3000"]⟩,
  ⟨[], .reserve (some "lock (gate)\u2028")⟩, ⟨[], .op (.append "Done(); ")⟩,
  ⟨[1], .op (.append "Go();\u0085")⟩]

theorem render_noTrailingBlanks_blankEnds :
    let w := (empty .tabs).run blankEnds
    (∀ a ∈ blankEnds, a.call.OneLine) ∧
      w.render = "var total = first;\nwhile (next)\n\t// until the end\n\x7b\n\tlock (gate)\n" ++
        "\t\x7b\n\t\tGo();\n\t\x7d\n\tDone();\n\x7d\n" ∧
      NoTrailingBlanks w.render ∧
      ∃ x, at? [1] w = some x ∧ NoTrailingBlanks x.render := by
  intro w
  have one : ∀ a ∈ blankEnds, a.call.OneLine := by decide +kernel
  obtain ⟨x, found⟩ := Option.isSome_iff_exists.mp
    (show (at? [1] w).isSome = true by decide +kernel)
  exact ⟨one, by decide +kernel, render_noTrailingBlanks .tabs blankEnds one [] w rfl, x, found,
    render_noTrailingBlanks .tabs blankEnds one [1] x found⟩

end Writer

end CSharpGen

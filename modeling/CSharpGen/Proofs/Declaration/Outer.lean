import CSharpGen.Proofs.Declaration.Lines
import CSharpGen.Proofs.Text.Cuts

/-!
# Outermost lines

The lines of a type that are not indented are those of its head and of its declaration. None of them
starts like a directive of the file (`Script.Declares`).
-/

namespace CSharpGen

open Text (FormsLine)
open Wording (AllMeet)

variable {strict : Prop}

/-! ## Starts of texts -/

namespace Text

variable {start s : String}

/-- Neither of two texts is the start of the other. -/
def Avoids (start s : String) : Prop := startsWith start s = false ∧ startsWith s start = false

instance (start s : String) : Decidable (Avoids start s) := inferInstanceAs (Decidable (_ ∧ _))

/-- A longer text avoids what its start avoids. -/
theorem Avoids.of_startsWith (h : Avoids start s) {t : String} (starts : startsWith s t = true) :
    Avoids start t := by
  simp only [Avoids, Bool.eq_false_iff, Ne, startsWith_iff] at h starts ⊢
  exact ⟨fun also => (List.prefix_or_prefix_of_prefix also starts).elim h.1 h.2,
    fun also => h.2 (starts.trans also)⟩

theorem Avoids.append (h : Avoids start s) (t : String) : Avoids start (s ++ t) :=
  h.of_startsWith (startsWith_append (startsWith_iff.mpr List.prefix_rfl) t)

/-- A line that is neither an import nor a pragma. -/
def NoDirective (s : String) : Prop := Avoids "using " s ∧ Avoids "#pragma " s

instance : DecidablePred NoDirective := fun _ => inferInstanceAs (Decidable (_ ∧ _))

theorem NoDirective.of_startsWith (h : NoDirective s) {t : String} (starts : startsWith s t = true) :
    NoDirective t := ⟨h.1.of_startsWith starts, h.2.of_startsWith starts⟩

/-- What stands behind a line does not make it a directive. -/
theorem NoDirective.append (h : NoDirective s) (t : String) : NoDirective (s ++ t) :=
  ⟨h.1.append t, h.2.append t⟩

end Text

open Text (NoDirective)

theorem Declaration.noDirective_written (body : String) :
    NoDirective (Attributes.written body) :=
  (Text.NoDirective.append (by decide) body).append "]"

theorem Attributes.noDirective_lines (a : Attributes) : ∀ line ∈ a.lines, NoDirective line :=
  List.forall_mem_map.mpr fun body _ => Declaration.noDirective_written body

theorem Attributes.noDirective_sortedLines (a : Attributes) :
    ∀ line ∈ a.sortedLines, NoDirective line :=
  List.forall_mem_map.mpr fun body _ => Declaration.noDirective_written body

/-- The lines of a comment start with slashes. -/
theorem Documentation.noDirective_linesWhere (d : Documentation) (known : String → Bool) :
    ∀ line ∈ d.linesWhere known, NoDirective line := by
  have comment (s : String) : NoDirective ("/// " ++ s) := Text.NoDirective.append (by decide) s
  cases d with
  | empty => exact List.forall_mem_nil _
  | inherited source =>
    cases source with
    | none => exact List.forall_mem_singleton.mpr (by decide)
    | some source =>
      exact List.forall_mem_singleton.mpr
        ((Text.NoDirective.append (by decide) source).append "\" />")
  | summary text parameters =>
    rw [Documentation.linesWhere, List.forall_mem_append]
    constructor
    · cases text with
      | none => exact List.forall_mem_nil _
      | some text =>
        refine List.forall_mem_append.mpr ⟨List.forall_mem_cons.mpr ⟨by decide, ?_⟩,
          List.forall_mem_singleton.mpr (by decide)⟩
        exact List.forall_mem_map.mpr fun line _ => comment (Text.trim line)
    · refine List.forall_mem_map.mpr fun entry _ => ?_
      exact (((Text.NoDirective.append (by decide) entry.1).append "\">").append entry.2).append
        "</param>"

namespace Declaration

/-- The line of a warning. -/
def warningLines (text : Option String) : List String := text.toList.map fun t => s!"#warning {t}"

theorem warning_eq (text : Option String) : warning text = Step.lines (warningLines text) := by
  cases text <;> rfl

theorem formsLine_warningLines {text : Option String} (h : AllMeet strict (text.toList.map .text)) :
    ∀ line ∈ warningLines text, FormsLine strict line :=
  List.forall_mem_map.mpr fun t isText =>
    (Text.formsLine_of (by decide)).append (h.texts t isText)

/-- The line of a warning is an attribute. -/
theorem noDirective_warningLines (text : Option String) :
    ∀ line ∈ warningLines text, NoDirective line :=
  List.forall_mem_map.mpr fun t _ => Text.NoDirective.append (by decide) t

/-- A line of words starts with the first of them that is not blank. -/
theorem noDirective_words (before : List String) {after : List String} {keyword : String}
    (all : ∀ part ∈ before ++ [keyword], ∀ word, Text.nonBlank? part = some word → NoDirective word)
    (filled : Text.nonBlank? keyword ≠ none) : NoDirective (words (before ++ keyword :: after)) := by
  have first (word : String) (rest : List String) (h : NoDirective word) :
      NoDirective (" ".intercalate (word :: rest)) := by
    cases rest with
    | nil => simpa using h
    | cons next rest =>
      rw [String.intercalate_cons_cons]
      exact (h.append " ").append _
  -- Blank words leave nothing behind, so the line starts with `keyword` at the latest.
  induction before with
  | nil =>
    obtain ⟨word, isWord⟩ := Option.ne_none_iff_exists'.mp filled
    rw [words, List.nil_append, List.filterMap_cons_some isWord]
    exact first word _ (all keyword (List.mem_append_right _ (List.mem_singleton_self _)) word isWord)
  | cons part rest ih =>
    obtain ⟨own, others⟩ := List.forall_mem_cons.mp all
    cases written : Text.nonBlank? part with
    | none =>
      rw [words, List.cons_append, List.filterMap_cons_none written]
      exact ih others
    | some word =>
      rw [words, List.cons_append, List.filterMap_cons_some written]
      exact first word _ (own word written)

/-- The keywords of an access start no directive. -/
theorem noDirective_keywordsOf (access : Option Access) :
    ∀ word, Text.nonBlank? (Access.keywordsOf access) = some word → NoDirective word := by
  rcases access with _ | access
  · decide
  · cases access <;> decide

theorem noDirective_wordIf (condition : Bool) {word : String}
    (h : ∀ written, Text.nonBlank? word = some written → NoDirective written) :
    ∀ written, Text.nonBlank? (wordIf condition word) = some written → NoDirective written := by
  cases condition with
  | false =>
    have none : Text.nonBlank? "" = none := by decide
    simp [wordIf, none]
  | true => exact h

end Declaration

/-! ## Layouts of types -/

/-- No line that is not indented starts like a directive. -/
def Layout.Outer (ls : Layout) : Prop := ∀ l ∈ ls, l.level = 0 → l.text = "" ∨ NoDirective l.text

namespace Layout

variable {before after ls : Layout}

theorem Outer.append (h : Outer before) (also : Outer after) : Outer (before ++ after) :=
  List.forall_mem_append.mpr ⟨h, also⟩

/-- Lines further in are not looked at. -/
theorem outer_deeper (ls : Layout) : Outer ls.deeper :=
  List.forall_mem_map.mpr fun _ _ zero => absurd zero (Nat.succ_ne_zero _)

theorem outer_lines {texts : List String} (all : ∀ text ∈ texts, NoDirective text) :
    Outer (texts.map ({ text := · })) :=
  List.forall_mem_map.mpr fun text isText _ => .inr (all text isText)

/-- Only the header of a block is: its continuation lines and what is inside it stand further in. -/
theorem outer_block {header : String} (head : NoDirective header) (constraints : List String)
    (inner : Layout) : Outer (block header constraints inner) := by
  have opening : ∀ text ∈ ["\x7b"], NoDirective text := by decide
  have closing : ∀ text ∈ ["\x7d"], NoDirective text := by decide
  have heads : Outer (heads [header]) := outer_lines fun text isText =>
    List.mem_singleton.mp (List.mem_filter.mp isText).1 ▸ head
  exact ((heads.append (outer_deeper _)).append
    ((outer_lines opening).append (outer_deeper inner))).append (outer_lines closing)

end Layout

namespace Script

/-- A script writes at least one line, and no line that is not indented starts like a directive. -/
def Declares (strict : Prop) (script : Script) : Prop :=
  ∃ ls, Forms strict script ls ∧ ls ≠ [] ∧ ls.Outer

variable {script : Script} {heads : List String}

theorem Declares.paragraph (h : Declares strict script) : Paragraph strict script := by
  obtain ⟨ls, forms, filled, -⟩ := h
  exact ⟨ls, forms, filled⟩

/-- Lines that are no directives may stand above a declaration. -/
theorem Declares.below_lines (h : Declares strict script)
    (all : ∀ line ∈ heads, FormsLine strict line) (plain : ∀ line ∈ heads, NoDirective line) :
    Declares strict (Step.lines heads ++ script) := by
  obtain ⟨ls, forms, filled, outer⟩ := h
  exact ⟨_, (forms_lines all).append forms, by simp [filled], (Layout.outer_lines plain).append outer⟩

/-- A declaration below its documentation and its attributes. -/
theorem Declares.below_head (h : Declares strict script) {docs attributes : List String}
    (documented : ∀ line ∈ docs, FormsLine strict line) (plainDocs : ∀ line ∈ docs, NoDirective line)
    (marked : ∀ line ∈ attributes, FormsLine strict line)
    (plainMarks : ∀ line ∈ attributes, NoDirective line) :
    Declares strict (Step.lines docs ++ Step.lines attributes ++ script) := by
  rw [List.append_assoc]
  exact (h.below_lines marked plainMarks).below_lines documented plainDocs

theorem declares_line {line : String} (h : FormsLine strict line) (plain : NoDirective line) :
    Declares strict [.line line] :=
  ⟨_, forms_lines (List.forall_mem_singleton.mpr h), List.cons_ne_nil _ _,
    Layout.outer_lines (List.forall_mem_singleton.mpr plain)⟩

/-- Whatever stands in a block is indented. -/
theorem Passage.declares_block (h : Passage strict script) {header : String}
    (head : FormsLine strict header) (plain : NoDirective header) {constraints : List String}
    (all : ∀ line ∈ constraints, FormsLine strict line) :
    Declares strict [.block header constraints script] := by
  obtain ⟨ls, forms⟩ := h
  exact ⟨_, forms.block head all, Layout.block_ne_nil header constraints ls,
    Layout.outer_block plain constraints ls⟩

end Script

namespace Declaration

/-- A line, further lines one level deeper, and a last one among them. -/
theorem forms_continued {head last : String} {lines : List String}
    (first : FormsLine strict head) (all : ∀ line ∈ lines, FormsLine strict line)
    (final : FormsLine strict last) :
    Script.Forms strict (.line head :: .op .increaseIndent ::
      (Step.lines lines ++ [.line last, .op .decreaseIndent]))
      ({ text := head } :: Layout.deeper ((lines ++ [last]).map ({ text := · }))) := by
  have below := Script.forms_lines
    (List.forall_mem_append.mpr ⟨all, List.forall_mem_singleton.mpr final⟩)
  have script := (Script.forms_lines (List.forall_mem_singleton.mpr first)).append below.indented
  simpa [Step.lines] using script

/-- A declaration without a body: all its lines but the first are indented. -/
theorem exists_forms_terminated {declaration : String} (h : FormsLine strict declaration)
    {clauses : List String} (all : ∀ clause ∈ clauses, FormsLine strict clause) :
    ∃ ending ls, Script.Forms strict (terminated declaration clauses)
      ({ text := declaration ++ ending } :: Layout.deeper ls) := by
  unfold terminated
  split
  · exact ⟨";", [], Script.forms_lines (List.forall_mem_singleton.mpr (h.append (by decide)))⟩
  · next last earlier reversed =>
    have same : clauses = earlier.reverse ++ [last] := by
      rw [← List.reverse_reverse clauses, reversed, List.reverse_cons]
    rw [same, List.forall_mem_append, List.forall_mem_singleton] at all
    have forms := forms_continued h all.1 (all.2.append (t := ";") (by decide))
    exact ⟨"", _, by rwa [String.append_empty]⟩

/-- A declaration without a body, with its clauses on lines further in. -/
theorem declares_terminated {declaration : String} (h : FormsLine strict declaration)
    (plain : NoDirective declaration) {clauses : List String}
    (all : ∀ clause ∈ clauses, FormsLine strict clause) :
    Script.Declares strict (terminated declaration clauses) := by
  obtain ⟨ending, ls, forms⟩ := exists_forms_terminated h all
  refine ⟨_, forms, List.cons_ne_nil _ _, List.forall_mem_cons.mpr ⟨?_, Layout.outer_deeper ls⟩⟩
  exact fun _ => .inr (plain.append ending)

end Declaration

end CSharpGen

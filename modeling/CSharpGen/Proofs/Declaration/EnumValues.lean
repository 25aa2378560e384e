import CSharpGen.Edit.Type
import CSharpGen.Proofs.Declaration.TypeParagraphs
import CSharpGen.Proofs.Text.StableSort
import CSharpGen.Proofs.Writer.Follows

/-!
# Values of enums

The block of an enum holds its values in the order of their numbers, after those that have none. A
comma and a blank line stand between two values, and nothing but the end of its line behind the last
one. The order in which values were added counts only where their numbers do not tell them apart
(`Enum.values_in_order`).
-/

namespace CSharpGen

/-! ## Order -/

namespace EnumValue

variable {a b c : EnumValue} {values sorted : List EnumValue}

/-- Values without a number come first, and the others by their numbers. -/
theorem le_iff : le a b = true ↔ ∀ m, a.number = some m → ∃ n, b.number = some n ∧ m ≤ n := by
  unfold le
  cases a.number with
  | none => simp
  | some m => cases b.number <;> simp

theorem le_trans (first : le a b = true) (second : le b c = true) : le a c = true := by
  rw [le_iff] at first second ⊢
  intro m isNumber
  obtain ⟨n, isNext, below⟩ := first m isNumber
  obtain ⟨k, isLast, alsoBelow⟩ := second n isNext
  exact ⟨k, isLast, Int.le_trans below alsoBelow⟩

theorem le_total (a b : EnumValue) : (le a b || le b a) = true := by
  unfold le
  cases a.number with
  | none => rfl
  | some m =>
    cases b.number with
    | none => rfl
    | some n => simpa using Int.le_total m n

/-- Only values with the same number, or both without one, may stand in either order. -/
theorem alike_iff : (le a b && le b a) = true ↔ b.number = a.number := by
  unfold le
  cases a.number with
  | none => cases b.number <;> simp
  | some m =>
    cases b.number with
    | none => simp
    | some n =>
      simp only [Bool.and_eq_true, decide_eq_true_eq, Option.some.injEq]
      omega

/-- The values without a number, then the others by their numbers. Values that do not differ in that
are as they were. -/
structure InOrder (values sorted : List EnumValue) : Prop where
  perm : sorted.Perm values
  unnumbered_first : sorted =
    values.filter (·.number.isNone) ++ sorted.filter (·.number.isSome)
  ascending : (sorted.filterMap EnumValue.number).Pairwise (· ≤ ·)
  alike : ∀ number : Option Int, sorted.filter (·.number == number) =
    values.filter (·.number == number)

/-- A value without a number has none with a number before it. -/
theorem unnumbered_append (ordered : sorted.Pairwise fun a b => le a b = true) :
    sorted = sorted.filter (·.number.isNone) ++ sorted.filter (·.number.isSome) := by
  induction sorted with
  | nil => rfl
  | cons v rest ih =>
    obtain ⟨below, others⟩ := List.pairwise_cons.mp ordered
    cases number : v.number with
    | none =>
      rw [List.filter_cons_of_pos (by simp [number]), List.filter_cons_of_neg (by simp [number]),
        List.cons_append, ← ih others]
    | some m =>
      have numbered : ∀ w ∈ v :: rest, w.number.isSome = true := by
        refine List.forall_mem_cons.mpr ⟨by simp [number], fun w member => ?_⟩
        obtain ⟨n, isNumber, -⟩ := le_iff.mp (below w member) m number
        simp [isNumber]
      have none : (v :: rest).filter (·.number.isNone) = [] := by
        refine List.filter_eq_nil_iff.mpr fun w member => ?_
        simp [Option.isSome_iff_ne_none.mp (numbered w member)]
      rw [none, List.filter_eq_self.mpr numbered, List.nil_append]

theorem inOrder_of_stableSort (h : StableSort le values sorted) : InOrder values sorted := by
  have alike (number : Option Int) :
      sorted.filter (·.number == number) = values.filter (·.number == number) := by
    have same := h.alike { name := "", number }
    have condition : (fun b => le { name := "", number } b && le b { name := "", number }) =
        fun b => b.number == number := by
      funext b
      rw [Bool.eq_iff_iff, alike_iff, beq_iff_eq]
    rwa [condition] at same
  have unnumbered : (fun v : EnumValue => v.number.isNone) = fun v => v.number == none := by
    funext v
    cases v.number <;> rfl
  refine ⟨h.perm, ?_, ?_, alike⟩
  · rw [unnumbered, ← alike none, ← unnumbered]
    exact unnumbered_append h.ordered
  · refine h.ordered.filterMap EnumValue.number fun a b before m isNumber n isNext => ?_
    obtain ⟨k, isNumber', below⟩ := le_iff.mp before m isNumber
    rw [isNext] at isNumber'
    cases isNumber'
    exact below

/-! ## Texts -/

/-- The lines of a value with a mark behind it. -/
def layout (v : EnumValue) (mark : String) : Layout :=
  (v.documentation.lines ++ v.attributes.sortedLines).map ({ text := · }) ++
    [{ text := v.entry ++ mark }]

/-- The text of a value without what separates it from the next one: its comment, its attributes
and its entry. -/
def text (style : Indent) (level : Nat) (v : EnumValue) : String :=
  let head := (v.documentation.lines ++ v.attributes.sortedLines).map ({ text := · })
  Layout.text style level head ++ style.levels level ++ v.entry

/-- A value is written as its comment, its attributes and its name with the mark behind it. -/
theorem lays_ended {v : EnumValue} (filled : Text.isBlankText v.name = false) {mark : String}
    (isMark : mark = "" ∨ mark = ",") {ending : Op}
    (ends : ∀ w : Writer, w.apply ending = w.appendRaw (mark ++ "\n")) :
    Script.Lays (v.script ++ [.op ending]) (v.layout mark) := by
  have head := Script.lays_lines (v.documentation.lines ++ v.attributes.sortedLines)
  have whole := head.append (lays_entry filled isMark ends)
  simpa [script, Step.lines, layout] using whole

theorem text_layout {v : EnumValue} (filled : Text.isBlankText v.name = false) {mark : String}
    (isMark : mark = "" ∨ mark = ",") (style : Indent) (level : Nat) :
    Layout.text style level (v.layout mark) = v.text style level ++ mark ++ "\n" := by
  have entry : Line.body style level { text := v.entry ++ mark } =
      style.levels level ++ (v.entry ++ mark) := by
    rw [Line.body, isBlankText_entry filled mark, v.trimEnd_entry isMark]
    rfl
  rw [layout, Layout.text_append, Layout.text_cons, Layout.text_nil, entry, text]
  simp only [String.append_assoc, String.append_empty]

end EnumValue

namespace Enum

/-- The lines of values that have a blank line between them. -/
def valuesLayout : List EnumValue → Layout
  | [] => []
  | [v] => v.layout ""
  | v :: next :: rest => v.layout "," ++ .blank :: valuesLayout (next :: rest)

/-- The text of values: nothing when there are none, else their texts with a comma, a line end and a
blank line between them, and a line end. -/
def valuesText (style : Indent) (level : Nat) (values : List EnumValue) : String :=
  if values = [] then ""
  else ",\n\n".intercalate (values.map (EnumValue.text style level)) ++ "\n"

/-- The lines above the values. -/
def opening (e : Enum) : Layout :=
  (e.documentation.lines ++ e.attributes.sortedLines).map ({ text := · }) ++
    Layout.heads [e.declaration] ++ [.opening]

variable {values : List EnumValue}

theorem stableSort_sortedValues (e : Enum) :
    StableSort EnumValue.le e.values e.sortedValues := by
  refine stableSort_mergeSort (fun a b c first second => ?_) (fun a b => ?_) e.values
  · exact EnumValue.le_trans first second
  · exact EnumValue.le_total a b

/-- The entries are written as layouts that are separated by a comma and an empty line. -/
theorem lays_entries (named : ∀ v ∈ values, Text.isBlankText v.name = false) :
    Script.Lays (entries values) (valuesLayout values) := by
  induction values with
  | nil => exact Script.lays_nil
  | cons v rest ih =>
    obtain ⟨filled, others⟩ := List.forall_mem_cons.mp named
    cases rest with
    | nil =>
      refine EnumValue.lays_ended filled (.inl rfl) fun w => ?_
      rw [String.empty_append]
      rfl
    | cons next rest =>
      have comma (w : Writer) :
          w.apply (.appendUnindentedLine ",") = w.appendRaw ("," ++ "\n") := by
        rw [Writer.apply, Writer.appendUnindentedLine_eq]
        rfl
      have first := EnumValue.lays_ended filled (.inr rfl) comma
      have lays := (first.append Script.lays_newLine).append (ih others)
      simpa [entries, valuesLayout] using lays

theorem text_valuesLayout (style : Indent) (level : Nat)
    (named : ∀ v ∈ values, Text.isBlankText v.name = false) :
    Layout.text style level (valuesLayout values) = valuesText style level values := by
  have blank : Line.body style level .blank ++ "\n" = "\n" := rfl
  induction values with
  | nil => rfl
  | cons v rest ih =>
    obtain ⟨filled, others⟩ := List.forall_mem_cons.mp named
    cases rest with
    | nil =>
      rw [valuesLayout, EnumValue.text_layout filled (.inl rfl), valuesText,
        if_neg (List.cons_ne_nil _ _), List.map_singleton, String.intercalate_singleton,
        String.append_empty]
    | cons next rest =>
      have both : ",\n\n" = "," ++ "\n" ++ "\n" := rfl
      rw [valuesLayout, Layout.text_append, EnumValue.text_layout filled (.inr rfl),
        Layout.text_cons, blank, ih others, valuesText, valuesText, if_neg (List.cons_ne_nil _ _),
        if_neg (List.cons_ne_nil _ _), List.map_cons, List.map_cons, List.map_cons,
        String.intercalate_cons_cons, both]
      simp only [String.append_assoc]

/-- The text of an enum is its head, its values between the braces and nothing else. -/
theorem body_write (e : Enum) (named : ∀ v ∈ e.values, Text.isBlankText v.name = false)
    (w : Writer) :
    let level := w.depth + w.extraIndent
    (Script.write e.script w).body = w.body ++ Layout.text w.style level e.opening ++
      valuesText w.style (level + 1) e.sortedValues ++ Layout.text w.style level [.closing] := by
  intro level
  have sorted : ∀ v ∈ e.sortedValues, Text.isBlankText v.name = false := fun v member =>
    named v ((List.mergeSort_perm _ _).mem_iff.mp member)
  have head := Script.lays_lines (e.documentation.lines ++ e.attributes.sortedLines)
  obtain ⟨n, written⟩ := (head.append ((lays_entries sorted).block e.declaration [])).result
    { writer := w }
  have whole : e.script = Step.lines (e.documentation.lines ++ e.attributes.sortedLines) ++
      [.block e.declaration [] (entries e.sortedValues)] := by
    rw [script, Step.lines, Step.lines, Step.lines, List.map_append]
  have lines : (e.documentation.lines ++ e.attributes.sortedLines).map ({ text := · }) ++
      Layout.block e.declaration [] (valuesLayout e.sortedValues) =
      e.opening ++ (valuesLayout e.sortedValues).deeper ++ [.closing] := by
    simp [Layout.block, opening, Layout.heads, Layout.deeper]
  rw [whole, Script.write, Script.run, written, lines]
  refine (Writer.body_appendRaw w _).trans ?_
  rw [Layout.text_append, Layout.text_append, Layout.text_deeper, text_valuesLayout _ _ sorted,
    ← String.append_assoc, ← String.append_assoc]

end Enum

/-! ## Added values -/

/-- The value that an edit adds. -/
def EnumEdit.added? : EnumEdit → Option EnumValue
  | .addValue name number edits =>
    some ({ EnumValue.ofName name with number }.performAll edits).value
  | _ => none

namespace Enum

/-- Edits that add values append them in the order of the edits. -/
theorem performAll_addValues (e : Enum) {edits : List EnumEdit}
    (adds : ∀ edit ∈ edits, edit.added?.isSome = true) : (e.performAll edits).value =
      { e with values := e.values ++ edits.filterMap EnumEdit.added? } := by
  induction edits generalizing e with
  | nil => rw [List.filterMap_nil, List.append_nil, performAll, Edited.each]
  | cons edit rest ih =>
    obtain ⟨first, others⟩ := List.forall_mem_cons.mp adds
    obtain ⟨v, isAdded⟩ := Option.isSome_iff_exists.mp first
    have step : (e.perform edit).value = { e with values := e.values ++ [v] } := by
      cases edit with
      | addValue name number edits =>
        cases isAdded
        rfl
      | _ => cases isAdded
    have later := ih { e with values := e.values ++ [v] } others
    rw [performAll, Edited.each, step, List.filterMap_cons, isAdded]
    rw [List.append_assoc, List.singleton_append] at later
    exact later

/-- Values with distinct numbers can be added in any order. -/
theorem sortedValues_reordered (e : Enum) {first second : List EnumValue} (same : first.Perm second)
    (distinct : (first.map EnumValue.number).Nodup) :
    sortedValues { e with values := e.values ++ first } =
      sortedValues { e with values := e.values ++ second } := by
  have reflexive (v : EnumValue) : EnumValue.le v v = true := by
    simpa using EnumValue.le_total v v
  refine (stableSort_sortedValues { e with values := e.values ++ first }).eq_of_alike reflexive
    (stableSort_sortedValues _) fun a => ?_
  -- values with the same number stand alike in both lists: at most one of them was added
  have alike : alikeTo EnumValue.le a first = alikeTo EnumValue.le a second := by
    have any (values : List EnumValue) : values.Pairwise fun _ _ => True :=
      List.pairwise_of_forall fun _ _ => trivial
    refine (same.filter _).eq_of_pairwise (fun v w isAlike alsoAlike _ _ => ?_) (any _) (any _)
    obtain ⟨isFirst, ofA⟩ := List.mem_filter.mp isAlike
    obtain ⟨isSecond, alsoOfA⟩ := List.mem_filter.mp alsoAlike
    exact List.inj_on_of_nodup_map distinct isFirst (same.mem_iff.mpr isSecond)
      ((EnumValue.alike_iff.mp ofA).trans (EnumValue.alike_iff.mp alsoOfA).symm)
  rw [alikeTo, List.filter_append, alikeTo, List.filter_append]
  exact congrArg _ alike

/-- Values with distinct numbers may be added in any order. -/
theorem script_reordered (e : Enum) {first second : List EnumValue} (same : first.Perm second)
    (distinct : (first.map EnumValue.number).Nodup) :
    script { e with values := e.values ++ first } =
      script { e with values := e.values ++ second } := by
  rw [script, script, e.sortedValues_reordered same distinct]
  rfl

/-- The block of an enum holds its values without a number as they were added, then the others by
their numbers, those with the same number as they were added. A comma, a line end and a blank line
stand behind each but the last, which has a line end behind it. Values with distinct numbers that
are added in another order give the same text. -/
theorem values_in_order (e : Enum) (named : ∀ v ∈ e.values, Text.isBlankText v.name = false) :
    EnumValue.InOrder e.values e.sortedValues ∧
    (∀ w : Writer, (Script.write e.script w).body =
      w.body ++ Layout.text w.style (w.depth + w.extraIndent) e.opening ++
        valuesText w.style (w.depth + w.extraIndent + 1) e.sortedValues ++
        Layout.text w.style (w.depth + w.extraIndent) [.closing]) ∧
    ∀ edits others : List EnumEdit, (∀ edit ∈ edits, edit.added?.isSome = true) →
      edits.Perm others → ((edits.filterMap EnumEdit.added?).map EnumValue.number).Nodup →
      (e.performAll edits).value.script = (e.performAll others).value.script := by
  refine ⟨EnumValue.inOrder_of_stableSort e.stableSort_sortedValues, e.body_write named,
    fun edits others adds same distinct => ?_⟩
  have alsoAdds : ∀ edit ∈ others, edit.added?.isSome = true := fun edit member =>
    adds edit (same.mem_iff.mpr member)
  rw [e.performAll_addValues adds, e.performAll_addValues alsoAdds]
  exact e.script_reordered (same.filterMap EnumEdit.added?) distinct

/-- Numbers of both signs and at both ends, one of them twice, and two values without one. -/
def pressure : Enum where
  name := "Pressure"
  values := [
    { name := "Highest", number := some 9223372036854775807 },
    { name := "Unknown" },
    { name := "Lowest", number := some (-9223372036854775808)
      documentation := .summary (some "No air.") [] },
    { name := "Vacuum", number := some (-9223372036854775808) },
    { name := "Other", attributes := ({} : Attributes).add "Obsolete" }]

theorem values_in_order_pressure :
    (∀ v ∈ pressure.values, Text.isBlankText v.name = false) ∧
    (Script.write pressure.script (.empty .tabs)).body =
      "enum Pressure\n\x7b\n\tUnknown,\n\n\t[Obsolete]\n\tOther,\n\n" ++
      "\t/// <summary>\n\t/// No air.\n\t/// </summary>\n\tLowest = -9223372036854775808,\n\n" ++
      "\tVacuum = -9223372036854775808,\n\n\tHighest = 9223372036854775807\n\x7d\n" ∧
    let low : EnumEdit := .addValue "Low" (some 1) []
    let lower : EnumEdit := .addValue "Lower" none [.number 0]
    (pressure.performAll [low, lower]).value.script =
      (pressure.performAll [lower, low]).value.script := by
  have named : ∀ v ∈ pressure.values, Text.isBlankText v.name = false := by decide
  have sorted : pressure.sortedValues = [1, 4, 2, 3, 0].filterMap (pressure.values[·]?) := by
    simp [sortedValues, pressure, List.mergeSort, List.merge, EnumValue.le]
  obtain ⟨-, texts, anyOrder⟩ := values_in_order pressure named
  refine ⟨named, (texts (.empty .tabs)).trans ?_, anyOrder _ _ ?_ (.swap ..) ?_⟩
  · rw [sorted]
    decide +kernel
  · decide
  · decide

end Enum

end CSharpGen

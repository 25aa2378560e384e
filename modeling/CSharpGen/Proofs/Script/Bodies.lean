import CSharpGen.Proofs.Script.Lays

/-!
# Bodies of lines, blocks and statements

A structured body is made of complete lines, blank lines, blocks and statements, and none of its
texts breaks a line. It writes a layout (`Step.exists_layoutAll`).
-/

namespace CSharpGen

mutual

/-- A line, a blank line, a block or a statement, with texts of one line. -/
def Step.Structured : Step → Prop
  | .op (.appendLine text) => Text.OneLine text
  | .op .newLine => True
  | .block header constraints body =>
    Text.OneLine header ∧ (∀ text ∈ constraints, Text.OneLine text) ∧ Step.AllStructured body
  | .statement branches => Branch.AllStructured branches
  | .switch value branches => Text.OneLine value ∧ Branch.AllStructured branches
  | _ => False

def Step.AllStructured : List Step → Prop
  | [] => True
  | step :: rest => step.Structured ∧ Step.AllStructured rest

def Branch.AllStructured : List Branch → Prop
  | [] => True
  | .mk label body :: rest =>
    Text.OneLine label ∧ Step.AllStructured body ∧ Branch.AllStructured rest

end

mutual

def Step.decideStructured : (step : Step) → Decidable step.Structured
  | .op (.appendLine text) => inferInstanceAs (Decidable (Text.OneLine text))
  | .op .newLine => .isTrue trivial
  | .op (.append _) | .op (.appendUnindented _) | .op (.appendUnindentedLine _)
  | .op .increaseIndent | .op .decreaseIndent | .op (.beginBlock _) | .op .endBlock
  | .reserve _ _ | .inside _ _ | .sections _ | .isolated _ => .isFalse id
  | .block header constraints body =>
    have := Step.decideAllStructured body
    inferInstanceAs (Decidable (Text.OneLine header ∧ (∀ text ∈ constraints, Text.OneLine text) ∧
      Step.AllStructured body))
  | .statement branches => Branch.decideAllStructured branches
  | .switch value branches =>
    have := Branch.decideAllStructured branches
    inferInstanceAs (Decidable (Text.OneLine value ∧ Branch.AllStructured branches))

def Step.decideAllStructured : (steps : List Step) → Decidable (Step.AllStructured steps)
  | [] => .isTrue trivial
  | step :: rest =>
    have := step.decideStructured
    have := Step.decideAllStructured rest
    inferInstanceAs (Decidable (step.Structured ∧ Step.AllStructured rest))

def Branch.decideAllStructured :
    (branches : List Branch) → Decidable (Branch.AllStructured branches)
  | [] => .isTrue trivial
  | .mk label body :: rest =>
    have := Step.decideAllStructured body
    have := Branch.decideAllStructured rest
    inferInstanceAs (Decidable (Text.OneLine label ∧ Step.AllStructured body ∧
      Branch.AllStructured rest))

end

instance : DecidablePred Step.AllStructured := Step.decideAllStructured

theorem Layout.oneLine_heads {texts : List String} (h : ∀ text ∈ texts, Text.OneLine text) :
    (heads texts).OneLine := by
  intro l member
  obtain ⟨text, isText, rfl⟩ := List.mem_map.mp member
  exact h text ((List.mem_filter.mp isText).1)

/-- A block holds one text on each line when its header, its constraints and what is inside it do.
-/
theorem Layout.oneLine_block {header : String} {constraints : List String} {inner : Layout}
    (h : Text.OneLine header) (all : ∀ text ∈ constraints, Text.OneLine text)
    (below : inner.OneLine) : (block header constraints inner).OneLine := by
  have braces : Text.OneLine Line.opening.text ∧ Text.OneLine Line.closing.text := by decide
  have head : (heads [header]).OneLine := oneLine_heads (by simpa using h)
  have continued : (heads constraints).deeper.OneLine := (oneLine_heads all).deeper
  rw [block, oneLine_append, oneLine_append, oneLine_append]
  refine ⟨⟨⟨head, continued⟩, ?_⟩, oneLine_singleton.mpr braces.2⟩
  exact List.forall_mem_cons.mpr ⟨braces.1, below.deeper⟩

theorem Layout.oneLine_separated {parts : List (Bool × Layout)}
    (all : ∀ part ∈ parts, part.2.OneLine) : (separated parts).OneLine :=
  forall_mem_separated (by decide) all

mutual

/-- A structured step writes the lines of a layout, and each of its texts is one line. -/
theorem Step.exists_layout : (step : Step) → step.Structured →
    ∃ ls : Layout, Run.Lays step.run ls ∧ ls.OneLine
  | .op op, h => by
    cases op with
    | appendLine text =>
      exact ⟨[{ text }], (Run.lays_line text).congr fun _ => rfl, Layout.oneLine_singleton.mpr h⟩
    | newLine =>
      exact ⟨[.blank], Run.lays_newLine.congr fun _ => rfl,
        Layout.oneLine_singleton.mpr (by decide)⟩
    | _ => exact h.elim
  | .block header constraints body, h => by
    obtain ⟨ls, lays, oneLine⟩ := Step.exists_layoutAll body h.2.2
    exact ⟨_, (lays.observed.inBlock header constraints).congr fun _ => rfl,
      Layout.oneLine_block h.1 h.2.1 oneLine⟩
  | .statement branches, h => by
    obtain ⟨ls, lays, oneLine⟩ := Branch.exists_blocks branches h
    exact ⟨ls, lays.congr fun _ => rfl, oneLine⟩
  | .switch value branches, h => by
    obtain ⟨ls, lays, oneLine⟩ := Branch.exists_cases branches h.2
    have header : Text.OneLine s!"switch ({value})" := by
      simp only [Text.oneLine_append, toString]
      exact ⟨⟨by decide, h.1⟩, by decide⟩
    exact ⟨_, (lays.inBlock s!"switch ({value})" []).congr fun _ => rfl,
      Layout.oneLine_block header (by simp) oneLine⟩
  | .reserve .., h | .inside .., h | .sections _, h | .isolated _, h => h.elim

/-- The steps of a body write their layouts one after the other. -/
theorem Step.exists_layoutAll : (steps : List Step) → Step.AllStructured steps →
    ∃ ls : Layout, Script.Lays steps ls ∧ ls.OneLine
  | [], _ => ⟨[], Script.lays_nil, Layout.oneLine_nil⟩
  | step :: rest, h => by
    obtain ⟨first, laysFirst, oneLine⟩ := step.exists_layout h.1
    obtain ⟨others, laysOthers, alsoOneLine⟩ := Step.exists_layoutAll rest h.2
    exact ⟨first ++ others, (laysFirst.comp laysOthers).congr fun _ => rfl,
      Layout.oneLine_append.mpr ⟨oneLine, alsoOneLine⟩⟩

/-- The blocks of a conditional or a loop follow each other without a blank line. -/
theorem Branch.exists_blocks : (branches : List Branch) → Branch.AllStructured branches →
    ∃ ls : Layout, Run.Lays (Branch.runBlocks branches) ls ∧ ls.OneLine
  | [], _ => ⟨[], Run.lays_id.congr fun _ => rfl, Layout.oneLine_nil⟩
  | .mk header body :: rest, h => by
    obtain ⟨inner, laysInner, oneLine⟩ := Step.exists_layoutAll body h.2.1
    obtain ⟨others, laysOthers, alsoOneLine⟩ := Branch.exists_blocks rest h.2.2
    exact ⟨_, ((laysInner.inBlock header []).comp laysOthers).congr fun _ => rfl,
      Layout.oneLine_append.mpr ⟨Layout.oneLine_block h.1 (by simp) oneLine, alsoOneLine⟩⟩

/-- The cases of a switch: each has its label, its body one level deeper and a break behind it. -/
theorem Branch.exists_cases : (branches : List Branch) → Branch.AllStructured branches →
    ∃ ls : Layout, Run.Lays (Branch.runCases branches) ls ∧ ls.OneLine
  | [], _ => ⟨[], Run.lays_id.congr fun _ => rfl, Layout.oneLine_nil⟩
  | .mk label body :: rest, h => by
    obtain ⟨inner, laysInner, oneLine⟩ := Step.exists_layoutAll body h.2.1
    obtain ⟨others, laysOthers, alsoOneLine⟩ := Branch.exists_cases rest h.2.2
    have below : Layout.OneLine (inner ++ [{ text := "break;" }]) :=
      Layout.oneLine_append.mpr ⟨oneLine, Layout.oneLine_singleton.mpr (by decide)⟩
    exact ⟨_, ((laysInner.inCase label).comp laysOthers).congr fun _ => rfl,
      Layout.oneLine_append.mpr ⟨List.forall_mem_cons.mpr ⟨h.1, below.deeper⟩, alsoOneLine⟩⟩

end

end CSharpGen

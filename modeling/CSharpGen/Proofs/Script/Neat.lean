import CSharpGen.Proofs.Script.Lays
import Mathlib.Data.List.Chain

/-!
# Blank lines in layouts

A layout is neat when its blank lines separate: there is one at a time, none at its start or its
end, none after an opening brace and none before a closing one. Neat layouts compose, with or
without a blank line between them, and so do blocks around them.
-/

namespace CSharpGen

namespace Text

/-- Whether one line may come right after another. -/
structure MayFollow (first second : String) : Prop where
  single : isBlankText first = true → isBlankText second = false
  afterOpening : trim first = "\x7b" → isBlankText second = false
  beforeClosing : trim second = "\x7d" → isBlankText first = false

theorem mayFollow_of_filled {first second : String} (filled : isBlankText first = false)
    (alsoFilled : isBlankText second = false) : MayFollow first second :=
  ⟨fun _ => alsoFilled, fun _ => alsoFilled, fun _ => filled⟩

theorem mayFollow_congr {first second first' second' : String} (same : trim first' = trim first)
    (alsoSame : trim second' = trim second) (h : MayFollow first second) :
    MayFollow first' second' := by
  have blank := isBlankText_eq_trim same
  have alsoBlank := isBlankText_eq_trim alsoSame
  exact ⟨fun b => alsoBlank.trans (h.single (blank ▸ b)),
    fun o => alsoBlank.trans (h.afterOpening (same ▸ o)),
    fun c => blank.trans (h.beforeClosing (alsoSame ▸ c))⟩

/-- The blank lines of a text separate: the text is empty or ends with exactly one line feed, it
does not start with a blank line, and of its blank lines no two are adjacent, none follows a line of
an opening brace and none precedes a line of a closing brace. -/
structure BlankLinesTidy (s : String) : Prop where
  ending : s = "" ∨ ∃ before last, s.toList = before ++ [last, '\n'] ∧ last ≠ '\n'
  start : ∀ line ∈ (lines s).head?, isBlankText line = false
  between : (lines s).IsChain MayFollow

end Text

namespace Layout

structure Neat (ls : Layout) : Prop where
  chain : ls.IsChain fun l m => Text.MayFollow l.text m.text
  first : ∀ l ∈ ls.head?, Text.isBlankText l.text = false ∧ Text.trim l.text ≠ "\x7d"
  last : ∀ l ∈ ls.getLast?, Text.isBlankText l.text = false ∧ Text.trim l.text ≠ "\x7b"

variable {ls before after : Layout}

theorem neat_nil : Neat [] := ⟨.nil, by simp, by simp⟩

theorem neat_of_solid (solid : ∀ l ∈ ls, Text.Solid l.text) : Neat ls where
  chain := by
    induction ls with
    | nil => exact .nil
    | cons l rest ih =>
      obtain ⟨first, others⟩ := List.forall_mem_cons.mp solid
      refine (ih others).cons fun next isNext => Text.mayFollow_of_filled first.not_blank ?_
      exact (others next (List.mem_of_mem_head? isNext)).not_blank
  first l isFirst :=
    have h := solid l (List.mem_of_mem_head? isFirst)
    ⟨h.not_blank, h.trim_ne.2⟩
  last l isLast :=
    have h := solid l (List.mem_of_mem_getLast? isLast)
    ⟨h.not_blank, h.trim_ne.1⟩

theorem Neat.append (h : Neat before) (alsoNeat : Neat after) : Neat (before ++ after) where
  chain := h.chain.append alsoNeat.chain fun l isLast m isFirst =>
    Text.mayFollow_of_filled (h.last l isLast).1 (alsoNeat.first m isFirst).1
  first l isFirst := by
    rw [List.head?_append, Option.mem_def, Option.or_eq_some_iff] at isFirst
    exact isFirst.elim (h.first l) fun ⟨_, isFirst⟩ => alsoNeat.first l isFirst
  last l isLast := by
    rw [List.getLast?_append, Option.mem_def, Option.or_eq_some_iff] at isLast
    exact isLast.elim (alsoNeat.last l) fun ⟨_, isLast⟩ => h.last l isLast

/-- Two layouts with a blank line between them. -/
theorem Neat.appendBlank (h : Neat before) (filled : before ≠ []) (alsoNeat : Neat after)
    (alsoFilled : after ≠ []) : Neat (before ++ .blank :: after) where
  chain := by
    have blank : Text.isBlankText Line.blank.text = true := by decide
    refine h.chain.append (alsoNeat.chain.cons fun m isFirst => ?_) fun l isLast m isFirst => ?_
    · obtain ⟨solid, noBrace⟩ := alsoNeat.first m isFirst
      exact ⟨fun _ => solid, fun _ => solid, fun closing => absurd closing noBrace⟩
    · obtain rfl : Line.blank = m := Option.some.inj isFirst
      obtain ⟨solid, noBrace⟩ := h.last l isLast
      exact ⟨fun b => absurd (solid.symm.trans b) (by decide), fun o => absurd o noBrace,
        fun _ => solid⟩
  first l isFirst := by
    rw [List.head?_append_of_ne_nil _ filled] at isFirst
    exact h.first l isFirst
  last l isLast := by
    rw [List.getLast?_append_of_ne_nil _ (by simp), List.getLast?_cons_of_ne_nil alsoFilled] at isLast
    exact alsoNeat.last l isLast

theorem Neat.deeper (h : Neat ls) : Neat ls.deeper where
  chain := List.isChain_map_of_isChain Line.deeper (fun _ _ follows => follows) h.chain
  first l isFirst := by
    rw [Layout.deeper, List.head?_map] at isFirst
    obtain ⟨inner, isInner, rfl⟩ := Option.map_eq_some_iff.mp isFirst
    exact h.first inner isInner
  last l isLast := by
    rw [Layout.deeper, List.getLast?_map] at isLast
    obtain ⟨inner, isInner, rfl⟩ := Option.map_eq_some_iff.mp isLast
    exact h.last inner isInner

/-! ## Blocks -/

theorem mem_heads {texts : List String} {l : Line} (member : l ∈ heads texts) : l.text ∈ texts := by
  obtain ⟨text, isText, rfl⟩ := List.mem_map.mp member
  exact (List.mem_filter.mp isText).1

theorem neat_heads {texts : List String} (solid : ∀ text ∈ texts, Text.Solid text) :
    Neat (heads texts) := neat_of_solid fun _ member => solid _ (mem_heads member)

/-- Lines in braces. -/
theorem Neat.braces (h : Neat ls) :
    Neat (Line.opening :: (ls.deeper ++ [.closing])) where
  chain := by
    have brace : Text.isBlankText Line.opening.text = false ∧
        Text.isBlankText Line.closing.text = false := by decide
    have inner := h.deeper
    have closed : (ls.deeper ++ [Line.closing]).IsChain
        fun l m => Text.MayFollow l.text m.text := by
      refine inner.chain.append (.singleton _) fun l isLast m isFirst => ?_
      obtain rfl : Line.closing = m := Option.some.inj isFirst
      exact Text.mayFollow_of_filled (inner.last l isLast).1 brace.2
    refine closed.cons fun m isFirst => Text.mayFollow_of_filled brace.1 ?_
    rw [List.head?_append, Option.mem_def, Option.or_eq_some_iff] at isFirst
    rcases isFirst with isFirst | ⟨-, isFirst⟩
    · exact (inner.first m isFirst).1
    · obtain rfl : Line.closing = m := Option.some.inj isFirst
      exact brace.2
  first l isFirst := by
    obtain rfl : Line.opening = l := Option.some.inj isFirst
    decide
  last l isLast := by
    rw [List.getLast?_cons_of_ne_nil (by simp), List.getLast?_concat] at isLast
    obtain rfl : Line.closing = l := Option.some.inj isLast
    decide

/-- A block around a neat layout is neat. -/
theorem Neat.block (h : Neat ls) {header : String} (solid : Text.Solid header)
    {constraints : List String} (alsoSolid : ∀ c ∈ constraints, Text.Solid c) :
    Neat (block header constraints ls) := by
  have head : Neat (heads [header] ++ (heads constraints).deeper) :=
    (neat_heads (by simpa using solid)).append (neat_heads alsoSolid).deeper
  rw [Layout.block, List.append_assoc]
  exact head.append h.braces

theorem block_ne_nil (header : String) (constraints : List String) (inner : Layout) :
    block header constraints inner ≠ [] := by
  simp [block]

/-! ## Groups -/

/-- Neat layouts after one that has lines, some with a blank line before them. -/
theorem Neat.append_separated (h : Neat ls) (filled : ls ≠ []) (parts : List (Bool × Layout))
    (all : ∀ part ∈ parts, Neat part.2 ∧ part.2 ≠ []) : Neat (ls ++ separated parts) := by
  induction parts generalizing ls with
  | nil => simpa [separated] using h
  | cons part rest ih =>
    obtain ⟨⟨neat, full⟩, others⟩ := List.forall_mem_cons.mp all
    obtain ⟨gap, part⟩ := part
    have unfolded : ls ++ separated ((gap, part) :: rest) =
        (ls ++ if gap then .blank :: part else part) ++ separated rest := by
      rw [separated, List.flatMap_cons, List.append_assoc]
      rfl
    rw [unfolded]
    cases gap with
    | false => exact ih (h.append neat) (by simp [filled]) others
    | true => exact ih (h.appendBlank filled neat full) (by simp) others

/-- The first item of all groups has no blank line before it. -/
theorem head_marked {α : Type} (groups : List (Spacing × List α)) :
    ∀ part ∈ (Sections.marked false groups).head?, part.1 = false := by
  induction groups with
  | nil => simp [Sections.marked]
  | cons group rest ih =>
    obtain ⟨spacing, items⟩ := group
    cases items with
    | nil => exact ih
    | cons item items => simp [Sections.marked, Sections.markedItems, Sections.separates]

/-- Groups of neat items, with the blank lines between them, are neat. -/
theorem neat_ofGroups {groups : List (Spacing × List Layout)}
    (all : ∀ group ∈ groups, ∀ item ∈ group.2, Neat item ∧ item ≠ []) :
    Neat (ofGroups groups) := by
  have items := Sections.forall_mem_marked all false
  have start := head_marked groups
  rw [ofGroups]
  cases parts : Sections.marked false groups with
  | nil => exact neat_nil
  | cons part rest =>
    rw [parts] at items start
    obtain ⟨⟨neat, full⟩, others⟩ := List.forall_mem_cons.mp items
    obtain ⟨gap, part⟩ := part
    obtain rfl : gap = false := start _ rfl
    exact neat.append_separated full rest others

/-! ## Texts -/

/-- A neat layout is written with its blank lines in order. -/
theorem Neat.blankLinesTidy (h : Neat ls) (oneLine : ls.OneLine) (style : Indent) (base : Nat) :
    Text.BlankLinesTidy (text style base ls) where
  ending := by
    rcases List.eq_nil_or_concat ls with rfl | ⟨before, l, rfl⟩
    · exact .inl rfl
    · rw [List.concat_eq_append] at h oneLine ⊢
      have solid := (h.last l (by simp)).1
      have full : (l.body style base).toList ≠ [] := by
        intro empty
        rw [Line.body_eq_empty_iff.mp (by simpa using empty)] at solid
        cases solid
      have lastIn := List.getLast_mem full
      refine .inr ⟨(text style base before).toList ++ (l.body style base).toList.dropLast,
        (l.body style base).toList.getLast full, ?_, fun same => ?_⟩
      · calc (text style base (before ++ [l])).toList
            = (text style base before).toList ++ ((l.body style base).toList ++ ['\n']) := by
              rw [text_append, text_cons, text_nil, String.append_empty, String.toList_append,
                String.toList_append]
              rfl
          _ = _ := by
              conv => lhs; rw [← List.dropLast_append_getLast full]
              simp
      · rw [same] at lastIn
        exact Line.oneLine_body style base (oneLine l (by simp)) lastIn
  start line isFirst := by
    rw [lines_text oneLine, List.head?_map] at isFirst
    obtain ⟨l, isHead, rfl⟩ := Option.map_eq_some_iff.mp isFirst
    exact (l.isBlankText_body style base).trans (h.first l isHead).1
  between := by
    rw [lines_text oneLine]
    refine List.isChain_map_of_isChain _ (fun l m follows => ?_) h.chain
    exact Text.mayFollow_congr (l.trim_body style base) (m.trim_body style base) follows

end Layout

end CSharpGen

import Mathlib.Data.List.DropRight
import CSharpGen.Proofs.Text.Braces

/-!
# Texts of one line

A text without a line feed stays on its line wherever it is written. A text with a character that is
neither blank nor a brace makes its line neither blank nor the line of a brace.
-/

namespace CSharpGen.Text

/-! ## Trimming -/

/-- A text is blank when each of its characters is. -/
theorem isBlankText_iff {s : String} : isBlankText s = true ↔ ∀ c ∈ s.toList, isBlank c := by
  rw [← nonBlank?_eq_none_iff, isBlankText, nonBlank?]
  split <;> simp [*]

theorem isBlankText_eq_trim {s t : String} (same : trim s = trim t) :
    isBlankText s = isBlankText t := by
  rw [isBlankText, isBlankText, same]

/-- The tail that is dropped reaches into the first part only when it covers the second. -/
theorem dropTailWhile_append {p : Char → Bool} (cs ds : List Char) :
    dropTailWhile p (cs ++ ds) =
      if dropTailWhile p ds = [] then dropTailWhile p cs else cs ++ dropTailWhile p ds := by
  simp only [dropTailWhile, List.reverse_append, List.dropWhile_append, List.isEmpty_iff,
    List.reverse_eq_nil_iff]
  split <;> simp

/-- Dropping the tail of a text drops all of it or keeps it up to a character outside the class. -/
theorem dropTailWhile_idem {p : Char → Bool} (cs : List Char) :
    dropTailWhile p (dropTailWhile p cs) = dropTailWhile p cs := by
  rw [dropTailWhile, dropTailWhile, List.reverse_reverse, List.dropWhile_idempotent]

/-- Head and tail are dropped in either order. -/
theorem dropWhile_dropTailWhile {p : Char → Bool} (cs : List Char) :
    (dropTailWhile p cs).dropWhile p = dropTailWhile p (cs.dropWhile p) := by
  induction cs with
  | nil => rfl
  | cons c cs ih =>
    have split : dropTailWhile p (c :: cs) =
        if dropTailWhile p cs = [] then dropTailWhile p [c] else c :: dropTailWhile p cs :=
      dropTailWhile_append [c] cs
    by_cases dropped : p c
    · have alone : dropTailWhile p [c] = [] := by simp [dropTailWhile, dropped]
      rw [split, List.dropWhile_cons_of_pos dropped, ← ih, alone]
      by_cases none : dropTailWhile p cs = []
      · rw [if_pos none, none]
      · rw [if_neg none, List.dropWhile_cons_of_pos dropped]
    · have alone : dropTailWhile p [c] = [c] := by simp [dropTailWhile, dropped]
      rw [split, List.dropWhile_cons_of_neg dropped, split, alone]
      by_cases none : dropTailWhile p cs = []
      · rw [if_pos none, List.dropWhile_cons_of_neg dropped]
      · rw [if_neg none, List.dropWhile_cons_of_neg dropped]

theorem trimEnd_idem (s : String) : trimEnd (trimEnd s) = trimEnd s := by
  simp [trimEnd, dropTailWhile_idem]

theorem trimEnd_trim (s : String) : trimEnd (trim s) = trim s := by
  simp [trimEnd, trim, dropTailWhile_idem]

theorem trim_idem (s : String) : trim (trim s) = trim s := by
  rw [trim, trim, String.toList_ofList, dropWhile_dropTailWhile, List.dropWhile_idempotent,
    dropTailWhile_idem]

/-- Trimming the end of a text stops at a part that is not blank. -/
theorem trimEnd_append (s : String) {t : String} (solid : isBlankText t = false) :
    trimEnd (s ++ t) = s ++ trimEnd t := by
  have left : ¬dropTailWhile isBlank t.toList = [] := by
    rw [dropTailWhile_eq_nil_iff, ← isBlankText_iff, solid]
    exact Bool.false_ne_true
  rw [trimEnd, String.toList_append, dropTailWhile_append, if_neg left, trimEnd,
    String.ofList_append, String.ofList_toList]

theorem trimEnd_of_last {s : String} {c : Char} (last : s.toList.getLast? = some c)
    (solid : isBlank c = false) : trimEnd s = s := by
  obtain ⟨before, split⟩ := List.getLast?_eq_some_iff.mp last
  rw [trimEnd, dropTailWhile, split, List.reverse_append, List.reverse_singleton,
    List.singleton_append, List.dropWhile_cons_of_neg (by simp [solid]), List.reverse_cons,
    List.reverse_reverse, ← split, String.ofList_toList]

/-- The text ends with a character that is not blank. -/
def EndsSolid (s : String) : Prop := ∃ c, s.toList.getLast? = some c ∧ isBlank c = false

/-- The last text that has something solid at its end decides. -/
theorem endsSolid_append (s : String) {t : String} (h : EndsSolid t) : EndsSolid (s ++ t) := by
  obtain ⟨c, last, solid⟩ := h
  exact ⟨c, by rw [String.toList_append, List.getLast?_append, last, Option.some_or], solid⟩

/-- A text with something solid at its end is trimmed there. -/
theorem EndsSolid.trimEnd_eq {s : String} (h : EndsSolid s) : trimEnd s = s := by
  obtain ⟨c, last, solid⟩ := h
  exact trimEnd_of_last last solid

theorem EndsSolid.not_blank {s : String} (h : EndsSolid s) : isBlankText s = false := by
  obtain ⟨c, last, solid⟩ := h
  rw [Bool.eq_false_iff, Ne, isBlankText_iff]
  intro blank
  exact Bool.false_ne_true (solid.symm.trans (blank c (List.mem_of_getLast? last)))

/-- Neither indenting a text nor trimming its end changes what is left of it on both sides. -/
theorem trim_indented (indent : String) (blank : ∀ c ∈ indent.toList, isBlank c) (s : String) :
    trim (indent ++ trimEnd s) = trim s := by
  rw [trim, trim, trimEnd, String.toList_append, String.toList_ofList,
    List.dropWhile_append_of_pos blank, dropWhile_dropTailWhile, dropTailWhile_idem]

theorem isBlankText_trimEnd (s : String) : isBlankText (trimEnd s) = isBlankText s :=
  isBlankText_eq_trim (by simpa using trim_indented "" (by simp) s)

theorem isBlankText_append {s : String} (filled : isBlankText s = false) (t : String) :
    isBlankText (s ++ t) = false := by
  rw [Bool.eq_false_iff, Ne, isBlankText_iff] at filled ⊢
  intro blank
  exact filled fun c member => blank c (by simp [member])

theorem trimEnd_subset (s : String) : (trimEnd s).toList ⊆ s.toList := by
  rw [trimEnd, String.toList_ofList]
  exact fun _ => mem_of_mem_dropTailWhile

theorem trim_subset (s : String) : (trim s).toList ⊆ s.toList := by
  rw [trim, String.toList_ofList]
  exact fun _ member => (List.dropWhile_sublist isBlank).subset (mem_of_mem_dropTailWhile member)

/-- What is left of a text that is not blank is the trimmed text. -/
theorem nonBlank?_eq_some {s t : String} (h : nonBlank? s = some t) :
    t = trim s ∧ isBlankText s = false := by
  unfold nonBlank? at h
  split at h
  · cases h
  · next filled => exact ⟨(Option.some.inj h).symm, Bool.eq_false_iff.mpr filled⟩

/-- A text that is trimmed and not blank is left as it is. -/
theorem nonBlank?_self {s t : String} (h : nonBlank? s = some t) : nonBlank? t = some t := by
  obtain ⟨rfl, filled⟩ := nonBlank?_eq_some h
  rw [nonBlank?, trim_idem]
  exact if_neg (Bool.eq_false_iff.mp filled)

/-! ## One line -/

/-- A text without a line feed. -/
def OneLine (s : String) : Prop := '\n' ∉ s.toList

instance : DecidablePred OneLine := fun s => inferInstanceAs (Decidable ('\n' ∉ s.toList))

/-- A text has no line feed exactly when its parts have none. -/
theorem oneLine_append {s t : String} : OneLine (s ++ t) ↔ OneLine s ∧ OneLine t := by
  simp [OneLine]

theorem OneLine.of_subset {s t : String} (h : OneLine t) (within : s.toList ⊆ t.toList) :
    OneLine s := fun member => h (within member)

theorem OneLine.trim {s : String} (h : OneLine s) : OneLine (trim s) := h.of_subset (trim_subset s)

theorem OneLine.trimEnd {s : String} (h : OneLine s) : OneLine (trimEnd s) :=
  h.of_subset (trimEnd_subset s)

/-- Parts of one line with a separator of one line between them are one line. -/
theorem OneLine.intercalate {separator : String} (h : OneLine separator) {parts : List String}
    (all : ∀ part ∈ parts, OneLine part) : OneLine (separator.intercalate parts) := by
  induction parts with
  | nil => simp [OneLine]
  | cons part rest ih =>
    obtain ⟨first, others⟩ := List.forall_mem_cons.mp all
    cases rest with
    | nil => simpa using first
    | cons next rest =>
      rw [String.intercalate_cons_cons, oneLine_append, oneLine_append]
      exact ⟨⟨first, h⟩, ih others⟩

/-! ## Lines -/

/-- A line of a text has no line feed. -/
theorem oneLine_of_mem_lines {s line : String} (member : line ∈ lines s) : OneLine line := by
  obtain ⟨chars, isLine, rfl⟩ := List.mem_map.mp member
  rw [OneLine, String.toList_ofList]
  clear member
  generalize s.toList = cs at isLine
  fun_induction lineChars cs generalizing chars with
  | case1 => cases isLine
  | case2 rest ih =>
    rcases List.mem_cons.mp isLine with rfl | isLine
    · exact List.not_mem_nil
    · exact ih chars isLine
  | case3 rest ih =>
    rcases List.mem_cons.mp isLine with rfl | isLine
    · exact List.not_mem_nil
    · exact ih chars isLine
  | case4 c rest notEnd =>
    obtain rfl := List.mem_singleton.mp isLine
    intro member
    exact notEnd (List.mem_singleton.mp member).symm
  | case5 c rest notEnd _ first others eq ih =>
    rcases List.mem_cons.mp isLine with rfl | isLine
    · intro member
      rcases List.mem_cons.mp member with same | member
      · exact notEnd same.symm
      · exact ih first (by simp [eq]) member
    · exact ih chars (by simp [eq, isLine])

/-- A text without a line feed is at most one line. -/
theorem OneLine.lines_length {s : String} (h : OneLine s) : (lines s).length ≤ 1 := by
  rw [lines, List.length_map]
  unfold OneLine at h
  generalize s.toList = cs at h
  fun_induction lineChars cs with
  | case1 => exact Nat.zero_le 1
  | case2 => exact absurd List.mem_cons_self h
  | case3 => exact absurd (List.mem_cons_of_mem _ List.mem_cons_self) h
  | case4 => exact Nat.le_refl 1
  | case5 c rest _ _ first others eq ih =>
    have bound := ih fun member => h (List.mem_cons_of_mem c member)
    rw [eq] at bound
    exact bound

/-- A text without a line feed has nothing after its first line. -/
theorem OneLine.tail_lines {s : String} (one : OneLine s) : (lines s).tail = [] := by
  have single := one.lines_length
  rw [← List.length_eq_zero_iff, List.length_tail]
  omega

/-- A text of at most one line has none of its line ends left when it is trimmed. -/
theorem oneLine_trim_of_lines {s : String} (single : (lines s).length ≤ 1) : OneLine (trim s) := by
  rw [lines, List.length_map] at single
  have shape : ∃ line ending, s.toList = line ++ ending ∧ '\n' ∉ line ∧
      ∀ c ∈ ending, isBlank c := by
    generalize s.toList = cs at single
    fun_induction lineChars cs with
    | case1 => exact ⟨[], [], rfl, List.not_mem_nil, by simp⟩
    | case2 rest =>
      have none : rest = [] :=
        lineChars_eq_nil_iff.mp (List.length_eq_zero_iff.mp (by simpa using single))
      exact ⟨[], ['\n'], by rw [none]; rfl, List.not_mem_nil,
        List.forall_mem_singleton.mpr (by decide)⟩
    | case3 rest =>
      have none : rest = [] :=
        lineChars_eq_nil_iff.mp (List.length_eq_zero_iff.mp (by simpa using single))
      exact ⟨[], ['\r', '\n'], by rw [none]; rfl, List.not_mem_nil,
        List.forall_mem_cons.mpr ⟨by decide, List.forall_mem_singleton.mpr (by decide)⟩⟩
    | case4 c rest notEnd _ none =>
      rw [lineChars_eq_nil_iff.mp none]
      exact ⟨[c], [], rfl, by simpa using fun same => notEnd same.symm, by simp⟩
    | case5 c rest notEnd _ first others eq ih =>
      rw [eq] at ih
      obtain ⟨line, ending, rfl, inLine, blank⟩ := ih single
      refine ⟨c :: line, ending, rfl, ?_, blank⟩
      exact fun member => (List.mem_cons.mp member).elim (fun same => notEnd same.symm) inLine
  obtain ⟨line, ending, split, inLine, blank⟩ := shape
  have none : dropTailWhile isBlank ending = [] := dropTailWhile_eq_nil_iff.mpr blank
  rw [OneLine, trim, String.toList_ofList, ← dropWhile_dropTailWhile, split, dropTailWhile_append,
    if_pos none]
  exact fun member =>
    inLine (mem_of_mem_dropTailWhile ((List.dropWhile_sublist isBlank).subset member))

/-- A finished line: it has no line feed and does not end with a carriage return. -/
theorem lines_finished {s : String} (one : OneLine s) (last : s.toList.getLast? ≠ some '\r') :
    lines (s ++ "\n") = [s] := by
  have chars : lineChars (s.toList ++ ['\n']) = [s.toList] := by
    unfold OneLine at one
    generalize s.toList = cs at one last
    induction cs with
    | nil => rfl
    | cons c cs ih =>
      obtain ⟨notEnd, others⟩ := not_or.mp (fun member => one (List.mem_cons.mpr member))
      have noReturn : ∀ tail, c = '\r' → cs ++ ['\n'] = '\n' :: tail → False := by
        rintro tail rfl next
        cases cs with
        | nil => exact last rfl
        | cons d ds => exact others (List.mem_cons.mpr (.inl (List.cons.inj next).1.symm))
      have rest : cs.getLast? ≠ some '\r' := by
        cases cs with
        | nil => simp
        | cons d ds => simpa using last
      rw [List.cons_append, lineChars.eq_4 _ _ (Ne.symm notEnd) noReturn, ih others rest]
  rw [lines, String.toList_append]
  exact (congrArg (List.map String.ofList) chars).trans (by simp)

/-! ## Solid texts -/

/-- A text with a character that is neither blank nor a brace. -/
def Solid (s : String) : Prop := ∃ c ∈ s.toList, isBlank c = false ∧ c ≠ '\x7b' ∧ c ≠ '\x7d'

instance : DecidablePred Solid := fun s =>
  List.decidableBEx (fun c => isBlank c = false ∧ c ≠ '\x7b' ∧ c ≠ '\x7d') s.toList

/-- One solid part makes the whole solid. -/
theorem solid_append {s t : String} : Solid (s ++ t) ↔ Solid s ∨ Solid t := by
  simp only [Solid, String.toList_append, List.mem_append, or_and_right, exists_or]

/-- A text without braces is solid unless it is blank. -/
theorem solid_of_braceFree {s : String} (free : BraceFree s) (filled : isBlankText s = false) :
    Solid s := by
  have : ¬∀ c ∈ s.toList, isBlank c := by simp [← isBlankText_iff, filled]
  obtain ⟨c, member, solid⟩ : ∃ c ∈ s.toList, ¬isBlank c := by simpa using this
  exact ⟨c, member, Bool.eq_false_iff.mpr solid, free c member⟩

/-- A solid character survives trimming. -/
theorem mem_trim {s : String} {c : Char} (member : c ∈ s.toList) (solid : isBlank c = false) :
    c ∈ (trim s).toList := by
  have stays {cs : List Char} (member : c ∈ cs) : c ∈ cs.dropWhile isBlank := by
    rw [← List.takeWhile_append_dropWhile (p := isBlank) (l := cs), List.mem_append] at member
    refine member.resolve_left fun dropped => ?_
    have blank := List.all_eq_true.mp List.all_takeWhile c dropped
    rw [solid] at blank
    cases blank
  rw [trim, String.toList_ofList, dropTailWhile, List.mem_reverse]
  exact stays (List.mem_reverse.mpr (stays member))

theorem solid_intercalate (separator : String) {parts : List String} {part : String}
    (member : part ∈ parts) (solid : Solid part) : Solid (separator.intercalate parts) := by
  induction parts with
  | nil => cases member
  | cons first rest ih =>
    cases rest with
    | nil =>
      obtain rfl := List.mem_singleton.mp member
      simpa using solid
    | cons next rest =>
      rw [String.intercalate_cons_cons, solid_append, solid_append]
      rcases List.mem_cons.mp member with rfl | member
      · exact .inl (.inl solid)
      · exact .inr (ih member)

theorem Solid.trim {s : String} (h : Solid s) : Solid (trim s) := by
  obtain ⟨c, member, solid, noBrace⟩ := h
  exact ⟨c, mem_trim member solid, solid, noBrace⟩

theorem Solid.trimEnd {s : String} (h : Solid s) : Solid (trimEnd s) := by
  obtain ⟨c, member, solid, noBrace⟩ := h
  have kept := mem_trim member solid
  rw [Text.trim, String.toList_ofList, ← dropWhile_dropTailWhile] at kept
  refine ⟨c, ?_, solid, noBrace⟩
  rw [Text.trimEnd, String.toList_ofList]
  exact (List.dropWhile_sublist isBlank).subset kept

theorem Solid.not_blank {s : String} (h : Solid s) : isBlankText s = false := by
  obtain ⟨c, member, solid, -⟩ := h
  rw [Bool.eq_false_iff, Ne, isBlankText_iff]
  intro blank
  rw [blank c member] at solid
  cases solid

/-- A solid text is not mistaken for a brace. -/
theorem Solid.trim_ne {s : String} (h : Solid s) :
    Text.trim s ≠ "\x7b" ∧ Text.trim s ≠ "\x7d" := by
  obtain ⟨c, member, -, noBrace⟩ := h.trim
  constructor
  · intro same
    exact noBrace.1 (by simpa [same] using member)
  · intro same
    exact noBrace.2 (by simpa [same] using member)

end CSharpGen.Text

import CSharpGen.Proofs.File.Head

/-!
# Directives of a file

Below the head of a file no line that is not indented starts like an import or a pragma, so the
imports and the pragmas of an orderly file are those of its head (`File.lines_directives`).
-/

namespace CSharpGen

open Text (NoDirective)
open Wording (allMeet_append allMeet_of_orderly)

/-! ## Lines that start like a directive -/

namespace Text

variable {p : String → Bool}

theorem filter_intercalate (none : p "" = false) (groups : List (List String)) :
    ([""].intercalate groups).filter p = groups.flatMap (·.filter p) := by
  cases groups with
  | nil => rfl
  | cons first rest =>
    rw [intercalate_cons, List.filter_append, List.filter_flatMap, List.flatMap_cons]
    simp only [List.filter_cons, none, Bool.false_eq_true, if_false]

/-- A filter that drops empty lines leaves what it keeps of the groups. -/
theorem filter_spaced (none : p "" = false) (groups : List (List String)) :
    (spaced groups).filter p = groups.flatMap (·.filter p) := by
  rw [spaced, filter_intercalate none]
  induction groups with
  | nil => rfl
  | cons lines rest ih =>
    rw [List.flatMap_cons, ← ih]
    cases lines <;> rfl

/-- The start of an import or of a pragma. -/
def IsDirective (start : String) : Prop := start = "using " ∨ start = "#pragma "

variable {start s : String}

/-- A line that is no directive does not start as one. -/
theorem NoDirective.startsWith_eq (h : NoDirective s) (directive : IsDirective start) :
    startsWith start s = false := by
  rcases directive with rfl | rfl
  · exact h.1.1
  · exact h.2.1

theorem filter_directive (directive : IsDirective start) {lines : List String}
    (plain : ∀ line ∈ lines, NoDirective line) : lines.filter (startsWith start) = [] :=
  List.filter_eq_nil_iff.mpr fun line isLine =>
    Bool.eq_false_iff.mp ((plain line isLine).startsWith_eq directive)

theorem IsDirective.startsWith_trimEnd (directive : IsDirective start) (h : NoDirective s) :
    startsWith start (trimEnd s) = false := by
  have within : (trimEnd s).toList <+: s.toList := by
    rw [trimEnd, String.toList_ofList, dropTailWhile]
    simpa using List.reverse_prefix.mpr (List.dropWhile_suffix isBlank (l := s.toList.reverse))
  rw [Bool.eq_false_iff, Ne, startsWith_iff]
  exact fun starts => Bool.eq_false_iff.mp (h.startsWith_eq directive)
    (startsWith_iff.mpr (starts.trans within))

end Text

open Text (IsDirective)

/-- An indented line is no directive, whatever it says. -/
theorem Indent.not_startsWith_levels {start : String} (directive : IsDirective start)
    (style : Indent) (n : Nat) (s : String) :
    Text.startsWith start (style.levels (n + 1) ++ s) = false := by
  have avoids : Text.Avoids start style.unit := by
    rcases directive with rfl | rfl <;> cases style <;> decide
  rw [levels, String.append_assoc]
  exact (avoids.append _).1

theorem Text.IsDirective.not_startsWith_empty {start : String} (directive : IsDirective start) :
    startsWith start "" = false := by
  rcases directive with rfl | rfl <;> decide

/-- Only lines without indentation have to be looked at. -/
theorem Line.not_startsWith_body {start : String} (directive : IsDirective start) (style : Indent)
    {l : Line} (outer : l.level = 0 → l.text = "" ∨ NoDirective l.text) :
    Text.startsWith start (l.body style 0) = false := by
  unfold body
  split
  · exact directive.not_startsWith_empty
  · next filled =>
    obtain ⟨level, text⟩ := l
    cases level with
    | zero =>
      have plain := (outer rfl).resolve_left fun none => filled (by rw [none]; decide)
      rw [Nat.add_zero, Indent.levels, String.empty_append]
      exact directive.startsWith_trimEnd plain
    | succ level =>
      rw [Nat.zero_add]
      exact style.not_startsWith_levels directive level _

namespace Layout

theorem outer_separated {parts : List (Bool × Layout)} (all : ∀ part ∈ parts, part.2.Outer) :
    (separated parts).Outer := forall_mem_separated (fun _ => .inl rfl) all

end Layout

/-! ## The lines of a file -/

namespace File

variable {f : File} {p : Preamble}

/-- The imports and the pragmas of an orderly file stand in its head. -/
theorem lines_directives (orderly : ∀ w ∈ f.wording ++ p.wording, w.Orderly)
    (plain : f.PlainHead p) {text start : String} (ok : f.build p = .ok text)
    (directive : IsDirective start) :
    (Text.lines text).filter (Text.startsWith start) =
      (f.headLines p).flatMap (·.filter (Text.startsWith start)) := by
  obtain ⟨own, -⟩ := allMeet_append.mp (allMeet_of_orderly orderly)
  obtain ⟨⟨ofName, -⟩, ofTypes⟩ := by simpa only [wording, allMeet_append] using own
  obtain ⟨script, okScript, -⟩ := build_ok ok
  obtain ⟨scripts, okTypes, -⟩ := bind_eq_ok.mp okScript
  obtain ⟨head, isHead, layout⟩ := plain.exists_entered
  obtain ⟨tail, isTail, outer⟩ := exists_entered_typeGroups ofName (declares_types ofTypes okTypes)
  have same : (head ++ tail).map Entry.group = f.preambleGroups p ++ f.typeGroups scripts := by
    rw [List.map_append, isHead, isTail]
  obtain rfl := Except.ok.inj (ok.symm.trans (build_of_entered okTypes same))
  obtain ⟨hadOutput, split⟩ : ∃ hadOutput, Layout.ofGroups ((head ++ tail).map Entry.layouts) =
      Layout.flat (Text.spaced (f.headLines p)) ++
        Layout.separated (Sections.marked hadOutput (tail.map Entry.layouts)) :=
    ⟨_, by rw [← layout, List.map_append, Layout.ofGroups, Sections.marked_append,
      Layout.separated_append, Layout.ofGroups]⟩
  -- Below the head a line is indented, empty, or the first of a declaration.
  have below := Layout.outer_separated (Sections.forall_mem_marked outer hadOutput)
  have none : ((Layout.separated (Sections.marked hadOutput (tail.map Entry.layouts))).map
      (Line.body f.options.indent 0)).filter (Text.startsWith start) = [] := by
    refine List.filter_eq_nil_iff.mpr (List.forall_mem_map.mpr fun l member => ?_)
    rw [Line.not_startsWith_body directive _ (below l member)]
    exact Bool.false_ne_true
  rw [Layout.lines_text (Entry.forms_sections (head ++ tail)).oneLine, split, List.map_append,
    List.filter_append, none, List.append_nil, Layout.map_body_flat _ plain.spaced,
    Text.filter_spaced directive.not_startsWith_empty]

theorem noDirective_nullable (f : File) :
    ∀ line ∈ f.options.nullable.toList.map fun state => s!"#nullable {state.keyword}",
      NoDirective line :=
  List.forall_mem_map.mpr fun state _ => Text.NoDirective.append (by decide) state.keyword

/-- Assembly attributes stand in brackets. -/
theorem noDirective_attributes (p : Preamble) :
    ∀ line ∈ p.assemblyAttributeLines, NoDirective line := by
  intro line isLine
  obtain ⟨text, -, written⟩ := List.mem_filterMap.mp (Text.mem_ascending.mp isLine)
  have plain : NoDirective "[assembly:" := by decide
  exact plain.of_startsWith (AssemblyAttribute.startsWith_line? written).1

/-- The head of a file lists the imports of all groups, and no other line of it is an import. -/
theorem headLines_imports : (f.headLines p).flatMap (·.filter (Text.startsWith "using ")) =
    p.importGroups.all.map fun name => s!"using {name};" := by
  have nullable := Text.filter_directive (.inl rfl) (noDirective_nullable f)
  have attributes := Text.filter_directive (.inl rfl) (noDirective_attributes p)
  have pragmas : (f.disabledWarnings.map fun code => s!"#pragma warning disable {code}").filter
      (Text.startsWith "using ") = [] := by
    refine List.filter_eq_nil_iff.mpr (List.forall_mem_map.mpr fun code _ => ?_)
    have avoids : Text.Avoids "using " "#pragma warning disable " := by decide
    exact Bool.eq_false_iff.mp (avoids.append code).1
  have imports : (p.importGroups.all.map fun name => s!"using {name};").filter
      (Text.startsWith "using ") = p.importGroups.all.map fun name => s!"using {name};" :=
    List.filter_eq_self.mpr (List.forall_mem_map.mpr fun name _ =>
      Text.startsWith_append (Text.startsWith_append (by decide) name) ";")
  simp only [headLines, List.flatMap_cons, List.flatMap_nil, nullable, pragmas, imports, attributes,
    List.nil_append, List.append_nil]

/-- The head of a file disables the warnings of the file, and no other line of it is a pragma. -/
theorem headLines_pragmas : (f.headLines p).flatMap (·.filter (Text.startsWith "#pragma ")) =
    f.disabledWarnings.map fun code => s!"#pragma warning disable {code}" := by
  have nullable := Text.filter_directive (.inr rfl) (noDirective_nullable f)
  have attributes := Text.filter_directive (.inr rfl) (noDirective_attributes p)
  have pragmas : (f.disabledWarnings.map fun code => s!"#pragma warning disable {code}").filter
      (Text.startsWith "#pragma ") =
        f.disabledWarnings.map fun code => s!"#pragma warning disable {code}" :=
    List.filter_eq_self.mpr (List.forall_mem_map.mpr fun code _ =>
      Text.startsWith_append (by decide) code)
  have imports : (p.importGroups.all.map fun name => s!"using {name};").filter
      (Text.startsWith "#pragma ") = [] := by
    refine List.filter_eq_nil_iff.mpr (List.forall_mem_map.mpr fun name _ => ?_)
    have avoids : Text.Avoids "#pragma " "using " := by decide
    exact Bool.eq_false_iff.mp ((avoids.append name).append ";").1
  simp only [headLines, List.flatMap_cons, List.flatMap_nil, nullable, pragmas, imports, attributes,
    List.nil_append, List.append_nil]

end File

end CSharpGen

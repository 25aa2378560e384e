import Mathlib.Data.List.Perm.Subperm
import CSharpGen.Proofs.Edit.Calls
import CSharpGen.Proofs.Text.Cuts

/-!
# Imports that are asked for again

Normalising takes one `using` from the start of an import and the semicolons from its end. Where
another `using` or a semicolon comes to light, the import is not its own normal form, and asking for
it again brings a new one (`Preamble.imports_asked_again`).
-/

namespace CSharpGen

open Text (StartsSolid EndsSolid nonBlank?_self_iff)

/-! ## Normal forms -/

namespace Import

/-- An import from which normalising takes nothing. -/
def Bare (name : String) : Prop :=
  Text.startsWith "using " name = false ∧ name.toList.getLast? ≠ some ';'

instance : DecidablePred Bare := fun _ => inferInstanceAs (Decidable (_ ∧ _))

variable {name : String}

theorem dropTailWhile_semicolon (last : name.toList.getLast? ≠ some ';') :
    Text.dropTailWhile (· == ';') name.toList = name.toList := by
  refine Text.dropTailWhile_eq_self_iff.mpr fun c isLast => ?_
  rw [beq_eq_false_iff_ne]
  rintro rfl
  exact last isLast

/-- The line of an import asks for that import, unless it ends with a semicolon of its own. -/
theorem normalize?_line (whole : Text.nonBlank? name = some name)
    (last : name.toList.getLast? ≠ some ';') : normalize? s!"using {name};" = some name := by
  obtain ⟨starts, -⟩ := nonBlank?_self_iff.mp whole
  have line : s!"using {name};" = "using " ++ (name ++ ";") := String.append_assoc
  have ends (front : String) : EndsSolid (front ++ ";") :=
    Text.endsSolid_append front ⟨';', rfl, by decide⟩
  have first : StartsSolid "using " := ⟨'u', rfl, by decide⟩
  have trimmed : Text.trim ("using " ++ (name ++ ";")) = "using " ++ (name ++ ";") :=
    Text.trim_of_solid (first.append _) (Text.endsSolid_append _ (ends name))
  have named : Text.trim (name ++ ";") = name ++ ";" :=
    Text.trim_of_solid (starts.append ";") (ends name)
  have cut : Text.dropTailWhile (· == ';') (name ++ ";").toList = name.toList := by
    rw [String.toList_append, Text.dropTailWhile_append]
    exact dropTailWhile_semicolon last
  rw [normalize?, line, trimmed, Text.dropStart_append, named]
  simp only [cut, String.ofList_toList, whole]

/-- An import is its own normal form exactly when it is bare. -/
theorem normalize?_self_iff (whole : Text.nonBlank? name = some name) :
    normalize? name = some name ↔ Bare name := by
  obtain ⟨starts, ends⟩ := nonBlank?_self_iff.mp whole
  have trimmed := Text.trim_of_solid starts ends
  constructor
  · intro same
    rw [normalize?, trimmed] at same
    obtain ⟨outer, -⟩ := Text.nonBlank?_eq_some same
    -- what is left after each of the steps is part of what was there before
    generalize left : Text.dropTailWhile (· == ';')
      (Text.trim (Text.dropStart "using " name)).toList = rest at outer
    have whole : name.toList.Sublist rest := by
      have inner := Text.trim_sublist (String.ofList rest)
      rwa [← outer, String.toList_ofList] at inner
    have within : rest.Sublist (Text.dropStart "using " name).toList :=
      left ▸ (Text.dropTailWhile_sublist _ _).trans (Text.trim_sublist _)
    constructor
    · rcases Text.dropStart_cases "using " name with ⟨-, split⟩ | ⟨none, -⟩
      · have shorter := congrArg String.length split
        have length := (whole.trans within).length_le
        simp only [String.length_append, String.length_toList] at shorter length
        have word : "using ".length = 6 := rfl
        omega
      · exact none
    · intro last
      have same : rest = name.toList :=
        (within.trans (Text.dropStart_sublist _ _)).antisymm whole
      rw [← same, ← left] at last
      exact absurd (Text.getLast?_dropTailWhile last) (by decide)
  · rintro ⟨noUsing, noSemicolon⟩
    rw [normalize?, trimmed, Text.dropStart_of_not noUsing, trimmed]
    simp only [dropTailWhile_semicolon noSemicolon, String.ofList_toList, whole]

end Import

/-! ## Lists of imports -/

theorem TextSet.ext_iff {s t : TextSet} : s = t ↔ s.items = t.items := by
  constructor
  · rintro rfl
    rfl
  · intro same
    cases s
    cases t
    congr

theorem TextSet.insert_of_mem {s : TextSet} {x : String} (member : x ∈ s) : s.insert x = s :=
  dif_pos member

/-- Texts that are replaced one by one, each of them once, are left as they are only when each is
replaced by itself. -/
theorem TextSet.eraseDups_filterMap_eq_iff {f : String → Option String} {texts : List String}
    (distinct : texts.Nodup) :
    (texts.filterMap f).eraseDups = texts ↔ ∀ t ∈ texts, f t = some t := by
  constructor
  · intro same
    have within : texts ⊆ texts.filterMap f := fun t member =>
      List.mem_eraseDups.mp (same.symm ▸ member)
    have perm := (List.subperm_of_subset distinct within).perm_of_length_le
      (List.length_filterMap_le f texts)
    rw [eraseDups_of_nodup (perm.nodup_iff.mp distinct)] at same
    clear distinct within perm
    induction texts with
    | nil => exact List.forall_mem_nil _
    | cons t rest ih =>
      cases replaced : f t with
      | none =>
        rw [List.filterMap_cons_none replaced] at same
        have bound := List.length_filterMap_le f rest
        rw [same, List.length_cons] at bound
        omega
      | some u =>
        rw [List.filterMap_cons_some replaced] at same
        obtain ⟨rfl, others⟩ := List.cons.inj same
        exact List.forall_mem_cons.mpr ⟨replaced, ih others⟩
  · intro fixed
    rw [List.filterMap_congr fixed, List.filterMap_some, eraseDups_of_nodup distinct]

namespace Preamble

variable {p : Preamble} {name : String}

/-- Asking for an import is answered with no and leaves the preamble as it is. -/
def Knows (p : Preamble) (text : String) : Prop :=
  p.brings (.importNamespace text) = false ∧ p.register (.importNamespace text) = p

theorem knows_of_mem {text : String} (member : name ∈ p.imports)
    (normal : Import.normalize? text = some name) : p.Knows text := by
  constructor
  · simp [brings, importOf?, attributeOf?, normal, member]
  · simp [register, importOf?, attributeOf?, normal, TextSet.insert_of_mem member]

theorem nonBlank?_of_importOf? {r : Registration} (asked : importOf? r = some name) :
    Text.nonBlank? name = some name := by
  cases r with
  | importNamespace text =>
    rw [importOf?, Import.normalize?] at asked
    exact Text.nonBlank?_self asked
  | importNamespaceOf type =>
    rw [importOf?] at asked
    obtain ⟨text, -, normal⟩ := Option.bind_eq_some_iff.mp asked
    rw [Import.normalize?] at normal
    exact Text.nonBlank?_self normal
  | assemblyAttribute text => cases asked

theorem imports_registerAll (p : Preamble) (rs : List Registration) :
    (p.registerAll rs).imports = p.imports.insertAll (rs.filterMap importOf?) := by
  induction rs generalizing p with
  | nil => rfl
  | cons r rest ih =>
    have later :
        (p.registerAll (r :: rest)).imports = ((p.register r).registerAll rest).imports := rfl
    rw [later, ih]
    cases asked : importOf? r with
    | none => rw [List.filterMap_cons_none asked, register, asked, Option.elim_none]
    | some name =>
      rw [List.filterMap_cons_some asked, register, asked, Option.elim_some]
      rfl

/-- Imports that are copied one by one give their normal forms, each of them once. -/
theorem imports_copied (names : List String) :
    (registerAll {} (names.map .importNamespace)).imports.items =
      (names.filterMap Import.normalize?).eraseDups := by
  have asked : importOf? ∘ .importNamespace = Import.normalize? := funext fun _ => by
    rw [Function.comp_apply, importOf?]
  have none : ({} : Preamble).imports.items = [] := rfl
  rw [imports_registerAll, TextSet.items_insertAll, List.filterMap_map, asked, none,
    List.nil_append]

/-- An import is known as it is listed when it is bare, and as the line of a file when it does not
end with a semicolon. Copying the imports one by one gives the same list exactly when all of them
are bare. -/
theorem imports_asked_again (rs : List Registration) :
    let p := registerAll {} rs
    (∀ name ∈ p.imports, (Import.Bare name → p.Knows name) ∧
        (name.toList.getLast? ≠ some ';' → p.Knows s!"using {name};")) ∧
      ((registerAll {} (p.imports.items.map .importNamespace)).imports = p.imports ↔
        ∀ name ∈ p.imports, Import.Bare name) := by
  intro p
  have whole : ∀ name ∈ p.imports, Text.nonBlank? name = some name := by
    intro name member
    rcases mem_imports_registerAll.mp member with none | ⟨r, -, asked⟩
    · cases none
    · exact nonBlank?_of_importOf? asked
  constructor
  · intro name member
    constructor
    · intro bare
      exact knows_of_mem member ((Import.normalize?_self_iff (whole name member)).mpr bare)
    · intro last
      exact knows_of_mem member (Import.normalize?_line (whole name member) last)
  · rw [TextSet.ext_iff, imports_copied, TextSet.eraseDups_filterMap_eq_iff p.imports.nodup]
    exact forall₂_congr fun name member => Import.normalize?_self_iff (whole name member)

/-- The import of a type, an alias, and a line with two semicolons. -/
def mixedImports : List Registration := [
  .importNamespace " using static System.Math;; ",
  .importNamespaceOf "global::Acme.Widgets.IBaz<System.Int32>",
  .importNamespace "Json = System.Text.Json"]

theorem imports_asked_again_mixed :
    let p := registerAll {} mixedImports
    p.imports.items = ["static System.Math", "Acme.Widgets", "Json = System.Text.Json"] ∧
      ("static System.Math" ∈ p.imports ∧ Import.Bare "static System.Math" ∧
        "static System.Math".toList.getLast? ≠ some ';') ∧
      p.Knows "static System.Math" ∧ p.Knows "using static System.Math;" ∧
      (registerAll {} (p.imports.items.map .importNamespace)).imports = p.imports := by
  intro p
  have items : p.imports.items =
      ["static System.Math", "Acme.Widgets", "Json = System.Text.Json"] := by decide +kernel
  have member : "static System.Math" ∈ p.imports := by
    rw [TextSet.mem_def, items]
    exact List.mem_cons_self
  have all : ∀ name ∈ p.imports, Import.Bare name := by
    simp only [TextSet.mem_def, items]
    decide
  have bare := all _ member
  obtain ⟨known, copied⟩ := imports_asked_again mixedImports
  obtain ⟨listed, line⟩ := known "static System.Math" member
  exact ⟨items, ⟨member, bare, bare.2⟩, listed bare, line bare.2, copied.mpr all⟩

/-- A blank between semicolons leaves the first of them in the import, and a second `using` stays
behind the first. Asked for again, such an import brings another one. -/
theorem imports_hiddenMarks :
    let spaced := registerAll {} [.importNamespace "Foo.Bar; ;"]
    let doubled := registerAll {} [.importNamespace "using using Foo.Bar"]
    (spaced.imports.items = ["Foo.Bar;"] ∧ spaced.brings (.importNamespace "Foo.Bar;") = true ∧
      (spaced.register (.importNamespace "Foo.Bar;")).imports.items = ["Foo.Bar;", "Foo.Bar"]) ∧
    doubled.imports.items = ["using Foo.Bar"] ∧
      doubled.brings (.importNamespace "using Foo.Bar") = true ∧
      (registerAll {} (doubled.imports.items.map .importNamespace)).imports.items =
        ["Foo.Bar"] := by
  decide +kernel

end Preamble

end CSharpGen

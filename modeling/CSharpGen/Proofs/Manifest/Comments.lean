import CSharpGen.Proofs.Manifest.Built

/-!
# Comments of manifests

The comment above a method or a delegate of a manifest has the summary and one entry for each
documented name that is the name of a parameter; the comment above a constructor has the summary
alone (`Manifest.comments_of_accepted`).
-/

namespace CSharpGen

/-! ## Entries -/

namespace Documentation

/-- The entries after several parameters were documented: in the order of their first mention, each
with the text that was given last. -/
def setEntries (old new : List (String × String)) : List (String × String) :=
  new.foldl (fun entries (name, doc) => setEntry name doc entries) old

theorem mem_setEntry_self (name doc : String) (entries : List (String × String)) :
    (name, doc) ∈ setEntry name doc entries := by
  induction entries with
  | nil => exact List.mem_singleton_self _
  | cons entry rest ih =>
    rw [setEntry]
    split
    · exact List.mem_cons_self
    · exact List.mem_cons_of_mem _ ih

/-- Setting an entry for one name keeps the entries for the others. -/
theorem mem_setEntry_of_ne {name doc : String} {kept : String × String} (other : kept.1 ≠ name)
    {entries : List (String × String)} (member : kept ∈ entries) :
    kept ∈ setEntry name doc entries := by
  induction entries with
  | nil => cases member
  | cons entry rest ih =>
    rw [setEntry]
    rcases List.mem_cons.mp member with rfl | member
    · rw [if_neg other]
      exact List.mem_cons_self
    · split
      · exact List.mem_cons_of_mem _ member
      · exact List.mem_cons_of_mem _ (ih member)

/-- What a name is given last is its entry. -/
theorem mem_setEntries {name doc : String} {before after old : List (String × String)}
    (last : ∀ entry ∈ after, entry.1 ≠ name) :
    (name, doc) ∈ setEntries old (before ++ (name, doc) :: after) := by
  have kept (later entries : List (String × String)) (apart : ∀ entry ∈ later, entry.1 ≠ name)
      (member : (name, doc) ∈ entries) : (name, doc) ∈ setEntries entries later := by
    induction later generalizing entries with
    | nil => exact member
    | cons entry rest ih =>
      refine ih _ (fun other inside => apart other (List.mem_cons_of_mem _ inside)) ?_
      exact mem_setEntry_of_ne (apart entry List.mem_cons_self).symm member
  rw [setEntries, List.foldl_append, List.foldl_cons]
  exact kept after _ last (mem_setEntry_self name doc _)

/-- Documenting parameters after a summary keeps the summary and sets their entries. -/
theorem foldl_document_summary (entries old : List (String × String)) (text : Option String) :
    entries.foldl document (.summary text old) = .summary text (setEntries old entries) := by
  induction entries generalizing old with
  | nil => rfl
  | cons entry rest ih => exact ih _

/-- The comment lines of a summary, if there is one. -/
def linesOfSummary (summary : Option String) : List String := summary.elim [] summaryLines

/-- The comment of a documentation that starts with a summary. -/
theorem linesFor_foldl_document (summary : Option String) (entries : List (String × String))
    (names : List String) : (entries.foldl document (ofSummary summary)).linesFor names =
      linesOfSummary summary ++
        ((setEntries [] entries).filter (names.contains ·.1)).map fun (name, doc) =>
          parameterLine name doc := by
  cases summary with
  | some text =>
    rw [show ofSummary (some text) = .summary (some text) [] from rfl, foldl_document_summary]
    rfl
  | none =>
    cases entries with
    | nil => rfl
    | cons entry rest =>
      rw [List.foldl_cons, show document (ofSummary none) entry = .summary none [entry] from rfl,
        foldl_document_summary]
      rfl

end Documentation

/-! ## Comments of declarations -/

/-- The comment lines above a method. -/
def Method.comment (m : Method) : List String :=
  m.documentation.linesFor (Parameters.names m.parameters)

def Constructor.comment (c : Constructor) : List String :=
  c.documentation.linesFor (Parameters.names c.parameters)

def Delegate.comment (d : Delegate) : List String :=
  d.documentation.linesFor (Parameters.names d.parameters)

def Method.undocumented (m : Method) : Method := { m with documentation := .empty }

def Constructor.undocumented (c : Constructor) : Constructor := { c with documentation := .empty }

def Delegate.undocumented (d : Delegate) : Delegate := { d with documentation := .empty }

/-- A method is written as its comment and then as it is without documentation. -/
theorem Method.script_eq_comment (m : Method) :
    m.script = Step.lines m.comment ++ m.undocumented.script := by
  simp only [script, comment, undocumented, List.append_assoc]
  rfl

/-- The script of a constructor starts with the lines of its comment. -/
theorem Constructor.script_eq_comment (c : Constructor) :
    c.script = Step.lines c.comment ++ c.undocumented.script := by
  simp only [script, comment, undocumented, List.append_assoc]
  rfl

/-- The script of a delegate starts with the lines of its comment. -/
theorem Delegate.script_eq_comment (d : Delegate) :
    d.script = Step.lines d.comment ++ d.undocumented.script := by
  simp only [script, comment, undocumented, List.append_assoc]
  rfl

namespace ParameterEntry

/-- The comment lines for parameters: one for each documented name that a parameter has. -/
def commentLines (ps : List ParameterEntry) : List String :=
  ((Documentation.setEntries [] (documentation ps)).filter
    ((Parameters.names (toParameters ps)).contains ·.1)).map fun (name, doc) =>
      Documentation.parameterLine name doc

theorem mem_names_insert {name : String} {ps : List Parameter}
    (member : name ∈ Parameters.names ps) (p : Parameter) :
    name ∈ Parameters.names (Parameters.insert ps p none) := by
  unfold Parameters.insert
  split
  · exact member
  · rw [Parameters.names, List.map_append]
    exact List.mem_append_left _ member

/-- A parameter with a type is in the list, or one with the same name. -/
theorem name_mem_insert {p : Parameter} (typed : p.type ≠ "") (ps : List Parameter) :
    p.name ∈ Parameters.names (Parameters.insert ps p none) := by
  unfold Parameters.insert
  split
  · next skipped =>
    rw [Bool.or_eq_true] at skipped
    obtain ⟨q, member, same⟩ := List.any_eq_true.mp (skipped.resolve_left (by simpa using typed))
    rw [Parameter.sameAs, Bool.and_eq_true, beq_iff_eq, beq_iff_eq] at same
    exact List.mem_map.mpr ⟨q, member, same.2.symm⟩
  · rw [Parameters.names, List.map_append]
    exact List.mem_append_right _ (List.mem_singleton_self _)

theorem toParameter_name {p : ParameterEntry} {name : String} (named : p.name = some name)
    (trimmed : Text.trim name = name) (filled : name ≠ "") : p.toParameter.name = name := by
  simp [toParameter, Parameter.make, named, Text.nonBlank?, trimmed, filled]

/-- A named parameter of a manifest is among the parameters that are built, even when it repeats one
before it. -/
theorem name_mem_toParameters {before after : List ParameterEntry} {p : ParameterEntry}
    {name : String} (named : p.name = some name) (trimmed : Text.trim name = name)
    (filled : name ≠ "") (typed : Text.trim p.type ≠ "") :
    name ∈ Parameters.names (toParameters (before ++ p :: after)) := by
  have kept (later : List ParameterEntry) (ps : List Parameter)
      (member : name ∈ Parameters.names ps) : name ∈ Parameters.names
        (later.foldl (fun list q => Parameters.insert list q.toParameter none) ps) := by
    induction later generalizing ps with
    | nil => exact member
    | cons q rest ih =>
      rw [List.foldl_cons]
      exact ih (Parameters.insert ps q.toParameter none) (mem_names_insert member q.toParameter)
  rw [toParameters, List.foldl_append, List.foldl_cons]
  refine kept after _ ?_
  have own := name_mem_insert (p := p.toParameter) typed
    (before.foldl (fun list q => Parameters.insert list q.toParameter none) [])
  rwa [toParameter_name named trimmed filled] at own

/-- A documented parameter with a type and a name without blanks around it is written with its
text, unless the name is documented again later. -/
theorem mem_commentLines {before after : List ParameterEntry} {p : ParameterEntry}
    {name doc : String} (named : p.name = some name) (documented : p.doc = some doc)
    (trimmed : Text.trim name = name) (filled : name ≠ "") (typed : Text.trim p.type ≠ "")
    (last : ∀ q ∈ after, q.name = some name → q.doc = none) :
    Documentation.parameterLine name doc ∈ commentLines (before ++ p :: after) := by
  have own : p.documentation? = some (name, doc) := by rw [documentation?, named, documented]
  have entries : documentation (before ++ p :: after) =
      documentation before ++ (name, doc) :: documentation after := by
    simp [documentation, own]
  have apart : ∀ entry ∈ documentation after, entry.1 ≠ name := by
    intro entry member same
    obtain ⟨q, inside, given⟩ := List.mem_filterMap.mp member
    unfold documentation? at given
    split at given
    · next other text qName qDoc =>
      cases given
      rw [last q inside (same ▸ qName)] at qDoc
      cases qDoc
    · cases given
  have written : name ∈ Parameters.names (toParameters (before ++ p :: after)) :=
    name_mem_toParameters named trimmed filled typed
  rw [commentLines, entries]
  exact List.mem_map.mpr ⟨(name, doc), List.mem_filter.mpr
    ⟨Documentation.mem_setEntries apart, List.elem_eq_true_of_mem written⟩, rfl⟩

end ParameterEntry

/-! ## What manifests give -/

def MethodEntry.comment (k : MethodEntry) : List String :=
  if k.inheritDoc then ["/// <inheritdoc />"]
  else Documentation.linesOfSummary k.summary ++ ParameterEntry.commentLines k.parameters

def DelegateEntry.comment (d : DelegateEntry) : List String :=
  Documentation.linesOfSummary d.summary ++ ParameterEntry.commentLines d.parameters

theorem MethodEntry.built_comment (k : MethodEntry) : k.built.comment = k.comment := by
  have inherits (entries : List (String × String)) :
      entries.foldl Documentation.document (.inherited none) = .inherited none := by
    induction entries with
    | nil => rfl
    | cons entry rest ih => exact ih
  have start : k.plain.documentation =
      if k.inheritDoc then .inherited none else .ofSummary k.summary := rfl
  rw [Method.comment, built, comment]
  dsimp only
  rw [start]
  split
  · rw [inherits]
    rfl
  · exact Documentation.linesFor_foldl_document k.summary _ _

theorem DelegateEntry.built_comment (d : DelegateEntry) : d.built.comment = d.comment :=
  Documentation.linesFor_foldl_document d.summary _ _

theorem ConstructorEntry.built_comment (k : ConstructorEntry) (className : String) :
    (k.built className).comment = Documentation.linesOfSummary k.summary := by
  have documentation : (k.built className).documentation = .ofSummary k.summary := by
    unfold built
    cases k.base <;> cases k.this <;> rfl
  have lines := Documentation.linesFor_foldl_document k.summary []
    (Parameters.names (k.built className).parameters)
  rw [Constructor.comment, documentation]
  rw [List.foldl_nil] at lines
  rw [lines]
  exact List.append_nil _

/-- The delegates among the types of a file. -/
def File.delegates (f : File) : List Delegate :=
  f.types.filterMap fun
    | .delegate d => some d
    | .class _ | .enum _ | .record _ => none

/-- The delegates of the file are those of the manifest, in its order. -/
theorem Manifest.built_delegates (m : Manifest) (indent : Option Indent) :
    (m.built indent).file.delegates = m.delegates.map DelegateEntry.built := by
  simp [File.delegates, built, builtTypes, List.filterMap_append, List.filterMap_map,
    Function.comp_def]

/-- In the file of an accepted manifest every method and delegate, at any depth, has the comment of
its summary and of its documented parameters, and every constructor the comment of its summary
alone. The comment is written first, and then the declaration as it is without documentation. A
documented parameter with a type and a name without blanks around it has a line, with the text that
was given last. -/
theorem Manifest.comments_of_accepted {m : Manifest} {indent : Option Indent} {d : Draft}
    (accepted : m.toDraft indent = .ok d) :
    (d.file.cores.flatMap (·.methods)).map (fun k => (k.name, k.comment)) =
        (m.cores.flatMap (·.methods)).map (fun k => (Text.trim k.name, k.comment)) ∧
      d.file.delegates.map (fun k => (k.name, k.comment)) =
        m.delegates.map (fun k => (Text.trim k.name, k.comment)) ∧
      (d.file.cores.flatMap (·.constructors)).map (·.comment) =
        (m.cores.flatMap (·.constructors)).map (fun k => Documentation.linesOfSummary k.summary) ∧
      (∀ k ∈ d.file.cores.flatMap (·.methods),
        k.script = Step.lines k.comment ++ k.undocumented.script) ∧
      (∀ k ∈ d.file.delegates, k.script = Step.lines k.comment ++ k.undocumented.script) ∧
      (∀ k ∈ d.file.cores.flatMap (·.constructors),
        k.script = Step.lines k.comment ++ k.undocumented.script) ∧
      ∀ before p after name doc, p.name = some name → p.doc = some doc →
        Text.trim name = name → name ≠ "" → Text.trim p.type ≠ "" →
        (∀ q ∈ after, q.name = some name → q.doc = none) →
        Documentation.parameterLine name doc ∈ ParameterEntry.commentLines (before ++ p :: after) := by
  obtain rfl := (m.yields_toDraft indent).eq_of_ok accepted
  refine ⟨?_, ?_, ?_, fun k _ => k.script_eq_comment, fun k _ => k.script_eq_comment,
    fun k _ => k.script_eq_comment, fun _ _ _ _ _ => ParameterEntry.mem_commentLines⟩
  · rw [List.map_flatMap, List.map_flatMap]
    refine built_cores (fun core empty _ => ?_) m indent
    have methods : (core.built empty).methods = core.methods.map MethodEntry.built := rfl
    simp only [methods, List.map_map, Function.comp_def, MethodEntry.built_comment]
    rfl
  · rw [built_delegates]
    simp only [List.map_map, Function.comp_def, DelegateEntry.built_comment]
    rfl
  · rw [List.map_flatMap, List.map_flatMap]
    refine built_cores (fun core empty _ => ?_) m indent
    have constructors : (core.built empty).constructors =
        core.constructors.map (ConstructorEntry.built empty.name) := rfl
    simp only [constructors, List.map_map, Function.comp_def, ConstructorEntry.built_comment]

/-- A counter that documents where a method, a constructor and a delegate start. -/
def countingManifest : Manifest :=
  let start : ParameterEntry := { type := "int", name := some "start", doc := some "The start." }
  { classes := [{
      name := "Counter"
      isPartial := some false
      constructors := [{ parameters := [start] }]
      methods := [{ name := "Reset", parameters := [start] }] }]
    delegates := [{ name := "Step", parameters := [start] }] }

theorem Manifest.comments_of_accepted_counting :
    ∃ d, countingManifest.toDraft none = .ok d ∧
      (d.file.cores.flatMap (·.methods)).map (fun k => (k.name, k.comment)) =
        [("Reset", ["/// <param name=\"start\">The start.</param>"])] ∧
      d.file.delegates.map (fun k => (k.name, k.comment)) =
        [("Step", ["/// <param name=\"start\">The start.</param>"])] ∧
      (d.file.cores.flatMap (·.constructors)).map (·.comment) = [[]] := by
  have accepted : countingManifest.toDraft none = .ok (countingManifest.built none) := by rfl
  obtain ⟨methods, delegates, constructors, -⟩ := comments_of_accepted accepted
  exact ⟨_, accepted, methods.trans (by decide +kernel), delegates.trans (by decide +kernel),
    constructors.trans (by decide +kernel)⟩

/-- A constructor with a documented parameter and nothing else. -/
def documentedConstructor : Manifest where
  classes := [{
    name := "Counter"
    isPartial := some false
    constructors := [{
      parameters := [{ type := "int", name := some "start", doc := some "Where to start." }] }] }]

/-- The parameter is in the list, and its documentation is not in the text. -/
theorem Manifest.render_documentedConstructor : documentedConstructor.render none =
    .ok "class Counter\n\x7b\n    Counter(int start)\n    \x7b\n    \x7d\n\x7d\n" := by
  decide +kernel

end CSharpGen

import CSharpGen.Proofs.Declaration.MissingType
import CSharpGen.Proofs.Script.Sections
import CSharpGen.Proofs.Text.StableSort

/-!
# Members in their places

A class writes each of its members once, group after group, and each group is sorted stably
(`Class.script_members`).
-/

namespace CSharpGen

namespace PropertyOrder

/-- Whether a property may stand before another one of its group. -/
def le : PropertyOrder → Property → Property → Bool
  | byName, p, q => decide (p.name ≤ q.name)
  | insertion, _, _ => true
  | byKey key, p, q => decide (key p ≤ key q)

theorem stableSort_sort (order : PropertyOrder) (ps : List Property) :
    StableSort order.le ps (order.sort ps) := by
  cases order with
  | byName => exact Text.stableSort_stable Property.name ps
  | insertion => exact stableSort_self (fun _ _ => rfl) ps
  | byKey key => exact Text.stableSort_stable key ps

end PropertyOrder

namespace ClassCore

/-- Whether a constructor may stand before another one: by the number of its parameters. -/
def constructorLe (a b : Constructor) : Bool :=
  decide (a.parameters.length ≤ b.parameters.length)

theorem stableSort_sortedConstructors (c : ClassCore) :
    StableSort constructorLe c.constructors c.sortedConstructors := by
  refine stableSort_mergeSort (fun a b c first second => ?_) (fun a b => ?_) c.constructors
  · unfold constructorLe at first second ⊢
    rw [decide_eq_true_eq] at first second ⊢
    exact Nat.le_trans first second
  · simpa only [constructorLe, Bool.or_eq_true, decide_eq_true_eq] using Nat.le_total _ _

/-- Methods go by name and, under one name, by the number of their parameters. -/
theorem methodLe_iff {a b : Method} : methodLe a b ↔
    a.name < b.name ∨ a.name = b.name ∧ a.parameters.length ≤ b.parameters.length := by
  simp [methodLe]

theorem stableSort_sortedMethods (c : ClassCore) :
    StableSort methodLe c.methods c.sortedMethods := by
  refine stableSort_mergeSort (fun a b c first second => ?_) (fun a b => ?_) c.methods
  · rw [methodLe_iff] at first second ⊢
    rcases first with first | ⟨sameAs, first⟩
    · rcases second with second | ⟨same, -⟩
      · exact .inl (String.lt_trans first second)
      · exact .inl (same ▸ first)
    · rcases second with second | ⟨same, second⟩
      · exact .inl (sameAs ▸ second)
      · exact .inr ⟨sameAs.trans same, Nat.le_trans first second⟩
  · rw [Bool.or_eq_true, methodLe_iff, methodLe_iff]
    by_cases same : a.name = b.name
    · rcases Nat.le_total a.parameters.length b.parameters.length with less | more
      · exact .inl (.inr ⟨same, less⟩)
      · exact .inr (.inr ⟨same.symm, more⟩)
    · by_cases less : a.name < b.name
      · exact .inl (.inl less)
      · exact .inr (.inl (Std.lt_of_le_of_ne (String.not_lt.mp less) (Ne.symm same)))

/-- The members of a class that are given without its nested classes, as they were added and as
they are written: the properties in five groups, each sorted as the class says. -/
structure Sorted (c : ClassCore) : Prop where
  properties : c.writtenProperties.Perm c.properties
  instanceConstants : StableSort c.order.le
    (c.properties.filter fun p => p.kind == .constant && !p.isStatic) c.instanceConstants
  staticConstants : StableSort c.order.le
    (c.properties.filter fun p => p.kind == .constant && p.isStatic) c.staticConstants
  others : ∀ kind, StableSort c.order.le
    (c.properties.filter (·.kind == kind)) (c.propertiesOf kind)
  constructors : StableSort constructorLe c.constructors c.sortedConstructors
  methods : StableSort methodLe c.methods c.sortedMethods

theorem instanceConstants_eq (c : ClassCore) : c.instanceConstants =
    c.sortedProperties.filter fun p => p.kind == .constant && !p.isStatic := by
  simp only [instanceConstants, propertiesOf, List.filter_filter, Bool.and_comm]

theorem staticConstants_eq (c : ClassCore) : c.staticConstants =
    c.sortedProperties.filter fun p => p.kind == .constant && p.isStatic := by
  simp only [staticConstants, propertiesOf, List.filter_filter, Bool.and_comm]

/-- A property belongs to one of the five groups: it has a kind, and a constant is static or not. -/
theorem groups_perm (ps : List Property) :
    ((ps.filter fun p => p.kind == .constant && !p.isStatic) ++
      (ps.filter fun p => p.kind == .constant && p.isStatic) ++ ps.filter (·.kind == .readonly) ++
      ps.filter (·.kind == .field) ++ ps.filter (·.kind == .property)).Perm ps := by
  induction ps with
  | nil => exact .nil
  | cons p rest ih =>
    have place (before after : List Property) (h : (before ++ after).Perm rest) :
        (before ++ p :: after).Perm (p :: rest) := List.perm_middle.trans (h.cons p)
    simp only [List.append_assoc, List.filter_cons] at ih ⊢
    cases kind : p.kind with
    | constant =>
      cases static : p.isStatic with
      | false => exact place [] _ ih
      | true => exact place _ _ ih
    | readonly => simpa using place (_ ++ _) _ (by simpa using ih)
    | field => simpa using place (_ ++ _ ++ _) _ (by simpa using ih)
    | property => simpa using place (_ ++ _ ++ _ ++ _) _ (by simpa using ih)

/-- The groups of a class hold each property once, whatever its kind and order. -/
theorem writtenProperties_perm (c : ClassCore) : c.writtenProperties.Perm c.properties := by
  have groups := groups_perm c.sortedProperties
  rw [← instanceConstants_eq, ← staticConstants_eq] at groups
  exact groups.trans (c.order.stableSort_sort c.properties).perm

/-- Every list of members that a class writes is its own list, sorted. -/
theorem sorted (c : ClassCore) : c.Sorted where
  properties := c.writtenProperties_perm
  instanceConstants := by
    rw [instanceConstants_eq]
    exact (c.order.stableSort_sort c.properties).filter _
  staticConstants := by
    rw [staticConstants_eq]
    exact (c.order.stableSort_sort c.properties).filter _
  others kind := (c.order.stableSort_sort c.properties).filter (·.kind == kind)
  constructors := c.stableSort_sortedConstructors
  methods := c.stableSort_sortedMethods

end ClassCore

/-! ## Members in the order of the text -/

/-- Something that a class writes between its braces. -/
inductive Member where
  | delegate (d : Delegate)
  | event (e : Event)
  | property (p : Property)
  | constructor (k : Constructor)
  | method (m : Method)
  | class (c : Class)

def Member.script : Member → Except Error Script
  | .delegate d => .ok d.script
  | .event e => .ok e.script
  | .property p => p.script
  | .constructor k => .ok k.script
  | .method m => .ok m.script
  | .class c => c.script

/-- What a member is called, with the type or the parameters that tell it from others. -/
def Member.label : Member → String
  | .delegate d => "delegate " ++ d.name
  | .event e => "event " ++ e.name
  | .property p => p.type.getD "" ++ " " ++ p.name
  | .constructor k => s!"{k.className}({Parameters.render k.parameters})"
  | .method m => m.name
  | .class c => "class " ++ c.name

/-- The members in the order of the text. Delegates, events and nested classes stay as they were
added; the other groups are sorted. -/
def Class.members (c : Class) : List Member :=
  c.delegates.map .delegate ++ c.events.map .event ++ c.instanceConstants.map .property ++
    c.staticConstants.map .property ++ (c.propertiesOf .readonly).map .property ++
    (c.propertiesOf .field).map .property ++ c.sortedConstructors.map .constructor ++
    (c.propertiesOf .property).map .property ++ c.sortedMethods.map .method ++
    c.nested.map .class

/-- The lines above the declaration. -/
def ClassCore.headScript (c : ClassCore) : Script :=
  Step.lines c.documentation.lines ++ Step.lines c.attributes.sortedLines

section Success

variable {ε α β : Type}

theorem bind_eq_ok {x : Except ε α} {f : α → Except ε β} {b : β} :
    x >>= f = .ok b ↔ ∃ a, x = .ok a ∧ f a = .ok b := by
  cases x with
  | error e => exact ⟨(nomatch ·), fun ⟨_, h, _⟩ => nomatch h⟩
  | ok a => exact ⟨fun h => ⟨a, rfl, h⟩, fun ⟨_, h, same⟩ => by cases h; exact same⟩

theorem mapM_ok (f : α → β) (items : List α) :
    items.mapM (fun item => (.ok (f item) : Except ε β)) = .ok (items.map f) := List.mapM_pure

theorem mapM_append_ok {f : α → Except ε β} {before after : List α} {first second : List β}
    (ok : before.mapM f = .ok first) (alsoOk : after.mapM f = .ok second) :
    (before ++ after).mapM f = .ok (first ++ second) := by
  rw [List.mapM_append, ok, alsoOk]
  rfl

/-- Every result is that of one of the items. -/
theorem exists_of_mapM_ok {f : α → Except ε β} {items : List α} {results : List β}
    (ok : items.mapM f = .ok results) : ∀ b ∈ results, ∃ a ∈ items, f a = .ok b := by
  induction items generalizing results with
  | nil =>
    cases ok
    exact List.forall_mem_nil _
  | cons a rest ih =>
    rw [List.mapM_cons] at ok
    obtain ⟨b, first, ok⟩ := bind_eq_ok.mp ok
    obtain ⟨others, okRest, ok⟩ := bind_eq_ok.mp ok
    cases ok
    refine List.forall_mem_cons.mpr ⟨⟨a, List.mem_cons_self, first⟩, fun c member => ?_⟩
    obtain ⟨d, isItem, same⟩ := ih okRest c member
    exact ⟨d, List.mem_cons_of_mem a isItem, same⟩

/-- Every item has its result. -/
theorem mem_of_mapM_ok {f : α → Except ε β} {items : List α} {results : List β}
    (ok : items.mapM f = .ok results) {a : α} (member : a ∈ items) : ∃ b ∈ results, f a = .ok b := by
  induction items generalizing results with
  | nil => cases member
  | cons first rest ih =>
    rw [List.mapM_cons] at ok
    obtain ⟨b, isFirst, ok⟩ := bind_eq_ok.mp ok
    obtain ⟨others, okRest, ok⟩ := bind_eq_ok.mp ok
    cases ok
    rcases List.mem_cons.mp member with rfl | later
    · exact ⟨b, List.mem_cons_self, isFirst⟩
    · obtain ⟨c, isResult, same⟩ := ih okRest later
      exact ⟨c, List.mem_cons_of_mem b isResult, same⟩

theorem length_of_mapM_ok {f : α → Except ε β} {items : List α} {results : List β}
    (ok : items.mapM f = .ok results) : results.length = items.length := by
  induction items generalizing results with
  | nil =>
    cases ok
    rfl
  | cons a rest ih =>
    rw [List.mapM_cons] at ok
    obtain ⟨b, -, ok⟩ := bind_eq_ok.mp ok
    obtain ⟨others, okRest, ok⟩ := bind_eq_ok.mp ok
    cases ok
    exact congrArg (· + 1) (ih okRest)

theorem mapM_ok_eq_nil_iff {f : α → Except ε β} {items : List α} {results : List β}
    (ok : items.mapM f = .ok results) : results = [] ↔ items = [] := by
  rw [← List.length_eq_zero_iff, length_of_mapM_ok ok, List.length_eq_zero_iff]

end Success

/-- The groups of a class from the scripts of the members that can be refused. -/
structure ClassCore.Groups where
  instanceConstants : List Script
  staticConstants : List Script
  readonlyFields : List Script
  fields : List Script
  properties : List Script
  nested : List Script

def ClassCore.Groups.all (g : Groups) (c : ClassCore) : List (Spacing × List Script) := [
  (.spaced, c.delegates.map Delegate.script),
  (.spaced, c.events.map Event.script),
  (.close, g.instanceConstants),
  (.close, g.staticConstants),
  (.close, g.readonlyFields),
  (.close, g.fields),
  (.spaced, c.sortedConstructors.map Constructor.script),
  (.spaced, g.properties),
  (.spaced, c.sortedMethods.map Method.script),
  (.spaced, g.nested)]

/-- A class that is written had every group of its members written, in the order of the groups. -/
theorem ClassCore.scriptWith_ok {c : ClassCore} {nested : Except Error (List Script)}
    {script : Script} (ok : c.scriptWith nested = .ok script) : ∃ g : Groups,
      c.instanceConstants.mapM Property.script = .ok g.instanceConstants ∧
      c.staticConstants.mapM Property.script = .ok g.staticConstants ∧
      (c.propertiesOf .readonly).mapM Property.script = .ok g.readonlyFields ∧
      (c.propertiesOf .field).mapM Property.script = .ok g.fields ∧
      (c.propertiesOf .property).mapM Property.script = .ok g.properties ∧
      nested = .ok g.nested ∧
      script = c.headScript ++ [.block c.declaration c.generics.whereClauses
        [.sections ((g.all c).map fun group => .ofScripts group.1 group.2)]] := by
  unfold scriptWith at ok
  obtain ⟨instanceConstants, okInstance, ok⟩ := bind_eq_ok.mp ok
  obtain ⟨staticConstants, okStatic, ok⟩ := bind_eq_ok.mp ok
  obtain ⟨readonlyFields, okReadonly, ok⟩ := bind_eq_ok.mp ok
  obtain ⟨fields, okFields, ok⟩ := bind_eq_ok.mp ok
  obtain ⟨properties, okProperties, ok⟩ := bind_eq_ok.mp ok
  obtain ⟨nested, okNested, ok⟩ := bind_eq_ok.mp ok
  cases ok
  exact ⟨⟨instanceConstants, staticConstants, readonlyFields, fields, properties, nested⟩,
    okInstance, okStatic, okReadonly, okFields, okProperties, okNested, rfl⟩

theorem Class.scripts_eq_mapM (cs : List Class) : Class.scripts cs = cs.mapM Class.script := by
  induction cs with
  | nil => rfl
  | cons c rest ih => rw [scripts, ih, List.mapM_cons]

namespace Class

/-- A class that can be written has the scripts of its members in its groups. -/
theorem exists_groups {c : Class} {script : Script} (ok : c.script = .ok script) :
    ∃ groups : List (Spacing × List Script),
      c.members.mapM Member.script = .ok (groups.flatMap (·.2)) ∧
      script = c.headScript ++ [.block c.declaration c.generics.whereClauses
        [.sections (groups.map fun group => .ofScripts group.1 group.2)]] := by
  obtain ⟨core, nested⟩ := c
  obtain ⟨g, okInstance, okStatic, okReadonly, okFields, okProperties, okNested, rfl⟩ :=
    core.scriptWith_ok ok
  rw [scripts_eq_mapM] at okNested
  have property {ps : List Property} {scripts : List Script}
      (ok : ps.mapM Property.script = .ok scripts) :
      (ps.map Member.property).mapM Member.script = .ok scripts := List.mapM_map.trans ok
  have inner : (nested.map Member.class).mapM Member.script = .ok g.nested :=
    List.mapM_map.trans okNested
  have always {α : Type} (make : α → Member) (own : α → Script)
      (same : ∀ a, (make a).script = .ok (own a)) (items : List α) :
      (items.map make).mapM Member.script = .ok (items.map own) := by
    rw [List.mapM_map]
    exact (congrArg (items.mapM ·) (funext same)).trans (mapM_ok own items)
  refine ⟨g.all core, ?_, rfl⟩
  have all := mapM_append_ok (mapM_append_ok (mapM_append_ok (mapM_append_ok (mapM_append_ok
    (mapM_append_ok (mapM_append_ok (mapM_append_ok (mapM_append_ok
      (always .delegate _ (fun _ => rfl) core.delegates)
      (always .event _ (fun _ => rfl) core.events))
      (property okInstance)) (property okStatic)) (property okReadonly)) (property okFields))
      (always .constructor _ (fun _ => rfl) core.sortedConstructors)) (property okProperties))
      (always .method _ (fun _ => rfl) core.sortedMethods))
      inner
  refine Eq.trans all (congrArg _ ?_)
  simp [ClassCore.Groups.all]

/-- A class that can be written runs the scripts of its members between its braces, each once and in
order, with nothing but blank lines between them. Its members are those that were added: the five
groups of properties are a permutation of the properties, and every group is sorted stably. -/
theorem script_members {c : Class} {script : Script} (ok : c.script = .ok script) :
    (∃ written : List (Bool × Script),
      c.members.mapM Member.script = .ok (written.map (·.2)) ∧
      ∀ r, (Step.runAll script r).writer =
        ((Step.runAll c.headScript r).inBlock c.declaration c.generics.whereClauses
          fun opened => Script.runEach written opened.observe).writer) ∧
    c.Sorted := by
  refine ⟨?_, c.sorted⟩
  obtain ⟨groups, members, rfl⟩ := exists_groups ok
  -- The items of the groups in order are the members; the marks only add blank lines.
  refine ⟨Sections.marked false groups, ?_, fun r => ?_⟩
  · rw [Sections.marked_map_snd]
    exact members
  · rw [Step.runAll_append]
    let items := groups.map fun group => Group.ofScripts group.1 group.2
    exact Run.inBlock_congr (f := fun opened => Step.runAll [.sections items] opened.observe)
      fun opened => Run.sections_ofScripts groups opened.observe

/-- A class with members of every group, among them two properties of the same name and a constant
that became static after others were added. -/
def gallery : Class where
  name := "Gallery"
  delegates := [Delegate.ofName "Visit"]
  events := [Event.ofName "Opened"]
  properties := [
    { name := "Zoom", type := some "int", auto := some .getOnly },
    { name := "guests", type := some "int", kind := .field },
    { name := "Room", type := some "int", kind := .constant, value := some .default, isStatic := true },
    { name := "Hall", type := some "Hall", kind := .readonly },
    { name := "Desk", type := some "int", kind := .constant, value := some (.literal "2") },
    { name := "Hall", type := some "Wing", kind := .readonly }]
  constructors := [
    { className := "Gallery", parameters := [{ type := "Hall", name := "hall" }] },
    { className := "Gallery" }]
  methods := [{ name := "Open" }, { name := "Close" }]
  nested := [{ name := "Hall" }]

theorem script_members_gallery : ∃ script, gallery.script = .ok script ∧
    (∃ written : List (Bool × Script),
      gallery.members.mapM Member.script = .ok (written.map (·.2))) ∧ gallery.Sorted ∧
    gallery.members.map Member.label = ["delegate Visit", "event Opened", "int Desk", "int Room",
      "Hall Hall", "Wing Hall", "int guests", "Gallery()", "Gallery(Hall hall)", "int Zoom",
      "Close", "Open", "class Hall"] := by
  have valued : ∀ p ∈ gallery.allProperties, p.Valued := by
    simp [gallery, allProperties, collect, collectAll, Property.Valued]
  have typed : ∀ p ∈ gallery.allProperties, ¬p.lacksType := by decide
  obtain ⟨script, ok⟩ : ∃ script, gallery.script = .ok script := by
    cases result : gallery.script with
    | error e =>
      obtain ⟨p, member, lacks⟩ := (gallery.refusedFor_script valued).error_iff.mp ⟨e, result⟩
      rw [mem_collect fun _ => ClassCore.mem_writtenProperties] at member
      exact absurd lacks (typed p member)
    | ok script => exact ⟨script, rfl⟩
  obtain ⟨⟨written, members, -⟩, sorted⟩ := script_members ok
  have properties : gallery.sortedProperties =
      [4, 3, 5, 2, 0, 1].filterMap (gallery.properties[·]?) := by
    simp [gallery, ClassCore.sortedProperties, PropertyOrder.sort, Text.stableSort, List.mergeSort]
  have constructors : gallery.sortedConstructors = gallery.constructors.reverse := by
    simp [gallery, ClassCore.sortedConstructors, List.mergeSort]
  have swapped : ClassCore.methodLe { name := "Open" } { name := "Close" } = false := by decide
  have methods : gallery.sortedMethods = gallery.methods.reverse := by
    simp [gallery, ClassCore.sortedMethods, List.mergeSort, swapped]
  refine ⟨script, ok, ⟨written, members⟩, sorted, ?_⟩
  simp only [Class.members, ClassCore.instanceConstants, ClassCore.staticConstants,
    ClassCore.propertiesOf, properties, constructors, methods]
  decide +kernel

end Class

end CSharpGen

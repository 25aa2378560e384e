import CSharpGen.Proofs.Writer.Follows
import CSharpGen.Script.Sections

/-!
# Separators of groups

Written groups are the texts of their items with separators between them: a newline between two
groups that have items, and between two items of a spaced group. When an item fails, its own text
with the separator before it is the last one (`Sections.body_writeGroups`).

What an item appends may depend on what was written before it. So the calls of the items are stated
as a chain (`Sections.Calls`): each item starts in the state that the one before it left behind, and
its text is what it appends to that state. The chain knows groups and flags only through the order
of the items and the separators between them, which the groups fix beforehand (`Sections.lineUp`).
-/

namespace CSharpGen

namespace Sections

variable {σ ε α : Type}

/-! ## The calls of items -/

/-- The items of a group in order, each with whether a blank line goes before it. -/
def lineUpItems (spacing : Spacing) : (separated : Bool) → List α → List (Bool × α)
  | _, [] => []
  | separated, item :: rest => (separated, item) :: lineUpItems spacing (spacing == .spaced) rest

/-- The items of all groups in order, each with whether a blank line goes before it. -/
def lineUp : (hadOutput : Bool) → List (Spacing × List α) → List (Bool × α)
  | _, [] => []
  | hadOutput, (spacing, items) :: rest =>
    lineUpItems spacing hadOutput items ++ lineUp (hadOutput || !items.isEmpty) rest

theorem length_lineUpItems (spacing : Spacing) (separated : Bool) (items : List α) :
    (lineUpItems spacing separated items).length = items.length := by
  induction items generalizing separated with
  | nil => rfl
  | cons item rest ih => rw [lineUpItems, List.length_cons, List.length_cons, ih]

/-- Items are lined up in their own order. -/
theorem map_snd_lineUpItems (spacing : Spacing) (separated : Bool) (items : List α) :
    (lineUpItems spacing separated items).map Prod.snd = items := by
  induction items generalizing separated with
  | nil => rfl
  | cons item rest ih => rw [lineUpItems, List.map_cons, ih]

/-- Where an item starts when the one before it ended in a state. -/
def start (blankLine : σ → σ) (separated : Bool) (s : σ) : σ :=
  if separated then blankLine s else s

/-- The calls of items from a state, with the text that each of them appends, the state that the
last one leaves behind, and its failure. The first item that fails is the last one called. -/
inductive Calls (text : σ → String) (blankLine : σ → σ) :
    List (Bool × Attempt σ ε) → σ → List String → σ → Option ε → Prop
  | done (s : σ) : Calls text blankLine [] s [] s none
  | next {separated : Bool} {item : Attempt σ ε} {rest : List (Bool × Attempt σ ε)}
      {s after last : σ} {t : String} {texts : List String} {failure : Option ε}
      (succeeds : item (start blankLine separated s) = (after, none))
      (appends : text after = text (start blankLine separated s) ++ t)
      (others : Calls text blankLine rest after texts last failure) :
      Calls text blankLine ((separated, item) :: rest) s (t :: texts) last failure
  | fail {separated : Bool} {item : Attempt σ ε} {rest : List (Bool × Attempt σ ε)} {s after : σ}
      {t : String} {reason : ε}
      (fails : item (start blankLine separated s) = (after, some reason))
      (appends : text after = text (start blankLine separated s) ++ t) :
      Calls text blankLine ((separated, item) :: rest) s [t] after (some reason)

section

variable {text : σ → String} {blankLine : σ → σ} {front items back : List (Bool × Attempt σ ε)}
  {s mid last last' : σ} {texts others : List String} {failure failure' : Option ε} {reason : ε}

/-- The calls of two lists of items compose when those of the first succeed. -/
theorem Calls.append (first : Calls text blankLine front s texts mid none)
    (second : Calls text blankLine back mid others last failure) :
    Calls text blankLine (front ++ back) s (texts ++ others) last failure := by
  generalize succeeded : none = outcome at first
  induction first with
  | done s => exact second
  | next succeeds appends _ ih => exact .next succeeds appends (ih second succeeded)
  | fail => cases succeeded

/-- After a failure the items behind are not called. -/
theorem Calls.stop (stopped : Calls text blankLine front s texts last (some reason))
    (back : List (Bool × Attempt σ ε)) :
    Calls text blankLine (front ++ back) s texts last (some reason) := by
  generalize failed : some reason = outcome at stopped ⊢
  induction stopped with
  | done s => cases failed
  | next succeeds appends _ ih => exact .next succeeds appends (ih failed)
  | fail fails appends => exact .fail fails appends

/-- The items and the state in which they start decide the texts and how the calls end. -/
theorem Calls.unique (calls : Calls text blankLine items s texts last failure)
    (again : Calls text blankLine items s others last' failure') :
    texts = others ∧ last = last' ∧ failure = failure' := by
  induction calls generalizing others with
  | done s =>
    cases again
    exact ⟨rfl, rfl, rfl⟩
  | next succeeds appends _ ih =>
    cases again with
    | next succeeds' appends' later =>
      obtain ⟨rfl, -⟩ := Prod.mk.inj (succeeds.symm.trans succeeds')
      obtain rfl := (String.append_right_inj _).mp (appends.symm.trans appends')
      obtain ⟨rfl, rfl, rfl⟩ := ih later
      exact ⟨rfl, rfl, rfl⟩
    | fail fails _ => cases succeeds.symm.trans fails
  | fail fails appends =>
    cases again with
    | next succeeds _ _ => cases fails.symm.trans succeeds
    | fail fails' appends' =>
      obtain ⟨rfl, sameReason⟩ := Prod.mk.inj (fails.symm.trans fails')
      obtain rfl := (String.append_right_inj _).mp (appends.symm.trans appends')
      exact ⟨rfl, rfl, sameReason⟩

/-- When no call fails, every item is called. -/
theorem Calls.length_of_none (calls : Calls text blankLine items s texts last failure)
    (succeeded : failure = none) : texts.length = items.length := by
  induction calls with
  | done s => rfl
  | next _ _ _ ih => rw [List.length_cons, List.length_cons, ih succeeded]
  | fail => cases succeeded

/-- The item that fails is the last one that has a text. -/
theorem Calls.exists_failing (calls : Calls text blankLine items s texts last failure)
    (failed : failure = some reason) : ∃ front separated item back s',
      items = front ++ (separated, item) :: back ∧ texts.length = front.length + 1 ∧
        item s' = (last, some reason) := by
  induction calls with
  | done s => cases failed
  | @next separated item _ _ _ _ _ _ _ _ _ _ ih =>
    obtain ⟨front, separated', failing, back, s', rfl, count, fails⟩ := ih failed
    exact ⟨(separated, item) :: front, separated', failing, back, s', rfl,
      congrArg (· + 1) count, fails⟩
  | fail fails _ =>
    cases failed
    exact ⟨[], _, _, _, _, rfl, rfl, fails⟩

end

/-! ## Texts with separators -/

/-- Texts of the first items, each behind the separator that its item has. -/
def behindSeparators : List (Bool × α) → List String → String
  | (separated, _) :: rest, t :: texts =>
    (if separated then "\n" else "") ++ t ++ behindSeparators rest texts
  | _, _ => ""

theorem behindSeparators_nil (items : List (Bool × α)) : behindSeparators items [] = "" := by
  cases items <;> rfl

/-- Texts behind their separators stand one part after the other. -/
theorem behindSeparators_append (front back : List (Bool × α)) (texts : List String) :
    behindSeparators (front ++ back) texts =
      behindSeparators front (texts.take front.length) ++
        behindSeparators back (texts.drop front.length) := by
  induction front generalizing texts with
  | nil => rfl
  | cons item front ih =>
    cases texts with
    | nil => simp only [List.take_nil, List.drop_nil, behindSeparators_nil, String.append_empty]
    | cons t texts =>
      rw [List.cons_append, List.length_cons, List.take_succ_cons, List.drop_succ_cons,
        behindSeparators, behindSeparators, ih]
      simp only [String.append_assoc]

/-- The calls append their texts behind the separators and nothing else. -/
theorem Calls.text_eq {text : σ → String} {blankLine : σ → σ}
    (blank : ∀ s, text (blankLine s) = text s ++ "\n") {items : List (Bool × Attempt σ ε)}
    {s last : σ} {texts : List String} {failure : Option ε}
    (calls : Calls text blankLine items s texts last failure) :
    text last = text s ++ behindSeparators items texts := by
  have started (separated : Bool) (s : σ) :
      text (start blankLine separated s) = text s ++ if separated then "\n" else "" := by
    cases separated with
    | false => exact String.append_empty.symm
    | true => exact blank s
  induction calls with
  | done s => exact String.append_empty.symm
  | next _ appends _ ih =>
    rw [ih, appends, started, behindSeparators]
    simp only [String.append_assoc]
  | fail _ appends =>
    rw [appends, started, behindSeparators, behindSeparators_nil, String.append_empty,
      String.append_assoc]

/-- Deals texts out to groups, to each as many as it has items. -/
def deal : List (Spacing × List α) → List String → List (Spacing × List String)
  | [], _ => []
  | (spacing, items) :: rest, texts =>
    (spacing, texts.take items.length) :: deal rest (texts.drop items.length)

/-- The text of a group. -/
def joinItems : Spacing → List String → String
  | .close, texts => String.join texts
  | .spaced, texts => "\n".intercalate texts

/-- The texts of the groups that have any. -/
def groupTexts : List (Spacing × List String) → List String
  | [] => []
  | (spacing, texts) :: rest =>
    if texts.isEmpty then groupTexts rest else joinItems spacing texts :: groupTexts rest

/-- The text of groups. -/
def joinGroups (groups : List (Spacing × List String)) : String :=
  "\n".intercalate (groupTexts groups)

/-- Texts with a separator before each of them. -/
def eachAfter (separator : String) (texts : List String) : String :=
  String.join (texts.map (separator ++ ·))

theorem intercalate_cons (separator t : String) (rest : List String) :
    separator.intercalate (t :: rest) = t ++ eachAfter separator rest := by
  induction rest generalizing t with
  | nil => simp [eachAfter]
  | cons u rest ih =>
    rw [String.intercalate_cons_cons, ih, eachAfter, eachAfter, List.map_cons, String.join_cons]
    simp only [String.append_assoc]

/-- What stands between two items of a group. -/
def gap : Spacing → String
  | .close => ""
  | .spaced => "\n"

theorem joinItems_cons (spacing : Spacing) (t : String) (rest : List String) :
    joinItems spacing (t :: rest) = t ++ eachAfter (gap spacing) rest := by
  cases spacing with
  | close => simp [joinItems, eachAfter, gap]
  | spaced => exact intercalate_cons "\n" t rest

/-- Behind the first item of a group the spacing alone decides. -/
theorem behindSeparators_later (spacing : Spacing) (items : List α) (texts : List String) :
    behindSeparators (lineUpItems spacing (spacing == .spaced) items) texts =
      eachAfter (gap spacing) (texts.take items.length) := by
  induction items generalizing texts with
  | nil => simp [lineUpItems, behindSeparators, eachAfter]
  | cons item rest ih =>
    cases texts with
    | nil => rw [behindSeparators_nil, List.take_nil, eachAfter, List.map_nil, String.join_nil]
    | cons t texts =>
      have separator : (if spacing == .spaced then "\n" else "") = gap spacing := by
        cases spacing <;> rfl
      rw [lineUpItems, behindSeparators, ih, separator, List.length_cons, List.take_succ_cons,
        eachAfter, eachAfter, List.map_cons, String.join_cons]

/-- The items of a group, joined by its spacing, behind a blank line when something was written
before the group. -/
theorem behindSeparators_first (spacing : Spacing) (separated : Bool) (item : α) (rest : List α)
    (t : String) (texts : List String) :
    behindSeparators (lineUpItems spacing separated (item :: rest)) (t :: texts) =
      (if separated then "\n" else "") ++ joinItems spacing (t :: texts.take rest.length) := by
  rw [lineUpItems, behindSeparators, behindSeparators_later, joinItems_cons, String.append_assoc]

/-- Texts with newlines between them, and before the first one when there was output. -/
def separated (hadOutput : Bool) (texts : List String) : String :=
  if hadOutput then eachAfter "\n" texts else "\n".intercalate texts

theorem separated_nil (hadOutput : Bool) : separated hadOutput [] = "" := by
  cases hadOutput <;> rfl

theorem separated_cons (hadOutput : Bool) (t : String) (rest : List String) :
    separated hadOutput (t :: rest) =
      (if hadOutput then "\n" else "") ++ t ++ separated true rest := by
  cases hadOutput with
  | true => simp [separated, eachAfter]
  | false => simpa [separated] using intercalate_cons "\n" t rest

theorem groupTexts_deal_nil (groups : List (Spacing × List α)) :
    groupTexts (deal groups []) = [] := by
  induction groups with
  | nil => rfl
  | cons group rest ih =>
    rw [deal, List.take_nil, List.drop_nil, groupTexts]
    exact ih

/-- In terms of groups: theirs are joined by newlines, wherever the texts end. -/
theorem behindSeparators_lineUp (hadOutput : Bool) (groups : List (Spacing × List α))
    (texts : List String) : behindSeparators (lineUp hadOutput groups) texts =
      separated hadOutput (groupTexts (deal groups texts)) := by
  induction groups generalizing hadOutput texts with
  | nil => exact (separated_nil hadOutput).symm
  | cons group rest ih =>
    obtain ⟨spacing, items⟩ := group
    rw [lineUp, behindSeparators_append, length_lineUpItems, ih, deal]
    cases items with
    | nil => simp [lineUpItems, behindSeparators, groupTexts]
    | cons item items =>
      cases texts with
      | nil =>
        rw [List.take_nil, List.drop_nil, behindSeparators_nil, groupTexts_deal_nil, groupTexts,
          List.isEmpty_nil, if_pos rfl, groupTexts_deal_nil, separated_nil, separated_nil,
          String.append_empty]
      | cons t texts =>
        have grouped : groupTexts
            ((spacing, t :: texts.take items.length) :: deal rest (texts.drop items.length)) =
            joinItems spacing (t :: texts.take items.length) ::
              groupTexts (deal rest (texts.drop items.length)) := rfl
        rw [List.length_cons, List.take_succ_cons, List.drop_succ_cons, behindSeparators_first,
          List.take_take, Nat.min_self, grouped, separated_cons, List.isEmpty_cons, Bool.not_false,
          Bool.or_true]

/-! ## Written groups -/

/-- The number of the items of groups. -/
def itemCount : List (Spacing × List α) → Nat
  | [] => 0
  | (_, items) :: rest => items.length + itemCount rest

/-- Whether a group has items. -/
def anyItems (groups : List (Spacing × List α)) : Bool := groups.any (!·.2.isEmpty)

/-- How the calls of the items of groups end, when so many were made. Output counts when its group
is complete. -/
structure Ends (hadOutput : Bool) (groups : List (Spacing × List (Attempt σ ε))) (count : Nat)
    (outcome : Outcome σ ε) : Prop where
  all : outcome.failure = none →
    count = itemCount groups ∧ outcome.hadOutput = (hadOutput || anyItems groups)
  stops : ∀ reason, outcome.failure = some reason → ∃ before spacing front item after rest s,
    groups = before ++ (spacing, front ++ item :: after) :: rest ∧
      count = itemCount before + front.length + 1 ∧ item s = (outcome.state, some reason) ∧
      outcome.hadOutput = (hadOutput || anyItems before)

section

variable {text : σ → String} {blankLine : σ → σ} {hadOutput : Bool} {spacing : Spacing}
  {items : List (Attempt σ ε)} {rest : List (Spacing × List (Attempt σ ε))}

/-- How a run of the later groups ends is how the run of all of them ends. -/
theorem Ends.behind {count : Nat} {outcome : Outcome σ ε}
    (ends : Ends (hadOutput || !items.isEmpty) rest count outcome) :
    Ends hadOutput ((spacing, items) :: rest) (items.length + count) outcome where
  all succeeds := by
    obtain ⟨rfl, output⟩ := ends.all succeeds
    exact ⟨rfl, output.trans (Bool.or_assoc _ _ _)⟩
  stops reason fails := by
    obtain ⟨before, failingSpacing, front, item, behind, others, s, rfl, rfl, failed, output⟩ :=
      ends.stops reason fails
    refine ⟨(spacing, items) :: before, failingSpacing, front, item, behind, others, s, rfl, ?_,
      failed, output.trans (Bool.or_assoc _ _ _)⟩
    rw [itemCount, Nat.add_assoc, Nat.add_assoc, Nat.add_assoc]

/-- An item of the first group fails. -/
theorem Calls.ends {separated : Bool} {s last : σ} {texts : List String} {reason : ε}
    (calls : Calls text blankLine (lineUpItems spacing separated items) s texts last (some reason)) :
    Ends hadOutput ((spacing, items) :: rest) texts.length ⟨last, hadOutput, some reason⟩ where
  all := nofun
  stops other fails := by
    obtain rfl := Option.some.inj fails
    obtain ⟨front, place, item, back, s', linedUp, count, failed⟩ := calls.exists_failing rfl
    have split : items = front.map Prod.snd ++ item :: back.map Prod.snd := by
      rw [← map_snd_lineUpItems spacing separated items, linedUp, List.map_append, List.map_cons]
    refine ⟨[], spacing, front.map Prod.snd, item, back.map Prod.snd, rest, s', ?_, ?_, failed, ?_⟩
    · rw [split, List.nil_append]
    · rw [count, itemCount, Nat.zero_add, List.length_map]
    · exact (Bool.or_false _).symm

end

/-- One group calls its items in order, up to the first that fails. -/
theorem writeItems_calls (text : σ → String) (blankLine : σ → σ) (spacing : Spacing)
    (hadOutput wroteAny : Bool) {items : List (Attempt σ ε)}
    (appends : ∀ item ∈ items, ∀ s, ∃ t, text (item s).1 = text s ++ t) (s : σ) :
    let result := writeItems blankLine spacing hadOutput wroteAny items s
    ∃ texts, Calls text blankLine
      (lineUpItems spacing (separates spacing hadOutput wroteAny) items) s texts result.1 result.2 := by
  -- on the items, for either flag: after the first item earlier groups do not matter any more
  induction items generalizing wroteAny s with
  | nil => exact ⟨[], .done s⟩
  | cons item rest ih =>
    obtain ⟨first, others⟩ := List.forall_mem_cons.mp appends
    obtain ⟨t, appended⟩ := first (start blankLine (separates spacing hadOutput wroteAny) s)
    intro result
    rcases outcome : item (start blankLine (separates spacing hadOutput wroteAny) s) with
      ⟨after, _ | reason⟩ <;> rw [outcome] at appended
    case none =>
      have called : result = writeItems blankLine spacing hadOutput true rest after :=
        writeItems_of_succeeds outcome rest
      obtain ⟨texts, later⟩ := ih true others after
      rw [called]
      exact ⟨t :: texts, .next outcome appended later⟩
    case some =>
      have stopped : result = (after, some reason) := writeItems_of_fails outcome rest
      rw [stopped]
      exact ⟨[t], .fail outcome appended⟩

/-- The groups call their items in order, up to the first that fails. -/
theorem writeGroups_calls (text : σ → String) (blankLine : σ → σ) (hadOutput : Bool)
    {groups : List (Spacing × List (Attempt σ ε))}
    (appends : ∀ group ∈ groups, ∀ item ∈ group.2, ∀ s, ∃ t, text (item s).1 = text s ++ t)
    (s : σ) :
    let outcome := writeGroups blankLine hadOutput groups s
    ∃ texts,
      Calls text blankLine (lineUp hadOutput groups) s texts outcome.state outcome.failure ∧
        Ends hadOutput groups texts.length outcome := by
  induction groups generalizing hadOutput s with
  | nil => exact ⟨[], .done s, fun _ => ⟨rfl, (Bool.or_false _).symm⟩, nofun⟩
  | cons group rest ih =>
    obtain ⟨spacing, items⟩ := group
    obtain ⟨first, others⟩ := List.forall_mem_cons.mp appends
    obtain ⟨own, calls⟩ := writeItems_calls text blankLine spacing hadOutput false first s
    intro outcome
    rcases written : writeItems blankLine spacing hadOutput false items s with
      ⟨after, _ | reason⟩ <;> rw [written] at calls
    case none =>
      have rest_eq : outcome = writeGroups blankLine (hadOutput || !items.isEmpty) rest after :=
        writeGroups_of_succeeds written rest
      have count : own.length = items.length :=
        (calls.length_of_none rfl).trans (length_lineUpItems _ _ _)
      obtain ⟨texts, later, ends⟩ := ih (hadOutput || !items.isEmpty) others after
      rw [rest_eq]
      refine ⟨own ++ texts, calls.append later, ?_⟩
      rw [List.length_append, count]
      exact ends.behind
    case some =>
      have stopped : outcome = ⟨after, hadOutput, some reason⟩ := writeGroups_of_fails written rest
      rw [stopped]
      exact ⟨own, calls.stop _, calls.ends⟩

/-- Groups call their items in order, up to the first that fails, and write the texts of these calls
with the separators between them and nothing else. Each item starts where the one before it ended,
behind the separator. Without a failure all items are called. Otherwise the text ends with that of
the item that fails, which the separator before it precedes, and no item behind it is called. The
groups had output if one of them had items and was complete. -/
theorem body_writeGroups {view : σ → Writer} {blankLine : σ → σ}
    (blank : ∀ s, view (blankLine s) = (view s).newLine)
    {groups : List (Spacing × List (Attempt σ ε))}
    (appends : ∀ group ∈ groups, ∀ item ∈ group.2, ∀ s, ∃ t,
      (view (item s).1).body = (view s).body ++ t) (s : σ) :
    let outcome := writeGroups blankLine false groups s
    ∃ texts,
      Calls (fun s => (view s).body) blankLine (lineUp false groups) s texts outcome.state
        outcome.failure ∧
      (view outcome.state).body = (view s).body ++ joinGroups (deal groups texts) ∧
      match outcome.failure with
      | none => texts.length = itemCount groups ∧ outcome.hadOutput = anyItems groups
      | some reason => ∃ before spacing front item after rest s',
        groups = before ++ (spacing, front ++ item :: after) :: rest ∧
          texts.length = itemCount before + front.length + 1 ∧
          item s' = (outcome.state, some reason) ∧ outcome.hadOutput = anyItems before := by
  intro outcome
  have newLine (s : σ) : (view (blankLine s)).body = (view s).body ++ "\n" :=
    (congrArg Writer.body (blank s)).trans (Writer.body_appendRaw (view s) "\n")
  obtain ⟨texts, calls, ends⟩ :=
    writeGroups_calls (fun s => (view s).body) blankLine false appends s
  refine ⟨texts, calls, ?_, ?_⟩
  · rw [calls.text_eq newLine, behindSeparators_lineUp]
    rfl
  · split
    · next succeeds => simpa using ends.all succeeds
    · next reason fails => simpa using ends.stops reason fails

/-- An item that writes a text and then succeeds or fails. -/
def writing (text : String) (failure : Option String) : Attempt Writer String := fun w =>
  (w.appendRaw text, failure)

/-- Constants, no fields, and methods of which the second fails in the middle of a line. -/
def failingGroups : List (Spacing × List (Attempt Writer String)) := [
  (.close, [writing "const A;\n" none, writing "const B;\n" none]),
  (.close, []),
  (.spaced, [writing "M() \x7b \x7d\n" none, writing "N()" (some "no body"),
    writing "O();\n" none])]

theorem appends_writing (text : String) (failure : Option String) (w : Writer) :
    ((writing text failure) w).1.body = w.body ++ text := Writer.body_appendRaw w text

theorem appends_failingGroups :
    ∀ group ∈ failingGroups, ∀ item ∈ group.2, ∀ w, ∃ t, (item w).1.body = w.body ++ t := by
  simp [failingGroups, appends_writing]

/-- The second method is the last item that is called. -/
theorem calls_failingGroups (w : Writer) : ∃ last,
    Calls Writer.body Writer.newLine (lineUp false failingGroups) w
      ["const A;\n", "const B;\n", "M() \x7b \x7d\n", "N()"] last (some "no body") :=
  ⟨_, .next rfl (appends_writing _ none _) <| .next rfl (appends_writing _ none _) <|
    .next rfl (appends_writing _ none _) <| .fail rfl (appends_writing _ (some "no body") _)⟩

theorem body_writeGroups_failingGroups :
    let outcome := writeGroups Writer.newLine false failingGroups (Writer.empty .spaces)
    outcome.state.body = "const A;\nconst B;\n\nM() \x7b \x7d\n\nN()" ∧
      outcome.failure = some "no body" ∧ outcome.hadOutput = true := by
  intro outcome
  have blank (w : Writer) : id (Writer.newLine w) = (id w).newLine := rfl
  have start : (Writer.empty .spaces).body = "" := by decide +kernel
  obtain ⟨texts, calls, written, ends⟩ :=
    body_writeGroups blank appends_failingGroups (Writer.empty .spaces)
  obtain ⟨last, expected⟩ := calls_failingGroups (Writer.empty .spaces)
  obtain ⟨rfl, -, failed⟩ := calls.unique expected
  have body : outcome.state.body = (Writer.empty .spaces).body ++ joinGroups (deal failingGroups
      ["const A;\n", "const B;\n", "M() \x7b \x7d\n", "N()"]) := written
  rw [start] at body
  refine ⟨body.trans (by decide +kernel), failed, ?_⟩
  -- four items were called, so the constants are complete
  rw [failed] at ends
  obtain ⟨before, spacing, front, item, after, rest, s, groups, count, -, output⟩ := ends
  cases before with
  | nil =>
    have constants := congrArg (·.2.length) (List.cons.inj groups).1
    simp only [List.length_append, List.length_cons, List.length_nil, itemCount] at constants count
    omega
  | cons group before =>
    obtain ⟨rfl, -⟩ := List.cons.inj groups
    exact output.trans rfl

end Sections

end CSharpGen

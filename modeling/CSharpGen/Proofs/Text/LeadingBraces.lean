import CSharpGen.Proofs.Text.LineEnds
import CSharpGen.Text.Blank

/-!
# Closing braces at the start of lines

A closing brace leads its line when nothing but blanks stands before it there. A text is followed
character by character with what is known of its last line: whether it is blank so far. This fails
at a brace that does not lead.
-/

namespace CSharpGen.Text

/-- Nothing but blanks stands before a closing brace of the line. -/
def BracesLeadLine (line : List Char) : Prop :=
  ∀ before after, line = before ++ '\x7d' :: after → ∀ c ∈ before, isBlank c = true

/-- Every closing brace is the first character of its line that is not blank. -/
def BracesLead (s : String) : Prop := ∀ line ∈ lines s, BracesLeadLine line.toList

/-- A text without closing braces. -/
def ClosingFree (s : String) : Prop := ∀ c ∈ s.toList, c ≠ '\x7d'

instance : DecidablePred ClosingFree := fun s => List.decidableBAll (· ≠ '\x7d') s.toList

/-! ## Following a text -/

/-- Whether the last line is still blank after one more character. -/
def leadStep (blank : Bool) (c : Char) : Option Bool :=
  if c = '\n' then some true
  else if c = '\x7d' then (if blank then some false else none)
  else some (blank && isBlank c)

/-- Whether the last line of a text is blank, from what stands before the text on its first line. -/
def leads? (blank : Bool) (s : String) : Option Bool := s.toList.foldlM leadStep blank

theorem leads?_append (blank : Bool) (s t : String) :
    leads? blank (s ++ t) = (leads? blank s).bind (leads? · t) := by
  simp [leads?, List.foldlM_append]

theorem isSome_leads?_of_closingFree {s : String} (free : ClosingFree s) (blank : Bool) :
    (leads? blank s).isSome := by
  unfold leads?
  unfold ClosingFree at free
  generalize s.toList = cs at free
  induction cs generalizing blank with
  | nil => rfl
  | cons c cs ih =>
    obtain ⟨own, others⟩ := List.forall_mem_cons.mp free
    obtain ⟨next, step⟩ : ∃ next, leadStep blank c = some next := by
      unfold leadStep
      rw [if_neg own]
      split <;> exact ⟨_, rfl⟩
    rw [List.foldlM_cons, step]
    exact ih next others

/-- Blanks leave a line blank. -/
theorem leads?_of_blank {s : String} (blank : ∀ c ∈ s.toList, isBlank c = true) :
    leads? true s = some true := by
  unfold leads?
  generalize s.toList = cs at blank
  induction cs with
  | nil => rfl
  | cons c cs ih =>
    obtain ⟨own, others⟩ := List.forall_mem_cons.mp blank
    have notBrace : c ≠ '\x7d' := by
      rintro rfl
      cases own
    have step : leadStep true c = some true := by simp [leadStep, notBrace, own]
    rw [List.foldlM_cons, step]
    exact ih others

/-- After the end of a line the next one is blank so far. -/
theorem leads?_of_endsLine {s : String} (ended : endsLine s = true) {blank after : Bool}
    (scanned : leads? blank s = some after) : after = true := by
  have last : s.toList.getLast? = some '\n' := by simpa [endsLine] using ended
  obtain ⟨start, split⟩ := List.getLast?_eq_some_iff.mp last
  rw [leads?, split, List.foldlM_append] at scanned
  obtain ⟨middle, -, step⟩ := Option.bind_eq_some_iff.mp scanned
  exact (Option.some.inj step).symm

/-! ## Texts piece by piece -/

/-- The braces of a text lead after any text, or after any that ends a line if `ended` holds. -/
def LeadsAfter (ended : Prop) (s : String) : Prop :=
  ∀ blank, (ended → blank = true) → (leads? blank s).isSome

theorem leadsAfter_empty (ended : Prop) : LeadsAfter ended "" := fun _ _ => rfl

theorem leadsAfter_of_closingFree {s : String} (free : ClosingFree s) (ended : Prop) :
    LeadsAfter ended s := fun blank _ => isSome_leads?_of_closingFree free blank

/-- A text may need the end of a line before it when the text before it provides that. -/
theorem LeadsAfter.append {before ended : Prop} {s t : String} (first : LeadsAfter before s)
    (second : LeadsAfter ended t) (ends : ended → endsLine s = true ∨ s = "" ∧ before) :
    LeadsAfter before (s ++ t) := by
  intro blank known
  obtain ⟨after, scanned⟩ := Option.isSome_iff_exists.mp (first blank known)
  rw [leads?_append, scanned]
  refine second after fun holds => ?_
  rcases ends holds with ended | ⟨rfl, holds⟩
  · exact leads?_of_endsLine ended scanned
  · exact (Option.some.inj scanned).symm.trans (known holds)

/-! ## Lines -/

/-- One more character before a line whose braces lead: a blank, if a brace follows. -/
theorem bracesLeadLine_cons {c : Char} {line : List Char} (h : BracesLeadLine line)
    (blank : '\x7d' ∈ line → isBlank c = true) : BracesLeadLine (c :: line) := by
  intro before after split
  cases before with
  | nil => exact List.forall_mem_nil _
  | cons d before =>
    obtain ⟨rfl, remaining⟩ := List.cons.inj split
    have follows : '\x7d' ∈ line := by simp [remaining]
    exact List.forall_mem_cons.mpr ⟨blank follows, h before after remaining⟩

/-- What the scan says about the lines of a text: their braces lead, and the first line has none
when it does not start blank. -/
theorem bracesLead_of_foldlM {cs : List Char} {blank : Bool}
    (h : (cs.foldlM leadStep blank).isSome) :
    (∀ line ∈ lineChars cs, BracesLeadLine line) ∧
      (blank = false → ∀ first ∈ (lineChars cs).head?, '\x7d' ∉ first) := by
  have none : BracesLeadLine [] := fun before after split => absurd split (by simp)
  fun_induction lineChars cs generalizing blank with
  | case1 => exact ⟨List.forall_mem_nil _, fun _ first isFirst => by cases isFirst⟩
  | case2 cs ih =>
    have next : (cs.foldlM leadStep true).isSome := by simpa [List.foldlM_cons, leadStep] using h
    exact ⟨List.forall_mem_cons.mpr ⟨none, (ih next).1⟩, by simp⟩
  | case3 cs ih =>
    have next : (cs.foldlM leadStep true).isSome := by simpa [List.foldlM_cons, leadStep] using h
    exact ⟨List.forall_mem_cons.mpr ⟨none, (ih next).1⟩, by simp⟩
  | case4 c cs _ _ last =>
    obtain rfl : cs = [] := lineChars_eq_nil_iff.mp last
    refine ⟨List.forall_mem_singleton.mpr (bracesLeadLine_cons none (by simp)), ?_⟩
    rintro rfl first ⟨⟩ member
    obtain rfl : '\x7d' = c := by simpa using member
    cases h
  | case5 c cs notEnd _ first rest eq ih =>
    rw [List.foldlM_cons] at h
    cases step : leadStep blank c with
    | none =>
      rw [step] at h
      cases h
    | some next =>
      rw [step] at h
      obtain ⟨all, noBrace⟩ := ih h
      rw [eq] at all noBrace
      obtain ⟨own, others⟩ := List.forall_mem_cons.mp all
      rw [leadStep, if_neg notEnd] at step
      by_cases brace : c = '\x7d'
      · -- a brace on a line that is blank so far, with no other brace after it
        rw [if_pos brace] at step
        cases blank with
        | false => cases step
        | true =>
          obtain rfl := Option.some.inj step
          have alone := noBrace rfl first rfl
          exact ⟨List.forall_mem_cons.mpr
            ⟨bracesLeadLine_cons own fun member => absurd member alone, others⟩, by simp⟩
      · rw [if_neg brace] at step
        have still : '\x7d' ∈ first → (blank && isBlank c) = true := by
          intro member
          cases after : blank && isBlank c with
          | true => rfl
          | false => exact absurd member (noBrace (by rw [← Option.some.inj step, after]) first rfl)
        refine ⟨List.forall_mem_cons.mpr ⟨bracesLeadLine_cons own fun member =>
          (Bool.and_eq_true_iff.mp (still member)).2, others⟩, ?_⟩
        rintro rfl line ⟨⟩ member
        rcases List.mem_cons.mp member with same | member
        · exact brace same.symm
        · exact absurd (still member) (by simp)

theorem LeadsAfter.bracesLead {ended : Prop} {s : String} (h : LeadsAfter ended s) :
    BracesLead s := by
  intro line isLine
  obtain ⟨chars, isChars, rfl⟩ := List.mem_map.mp isLine
  rw [String.toList_ofList]
  exact (bracesLead_of_foldlM (h true fun _ => rfl)).1 chars isChars

end CSharpGen.Text

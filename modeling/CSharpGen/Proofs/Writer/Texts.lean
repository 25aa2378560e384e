import CSharpGen.Proofs.Writer.OwnText

/-!
# Texts that writers put together

Writers put texts behind each other and add line ends and closing braces. A property that all of
these keep holds of whatever a tree renders, provided that the texts which calls write have it
(`texts_render`, `texts_invariant`).
-/

namespace CSharpGen

/-- A property of texts that joining keeps, and that line ends and lines of closing braces have. -/
structure Text.Joins (P : String → Prop) : Prop where
  empty : P ""
  newline : P "\n"
  brace : ∀ (style : Indent) (n : Nat), P (style.levels n ++ "\x7d\n")
  append : ∀ {s t : String}, P s → P t → P (s ++ t)

/-- What allowed calls write has the property. -/
structure Call.Writes (P : String → Prop) (allowed : Call → Prop) : Prop where
  written : ∀ (w : Writer) (op : Op), allowed (.op op) → P (w.written op)
  opening : ∀ (w : Writer) (c : Call) (header : String) (constraints : List String), allowed c →
    c.texts = header :: constraints → P (w.opening header constraints)

variable {P : String → Prop}

namespace Text.Joins

variable (joins : Joins P)

include joins

theorem join {texts : List String} (h : ∀ t ∈ texts, P t) : P (String.join texts) := by
  induction texts with
  | nil => exact joins.empty
  | cons t rest ih =>
    rw [String.join_cons]
    exact joins.append (h t List.mem_cons_self)
      (ih fun u member => h u (List.mem_cons_of_mem t member))

theorem headLines (w : Writer) {texts : List String}
    (lines : ∀ text ∈ texts, P (w.indented text ++ "\n")) : P (w.headLines texts) := by
  refine joins.join fun line member => ?_
  obtain ⟨text, given, rfl⟩ := List.mem_map.mp member
  exact lines text (List.mem_filter.mp given).1

theorem finishLine {s : String} (h : P s) : P (Text.finishLine s) := by
  rw [finishLine_eq]
  split
  · exact joins.append h joins.newline
  · exact joins.append h joins.empty

theorem closingLines (style : Indent) (level n : Nat) : P (Cursor.closingLines style level n) := by
  induction n with
  | zero => exact joins.empty
  | succ n ih => exact joins.append (joins.brace style (level + n)) ih

theorem closing (w : Writer) : P w.closing := by
  refine joins.append ?_ (joins.brace w.style _)
  split
  · exact joins.newline
  · exact joins.empty

end Text.Joins

namespace Writer

/-- Everything that was written to the writer itself has the property. -/
def Texts (P : String → Prop) (w : Writer) : Prop :=
  P w.buffer ∧ ∀ text, Segment.text text ∈ w.segments → P text

variable {allowed : Call → Prop} {w : Writer}

/-! ## What calls keep -/

/-- Only the own texts count, so a sub-writer may be replaced by any other. -/
theorem texts_setSub (h : w.Texts P) (i : Nat) (new : Writer) : (w.setSub i new).Texts P := by
  refine ⟨h.1, fun text member => ?_⟩
  rcases List.mem_or_eq_of_mem_set member with old | new
  · exact h.2 text old
  · cases new

section Joins

variable (joins : Text.Joins P)

include joins

theorem texts_appendRaw (h : w.Texts P) {s : String} (ok : P s) : (w.appendRaw s).Texts P :=
  ⟨joins.append h.1 ok, h.2⟩

theorem texts_openBlock (h : w.Texts P) {header : String} {constraints : List String}
    (ok : P (w.opening header constraints)) : (w.openBlock header constraints).1.Texts P := by
  rw [openBlock_eq]
  exact texts_appendRaw joins h ok

/-- What closes a block is a text of the kind. -/
theorem texts_endBlock (h : w.Texts P) : w.endBlock.Texts P := by
  cases opened : w.openBlocks with
  | nil => rwa [endBlock_nil opened]
  | cons id outer =>
    rw [endBlock_cons opened]
    exact texts_appendRaw (w := { w with openBlocks := outer }) joins h (joins.closing _)

theorem texts_flush (h : w.Texts P) : w.flush.Texts P := by
  unfold flush
  split
  · exact h
  · refine ⟨joins.empty, fun text member => ?_⟩
    rcases List.mem_append.mp member with old | new
    · exact h.2 text old
    · cases List.mem_singleton.mp new
      exact h.1

/-- A reservation moves the buffer to a segment and adds no text of its own. -/
theorem texts_reserve (h : w.Texts P) (header : Option String) :
    (w.reserve header).1.Texts P := by
  obtain ⟨buffer, segments⟩ := texts_flush joins h
  refine ⟨buffer, fun text member => ?_⟩
  rw [reserve_fst] at member
  rcases List.mem_append.mp member with old | new
  · exact segments text old
  · cases List.mem_singleton.mp new

theorem texts_fresh (buffer : w.buffer = "") (segments : w.segments = []) : w.Texts P :=
  ⟨buffer ▸ joins.empty, by simp [segments]⟩

theorem texts_child (w : Writer) {header : Option String}
    (opening : ∀ (v : Writer), ∀ text ∈ header, P (v.opening text [])) :
    (w.child header).Texts P := by
  cases header with
  | none => exact texts_fresh joins rfl rfl
  | some text => exact texts_openBlock joins (texts_fresh joins rfl rfl) (opening _ text rfl)

/-- Allowed calls keep the texts of a tree as the property says. -/
theorem texts_invariant (writes : Call.Writes P allowed) : Invariant (Texts P) allowed where
  call w c ok h := by
    cases c with
    | op op =>
      rcases apply_cases op with plain | (rfl | rfl) | ⟨header, rfl⟩ | rfl
      · rw [call, plain]
        exact texts_appendRaw joins h.here (writes.written w op ok)
      · exact h.here
      · exact h.here
      · exact texts_openBlock joins h.here (writes.opening w _ header [] ok rfl)
      · exact texts_endBlock joins h.here
    | openBlock header constraints =>
      exact texts_openBlock joins h.here (writes.opening w _ header constraints ok rfl)
    | closeBlock id =>
      exact closeBlock_keeps (Q := Texts P) (fun _ => texts_endBlock joins) h.here id
    | reserve header => exact texts_reserve joins h.here header
  child w header ok _ := texts_child joins w fun v text given =>
    writes.opening v _ text [] ok (by rw [Option.mem_def.mp given]; rfl)
  setSub _ i _ new _ h := texts_setSub h i new

/-! ## What rendering keeps -/

/-- The own texts of a writer joined to one are of the kind again. -/
theorem texts_joined (h : w.Texts P) : P (String.join (w.segments.map Segment.ownText)) := by
  refine joins.join fun text member => ?_
  obtain ⟨s, inSegments, rfl⟩ := List.mem_map.mp member
  cases s with
  | text content => exact h.2 content inSegments
  | nested => exact joins.empty

theorem texts_ownText (h : w.Texts P) : P w.ownText := joins.append (texts_joined joins h) h.1

theorem texts_subs (here : w.Texts P)
    (subs : ∀ i sub, w.sub? i = some sub → ∀ out, P out → P (sub.renderAfter out)) {out : String}
    (ok : P out) : P (Segment.renderAllAfter w.segments out) := by
  have each : ∀ s ∈ w.segments, ∀ out, P out → P (s.renderAfter out) := by
    intro s member out ok
    rcases segment_cases member with ⟨text, rfl⟩ | ⟨i, sub, found, rfl⟩
    · exact joins.append ok (here.2 text member)
    · exact subs i sub found out ok
  clear here subs
  generalize w.segments = segments at each
  induction segments generalizing out with
  | nil => exact ok
  | cons s rest ih =>
    exact ih (each s List.mem_cons_self out ok)
      fun t member => each t (List.mem_cons_of_mem s member)

/-- A tree in which every own text is of the kind renders a text of the kind. -/
theorem texts_renderAfter (h : Everywhere (Texts P) w) {out : String} (ok : P out) :
    P (w.renderAfter out) := by
  induction h generalizing out with
  | intro w here _ ih =>
    have segments := texts_subs joins here (fun i sub found _ => ih i sub found) ok
    have body := joins.append segments here.1
    unfold renderAfter Cursor.closeAfter
    split
    · exact body
    · exact joins.append (joins.finishLine body) (joins.closingLines _ _ _)

theorem texts_render (h : Everywhere (Texts P) w) : P w.render :=
  texts_renderAfter joins h joins.empty

theorem texts_segments (h : Everywhere (Texts P) w) {out : String} (ok : P out) :
    P (Segment.renderAllAfter w.segments out) :=
  texts_subs joins h.here (fun _ _ found _ => texts_renderAfter joins (h.sub found)) ok

theorem texts_body (h : Everywhere (Texts P) w) : P w.body :=
  joins.append (texts_segments joins h joins.empty) h.here.1

/-- What allowed calls make of an empty tree renders as the property says, whichever of its writers
is asked. -/
theorem texts_run (writes : Call.Writes P allowed) (style : Indent) {actions : List Action}
    (ok : ∀ a ∈ actions, allowed a.call) {path : List Nat} {x : Writer}
    (reached : at? path ((empty style).run actions) = some x) : P x.render := by
  have fresh : Everywhere (Texts P) (empty style) :=
    everywhere_of_segments_nil (texts_fresh joins rfl rfl) rfl
  have every := (texts_invariant joins writes).run ok fresh
  exact texts_render joins (every.at? reached)

end Joins

end Writer

end CSharpGen

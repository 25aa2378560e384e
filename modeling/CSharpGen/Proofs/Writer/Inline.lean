import CSharpGen.Proofs.Writer.Follows

/-!
# Sub-writers and inline blocks

A sub-writer with a header renders as a block with that header which is written in its place, and a
sub-writer without a header as calls on the writer itself (`render_reserveFilled_eq_inline`).

The two programs go through different states. As long as the body runs, the writer of the block has
what the sub-writer has, after the text and on top of the blocks that were there before, and the
numbers of its blocks are shifted. Afterwards the two writers have the same text and the same open
blocks, but later blocks have shifted numbers again. Both are cases of `Follows`.
-/

namespace CSharpGen

namespace Writer

/-- Calls that close only blocks which they opened, and that give back the extra indent. -/
structure Contained (w : Writer) (body : List Call) : Prop where
  keepsBlocks : ∀ n ≤ body.length, w.openBlocks <:+ (w.perform (body.take n)).openBlocks
  extraIndent : (w.perform body).extraIndent = w.extraIndent

instance (w : Writer) (body : List Call) : Decidable (w.Contained body) :=
  decidable_of_iff
    ((∀ n ≤ body.length, w.openBlocks <:+ (w.perform (body.take n)).openBlocks) ∧
      (w.perform body).extraIndent = w.extraIndent)
    ⟨fun ⟨blocks, extra⟩ => ⟨blocks, extra⟩, fun ⟨blocks, extra⟩ => ⟨blocks, extra⟩⟩

/-- What is written inside a block whose guard is released afterwards, or without a header straight
to the writer. -/
def inline (header : Option String) (fill : Writer → Writer) (w : Writer) : Writer :=
  match header with
  | none => fill w
  | some text =>
    let (opened, id) := w.openBlock text []
    (fill opened).closeBlock id

theorem inline_some (text : String) (fill : Writer → Writer) (w : Writer) :
    inline (some text) fill w = (fill (w.openBlock text []).1).closeBlock w.nextBlock := by
  rw [inline, openBlock_eq]

/-! ## The body -/

/-- What a writer has and a sub-writer reserved in it has not. -/
def leadOverSub (w : Writer) (numbered : w.Numbered) : Lead where
  text := w.body
  below := w.openBlocks
  start := 0
  shift := w.nextBlock
  apart n member := by
    have early := numbered.lt member
    rw [if_neg (Nat.not_lt_zero n)] at early
    omega

theorem leadOverSub_number {w : Writer} (numbered : w.Numbered) (n : Nat) :
    (w.leadOverSub numbered).number n = n + w.nextBlock :=
  Lead.number_of_le (Nat.zero_le n)

/-- A writer for a part at this place starts where the writer itself stands, without open blocks of
its own. -/
theorem follows_child {w : Writer} (numbered : w.Numbered) :
    Follows (w.leadOverSub numbered) (w.child none) w where
  style := rfl
  extraIndent := rfl
  baseDepth := rfl
  body := (String.append_empty).symm
  openBlocks := rfl
  nextBlock := by
    rw [leadOverSub_number]
    exact (Nat.zero_add _).symm
  started := Nat.zero_le _

variable {w : Writer} {body : List Call}

/-- What all calls keep throughout a tree, performing calls on one writer keeps. -/
theorem perform_everywhere {P : Writer → Prop} (inv : Invariant P fun _ => True)
    (h : Everywhere P w) (calls : List Call) : Everywhere P (w.perform calls) :=
  Guarded.run_everywhere (g := ⟨w, []⟩) inv h calls

theorem perform_base (w : Writer) (calls : List Call) :
    (w.perform calls).style = w.style ∧ (w.perform calls).baseDepth = w.baseDepth :=
  Guarded.run_keeps (Q := fun v => v.style = w.style ∧ v.baseDepth = w.baseDepth) (g := ⟨w, []⟩)
    (fun v c same => ⟨(call_base v c).1.trans same.1, (call_base v c).2.trans same.2⟩)
    ⟨rfl, rfl⟩ calls

/-- The body on a writer follows the body on another one, when it leaves open what was open. -/
theorem Follows.perform {l : Lead} {inner outer : Writer} (f : Follows l inner outer)
    (innerGrounded : Everywhere Grounded inner) (outerGrounded : Everywhere Grounded outer)
    (contained : outer.Contained body) (below : l.below <:+ outer.openBlocks) :
    Follows l (inner.perform body) (outer.perform body) := by
  have start : Guarded.Follows l ⟨inner, []⟩ ⟨outer, []⟩ := ⟨f, rfl, innerGrounded, outerGrounded⟩
  exact (start.run body fun n bound => below.trans (contained.keepsBlocks n bound)).writer

/-! ## After the body -/

/-- Blocks that are opened after a body with `shift` blocks are the only difference. -/
def leadAfter (w : Writer) (shift : Nat) : Lead where
  text := ""
  below := []
  start := w.nextBlock
  shift
  apart _ := List.not_mem_nil

/-- When all blocks of the body are closed, the writer follows the one that reserved it. -/
theorem Follows.after {header : Option String} {fill : Writer → Writer} {closed outer : Writer}
    {numbered : w.Numbered} (f : Follows (w.leadOverSub numbered) closed outer)
    (grounded : Everywhere Grounded (fill (w.child header)))
    (rendered : (fill (w.child header)).render = closed.render)
    (blocks : outer.openBlocks = w.openBlocks)
    (base : outer.style = w.style ∧ outer.baseDepth = w.baseDepth)
    (extraIndent : outer.extraIndent = w.extraIndent) :
    Follows (w.leadAfter closed.nextBlock) (reserveFilled header fill w) outer := by
  have allClosed : closed.openBlocks = [] := by
    have still := f.openBlocks
    rw [blocks] at still
    exact List.map_eq_nil_iff.mp (List.self_eq_append_left.mp still)
  have early : w.openBlocks.map (w.leadAfter closed.nextBlock).number = w.openBlocks :=
    Lead.map_number_of_lt fun _ opened => numbered.lt opened
  exact {
    style := by rw [reserveFilled_toCursor, base.1]
    extraIndent := by rw [reserveFilled_toCursor, extraIndent]
    baseDepth := by rw [reserveFilled_toCursor, base.2, leadAfter, List.length_nil, Nat.add_zero]
    body := by
      rw [body_reserveFilled grounded, rendered, render_eq_body allClosed, f.body, leadAfter,
        String.empty_append, leadOverSub]
    openBlocks := by
      rw [reserveFilled_toCursor, early, leadAfter, List.append_nil, blocks]
    nextBlock := by
      have late : (w.leadAfter closed.nextBlock).start ≤ w.nextBlock := Nat.le_refl _
      rw [reserveFilled_nextBlock, Lead.number_of_le late, f.nextBlock, leadOverSub_number,
        Nat.add_comm, leadAfter]
    started := Nat.le_of_eq (reserveFilled_nextBlock header fill w).symm }

theorem closeBlock_extraIndent (w : Writer) (id : Nat) :
    (w.closeBlock id).extraIndent = w.extraIndent := by
  refine closeBlock_keeps (Q := fun v => v.extraIndent = w.extraIndent) (fun v same => ?_) rfl id
  cases opened : v.openBlocks with
  | nil => rwa [endBlock_nil opened]
  | cons id outer =>
    rw [endBlock_cons opened]
    exact same

/-- The two programs after a body without a header. -/
theorem follows_inline_none (grounded : Everywhere Grounded w) (numbered : w.Numbered)
    (contained : w.Contained body) (closed : (w.perform body).openBlocks = w.openBlocks) :
    ∃ shift, Follows (w.leadAfter shift) (reserveFilled none (·.perform body) w)
      (inline none (·.perform body) w) := by
  have child : Everywhere Grounded (w.child none) :=
    everywhere_of_segments_nil (grounded_child w none) (child_segments w none)
  have performed : Follows (w.leadOverSub numbered) ((w.child none).perform body)
      (w.perform body) :=
    (follows_child numbered).perform child grounded contained (List.suffix_refl _)
  exact ⟨_, performed.after (perform_everywhere grounded_invariant child body) rfl closed
    (w.perform_base body) contained.extraIndent⟩

/-- The two programs after a body with a header, when the guard of the block is released. -/
theorem follows_inline_some (grounded : Everywhere Grounded w) (numbered : Everywhere Numbered w)
    (text : String) (contained : (w.openBlock text []).1.Contained body) :
    ∃ shift, Follows (w.leadAfter shift) (reserveFilled (some text) (·.perform body) w)
      (inline (some text) (·.perform body) w) := by
  let sub := w.child (some text)
  let opened := (w.openBlock text []).1
  have subGrounded : Everywhere Grounded sub :=
    everywhere_of_segments_nil (grounded_child w (some text)) (child_segments w (some text))
  have openedGrounded : Everywhere Grounded opened :=
    grounded_invariant.everywhere_call (c := .openBlock text []) trivial grounded
  have openedNumbered : Everywhere Numbered opened :=
    numbered_invariant.everywhere_call (c := .openBlock text []) trivial numbered
  have blocks : opened.openBlocks = w.nextBlock :: w.openBlocks := openBlock_openBlocks w text []
  have performed : Follows (w.leadOverSub numbered.here) (sub.perform body)
      (opened.perform body) :=
    ((follows_child numbered.here).openBlock text []).perform subGrounded openedGrounded contained
      (blocks ▸ List.suffix_cons _ _)
  have subAfter := perform_everywhere grounded_invariant subGrounded body
  have released : Follows (w.leadOverSub numbered.here) ((sub.perform body).closeBlock 0)
      ((opened.perform body).closeBlock w.nextBlock) := by
    have closed := performed.closeBlock subAfter
      (perform_everywhere grounded_invariant openedGrounded body) 0
    rwa [leadOverSub_number, Nat.zero_add] at closed
  have outerBlocks : ((opened.perform body).closeBlock w.nextBlock).openBlocks = w.openBlocks := by
    obtain ⟨inside, eq⟩ := contained.keepsBlocks body.length (Nat.le_refl _)
    rw [List.take_length, show (w.openBlock text []).1.openBlocks = _ from blocks] at eq
    have descending := (perform_everywhere numbered_invariant openedNumbered body).here
    rw [Numbered, ← eq, List.pairwise_cons, List.pairwise_append] at descending
    refine closeBlock_openBlocks eq.symm fun member => ?_
    exact Nat.lt_irrefl _ (descending.2.2.2 _ member _ List.mem_cons_self)
  have base : ((opened.perform body).closeBlock w.nextBlock).style = w.style ∧
      ((opened.perform body).closeBlock w.nextBlock).baseDepth = w.baseDepth := by
    have first := call_base w (.openBlock text [])
    have second := opened.perform_base body
    have third := call_base (opened.perform body) (.closeBlock w.nextBlock)
    exact ⟨third.1.trans (second.1.trans first.1), third.2.trans (second.2.trans first.2)⟩
  have extraIndent : ((opened.perform body).closeBlock w.nextBlock).extraIndent =
      w.extraIndent := by
    rw [closeBlock_extraIndent, contained.extraIndent, openBlock_eq]
    rfl
  have rendered : (sub.perform body).render = ((sub.perform body).closeBlock 0).render :=
    (renderAfter_call subAfter (c := .closeBlock 0) trivial "").symm
  rw [inline_some]
  exact ⟨_, released.after subAfter rendered outerBlocks base extraIndent⟩

/-! ## The rest of the program -/

/-- What all calls keep, filling a reserved part keeps. -/
theorem Invariant.reserveFilled {P : Writer → Prop} (inv : Invariant P fun _ => True)
    (h : Everywhere P w) {header : Option String} {fill : Writer → Writer}
    (filled : Everywhere P (fill (w.child header))) :
    Everywhere P (Writer.reserveFilled header fill w) := by
  have reserved := inv.everywhere_call (c := .reserve header) trivial h
  have here := inv.setSub _ _ _ (fill (w.child header)) (sub?_reserve_self w header) reserved.here
  exact everywhere_setSub reserved here filled

/-- Two writers that agree up to the place of a part render alike after the same calls, through
their guards as well. -/
theorem render_run_of_follows {shift : Nat} {reserved inlined : Writer}
    (f : Follows (w.leadAfter shift) reserved inlined)
    (reservedGrounded : Everywhere Grounded reserved)
    (inlinedGrounded : Everywhere Grounded inlined) {held : List Nat}
    (early : ∀ id ∈ held, id < w.nextBlock) (later : List Call) :
    ((⟨reserved, held⟩ : Guarded).run later).writer.render =
      ((⟨inlined, held⟩ : Guarded).run later).writer.render := by
  have same : held = held.map (w.leadAfter shift).number :=
    (Lead.map_number_of_lt early).symm
  have start : Guarded.Follows (w.leadAfter shift) ⟨reserved, held⟩ ⟨inlined, held⟩ :=
    ⟨f, same, reservedGrounded, inlinedGrounded⟩
  exact (start.run later fun _ _ => List.nil_suffix).render_eq rfl rfl

/-- A sub-writer renders like an inline block. A body that is written to a sub-writer gives the same
text as the body inside a block with the header, whatever the program writes before and after, and
a body without a header the same text as the body on the writer itself. The guards that the program
holds may be released later. -/
theorem render_reserveFilled_eq_inline (style : Indent) (actions : List Action) {path : List Nat}
    {w : Writer} (reached : at? path ((Writer.empty style).run actions) = some w)
    (held : List Nat) (given : ∀ id ∈ held, id < w.nextBlock) (body later : List Call) :
    (∀ header, (w.openBlock header []).1.Contained body →
      ((⟨reserveFilled (some header) (·.perform body) w, held⟩ : Guarded).run later).writer.render =
        ((⟨inline (some header) (·.perform body) w, held⟩ : Guarded).run later).writer.render) ∧
    (w.Contained body → (w.perform body).openBlocks = w.openBlocks →
      ((⟨reserveFilled none (·.perform body) w, held⟩ : Guarded).run later).writer.render =
        ((⟨inline none (·.perform body) w, held⟩ : Guarded).run later).writer.render) := by
  have grounded : Everywhere Grounded w := (grounded_run style actions).at? reached
  have numbered : Everywhere Numbered w := (numbered_run style actions).at? reached
  have filled (header : Option String) :
      Everywhere Grounded (reserveFilled header (·.perform body) w) :=
    grounded_invariant.reserveFilled grounded (perform_everywhere grounded_invariant
      (everywhere_of_segments_nil (grounded_child w header) (child_segments w header)) body)
  constructor
  · intro header contained
    have opened := grounded_invariant.everywhere_call (c := .openBlock header []) trivial grounded
    have closed := grounded_invariant.everywhere_call (c := .closeBlock w.nextBlock) trivial
      (perform_everywhere grounded_invariant opened body)
    obtain ⟨_, follows⟩ := follows_inline_some grounded numbered header contained
    exact render_run_of_follows follows (filled _) (inline_some header _ w ▸ closed) given later
  · intro contained allClosed
    obtain ⟨_, follows⟩ := follows_inline_none grounded numbered.here contained allClosed
    exact render_run_of_follows follows (filled _)
      (perform_everywhere grounded_invariant grounded body) given later

/-- A program in the middle of a line, inside a block whose guard it holds. -/
def midLine : List Action := [⟨[], .openBlock "class Counter" []⟩, ⟨[], .op (.append "int")⟩]

/-- A block with a guard that is released, and an unfinished deeper line. -/
def countingBody : List Call := [
  .openBlock "while (true)" [], .op (.beginBlock ""), .op (.append "Step();"), .closeBlock 0,
  .op .increaseIndent, .op (.append "return;"), .op .decreaseIndent]

/-- The writer of that program. -/
def midLineWriter : Writer := (Writer.empty .tabs).run midLine

theorem render_reserveFilled_eq_inline_midLine :
    at? [] ((Writer.empty .tabs).run midLine) = some midLineWriter ∧
      (∀ id ∈ [0], id < midLineWriter.nextBlock) ∧
      (midLineWriter.openBlock "void Run()" []).1.Contained countingBody ∧
      midLineWriter.Contained countingBody ∧
      (midLineWriter.perform countingBody).openBlocks = midLineWriter.openBlocks ∧
      ((⟨reserveFilled (some "void Run()") (·.perform countingBody) midLineWriter, [0]⟩ :
          Guarded).run [.op .endBlock, .closeBlock 0]).writer.render =
        ((⟨inline (some "void Run()") (·.perform countingBody) midLineWriter, [0]⟩ :
          Guarded).run [.op .endBlock, .closeBlock 0]).writer.render ∧
      ((⟨reserveFilled none (·.perform countingBody) midLineWriter, [0]⟩ :
          Guarded).run [.op .endBlock, .closeBlock 0]).writer.render =
        ((⟨inline none (·.perform countingBody) midLineWriter, [0]⟩ :
          Guarded).run [.op .endBlock, .closeBlock 0]).writer.render := by
  have given : ∀ id ∈ [0], id < midLineWriter.nextBlock := by decide +kernel
  have block : (midLineWriter.openBlock "void Run()" []).1.Contained countingBody := by
    decide +kernel
  have contained : midLineWriter.Contained countingBody := by decide +kernel
  have closed : (midLineWriter.perform countingBody).openBlocks = midLineWriter.openBlocks := by
    decide +kernel
  have reached : at? [] ((Writer.empty .tabs).run midLine) = some midLineWriter := rfl
  obtain ⟨some, none⟩ := render_reserveFilled_eq_inline .tabs midLine reached [0] given
    countingBody [.op .endBlock, .closeBlock 0]
  exact ⟨reached, given, block, contained, closed, some _ block, none contained closed⟩

end Writer

end CSharpGen

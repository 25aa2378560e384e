import CSharpGen.Proofs.Writer.LeadingBraces

/-!
# Sub-writers that are filled late

Whether a closing brace starts a new line is decided when its block is closed. The sub-writer right
before the brace may be written to after that. The closing braces of a rendered tree lead when those
sub-writers end in complete lines (`render_braces_lead`); else a brace may follow their text on its
line (`render_lateBody`).
-/

namespace CSharpGen.Writer

/-- A sub-writer that stands right before a closing brace and is written to, itself or below it,
after the brace. No line was ended for the brace, and in the finished tree nothing is rendered
between the sub-writer and the brace: others that stand there have stayed empty. -/
inductive FilledLate (start : Writer) : List Action → List Nat → Prop
  | intro (before after : List Action) {a b : Action} {above later sub : Writer} {i : Nat}
      (reached : at? a.path (start.run before) = some above) (closes : above.ClosesBlock a.call)
      (behind : above.buffer = "") (unended : above.endsMidLine = false)
      (found : above.sub? i = some sub)
      (finished : at? a.path (start.run (before ++ a :: after)) = some later)
      (nothing : later.NothingBetween i above.segments.length)
      (fills : b ∈ after) (inside : a.path ++ [i] <+: b.path) :
      FilledLate start (before ++ a :: after) (a.path ++ [i])

theorem FilledLate.cons {w : Writer} {a : Action} {rest : List Action} {place : List Nat}
    (h : FilledLate (w.act a) rest place) : FilledLate w (a :: rest) place := by
  cases h with
  | intro before after reached closes behind unended found finished nothing fills inside =>
    exact .intro (a :: before) after reached closes behind unended found finished nothing fills
      inside

/-! ## One action -/

/-- What an action makes of the writer at a path: nothing new, the call, a filled sub-writer, or a
reserved one. -/
theorem at?_act_cases {w x : Writer} {a : Action} {path : List Nat}
    (reached : at? path (w.act a) = some x) :
    at? path w = some x ∨
      (path = a.path ∧ ∃ old, at? path w = some old ∧ x = old.call a.call) ∨
      (∃ (old : Writer) (i : Nat) (new : Writer),
        at? path w = some old ∧ x = old.setSub i new) ∨
      ∃ (header : Option String) (above : Writer),
        a.call = .reserve header ∧ x = above.child header := by
  obtain ⟨changed, c⟩ := a
  unfold act at reached
  induction changed generalizing w path with
  | nil =>
    cases path with
    | nil => exact .inr (.inl ⟨rfl, w, rfl, (Option.some.inj reached).symm⟩)
    | cons i path =>
      obtain ⟨sub, found, below⟩ := Option.bind_eq_some_iff.mp reached
      rcases sub?_call_cases found with old | ⟨header, rfl, rfl⟩
      · exact .inl ((at?_cons old path).trans below)
      · cases path with
        | nil => exact .inr (.inr (.inr ⟨header, w, rfl, (Option.some.inj below).symm⟩))
        | cons j path =>
          obtain ⟨sub, found, -⟩ := Option.bind_eq_some_iff.mp below
          have bound := sub?_lt found
          rw [child_segments] at bound
          exact absurd bound (Nat.not_lt_zero j)
  | cons j changed ih =>
    cases isSub : w.sub? j with
    | none =>
      rw [updateAt_cons_none isSub] at reached
      exact .inl reached
    | some sub =>
      rw [updateAt_cons isSub] at reached
      cases path with
      | nil => exact .inr (.inr (.inl ⟨w, j, _, rfl, (Option.some.inj reached).symm⟩))
      | cons i path =>
        by_cases same : j = i
        · subst same
          rw [at?_cons (sub?_setSub_self isSub _)] at reached
          rw [at?_cons isSub]
          rcases ih reached with keeps | ⟨rfl, calls⟩ | fills | reserves
          · exact .inl keeps
          · exact .inr (.inl ⟨rfl, calls⟩)
          · exact .inr (.inr (.inl fills))
          · exact .inr (.inr (.inr reserves))
        · refine .inl ?_
          rwa [at?, sub?_setSub_ne _ _ same] at reached

/-! ## Runs -/

/-- The closing braces at every place of a tree lead as the finished tree needs it. -/
def LeadsIn (final w : Writer) : Prop :=
  ∀ path x y, at? path w = some x → at? path final = some y → OwnLeads y.StartsLine x

theorem leadsIn_act {w : Writer} {a : Action} {rest : List Action}
    (grounded : Everywhere Grounded w) (free : a.call.ClosingFree)
    (finished : ∀ place sub, FilledLate w (a :: rest) place →
      at? place ((w.act a).run rest) = some sub → Text.WholeLines sub.render)
    (h : LeadsIn ((w.act a).run rest) w) : LeadsIn ((w.act a).run rest) (w.act a) := by
  intro path x y reached final
  rcases at?_act_cases reached with same | ⟨rfl, old, found, rfl⟩ | ⟨old, i, new, found, rfl⟩ |
    ⟨header, above, reserves, rfl⟩
  · exact h path x y same final
  · have groundedOld := grounded.at? found
    have later := at?_run found (a :: rest)
    obtain rfl := Option.some.inj (final.symm.trans later)
    refine ownLeads_call (h a.path old _ found final) groundedOld free fun closes behind start =>
      startsLine_run groundedOld (Nat.le_refl _) (fun i sub _ isSub touched nothing => ?_) start
    have reachedSub : at? [i] old = some sub := at?_cons isSub []
    have finalSub := (at?_append a.path [i] _).trans ((congrArg (·.bind (at? [i])) later).trans
      (at?_run reachedSub (Action.under a.path (a :: rest))))
    refine finished (a.path ++ [i]) _ ?_ finalSub
    obtain ⟨b, inside⟩ := List.exists_mem_of_ne_nil _ touched
    -- The call that fills the sub-writer is made below it, so it is not the closing one.
    rcases List.mem_cons.mp (Action.mem_under.mp (Action.mem_under.mp inside)) with same | fills
    · have longer := congrArg (fun b : Action => b.path.length) same
      simp at longer
    · have unended := endsMidLine_of_startsLine groundedOld behind start
      exact .intro [] rest found closes behind unended isSub later nothing fills (by simp)
  · exact ownLeads_setSub (h path old y found final) i new
  · exact ownLeads_child above (reserves ▸ free)

theorem leadsIn_run {w : Writer} {actions : List Action} (grounded : Everywhere Grounded w)
    (free : ∀ a ∈ actions, a.call.ClosingFree)
    (finished : ∀ place sub, FilledLate w actions place →
      at? place (w.run actions) = some sub → Text.WholeLines sub.render)
    (h : LeadsIn (w.run actions) w) : LeadsIn (w.run actions) (w.run actions) := by
  induction actions generalizing w with
  | nil => exact h
  | cons a rest ih =>
    obtain ⟨first, others⟩ := List.forall_mem_cons.mp free
    exact ih (grounded_invariant.act trivial grounded) others
      (fun place sub late => finished place sub late.cons) (leadsIn_act grounded first finished h)

/-- Every closing brace of a rendered writer is the first character of its line that is not blank,
when texts hold no closing braces and the sub-writers that are filled late, each of them right
before a closing brace, end in complete lines. -/
theorem render_braces_lead (style : Indent) (actions : List Action)
    (free : ∀ a ∈ actions, a.call.ClosingFree)
    (finished : ∀ place sub, FilledLate (.empty style) actions place →
      at? place ((Writer.empty style).run actions) = some sub → Text.WholeLines sub.render) :
    Text.BracesLead ((Writer.empty style).run actions).render := by
  have grounded := grounded_run style actions
  have start : LeadsIn ((Writer.empty style).run actions) (.empty style) := by
    have none : Everywhere (fun x => ∀ starts, OwnLeads starts x) (.empty style) :=
      everywhere_of_segments_nil (fun _ => ownLeads_of_empty rfl rfl) rfl
    exact fun path x y reached _ => (none.at? reached).here y.StartsLine
  have all := leadsIn_run (grounded_run style []) free finished start
  have own : Everywhere (fun x => OwnLeads x.StartsLine x) ((Writer.empty style).run actions) :=
    grounded.of_at? fun path x reached => all path x x reached reached
  exact (leadsAfter_render own grounded).bracesLead

/-- A body that is filled with a complete line after its block was closed, and a block that is
closed in the middle of a line. -/
def lateLine : List Action := [
  ⟨[], .openBlock "void Run()" []⟩, ⟨[], .reserve none⟩, ⟨[], .closeBlock 0⟩,
  ⟨[1], .op (.appendLine "Go();")⟩,
  ⟨[], .op (.beginBlock "void Stop()")⟩, ⟨[], .op (.append "Halt();")⟩, ⟨[], .op .endBlock⟩]

theorem render_braces_lead_lateLine :
    FilledLate (.empty .spaces) lateLine [1] ∧
      (∀ a ∈ lateLine, a.call.ClosingFree) ∧
      (∀ place sub, FilledLate (.empty .spaces) lateLine place →
        at? place ((Writer.empty .spaces).run lateLine) = some sub → Text.WholeLines sub.render) ∧
      Text.BracesLead ((Writer.empty .spaces).run lateLine).render := by
  have late : FilledLate (.empty .spaces) lateLine [1] := by
    have nothing (w : Writer) : w.NothingBetween 1 2 := fun k _ after before => by omega
    exact .intro (lateLine.take 2) (lateLine.drop 3) rfl (List.mem_singleton_self 0) rfl rfl rfl rfl
      (nothing _) List.mem_cons_self List.prefix_rfl
  have free : ∀ a ∈ lateLine, a.call.ClosingFree := by decide
  have whole : Everywhere (fun x => Text.WholeLines x.render)
      ((Writer.empty .spaces).run lateLine) := by
    have two : ((Writer.empty .spaces).run lateLine).segments.length = 2 := rfl
    refine .intro _ (.inr (by decide +kernel)) fun i sub found => ?_
    match i, found with
    | 0, found => cases found
    | 1, found =>
      obtain rfl := Option.some.inj found
      exact everywhere_of_segments_nil (.inr (by decide +kernel)) rfl
    | i + 2, found => exact absurd (two ▸ sub?_lt found) (by omega)
  have finished : ∀ place sub, FilledLate (.empty .spaces) lateLine place →
      at? place ((Writer.empty .spaces).run lateLine) = some sub → Text.WholeLines sub.render :=
    fun _ _ _ reached => (whole.at? reached).here
  exact ⟨late, free, finished, render_braces_lead .spaces lateLine free finished⟩

/-- The same body, but its line is left unfinished. -/
def lateBody : List Action := [
  ⟨[], .op (.beginBlock "void Run()")⟩, ⟨[], .reserve none⟩, ⟨[], .op .endBlock⟩,
  ⟨[1], .op (.append "Go();")⟩]

/-- The closing brace was written when the body was empty, and it follows the text of the body. -/
theorem render_lateBody :
    (∀ a ∈ lateBody, ∀ text ∈ a.call.texts, Text.ClosingFree text ∧ '\n' ∉ text.toList) ∧
      ((Writer.empty .spaces).run lateBody).render = "void Run()\n\x7b\n    Go();\x7d\n" ∧
      ¬ Text.BracesLead ((Writer.empty .spaces).run lateBody).render := by
  have rendered : ((Writer.empty .spaces).run lateBody).render =
      "void Run()\n\x7b\n    Go();\x7d\n" := by decide +kernel
  refine ⟨by decide, rendered, fun lead => ?_⟩
  have isLine : "    Go();\x7d" ∈ Text.lines ((Writer.empty .spaces).run lateBody).render := by
    rw [rendered]
    decide +kernel
  have blank := lead _ isLine "    Go();".toList [] (by decide) 'G' (by decide)
  cases blank

end CSharpGen.Writer

import CSharpGen.Proofs.Writer.Filling

/-!
# Schedules

A plan gives every writer of a tree a list of jobs. A pool holds what is left of the lists, each
with the handles that lead to its writer, and in a turn some writer of the pool does the first of
its jobs. Whatever the turns, the tree ends up as if each sub-writer had been filled as soon as it
was reserved (`run_of_complete`), so the schedule does not show in the text.
-/

namespace CSharpGen

/-- A job for one writer: an operation that ends the lines it writes, or the reservation of a
sub-writer together with the jobs for it. -/
inductive Job where
  | op (op : Op) (lines : (Call.op op).WritesLines)
  | reserve (header : Option String) (jobs : List Job)

/-- The jobs that are left for each writer, with the handles that lead to it. -/
abbrev Pool := List (List Nat × List Job)

/-- Some writer does the first of its jobs. A reservation adds the new sub-writer to the pool, where
it is found by the handle that was given for it. -/
inductive Turn (w : Writer) : Pool → Action → Pool → Prop
  | op {before after : Pool} {path : List Nat} {todo : List Job} {op : Op}
      {lines : (Call.op op).WritesLines} :
      Turn w (before ++ (path, .op op lines :: todo) :: after) ⟨path, .op op⟩
        (before ++ (path, todo) :: after)
  | reserve {before after : Pool} {path : List Nat} {todo jobs : List Job}
      {header : Option String} {x : Writer} (found : Writer.at? path w = some x) :
      Turn w (before ++ (path, .reserve header jobs :: todo) :: after) ⟨path, .reserve header⟩
        (before ++ (path, todo) :: after ++ [(path ++ [(x.reserve header).2], jobs)])

/-- Turns one after the other, with the actions that they took. -/
inductive Interleaving : Writer → Pool → List Action → Pool → Prop
  | nil {w : Writer} {pool : Pool} : Interleaving w pool [] pool
  | cons {w : Writer} {pool next last : Pool} {a : Action} {rest : List Action}
      (turn : Turn w pool a next) (later : Interleaving (w.act a) next rest last) :
      Interleaving w pool (a :: rest) last

/-- No writer has a job left. -/
def Pool.Done (pool : Pool) : Prop := ∀ entry ∈ pool, entry.2 = []

/-- The actions of some schedule that does all jobs of the root and of the sub-writers, starting
with a fresh root. -/
def CompleteSchedule (style : Indent) (jobs : List Job) (actions : List Action) : Prop :=
  ∃ pool, Interleaving (Writer.empty style) [([], jobs)] actions pool ∧ Pool.Done pool

open Writer

/-! ## Filling at once -/

mutual

/-- The job done in one go: a sub-writer is filled as soon as it is reserved. -/
def Job.finish : Job → Writer → Writer
  | .op change _, w => w.apply change
  | .reserve header jobs, w => reserveFilled header (Job.finishAll jobs) w

def Job.finishAll : List Job → Writer → Writer
  | [], w => w
  | job :: rest, w => Job.finishAll rest (job.finish w)

end

mutual

/-- The number of jobs in a job. -/
def Job.count : Job → Nat
  | .op _ _ => 1
  | .reserve _ jobs => Job.countAll jobs + 1

def Job.countAll : List Job → Nat
  | [] => 0
  | job :: rest => job.count + Job.countAll rest

end

/-- The writers of the pool finish their jobs one after the other. -/
def Pool.finish (pool : Pool) (w : Writer) : Writer :=
  pool.foldl (fun w entry => updateAt (Job.finishAll entry.2) entry.1 w) w

mutual

/-- Finishing a job touches its own writer and those below it. -/
theorem Job.local_finish : (job : Job) → Local job.finish
  | .op _ lines => local_apply lines
  | .reserve header jobs => local_reserveFilled (Job.local_finishAll jobs) header

theorem Job.local_finishAll : (jobs : List Job) → Local (Job.finishAll jobs)
  | [] => Local.id
  | job :: rest => (Job.local_finish job).comp (Job.local_finishAll rest)

end

/-- Filling a sub-writer right after its reservation. -/
theorem updateAt_reserve {w x : Writer} {path : List Nat} (found : at? path w = some x)
    (header : Option String) (fill : Writer → Writer) :
    updateAt fill (path ++ [(x.reserve header).2]) (w.act ⟨path, .reserve header⟩) =
      updateAt (reserveFilled header fill) path w := by
  rw [act, updateAt_append, updateAt_updateAt]
  exact updateAt_congr found (updateAt_cons (sub?_reserve_self x header) fill [])

/-! ## Pools -/

namespace Pool

/-- Every writer of the pool is there, and none occurs twice. -/
structure Placed (pool : Pool) (w : Writer) : Prop where
  distinct : (pool.map Prod.fst).Nodup
  found : ∀ entry ∈ pool, (at? entry.1 w).isSome

variable {pool next last before after : Pool} {w : Writer} {a : Action} {path : List Nat}
  {todo : List Job}

/-- Every writer with jobs left occurs once in the pool. -/
theorem Placed.outside {jobs : List Job} (h : Placed (before ++ (path, jobs) :: after) w) :
    path ∉ before.map Prod.fst := by
  have distinct := h.distinct
  rw [List.map_append, List.nodup_append] at distinct
  exact fun member => distinct.2.2 path member path (by simp) rfl

/-- Calls anywhere in the tree leave the pool in its place. -/
theorem placed_updateAt {f : Writer → Writer} (keeps : KeepsSubs f) (changed : List Nat)
    (h : Placed pool w) : Placed pool (updateAt f changed w) :=
  ⟨h.distinct, fun entry member => at?_updateAt_isSome keeps (h.found entry member) changed⟩

/-- The pool does not depend on how many jobs are left. -/
theorem placed_todo {job : Job} (h : Placed (before ++ (path, job :: todo) :: after) w) :
    Placed (before ++ (path, todo) :: after) w := by
  refine ⟨by simpa using h.distinct, fun entry member => ?_⟩
  have found := h.found
  simp only [List.mem_append, List.mem_cons] at found member
  rcases member with early | rfl | late
  · exact found entry (.inl early)
  · exact found (path, job :: todo) (.inr (.inl rfl))
  · exact found entry (.inr (.inr late))

/-- A turn keeps the pool in place. -/
theorem placed_turn (turn : Turn w pool a next) (h : Placed pool w) : Placed next (w.act a) := by
  have kept := placed_updateAt (keepsSubs_call a.call) a.path h
  cases turn with
  | op => exact placed_todo kept
  | @reserve before after path todo jobs header x found =>
    obtain ⟨distinct, all⟩ := placed_todo kept
    have fresh : path ++ [(x.reserve header).2] ∉
        (before ++ (path, todo) :: after).map Prod.fst := by
      intro member
      obtain ⟨entry, inPool, same⟩ := List.mem_map.mp member
      have there := (placed_todo h).found entry inPool
      rw [same, at?_handle found] at there
      cases there
    refine ⟨?_, fun entry member => ?_⟩
    · rw [List.map_append, List.nodup_append]
      refine ⟨distinct, by simp, fun old inOld new inNew same => fresh ?_⟩
      cases List.mem_singleton.mp inNew
      rwa [same] at inOld
    · rcases List.mem_append.mp member with old | new
      · exact all entry old
      · rw [List.mem_singleton.mp new, at?_reserve found]
        rfl

theorem writesLines_turn (turn : Turn w pool a next) : a.call.WritesLines := by
  cases turn with
  | @op _ _ _ _ _ lines => exact lines
  | reserve => trivial

/-! ## Finishing a pool -/

theorem finish_append (first second : Pool) (w : Writer) :
    finish (first ++ second) w = finish second (finish first w) := List.foldl_append

theorem finish_done (done : Done pool) (w : Writer) : finish pool w = w := by
  induction pool generalizing w with
  | nil => rfl
  | cons entry rest ih =>
    have none : entry.2 = [] := done entry List.mem_cons_self
    have first : updateAt (Job.finishAll entry.2) entry.1 w = w := by
      rw [none]
      exact updateAt_id entry.1 w
    exact (congrArg (finish rest) first).trans
      (ih (fun other member => done other (List.mem_cons_of_mem entry member)) w)

/-- A change of a writer outside the pool can wait until the pool has finished. -/
theorem finish_updateAt {f : Writer → Writer} (change : Local f)
    (outside : path ∉ pool.map Prod.fst) (there : (at? path w).isSome)
    (found : ∀ entry ∈ pool, (at? entry.1 w).isSome) (whole : Everywhere WholeLines w) :
    finish pool (updateAt f path w) = updateAt f path (finish pool w) := by
  induction pool generalizing w with
  | nil => rfl
  | cons entry rest ih =>
    have filling := Job.local_finishAll entry.2
    have different : entry.1 ≠ path := fun same => outside (by simp [same])
    have swap := updateAt_comm filling change different whole
      (found entry List.mem_cons_self) there
    have later := ih (w := updateAt (Job.finishAll entry.2) entry.1 w)
      (fun member => outside (List.mem_cons_of_mem _ member))
      (at?_updateAt_isSome filling.keeps there _)
      (fun other member => at?_updateAt_isSome filling.keeps
        (found other (List.mem_cons_of_mem entry member)) _)
      (filling.whole_updateAt whole _)
    exact (congrArg (finish rest) swap).trans later

/-- The first job of a writer can be done before the pool finishes. -/
theorem finish_job {job : Job} (h : Placed (before ++ (path, job :: todo) :: after) w)
    (whole : Everywhere WholeLines w) :
    finish (before ++ (path, todo) :: after) (updateAt job.finish path w) =
      finish (before ++ (path, job :: todo) :: after) w := by
  have there := h.found (path, job :: todo) (by simp)
  have wait := finish_updateAt job.local_finish h.outside there
    (fun entry member => h.found entry (List.mem_append_left _ member)) whole
  have both := updateAt_updateAt job.finish (Job.finishAll todo) path (finish before w)
  rw [finish_append, finish_append, wait]
  exact congrArg (finish after) both

/-- A turn does not change what the pool finishes to. -/
theorem finish_turn (turn : Turn w pool a next) (h : Placed pool w)
    (whole : Everywhere WholeLines w) : finish next (w.act a) = finish pool w := by
  have placed := placed_turn turn h
  have wholeNext := wholeLines_invariant.act (writesLines_turn turn) whole
  cases turn with
  | op => exact finish_job h whole
  | @reserve before after path todo jobs header x found =>
    have wait := finish_updateAt (Job.local_finishAll jobs) placed.outside
      (placed.found (_, jobs) (by simp))
      (fun entry member => placed.found entry (List.mem_append_left _ member)) wholeNext
    rw [updateAt_reserve found] at wait
    calc finish (before ++ (path, todo) :: after ++ [(path ++ [(x.reserve header).2], jobs)])
          (w.act ⟨path, .reserve header⟩)
        = updateAt (Job.finishAll jobs) (path ++ [(x.reserve header).2])
            (finish (before ++ (path, todo) :: after) (w.act ⟨path, .reserve header⟩)) :=
          finish_append _ _ _
      _ = finish (before ++ (path, todo) :: after)
            (updateAt (Job.finish (.reserve header jobs)) path w) := wait.symm
      _ = finish (before ++ (path, .reserve header jobs :: todo) :: after) w := finish_job h whole

/-- Finishing the jobs after some turns gives what finishing them at once gives. -/
theorem finish_interleaving {actions : List Action} (turns : Interleaving w pool actions last)
    (h : Placed pool w) (whole : Everywhere WholeLines w) :
    finish last (w.run actions) = finish pool w := by
  induction turns with
  | nil => rfl
  | cons turn _ ih =>
    have placed := placed_turn turn h
    have wholeNext := wholeLines_invariant.act (writesLines_turn turn) whole
    rw [run_cons, ih placed wholeNext, finish_turn turn h whole]

/-! ## No schedule gets stuck -/

/-- As long as a job is left, some writer can take a turn. -/
theorem exists_turn (h : Placed pool w) (left : ¬ Done pool) : ∃ a next, Turn w pool a next := by
  obtain ⟨⟨path, jobs⟩, member, some⟩ : ∃ entry ∈ pool, entry.2 ≠ [] := by
    simpa [Done] using left
  obtain ⟨before, after, rfl⟩ := List.append_of_mem member
  obtain ⟨x, found⟩ := Option.isSome_iff_exists.mp (h.found _ member)
  cases jobs with
  | nil => exact absurd rfl some
  | cons job todo =>
    cases job with
    | op op lines => exact ⟨_, _, .op⟩
    | reserve header jobs => exact ⟨_, _, .reserve found⟩

/-- The number of jobs that are left, those for sub-writers that are not yet reserved included. -/
def count : Pool → Nat
  | [] => 0
  | (_, jobs) :: rest => Job.countAll jobs + count rest

theorem count_append (first second : Pool) :
    count (first ++ second) = count first + count second := by
  induction first with
  | nil => simp [count]
  | cons entry rest ih =>
    rw [List.cons_append, count, count, ih]
    omega

/-- Each turn takes one job out of the pool. -/
theorem count_turn (turn : Turn w pool a next) : count next + 1 = count pool := by
  cases turn <;> simp only [count_append, count, Job.countAll, Job.count] <;> omega

/-- The jobs that are left can always be scheduled to the end. -/
theorem exists_interleaving (h : Placed pool w) :
    ∃ actions last, Interleaving w pool actions last ∧ Done last := by
  induction left : count pool using Nat.strongRecOn generalizing w pool with
  | ind n ih =>
    by_cases done : Done pool
    · exact ⟨[], pool, .nil, done⟩
    · obtain ⟨a, next, turn⟩ := exists_turn h done
      have fewer : count next < n := by
        have := count_turn turn
        omega
      obtain ⟨rest, last, later, done⟩ := ih _ fewer (placed_turn turn h) rfl
      exact ⟨a :: rest, last, .cons turn later, done⟩

theorem placed_interleaving {actions : List Action} (turns : Interleaving w pool actions last)
    (h : Placed pool w) : Placed last (w.run actions) := by
  induction turns with
  | nil => exact h
  | cons turn _ ih => exact ih (placed_turn turn h)

theorem placed_root (jobs : List Job) (style : Indent) :
    Placed [([], jobs)] (Writer.empty style) :=
  ⟨by simp, by simp [at?]⟩

end Pool

/-! ## Complete schedules -/

/-- A schedule can be stopped after any of its actions. -/
theorem Interleaving.split {w : Writer} {pool last : Pool} {before after : List Action}
    (turns : Interleaving w pool (before ++ after) last) :
    ∃ middle, Interleaving w pool before middle ∧ Interleaving (w.run before) middle after last := by
  induction before generalizing w pool with
  | nil => exact ⟨pool, .nil, turns⟩
  | cons a before ih =>
    cases turns with
    | cons turn later =>
      obtain ⟨middle, first, second⟩ := ih later
      exact ⟨middle, .cons turn first, second⟩

theorem Interleaving.append {w : Writer} {pool middle last : Pool} {before after : List Action}
    (first : Interleaving w pool before middle)
    (second : Interleaving (w.run before) middle after last) :
    Interleaving w pool (before ++ after) last := by
  induction first with
  | nil => exact second
  | cons turn _ ih => exact .cons turn (ih second)

/-- Every schedule can be completed: no turn ever waits for a writer that is not there. -/
theorem exists_complete {style : Indent} {jobs : List Job} {actions : List Action} {pool : Pool}
    (turns : Interleaving (Writer.empty style) [([], jobs)] actions pool) :
    ∃ rest, CompleteSchedule style jobs (actions ++ rest) := by
  have placed := Pool.placed_interleaving turns (Pool.placed_root jobs style)
  obtain ⟨rest, last, later, done⟩ := Pool.exists_interleaving placed
  exact ⟨rest, last, turns.append later, done⟩

namespace Writer

/-- The tree after a complete schedule is the one in which sub-writers are filled at once. -/
theorem run_of_complete {style : Indent} {jobs : List Job} {actions : List Action}
    (complete : CompleteSchedule style jobs actions) :
    (Writer.empty style).run actions = Job.finishAll jobs (Writer.empty style) := by
  obtain ⟨pool, turns, done⟩ := complete
  have placed := Pool.placed_root jobs style
  have whole : Everywhere WholeLines (Writer.empty style) :=
    everywhere_of_segments_nil ⟨.inl rfl, by simp [empty]⟩ rfl
  have finished := Pool.finish_interleaving turns placed whole
  rw [Pool.finish_done done] at finished
  exact finished

/-- All complete schedules of a plan render the same text. In every schedule, complete or not, the
handle of a reservation leads to the sub-writer that was reserved, after the later actions on it. -/
theorem render_unchanged_by_schedule (style : Indent) (jobs : List Job) :
    (∀ first second, CompleteSchedule style jobs first → CompleteSchedule style jobs second →
      ((Writer.empty style).run first).render = ((Writer.empty style).run second).render) ∧
    ∀ actions pool, Interleaving (Writer.empty style) [([], jobs)] actions pool →
      ∀ before path header after, actions = before ++ ⟨path, .reserve header⟩ :: after →
        ∃ x, at? path ((Writer.empty style).run before) = some x ∧
          at? (path ++ [(x.reserve header).2]) ((Writer.empty style).run actions) =
            some ((x.child header).run (Action.under (path ++ [(x.reserve header).2]) after)) := by
  constructor
  · intro first second one two
    rw [run_of_complete one, run_of_complete two]
  · rintro _ pool turns before path header after rfl
    obtain ⟨middle, -, later⟩ := turns.split
    cases later with
    | cons turn _ =>
      cases turn with
      | @reserve _ _ _ _ _ _ x found =>
        refine ⟨x, found, ?_⟩
        rw [run_append, run_cons]
        exact at?_run (at?_reserve found header) after

/-- A block with a branch in it, which the block is closed after. -/
def branchPlan : List Job := [
  .op (.beginBlock "void Run()") trivial,
  .reserve (some "if (ready)") [.op (.appendLine "Go();") trivial],
  .op .endBlock trivial]

/-- The branch is filled before the block is closed. -/
def fillFirst : List Action := [
  ⟨[], .op (.beginBlock "void Run()")⟩, ⟨[], .reserve (some "if (ready)")⟩,
  ⟨[1], .op (.appendLine "Go();")⟩, ⟨[], .op .endBlock⟩]

/-- The branch is filled after the block was closed. -/
def closeFirst : List Action := [
  ⟨[], .op (.beginBlock "void Run()")⟩, ⟨[], .reserve (some "if (ready)")⟩,
  ⟨[], .op .endBlock⟩, ⟨[1], .op (.appendLine "Go();")⟩]

theorem fillFirst_complete : CompleteSchedule .spaces branchPlan fillFirst :=
  ⟨[([], []), ([1], [])],
    .cons (@Turn.op _ [] [] [] _ _ _) <|
    .cons (@Turn.reserve _ [] [] [] _ _ _ _ rfl) <|
    .cons (@Turn.op _ [([], [.op .endBlock trivial])] [] [1] _ _ _) <|
    .cons (@Turn.op _ [] [([1], [])] [] _ _ _) .nil,
    by simp [Pool.Done]⟩

theorem closeFirst_complete : CompleteSchedule .spaces branchPlan closeFirst :=
  ⟨[([], []), ([1], [])],
    .cons (@Turn.op _ [] [] [] _ _ _) <|
    .cons (@Turn.reserve _ [] [] [] _ _ _ _ rfl) <|
    .cons (@Turn.op _ [] [([1], [.op (.appendLine "Go();") trivial])] [] _ _ _) <|
    .cons (@Turn.op _ [([], [])] [] [1] _ _ _) .nil,
    by simp [Pool.Done]⟩

theorem render_unchanged_by_schedule_branch :
    (CompleteSchedule .spaces branchPlan fillFirst ∧
      CompleteSchedule .spaces branchPlan closeFirst) ∧
    ((Writer.empty .spaces).run fillFirst).render =
      ((Writer.empty .spaces).run closeFirst).render ∧
    ∃ x, at? [] ((Writer.empty .spaces).run [⟨[], .op (.beginBlock "void Run()")⟩]) = some x ∧
      at? [(x.reserve (some "if (ready)")).2] ((Writer.empty .spaces).run closeFirst) =
        some ((x.child (some "if (ready)")).run
          (Action.under [(x.reserve (some "if (ready)")).2]
            [⟨[], .op .endBlock⟩, ⟨[1], .op (.appendLine "Go();")⟩])) := by
  obtain ⟨same, handles⟩ := render_unchanged_by_schedule .spaces branchPlan
  obtain ⟨pool, turns, done⟩ := closeFirst_complete
  exact ⟨⟨fillFirst_complete, closeFirst_complete⟩,
    same _ _ fillFirst_complete closeFirst_complete,
    handles closeFirst pool turns [_] [] (some "if (ready)") _ rfl⟩

end Writer

end CSharpGen

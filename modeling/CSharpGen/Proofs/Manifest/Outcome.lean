import CSharpGen.Error

/-!
# Outcomes of checks

A check gives one value, unless there is a fault, and then it is refused for one of the faults. This
passes through the steps of a check, so the outcome of a whole is put together from those of its
parts.
-/

namespace CSharpGen

/-- The result is the value when there is no fault; otherwise it is refused for a fault. -/
def YieldsUnless {α : Type} (fault : Error → Prop) (value : α) (result : Except Error α) : Prop :=
  (result = .ok value ∧ ∀ e, ¬fault e) ∨ ∃ e, result = .error e ∧ fault e

section Outcomes

variable {α β : Type} {fault other : Error → Prop} {value : α} {result : Except Error α}

theorem yieldsUnless_ok (none : ∀ e, ¬fault e) : YieldsUnless fault value (.ok value) :=
  .inl ⟨rfl, none⟩

theorem yieldsUnless_error {e : Error} (h : fault e) : YieldsUnless fault value (.error e) :=
  .inr ⟨e, rfl, h⟩

namespace YieldsUnless

/-- A value is given exactly where there is no fault. -/
theorem ok_iff (h : YieldsUnless fault value result) :
    (∃ v, result = .ok v) ↔ ∀ e, ¬fault e := by
  rcases h with ⟨rfl, none⟩ | ⟨e, rfl, found⟩
  · exact ⟨fun _ => none, fun _ => ⟨value, rfl⟩⟩
  · constructor
    · rintro ⟨v, ok⟩
      cases ok
    · intro none
      exact absurd found (none e)

theorem eq_of_ok (h : YieldsUnless fault value result) {v : α} (ok : result = .ok v) :
    v = value := by
  rcases h with ⟨rfl, -⟩ | ⟨e, rfl, -⟩
  · cases ok
    rfl
  · cases ok

theorem congr (h : YieldsUnless fault value result) (same : ∀ e, fault e ↔ other e) :
    YieldsUnless other value result := by
  rcases h with ⟨ok, none⟩ | ⟨e, refused, found⟩
  · exact .inl ⟨ok, fun e h => none e ((same e).mpr h)⟩
  · exact .inr ⟨e, refused, (same e).mp found⟩

theorem bind (h : YieldsUnless fault value result) {next : α → Except Error β} {last : β}
    (later : YieldsUnless other last (next value)) :
    YieldsUnless (fun e => fault e ∨ other e) last (result >>= next) := by
  rcases h with ⟨rfl, none⟩ | ⟨e, rfl, found⟩
  · rcases later with ⟨ok, noneLater⟩ | ⟨e, refused, found⟩
    · exact .inl ⟨ok, fun e either => either.elim (none e) (noneLater e)⟩
    · exact .inr ⟨e, refused, .inr found⟩
  · exact .inr ⟨e, rfl, .inl found⟩

theorem map (h : YieldsUnless fault value result) (f : α → β) :
    YieldsUnless fault (f value) (result.map f) := by
  rcases h with ⟨rfl, none⟩ | ⟨e, rfl, found⟩
  · exact .inl ⟨rfl, none⟩
  · exact .inr ⟨e, rfl, found⟩

/-- The last step of a check, which cannot be refused. -/
theorem thenOk (h : YieldsUnless fault value result) (f : α → β) :
    YieldsUnless fault (f value) (result >>= fun v => .ok (f v)) := by
  rcases h with ⟨rfl, none⟩ | ⟨e, rfl, found⟩
  · exact .inl ⟨rfl, none⟩
  · exact .inr ⟨e, rfl, found⟩

end YieldsUnless

/-- A list is refused for a fault of one of its items. -/
theorem yieldsUnless_mapM {items : List α} {f : α → Except Error β} {own : α → Error → Prop}
    {built : α → β} (each : ∀ item ∈ items, YieldsUnless (own item) (built item) (f item)) :
    YieldsUnless (fun e => ∃ item ∈ items, own item e) (items.map built) (items.mapM f) := by
  induction items with
  | nil => exact yieldsUnless_ok (by simp)
  | cons item rest ih =>
    have others := ih fun other member => each other (List.mem_cons_of_mem item member)
    have all : YieldsUnless (fun e => own item e ∨ ∃ other ∈ rest, own other e)
        (built item :: rest.map built)
        (f item >>= fun first => rest.mapM f >>= fun results => .ok (first :: results)) :=
      (each item List.mem_cons_self).bind (others.thenOk (built item :: ·))
    rw [List.mapM_cons, List.map_cons]
    exact all.congr fun e => by simp

/-- A loop over one part of a structure, each step of which puts the part back. -/
theorem foldlM_put {σ : Type} (put : σ → α) {add : α → β → Except Error α}
    {addPart : σ → β → Except Error σ}
    (step : ∀ x b, add (put x) b = addPart x b >>= fun next => .ok (put next))
    (items : List β) (x : σ) : items.foldlM add (put x) = (items.foldlM addPart x).map put := by
  induction items generalizing x with
  | nil => rfl
  | cons item rest ih =>
    rw [List.foldlM_cons, List.foldlM_cons, step]
    cases addPart x item with
    | error e => rfl
    | ok next => exact ih next

end Outcomes

end CSharpGen

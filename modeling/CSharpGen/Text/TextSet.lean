/-!
# Sets of texts in insertion order

A text that is in the set already keeps its place when it is inserted again.
-/

namespace CSharpGen

/-- Distinct texts, oldest first. -/
structure TextSet where
  items : List String
  nodup : items.Nodup

namespace TextSet

def empty : TextSet := ⟨[], List.nodup_nil⟩

instance : EmptyCollection TextSet := ⟨empty⟩

instance : Inhabited TextSet := ⟨empty⟩

instance : Membership String TextSet := ⟨fun s x => x ∈ s.items⟩

instance (x : String) (s : TextSet) : Decidable (x ∈ s) := inferInstanceAs (Decidable (x ∈ s.items))

/-- The set with `x` as its newest member, or the set itself when it holds `x`. -/
def insert (s : TextSet) (x : String) : TextSet :=
  if h : x ∈ s.items then s
  else ⟨s.items ++ [x], by
    rw [List.nodup_append]
    refine ⟨s.nodup, by simp, ?_⟩
    rintro a ha b hb rfl
    simp only [List.mem_singleton] at hb
    exact h (hb ▸ ha)⟩

def insertAll (s : TextSet) (xs : List String) : TextSet := xs.foldl insert s

def size (s : TextSet) : Nat := s.items.length

def isEmpty (s : TextSet) : Bool := s.items.isEmpty

theorem mem_def {x : String} {s : TextSet} : x ∈ s ↔ x ∈ s.items := Iff.rfl

theorem items_insert (s : TextSet) (x : String) :
    (s.insert x).items = if x ∈ s then s.items else s.items ++ [x] := by
  unfold insert
  by_cases h : x ∈ s.items <;> simp [h, mem_def]

@[simp] theorem mem_insert {s : TextSet} {x y : String} : y ∈ s.insert x ↔ y ∈ s ∨ y = x := by
  rw [mem_def, items_insert]
  split
  · next h => exact ⟨Or.inl, fun hy => hy.elim id fun e => e ▸ h⟩
  · simp [mem_def]

theorem eraseDups_of_nodup {texts : List String} (distinct : texts.Nodup) : texts.eraseDups = texts := by
  induction texts with
  | nil => rfl
  | cons t rest ih =>
    obtain ⟨notMem, others⟩ := List.nodup_cons.mp distinct
    have all : rest.filter (fun u => !u == t) = rest := by
      refine List.filter_eq_self.mpr fun u member => ?_
      have apart : u ≠ t := fun same => notMem (same ▸ member)
      simp [apart]
    rw [List.eraseDups_cons, all, ih others]

/-- A text behind others counts when it is not among them. -/
theorem eraseDups_concat (texts : List String) (t : String) : (texts ++ [t]).eraseDups =
    if t ∈ texts then texts.eraseDups else texts.eraseDups ++ [t] := by
  rw [List.eraseDups_append]
  split
  · next member =>
    have none : List.removeAll [t] texts = [] := by simp [List.removeAll, member]
    rw [none, List.eraseDups_nil, List.append_nil]
  · next missing =>
    have all : List.removeAll [t] texts = [t] := by simp [List.removeAll, missing]
    rw [all]
    rfl

/-- Texts are inserted in order, each of them once. -/
theorem items_insertAll (s : TextSet) (texts : List String) :
    (s.insertAll texts).items = (s.items ++ texts).eraseDups := by
  induction texts generalizing s with
  | nil =>
    rw [List.append_nil, eraseDups_of_nodup s.nodup]
    rfl
  | cons t rest ih =>
    have first : (s.insertAll (t :: rest)).items = ((s.insert t).items ++ rest).eraseDups := ih _
    rw [first, items_insert]
    split
    · next member =>
      have known : List.removeAll (t :: rest) s.items = List.removeAll rest s.items := by
        simp [List.removeAll, mem_def.mp member]
      rw [List.eraseDups_append, List.eraseDups_append, known]
    · rw [List.append_assoc, List.singleton_append]

theorem nodup_eraseDups (texts : List String) : texts.eraseDups.Nodup := by
  have inserted : (empty.insertAll texts).items = texts.eraseDups := items_insertAll empty texts
  exact inserted ▸ (empty.insertAll texts).nodup

end TextSet

end CSharpGen

import CSharpGen.Text.Line

/-!
# How texts end

The end of a text after an append depends on the appended text alone, unless that is empty.
-/

namespace CSharpGen.Text

/-- Whether the last line of a text is unfinished; nothing for the empty text. -/
def unfinished? (s : String) : Option Bool :=
  if s.isEmpty then none else some (!endsLine s)

/-- The last text that is not empty decides whether a line is ended. -/
theorem endsLine_append (s : String) {t : String} (h : t ≠ "") :
    endsLine (s ++ t) = endsLine t := by
  have cons : t.toList ≠ [] := by simpa using h
  simp only [endsLine, String.toList_append, List.getLast?_append]
  rw [List.getLast?_eq_some_getLast cons, Option.some_or]

theorem ne_empty_of_endsLine {s : String} (h : endsLine s = true) : s ≠ "" := by
  rintro rfl
  cases h

theorem endsLine_append_right (s : String) {t : String} (h : endsLine t = true) :
    endsLine (s ++ t) = true := by
  rwa [endsLine_append s (ne_empty_of_endsLine h)]

/-- An empty text at the end leaves the question to what stands before it. -/
theorem unfinished?_append (s t : String) :
    unfinished? (s ++ t) = (unfinished? t).or (unfinished? s) := by
  by_cases h : t = ""
  · subst h
    simp [unfinished?]
  · simp [unfinished?, endsLine_append s h, h]

theorem finishLine_append (s : String) {t : String} (h : t ≠ "") :
    finishLine (s ++ t) = s ++ finishLine t := by
  simp only [finishLine, endsLine_append s h]
  by_cases ended : endsLine t <;> simp [h, ended, String.append_assoc]

/-- Ending the last line of a text, by what is known of its end. -/
theorem finishLine_eq (s : String) :
    finishLine s = s ++ (if (unfinished? s).getD false then "\n" else "") := by
  unfold finishLine unfinished?
  by_cases empty : s.isEmpty
  · simp [empty]
  · by_cases ended : endsLine s <;> simp [empty, ended]

theorem finishLine_of_endsLine {s : String} (h : endsLine s = true) : finishLine s = s := by
  simp [finishLine, h]

/-- A finished text ends a line unless it is empty. -/
theorem endsLine_finishLine {s : String} (full : s ≠ "") : endsLine (finishLine s) = true := by
  unfold finishLine
  by_cases ended : endsLine s
  · simp [ended]
  · rw [if_neg (by simp [full, ended])]
    exact endsLine_append_right s rfl

/-! ## Complete lines -/

/-- A text of complete lines. -/
def WholeLines (s : String) : Prop := s = "" ∨ endsLine s = true

theorem wholeLines_append {s t : String} (hs : WholeLines s) (ht : WholeLines t) :
    WholeLines (s ++ t) := by
  by_cases empty : t = ""
  · simpa [empty] using hs
  · exact .inr ((endsLine_append s empty).trans (ht.resolve_left empty))

theorem wholeLines_newline (s : String) : WholeLines (s ++ "\n") :=
  .inr (endsLine_append_right s rfl)

/-- Complete lines are finished already. -/
theorem finishLine_of_wholeLines {s : String} (h : WholeLines s) : finishLine s = s := by
  rcases h with rfl | ended
  · rfl
  · exact finishLine_of_endsLine ended

private theorem ended_tail {c : Char} {cs : List Char}
    (h : c :: cs = [] ∨ (c :: cs).getLast? = some '\n') : cs = [] ∨ cs.getLast? = some '\n' := by
  cases cs with
  | nil => exact .inl rfl
  | cons d ds => simpa using h

/-- Behind complete lines a new line starts. -/
theorem lineChars_append {cs : List Char} (h : cs = [] ∨ cs.getLast? = some '\n')
    (rest : List Char) : lineChars (cs ++ rest) = lineChars cs ++ lineChars rest := by
  fun_induction lineChars cs with
  | case1 => rfl
  | case2 cs ih => exact congrArg ([] :: ·) (ih (ended_tail h))
  | case3 cs ih => exact congrArg ([] :: ·) (ih (ended_tail (ended_tail h)))
  | case4 c cs notEnd _ none =>
    have last : cs = [] := lineChars_eq_nil_iff.mp none
    exact absurd (by simpa [last] using h) notEnd
  | case5 c cs notEnd notReturn line lines eq ih =>
    have more : cs ≠ [] := by
      rintro rfl
      cases eq
    -- the line feed after a carriage return is not the first character of `rest`
    have notReturn : ∀ tail, c = '\r' → cs ++ rest = '\n' :: tail → False := by
      intro tail isReturn next
      obtain ⟨d, ds, rfl⟩ := List.exists_cons_of_ne_nil more
      obtain ⟨rfl, -⟩ := List.cons.inj next
      exact notReturn ds isReturn rfl
    rw [List.cons_append, lineChars.eq_4 _ _ notEnd notReturn, ih (ended_tail h), eq]
    rfl

/-- The lines after complete lines are the lines of what follows. -/
theorem lines_append {s : String} (h : WholeLines s) (t : String) :
    lines (s ++ t) = lines s ++ lines t := by
  have whole : s.toList = [] ∨ s.toList.getLast? = some '\n' := by
    rcases h with rfl | ended
    · exact .inl rfl
    · exact .inr (by simpa [endsLine] using ended)
  simp [lines, lineChars_append whole]

theorem lineChars_single {cs : List Char} (h : ∀ c ∈ cs, c ≠ '\n' ∧ c ≠ '\r') :
    lineChars (cs ++ ['\n']) = [cs] := by
  induction cs with
  | nil => rfl
  | cons c cs ih =>
    obtain ⟨⟨notEnd, notReturn⟩, others⟩ := List.forall_mem_cons.mp h
    rw [List.cons_append, lineChars.eq_4 _ _ notEnd fun _ isReturn _ => notReturn isReturn,
      ih others]

theorem lines_single {s : String} (h : ∀ c ∈ s.toList, c ≠ '\n' ∧ c ≠ '\r') :
    lines (s ++ "\n") = [s] := by
  have ended : (s ++ "\n").toList = s.toList ++ ['\n'] := by rw [String.toList_append]; rfl
  rw [lines, ended, lineChars_single h]
  simp

/-- What stands before a text on its first line stays there. -/
theorem lineChars_behind {before : List Char} (filled : before ≠ [])
    (plain : ∀ c ∈ before, c ≠ '\n' ∧ c ≠ '\r') (cs : List Char) :
    lineChars (before ++ cs) = (before ++ (lineChars cs).headD []) :: (lineChars cs).tail := by
  induction before with
  | nil => exact absurd rfl filled
  | cons c before ih =>
    obtain ⟨⟨notEnd, notReturn⟩, others⟩ := List.forall_mem_cons.mp plain
    rw [List.cons_append, lineChars.eq_4 _ _ notEnd fun _ isReturn _ => notReturn isReturn]
    by_cases last : before = []
    · rw [last, List.nil_append]
      cases lineChars cs <;> rfl
    · rw [ih last others]
      rfl

/-- What stands before a text belongs to its first line. -/
theorem lines_behind {before : String} (filled : before ≠ "")
    (plain : ∀ c ∈ before.toList, c ≠ '\n' ∧ c ≠ '\r') (s : String) :
    lines (before ++ s) = (before ++ (lines s).headD "") :: (lines s).tail := by
  have chars := lineChars_behind (by simpa using filled) plain s.toList
  rw [lines, String.toList_append, chars, lines]
  cases lineChars s.toList <;> simp

/-- Ending the last line of a text makes no new line. -/
theorem lineChars_ended {cs : List Char} {c : Char} (last : cs.getLast? = some c)
    (notEnd : c ≠ '\n') (notReturn : c ≠ '\r') : lineChars (cs ++ ['\n']) = lineChars cs := by
  have shorter {d e : Char} {ds : List Char} (last : (d :: e :: ds).getLast? = some c) :
      (e :: ds).getLast? = some c := by simpa using last
  fun_induction lineChars cs with
  | case1 => cases last
  | case2 cs ih =>
    cases cs with
    | nil => exact absurd (Option.some.inj last).symm notEnd
    | cons d ds => exact congrArg ([] :: ·) (ih (shorter last))
  | case3 cs ih =>
    cases cs with
    | nil => exact absurd (Option.some.inj last).symm notEnd
    | cons d ds => exact congrArg ([] :: ·) (ih (shorter (shorter last)))
  | case4 d cs isEnd isReturn none =>
    obtain rfl := lineChars_eq_nil_iff.mp none
    obtain rfl := Option.some.inj last
    exact lineChars.eq_4 _ _ isEnd fun _ same _ => notReturn same
  | case5 d cs isEnd isReturn first others eq ih =>
    cases cs with
    | nil => cases eq
    | cons e ds =>
      have apart : ∀ tail, d = '\r' → e :: ds ++ ['\n'] = '\n' :: tail → False := by
        intro tail same next
        exact isReturn ds same (by rw [(List.cons.inj next).1])
      rw [List.cons_append, lineChars.eq_4 _ _ isEnd apart, ih (shorter last), eq]

/-- A line holds characters of the text. -/
theorem mem_of_mem_lineChars {cs line : List Char} {c : Char} (isLine : line ∈ lineChars cs)
    (member : c ∈ line) : c ∈ cs := by
  fun_induction lineChars cs generalizing line with
  | case1 => cases isLine
  | case2 cs ih =>
    rcases List.mem_cons.mp isLine with rfl | isLine
    · cases member
    · exact List.mem_cons_of_mem _ (ih isLine member)
  | case3 cs ih =>
    rcases List.mem_cons.mp isLine with rfl | isLine
    · cases member
    · exact List.mem_cons_of_mem _ (List.mem_cons_of_mem _ (ih isLine member))
  | case4 d cs _ _ none ih =>
    obtain rfl := List.mem_singleton.mp isLine
    exact List.mem_cons.mpr (.inl (List.mem_singleton.mp member))
  | case5 d cs _ _ first others eq ih =>
    rcases List.mem_cons.mp isLine with rfl | isLine
    · rcases List.mem_cons.mp member with rfl | member
      · exact List.mem_cons_self
      · exact List.mem_cons_of_mem _ (ih (by simp [eq]) member)
    · exact List.mem_cons_of_mem _ (ih (by simp [eq, isLine]) member)

end CSharpGen.Text

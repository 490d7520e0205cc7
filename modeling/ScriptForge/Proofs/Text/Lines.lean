import ScriptForge.Proofs.Text.Trim

/-!
# Lines

A text with a line feed behind each of its lines splits into these lines, as long as no line holds a
line feed or ends with a carriage return. A text without line feeds is one line. When lines are
trimmed anyway, a carriage return does not matter (`exists_line`). The lines of whole lines and of
the text behind them are those of the two together (`WholeLines.lines_append`). What is sought in
lines that are trimmed is found in two texts with a line feed between them as in each of the two
(`filterMap_lines_append`).
-/

namespace ScriptForge.Text

variable {line rest : List Char}

theorem lines_cons {c : Char} (hc : c ≠ '\n') (hreturn : ∀ cs, c = '\r' → rest ≠ '\n' :: cs) :
    lines (c :: rest) = consFirst c (lines rest) := by
  rw [lines, if_neg hc]
  exact fun cs hcr hrest => hreturn cs hcr hrest

theorem lines_of_not_mem (hne : line ≠ []) (hbreak : '\n' ∉ line) : lines line = [line] := by
  induction line with
  | nil => exact absurd rfl hne
  | cons c line ih =>
    rw [List.mem_cons, not_or] at hbreak
    have hnext : ∀ cs, line ≠ '\n' :: cs := by
      rintro cs rfl
      exact hbreak.2 List.mem_cons_self
    rw [lines_cons (Ne.symm hbreak.1) fun cs _ => hnext cs]
    by_cases hnil : line = []
    · rw [hnil]
      rfl
    · rw [ih hnil hbreak.2]
      rfl

theorem lines_append (hbreak : '\n' ∉ line) (hreturn : ∀ c ∈ line.getLast?, c ≠ '\r') :
    lines (line ++ '\n' :: rest) = line :: lines rest := by
  induction line with
  | nil => simp [lines]
  | cons c line ih =>
    rw [List.mem_cons, not_or] at hbreak
    have hsplit : lines (c :: (line ++ '\n' :: rest)) =
        consFirst c (lines (line ++ '\n' :: rest)) := by
      refine lines_cons (Ne.symm hbreak.1) ?_
      rintro cs rfl hcs
      cases line with
      | nil => exact hreturn '\r' rfl rfl
      | cons d line =>
        cases hcs
        exact hbreak.2 (List.mem_cons_self)
    rw [List.cons_append, hsplit, ih hbreak.2]
    · rfl
    · intro d hd
      refine hreturn d ?_
      cases line with
      | nil => cases hd
      | cons => simpa using hd

/-! ## Carriage returns -/

theorem lines_append_return (hbreak : '\n' ∉ line) :
    lines (line ++ '\r' :: '\n' :: rest) = line :: lines rest := by
  induction line with
  | nil => rw [List.nil_append, lines]
  | cons c line ih =>
    rw [List.mem_cons, not_or] at hbreak
    have hnext : ∀ cs, line ++ '\r' :: '\n' :: rest ≠ '\n' :: cs := by
      rintro cs hcs
      cases line with
      | nil => cases hcs
      | cons d line =>
        cases hcs
        exact hbreak.2 List.mem_cons_self
    rw [List.cons_append, lines_cons (Ne.symm hbreak.1) fun cs _ => hnext cs, ih hbreak.2]
    rfl

/-- A line feed ends a line, which is the text in front of it up to blanks. -/
theorem exists_line (hbreak : '\n' ∉ line) : ∃ chomped, trim chomped = trim line ∧
    ∀ rest, lines (line ++ '\n' :: rest) = chomped :: lines rest := by
  rcases line.eq_nil_or_concat' with rfl | ⟨front, c, rfl⟩
  · exact ⟨[], rfl, fun rest => by simp [lines]⟩
  · by_cases hc : c = '\r'
    · subst hc
      refine ⟨front, (trim_append_of_blank (by simp; decide)).symm, fun rest => ?_⟩
      rw [List.append_assoc]
      exact lines_append_return fun hmem => hbreak (List.mem_append_left _ hmem)
    · refine ⟨front ++ [c], rfl, fun rest => lines_append hbreak fun d hd => ?_⟩
      rw [List.getLast?_concat] at hd
      cases hd
      exact hc

/-! ## Whole lines -/

/-- Lines in a row, each with its line feed. -/
inductive WholeLines : List Char → Prop
  | nil : WholeLines []
  | cons {line rest : List Char} : '\n' ∉ line → WholeLines rest →
      WholeLines (line ++ '\n' :: rest)

theorem WholeLines.lines_append {front : List Char} (h : WholeLines front) (rest : List Char) :
    lines (front ++ rest) = lines front ++ lines rest := by
  induction h with
  | nil => rfl
  | cons hline _ ih =>
    obtain ⟨chomped, -, hlines⟩ := exists_line hline
    rw [List.append_assoc, List.cons_append, hlines, hlines, ih, List.cons_append]

theorem WholeLines.length_lines {front : List Char} (h : WholeLines front) :
    (lines front).length = front.count '\n' := by
  induction h with
  | nil => rfl
  | @cons line rest hline _ ih =>
    obtain ⟨chomped, -, hlines⟩ := exists_line hline
    rw [hlines, List.length_cons, ih]
    simp [List.count_eq_zero.mpr hline]

theorem WholeLines.append {front back : List Char} (hfront : WholeLines front)
    (hback : WholeLines back) : WholeLines (front ++ back) := by
  induction hfront with
  | nil => exact hback
  | cons hline _ ih =>
    rw [List.append_assoc, List.cons_append]
    exact .cons hline ih

theorem WholeLines.eq_of_mem_getLast? {front : List Char} (h : WholeLines front) :
    ∀ c ∈ front.getLast?, c = '\n' := by
  induction h with
  | nil => simp
  | @cons line rest _ _ ih =>
    intro c hc
    rw [List.getLast?_append_of_ne_nil _ (List.cons_ne_nil _ _)] at hc
    cases rest with
    | nil => exact (Option.mem_some_iff.mp hc).symm
    | cons d rest => exact ih c hc

/-- A text is whole lines and a last line that has not ended. -/
theorem exists_wholeLines (cs : List Char) :
    ∃ front last, cs = front ++ last ∧ WholeLines front ∧ '\n' ∉ last := by
  induction cs with
  | nil => exact ⟨[], [], rfl, .nil, List.not_mem_nil⟩
  | cons c cs ih =>
    obtain ⟨front, last, rfl, hfront, hlast⟩ := ih
    by_cases hc : c = '\n'
    · subst hc
      exact ⟨'\n' :: front, last, rfl, .cons List.not_mem_nil hfront, hlast⟩
    · cases hfront with
      | nil => exact ⟨[], c :: last, rfl, .nil, by simp [Ne.symm hc, hlast]⟩
      | @cons line rest hline hrest =>
        exact ⟨(c :: line) ++ '\n' :: rest, last, rfl, .cons (by simp [Ne.symm hc, hline]) hrest,
          hlast⟩

/-- What is found in trimmed lines is found in the texts on either side of a line feed. -/
theorem filterMap_lines_append {α : Type} {f : List Char → Option α}
    (htrim : ∀ cs ds, trim cs = trim ds → f cs = f ds) (hnil : f [] = none) (cs ds : List Char) :
    (lines (cs ++ '\n' :: ds)).filterMap f =
      (lines cs).filterMap f ++ (lines ds).filterMap f := by
  obtain ⟨front, last, rfl, hfront, hlast⟩ := exists_wholeLines cs
  obtain ⟨chomped, hchomped, hlines⟩ := exists_line hlast
  have hend : (lines last).filterMap f = (f last).toList := by
    by_cases hne : last = []
    · rw [hne, hnil]
      rfl
    · rw [lines_of_not_mem hne hlast, List.filterMap_cons]
      cases f last <;> rfl
  calc (lines (front ++ last ++ '\n' :: ds)).filterMap f
      = (lines front ++ chomped :: lines ds).filterMap f := by
        rw [List.append_assoc, hfront.lines_append, hlines]
    _ = (lines front).filterMap f ++ ((f last).toList ++ (lines ds).filterMap f) := by
        rw [List.filterMap_append, List.filterMap_cons, htrim chomped last hchomped]
        cases f last <;> rfl
    _ = (lines (front ++ last)).filterMap f ++ (lines ds).filterMap f := by
        rw [hfront.lines_append, List.filterMap_append, hend, List.append_assoc]

/-- The end of a text, or of a line in it. -/
def IsLineEnd (tail : List Char) : Prop :=
  tail = [] ∨ ∃ rest, tail = '\n' :: rest

/-- A line up to its end is one line, up to blanks. -/
theorem exists_line_of_isLineEnd {tail : List Char} (hne : line ≠ []) (hbreak : '\n' ∉ line)
    (htail : IsLineEnd tail) :
    ∃ chomped, trim chomped = trim line ∧ lines (line ++ tail) = chomped :: lines tail.tail := by
  rcases htail with rfl | ⟨rest, rfl⟩
  · exact ⟨line, rfl, by rw [List.append_nil, lines_of_not_mem hne hbreak]; rfl⟩
  · obtain ⟨chomped, htrim, hlines⟩ := exists_line hbreak
    exact ⟨chomped, htrim, hlines rest⟩

end ScriptForge.Text

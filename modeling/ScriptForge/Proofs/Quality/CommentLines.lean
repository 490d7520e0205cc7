import ScriptForge.Proofs.Text.Lines
import ScriptForge.Proofs.Text.Search
import ScriptForge.Quality.TextCheck

/-!
# Lines of a comment

The check of line ends goes from line to line and keeps in mind whether a comment is open. A line
that ends with the mark which closes a comment has nothing to report and leaves no comment open
(`lineCode_of_closing`), a line that opens one and does not close it leaves it open
(`lineCode_of_opening`), and inside a comment it stays open (`lineCode_inside`). So the lines of a
comment are passed over as long as its text does not start with a slash (`lineFindings_comment`).
A slash makes the end of the opening mark look like the closing one (`lineFindings_slash`).
-/

namespace ScriptForge.Quality.TextCheck

open Text

/-- The mark that closes a comment. -/
def closingMark : List Char := ['*', '/']

/-- Whether a comment is open behind some lines. -/
def openAfter (inComment : Bool) (lines : List (List Char)) : Bool :=
  lines.foldl (fun isOpen line => (lineCode isOpen line).2) inComment

section

variable {inComment : Bool} {line code cs indent trail tail inner : List Char}

theorem lineFindings_cons (inComment : Bool) (number : Nat) (line : List Char)
    (rest : List (List Char)) : lineFindings inComment number (line :: rest) =
      ((lineCode inComment line).1.map (lineFinding number)).toList ++
        lineFindings (lineCode inComment line).2 (number + 1) rest := rfl

theorem lineFindings_append (inComment : Bool) (number : Nat) (first second : List (List Char)) :
    lineFindings inComment number (first ++ second) = lineFindings inComment number first ++
      lineFindings (openAfter inComment first) (number + first.length) second := by
  induction first generalizing inComment number with
  | nil => rfl
  | cons line first ih =>
    rw [List.cons_append, lineFindings_cons, lineFindings_cons, ih, List.length_cons,
      List.append_assoc, Nat.add_right_comm number 1, ← Nat.add_assoc]
    rfl

/-! ## One line -/

theorem isClosedLine_of_closing (h : code = [] ∨ closingMark <:+ code) :
    isClosedLine code = true := by
  rcases h with rfl | h
  · rfl
  · have hends : ['*', '/'].isSuffixOf code = true := List.isSuffixOf_iff_suffix.mpr h
    simp [isClosedLine, endsInAny, hends]

/-- What is left of a line behind the first closing mark ends with another one, if the line ends
with one. -/
theorem closing_of_afterFirst? {rest : List Char} (hline : closingMark <:+ line)
    (h : afterFirst? closingMark line = some rest) : rest = [] ∨ closingMark <:+ rest := by
  obtain ⟨front, rfl⟩ := hline
  obtain ⟨before, heq⟩ := exists_of_afterFirst? h
  rcases rest.eq_nil_or_concat' with rfl | ⟨rest, c, rfl⟩
  · exact .inl rfl
  · right
    have hlast : (front ++ ['*']) ++ ['/'] = (before ++ ['*', '/'] ++ rest) ++ [c] := by
      simpa [closingMark] using heq
    obtain ⟨hlast, hc⟩ := List.append_inj' hlast rfl
    rcases rest.eq_nil_or_concat' with rfl | ⟨rest, d, rfl⟩
    · -- the slash of one mark is not the star of the other
      have hslash : front ++ ['*'] = (before ++ ['*']) ++ ['/'] := by simpa using hlast
      cases (List.append_inj' hslash rfl).2
    · rw [← List.append_assoc] at hlast
      cases (List.append_inj' hlast rfl).2
      cases hc
      exact ⟨rest, by simp [closingMark]⟩

theorem trim_mark (rest : List Char) :
    trim (cs ++ '*' :: '/' :: rest) = trimStart cs ++ '*' :: '/' :: trimEnd rest := by
  rw [trim, trimStart_append_cons (by decide), ← List.singleton_append, ← List.append_assoc,
    trimEnd_append_cons (by decide)]
  simp only [List.append_assoc, List.singleton_append]

theorem trim_closing (htrail : ∀ c ∈ trail, isBlank c = true) :
    trim (cs ++ '*' :: '/' :: trail) = trimStart cs ++ closingMark := by
  have hnil : trimEnd trail = [] := by
    rw [trimEnd, List.dropWhile_eq_nil_iff.mpr (by simpa using htrail)]
    rfl
  rw [trim_mark, hnil]
  rfl

theorem not_closing_of_trim_eq (h : ¬ closingMark <:+: line) (htrim : trim cs = trim line) :
    ¬ closingMark <:+: trim cs := by
  obtain ⟨left, right, heq, -⟩ := exists_eq_trim line
  have hpart : trim line <:+: line := ⟨left, right, by rw [List.append_assoc, ← heq]⟩
  exact fun hmark => h ((htrim ▸ hmark).trans hpart)

theorem trim_suffix (h : code = [] ∨ closingMark <:+ code) :
    trim code = [] ∨ closingMark <:+ trim code := by
  rcases h with rfl | ⟨front, rfl⟩
  · exact .inl rfl
  · right
    have htrim := @trim_closing front [] (by simp)
    rw [show front ++ closingMark = front ++ '*' :: '/' :: [] from rfl, htrim]
    exact List.suffix_append _ _

/-- A line that ends with the closing mark is passed over. -/
theorem lineCode_of_closing (h : closingMark <:+ trim line) :
    lineCode inComment line = (none, false) := by
  obtain ⟨code, hcode, hclosing⟩ : ∃ code,
      (if inComment then (afterFirst? ['*', '/'] (trim line)).map trim else some (trim line)) =
        some code ∧ (code = [] ∨ closingMark <:+ code) := by
    cases inComment with
    | false => exact ⟨trim line, rfl, .inr h⟩
    | true =>
      cases hafter : afterFirst? closingMark (trim line) with
      | none => exact absurd h.isInfix ((afterFirst?_eq_none_iff (by decide)).mp hafter)
      | some rest =>
        refine ⟨trim rest, ?_, trim_suffix (closing_of_afterFirst? h hafter)⟩
        rw [if_pos rfl, show ['*', '/'] = closingMark from rfl, hafter]
        rfl
  have hopens : (['/', '*'].isPrefixOf code && !containsWord ['*', '/'] code) = false := by
    rcases hclosing with rfl | hclosing
    · rfl
    · have hcontains : containsWord ['*', '/'] code = true :=
        (containsWord_iff (by decide)).mpr hclosing.isInfix
      simp [hcontains]
  rw [lineCode]
  simp only [hcode, hopens, isClosedLine_of_closing hclosing]
  rfl

/-- Inside a comment a line without the closing mark is passed over. -/
theorem lineCode_inside (h : ¬ closingMark <:+: trim line) :
    lineCode true line = (none, true) := by
  have hafter : afterFirst? ['*', '/'] (trim line) = none :=
    (afterFirst?_eq_none_iff (by decide)).mpr h
  rw [lineCode, if_pos rfl, hafter]
  rfl

/-- A line that opens a comment and does not close it is passed over. -/
theorem lineCode_of_opening (hopens : ['/', '*'] <+: trim line)
    (h : ¬ closingMark <:+: trim line) : lineCode inComment line = (none, true) := by
  cases inComment with
  | true => exact lineCode_inside h
  | false =>
    have hcontains : containsWord ['*', '/'] (trim line) = false :=
      eq_false_of_ne_true (mt (containsWord_iff (by decide)).mp h)
    have hstarts : ['/', '*'].isPrefixOf (trim line) = true :=
      List.isPrefixOf_iff_prefix.mpr hopens
    rw [lineCode]
    simp only [if_neg Bool.false_ne_true, hstarts, hcontains]
    rfl

/-- A line that opens a comment and has a closing mark in it is passed over. -/
theorem lineCode_of_comment (hopens : ['/', '*'] <+: trim line)
    (h : closingMark <:+: trim line) : lineCode false line = (none, false) := by
  have hcontains : containsWord ['*', '/'] (trim line) = true :=
    (containsWord_iff (by decide)).mpr h
  have hstarts : ['/', '*'].isPrefixOf (trim line) = true :=
    List.isPrefixOf_iff_prefix.mpr hopens
  rw [lineCode]
  simp [hcontains, hstarts, isClosedLine]

theorem lineCode_of_trim_eq_nil (h : trim line = []) :
    lineCode inComment line = (none, inComment) := by
  rw [lineCode, h]
  cases inComment <;> rfl

/-! ## Lines in a row -/

theorem openAfter_cons (inComment : Bool) (line : List Char) (rest : List (List Char)) :
    openAfter inComment (line :: rest) = openAfter (lineCode inComment line).2 rest := rfl

theorem openAfter_append (inComment : Bool) (first second : List (List Char)) :
    openAfter inComment (first ++ second) = openAfter (openAfter inComment first) second :=
  List.foldl_append

/-- Blanks on one line. -/
def IsIndent (cs : List Char) : Prop :=
  ∀ c ∈ cs, isBlank c = true ∧ c ≠ '\n'

instance : Decidable (IsIndent cs) :=
  List.decidableBAll _ cs

theorem IsIndent.isBlank (h : IsIndent cs) : ∀ c ∈ cs, isBlank c = true :=
  fun c hc => (h c hc).1

theorem IsIndent.not_mem (h : IsIndent cs) : '\n' ∉ cs :=
  fun hmem => (h _ hmem).2 rfl

theorem IsIndent.openAfter_eq (h : IsIndent cs) (inComment : Bool) :
    openAfter inComment (lines cs) = inComment := by
  by_cases hnil : cs = []
  · rw [hnil]
    rfl
  · have htrim : trim cs = [] := by
      rw [trim, trimStart, List.dropWhile_eq_nil_iff.mpr h.isBlank]
      rfl
    rw [lines_of_not_mem hnil h.not_mem, openAfter, List.foldl_cons,
      lineCode_of_trim_eq_nil htrim]
    rfl

/-- The last line of a comment. -/
theorem lineFindings_closing (hbreak : '\n' ∉ cs) (htrail : IsIndent trail)
    (htail : IsLineEnd tail) (inComment : Bool) (number : Nat) :
    lineFindings inComment number (lines (cs ++ '*' :: '/' :: (trail ++ tail))) =
      lineFindings false (number + 1) (lines tail.tail) := by
  have hline : '\n' ∉ cs ++ '*' :: '/' :: trail := by simp [hbreak, htrail.not_mem]
  obtain ⟨chomped, htrim, hlines⟩ := exists_line_of_isLineEnd (by simp) hline htail
  have hassoc : cs ++ '*' :: '/' :: (trail ++ tail) = (cs ++ '*' :: '/' :: trail) ++ tail := by
    simp only [List.append_assoc, List.cons_append]
  have hmark : closingMark <:+ trim chomped := by
    rw [htrim, trim_closing htrail.isBlank]
    exact List.suffix_append _ _
  rw [hassoc, hlines, lineFindings_cons, lineCode_of_closing hmark]
  rfl

/-- The lines of a comment that is open, to its end. -/
theorem lineFindings_inside (hinner : ¬ closingMark <:+: inner) (htrail : IsIndent trail)
    (htail : IsLineEnd tail) (number : Nat) :
    lineFindings true number (lines (inner ++ '*' :: '/' :: (trail ++ tail))) =
      lineFindings false (number + inner.count '\n' + 1) (lines tail.tail) := by
  obtain ⟨front, last, rfl, hfront, hlast⟩ := exists_wholeLines inner
  induction hfront generalizing number with
  | nil =>
    rw [List.nil_append, List.count_eq_zero.mpr hlast]
    exact lineFindings_closing hlast htrail htail true number
  | @cons line rest hline _ ih =>
    obtain ⟨chomped, htrim, hlines⟩ := exists_line hline
    have hline' : ¬ closingMark <:+: line := fun hmark => hinner <|
      hmark.trans (by rw [List.append_assoc]; exact (List.prefix_append _ _).isInfix)
    have hnot := not_closing_of_trim_eq hline' htrim
    have hmore : ¬ closingMark <:+: rest ++ last := fun hmark => hinner <|
      hmark.trans ⟨line ++ ['\n'], [], by simp⟩
    have hassoc : line ++ '\n' :: rest ++ last ++ '*' :: '/' :: (trail ++ tail) =
        line ++ '\n' :: (rest ++ last ++ '*' :: '/' :: (trail ++ tail)) := by
      simp only [List.append_assoc, List.cons_append]
    have hcount : (line ++ '\n' :: rest ++ last).count '\n' = (rest ++ last).count '\n' + 1 := by
      simp [List.count_eq_zero.mpr hline]
    rw [hassoc, hlines, lineFindings_cons, lineCode_inside hnot, hcount, ← Nat.add_assoc,
      Nat.add_right_comm number]
    exact ih (number + 1) hmore

/-- Behind lines of a comment that do not close it, it is still open. -/
theorem openAfter_inside (hinner : ¬ closingMark <:+: inner) (hwhole : WholeLines inner) :
    openAfter true (lines inner) = true := by
  induction hwhole with
  | nil => rfl
  | @cons line rest hline _ ih =>
    obtain ⟨chomped, htrim, hlines⟩ := exists_line hline
    have hfirst : ¬ closingMark <:+: line := fun hmark =>
      hinner (hmark.trans (List.prefix_append _ _).isInfix)
    have hmore : ¬ closingMark <:+: rest := fun hmark => hinner <|
      hmark.trans ⟨line ++ ['\n'], [], by simp⟩
    rw [hlines, openAfter_cons, lineCode_inside (not_closing_of_trim_eq hfirst htrim)]
    exact ih hmore

theorem trim_opening (hindent : IsIndent indent) (line : List Char) :
    trim (indent ++ '/' :: '*' :: line) = '/' :: '*' :: trimEnd line := by
  rw [trim, trimStart, List.dropWhile_append_of_pos hindent.isBlank, ← trimStart,
    trimStart_cons_of_not_blank (by decide)]
  exact @trimEnd_append_cons ['/'] '*' (by decide) line

/-- The first line of a comment, if the comment does not end on it. -/
theorem lineCode_of_indent (hindent : IsIndent indent) (hline : ¬ closingMark <:+: line)
    (hslash : line.head? ≠ some '/') (htrim : trim cs = trim (indent ++ '/' :: '*' :: line)) :
    lineCode inComment cs = (none, true) := by
  have hcode : trim cs = '/' :: '*' :: trimEnd line := htrim.trans (trim_opening hindent _)
  have hfront : trimEnd line <+: line := trimEnd_prefix_self line
  refine lineCode_of_opening (hcode ▸ ⟨trimEnd line, rfl⟩) (hcode ▸ fun hmark => ?_)
  rcases List.infix_cons_iff.mp hmark with hstart | hmark
  · cases (List.cons_prefix_cons.mp hstart).1
  rcases List.infix_cons_iff.mp hmark with hstart | hmark
  · obtain ⟨more, hmore⟩ := (List.cons_prefix_cons.mp hstart).2.trans hfront
    exact hslash (by rw [← hmore]; rfl)
  · exact hline (hmark.trans hfront.isInfix)

/-- The lines of a comment from its opening mark on. Nothing is reported on them, and behind them no
comment is open, whether one was open in front of them or not. -/
theorem lineFindings_comment (hindent : IsIndent indent)
    (hinner : ¬ closingMark <:+: inner) (hslash : inner.head? = some '/' → '\n' ∉ inner)
    (htrail : IsIndent trail) (htail : IsLineEnd tail) (inComment : Bool) (number : Nat) :
    lineFindings inComment number
        (lines (indent ++ '/' :: '*' :: (inner ++ '*' :: '/' :: (trail ++ tail)))) =
      lineFindings false (number + inner.count '\n' + 1) (lines tail.tail) := by
  by_cases hbreak : '\n' ∈ inner
  · obtain ⟨line, inner, rfl, hline⟩ := List.eq_append_cons_of_mem hbreak
    have hfirst : '\n' ∉ indent ++ '/' :: '*' :: line := by simp [hindent.not_mem, hline]
    obtain ⟨chomped, htrim, hlines⟩ := exists_line hfirst
    have hopens : ¬ closingMark <:+: line := fun hmark =>
      hinner (hmark.trans (List.prefix_append _ _).isInfix)
    have hhead : line.head? ≠ some '/' := by
      rintro hhead
      obtain ⟨more, rfl⟩ := List.head?_eq_some_iff.mp hhead
      exact hslash rfl hbreak
    have hmore : ¬ closingMark <:+: inner := fun hmark =>
      hinner (hmark.trans ⟨line ++ ['\n'], [], by simp⟩)
    have hassoc : indent ++ '/' :: '*' :: (line ++ '\n' :: inner ++ '*' :: '/' :: (trail ++ tail)) =
        (indent ++ '/' :: '*' :: line) ++ '\n' :: (inner ++ '*' :: '/' :: (trail ++ tail)) := by
      simp only [List.append_assoc, List.cons_append]
    have hcount : (line ++ '\n' :: inner).count '\n' = inner.count '\n' + 1 := by
      simp [List.count_eq_zero.mpr hline]
    rw [hassoc, hlines, lineFindings_cons, lineCode_of_indent hindent hopens hhead htrim, hcount,
      ← Nat.add_assoc, Nat.add_right_comm number]
    exact lineFindings_inside hmore htrail htail (number + 1)
  · have hassoc : indent ++ '/' :: '*' :: (inner ++ '*' :: '/' :: (trail ++ tail)) =
        (indent ++ '/' :: '*' :: inner) ++ '*' :: '/' :: (trail ++ tail) := by
      simp only [List.append_assoc, List.cons_append]
    rw [hassoc, List.count_eq_zero.mpr hbreak]
    exact lineFindings_closing (by simp [hindent.not_mem, hbreak]) htrail htail inComment number

/-- The first line of a comment whose text starts with a slash. -/
theorem lineCode_of_slash (hindent : IsIndent indent)
    (htrim : trim cs = trim (indent ++ '/' :: '*' :: '/' :: line)) :
    lineCode false cs = (none, false) := by
  have hslash : trimEnd ('/' :: line) = '/' :: trimEnd line :=
    @trimEnd_append_cons [] '/' (by decide) line
  have hcode : trim cs = '/' :: '*' :: '/' :: trimEnd line := by
    rw [htrim, trim_opening hindent, hslash]
  exact lineCode_of_comment (hcode ▸ ⟨'/' :: trimEnd line, rfl⟩)
    (hcode ▸ ⟨['/'], trimEnd line, rfl⟩)

/-- Behind a slash the text of a comment is taken for code from its second line on. -/
theorem lineFindings_slash (hindent : IsIndent indent) (hbreak : '\n' ∉ line) (rest : List Char)
    (number : Nat) :
    lineFindings false number (lines (indent ++ '/' :: '*' :: '/' :: (line ++ '\n' :: rest))) =
      lineFindings false (number + 1) (lines rest) := by
  have hfirst : '\n' ∉ indent ++ '/' :: '*' :: '/' :: line := by simp [hindent.not_mem, hbreak]
  obtain ⟨chomped, htrim, hlines⟩ := exists_line hfirst
  have hassoc : indent ++ '/' :: '*' :: '/' :: (line ++ '\n' :: rest) =
      (indent ++ '/' :: '*' :: '/' :: line) ++ '\n' :: rest := by
    simp only [List.append_assoc, List.cons_append]
  rw [hassoc, hlines, lineFindings_cons, lineCode_of_slash hindent htrim]
  rfl

end

end ScriptForge.Quality.TextCheck

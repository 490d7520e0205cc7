import ScriptForge.Proofs.Quality.Comments

/-!
# Code behind a comment

Code may follow on the line on which a comment ends. If the comment has been opened on an earlier
line, it is cut off and the code is judged for itself (`lineCode_behind`). If it has been opened on
the same line, the line is taken for one that holds nothing but a comment and is passed over
(`lineCode_of_comment`). So whether a missing terminator is reported depends on where the comment
was opened (`code_behind_comment`).
-/

namespace ScriptForge.Quality

open Text

namespace TextCheck

/-- The marks that open and close comments. -/
def commentMarks : List (List Char) :=
  [['/', '/'], ['/', '*'], ['*', '/']]

/-- Code on one line that needs a terminator and has none. -/
structure LacksTerminator (code : List Char) : Prop where
  not_mem : '\n' ∉ code
  unmarked : ∀ mark ∈ commentMarks, ¬ mark <:+: code
  ne_nil : trim code ≠ []
  last : (trim code).getLast? ∉ [some ';', some '\x7b', some '\x7d']

section

variable {line other cs code rest front tail : List Char}

/-! ## One line -/

theorem lineCode_congr (h : trim line = trim other) (inComment : Bool) :
    lineCode inComment line = lineCode inComment other := by
  rw [lineCode, lineCode, h]

theorem afterFirst?_mark (h : ¬ closingMark <:+: cs) :
    afterFirst? closingMark (cs ++ '*' :: '/' :: rest) = some rest := by
  induction cs with
  | nil => rfl
  | cons c cs ih =>
    have hcs : ¬ closingMark <:+: cs := fun hmark => h (List.infix_cons_iff.mpr (.inr hmark))
    have hnone : after? closingMark (c :: (cs ++ '*' :: '/' :: rest)) = none := by
      refine Option.eq_none_iff_forall_ne_some.mpr fun more hmore => ?_
      have heq := after?_eq_some_iff.mp hmore
      cases cs with
      | nil => cases heq
      | cons d cs =>
        cases heq
        exact h ⟨[], cs, rfl⟩
    rw [List.cons_append, afterFirst?, hnone]
    exact ih hcs

theorem trim_trimEnd (cs : List Char) : trim (trimEnd cs) = trim cs := by
  have hright : ∀ c ∈ cs.rtakeWhile isBlank, isBlank c = true :=
    fun _ hc => List.mem_rtakeWhile_imp hc
  have hsplit : trimEnd cs ++ cs.rtakeWhile isBlank = cs := by
    rw [trimEnd_eq_rdropWhile, List.rdropWhile_append_rtakeWhile]
  rw [← trim_append_of_blank hright, hsplit]

namespace LacksTerminator

variable (hcode : LacksTerminator code)

include hcode

theorem exists_concat : ∃ body c, trim code = body ++ [c] ∧ c ∉ [';', '\x7b', '\x7d'] := by
  rcases (trim code).eq_nil_or_concat' with hnil | ⟨body, c, hlast⟩
  · exact absurd hnil hcode.ne_nil
  · refine ⟨body, c, hlast, ?_⟩
    simpa [hlast] using hcode.last

theorem not_infix_trim {mark : List Char} (hmark : mark ∈ commentMarks) :
    ¬ mark <:+: trim code := by
  intro h
  obtain ⟨left, right, heq, -⟩ := exists_eq_trim code
  exact hcode.unmarked mark hmark
    (h.trans ⟨left, right, by rw [List.append_assoc, ← heq]⟩)

theorem exists_trimEnd_eq : ∃ left, (∀ c ∈ left, isBlank c = true) ∧
    trimEnd code = left ++ trim code := by
  obtain ⟨left, right, heq, hleft, hright⟩ := exists_eq_trim code
  refine ⟨left, hleft, ?_⟩
  conv_lhs => rw [heq, ← List.append_assoc, trimEnd_append hright]
  exact trimEnd_append_of_ne_nil (trim_eq_self_iff.mp (trim_trim code)).2 hcode.ne_nil

/-- Nothing at the end of the code closes its line. -/
theorem endsInAny_eq_false (hfront : ∀ c ∈ front.getLast?, c ≠ '*') :
    endsInAny [[';'], ['\x7b'], ['\x7d'], ['*', '/']] (front ++ trim code) = false := by
  obtain ⟨body, c, hlast, hc⟩ := hcode.exists_concat
  have hsplit : ∀ {word : List Char} {x : Char}, word ++ [x] <:+ front ++ trim code →
      x = c ∧ word <:+ front ++ body := by
    rintro word x ⟨lead, heq⟩
    rw [hlast, ← List.append_assoc, ← List.append_assoc] at heq
    obtain ⟨hword, hx⟩ := List.append_inj' heq rfl
    exact ⟨(List.cons.inj hx).1, lead, hword⟩
  have hstar : ¬ ['*', '/'] <:+ front ++ trim code := by
    intro hmark
    obtain ⟨rfl, hstar⟩ := @hsplit ['*'] '/' hmark
    rcases body.eq_nil_or_concat' with rfl | ⟨body, d, rfl⟩
    · obtain ⟨lead, heq⟩ := hstar
      rw [List.append_nil] at heq
      exact hfront '*' (by rw [← heq, List.getLast?_concat]; rfl) rfl
    · obtain ⟨lead, heq⟩ := hstar
      rw [← List.append_assoc] at heq
      cases (List.append_inj' heq rfl).2
      have hmark : ['*', '/'] ∈ commentMarks := by decide
      exact hcode.not_infix_trim hmark ⟨body, [], by rw [hlast]; simp⟩
  refine eq_false_of_ne_true fun hends => ?_
  obtain ⟨word, hword, hsuffix⟩ := List.any_eq_true.mp hends
  rw [List.isSuffixOf_iff_suffix] at hsuffix
  simp only [List.mem_cons, List.not_mem_nil, or_false] at hword
  rcases hword with rfl | rfl | rfl | rfl
  · exact hc ((@hsplit [] _ hsuffix).1 ▸ by decide)
  · exact hc ((@hsplit [] _ hsuffix).1 ▸ by decide)
  · exact hc ((@hsplit [] _ hsuffix).1 ▸ by decide)
  · exact hstar hsuffix

/-- Code with a mark in front of it closes its line only if the line starts like a comment. -/
theorem isClosedLine_iff (hfront : ∀ c ∈ front.getLast?, c ≠ '*') :
    isClosedLine (front ++ trim code) = true ↔
      ['/', '/'] <+: front ++ trim code ∨ ['/', '*'] <+: front ++ trim code := by
  have hempty : (front ++ trim code).isEmpty = false := by simp [hcode.ne_nil]
  rw [isClosedLine, hempty, hcode.endsInAny_eq_false hfront]
  simp

/-- Behind a comment that is open from an earlier line, the code is judged for itself. -/
theorem lineCode_behind (hcs : ¬ closingMark <:+: cs)
    (hline : trim line = trim (cs ++ '*' :: '/' :: code)) :
    lineCode true line = (some (trim code), false) := by
  have hcs : ¬ closingMark <:+: trimStart cs := fun h => hcs (h.trans (trimStart_suffix cs).isInfix)
  have hafter : afterFirst? ['*', '/'] (trim line) = some (trimEnd code) := by
    rw [hline, trim_mark]
    exact afterFirst?_mark hcs
  have hopens : ['/', '*'].isPrefixOf (trim code) = false := by
    refine eq_false_of_ne_true fun h => ?_
    exact hcode.not_infix_trim (by decide) (List.isPrefixOf_iff_prefix.mp h).isInfix
  have hclosed : isClosedLine (trim code) = false := by
    refine eq_false_of_ne_true fun h => ?_
    rw [← List.nil_append (trim code), hcode.isClosedLine_iff (by simp), List.nil_append] at h
    rcases h with h | h
    · exact hcode.not_infix_trim (by decide) h.isInfix
    · exact hcode.not_infix_trim (by decide) h.isInfix
  rw [lineCode, if_pos rfl, hafter]
  simp only [Option.map_some, trim_trimEnd, hopens, hclosed]
  rfl

/-- What is in front of the code belongs to it if no comment is open. -/
theorem lineCode_unopened_iff (hline : trim line = trim (cs ++ '*' :: '/' :: code)) :
    (lineCode false line).1.isSome = true ↔
      ¬ (['/', '/'] <+: trimStart cs ++ closingMark ∨
        ['/', '*'] <+: trimStart cs ++ closingMark) := by
  obtain ⟨left, hleft, hcode'⟩ := hcode.exists_trimEnd_eq
  have hlast : ∀ c ∈ (trimStart cs ++ closingMark ++ left).getLast?, c ≠ '*' := by
    rintro _ hc rfl
    rcases left.eq_nil_or_concat' with rfl | ⟨left, d, rfl⟩
    · rw [List.append_nil, List.getLast?_append_of_ne_nil _ (by decide)] at hc
      cases hc
    · rw [← List.append_assoc, List.getLast?_concat] at hc
      cases hc
      cases hleft '*' (by simp)
  have htrim : trim line = trimStart cs ++ closingMark ++ left ++ trim code := by
    rw [hline, trim_mark, hcode']
    simp [closingMark]
  have hcontains : containsWord ['*', '/'] (trim line) = true := by
    refine (containsWord_iff (by decide)).mpr ⟨trimStart cs, left ++ trim code, ?_⟩
    rw [htrim]
    simp [closingMark]
  have hmarks : ∀ {mark : List Char}, mark.length ≤ 2 →
      (mark <+: trimStart cs ++ closingMark ++ left ++ trim code ↔
        mark <+: trimStart cs ++ closingMark) := by
    intro mark hmark
    rw [List.append_assoc, List.isPrefix_append_of_length]
    exact hmark.trans (by simp [closingMark])
  have hclosed := hcode.isClosedLine_iff hlast
  rw [hmarks (by decide), hmarks (by decide), ← htrim] at hclosed
  rw [← hclosed, lineCode]
  simp [hcontains]

end LacksTerminator

/-- Behind a comment that has been opened on the same line, no code is judged. -/
theorem lineCode_commented {indent inner : List Char} (hindent : IsIndent indent)
    (code : List Char) :
    lineCode false (indent ++ '/' :: '*' :: (inner ++ '*' :: '/' :: code)) = (none, false) := by
  have hcode : trimEnd (inner ++ '*' :: '/' :: code) = inner ++ '*' :: '/' :: trimEnd code := by
    rw [trimEnd_append_cons (by decide)]
    exact congrArg (inner ++ '*' :: ·) (@trimEnd_append_cons [] '/' (by decide) code)
  have htrim := trim_opening hindent (inner ++ '*' :: '/' :: code)
  rw [hcode] at htrim
  refine lineCode_of_comment (htrim ▸ ⟨_, rfl⟩) (htrim ▸ ⟨'/' :: '*' :: inner, trimEnd code, ?_⟩)
  simp [closingMark]

/-! ## Lines in a row -/

/-- The findings for lines carry the numbers of these lines. -/
theorem exists_line_of_mem {inComment : Bool} {number : Nat} {lines : List (List Char)}
    {finding : Finding} (h : finding ∈ lineFindings inComment number lines) :
    ∃ n, finding.line = some n ∧ number ≤ n ∧ n < number + lines.length := by
  induction lines generalizing inComment number with
  | nil => cases h
  | cons line rest ih =>
    rw [lineFindings_cons, List.mem_append, Option.mem_toList, Option.map_eq_some_iff] at h
    rw [List.length_cons]
    rcases h with ⟨_, -, rfl⟩ | h
    · exact ⟨number, rfl, Nat.le_refl number, by omega⟩
    · obtain ⟨n, hn, hlow, hhigh⟩ := ih h
      exact ⟨n, hn, by omega, by omega⟩

/-- What is found on the lines of a text, with one line of it taken out. -/
theorem lineFindings_around (hfront : WholeLines front) (hne : line ≠ []) (hbreak : '\n' ∉ line)
    (htail : IsLineEnd tail) :
    let judged := lineCode (openAfter false (lines front)) line
    lineFindings false 1 (lines (front ++ (line ++ tail))) =
      lineFindings false 1 (lines front) ++
        ((judged.1.map (lineFinding (1 + front.count '\n'))).toList ++
          lineFindings judged.2 (1 + front.count '\n' + 1) (lines tail.tail)) := by
  obtain ⟨chomped, htrim, hlines⟩ := exists_line_of_isLineEnd hne hbreak htail
  rw [hfront.lines_append, hlines, lineFindings_append, lineFindings_cons, hfront.length_lines,
    lineCode_congr htrim]

theorem mem_findings_of_mem_lineFindings {text : List Char} {finding : Finding}
    (h : finding ∈ lineFindings false 1 (lines text)) :
    finding ∈ findings (String.ofList text) := by
  rw [findings, String.toList_ofList]
  exact List.mem_append_left _ (List.mem_append_right _ h)

theorem mem_lineFindings_of_check {text : List Char} {finding : Finding}
    (h : finding ∈ findings (String.ofList text)) (hcheck : finding.check = .termination) :
    finding ∈ lineFindings false 1 (lines text) := by
  rw [findings, String.toList_ofList] at h
  simp only [List.mem_append] at h
  rcases h with ((h | h) | h) | h
  · rw [serviceFindings] at h
    split at h
    · cases h
    · rw [List.mem_singleton.mp h] at hcheck
      cases hcheck
  · cases hcheck.symm.trans (check_of_mem_namingFindings h)
  · exact h
  · cases hcheck.symm.trans (check_of_mem_blockFindings h)

/-- Code that is judged on a line is reported with the number of the line. -/
theorem lineFinding_mem (hfront : WholeLines front) (hne : line ≠ []) (hbreak : '\n' ∉ line)
    (htail : IsLineEnd tail)
    (hcode : (lineCode (openAfter false (lines front)) line).1 = some code) :
    lineFinding (1 + front.count '\n') code ∈
      findings (String.ofList (front ++ (line ++ tail))) := by
  refine mem_findings_of_mem_lineFindings ?_
  rw [lineFindings_around hfront hne hbreak htail, hcode]
  simp

/-- Whether the missing terminator of a line is reported. -/
def LineReported (text : List Char) (number : Nat) : Prop :=
  ∃ finding ∈ ((⟨.fallback⟩ : Validator).validate (String.ofList text)).findings,
    finding.check = .termination ∧ finding.line = some number

/-- A line is reported exactly if there is code to judge on it. -/
theorem lineReported_iff (hfront : WholeLines front) (hne : line ≠ []) (hbreak : '\n' ∉ line)
    (htail : IsLineEnd tail) : LineReported (front ++ (line ++ tail)) (1 + front.count '\n') ↔
      (lineCode (openAfter false (lines front)) line).1.isSome = true := by
  constructor
  · rintro ⟨finding, hmem, hcheck, hnumber⟩
    have hmem := mem_lineFindings_of_check hmem hcheck
    rw [lineFindings_around hfront hne hbreak htail, List.mem_append, List.mem_append] at hmem
    rcases hmem with h | h | h
    · obtain ⟨n, hn, -, hhigh⟩ := exists_line_of_mem h
      cases hn.symm.trans hnumber
      rw [hfront.length_lines] at hhigh
      omega
    · rw [Option.mem_toList, Option.map_eq_some_iff] at h
      obtain ⟨code, hcode, -⟩ := h
      rw [hcode]
      rfl
    · obtain ⟨n, hn, hlow, -⟩ := exists_line_of_mem h
      cases hn.symm.trans hnumber
      omega
  · intro h
    obtain ⟨code, hcode⟩ := Option.isSome_iff_exists.mp h
    exact ⟨_, lineFinding_mem hfront hne hbreak htail hcode, rfl, rfl⟩

/-! ## Where a comment ends -/

/-- A comment over several lines: its last line stands behind whole lines, and whether a comment is
open in front of it is decided on its first line and the ones between. -/
theorem exists_first_line {first more last indent : List Char} (hfront : WholeLines front)
    (hindent : IsIndent indent) (hfirst : '\n' ∉ first) (hmore : WholeLines more)
    (hlast : '\n' ∉ last) (code tail : List Char) :
    ∃ whole chomped, WholeLines whole ∧
      commented (front ++ indent) (first ++ '\n' :: (more ++ last)) (code ++ tail) =
        whole ++ ((last ++ '*' :: '/' :: code) ++ tail) ∧
      1 + (front ++ indent).count '\n' + (first ++ '\n' :: (more ++ last)).count '\n' =
        1 + whole.count '\n' ∧
      trim chomped = trim (indent ++ '/' :: '*' :: first) ∧
      openAfter false (lines whole) =
        openAfter (lineCode (openAfter false (lines (front ++ indent))) chomped).2
          (lines more) := by
  have hopening : '\n' ∉ indent ++ '/' :: '*' :: first := by simp [hindent.not_mem, hfirst]
  obtain ⟨chomped, htrim, hlines⟩ := exists_line hopening
  refine ⟨front ++ ((indent ++ '/' :: '*' :: first) ++ '\n' :: more), chomped,
    hfront.append (.cons hopening hmore), ?_, ?_, htrim, ?_⟩
  · simp [commented]
  · simp [List.count_eq_zero.mpr hindent.not_mem, List.count_eq_zero.mpr hfirst,
      List.count_eq_zero.mpr hlast]
    omega
  · rw [hfront.lines_append, openAfter_append, hlines, openAfter_cons, hfront.lines_append,
      openAfter_append, hindent.openAfter_eq]

variable {before inner : List Char} (hstart : StartsLine before)
  (hinner : ¬ closingMark <:+: inner) (hcode : LacksTerminator code) (htail : IsLineEnd tail)

include hstart hcode htail

/-- Behind a comment on one line nothing is reported. -/
theorem not_lineReported_commented (hbreak : '\n' ∉ inner)
    (hopen : openAfter false (lines before) = false) :
    ¬ LineReported (commented before inner (code ++ tail))
      (1 + before.count '\n' + inner.count '\n') := by
  obtain ⟨front, indent, rfl, hfront, hindent⟩ := hstart
  have htext : commented (front ++ indent) inner (code ++ tail) = front ++
      ((indent ++ '/' :: '*' :: (inner ++ '*' :: '/' :: code)) ++ tail) := by
    simp [commented]
  have hnumber : 1 + (front ++ indent).count '\n' + inner.count '\n' = 1 + front.count '\n' := by
    simp [List.count_eq_zero.mpr hindent.not_mem, List.count_eq_zero.mpr hbreak]
  have hbreak : '\n' ∉ indent ++ '/' :: '*' :: (inner ++ '*' :: '/' :: code) := by
    simp [hindent.not_mem, hbreak, hcode.not_mem]
  rw [hfront.lines_append, openAfter_append, hindent.openAfter_eq] at hopen
  rw [htext, hnumber, lineReported_iff hfront (by simp) hbreak htail, hopen,
    lineCode_commented hindent]
  exact Bool.false_ne_true

include hinner

/-- Behind a comment over several lines the missing terminator is reported. -/
theorem lineFinding_mem_commented (hbreak : '\n' ∈ inner) (hslash : inner.head? ≠ some '/') :
    lineFinding (1 + before.count '\n' + inner.count '\n') (trim code) ∈
      findings (String.ofList (commented before inner (code ++ tail))) := by
  obtain ⟨front, indent, rfl, hfront, hindent⟩ := hstart
  obtain ⟨first, rest, rfl, hfirst⟩ := List.eq_append_cons_of_mem hbreak
  obtain ⟨more, last, rfl, hmore, hlast⟩ := exists_wholeLines rest
  obtain ⟨whole, chomped, hwhole, htext, hnumber, htrim, hopen⟩ :=
    exists_first_line hfront hindent hfirst hmore hlast code tail
  have hopens : ¬ closingMark <:+: first := fun h =>
    hinner (h.trans (List.prefix_append _ _).isInfix)
  have hinside : ¬ closingMark <:+: more := fun h =>
    hinner (h.trans ⟨first ++ ['\n'], last, by simp⟩)
  have hcloses : ¬ closingMark <:+: last := fun h =>
    hinner (h.trans ⟨first ++ '\n' :: more, [], by simp⟩)
  have hhead : first.head? ≠ some '/' := by
    cases first with
    | nil => simp
    | cons => exact hslash
  rw [lineCode_of_indent hindent hopens hhead htrim, openAfter_inside hinside hmore] at hopen
  rw [htext, hnumber]
  refine lineFinding_mem hwhole (by simp) (by simp [hlast, hcode.not_mem]) htail ?_
  rw [hopen, hcode.lineCode_behind hcloses rfl]

/-- If the text of a comment over several lines starts with a slash, no comment is opened by it, and
its last line is passed over only if it starts like a comment of its own. -/
theorem lineReported_slash_iff {first more last : List Char}
    (heq : inner = '/' :: (first ++ '\n' :: (more ++ last))) (hfirst : '\n' ∉ first)
    (hmore : WholeLines more) (hlast : '\n' ∉ last)
    (hopen : openAfter false (lines before) = false) :
    LineReported (commented before inner (code ++ tail))
        (1 + before.count '\n' + inner.count '\n') ↔
      openAfter false (lines more) = true ∨
        ¬ (['/', '/'] <+: trimStart last ++ closingMark ∨
          ['/', '*'] <+: trimStart last ++ closingMark) := by
  obtain ⟨front, indent, rfl, hfront, hindent⟩ := hstart
  subst heq
  have hslash : '\n' ∉ '/' :: first := by simp [hfirst]
  obtain ⟨whole, chomped, hwhole, htext, hnumber, htrim, hopens⟩ :=
    exists_first_line hfront hindent hslash hmore hlast code tail
  have hcloses : ¬ closingMark <:+: last := fun h =>
    hinner (h.trans ⟨'/' :: (first ++ '\n' :: more), [], by simp⟩)
  rw [hopen, lineCode_of_slash hindent htrim] at hopens
  rw [List.cons_append] at htext hnumber
  rw [htext, hnumber, lineReported_iff hwhole (by simp) (by simp [hlast, hcode.not_mem]) htail,
    hopens]
  cases hstate : openAfter false (lines more) with
  | true => simp [hcode.lineCode_behind hcloses rfl]
  | false => simpa using hcode.lineCode_unopened_iff rfl

end

end TextCheck

open TextCheck

/-- **Code behind a comment.** A missing terminator behind a comment over several lines is reported
with the number of the line. Behind a comment on one line it is not reported. If the text of a
comment over several lines starts with a slash, its other lines are judged as code, and the last one
is reported unless it starts like a comment of its own. -/
theorem code_behind_comment {before inner code tail : List Char} (hstart : StartsLine before)
    (hinner : ¬ closingMark <:+: inner) (hcode : LacksTerminator code) (htail : IsLineEnd tail) :
    let text := commented before inner (code ++ tail)
    let number := 1 + before.count '\n' + inner.count '\n'
    ('\n' ∈ inner → inner.head? ≠ some '/' →
      lineFinding number (trim code) ∈
          ((⟨.fallback⟩ : Validator).validate (String.ofList text)).findings ∧
        (lineFinding number (trim code)).Cites .termination
          ⟨number, String.ofList (trim code)⟩) ∧
    ('\n' ∉ inner → openAfter false (lines before) = false → ¬ LineReported text number) ∧
    ∀ first more last, inner = '/' :: (first ++ '\n' :: (more ++ last)) → '\n' ∉ first →
      WholeLines more → '\n' ∉ last → openAfter false (lines before) = false →
        (LineReported text number ↔ openAfter false (lines more) = true ∨
          ¬ (['/', '/'] <+: trimStart last ++ closingMark ∨
            ['/', '*'] <+: trimStart last ++ closingMark)) :=
  ⟨fun hbreak hslash => ⟨lineFinding_mem_commented hstart hinner hcode htail hbreak hslash,
      lineFinding_cites _ _⟩,
    not_lineReported_commented hstart hcode htail,
    fun _ _ _ heq hfirst hmore hlast hopen =>
      lineReported_slash_iff hstart hinner hcode htail heq hfirst hmore hlast hopen⟩

/-- Behind a comment over two lines. -/
theorem return_behind_note :
    let before := "service a \x7b\n\t".toList
    let inner := "* note\n   ".toList
    let code := " return 1\r".toList
    let tail := "\n\x7d".toList
    StartsLine before ∧ ¬ closingMark <:+: inner ∧ LacksTerminator code ∧ IsLineEnd tail ∧
      lineFinding 3 "return 1".toList ∈ ((⟨.fallback⟩ : Validator).validate
        (String.ofList (commented before inner (code ++ tail)))).findings := by
  intro before inner code tail
  have hstart : StartsLine before := ⟨"service a \x7b\n".toList, ['\t'], by decide,
    @WholeLines.cons "service a \x7b".toList _ (by decide) .nil, by decide⟩
  have hinner : ¬ closingMark <:+: inner := by decide
  have hcode : LacksTerminator code := ⟨by decide, by decide, by decide, by decide⟩
  have htail : IsLineEnd tail := .inr ⟨['\x7d'], rfl⟩
  exact ⟨hstart, hinner, hcode, htail,
    ((code_behind_comment hstart hinner hcode htail).1 (by decide) (by decide)).1⟩

/-- Behind a comment on the same line the missing terminator is not found. -/
theorem return_behind_note_missed :
    let before := "service a \x7b\n  ".toList
    let code := " return 1".toList
    let tail := "\n\x7d".toList
    StartsLine before ∧ ¬ closingMark <:+: " note ".toList ∧ LacksTerminator code ∧
      IsLineEnd tail ∧ ((⟨.fallback⟩ : Validator).validate
        (String.ofList (commented before " note ".toList (code ++ tail)))).findings = [] := by
  intro before code tail
  have hstart : StartsLine before := ⟨"service a \x7b\n".toList, "  ".toList, by decide,
    @WholeLines.cons "service a \x7b".toList _ (by decide) .nil, by decide⟩
  have hcode : LacksTerminator code := ⟨by decide, by decide, by decide, by decide⟩
  exact ⟨hstart, by decide, hcode, .inr ⟨['\x7d'], rfl⟩, by decide +kernel⟩

end ScriptForge.Quality

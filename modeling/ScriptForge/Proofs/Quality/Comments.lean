import ScriptForge.Proofs.Quality.Citations
import ScriptForge.Proofs.Quality.CommentLines
import ScriptForge.Proofs.Quality.Headers
import ScriptForge.Proofs.Quality.Naming

/-!
# What is read of a comment

Of the checks on the text only that of line ends knows about comments. The others read a comment as
they read code: a header in it counts as the header of the script, and a name declared in it is
reported (`comment_read`). If there is nothing in a comment that the checks look for (`Silent`), it
may as well be any other such comment over as many lines. The check of line ends is taken in by one
thing only, a slash right behind the opening mark.

No pattern matches a slash or a star, so headers and declarations stand in front of a comment, in it
or behind it, and never in two of them. A block that opens in front of a comment may close behind
it; then the comment is part of its body, and the body is not blank, whatever is in the comment.
-/

namespace ScriptForge.Quality

open Script Script.Token Text

namespace TextCheck

/-- A comment with the text around it. -/
def commented (before inner behind : List Char) : List Char :=
  before ++ '/' :: '*' :: (inner ++ '*' :: '/' :: behind)

theorem isForeign_slash : IsForeign '/' := by
  constructor <;> decide

theorem isForeign_star : IsForeign '*' := by
  constructor <;> decide

theorem isForeign_closingBrace : IsForeign '\x7d' := by
  constructor <;> decide

section

variable {before inner other behind rest : List Char} {x : Char}

theorem cons_commented (c : Char) :
    commented (c :: before) inner behind = c :: commented before inner behind := rfl

theorem append_commented (front : List Char) :
    commented (front ++ before) inner behind = front ++ commented before inner behind :=
  List.append_assoc ..

theorem commented_append : commented before inner (behind ++ rest) =
    commented before inner behind ++ rest := by
  simp [commented]

theorem count_commented : (commented before inner behind).count '\n' =
    before.count '\n' + inner.count '\n' + behind.count '\n' := by
  simp [commented, Nat.add_assoc]

/-! ## Headers and declarations -/

theorem IsHeader.ne_nil {header : List Char} (h : IsHeader header) : header ≠ [] := by
  obtain ⟨body, rfl, -⟩ := h.exists_concat
  simp

theorem IsHeader.infix_commented_iff {header : List Char} (h : IsHeader header) :
    header <:+: commented before inner behind ↔
      header <:+: before ∨ header <:+: inner ∨ header <:+: behind := by
  have hslash : '/' ∉ header := h.not_mem (by decide) (by decide) (by decide) (by decide)
  have hstar : '*' ∉ header := h.not_mem (by decide) (by decide) (by decide) (by decide)
  rw [commented, infix_append_cons_iff hslash, infix_cons_iff_of_not_mem hstar h.ne_nil,
    infix_append_cons_iff hstar, infix_cons_iff_of_not_mem hslash h.ne_nil]

theorem declarations_foreign (hx : IsForeign x) (hbreak : x ≠ '\n') (inWord : Bool) (line : Nat) :
    declarations inWord line (x :: rest) = declarations (isWordChar x) line rest := by
  have hsplit := @declarations_append_cons [] rest x hx inWord line
  rwa [List.nil_append, List.foldl_nil, lineAfter, if_neg hbreak] at hsplit

theorem declarations_commented (line : Nat) :
    declarations false line (commented before inner behind) = declarations false line before ++
      (declarations false (line + before.count '\n') inner ++
        declarations false (line + before.count '\n' + inner.count '\n') behind) := by
  have hslash : lineAfter (line + before.count '\n') '/' = line + before.count '\n' := rfl
  have hstar : ∀ n, lineAfter n '*' = n := fun _ => rfl
  have hword : isWordChar '/' = false ∧ isWordChar '*' = false := by decide
  rw [commented, declarations_append_cons isForeign_slash, foldl_lineAfter_eq_add, hslash,
    declarations_foreign isForeign_star (by decide), declarations_append_cons isForeign_star,
    foldl_lineAfter_eq_add, hstar, declarations_foreign isForeign_slash (by decide), hword.1,
    hword.2]

/-! ## Blocks -/

/-- No block opens in a text. -/
def OpensNone (text : List Char) : Prop :=
  ∀ operation opener, IsOpener operation opener → ¬ opener <:+: text

theorem blocksSeen_foreign (hx : IsForeign x) (hbreak : x ≠ '\n') (line : Nat) :
    blocksSeen line (x :: rest) = blocksSeen line rest := by
  have hnone : blockAt? (x :: rest) = none := @blockAt?_append_cons [] rest x hx
    fun _ _ hopener hstart => hopener.ne_nil (List.prefix_nil.mp hstart)
  rw [blocksSeen_cons hnone, lineAfter, if_neg hbreak]

theorem blocksSeen_inner (hinner : OpensNone inner) (hx : IsForeign x) (line : Nat) :
    blocksSeen line (inner ++ x :: rest) =
      blocksSeen (line + inner.count '\n') (x :: rest) := by
  rw [← foldl_lineAfter_eq_add]
  induction inner generalizing line with
  | nil => rfl
  | cons c inner ih =>
    have hnone : blockAt? ((c :: inner) ++ x :: rest) = none :=
      blockAt?_append_cons hx fun operation opener hopener hstart =>
        hinner operation opener hopener hstart.isInfix
    rw [List.cons_append] at hnone ⊢
    rw [blocksSeen_cons hnone]
    exact ih (fun operation opener hopener hinside => hinner operation opener hopener
      (hinside.trans (List.suffix_cons c inner).isInfix)) _

/-- A comment in which no block opens is passed over, if no block is open in front of it. -/
theorem blocksSeen_comment (hinner : OpensNone inner) (line : Nat) :
    blocksSeen line (commented [] inner behind) =
      blocksSeen (line + inner.count '\n') behind := by
  rw [commented, List.nil_append, blocksSeen_foreign isForeign_slash (by decide),
    blocksSeen_foreign isForeign_star (by decide), blocksSeen_inner hinner isForeign_star,
    blocksSeen_foreign isForeign_star (by decide), blocksSeen_foreign isForeign_slash (by decide)]

/-- A block that opens in front of a comment and closes behind it is not blank. -/
theorem blocksSeen_around {operation : Operation} {opener more body : List Char}
    (hopener : IsOpener operation opener) (hmore : '\x7d' ∉ more) (hinner : '\x7d' ∉ inner)
    (hbody : '\x7d' ∉ body) (line : Nat) :
    blocksSeen line (commented (opener ++ more) inner (body ++ '\x7d' :: rest)) =
      (operation, false, line) :: blocksSeen
        (line + (commented (opener ++ more) inner (body ++ ['\x7d'])).count '\n') rest := by
  have hwhole : '\x7d' ∉ commented more inner body := by simp [commented, hmore, hinner, hbody]
  have hfilled : (commented more inner body).all isBlank = false := by
    have hslash : isBlank '/' = false := by decide
    simp [commented, hslash]
  rw [append_commented, append_commented, commented_append, commented_append,
    blocksSeen_block hopener hwhole, hfilled, foldl_lineAfter_eq_add]

/-- What the check of blocks sees does not depend on a comment in which no block opens and none is
closed. -/
theorem blocksSeen_commented (hinner : OpensNone inner) (hother : OpensNone other)
    (hbrace : '\x7d' ∉ inner) (hbrace' : '\x7d' ∉ other)
    (hcount : inner.count '\n' = other.count '\n') (line : Nat) :
    blocksSeen line (commented before inner behind) =
      blocksSeen line (commented before other behind) := by
  induction scanned before generalizing line with
  | nil => rw [blocksSeen_comment hinner, blocksSeen_comment hother, hcount]
  | @next c rest hnone _ ih =>
    have hnone : ∀ text, blockAt? (c :: commented rest text behind) = none :=
      fun text => @blockAt?_append_cons (c :: rest) _ _ isForeign_slash hnone
    rw [cons_commented, cons_commented, blocksSeen_cons (hnone inner),
      blocksSeen_cons (hnone other)]
    exact ih _
  | @block operation opener body rest hopener hbody _ ih =>
    have hassoc : ∀ text, commented (opener ++ (body ++ '\x7d' :: rest)) text behind =
        opener ++ (body ++ '\x7d' :: commented rest text behind) := by
      simp [commented]
    rw [hassoc, hassoc, blocksSeen_block hopener hbody, blocksSeen_block hopener hbody, ih]
  | @unclosed operation opener more hopener hmore =>
    by_cases hbehind : '\x7d' ∈ behind
    · obtain ⟨body, rest, rfl, hbody⟩ := List.eq_append_cons_of_mem hbehind
      rw [blocksSeen_around hopener hmore hbrace hbody,
        blocksSeen_around hopener hmore hbrace' hbody, count_commented, count_commented, hcount]
    · have hopener := hopener.not_mem isForeign_closingBrace
      rw [blocksSeen_of_unclosed (by simp [commented, hopener, hmore, hbrace, hbehind]),
        blocksSeen_of_unclosed (by simp [commented, hopener, hmore, hbrace', hbehind])]

/-- The blocks seen in a text are the first ones seen if it goes on behind a foreign character. -/
theorem blocksSeen_isPrefix_append (hx : IsForeign x) (line : Nat) :
    blocksSeen line inner <+: blocksSeen line (inner ++ x :: rest) := by
  induction scanned inner generalizing line with
  | nil => exact List.nil_prefix
  | @next c more hnone _ ih =>
    have hnone' : blockAt? (c :: (more ++ x :: rest)) = none :=
      @blockAt?_append_cons (c :: more) rest x hx hnone
    rw [List.cons_append, blocksSeen_cons (blockAt?_of_opens_none hnone), blocksSeen_cons hnone']
    exact ih _
  | @block operation opener body more hopener hbody _ ih =>
    have hassoc : opener ++ (body ++ '\x7d' :: more) ++ x :: rest =
        opener ++ (body ++ '\x7d' :: (more ++ x :: rest)) := by
      simp
    rw [hassoc, blocksSeen_block hopener hbody, blocksSeen_block hopener hbody]
    exact List.cons_prefix_cons.mpr ⟨rfl, ih _⟩
  | @unclosed operation opener more hopener hmore =>
    have hopener := hopener.not_mem isForeign_closingBrace
    rw [blocksSeen_of_unclosed (by simp [hopener, hmore])]
    exact List.nil_prefix

/-- If no block opens in front of a comment, those in the comment are seen. -/
theorem blocksSeen_subset_commented (hbefore : OpensNone before) (line : Nat) :
    blocksSeen (line + before.count '\n') inner ⊆
      blocksSeen line (commented before inner behind) := by
  rw [commented, blocksSeen_inner hbefore isForeign_slash,
    blocksSeen_foreign isForeign_slash (by decide), blocksSeen_foreign isForeign_star (by decide)]
  exact (blocksSeen_isPrefix_append isForeign_star _).subset

/-! ## Findings -/

/-- A text after which a line starts, or starts with blanks. -/
def StartsLine (before : List Char) : Prop :=
  ∃ front indent, before = front ++ indent ∧ WholeLines front ∧ IsIndent indent

/-- A text with which a line ends, or ends after blanks. -/
def EndsLine (behind : List Char) : Prop :=
  ∃ trail tail, behind = trail ++ tail ∧ IsIndent trail ∧ IsLineEnd tail

/-- The text of a comment in which the checks find nothing to go by. -/
structure Silent (inner : List Char) : Prop where
  header : ∀ header, IsHeader header → ¬ header <:+: inner
  names : ∀ line, declarations false line inner = []
  opensNone : OpensNone inner
  brace : '\x7d' ∉ inner
  slash : inner.head? = some '/' → '\n' ∉ inner

/-- Without braces in a text there are no headers and no blocks in it. -/
theorem silent_of_not_mem (hnames : ∀ line, declarations false line inner = [])
    (hopening : '\x7b' ∉ inner) (hclosing : '\x7d' ∉ inner)
    (hslash : inner.head? = some '/' → '\n' ∉ inner) : Silent inner := by
  refine ⟨fun header hheader hinside => ?_, hnames, fun operation opener hopener hinside => ?_,
    hclosing, hslash⟩
  · obtain ⟨body, rfl, -⟩ := hheader.exists_concat
    exact hopening (hinside.subset (by simp))
  · obtain ⟨hgap, hne, hbehind⟩ := hopener
    exact hopening (hinside.subset (by simp))

theorem serviceFindings_commented (hinner : ∀ header, IsHeader header → ¬ header <:+: inner)
    (hother : ∀ header, IsHeader header → ¬ header <:+: other) :
    serviceFindings (commented before inner behind) =
      serviceFindings (commented before other behind) := by
  have hsame : definesService (commented before inner behind) =
      definesService (commented before other behind) := by
    rw [Bool.eq_iff_iff, definesService_iff, definesService_iff]
    refine exists_congr fun header => and_congr_right fun hheader => ?_
    rw [hheader.infix_commented_iff, hheader.infix_commented_iff]
    simp only [hinner header hheader, hother header hheader]
  rw [serviceFindings, serviceFindings, hsame]

theorem lineFindings_commented (hstart : StartsLine before) (hend : EndsLine behind)
    (hinner : ¬ closingMark <:+: inner) (hother : ¬ closingMark <:+: other)
    (hslash : inner.head? = some '/' → '\n' ∉ inner)
    (hslash' : other.head? = some '/' → '\n' ∉ other)
    (hcount : inner.count '\n' = other.count '\n') :
    lineFindings false 1 (lines (commented before inner behind)) =
      lineFindings false 1 (lines (commented before other behind)) := by
  obtain ⟨front, indent, rfl, hfront, hindent⟩ := hstart
  obtain ⟨trail, tail, rfl, htrail, htail⟩ := hend
  rw [append_commented, append_commented, hfront.lines_append, hfront.lines_append,
    lineFindings_append, lineFindings_append, commented, commented,
    lineFindings_comment hindent hinner hslash htrail htail,
    lineFindings_comment hindent hother hslash' htrail htail, hcount]

theorem findings_commented (hstart : StartsLine before) (hend : EndsLine behind)
    (hinner : ¬ closingMark <:+: inner) (hother : ¬ closingMark <:+: other)
    (hsilent : Silent inner) (hsilent' : Silent other)
    (hcount : inner.count '\n' = other.count '\n') :
    findings (String.ofList (commented before inner behind)) =
      findings (String.ofList (commented before other behind)) := by
  have hnaming : namingFindings (commented before inner behind) =
      namingFindings (commented before other behind) := by
    rw [namingFindings, namingFindings, declarations_commented, declarations_commented,
      hsilent.names, hsilent'.names, hcount]
  rw [findings, findings, String.toList_ofList, String.toList_ofList,
    serviceFindings_commented hsilent.header hsilent'.header, hnaming,
    lineFindings_commented hstart hend hinner hother hsilent.slash hsilent'.slash hcount,
    blockFindings_eq, blockFindings_eq, blocksSeen_commented hsilent.opensNone
      hsilent'.opensNone hsilent.brace hsilent'.brace hcount]

/-- A name that is declared in a comment is reported. -/
theorem namingFinding_mem_findings {name : List Char} {line : Nat}
    (hname : (name, line) ∈ declarations false (1 + before.count '\n') inner)
    (hbad : ¬ Conventional (String.ofList name)) :
    namingFinding (String.ofList name) line ∈
      findings (String.ofList (commented before inner behind)) := by
  have hmem : (name, line) ∈ declarations false 1 (commented before inner behind) := by
    rw [declarations_commented]
    exact List.mem_append_right _ (List.mem_append_left _ hname)
  have hnot : isConventional name = false := by
    refine eq_false_of_ne_true fun h => hbad ?_
    rwa [← isConventional_iff, String.toList_ofList]
  rw [findings, String.toList_ofList]
  refine List.mem_append_left _ (List.mem_append_left _ (List.mem_append_right _ ?_))
  exact List.mem_filterMap.mpr ⟨(name, line), hmem, by simp [hnot]⟩

/-- A block in a comment is reported if it selects nothing, and no block opens in front of it. -/
theorem gqlBodyFinding_mem_findings {operation : Operation} {line : Nat}
    (hbefore : OpensNone before)
    (hblock : (operation, true, line) ∈ blocksSeen (1 + before.count '\n') inner) :
    gqlBodyFinding operation line ∈
      findings (String.ofList (commented before inner behind)) := by
  have hmem := @blocksSeen_subset_commented before inner behind hbefore 1 _ hblock
  rw [findings, String.toList_ofList, blockFindings_eq]
  exact List.mem_append_right _ (List.mem_filterMap.mpr ⟨_, hmem, rfl⟩)

/-- What is reported on the lines of a comment as if they were code, because a slash behind the
opening mark closes it. -/
theorem mem_findings_of_slash {line more : List Char} {finding : Finding}
    (hstart : StartsLine before) (hopen : openAfter false (lines before) = false)
    (hbreak : '\n' ∉ line)
    (h : finding ∈ lineFindings false (2 + before.count '\n')
      (lines (more ++ '*' :: '/' :: behind))) :
    finding ∈
      findings (String.ofList (commented before ('/' :: (line ++ '\n' :: more)) behind)) := by
  obtain ⟨front, indent, rfl, hfront, hindent⟩ := hstart
  have hlines : lineFindings false 1
      (lines (commented (front ++ indent) ('/' :: (line ++ '\n' :: more)) behind)) =
        lineFindings false 1 (lines front) ++ lineFindings false (2 + (front ++ indent).count '\n')
          (lines (more ++ '*' :: '/' :: behind)) := by
    have hassoc : commented indent ('/' :: (line ++ '\n' :: more)) behind =
        indent ++ '/' :: '*' :: '/' :: (line ++ '\n' :: (more ++ '*' :: '/' :: behind)) := by
      simp [commented]
    rw [hfront.lines_append, openAfter_append, hindent.openAfter_eq] at hopen
    rw [append_commented, hfront.lines_append, lineFindings_append, hopen, hassoc,
      lineFindings_slash hindent hbreak, hfront.length_lines, List.count_append,
      List.count_eq_zero.mpr hindent.not_mem, Nat.add_right_comm]
    rfl
  rw [findings, String.toList_ofList, hlines]
  exact List.mem_append_left _ (List.mem_append_right _ (List.mem_append_right _ h))

end

end TextCheck

open TextCheck

/-- **Comments.** If nothing that the checks look for stands in the text of a comment, the fallback
finds the same whatever the text is, as long as it goes over as many lines. The comment stands on
lines of its own. But a comment is read: names that are declared in it are reported if they break
the convention, blocks in it are reported if they select nothing, at least if no block opens in
front of it, a header in it keeps the script from being reported for having none, and if its text
starts with a slash, the lines behind its first one are judged as code. -/
theorem comment_read {before behind : List Char} (hstart : StartsLine before)
    (hend : EndsLine behind) :
    let found := fun inner => ((⟨.fallback⟩ : Validator).validate
      (String.ofList (commented before inner behind))).findings
    (∀ inner other, ¬ closingMark <:+: inner → ¬ closingMark <:+: other → Silent inner →
      Silent other → inner.count '\n' = other.count '\n' → found inner = found other) ∧
    (∀ inner name line, (name, line) ∈ declarations false (1 + before.count '\n') inner →
      ¬ Conventional (String.ofList name) →
        namingFinding (String.ofList name) line ∈ found inner ∧
          (namingFinding (String.ofList name) line).Cites .naming
            (.ofName line (String.ofList name))) ∧
    (∀ inner operation line, OpensNone before →
      (operation, true, line) ∈ blocksSeen (1 + before.count '\n') inner →
        gqlBodyFinding operation line ∈ found inner ∧
          (gqlBodyFinding operation line).Cites .gqlBody (.ofBlock line operation)) ∧
    (∀ inner header, IsHeader header → header <:+: inner →
      ∀ finding ∈ found inner, finding.check ≠ .serviceDefinition) ∧
    ∀ line more, '\n' ∉ line → openAfter false (lines before) = false →
      ∀ finding ∈ lineFindings false (2 + before.count '\n')
        (lines (more ++ '*' :: '/' :: behind)),
          finding ∈ found ('/' :: (line ++ '\n' :: more)) := by
  refine ⟨fun inner other hinner hother hsilent hsilent' =>
      findings_commented hstart hend hinner hother hsilent hsilent',
    fun inner name line hname hbad =>
      ⟨namingFinding_mem_findings hname hbad, namingFinding_cites _ line⟩,
    fun inner operation line hopens hblock =>
      ⟨gqlBodyFinding_mem_findings hopens hblock, gqlBodyFinding_cites operation line⟩,
    fun inner header hheader hinside finding hmem hcheck => ?_,
    fun line more hbreak hopen finding => mem_findings_of_slash hstart hopen hbreak⟩
  refine exists_serviceDefinition_iff.mp ⟨finding, hmem, hcheck⟩ ⟨header, hheader, ?_⟩
  rw [String.toList_ofList]
  exact hheader.infix_commented_iff.mpr (.inr (.inl hinside))

/-- Over two lines, with a semicolon missing behind the comment. -/
theorem note_over_two_lines :
    let before := "service a \x7b\n  return 1; \n\t".toList
    let behind := " \n  b.c/d()\n\x7d".toList
    let found := fun inner => ((⟨.fallback⟩ : Validator).validate
      (String.ofList (commented before inner behind))).findings
    StartsLine before ∧ EndsLine behind ∧
      found " one\n and two ".toList = found "**\n return x = 2".toList ∧
      (found " one\n and two ".toList).map Finding.check = [.termination] := by
  intro before behind found
  have hstart : StartsLine before := by
    refine ⟨"service a \x7b\n  return 1; \n".toList, ['\t'], by decide, ?_, by decide⟩
    exact @WholeLines.cons "service a \x7b".toList _ (by decide)
      (@WholeLines.cons "  return 1; ".toList _ (by decide) .nil)
  have hend : EndsLine behind :=
    ⟨[' '], _, by decide, by decide, .inr ⟨"  b.c/d()\n\x7d".toList, rfl⟩⟩
  refine ⟨hstart, hend, ?_, by decide +kernel⟩
  exact (comment_read hstart hend).1 _ _ (by decide) (by decide)
    (silent_of_not_mem (fun _ => rfl) (by decide) (by decide) (by decide))
    (silent_of_not_mem (fun _ => rfl) (by decide) (by decide) (by decide)) (by decide)

/-- A comment that declares a name is reported for it. -/
theorem declaration_in_comment_reported :
    let before := "service a \x7b\n  ".toList
    let behind := "\n  return 1;\n\x7d".toList
    let found := fun inner => ((⟨.fallback⟩ : Validator).validate
      (String.ofList (commented before inner behind))).findings
    StartsLine before ∧ EndsLine behind ∧ ¬ closingMark <:+: " new x = 1 ".toList ∧
      ¬ closingMark <:+: " note ".toList ∧
      (found " new x = 1 ".toList).map Finding.check = [.naming] ∧ found " note ".toList = [] := by
  intro before behind found
  have hstart : StartsLine before :=
    ⟨"service a \x7b\n".toList, "  ".toList, by decide,
      @WholeLines.cons "service a \x7b".toList _ (by decide) .nil, by decide⟩
  have hend : EndsLine behind :=
    ⟨[], _, by decide, by decide, .inr ⟨"  return 1;\n\x7d".toList, rfl⟩⟩
  exact ⟨hstart, hend, by decide, by decide, by decide +kernel, by decide +kernel⟩

end ScriptForge.Quality

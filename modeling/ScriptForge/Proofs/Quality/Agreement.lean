import ScriptForge.Proofs.Quality.Layout
import ScriptForge.Proofs.Quality.Patterns

/-!
# Where the two engines agree

On a script with one statement on a line the checks on the text find what the checks on the tree
find, as far as both look for it: the same names, the same blocks, on the same lines and in the same
order (`findings_inLines`). The names and the blocks are followed from line to line
(`Lines.declarations_eq`, `Lines.blocksSeen_eq`).
-/

namespace ScriptForge.Quality.TextCheck

open Text Script Script.Token

/-- The names that statements declare, with their lines. -/
def declaredOn (statements : List Statement) : List (List Char × Nat) :=
  statements.flatMap fun statement =>
    statement.kind.declared?.toList.map fun name => (name.toList, statement.position.line)

/-- What the check of blocks is to see in statements. -/
def embeddedOn (statements : List Statement) : List (Operation × Bool × Nat) :=
  statements.flatMap fun statement =>
    statement.kind.last.blocks.map fun block =>
      (block.operation, allBlank block.body, statement.position.line)

section

variable {p : Position} {text rest padding signs line final service : List Char}
  {statement? : Option Statement} {statements : List Statement} {script : Script}

/-! ## Between statements -/

theorem IsPadding.line_eq (h : IsPadding padding) : (p.afterText padding).line = p.line := by
  rw [← foldl_lineAfter, foldl_lineAfter_of_not_mem (h.not_mem (by decide))]

theorem IsPadding.misses {word : List Char} (hword : IsKeyword word) (h : IsPadding padding) :
    Misses word padding rest :=
  hword.misses_of_forall fun c hc => by rw [h c hc]; decide

/-- What closes a statement. -/
theorem IsPadding.misses_break {word : List Char} (hword : IsKeyword word)
    (h : IsPadding padding) : Misses word (padding ++ [';'] ++ ['\n']) rest := by
  rw [List.append_assoc]
  exact (h.misses hword).append (hword.misses_of_forall (by simp))

theorem IsPadding.ends (h : IsPadding padding) : Ends (padding ++ ';' :: rest) := by
  refine ⟨stops_append h.isGap (stops_cons.mpr (by decide)), ?_⟩
  rw [NoWordNext, trimStart_append h.isBlank (by decide)]
  rintro _ ⟨⟩
  decide

theorem Legible.of_padding (hpadding : IsPadding padding) (h : Legible (padding ++ rest)) :
    Legible rest :=
  (h.of_gap hpadding.isGap).2

theorem declarations_padding (h : IsPadding padding) (line : Nat) :
    declarations false line (padding ++ rest) = declarations false line rest := by
  have hword : padding.foldl (fun _ c => isWordChar c) false = false := by
    induction padding with
    | nil => rfl
    | cons c padding ih =>
      obtain ⟨rfl, hmore⟩ := List.forall_mem_cons.mp h
      exact ih hmore
  rw [declarations_append (h.misses (.inl rfl)), hword,
    foldl_lineAfter_of_not_mem (h.not_mem (by decide))]

theorem blocksSeen_padding (h : IsPadding padding) (line : Nat) :
    blocksSeen line (padding ++ rest) = blocksSeen line rest := by
  rw [blocksSeen_append (h.misses (.inr rfl)), foldl_lineAfter_of_not_mem (h.not_mem (by decide))]

/-- No word goes on behind a sign. -/
theorem declarations_sign {c : Char} (hc : isWordChar c = false)
    (hmisses : Misses "new".toList (signs ++ [c]) rest) (hline : '\n' ∉ signs) (inWord : Bool)
    (line : Nat) :
    declarations inWord line (signs ++ c :: rest) = declarations false (lineAfter line c) rest := by
  have hsign := declarations_append hmisses inWord line
  rw [List.foldl_append, List.foldl_append, foldl_lineAfter_of_not_mem hline, List.append_assoc]
    at hsign
  rw [← hc]
  exact hsign

theorem declarations_break (hmisses : Misses "new".toList (signs ++ ['\n']) rest)
    (hline : '\n' ∉ signs) (inWord : Bool) (line : Nat) :
    declarations inWord line (signs ++ '\n' :: rest) = declarations false (line + 1) rest :=
  declarations_sign (by decide) hmisses hline inWord line

theorem blocksSeen_break (hmisses : Misses "gql".toList (signs ++ ['\n']) rest)
    (hline : '\n' ∉ signs) (line : Nat) :
    blocksSeen line (signs ++ '\n' :: rest) = blocksSeen (line + 1) rest := by
  have hbreak := blocksSeen_append hmisses line
  rw [List.foldl_append, foldl_lineAfter_of_not_mem hline, List.append_assoc] at hbreak
  exact hbreak

/-! ## Lines -/

/-- What is legible stays so behind a line. -/
theorem Line.legible (h : Line p statement? line) (hlegible : Legible (line ++ '\n' :: rest)) :
    Legible rest := by
  cases h with
  | empty hpadding => exact ((hlegible.of_padding hpadding).of_cons (by decide) (by decide)).1
  | @statement indent text closing kind hindent hkind htext hclosing =>
    simp only [List.append_assoc, List.singleton_append] at hlegible
    have hbehind := legible_behind hkind (hlegible.of_padding hindent) hclosing.ends
    have hbreak := ((hbehind.of_padding hclosing).of_cons (by decide) (by decide)).1
    exact (hbreak.of_cons (by decide) (by decide)).1

theorem Line.declarations_eq (h : Line p statement? line)
    (hlegible : Legible (line ++ '\n' :: rest)) :
    declarations false p.line (line ++ '\n' :: rest) =
      declaredOn statement?.toList ++ declarations false (p.line + 1) rest := by
  have hnew : IsKeyword "new".toList := .inl rfl
  cases h with
  | empty hpadding =>
    exact declarations_break ((hpadding.misses hnew).append (hnew.misses_of_forall (by simp)))
      (hpadding.not_mem (by decide)) _ _
  | @statement indent text closing kind hindent hkind htext hclosing =>
    simp only [List.append_assoc] at hlegible ⊢
    obtain ⟨inWord, hfound⟩ := declarations_kind hkind (hlegible.of_padding hindent) hclosing.ends
      htext p.line
    have hbreak := declarations_break (@IsPadding.misses_break rest _ _ hnew hclosing)
      (by simp [hclosing.not_mem]) inWord p.line
    rw [List.append_assoc] at hbreak
    rw [declarations_padding hindent, hfound, hbreak]
    simp [declaredOn, hindent.line_eq]

theorem Line.blocksSeen_eq (h : Line p statement? line)
    (hlegible : Legible (line ++ '\n' :: rest)) :
    blocksSeen p.line (line ++ '\n' :: rest) =
      embeddedOn statement?.toList ++ blocksSeen (p.line + 1) rest := by
  have hgql : IsKeyword "gql".toList := .inr rfl
  cases h with
  | empty hpadding =>
    exact blocksSeen_break ((hpadding.misses hgql).append (hgql.misses_of_forall (by simp)))
      (hpadding.not_mem (by decide)) _
  | @statement indent text closing kind hindent hkind htext hclosing =>
    simp only [List.append_assoc] at hlegible ⊢
    have hfound := blocksSeen_kind hkind (hlegible.of_padding hindent) hclosing.ends htext p.line
    have hbreak := blocksSeen_break (@IsPadding.misses_break rest _ _ hgql hclosing)
      (by simp [hclosing.not_mem]) p.line
    rw [List.append_assoc] at hbreak
    rw [blocksSeen_padding hindent, hfound, hbreak]
    simp [embeddedOn, hindent.line_eq]

theorem Line.line_eq (h : Line p statement? line) :
    (p.afterText (line ++ ['\n'])).line = p.line + 1 := by
  rw [← foldl_lineAfter, List.foldl_append, foldl_lineAfter_of_not_mem h.not_mem]
  rfl

/-- In lines the names are found that the statements declare. -/
theorem Lines.declarations_eq (h : Lines p statements text) (hlegible : Legible (text ++ rest))
    (hrest : ∀ line, declarations false line rest = []) :
    declarations false p.line (text ++ rest) = declaredOn statements := by
  induction h with
  | nil => exact hrest _
  | cons hline _ ih =>
    rw [List.append_assoc, List.cons_append] at hlegible ⊢
    rw [hline.declarations_eq hlegible, ← hline.line_eq, ih (hline.legible hlegible)]
    exact List.flatMap_append.symm

/-- In lines the blocks are seen that the statements embed. -/
theorem Lines.blocksSeen_eq (h : Lines p statements text) (hlegible : Legible (text ++ rest))
    (hrest : ∀ line, blocksSeen line rest = []) :
    blocksSeen p.line (text ++ rest) = embeddedOn statements := by
  induction h with
  | nil => exact hrest _
  | cons hline _ ih =>
    rw [List.append_assoc, List.cons_append] at hlegible ⊢
    rw [hline.blocksSeen_eq hlegible, ← hline.line_eq, ih (hline.legible hlegible)]
    exact List.flatMap_append.symm

/-! ## The first line and the last one -/

theorem misses_openingLine {word : List Char} (hword : IsKeyword word)
    (hservice : IsName Char.isAlpha isHyphenatedChar service) :
    Misses word (openingLine service) rest := by
  have hnot : ¬ word <:+ "service".toList := by
    rcases hword with rfl | rfl <;> decide
  -- behind the name there is a brace, and no word
  have hbrace : ∀ {more : List Char}, NoWordNext ([' '] ++ '\x7b' :: more) := by
    intro more
    rw [NoWordNext, trimStart_append (List.forall_mem_singleton.mpr (by decide)) (by decide)]
    rintro _ ⟨⟩
    decide
  have hletters : ∀ c ∈ "service".toList, isDashedChar c = true :=
    List.all_eq_true.mp (by decide)
  rw [← List.append_nil (openingLine service), openingLine_append]
  refine (hword.misses_run hletters (stops_cons.mpr (by decide)) fun h => absurd h hnot).append
    (.append (hword.misses_of_forall (by simp)) (.append (hword.misses_run
      (isDashedName_of_isName hservice).all (stops_cons.mpr (by decide)) fun _ => hbrace)
        (hword.misses_of_forall (by simp))))

theorem misses_openingBreak {word : List Char} (hword : IsKeyword word)
    (hservice : IsName Char.isAlpha isHyphenatedChar service) :
    Misses word (openingLine service ++ ['\n']) rest :=
  (misses_openingLine hword hservice).append (hword.misses_of_forall (by simp))

theorem isHeader_openingLine (hservice : IsName Char.isAlpha isHyphenatedChar service) :
    IsHeader (openingLine service) := by
  have hspace : ∀ c ∈ [' '], isBlank c = true := List.forall_mem_singleton.mpr (by decide)
  rw [← List.append_nil (openingLine service), openingLine_append]
  exact ⟨service, hservice, .mk hspace (by simp) hspace⟩

theorem serviceFindings_openingLine (hservice : IsName Char.isAlpha isHyphenatedChar service)
    (rest : List Char) : serviceFindings (openingLine service ++ rest) = [] := by
  have hdefines : definesService (openingLine service ++ rest) = true :=
    definesService_iff.mpr ⟨_, isHeader_openingLine hservice, (List.prefix_append _ _).isInfix⟩
  rw [serviceFindings, if_pos hdefines]

theorem declarations_closing (hfinal : final = [] ∨ final = ['\n']) (line : Nat) :
    declarations false line ('\x7d' :: final) = [] := by
  have hmisses : Misses "new".toList ('\x7d' :: final) [] := by
    refine IsKeyword.misses_of_forall (.inl rfl) ?_
    rcases hfinal with rfl | rfl <;> simp
  have hnone := declarations_append hmisses false line
  rwa [List.append_nil] at hnone

theorem blocksSeen_closing (hfinal : final = [] ∨ final = ['\n']) (line : Nat) :
    blocksSeen line ('\x7d' :: final) = [] := by
  have hmisses : Misses "gql".toList ('\x7d' :: final) [] := by
    refine IsKeyword.misses_of_forall (.inr rfl) ?_
    rcases hfinal with rfl | rfl <;> simp
  have hnone := blocksSeen_append hmisses line
  rwa [List.append_nil] at hnone

/-! ## Whole scripts -/

theorem InLines.declarations_eq (h : InLines script text) :
    declarations false 1 text = declaredOn script.statements := by
  cases h with
  | @mk service text final statements hservice hlines hfinal hlegible =>
    have hopening := declarations_append
      (@misses_openingBreak (text ++ '\x7d' :: final) _ _ (.inl rfl) hservice) false
      Position.start.line
    rw [List.append_assoc, List.foldl_append, foldl_lineAfter] at hopening
    exact hopening.trans (hlines.declarations_eq hlegible (declarations_closing hfinal))

theorem InLines.blocksSeen_eq (h : InLines script text) :
    blocksSeen 1 text = embeddedOn script.statements := by
  cases h with
  | @mk service text final statements hservice hlines hfinal hlegible =>
    have hopening := blocksSeen_append
      (@misses_openingBreak (text ++ '\x7d' :: final) _ _ (.inr rfl) hservice) Position.start.line
    rw [List.append_assoc, foldl_lineAfter] at hopening
    exact hopening.trans (hlines.blocksSeen_eq hlegible (blocksSeen_closing hfinal))

theorem InLines.serviceFindings_eq_nil (h : InLines script text) : serviceFindings text = [] := by
  cases h with
  | mk hservice => exact serviceFindings_openingLine hservice _

theorem InLines.namingFindings_eq (h : InLines script text) :
    namingFindings text = misnamed script := by
  rw [namingFindings, h.declarations_eq, declaredOn, misnamed, List.filterMap_flatMap]
  congr 1
  funext statement
  cases statement.kind.declared? with
  | none => rfl
  | some name => by_cases hname : Conventional name <;> simp [hname, isConventional_iff]

theorem InLines.blockFindings_eq (h : InLines script text) :
    blockFindings text = unselecting script := by
  rw [TextCheck.blockFindings_eq, h.blocksSeen_eq, embeddedOn, unselecting, List.filterMap_flatMap]
  congr 1
  funext statement
  induction statement.kind.last.blocks with
  | nil => rfl
  | cons block blocks ih =>
    rw [List.map_cons, List.filterMap_cons, ih]
    by_cases hblank : allBlank block.body = true <;> simp [hblank]

end

end TextCheck

/-! ## Both engines -/

open Text Script Script.Token

section

variable {script : Script}

/-- Whether a finding is on names or blocks, which both engines look for. -/
def isShared (finding : Finding) : Bool :=
  finding.check = .naming ∨ finding.check = .gqlBody

theorem CiteEach.filter_eq_self {check : Check} {findings : List Finding} {places : List Place}
    (h : CiteEach check findings places) (hshared : check = .naming ∨ check = .gqlBody) :
    findings.filter isShared = findings := by
  refine List.filter_eq_self.mpr fun finding hmem => ?_
  rw [isShared, h.check_eq hmem]
  exact decide_eq_true hshared

theorem CiteEach.filter_eq_nil {check : Check} {findings : List Finding} {places : List Place}
    (h : CiteEach check findings places) (hshared : ¬ (check = .naming ∨ check = .gqlBody)) :
    findings.filter isShared = [] := by
  refine List.filter_eq_nil_iff.mpr fun finding hmem => ?_
  rw [isShared, h.check_eq hmem]
  exact ne_true_of_eq_false (decide_eq_false hshared)

theorem Reported.filter_isShared {findings : List Finding} (h : Reported script findings) :
    findings.filter isShared = misnamed script ++ unselecting script := by
  cases h with
  | mk _ hnaming htermination hdataFlow hgqlBody =>
    rw [List.filter_append, List.filter_append, List.filter_append,
      hnaming.filter_eq_self (.inl rfl), htermination.filter_eq_nil (by decide),
      hdataFlow.filter_eq_nil (by decide), hgqlBody.filter_eq_self (.inr rfl), List.append_nil,
      List.append_nil]

/-- **The engines agree.** A script with one statement on a line parses, and the findings of the
checks on its text are the findings of the grammar on names and blocks: the same messages,
suggestions and lines, in the same order. So a script of this layout that is valid for the grammar
is valid for the fallback. -/
theorem findings_inLines {text : String} (h : TextCheck.InLines script text.toList) :
    parse text = .ok script ∧
      ((⟨.fallback⟩ : Validator).validate text).findings =
        ((⟨.grammar⟩ : Validator).validate text).findings.filter isShared ∧
      (((⟨.grammar⟩ : Validator).validate text).valid = true →
        ((⟨.fallback⟩ : Validator).validate text).valid = true) := by
  have hparse := h.parse_eq
  have hfindings : TextCheck.findings text = (analyze script).filter isShared := by
    rw [TextCheck.findings, h.serviceFindings_eq_nil, h.namingFindings_eq, h.lineFindings_eq_nil,
      h.blockFindings_eq, (reported_analyze hparse).filter_isShared, List.nil_append,
      List.append_nil]
  simp only [Validator.validate, Verdict.ofFindings, Validator.findings, hparse, hfindings,
    true_and, List.isEmpty_iff]
  intro hvalid
  rw [hvalid]
  rfl

end

theorem findings_of_one_line :
    let text := "service order-rpc \x7b\n  new order = gql query \x7b \x7d;\n\x7d"
    ∃ script, TextCheck.InLines script text.toList ∧
      ((⟨.fallback⟩ : Validator).validate text).findings =
        ((⟨.grammar⟩ : Validator).validate text).findings.filter isShared ∧
      ((⟨.fallback⟩ : Validator).validate text).findings.map (fun finding =>
        (finding.check, finding.line)) = [(.naming, some 2), (.gqlBody, some 2)] := by
  intro text
  have hservice : IsName Char.isAlpha isHyphenatedChar "order-rpc".toList :=
    ⟨'o', "rder-rpc".toList, by decide, by decide, List.all_eq_true.mp (by decide)⟩
  have hname : IsDeclaredName "order".toList := by
    refine ⟨⟨'o', "rder".toList, by decide, by decide, List.all_eq_true.mp (by decide)⟩,
      fun word hword => ⟨?_, ?_⟩⟩
    · rintro rfl
      revert hword
      decide
    · intro more heq
      have hdash : '-' ∈ "order".toList := heq ▸ by simp
      revert hdash
      decide
  have hspace : IsGap [' '] := .space (by decide) .nil
  have hindent : TextCheck.IsPadding [' ', ' '] := by simp [TextCheck.IsPadding]
  have hclosing : TextCheck.IsPadding [] := by simp [TextCheck.IsPadding]
  have hquery (p : Position) := @RendersValue.query p .query [' '] [' '] [' '] [] [] hspace
    (by simp) hspace (List.forall_mem_singleton.mpr (by decide)) .nil rfl (by simp)
  have hkind (p : Position) := @RendersKind.declaration p _ [' '] [' '] [' '] _ _ hname hspace
    (by simp) hspace hspace (hquery _)
  have hlines (p : Position) := TextCheck.Lines.cons
    (@TextCheck.Line.statement p _ _ _ _ hindent (hkind _) (by decide) hclosing) .nil
  have hbody : IsBody "\x7b \x7d".toList :=
    ⟨[' '], by decide, .plain (by decide) (by decide) (by decide) .nil⟩
  have hlegible : TextCheck.Legible ("  new order = gql query ".toList ++
      ("\x7b \x7d".toList ++ (";\n\x7d".toList ++ []))) :=
    TextCheck.legible_append (by simp) (.body hbody ⟨by decide, by decide⟩
      (TextCheck.legible_append (by simp) .nil))
  have hinLines := @TextCheck.InLines.mk _ _ [] _ hservice (hlines _) (.inl rfl) hlegible
  obtain ⟨cs, htext, hinLines⟩ : ∃ cs, cs = text.toList ∧ TextCheck.InLines _ cs := by
    refine ⟨_, ?_, hinLines⟩
    decide +kernel
  subst htext
  exact ⟨_, hinLines, (findings_inLines hinLines).2.1, by decide +kernel⟩

end ScriptForge.Quality

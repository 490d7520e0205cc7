import ScriptForge.Proofs.Script.StatementAttempts

/-!
# Where names stop a script

A declaration takes more names than a value does: it lets underscores and dashes through, so that a
bad name can be reported as such. It does not take every name. Where a reserved word stands with a
dash behind it, no name is read at all, and the script fails where the name starts
(`script_failsAt_of_declaredName`). A name that may be declared, but is no plain name, cannot be
returned: its front is read as a variable, and the script fails at the first character that is not
part of one (`script_failsAt_of_returned`).
-/

namespace ScriptForge.Script

open Token Phrase Text

variable {p q : Position} {gap rest cs run name front back : List Char} {c : Char}

/-! ## Names without a point -/

theorem point_refuses (h : Stops (· == '.') cs) : Refuses (symbol ['.']) p cs := by
  cases cs with
  | nil => rfl
  | cons d ds =>
    have hne : '.' ≠ d := fun heq => by simp [← heq] at h
    rw [Refuses, symbol, after?, if_neg hne]

/-- What starts with a dashed name and a point fails at the name, if no point follows it. -/
theorem dotted_failsWithin {r : Rule} {second : Phrase} (hname : IsDashedName run)
    (hrest : Stops isDashedChar rest) (hpoint : Stops (· == '.') rest) :
    FailsWithin ((token r dashedName).andThen ((symbol ['.']).andThen second)) p (run ++ rest)
      p := by
  have htakes : Takes (token r dashedName) p _ run rest :=
    takes_token.mpr ⟨rfl, name_eq_some_iff.mpr ⟨hname, hrest, rfl⟩⟩
  have hnext : FailsWithin ((symbol ['.']).andThen second) (p.afterText run) rest p :=
    ⟨refuses_andThen_of_first (point_refuses hpoint),
      within_symbol.andThen_of_refuses (point_refuses hpoint)⟩
  exact hnext.andThen_of_takes (within_token_of_takes htakes) htakes

theorem callee_failsWithin (hname : IsDashedName run) (hrest : Stops isDashedChar rest)
    (hpoint : Stops (· == '.') rest) : FailsWithin Grammar.callee p (run ++ rest) p :=
  (dotted_failsWithin hname hrest hpoint).rule le_rfl

/-- Neither a mapping nor a call starts with a dashed name that has no point behind it. -/
theorem dotted_statement_failsWithin (hname : IsDashedName run) (hrest : Stops isDashedChar rest)
    (hpoint : Stops (· == '.') rest)
    (hword : Token.word "output".toList isDashedChar (run ++ rest) = none) :
    FailsWithin (Grammar.outputStatement.orElse Grammar.callStatement) p (run ++ rest) p := by
  have htarget : FailsWithin Grammar.outputTarget p (run ++ rest) p :=
    (dotted_failsWithin hname hrest hpoint).rule le_rfl
  exact (outputStatement_failsWithin hword (gapIn_of_stops hname.stopsGap) htarget).orElse
    (callStatement_failsWithin (callee_failsWithin hname hrest hpoint))

theorem stops_point_of_gap (hgap : IsGap gap) (hne : gap ≠ []) :
    Stops (· == '.') (gap ++ rest) := by
  rcases hgap.front with rfl | ⟨d, ds, rfl, hspace⟩ | ⟨d, ds, rfl, -⟩
  · exact absurd rfl hne
  · refine stops_cons.mpr (beq_eq_false_iff_ne.mpr ?_)
    rintro rfl
    cases hspace
  · exact stops_cons.mpr (by decide)

theorem statement_failsAt_of_body (h : FailsAt body p cs q) (hle : p ≤ q) :
    FailsAt Grammar.statement p cs q :=
  h.andThen_of_first.rule hle

/-! ## Words with a gap behind them -/

theorem takes_word_of_gap {r : Rule} {word : List Char} {more : Char → Bool}
    (hmore : ∀ c, more c = true → isDashedChar c = true) (hgap : IsGap gap) (hne : gap ≠ []) :
    Takes (token r (Token.word word more)) p [.mk r p word []] word (gap ++ rest) :=
  takes_token.mpr ⟨rfl, word_eq_some_iff.mpr ⟨rfl, (stops_of_gap hgap hne).imp hmore, rfl⟩⟩

/-- What starts with a word fails behind the word and its gap, if what follows does. -/
theorem failsAt_behind_word {outer r : Rule} {word : List Char} {more : Char → Bool}
    {second : Phrase} (hmore : ∀ c, more c = true → isDashedChar c = true) (hgap : IsGap gap)
    (hne : gap ≠ []) (hstops : StopsGap cs) (hp : .start ≤ p)
    (h : FailsAt second (p.afterText (word ++ gap)) cs (p.afterText (word ++ gap))) :
    FailsAt (rule outer ((token r (Token.word word more)).andThen (Phrase.gap.andThen second))) p
      (word ++ (gap ++ cs)) (p.afterText (word ++ gap)) := by
  have hle : p ≤ p.afterText (word ++ gap) := p.le_afterText _
  have hword : Takes (token r (Token.word word more)) p [.mk r p word []] word (gap ++ cs) :=
    takes_word_of_gap hmore hgap hne
  rw [Position.afterText_append] at h
  have hgapped := h.gap_andThen (hp.trans (Position.afterText_append .. ▸ hle))
    (gap_append hgap hstops)
  rw [← Position.afterText_append] at hgapped
  exact (hgapped.andThen_of_takes (hp.trans hle) (within_token_of_takes hword) hword).rule hle

/-! ## Names that are not declared -/

/-- A declaration whose name is not taken fails at the name. -/
theorem statement_failsAt_of_declaredName (hgap : IsGap gap) (hne : gap ≠ [])
    (hstops : StopsGap cs) (hname : declaredName cs = none) (hp : .start ≤ p) :
    FailsAt Grammar.statement p ("new".toList ++ (gap ++ cs))
      (p.afterText ("new".toList ++ gap)) := by
  set q := p.afterText ("new".toList ++ gap) with hq
  have hle : p ≤ q := p.le_afterText _
  have hstart : .start ≤ q := hp.trans hle
  have hdeclaration : FailsAt Grammar.declaration p ("new".toList ++ (gap ++ cs)) q :=
    failsAt_behind_word (fun _ => isDashedChar_of_isIdentifierChar) hgap hne hstops hp
      (failsAt_token hname).andThen_of_first
  have hnew : IsDashedName "new".toList := by decide
  have hreturn : FailsWithin Grammar.returnStatement p ("new".toList ++ (gap ++ cs)) p :=
    (failsWithin_token (word_eq_none (by decide))).andThen_of_first.rule le_rfl
  have hword : Token.word "output".toList isDashedChar ("new".toList ++ (gap ++ cs)) = none :=
    word_eq_none (by decide)
  have hothers := dotted_statement_failsWithin (p := p) hnew (stops_of_gap hgap hne)
    (stops_point_of_gap hgap hne) hword
  exact statement_failsAt_of_body
    (hdeclaration.orElse hstart ((hreturn.orElse hothers).mono hle)) hle

/-! ## Names that are not returned -/

/-- No value starts with an underscore. -/
theorem expression_failsWithin_of_underscore : FailsWithin Grammar.expression p ('_' :: cs) p := by
  have hword : Token.word "gql".toList isIdentifierChar ('_' :: cs) = none :=
    word_eq_none (by decide)
  have hcall : Refuses Grammar.call p ('_' :: cs) :=
    call_within.refuses (callee_refuses_of_head rfl)
  refine ⟨refuses_rule.mpr (refuses_orElse.mpr ⟨gqlBlock_refuses_of_word hword, ?_⟩),
    expression_within_of_head rfl hword⟩
  exact operand_refuses_of_head hcall rfl rfl

/-- A return of a name that starts with an underscore fails at the name. -/
theorem statement_failsAt_of_underscore (hgap : IsGap gap) (hne : gap ≠ []) (hp : .start ≤ p) :
    FailsAt Grammar.statement p ("return".toList ++ (gap ++ '_' :: cs))
      (p.afterText ("return".toList ++ gap)) := by
  set q := p.afterText ("return".toList ++ gap) with hq
  have hle : p ≤ q := p.le_afterText _
  have hstart : .start ≤ q := hp.trans hle
  have hreturn : FailsAt Grammar.returnStatement p ("return".toList ++ (gap ++ '_' :: cs)) q :=
    failsAt_behind_word (fun _ => id) hgap hne (stops_cons.mpr (by decide)) hp
      (expression_failsWithin_of_underscore.failsAt hstart)
  have hname : IsDashedName "return".toList := by decide
  have hdeclaration : FailsWithin Grammar.declaration p ("return".toList ++ (gap ++ '_' :: cs)) p :=
    (failsWithin_token (word_eq_none (by decide))).andThen_of_first.rule le_rfl
  have hword : Token.word "output".toList isDashedChar ("return".toList ++ (gap ++ '_' :: cs)) =
      none :=
    word_eq_none (by decide)
  have hothers := dotted_statement_failsWithin (p := p) hname (stops_of_gap hgap hne)
    (stops_point_of_gap hgap hne) hword
  exact statement_failsAt_of_body ((hdeclaration.mono hle).orElse_failsAt hstart
    (hreturn.orElse hstart (hothers.mono hle))) hle

/-- In front of a dash an identifier is read as a value, if no call stands there, and nothing is
attempted behind it. -/
theorem takes_expression_of_dash (hname : IsIdentifier front)
    (hcall : FailsWithin Grammar.callee p (front ++ '-' :: rest) p) :
    ∃ nodes, Takes Grammar.expression p nodes front ('-' :: rest) ∧
      Within Grammar.expression p (front ++ '-' :: rest) (p.afterText front) := by
  have hle := p.le_afterText front
  have hreference : RendersReference p ⟨String.ofList front, [], p⟩ front := by
    simpa using @RendersReference.mk p front [] hname (by simp)
  have hgql : Token.word "gql".toList isIdentifierChar (front ++ '-' :: rest) = none :=
    word_eq_none_of_identifier (by decide) hname (stops_cons.mpr (by decide))
  obtain ⟨node, hoperand, -⟩ := operand_of_reference hreference
    (call_within.refuses hcall.refuses) (stops_cons.mpr (by decide))
  refine ⟨_, takes_rule.mpr ⟨_, rfl, takes_orElse.mpr
    (.inr ⟨gqlBlock_refuses_of_word hgql, hoperand⟩)⟩, ?_⟩
  -- the other values are attempted at the front of the name only
  have hblock : Within Grammar.gqlBlock p (front ++ '-' :: rest) (p.afterText front) :=
    (gqlBlock_within_of_word hgql).mono hle
  have hcalls : Within Grammar.call p (front ++ '-' :: rest) (p.afterText front) :=
    (call_within.within_of_refuses hcall.refuses hcall.within le_rfl).mono hle
  have hreads : Within Grammar.reference p (front ++ '-' :: rest) (p.afterText front) := by
    have htoken : Takes (token .identifier identifier) p _ front ('-' :: rest) :=
      takes_token.mpr ⟨rfl, identifier_eq_some_iff.mpr ⟨hname, stops_cons.mpr (by decide), rfl⟩⟩
    have hpoint : Refuses (symbol ['.']) (p.afterText front) ('-' :: rest) :=
      point_refuses (stops_cons.mpr (by decide))
    have hselection : FailsWithin Grammar.selection (p.afterText front) ('-' :: rest)
        (p.afterText front) :=
      ⟨refuses_andThen_of_first hpoint, within_symbol.andThen_of_refuses hpoint⟩
    have hselections : Within (fun cursor => Grammar.selections cursor.rest.length cursor)
        (p.afterText front) ('-' :: rest) (p.afterText front) :=
      hselection.andThen_of_first.within.optional
    exact ((within_token_of_takes htoken).andThen_of_takes htoken hselections).rule hle
  exact (hblock.orElse (hcalls.orElse ((literal_within.mono hle).orElse hreads))).rule hle

/-- A return of an identifier in front of a dash is taken without the dash, as a statement that has
no semicolon. -/
theorem takes_returned (hgap : IsGap gap) (hne : gap ≠ []) (hname : IsIdentifier front)
    (hcall : ∀ q, FailsWithin Grammar.callee q (front ++ '-' :: rest) q) :
    ∃ nodes, Takes Grammar.statement p nodes ("return".toList ++ (gap ++ front)) ('-' :: rest) ∧
      Within Grammar.statement p ("return".toList ++ (gap ++ front) ++ '-' :: rest)
        (p.afterText ("return".toList ++ (gap ++ front))) := by
  set text := "return".toList ++ (gap ++ front) with htext
  set q := (p.afterText "return".toList).afterText gap with hq
  obtain ⟨nodes, hvalue, hwithin⟩ := takes_expression_of_dash (p := q) hname (hcall q)
  have hend : q.afterText front = p.afterText text := by
    rw [htext, Position.afterText_append, Position.afterText_append]
  have hassoc : text ++ '-' :: rest = "return".toList ++ (gap ++ (front ++ '-' :: rest)) := by
    rw [htext, List.append_assoc, List.append_assoc]
  have hstops : StopsGap (front ++ '-' :: rest) := by
    obtain ⟨⟨c, cs, rfl, hc, -⟩, -⟩ := hname
    exact stopsGap_of_startsNoGap (startsNoGap_of_isAlpha hc)
  have hword : Takes (token .returnWord (Token.word "return".toList isDashedChar)) p _
      "return".toList (gap ++ (front ++ '-' :: rest)) :=
    takes_word_of_gap (fun _ => id) hgap hne
  have hreturn : Takes Grammar.returnStatement p _ text ('-' :: rest) :=
    takes_rule.mpr ⟨_, rfl, Takes.andThen (by rwa [List.append_assoc])
      (takes_gap_andThen_of_stops hgap hstops hvalue)⟩
  have hreads : Within Grammar.returnStatement p (text ++ '-' :: rest) (p.afterText text) := by
    rw [hassoc]
    refine Within.rule ?_ (p.le_afterText _)
    refine (within_token_of_takes hword).andThen_of_takes hword ?_
    rw [← hend]
    exact Within.gap_andThen (gap_append hgap hstops) hwithin
  have hdeclaration : FailsWithin Grammar.declaration p (text ++ '-' :: rest) p :=
    (failsWithin_token (word_eq_none (by decide))).andThen_of_first.rule le_rfl
  have hbody : Takes body p _ text ([] ++ '-' :: rest) :=
    takes_orElse.mpr (.inr ⟨hdeclaration.refuses, takes_orElse.mpr (.inl hreturn)⟩)
  have hnothing : Token.gap ('-' :: rest) = ([], '-' :: rest) :=
    gapIn_of_stops (stops_cons.mpr (by decide))
  have hstatement := takes_statement_of_missing hbody .nil (stops_cons.mpr (by decide)) (by simp)
  rw [List.append_nil] at hstatement
  refine ⟨_, hstatement, Within.rule ?_ (p.le_afterText _)⟩
  have hbodies : Within body p (text ++ '-' :: rest) (p.afterText text) :=
    (hdeclaration.within.mono (p.le_afterText _)).orElse (hreads.orElse_of_takes hreturn)
  refine hbodies.andThen_of_takes hbody (Within.gap_andThen hnothing ?_)
  exact (within_token le_rfl).optional

/-- A return of a declared name is read up to the first dash, and no further. -/
theorem goesOn_returned (hgap : IsGap gap) (hne : gap ≠ [])
    (hname : IsDeclaredName (front ++ '-' :: back)) (hplain : IsPlainName front)
    (hrest : Stops isDashedChar rest) (hpoint : Stops (· == '.') rest) (hp : .start ≤ p) :
    GoesOn p (p.afterText ("return".toList ++ (gap ++ front))) ('-' :: (back ++ rest))
      ("return".toList ++ (gap ++ front)) := by
  have hidentifier : IsIdentifier front :=
    ⟨hplain, fun hmem => (hname.2 front hmem).2 back rfl⟩
  have hdashed : IsDashedName (front ++ '-' :: back) := by
    obtain ⟨⟨d, ds, heq, -, hds⟩, -⟩ := hname
    obtain ⟨e, es, rfl, he, -⟩ := hplain
    obtain ⟨rfl, rfl⟩ := List.cons.inj heq
    exact ⟨e, _, rfl, he, hds⟩
  -- the plugin of a call would be the whole name, and no point follows it
  have hcall : ∀ q, FailsWithin Grammar.callee q (front ++ '-' :: (back ++ rest)) q := by
    intro q
    rw [← List.cons_append, ← List.append_assoc]
    exact callee_failsWithin hdashed hrest hpoint
  set returned := "return".toList ++ (gap ++ front)
  set q := p.afterText returned
  obtain ⟨nodes, htakes, hwithin⟩ := takes_returned (p := p) hgap hne hidentifier hcall
  have hdash : FailsAt Grammar.statement q ('-' :: (back ++ rest)) q :=
    statement_failsAt_of_head (by decide) (by decide) (hp.trans (p.le_afterText _))
  have hmore : RepeatsTo Grammar.statement q ('-' :: (back ++ rest)) q [] :=
    .stop (gapIn_of_stops (stops_cons.mpr (by decide))) hdash.refuses
      (hdash.reach_eq.le.trans (le_max_right _ _))
  rw [← List.append_nil returned]
  exact .step (stops_cons.mpr (by decide)) htakes hwithin hmore

/-! ## Scripts -/

section

variable {service : String} {start space : List Char} {pieces : List Piece}
  (hfront : RendersFront service start) (hgap : IsGap gap)
  (hproper : Proper (Position.start.afterText (start ++ gap)) pieces)
  (hclosed : ∀ piece ∈ pieces, piece.closing.isSome) (hspace : IsGap space) (hne : space ≠ [])

include hfront hgap hproper hclosed hspace hne

/-- A script fails at a declared name that is not taken. -/
theorem script_failsAt_of_declaredName (hstops : StopsGap cs) (hname : declaredName cs = none) :
    FailsAt Grammar.script .start
      (start ++ (gap ++ pieces.flatMap Piece.whole) ++ ("new".toList ++ (space ++ cs)))
      (Position.start.afterText
        (start ++ (gap ++ pieces.flatMap Piece.whole) ++ ("new".toList ++ space))) := by
  have hfails := statement_failsAt_of_declaredName hspace hne hstops hname
    (Position.start.le_afterText (start ++ (gap ++ pieces.flatMap Piece.whole)))
  rw [Position.afterText_append]
  exact script_failsAt_of_statement hfront hgap hproper hclosed (stops_cons.mpr (by decide))
    (by decide) (Position.le_afterText _ _) hfails

/-- A script fails at a returned name where the name breaks off: at an underscore in front, or at
its first dash. -/
theorem script_failsAt_of_returned (hname : IsDeclaredName (front ++ c :: back))
    (hstop : front = [] ∧ c = '_' ∨ IsPlainName front ∧ c = '-')
    (hrest : Stops isDashedChar rest) (hpoint : Stops (· == '.') rest) :
    FailsAt Grammar.script .start
      (start ++ (gap ++ pieces.flatMap Piece.whole) ++
        ("return".toList ++ (space ++ (front ++ c :: back ++ rest))))
      (Position.start.afterText
        (start ++ (gap ++ pieces.flatMap Piece.whole) ++
          ("return".toList ++ (space ++ front)))) := by
  rcases hstop with ⟨rfl, rfl⟩ | ⟨hplain, rfl⟩
  · have hfails := @statement_failsAt_of_underscore _ space (back ++ rest) hspace hne
      (Position.start.le_afterText (start ++ (gap ++ pieces.flatMap Piece.whole)))
    rw [Position.afterText_append, List.append_nil]
    exact script_failsAt_of_statement hfront hgap hproper hclosed (stops_cons.mpr (by decide))
      (by decide) (Position.le_afterText _ _) hfails
  · have hle := Position.start.le_afterText (start ++ (gap ++ pieces.flatMap Piece.whole))
    have hgoes := goesOn_returned hspace hne hname hplain hrest hpoint hle
    have hdash := @statement_failsAt_of_head _ (back ++ rest) '-' (by decide) (by decide)
      (hle.trans (Position.le_afterText _ ("return".toList ++ (space ++ front))))
    rw [← Position.afterText_append] at hgoes hdash
    have hfails := script_failsAt_of_goesOn hfront hgap hproper hclosed hgoes (by decide)
      (Position.afterText_le_of_prefix (List.prefix_append _ _)) hdash.reach_eq.ge
    simpa only [List.append_assoc, List.cons_append] using hfails

end

end ScriptForge.Script

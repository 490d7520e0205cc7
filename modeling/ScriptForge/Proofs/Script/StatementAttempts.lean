import ScriptForge.Proofs.Script.Pieces
import ScriptForge.Proofs.Script.ValueAttempts

/-!
# How far attempts go in statements

Where a statement with its semicolon is written, nothing is attempted in vain beyond it
(`statement_within`), although other forms of statements are tried on its text first. So the
statements of a service stay within their text (`Proper.goesOn`), and a script fails where the first
statement does that is not read (`script_failsAt_of_statement`). A sign that starts no statement
fails where it stands (`script_failsAt`).
-/

namespace ScriptForge.Script

open Token Phrase Text

variable {p q : Position} {nodes : List Node} {text gap rest cs : List Char} {c : Char}
  {kind : StatementKind}

/-! ## The form that is written -/

theorem declaration_matchConfined : MatchConfined Grammar.declaration :=
  (confined_token.andThen (confined_gap.andThen (confined_token.andThen (confined_gap.andThen
    (confined_symbol.andThen (confined_gap.andThen expression_matchConfined)))))).rule

theorem returnStatement_matchConfined : MatchConfined Grammar.returnStatement :=
  (confined_token.andThen (confined_gap.andThen expression_matchConfined)).rule

theorem outputStatement_matchConfined : MatchConfined Grammar.outputStatement :=
  (confined_token.optional.andThen (confined_gap.andThen
    (scans_outputTarget.confined.andThen (confined_gap.andThen
      (confined_symbol.andThen (confined_gap.andThen expression_matchConfined)))))).rule

theorem callStatement_matchConfined : MatchConfined Grammar.callStatement :=
  call_within.matchConfined.rule

/-! ## The forms that are tried before it -/

theorem declaration_within_of_ne (h : RendersKind p kind text)
    (hkind : ∀ name value, kind ≠ .declaration name value) :
    Within Grammar.declaration p (text ++ rest) (p.afterText text) := by
  have hhead : ∀ {c cs}, c ≠ 'n' → Within Grammar.declaration p (c :: cs) (p.afterText text) :=
    fun hc => ((within_token_andThen_of_none (word_eq_none hc)).rule le_rfl).mono (p.le_afterText _)
  rcases h.word_or_run with ⟨_, _, cs, rfl, -⟩ | ⟨_, cs, -, rfl⟩ | ⟨cs, rfl⟩ | ⟨run, cs, rfl, hrun⟩
  · exact absurd rfl (hkind _ _)
  · exact hhead (by decide)
  · exact hhead (by decide)
  · rw [List.append_assoc]
    refine Within.mono ?_ (Position.afterText_le_of_prefix (List.prefix_append run _))
    refine (word_within (by decide) hrun (fun _ h => h) fun q c cs hc => ?_).rule (p.le_afterText _)
    refine within_token_andThen_of_none ?_
    rcases hc with rfl | rfl <;> rfl

theorem returnStatement_within_of_ne (h : RendersKind p kind text)
    (hkind : ∀ value, kind ≠ .returns value) :
    Within Grammar.returnStatement p (text ++ rest) (p.afterText text) := by
  have hhead : ∀ {c cs}, c ≠ 'r' → Within Grammar.returnStatement p (c :: cs) (p.afterText text) :=
    fun hc => ((within_token_andThen_of_none (word_eq_none hc)).rule le_rfl).mono (p.le_afterText _)
  rcases h.word_or_run with ⟨_, _, cs, -, rfl⟩ | ⟨_, cs, rfl, -⟩ | ⟨cs, rfl⟩ | ⟨run, cs, rfl, hrun⟩
  · exact hhead (by decide)
  · exact absurd rfl (hkind _)
  · exact hhead (by decide)
  · rw [List.append_assoc]
    refine Within.mono ?_ (Position.afterText_le_of_prefix (List.prefix_append run _))
    refine (word_within (by decide) hrun (fun _ => isDashedChar_of_isIdentifierChar)
      fun q c cs hc => ?_).rule (p.le_afterText _)
    refine expression_within_of_head ?_ ?_ <;> rcases hc with rfl | rfl <;> rfl

/-- The word before a mapping, which may be missing, is attempted at its start only. -/
theorem outputWord_within : Within
    (optional (token .outputWord (Token.word "output".toList isDashedChar))) p cs p :=
  (within_token le_rfl).optional

theorem outputTarget_within_of_head (h : c.isAlpha = false) :
    Within Grammar.outputTarget p (c :: cs) p :=
  (within_token_andThen_of_none (by simp [dashedName, name, h])).rule le_rfl

theorem outputTarget_refuses_of_head (h : c.isAlpha = false) :
    Refuses Grammar.outputTarget p (c :: cs) :=
  refuses_rule.mpr (refuses_andThen_of_first (refuses_token.mpr (by simp [dashedName, name, h])))

/-- Where a call stands, a mapping is not attempted beyond the callee, as what would be its target
has a slash behind it. -/
theorem outputStatement_within_of_callee {callee : Callee} (h : RendersCallee callee text)
    (hc : isPathChar c = false) :
    Within Grammar.outputStatement p (text ++ (gap ++ c :: rest)) (p.afterText (text ++ gap)) := by
  refine Within.rule ?_ (p.le_afterText _)
  have hscan : Within Grammar.outputTarget p (text ++ (gap ++ c :: rest))
      (p.afterText (text ++ gap)) := by
    rw [← List.append_assoc]
    exact scans_outputTarget.confined.within hc
  obtain @⟨plugin, extension, function, hplugin, hextension, hfunction⟩ := h
  refine (outputWord_within.mono (p.le_afterText _)).andThen fun nodes taken behind heq htakes => ?_
  simp only [spaced_cons, spaced_singleton]
  rcases takes_optional.mp htakes with hword | ⟨-, rfl, -⟩
  · obtain ⟨-, hword⟩ := takes_token.mp hword
    obtain ⟨rfl, hstops, -⟩ := word_eq_some_iff.mp hword
    rw [List.append_assoc, List.cons_append] at heq
    obtain ⟨d, ds, rfl, ⟨rfl, rfl⟩ | ⟨-, hdash⟩⟩ := word_at_run (by decide) hplugin.all
      (fun _ => isDashedChar_of_isIdentifierChar) hstops heq
    · -- a plugin of the name `output`, which is read as the word; no target starts with its point
      have hnone : Token.gap ('.' :: ds) = ([], '.' :: ds) :=
        gapIn_of_stops (stops_cons.mpr (by decide))
      have hprefix : "output".toList <+: "output".toList ++ '.' :: (extension ++ '/' :: function) ++
          gap :=
        ⟨_, (List.append_assoc ..).symm⟩
      have hle := Position.afterText_le_of_prefix (p := p) hprefix
      refine Within.gap_andThen hnone ?_
      refine Within.andThen_of_refuses ?_ (outputTarget_refuses_of_head (by decide))
      exact (outputTarget_within_of_head (by decide)).mono hle
    · cases hdash
  · -- the plugin and the extension may be read as a target, but no `=` follows them
    obtain rfl := heq
    have hnone : Token.gap (plugin ++ '.' :: (extension ++ '/' :: function) ++ (gap ++ c :: rest)) =
        ([], plugin ++ '.' :: (extension ++ '/' :: function) ++ (gap ++ c :: rest)) := by
      rw [List.append_assoc]
      exact gapIn_of_stops hplugin.stopsGap
    refine Within.gap_andThen hnone (hscan.andThen fun nodes taken behind heq htarget => ?_)
    obtain ⟨service, field, rfl, hservice, hfield, -, -⟩ := takes_outputTarget.mp htarget
    cases hbefore : Token.gap behind with
    | mk before others =>
      obtain rfl := (gap_sound hbefore).2
      refine Within.gap_andThen hbefore (within_symbol_andThen fun more hmore => ?_)
      subst hmore
      have hmapping : plugin ++ '.' :: (extension ++ '/' :: (function ++ (gap ++ c :: rest))) =
          service ++ '.' :: (field ++ (before ++ '=' :: more)) := by
        simpa using heq
      exact absurd hmapping (callee_ne_mapping hplugin hextension hfunction hservice hfield
        (isGap_of_gap hbefore (by simp)))

theorem outputStatement_within_of_call {callee : Callee} {arguments : List Expression}
    (h : RendersKind p (.call callee arguments) text) :
    Within Grammar.outputStatement p (text ++ rest) (p.afterText text) := by
  cases h with
  | call hcall =>
    cases hcall with
    | @call _ _ _ name gap inner hcallee _ _ =>
      have hprefix : name ++ gap <+: name ++ (gap ++ '(' :: (inner ++ [')'])) :=
        ⟨_, List.append_assoc ..⟩
      rw [List.append_assoc, List.append_assoc]
      exact (outputStatement_within_of_callee hcallee (by decide)).mono
        (Position.afterText_le_of_prefix hprefix)

/-! ## Statements -/

/-- Where a statement is written in front of a sign that is not part of any path, no form of a
statement is attempted beyond the gap between them. -/
theorem body_within (h : RendersKind p kind text) (hgap : IsGap gap) (hc : isPathChar c = false) :
    Within body p (text ++ (gap ++ c :: rest)) (p.afterText (text ++ gap)) := by
  have hparted : Parted kind.last (gap ++ c :: rest) := parted_of_not_isPathChar hgap hc _
  have hprefix := Position.afterText_le_of_prefix (p := p) (List.prefix_append text gap)
  cases kind with
  | declaration name value =>
    obtain ⟨_, htakes, -⟩ := declaration_complete h hparted
    exact (declaration_matchConfined.within hgap hc htakes).orElse_of_takes htakes
  | returns value =>
    obtain ⟨_, htakes, -⟩ := returnStatement_complete h hparted
    refine ((declaration_within_of_ne h (by simp)).mono hprefix).orElse ?_
    exact (returnStatement_matchConfined.within hgap hc htakes).orElse_of_takes htakes
  | output service field value =>
    obtain ⟨_, htakes, -⟩ := outputStatement_complete h hparted
    refine ((declaration_within_of_ne h (by simp)).mono hprefix).orElse ?_
    refine ((returnStatement_within_of_ne h (by simp)).mono hprefix).orElse ?_
    exact (outputStatement_matchConfined.within hgap hc htakes).orElse_of_takes htakes
  | call callee arguments =>
    obtain ⟨_, htakes, -⟩ := callStatement_complete h
    refine ((declaration_within_of_ne h (by simp)).mono hprefix).orElse ?_
    refine ((returnStatement_within_of_ne h (by simp)).mono hprefix).orElse ?_
    exact ((outputStatement_within_of_call h).mono hprefix).orElse
      (callStatement_matchConfined.within hgap hc htakes)

/-- Where a statement with its semicolon is written, nothing is attempted beyond it. -/
theorem statement_within (h : RendersKind p kind text) (hgap : IsGap gap) :
    Within Grammar.statement p (text ++ (gap ++ ';' :: rest)) (p.afterText (text ++ gap)) := by
  have hwithin : Within body p (text ++ (gap ++ ';' :: rest)) (p.afterText (text ++ gap)) :=
    body_within h hgap (by decide)
  have hparted : Parted kind.last (gap ++ ';' :: rest) :=
    parted_of_not_isPathChar hgap (by decide) _
  obtain ⟨_, _, htakes, -⟩ := body_complete h hparted
  refine Within.rule ?_ (p.le_afterText _)
  refine hwithin.andThen_of_takes htakes ?_
  refine Within.gap_andThen (gap_append hgap (stops_cons.mpr (by decide))) ?_
  rw [← Position.afterText_append]
  exact (within_token le_rfl).optional

/-! ## A sign that starts no statement -/

theorem gap_of_startsNoGap (h : startsNoGap c = true) : Token.gap (c :: cs) = ([], c :: cs) :=
  gapIn_of_stops (stopsGap_of_startsNoGap h)

theorem outputTarget_failsWithin_of_head (h : c.isAlpha = false) :
    FailsWithin Grammar.outputTarget p (c :: cs) p :=
  ⟨outputTarget_refuses_of_head h, outputTarget_within_of_head h⟩

theorem callee_failsWithin_of_head (h : c.isAlpha = false) :
    FailsWithin Grammar.callee p (c :: cs) p :=
  ⟨callee_refuses_of_head h, callee_within_of_head h⟩

/-- Where neither the word of a mapping nor a target stands, no mapping does. -/
theorem outputStatement_failsWithin
    (hword : Token.word "output".toList isDashedChar cs = none)
    (hgap : Token.gap cs = ([], cs)) (h : FailsWithin Grammar.outputTarget p cs p) :
    FailsWithin Grammar.outputStatement p cs p := by
  have hnothing : Takes (optional (token .outputWord (Token.word "output".toList isDashedChar))) p
      [] [] cs :=
    takes_optional.mpr (.inr ⟨rfl, rfl, refuses_token.mpr hword⟩)
  have hmapping : FailsWithin (spaced [Grammar.outputTarget, symbol ['='], Grammar.expression]) p cs
      p := h.andThen_of_first
  have hempty : Takes Phrase.gap p [] [] cs := takes_gap.mpr ⟨rfl, hgap⟩
  have hgapped : FailsWithin (Phrase.gap.andThen mapping) p cs p :=
    hmapping.andThen_of_takes within_gap hempty
  exact (hgapped.andThen_of_takes outputWord_within hnothing).rule le_rfl

theorem callStatement_failsWithin (h : FailsWithin Grammar.callee p cs p) :
    FailsWithin Grammar.callStatement p cs p := by
  have hcall : FailsWithin Grammar.call p cs p :=
    ⟨call_within.refuses h.refuses, call_within.within_of_refuses h.refuses h.within le_rfl⟩
  exact hcall.rule le_rfl

theorem body_failsWithin_of_head (halpha : c.isAlpha = false) (hstops : startsNoGap c = true) :
    FailsWithin body p (c :: cs) p := by
  have hne : ∀ {d : Char}, d.isAlpha = true → c ≠ d := by
    rintro d hd rfl
    rw [halpha] at hd
    cases hd
  have hdeclaration : FailsWithin Grammar.declaration p (c :: cs) p :=
    (failsWithin_token (word_eq_none (hne (by decide)))).andThen_of_first.rule le_rfl
  have hreturn : FailsWithin Grammar.returnStatement p (c :: cs) p :=
    (failsWithin_token (word_eq_none (hne (by decide)))).andThen_of_first.rule le_rfl
  have houtput : FailsWithin Grammar.outputStatement p (c :: cs) p :=
    outputStatement_failsWithin (word_eq_none (hne (by decide))) (gap_of_startsNoGap hstops)
      (outputTarget_failsWithin_of_head halpha)
  have hcall : FailsWithin Grammar.callStatement p (c :: cs) p :=
    callStatement_failsWithin (callee_failsWithin_of_head halpha)
  exact hdeclaration.orElse (hreturn.orElse (houtput.orElse hcall))

/-- A statement that is not read is reported where it starts, or further on. -/
theorem le_reach_statement (h : Refuses Grammar.statement p cs) :
    p ≤ reach Grammar.statement p cs :=
  le_reach_of_refuses (refuses_rule.mp h)

/-- A sign that starts no statement is reported, as the rule for a statement fails there. -/
theorem statement_failsAt_of_head (halpha : c.isAlpha = false) (hstops : startsNoGap c = true)
    (hp : .start ≤ p) : FailsAt Grammar.statement p (c :: cs) p := by
  have hbody : FailsWithin body p (c :: cs) p := body_failsWithin_of_head halpha hstops
  exact (hbody.andThen_of_first.rule le_rfl).failsAt hp

/-! ## Statements in a row -/

/-- Behind any gap that ends at `p`, statements are read one after the other up to a text, and
nothing is attempted beyond `q`. -/
def GoesOn (p q : Position) (rest text : List Char) : Prop :=
  ∀ start gap, IsGap gap → p = start.afterText gap →
    RepeatsTo Grammar.statement q rest start (gap ++ text)

theorem GoesOn.stop (hstops : StopsGap rest) (hrefuses : Refuses Grammar.statement p rest)
    (hwithin : Within Grammar.statement p rest q) : GoesOn p q rest [] := by
  rintro start gap hgap rfl
  rw [List.append_nil]
  exact .stop (gap_append hgap hstops) hrefuses hwithin

theorem GoesOn.step {taken : List Char} (hstops : StopsGap (taken ++ (text ++ rest)))
    (htakes : Takes Grammar.statement p nodes taken (text ++ rest))
    (hwithin : Within Grammar.statement p (taken ++ (text ++ rest)) q)
    (hmore : RepeatsTo Grammar.statement q rest (p.afterText taken) text) :
    GoesOn p q rest (taken ++ text) := by
  rintro start gap hgap rfl
  exact .step (gap_append hgap hstops) htakes hwithin hmore

/-- A statement with its semicolon is read, and nothing is attempted beyond it. -/
theorem GoesOn.closed {closing behind : List Char} (hkind : RendersKind p kind text)
    (hclosing : IsGap closing) (hbehind : IsGap behind) (hq : p.afterText (text ++ closing) ≤ q)
    {more : List Char}
    (hmore : GoesOn (p.afterText (text ++ (closing ++ [';']) ++ behind)) q rest more) :
    GoesOn p q rest (text ++ (closing ++ [';']) ++ (behind ++ more)) := by
  obtain ⟨node, -, htakes, -⟩ := statement_complete_of_semicolon hkind hclosing
  refine .step ?_ htakes ?_ (hmore _ _ hbehind (Position.afterText_append ..))
  · obtain ⟨c, cs, rfl, hc⟩ := hkind.front
    exact stopsGap_of_startsNoGap (startsNoGap_of_isAlpha hc)
  · rw [List.append_assoc, List.append_assoc]
    exact (statement_within hkind hclosing).mono hq

/-- Statements that all have their semicolons are read, and nothing is attempted beyond them. -/
theorem Proper.goesOn {pieces : List Piece} (h : Proper p pieces)
    (hclosed : ∀ piece ∈ pieces, piece.closing.isSome)
    (hq : p.afterText (pieces.flatMap Piece.whole) ≤ q) {more : List Char}
    (hmore : GoesOn (p.afterText (pieces.flatMap Piece.whole)) q rest more) :
    GoesOn p q rest (pieces.flatMap Piece.whole ++ more) := by
  induction h with
  | nil => exact hmore
  | @cons p piece pieces hkind hclosing hbehind _ _ ih =>
    obtain ⟨hfirst, hothers⟩ := List.forall_mem_cons.mp hclosed
    obtain ⟨closing, hsome⟩ := Option.isSome_iff_exists.mp hfirst
    have hwhole : piece.whole = piece.text ++ (closing ++ [';']) ++ piece.behind := by
      simp [Piece.whole, Piece.ending, hsome]
    rw [List.flatMap_cons, Position.afterText_append] at hq hmore
    have hrest := ih hothers hq hmore
    rw [hwhole] at hrest hq
    rw [List.flatMap_cons, hwhole, List.append_assoc, List.append_assoc]
    refine .closed hkind (hclosing closing hsome) hbehind (le_trans ?_ hq) hrest
    rw [← Position.afterText_append]
    exact Position.afterText_le_of_prefix ⟨[';'] ++ piece.behind ++ pieces.flatMap Piece.whole,
      by simp only [List.append_assoc]⟩

/-! ## Scripts -/

/-- A service whose statements stop at a sign that is no closing brace fails where they do. -/
theorem service_failsAt {before name behind : List Char} (hbefore : IsGap before)
    (hne : before ≠ []) (hname : IsDashedName name) (hbehind : IsGap behind)
    (hstatements : RepeatsTo Grammar.statement q (c :: cs)
      (p.afterText ("service".toList ++ (before ++ (name ++ (behind ++ ['\x7b']))))) text)
    (hbrace : c ≠ '\x7d') (hstart : .start ≤ q) (hp : p ≤ q)
    (hlast : q ≤ reach Grammar.statement (p.afterText
      ("service".toList ++ (before ++ (name ++ (behind ++ ['\x7b']))) ++ text)) (c :: cs)) :
    FailsAt Grammar.service p ("service".toList ++
      (before ++ (name ++ (behind ++ (['\x7b'] ++ (text ++ c :: cs)))))) q := by
  have hclose : after? ['\x7d'] (c :: cs) = none := by
    rw [after?, if_neg (Ne.symm hbrace)]
  have hword : Takes (token .serviceWord (Token.word "service".toList isDashedChar)) p _
      "service".toList (before ++ (name ++ (behind ++ (['\x7b'] ++ (text ++ c :: cs))))) :=
    takes_token.mpr ⟨rfl, word_eq_some_iff.mpr ⟨rfl, stops_of_gap hbefore hne, rfl⟩⟩
  have hnamed : ∀ q, Takes (token .serviceName dashedName) q _ name
      (behind ++ (['\x7b'] ++ (text ++ c :: cs))) := fun q =>
    takes_token.mpr ⟨rfl, name_eq_some_iff.mpr ⟨hname, stops_append hbehind
      (stops_cons.mpr (by decide)), rfl⟩⟩
  simp only [Position.afterText_append] at hstatements hlast
  have hinner := hstatements.failsAt consumes_statement (List.cons_ne_nil _ _) hstart hlast hclose
  have hopen := (hinner.andThen_of_takes hstart within_symbol
    (takes_symbol.mpr ⟨rfl, rfl⟩)).gap_andThen hstart
    (gap_append hbehind (stops_cons.mpr (by decide)))
  have hservice := (hopen.andThen_of_takes hstart (within_token_of_takes (hnamed _))
    (hnamed _)).gap_andThen hstart (gap_append hbefore hname.stopsGap)
  exact (hservice.andThen_of_takes hstart (within_token_of_takes hword) hword).rule hp

/-- A script fails where its statements do not go on, if no brace closes it there. The statements
that have their semicolons do. -/
theorem script_failsAt_of_goesOn {service : String} {front : List Char} {pieces : List Piece}
    (hfront : RendersFront service front) (hgap : IsGap gap)
    (hproper : Proper (Position.start.afterText (front ++ gap)) pieces)
    (hclosed : ∀ piece ∈ pieces, piece.closing.isSome)
    (hmore : GoesOn (Position.start.afterText (front ++ (gap ++ pieces.flatMap Piece.whole))) q
      (c :: cs) text) (hbrace : c ≠ '\x7d')
    (hle : Position.start.afterText (front ++ (gap ++ pieces.flatMap Piece.whole)) ≤ q)
    (hlast : q ≤ reach Grammar.statement (Position.start.afterText
      (front ++ (gap ++ pieces.flatMap Piece.whole) ++ text)) (c :: cs)) :
    FailsAt Grammar.script .start
      (front ++ (gap ++ pieces.flatMap Piece.whole) ++ (text ++ c :: cs)) q := by
  have hfirst :=
    (Position.afterText_le_of_prefix (p := .start) (List.prefix_append front _)).trans hle
  rw [← List.append_assoc, Position.afterText_append] at hle hmore
  have hrepeats := hproper.goesOn hclosed hle hmore _ gap hgap (Position.afterText_append ..)
  obtain @⟨first, before, behind, hfirstGap, hbefore, hne, hname, hbehind⟩ := hfront
  set opening := "service".toList ++ (before ++ (service.toList ++ (behind ++ ['\x7b'])))
    with hopening
  rw [Position.afterText_append] at hrepeats
  simp only [List.append_assoc] at hlast
  rw [Position.afterText_append] at hlast
  have hstart : .start ≤ q := (Position.start.le_afterText _).trans hfirst
  have hp : Position.start.afterText first ≤ q :=
    (Position.afterText_le_of_prefix (List.prefix_append first opening)).trans hfirst
  have hservice := service_failsAt hbefore hne hname hbehind hrepeats hbrace hstart hp (by
    simpa only [hopening, List.append_assoc] using hlast)
  have hspaced : FailsAt (spaced [Grammar.service, Grammar.endOfScript])
      (Position.start.afterText first) _ q := hservice.andThen_of_first
  have hscript : FailsAt Grammar.script .start _ q :=
    (hspaced.gap_andThen hstart (gap_append hfirstGap (stops_cons.mpr (by decide)))).rule hstart
  simpa only [hopening, List.append_assoc, List.cons_append, List.nil_append] using hscript

/-- A script fails where the first of its statements does that is not read, if no brace stands
there instead. -/
theorem script_failsAt_of_statement {service : String} {front : List Char} {pieces : List Piece}
    (hfront : RendersFront service front) (hgap : IsGap gap)
    (hproper : Proper (Position.start.afterText (front ++ gap)) pieces)
    (hclosed : ∀ piece ∈ pieces, piece.closing.isSome) (hstops : StopsGap (c :: cs))
    (hbrace : c ≠ '\x7d') (hle : Position.start.afterText (front ++ (gap ++
      pieces.flatMap Piece.whole)) ≤ q)
    (hfails : FailsAt Grammar.statement (Position.start.afterText (front ++ (gap ++
      pieces.flatMap Piece.whole))) (c :: cs) q) :
    FailsAt Grammar.script .start (front ++ (gap ++ pieces.flatMap Piece.whole) ++ c :: cs) q := by
  have hstop := GoesOn.stop hstops hfails.refuses (hfails.reach_eq.le.trans (le_max_right _ _))
  refine script_failsAt_of_goesOn hfront hgap hproper hclosed hstop hbrace hle ?_
  rw [List.append_nil]
  exact hfails.reach_eq.ge

/-- A script whose last statement has a sign behind it that starts no statement, and is no closing
brace, fails at this sign. -/
theorem script_failsAt {service : String} {front : List Char} {pieces : List Piece}
    (hfront : RendersFront service front) (hgap : IsGap gap)
    (hproper : Proper (Position.start.afterText (front ++ gap)) pieces)
    (hclosed : ∀ piece ∈ pieces, piece.closing.isSome) (halpha : c.isAlpha = false)
    (hstops : startsNoGap c = true) (hbrace : c ≠ '\x7d') :
    FailsAt Grammar.script .start (front ++ (gap ++ pieces.flatMap Piece.whole) ++ c :: cs)
      (Position.start.afterText (front ++ (gap ++ pieces.flatMap Piece.whole))) :=
  script_failsAt_of_statement hfront hgap hproper hclosed (stopsGap_of_startsNoGap hstops) hbrace
    le_rfl (statement_failsAt_of_head halpha hstops (Position.start.le_afterText _))

/-! ## Syntax errors -/

theorem not_allBlank_of_front {service : String} {front : List Char}
    (h : RendersFront service front) : ¬ allBlank (String.ofList (front ++ text)) = true := by
  intro hblank
  rw [allBlank, String.toList_ofList, List.all_eq_true] at hblank
  obtain ⟨-, -, -, -, -⟩ := h
  have hletter := hblank 's' (by simp)
  cases hletter

/-- Where the grammar fails, the text is refused. -/
theorem parse_of_failsAt {service : String} {front : List Char}
    (hfront : RendersFront service front) (h : FailsAt Grammar.script .start (front ++ text) q) :
    ∃ expected, parse (String.ofList (front ++ text)) = .error (.unexpected q expected) := by
  have hrefuses : (Grammar.script ⟨.start, front ++ text⟩).found = none := h.refuses
  refine ⟨(Grammar.script ⟨.start, front ++ text⟩).attempts.expected, ?_⟩
  rw [parse, if_neg (not_allBlank_of_front hfront), String.toList_ofList]
  dsimp only
  rw [hrefuses, ← h.reach_eq]
  rfl

end ScriptForge.Script

import ScriptForge.Proofs.Script.Statements

/-!
# What parses

A text parses to a script exactly if the script may be written so (`parse_eq_ok_iff`). Both ways
matter. A text that is written by the rules of `Renders` is never refused and never read as another
script, however its gaps are laid out and whichever of its statements lack a semicolon. And nothing
else parses, so a fact about all parsed scripts can be shown by induction on `Renders`.
-/

namespace ScriptForge.Script

open Token Phrase Text

variable {p : Position} {nodes : List Node} {text rest : List Char}

/-! ## The service -/

theorem takes_gap_repeated_symbol {phrase : Phrase} [Lawful phrase] (hconsumes : Consumes phrase)
    {symbol : List Char} :
    Takes (Phrase.gap.andThen (spaced [repeated phrase, Phrase.symbol symbol])) p nodes text rest ↔
      ∃ behind, text = behind ++ symbol ∧ Repeats phrase p nodes behind (symbol ++ rest) := by
  simp only [spaced_cons, spaced_singleton]
  constructor
  · intro h
    obtain ⟨gap, _, rfl, hgap, hmore⟩ := takes_gap_andThen.mp h
    obtain ⟨nodes, taken, _, _, rfl, rfl, hrepeated, hclose⟩ := takes_andThen.mp hmore
    obtain ⟨tail, _, rfl, htail, hsymbol⟩ := takes_gap_andThen.mp hclose
    obtain ⟨rfl, rfl⟩ := takes_symbol.mp hsymbol
    rw [List.append_assoc tail] at hrepeated
    rw [List.append_assoc, List.append_assoc] at hgap
    have htakes := takes_gap_andThen.mpr ⟨gap, taken, rfl, hgap, hrepeated⟩
    refine ⟨gap ++ taken ++ tail, by simp, ?_⟩
    rw [List.append_nil]
    exact .of_repeated hconsumes htakes htail
  · rintro ⟨_, rfl, hrepeats⟩
    obtain ⟨_, tail, rfl, htail, htakes⟩ := hrepeats.takes_repeated hconsumes
    obtain ⟨gap, taken, rfl, hgap, hrepeated⟩ := takes_gap_andThen.mp htakes
    have hclose : ∀ q, Takes (Phrase.gap.andThen (Phrase.symbol symbol)) q [] (tail ++ symbol)
        rest :=
      fun q => takes_gap_andThen.mpr ⟨tail, symbol, rfl, htail, takes_symbol.mpr ⟨rfl, rfl⟩⟩
    rw [← List.append_assoc tail] at hrepeated hgap
    have hmore := hrepeated.andThen (hclose _)
    rw [List.append_nil] at hmore
    rw [List.append_assoc, List.append_assoc]
    exact takes_gap_andThen.mpr ⟨gap, _, rfl, by rwa [List.append_assoc], hmore⟩

theorem childrenOf_statements {q q' : Position} {taken name : List Char}
    (h : ∀ node ∈ nodes, node.rule = .statement) :
    (Node.mk .service p text (.mk .serviceWord q taken [] :: .mk .serviceName q' name [] ::
      nodes)).childrenOf .statement = nodes := by
  have hfilter : nodes.filter (fun node => node.rule == .statement) = nodes :=
    List.filter_eq_self.mpr fun node hnode => by rw [h node hnode]; rfl
  exact hfilter

theorem scriptOf_mk {q q' q'' : Position} {whole taken name : List Char}
    {closing : List Node} {statements : List Statement} (h : BuildsStatements nodes statements) :
    scriptOf (.mk .script p whole (.mk .service q text (.mk .serviceWord q' taken [] ::
      .mk .serviceName q'' name [] :: nodes) :: closing)) =
        .ok ⟨String.ofList name, statements⟩ := by
  change ((Node.childrenOf (.mk .service q text (.mk .serviceWord q' taken [] ::
    .mk .serviceName q'' name [] :: nodes)) .statement).mapM statementOf >>= fun statements =>
      _) = _
  rw [childrenOf_statements h.2, h.1]
  rfl

theorem service_sound (h : Takes Grammar.service p nodes text rest) :
    ∃ node script, nodes = [node] ∧ (∀ q taken closing,
      scriptOf (.mk .script q taken (node :: closing)) = .ok script) ∧
      RendersService p script text := by
  obtain ⟨_, rfl, hbody⟩ := takes_rule.mp h
  obtain ⟨_, _, _, rfl, rfl, hservice, hmore⟩ := takes_token_andThen.mp hbody
  obtain ⟨before, _, rfl, hbefore, hnamed⟩ := takes_gap_andThen.mp hmore
  obtain ⟨name, _, _, rfl, rfl, hdashed, hbehind⟩ := takes_token_andThen.mp hnamed
  obtain ⟨behind, _, rfl, hscan, hopen⟩ := takes_gap_andThen.mp hbehind
  obtain ⟨_, rfl, hinner⟩ := takes_symbol_andThen.mp hopen
  obtain ⟨_, rfl, hrepeats⟩ := (takes_gap_repeated_symbol consumes_statement).mp hinner
  obtain ⟨rfl, hstops, -⟩ := word_eq_some_iff.mp hservice
  obtain ⟨hname, -, -⟩ := name_eq_some_iff.mp hdashed
  obtain ⟨gap, taken, statements, rfl, hgap, hbuilt, hstatements⟩ :=
    statements_sound hrepeats (by simp)
  have hne : before ≠ [] := by
    rw [List.append_assoc, List.append_assoc] at hstops
    exact ne_nil_of_stops hname hstops
  have hbefore := isGap_of_gap hbefore (by simp)
  have hbehind := isGap_of_gap hscan (by simp)
  have hstatements : RendersStatements (p.afterText ("service".toList ++ before ++ name ++ behind ++
      '\x7b' :: gap)) statements taken := by
    simpa [Position.afterText_append] using hstatements
  have hservice := RendersService.mk hbefore hne hname hbehind hgap hstatements
  exact ⟨_, _, rfl, fun _ _ _ => scriptOf_mk hbuilt, by simpa using hservice⟩

theorem service_complete {script : Script} (h : RendersService p script text) :
    ∃ node, Takes Grammar.service p [node] text rest ∧ ∀ q taken closing,
      scriptOf (.mk .script q taken (node :: closing)) = .ok script := by
  cases h with
  | @mk service before behind gap text statements hbefore hne hname hbehind hgap hstatements =>
    have hstatements : RendersStatements ((((((p.afterText "service".toList).afterText
        before).afterText service).afterText behind).afterText ['\x7b']).afterText gap) statements
        text := by
      simpa [Position.afterText_append] using hstatements
    obtain ⟨nodes, hrepeats, hbuilt⟩ := statements_complete hstatements hgap rfl
    have hinner : Takes (Phrase.gap.andThen (spaced [repeated Grammar.statement, symbol ['\x7d']]))
        (((((p.afterText "service".toList).afterText before).afterText service).afterText
          behind).afterText ['\x7b']) nodes (gap ++ (text ++ ['\x7d'])) rest :=
      (takes_gap_repeated_symbol consumes_statement).mpr ⟨gap ++ text, by simp, hrepeats⟩
    refine ⟨.mk .service p _ (.mk .serviceWord p "service".toList [] :: .mk .serviceName
      ((p.afterText "service".toList).afterText before) service [] :: nodes),
      takes_rule.mpr ⟨_, rfl, ?_⟩, fun _ _ _ => scriptOf_mk hbuilt⟩
    refine takes_token_andThen.mpr ⟨_, _, _, rfl, rfl, word_eq_some_iff.mpr ⟨rfl, ?_, rfl⟩, ?_⟩
    · rw [List.append_assoc]
      exact stops_of_gap hbefore hne
    refine takes_gap_andThen_of_stops hbefore ?_ (takes_token_andThen.mpr ⟨service, _, _, rfl, rfl,
      name_eq_some_iff.mpr ⟨hname, ?_, rfl⟩, ?_⟩)
    · rw [List.append_assoc]
      exact hname.stopsGap
    · rw [List.append_assoc]
      exact stops_append hbehind (stops_cons.mpr (by decide))
    · exact takes_gap_andThen_of_stops hbehind (stops_cons.mpr (by decide))
        (takes_symbol_andThen.mpr ⟨_, rfl, hinner⟩)

/-! ## The script -/

theorem RendersService.ne_nil {script : Script} (h : RendersService p script text) : text ≠ [] := by
  cases h
  exact List.cons_ne_nil _ _


instance : Lawful Grammar.service :=
  inferInstanceAs (Lawful (rule .service (spaced _)))

theorem endOfScript_eq_some_iff {cs : List Char} :
    (if cs.isEmpty then some ([], []) else none) = some (text, rest) ↔
      text = [] ∧ rest = [] ∧ cs = text ++ rest := by
  constructor
  · intro h
    split at h
    · cases h
      exact ⟨rfl, rfl, List.isEmpty_iff.mp ‹_›⟩
    · cases h
  · rintro ⟨rfl, rfl, rfl⟩
    rfl

instance : Splits fun cs => if cs.isEmpty then some ([], []) else none :=
  ⟨fun h => (endOfScript_eq_some_iff.mp h).2.2⟩

instance : Lawful Grammar.endOfScript :=
  inferInstanceAs (Lawful (token .endOfScript _))

instance : Lawful Grammar.script :=
  inferInstanceAs (Lawful (rule .script
    (Phrase.gap.andThen (spaced [Grammar.service, Grammar.endOfScript]))))

theorem script_sound (h : Takes Grammar.script .start nodes text rest) :
    ∃ node script, nodes = [node] ∧ rest = [] ∧ scriptOf node = .ok script ∧
      Renders script text := by
  obtain ⟨_, rfl, hbody⟩ := takes_rule.mp h
  obtain ⟨gap, _, rfl, hgap, hspaced⟩ := takes_gap_andThen.mp hbody
  obtain ⟨_, taken, _, _, rfl, rfl, hservice, hmore⟩ := takes_andThen.mp hspaced
  obtain ⟨final, _, rfl, hfinal, hend⟩ := takes_gap_andThen.mp hmore
  obtain ⟨rfl, hscan⟩ := takes_token.mp hend
  obtain ⟨rfl, rfl, -⟩ := endOfScript_eq_some_iff.mp hscan
  obtain ⟨node, script, rfl, hbuilt, hrenders⟩ := service_sound hservice
  have hgap := isGap_of_gap hgap (by simp [hrenders.ne_nil])
  have hfinal : IsFinalGap final := (gap_sound hfinal).1
  have hscript := Renders.mk hgap hrenders hfinal
  exact ⟨_, script, rfl, rfl, hbuilt _ _ _, by simpa using hscript⟩

theorem script_complete {script : Script} (h : Renders script text) :
    ∃ node, Takes Grammar.script .start [node] text [] ∧ scriptOf node = .ok script := by
  cases h with
  | @mk gap text final hgap hservice hfinal =>
    obtain ⟨node, htakes, hbuilt⟩ : ∃ node, Takes Grammar.service _ [node] text (final ++ []) ∧ _ :=
      service_complete hservice
    have hstops : StopsGap (text ++ final ++ []) := by
      cases hservice
      exact stops_cons.mpr (by decide)
    have hend : ∀ q, Takes Grammar.endOfScript q [.mk .endOfScript q [] []] [] [] :=
      fun q => takes_token.mpr ⟨rfl, rfl⟩
    have hfinal : Takes (Phrase.gap.andThen Grammar.endOfScript)
        ((Position.start.afterText gap).afterText text) _ final [] :=
      takes_gap_andThen.mpr ⟨final, [], (List.append_nil _).symm,
        by simpa using gap_final hfinal, hend _⟩
    have hbody := takes_gap_andThen_of_stops hgap hstops (htakes.andThen hfinal)
    exact ⟨_, takes_rule.mpr ⟨_, rfl, hbody⟩, hbuilt _ _ _⟩

theorem not_allBlank {script : Script} {text : String} (h : Renders script text.toList) :
    ¬ allBlank text = true := by
  intro hblank
  rw [allBlank, List.all_eq_true] at hblank
  generalize text.toList = cs at h hblank
  obtain ⟨-, ⟨⟩, -⟩ := h
  have hletter := hblank 's' (by simp)
  cases hletter

/-- Nothing parses but what is written by the rules. -/
theorem renders_of_parse {text : String} {script : Script} (h : parse text = .ok script) :
    Renders script text.toList := by
  rw [parse] at h
  split at h
  · cases h
  dsimp only at h
  rcases takes_or_refuses Grammar.script .start text.toList with
    ⟨nodes, taken, rest, heq, htakes⟩ | hrefuses
  · obtain ⟨node, script', rfl, rfl, hbuilt, hrenders⟩ := script_sound htakes
    rw [heq, htakes] at h
    rw [heq, List.append_nil]
    cases hbuilt.symm.trans h
    exact hrenders
  · rw [hrefuses] at h
    cases h

/-- What is written by the rules parses, and to nothing else. -/
theorem parse_of_renders {text : String} {script : Script} (h : Renders script text.toList) :
    parse text = .ok script := by
  obtain ⟨node, htakes, hbuilt⟩ := script_complete h
  rw [Takes, List.append_nil] at htakes
  rw [parse, if_neg (not_allBlank h)]
  dsimp only
  rw [htakes]
  exact hbuilt

/-- **What parses.** A text parses to a script exactly if the script may be written so. -/
theorem parse_eq_ok_iff (text : String) (script : Script) :
    parse text = .ok script ↔ Renders script text.toList :=
  ⟨renders_of_parse, parse_of_renders⟩

instance (text : String) (error : ParseError) : Decidable (parse text = .error error) :=
  match parse text with
  | .ok _ => .isFalse nofun
  | .error found => decidable_of_iff (found = error) (by simp)

end ScriptForge.Script

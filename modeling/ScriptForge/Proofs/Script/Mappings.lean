import ScriptForge.Proofs.Script.Outlines
import ScriptForge.Proofs.Script.StatementAttempts

/-!
# Mappings without their word

A mapping may be written with the word `output` or without it, and a script reads the same either
way, whatever the target is called; names that start with one of the words of the grammar, or are
one, make no difference. There is one exception. Where the target is called `output` itself, its
name is taken for the word, and no target is left behind it: the mapping is then a syntax error
without the word (`mapping_without_word`).
-/

namespace ScriptForge.Script

open Token Phrase

variable {p q : Position} {target field text rest : List Char} {value : Expression}

/-- A mapping without the word in front of it, and what is mapped. -/
inductive RendersMapping (target field : List Char) : Expression → List Char → Prop
  | mk {p : Position} {behind gap text : List Char} {value : Expression} :
      IsDashedName target → IsPlainName field → IsGap behind → IsGap gap →
      RendersValue p value text →
      RendersMapping target field value.unplaced
        (target ++ '.' :: (field ++ (behind ++ '=' :: (gap ++ text))))

theorem RendersMapping.with_word (h : RendersMapping target field value text) {first : List Char}
    (hfirst : IsGap first) (hne : first ≠ []) (p : Position) :
    ∃ kind, RendersKind p kind ("output".toList ++ (first ++ text)) ∧
      kind.unplaced = .output (String.ofList target) (String.ofList field) value := by
  cases h with
  | mk htarget hfield hbehind hgap hvalue =>
    obtain ⟨value', hrenders, hsame⟩ := hvalue.relocate _
    exact ⟨_, .output hfirst hne htarget hfield hbehind hgap hrenders, by
      rw [StatementKind.unplaced, hsame]⟩

theorem RendersMapping.without_word (h : RendersMapping target field value text)
    (hword : target ≠ "output".toList) (p : Position) :
    ∃ kind, RendersKind p kind text ∧
      kind.unplaced = .output (String.ofList target) (String.ofList field) value := by
  cases h with
  | mk htarget hfield hbehind hgap hvalue =>
    obtain ⟨value', hrenders, hsame⟩ := hvalue.relocate _
    exact ⟨_, .mapping htarget hword hfield hbehind hgap hrenders, by
      rw [StatementKind.unplaced, hsame]⟩

theorem RendersMapping.front (h : RendersMapping target field value text) (rest : List Char) :
    ∃ c cs, text ++ rest = c :: cs ∧ c.isAlpha = true := by
  cases h with
  | mk htarget =>
    obtain ⟨c, cs, rfl, hc, -⟩ := htarget
    exact ⟨c, _, rfl, hc⟩

/-! ## The target that is called like the word -/

/-- No statement starts with the word and a point, unless it is a call. -/
theorem RendersKind.ne_mapping_of_word {kind : StatementKind} (h : RendersKind p kind text)
    {behind more : List Char} (hfield : IsPlainName field) (hbehind : IsGap behind) :
    text ++ rest ≠ "output".toList ++ '.' :: (field ++ (behind ++ '=' :: more)) := by
  intro heq
  have hword : IsDashedName "output".toList := by decide
  cases h with
  | declaration | returns => cases heq
  | @output first _ _ _ _ _ _ hfirst hne =>
    -- a gap has to stand behind the word, and the point is none
    rw [List.append_assoc, List.append_assoc] at heq
    have hpoint := List.append_cancel_left heq
    rcases hfirst.front with rfl | ⟨c, cs, rfl, hspace⟩ | ⟨c, cs, rfl, -⟩
    · exact hne rfl
    · obtain ⟨rfl, -⟩ := List.cons.inj hpoint
      cases hspace
    · cases hpoint
  | @mapping service _ _ _ _ _ hservice hne =>
    rw [List.append_assoc] at heq
    exact hne (run_unique hservice.all (stops_cons.mpr (by decide)) hword.all
      (stops_cons.mpr (by decide)) heq).1
  | call hcall =>
    cases hcall with
    | call hcallee =>
      obtain ⟨hplugin, hextension, hfunction⟩ := hcallee
      simp only [List.append_assoc, List.cons_append] at heq
      exact callee_ne_mapping hplugin hextension hfunction hword hfield hbehind heq

/-- Without the word, a mapping to the target of this name is not read. -/
theorem RendersMapping.refuses_statement
    (h : RendersMapping "output".toList field value text) :
    Refuses Grammar.statement p (text ++ rest) := by
  cases h with
  | @mk _ behind gap text value _ hfield hbehind hgap hvalue =>
    refine refuses_rule.mpr (refuses_andThen_of_first (refuses_of_not_takes ?_))
    intro nodes taken rest' heq htakes
    have hstart : Token.gap (taken ++ rest') = ([], taken ++ rest') := by
      rw [← heq]
      exact gapIn_of_stops (stops_cons.mpr (by decide))
    obtain ⟨_, _, _, -, -, hkind, -⟩ := body_sound htakes hstart
    have hmapping : taken ++ rest' =
        "output".toList ++ '.' :: (field ++ (behind ++ '=' :: (gap ++ text ++ rest))) := by
      rw [← heq]
      simp only [List.append_assoc, List.cons_append]
    exact hkind.ne_mapping_of_word hfield hbehind hmapping

/-! ## With and without the word -/

/-- **The word in front of a mapping.** A mapping with its semicolon stands in a service, with any
statements before and behind it and in any layout. With the word in front of it the text parses, and
without the word it parses to a script of the same outline, if the target is not called `output`. If
it is, and the statements before it have their semicolons, the text without the word is a syntax
error, which is not reported before the mapping. -/
theorem mapping_without_word {service : String} {front gap closing behind final : List Char}
    {before after : List Piece} (hfront : RendersFront service front) (hgap : IsGap gap)
    (hbefore : Proper (Position.start.afterText (front ++ gap)) before)
    (hword : ¬ EndsInWord before) (hmapping : RendersMapping target field value text)
    (hclosing : IsGap closing) (hbehind : IsGap behind) (hafter : Proper p after)
    (hfinal : IsFinalGap final) :
    let source := fun statement => String.ofList (front ++ (gap ++ (before.flatMap Piece.whole ++
      (statement ++ (closing ++ ';' :: (behind ++ (after.flatMap Piece.whole ++
        '\x7d' :: final)))))))
    let outline := (service, before.map Piece.outline ++
      (.output (String.ofList target) (String.ofList field) value, true) ::
        after.map Piece.outline)
    (∀ first, IsGap first → first ≠ [] → ∃ script,
      parse (source ("output".toList ++ (first ++ text))) = .ok script ∧
      script.outline = outline) ∧
    (target ≠ "output".toList → ∃ script, parse (source text) = .ok script ∧
      script.outline = outline) ∧
    (target = "output".toList → (∀ piece ∈ before, piece.closing.isSome) →
      ∃ place expected, parse (source text) = .error (.unexpected place expected) ∧
        Position.start.afterText (front ++ (gap ++ before.flatMap Piece.whole)) ≤ place) := by
  intro source outline
  have hparses : ∀ statement, (∀ q, ∃ kind, RendersKind q kind statement ∧
      kind.unplaced = .output (String.ofList target) (String.ofList field) value) →
      ∃ script, parse (source statement) = .ok script ∧ script.outline = outline := by
    intro statement hkind
    obtain ⟨pieces, hproper, houtline, hwhole⟩ :=
      hbefore.surround hword hkind hclosing hbehind hafter
    obtain ⟨script, hparse, hscript⟩ := hproper.exists_parse hfront hgap hfinal
    refine ⟨script, ?_, by rw [hscript, houtline]⟩
    rw [hwhole] at hparse
    simpa only [source, List.append_assoc, List.cons_append] using hparse
  refine ⟨fun first hfirst hne => hparses _ (hmapping.with_word hfirst hne),
    fun hother => hparses _ (hmapping.without_word hother), ?_⟩
  rintro rfl hclosed
  set place := Position.start.afterText (front ++ (gap ++ before.flatMap Piece.whole)) with hplace
  set rest := closing ++ ';' :: (behind ++ (after.flatMap Piece.whole ++ '\x7d' :: final))
  obtain ⟨c, cs, hhead, hc⟩ := hmapping.front rest
  have hrefuses : Refuses Grammar.statement place (c :: cs) :=
    hhead ▸ hmapping.refuses_statement
  have hle : place ≤ reach Grammar.statement place (c :: cs) := le_reach_statement hrefuses
  have hbrace : c ≠ '\x7d' := by
    rintro rfl
    cases hc
  have hfails := script_failsAt_of_statement hfront hgap hbefore hclosed
    (stopsGap_of_startsNoGap (startsNoGap_of_isAlpha hc)) hbrace hle ⟨hrefuses, rfl⟩
  rw [List.append_assoc] at hfails
  obtain ⟨expected, hparse⟩ := parse_of_failsAt hfront hfails
  rw [List.append_assoc, ← hhead] at hparse
  rw [← hhead] at hle
  exact ⟨_, expected, hparse, hle⟩

/-- A service may be called like the word that starts a declaration. -/
theorem mapping_to_service_new :
    let outline := ("new", [(StatementKind.output "new" "f" (.literal ⟨.number, "1"⟩), true)])
    (∃ script, parse "service new \x7b output new.f = 1; \x7d" = .ok script ∧
      script.outline = outline) ∧
    ∃ script, parse "service new \x7b new.f = 1; \x7d" = .ok script ∧ script.outline = outline := by
  have hname : IsDashedName "new".toList := by decide
  have hmapping : RendersMapping "new".toList ['f'] (.literal ⟨.number, "1"⟩) "new.f = 1".toList :=
    .mk (p := .start) hname (by decide) isGap_space isGap_space
      (@RendersValue.digits _ ['1'] (by decide))
  have hfront : RendersFront "new" "service new \x7b".toList :=
    .mk .nil isGap_space (by simp) hname isGap_space
  obtain ⟨hwith, hwithout, -⟩ := mapping_without_word hfront isGap_space .nil
    (fun h => nomatch h) hmapping .nil isGap_space (.nil (p := .start)) .nil
  exact ⟨hwith [' '] isGap_space (by simp), hwithout (by decide)⟩

/-- A service may be called like the word in front of a mapping, but then the word is needed. -/
theorem mapping_to_service_output :
    (parse "service output \x7b output output.f = 1; \x7d").toBool = true ∧
    parse "service output \x7b output.f = 1; \x7d" =
      .error (.unexpected ⟨1, 24⟩ [.serviceName]) :=
  ⟨by decide +kernel, by decide +kernel⟩

end ScriptForge.Script

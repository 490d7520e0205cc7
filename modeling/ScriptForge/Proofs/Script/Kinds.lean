import ScriptForge.Proofs.Script.Expressions

/-!
# Reading what statements do

A statement declares, returns, maps or calls. `body_sound` and `body_complete` say that the choice
between these forms takes exactly the texts of statements. The word that starts a declaration, a
return or a mapping may also name a service or a plugin. Then a point follows it, and no name, no
value and no target starts with a point.
-/

namespace ScriptForge.Script

open Token Phrase Text

variable {p : Position} {nodes : List Node} {text rest : List Char}

instance : Lawful Grammar.gqlBlock :=
  inferInstanceAs (Lawful (rule .gqlBlock (spaced _)))

instance : Lawful Grammar.call :=
  inferInstanceAs (Lawful (nested Grammar.callTo))

instance : Lawful Grammar.expression :=
  inferInstanceAs (Lawful (rule .expression (firstOf _)))

instance : Lawful Grammar.outputTarget :=
  inferInstanceAs (Lawful (rule .outputTarget (joined _)))

instance : Lawful Grammar.declaration :=
  inferInstanceAs (Lawful (rule .declaration (spaced _)))

instance : Lawful Grammar.returnStatement :=
  inferInstanceAs (Lawful (rule .returnStatement (spaced _)))

instance : Lawful Grammar.outputStatement :=
  inferInstanceAs (Lawful (rule .outputStatement (spaced _)))

instance : Lawful Grammar.callStatement :=
  inferInstanceAs (Lawful (rule .callStatement _))

/-! ## Declarations -/

theorem statementKindOf_declaration {q q' q'' : Position} {taken name value : List Char}
    {inner : List Node} {expression : Expression}
    (h : valueOf (.mk .expression q'' value inner) = .ok expression) :
    statementKindOf (.mk .declaration p text [.mk .newWord q taken [], .mk .declaredName q' name [],
      .mk .expression q'' value inner]) = .ok (.declaration (String.ofList name) expression) := by
  change (valueOf (.mk .expression q'' value inner) >>= fun value => _) = _
  rw [h]
  rfl

theorem declaration_sound (h : Takes Grammar.declaration p nodes text rest) :
    ∃ inner kind, nodes = [.mk .declaration p text inner] ∧
      statementKindOf (.mk .declaration p text inner) = .ok kind ∧ RendersKind p kind text ∧
      (kind.last.endsWithWord = true → Stops isIdentifierChar rest) := by
  simp only [Grammar.declaration, takes_rule, spaced_cons, spaced_singleton, takes_token_andThen,
    takes_gap_andThen, takes_symbol_andThen, word_eq_some_iff, declaredName_eq_some_iff,
    and_true] at h
  obtain ⟨_, rfl, _, _, _, rfl, rfl, ⟨rfl, hstops⟩, before, _, rfl, hbefore, name, _, _, rfl, rfl,
    ⟨hname, -⟩, behind, _, rfl, hbehind, _, rfl, gap, text, rfl, hgap, hvalue⟩ := h
  obtain ⟨inner, value, rfl, hbuilt, hrenders, hword⟩ := expression_sound hvalue
  obtain ⟨c, cs, hfront, hc⟩ := hname.front
  have hne : before ≠ [] := by
    rintro rfl
    rw [hfront] at hstops
    rw [stops_cons.mp hstops] at hc
    cases hc
  refine ⟨_, _, rfl, statementKindOf_declaration hbuilt, ?_, hword⟩
  have hbefore := isGap_of_gap hbefore (by simp)
  have hbehind := isGap_of_gap hbehind (by simp)
  have hgap := isGap_of_gap hgap (List.append_ne_nil_of_left_ne_nil hrenders.ne_nil _)
  have hrenders : RendersValue
      (p.afterText ("new".toList ++ before ++ name ++ behind ++ '=' :: gap)) value text := by
    simpa [Position.afterText_append] using hrenders
  have hkind := RendersKind.declaration hname hbefore hne hbehind hgap hrenders
  exact hkind

theorem declaration_complete {name : String} {value : Expression}
    (h : RendersKind p (.declaration name value) text) (hrest : Parted value rest) :
    ∃ inner, Takes Grammar.declaration p [.mk .declaration p text inner] text rest ∧
      statementKindOf (.mk .declaration p text inner) = .ok (.declaration name value) := by
  cases h with
  | @declaration name before behind gap text _ hname hbefore hne hbehind hgap hvalue =>
    have hvalue : RendersValue ((((((p.afterText "new".toList).afterText before).afterText
        name).afterText behind).afterText ['=']).afterText gap) value text := by
      simpa [Position.afterText_append] using hvalue
    obtain ⟨inner, htakes, hbuilt⟩ := expression_complete hvalue hrest
    obtain ⟨c, cs, hfront, hc⟩ := hname.front
    obtain ⟨d, ds, hfront', hd⟩ := hvalue.front
    simp only [Grammar.declaration, takes_rule, spaced_cons, spaced_singleton, takes_token_andThen,
      takes_gap_andThen, takes_symbol_andThen, word_eq_some_iff, declaredName_eq_some_iff,
      and_true]
    refine ⟨_, ⟨_, rfl, _, _, _, rfl, rfl, ⟨rfl, ?_⟩, before, _, rfl, gap_append hbefore ?_, name,
      _, _, rfl, rfl, ⟨hname, ?_⟩, behind, _, rfl, gap_append hbehind ?_, _, rfl, gap, text, rfl,
      gap_append hgap ?_, htakes⟩, statementKindOf_declaration hbuilt⟩
    · rw [List.append_assoc]
      exact (stops_of_gap hbefore hne).imp fun _ => isDashedChar_of_isIdentifierChar
    · rw [hfront]
      exact stopsGap_of_isIdentifierChar hc
    · rw [List.append_assoc]
      exact stops_append hbehind (stops_cons.mpr (by decide))
    · exact stops_cons.mpr (by decide)
    · rw [hfront']
      exact stopsGap_of_startsNoGap hd

/-! ## Returns -/

theorem statementKindOf_returns {q q' : Position} {taken value : List Char} {inner : List Node}
    {expression : Expression} (h : valueOf (.mk .expression q' value inner) = .ok expression) :
    statementKindOf (.mk .returnStatement p text [.mk .returnWord q taken [],
      .mk .expression q' value inner]) = .ok (.returns expression) := by
  change (valueOf (.mk .expression q' value inner) >>= fun value => _) = _
  rw [h]
  rfl

theorem returnStatement_sound (h : Takes Grammar.returnStatement p nodes text rest) :
    ∃ inner kind, nodes = [.mk .returnStatement p text inner] ∧
      statementKindOf (.mk .returnStatement p text inner) = .ok kind ∧ RendersKind p kind text ∧
      (kind.last.endsWithWord = true → Stops isIdentifierChar rest) := by
  simp only [Grammar.returnStatement, takes_rule, spaced_cons, spaced_singleton,
    takes_token_andThen, takes_gap_andThen, word_eq_some_iff, and_true] at h
  obtain ⟨_, rfl, _, _, _, rfl, rfl, ⟨rfl, hstops⟩, gap, text, rfl, hgap, hvalue⟩ := h
  obtain ⟨inner, value, rfl, hbuilt, hrenders, hword⟩ := expression_sound hvalue
  refine ⟨_, _, rfl, statementKindOf_returns hbuilt, ?_, hword⟩
  have hgap := isGap_of_gap hgap (List.append_ne_nil_of_left_ne_nil hrenders.ne_nil _)
  obtain ⟨c, cs, hfront, -⟩ := hrenders.front
  rw [← Position.afterText_append] at hrenders
  have hseparate : Stops isDashedChar (gap ++ text) := by
    rw [hfront] at hstops ⊢
    cases gap with
    | nil => exact stops_cons.mpr (stops_cons.mp hstops)
    | cons d ds => exact stops_cons.mpr (stops_cons.mp hstops)
  have hkind := RendersKind.returns hgap hseparate hrenders
  exact hkind

theorem returnStatement_complete {value : Expression} (h : RendersKind p (.returns value) text)
    (hrest : Parted value rest) :
    ∃ inner, Takes Grammar.returnStatement p [.mk .returnStatement p text inner] text rest ∧
      statementKindOf (.mk .returnStatement p text inner) = .ok (.returns value) := by
  cases h with
  | @returns gap text _ hgap hseparate hvalue =>
    rw [Position.afterText_append] at hvalue
    obtain ⟨inner, htakes, hbuilt⟩ := expression_complete hvalue hrest
    obtain ⟨c, cs, hfront, hc⟩ := hvalue.front
    simp only [Grammar.returnStatement, takes_rule, spaced_cons, spaced_singleton,
      takes_token_andThen, takes_gap_andThen, word_eq_some_iff, and_true]
    refine ⟨_, ⟨_, rfl, _, _, _, rfl, rfl, ⟨rfl, ?_⟩, gap, text, rfl, gap_append hgap ?_, htakes⟩,
      statementKindOf_returns hbuilt⟩
    · rw [hfront] at hseparate ⊢
      cases gap with
      | nil => exact stops_cons.mpr (stops_cons.mp hseparate)
      | cons d ds => exact stops_cons.mpr (stops_cons.mp hseparate)
    · rw [hfront]
      exact stopsGap_of_startsNoGap hc

/-! ## Mappings -/

theorem takes_outputTarget : Takes Grammar.outputTarget p nodes text rest ↔
    ∃ service field, text = service ++ '.' :: field ∧ IsDashedName service ∧ IsPlainName field ∧
      Stops isIdentifierChar rest ∧ nodes = [.mk .outputTarget p text
        [.mk .serviceName p service [], .mk .field (p.afterText (service ++ ['.'])) field []]] := by
  simp only [Grammar.outputTarget, takes_rule, joined_cons, joined_singleton, takes_token_andThen,
    takes_symbol_andThen, takes_token, plainName, dashedName, name_eq_some_iff, and_true]
  constructor
  · rintro ⟨_, rfl, service, _, _, rfl, rfl, ⟨hservice, -⟩, field, rfl, rfl, hfield, hrest⟩
    refine ⟨service, field, rfl, hservice, hfield, hrest, ?_⟩
    rw [Position.afterText_append]
  · rintro ⟨service, field, rfl, hservice, hfield, hrest, rfl⟩
    refine ⟨_, rfl, service, _, _, rfl, rfl, ⟨hservice, stops_cons.mpr (by decide)⟩, field, rfl,
      ?_, hfield, hrest⟩
    rw [Position.afterText_append]

/-- A target, the sign behind it and a value. -/
def mapping : Phrase :=
  spaced [Grammar.outputTarget, symbol ['='], Grammar.expression]

instance : Lawful mapping :=
  inferInstanceAs (Lawful (spaced _))

/-- The word before a mapping, or nothing. -/
def AreWords (nodes : List Node) : Prop :=
  nodes = [] ∨ ∃ q taken, nodes = [.mk .outputWord q taken []]

theorem statementKindOf_output {q q' q₁ q₂ q₃ : Position} {taken target service field value :
    List Char} {words inner : List Node} {expression : Expression} (hwords : AreWords words)
    (h : valueOf (.mk .expression q' value inner) = .ok expression) :
    statementKindOf (.mk .outputStatement q taken (words ++ [.mk .outputTarget q₁ target
      [.mk .serviceName q₂ service [], .mk .field q₃ field []], .mk .expression q' value inner])) =
        .ok (.output (String.ofList service) (String.ofList field) expression) := by
  rcases hwords with rfl | ⟨_, _, rfl⟩
  · change (valueOf (.mk .expression q' value inner) >>= fun value => _) = _
    rw [h]
    rfl
  · change (valueOf (.mk .expression q' value inner) >>= fun value => _) = _
    rw [h]
    rfl

theorem mapping_sound (h : Takes mapping p nodes text rest) :
    ∃ service field behind gap value last, text = service ++ '.' :: (field ++ (behind ++ '=' ::
        (gap ++ last))) ∧ IsDashedName service ∧ IsPlainName field ∧ IsGap behind ∧ IsGap gap ∧
      RendersValue (p.afterText (service ++ '.' :: field ++ behind ++ '=' :: gap)) value last ∧
      (value.endsWithWord = true → Stops isIdentifierChar rest) ∧
      ∀ words q taken, AreWords words →
        statementKindOf (.mk .outputStatement q taken (words ++ nodes)) =
          .ok (.output (String.ofList service) (String.ofList field) value) := by
  simp only [mapping, spaced_cons, spaced_singleton] at h
  obtain ⟨_, _, _, _, rfl, rfl, htarget, hmore⟩ := takes_andThen.mp h
  obtain ⟨behind, _, rfl, hbehind, hsign⟩ := takes_gap_andThen.mp hmore
  obtain ⟨_, rfl, hlast⟩ := takes_symbol_andThen.mp hsign
  obtain ⟨gap, last, rfl, hgap, hvalue⟩ := takes_gap_andThen.mp hlast
  obtain ⟨service, field, rfl, hservice, hfield, -, rfl⟩ := takes_outputTarget.mp htarget
  obtain ⟨inner, value, rfl, hbuilt, hrenders, hword⟩ := expression_sound hvalue
  have hbehind := isGap_of_gap hbehind (by simp)
  have hgap := isGap_of_gap hgap (List.append_ne_nil_of_left_ne_nil hrenders.ne_nil _)
  refine ⟨service, field, behind, gap, value, last, by simp, hservice, hfield, hbehind, hgap, ?_,
    hword, fun words q taken hwords => statementKindOf_output hwords hbuilt⟩
  simpa [Position.afterText_append] using hrenders

theorem mapping_complete {service field behind gap : List Char} {value : Expression}
    (hservice : IsDashedName service) (hfield : IsPlainName field) (hbehind : IsGap behind)
    (hgap : IsGap gap)
    (hvalue : RendersValue (p.afterText (service ++ '.' :: field ++ behind ++ '=' :: gap)) value
      text) (hrest : Parted value rest) :
    ∃ nodes, Takes mapping p nodes (service ++ '.' :: (field ++ (behind ++ '=' ::
        (gap ++ text)))) rest ∧ ∀ words q taken, AreWords words →
      statementKindOf (.mk .outputStatement q taken (words ++ nodes)) =
        .ok (.output (String.ofList service) (String.ofList field) value) := by
  have hvalue : RendersValue ((((p.afterText (service ++ '.' :: field)).afterText
      behind).afterText ['=']).afterText gap) value text := by
    simpa [Position.afterText_append] using hvalue
  obtain ⟨inner, htakes, hbuilt⟩ := expression_complete hvalue hrest
  obtain ⟨c, cs, hfront, hc⟩ := hvalue.front
  have hstops : Stops isDashedChar (behind ++ (['='] ++ (gap ++ text)) ++ rest) := by
    rw [List.append_assoc]
    exact stops_append hbehind (stops_cons.mpr (by decide))
  have htarget := takes_outputTarget (p := p).mpr ⟨service, field, rfl, hservice, hfield,
    hstops.imp fun _ => isDashedChar_of_isIdentifierChar, rfl⟩
  have htext : service ++ '.' :: (field ++ (behind ++ '=' :: (gap ++ text))) =
      service ++ '.' :: field ++ (behind ++ (['='] ++ (gap ++ text))) := by simp
  have hlast : StopsGap (text ++ rest) := by
    rw [hfront]
    exact stopsGap_of_startsNoGap hc
  have hmapping := htarget.andThen (takes_gap_andThen_of_stops hbehind
    (stops_cons.mpr (by decide))
    (takes_symbol_andThen.mpr ⟨_, rfl, takes_gap_andThen_of_stops hgap hlast htakes⟩))
  rw [htext]
  exact ⟨_, hmapping, fun words q taken hwords => statementKindOf_output hwords hbuilt⟩

/-- The word before a mapping does not stand in front of a point, unless the service is named so. -/
theorem outputWord_eq_none {run : List Char} (hrun : ∀ c ∈ run, isDashedChar c = true)
    (hne : run ≠ "output".toList) :
    Token.word "output".toList isDashedChar (run ++ '.' :: rest) = none := by
  cases h : Token.word "output".toList isDashedChar (run ++ '.' :: rest) with
  | none => rfl
  | some token =>
    obtain ⟨htaken, hstops, heq⟩ := word_eq_some_iff.mp h
    rw [htaken] at heq
    obtain ⟨c, cs, -, ⟨-, heq⟩ | ⟨-, hdash⟩⟩ :=
      word_at_run (by decide) hrun (fun _ => isDashedChar_of_isIdentifierChar) hstops heq
    · exact absurd heq hne
    · cases hdash

theorem outputStatement_sound (h : Takes Grammar.outputStatement p nodes text rest)
    (hstart : Token.gap (text ++ rest) = ([], text ++ rest)) :
    ∃ inner kind, nodes = [.mk .outputStatement p text inner] ∧
      statementKindOf (.mk .outputStatement p text inner) = .ok kind ∧ RendersKind p kind text ∧
      (kind.last.endsWithWord = true → Stops isIdentifierChar rest) := by
  obtain ⟨inner, rfl, hbody⟩ := takes_rule.mp h
  obtain ⟨words, taken, nodes, _, rfl, rfl, hoptional, hmore⟩ := takes_andThen.mp hbody
  obtain ⟨first, _, rfl, hfirst, hmapping⟩ := takes_gap_andThen.mp hmore
  obtain ⟨service, field, behind, gap, value, last, rfl, hservice, hfield, hbehind, hgap, hvalue,
    hword, hbuilt⟩ := mapping_sound hmapping
  rcases takes_optional.mp hoptional with hoptional | ⟨rfl, rfl, hrefuses⟩
  · obtain ⟨rfl, hscan⟩ := takes_token.mp hoptional
    obtain ⟨rfl, hstops, -⟩ := word_eq_some_iff.mp hscan
    refine ⟨_, _, rfl, hbuilt _ _ _ (.inr ⟨_, _, rfl⟩), ?_, hword⟩
    have hne : first ≠ [] := by
      rw [List.append_assoc, List.append_assoc] at hstops
      exact ne_nil_of_stops hservice hstops
    have hfirst := isGap_of_gap hfirst (by simp)
    have hvalue : RendersValue (p.afterText ("output".toList ++ first ++ service ++ '.' :: field ++
        behind ++ '=' :: gap)) value last := by
      simpa [Position.afterText_append] using hvalue
    have hkind := RendersKind.output hfirst hne hservice hfield hbehind hgap hvalue
    exact hkind
  · refine ⟨_, _, rfl, hbuilt _ _ _ (.inl rfl), ?_, hword⟩
    rw [List.nil_append, List.append_assoc, hfirst] at hstart
    obtain ⟨rfl, -⟩ := Prod.mk.inj hstart
    have hne : service ≠ "output".toList := by
      rintro rfl
      rw [refuses_token, List.nil_append, List.append_assoc, List.cons_append] at hrefuses
      have hscan : Token.word "output".toList isDashedChar ("output".toList ++ '.' :: (field ++
          (behind ++ '=' :: (gap ++ last)) ++ rest)) = some ("output".toList, _) :=
        word_eq_some_iff.mpr ⟨rfl, stops_cons.mpr (by decide), rfl⟩
      rw [hscan] at hrefuses
      cases hrefuses
    have hkind := RendersKind.mapping hservice hne hfield hbehind hgap hvalue
    exact hkind

theorem outputStatement_complete {service field : String} {value : Expression}
    (h : RendersKind p (.output service field value) text) (hrest : Parted value rest) :
    ∃ inner, Takes Grammar.outputStatement p [.mk .outputStatement p text inner] text rest ∧
      statementKindOf (.mk .outputStatement p text inner) = .ok (.output service field value) := by
  cases h with
  | @output first service field behind gap text _ hfirst hne hservice hfield hbehind hgap hvalue =>
    have hvalue : RendersValue (((p.afterText "output".toList).afterText first).afterText
        (service ++ '.' :: field ++ behind ++ '=' :: gap)) value text := by
      simpa [Position.afterText_append] using hvalue
    obtain ⟨nodes, hmapping, hbuilt⟩ :=
      mapping_complete hservice hfield hbehind hgap hvalue hrest
    have hword : Takes (optional (token .outputWord (Token.word "output".toList isDashedChar))) p
        [.mk .outputWord p "output".toList []] "output".toList
        (first ++ (service ++ '.' :: (field ++ (behind ++ '=' :: (gap ++ text)))) ++ rest) := by
      refine takes_optional.mpr (.inl (takes_token.mpr ⟨rfl, word_eq_some_iff.mpr ⟨rfl, ?_, rfl⟩⟩))
      rw [List.append_assoc]
      exact stops_of_gap hfirst hne
    have hstops : StopsGap (service ++ '.' :: (field ++ (behind ++ '=' :: (gap ++ text))) ++
        rest) := by
      rw [List.append_assoc]
      exact hservice.stopsGap
    have hbody := hword.andThen (takes_gap_andThen_of_stops hfirst hstops hmapping)
    exact ⟨_, takes_rule.mpr ⟨_, rfl, hbody⟩, hbuilt _ _ _ (.inr ⟨_, _, rfl⟩)⟩
  | @mapping service field behind gap text _ hservice hne hfield hbehind hgap hvalue =>
    obtain ⟨nodes, hmapping, hbuilt⟩ :=
      mapping_complete hservice hfield hbehind hgap hvalue hrest
    have hword : Takes (optional (token .outputWord (Token.word "output".toList isDashedChar))) p
        [] [] (service ++ '.' :: (field ++ (behind ++ '=' :: (gap ++ text))) ++ rest) := by
      refine takes_optional.mpr (.inr ⟨rfl, rfl, refuses_token.mpr ?_⟩)
      rw [List.append_assoc]
      exact outputWord_eq_none hservice.all hne
    have hstops : StopsGap (service ++ '.' :: (field ++ (behind ++ '=' :: (gap ++ text))) ++
        rest) := by
      rw [List.append_assoc]
      exact hservice.stopsGap
    have hgapped : Takes (Phrase.gap.andThen mapping) p nodes
        ([] ++ (service ++ '.' :: (field ++ (behind ++ '=' :: (gap ++ text))))) rest :=
      takes_gap_andThen_of_stops .nil hstops hmapping
    exact ⟨_, takes_rule.mpr ⟨_, rfl, hword.andThen hgapped⟩, hbuilt _ _ _ (.inl rfl)⟩

/-! ## Calls -/

theorem callStatement_sound (h : Takes Grammar.callStatement p nodes text rest) :
    ∃ inner kind, nodes = [.mk .callStatement p text inner] ∧
      statementKindOf (.mk .callStatement p text inner) = .ok kind ∧ RendersKind p kind text ∧
      (kind.last.endsWithWord = true → Stops isIdentifierChar rest) := by
  obtain ⟨_, rfl, hcall⟩ := takes_rule.mp h
  obtain ⟨inner, callee, arguments, rfl, hbuilt, hrenders⟩ := call_sound _ _ _ _ hcall
  refine ⟨_, .call callee arguments, rfl, ?_, .call hrenders, fun h => by cases h⟩
  change (callOf inner >>= fun call => _) = _
  rw [hbuilt]
  rfl

theorem callStatement_complete {callee : Callee} {arguments : List Expression}
    (h : RendersKind p (.call callee arguments) text) :
    ∃ inner, Takes Grammar.callStatement p [.mk .callStatement p text inner] text rest ∧
      statementKindOf (.mk .callStatement p text inner) = .ok (.call callee arguments) := by
  cases h with
  | call hcall =>
    obtain ⟨inner, htakes, hbuilt⟩ := (call_complete _).takes (Nat.le_refl _) hcall
    refine ⟨_, takes_rule.mpr ⟨_, rfl, htakes⟩, ?_⟩
    change (callOf inner >>= fun call => _) = _
    rw [hbuilt]
    rfl

/-! ## Telling them apart -/

theorem expression_refuses_point (q : Position) (cs : List Char) :
    Refuses Grammar.expression q ('.' :: cs) := by
  refine refuses_rule.mpr (refuses_orElse.mpr ⟨?_, ?_⟩)
  · exact gqlBlock_refuses_of_word (word_eq_none (by decide))
  · have hcall : Refuses Grammar.call q ('.' :: cs) :=
      (call_complete 0).refuses (callee_refuses_of_head rfl)
    exact operand_refuses_of_head hcall rfl rfl

theorem declaration_refuses_point {run : List Char} (hrun : ∀ c ∈ run, isDashedChar c = true) :
    Refuses Grammar.declaration p (run ++ '.' :: rest) := by
  refine refuses_rule.mpr (word_refuses (by decide) hrun (fun _ h => h) ?_ ?_)
  · exact fun _ _ _ => refuses_andThen_of_first (refuses_token.mpr rfl)
  · exact fun _ _ _ => refuses_andThen_of_first (refuses_token.mpr rfl)

theorem returnStatement_refuses_point {run : List Char}
    (hrun : ∀ c ∈ run, isDashedChar c = true) :
    Refuses Grammar.returnStatement p (run ++ '.' :: rest) := by
  refine refuses_rule.mpr (word_refuses (by decide) hrun
    (fun _ => isDashedChar_of_isIdentifierChar) ?_ ?_)
  · exact fun _ q cs => expression_refuses_point q cs
  · intro h
    cases h

/-- What would be the target of a mapping has a slash behind it. -/
theorem callee_ne_mapping {plugin extension function service field behind more : List Char}
    (hplugin : IsDashedName plugin) (hextension : IsPlainName extension)
    (hfunction : IsPlainName function) (hservice : IsDashedName service)
    (hfield : IsPlainName field) (hbehind : IsGap behind) :
    plugin ++ '.' :: (extension ++ '/' :: (function ++ rest)) ≠
      service ++ '.' :: (field ++ (behind ++ '=' :: more)) := by
  intro heq
  obtain ⟨rfl, hpoint⟩ := run_unique hplugin.all (stops_cons.mpr (by decide)) hservice.all
    (stops_cons.mpr (by decide)) heq
  have hsign : Stops isDashedChar (behind ++ '=' :: more) :=
    stops_append hbehind (stops_cons.mpr (by decide))
  obtain ⟨rfl, hslash⟩ := run_unique hextension.all (stops_cons.mpr (by decide)) hfield.all
    (hsign.imp fun _ => isDashedChar_of_isIdentifierChar) (List.cons.inj hpoint).2
  obtain ⟨d, ds, rfl, hd, -⟩ := hfunction
  rcases hbehind.front with rfl | ⟨e, es, rfl, hspace⟩ | ⟨e, es, rfl, hcomment⟩
  · cases hslash
  · obtain ⟨rfl, -⟩ := List.cons.inj hslash
    cases hspace
  · obtain ⟨rfl, -⟩ := List.cons.inj (List.cons.inj hslash).2
    rcases hcomment with rfl | rfl <;> cases hd

/-- Where a call stands, there is no mapping. -/
theorem outputStatement_refuses_call {callee : Callee} (h : RendersCallee callee text) :
    Refuses Grammar.outputStatement p (text ++ rest) := by
  obtain @⟨plugin, extension, function, hplugin, hextension, hfunction⟩ := h
  refine refuses_rule.mpr (refuses_of_not_takes fun nodes text rest' heq htakes => ?_)
  obtain ⟨_, taken, _, _, -, rfl, hoptional, hmore⟩ := takes_andThen.mp htakes
  obtain ⟨first, _, rfl, hfirst, hmapping⟩ := takes_gap_andThen.mp hmore
  obtain ⟨service, field, behind, gap, value, last, rfl, hservice, hfield, hbehind, -⟩ :=
    mapping_sound hmapping
  have hfirst := isGap_of_gap hfirst (by simp)
  simp only [List.append_assoc, List.cons_append] at heq
  rcases takes_optional.mp hoptional with hoptional | ⟨-, rfl, -⟩
  · obtain ⟨-, hscan⟩ := takes_token.mp hoptional
    obtain ⟨rfl, hstops, -⟩ := word_eq_some_iff.mp hscan
    simp only [List.append_assoc, List.cons_append] at hstops
    obtain ⟨c, cs, hcs, ⟨rfl, -⟩ | ⟨-, hdash⟩⟩ := word_at_run (by decide) hplugin.all
      (fun _ => isDashedChar_of_isIdentifierChar) hstops heq
    · cases hfirst.eq_nil hcs (by decide)
      exact ne_nil_of_stops hservice hstops rfl
    · cases hdash
  · obtain ⟨c, cs, hfront, hc⟩ : ∃ c cs, plugin = c :: cs ∧ startsNoGap c = true := by
      obtain ⟨c, cs, rfl, hc, -⟩ := hplugin
      exact ⟨c, cs, rfl, startsNoGap_of_isAlpha hc⟩
    rw [hfront] at heq
    cases hfirst.eq_nil heq.symm hc
    rw [← List.cons_append, ← hfront] at heq
    exact callee_ne_mapping hplugin hextension hfunction hservice hfield hbehind heq

/-! ## All forms -/

/-- What a statement does, in any of the four forms. -/
def body : Phrase :=
  firstOf [Grammar.declaration, Grammar.returnStatement, Grammar.outputStatement,
    Grammar.callStatement]

instance : Lawful body :=
  inferInstanceAs (Lawful (firstOf _))

theorem body_sound (h : Takes body p nodes text rest)
    (hstart : Token.gap (text ++ rest) = ([], text ++ rest)) :
    ∃ r inner kind, nodes = [.mk r p text inner] ∧
      statementKindOf (.mk r p text inner) = .ok kind ∧ RendersKind p kind text ∧
      (kind.last.endsWithWord = true → Stops isIdentifierChar rest) := by
  rcases takes_orElse.mp h with h | ⟨-, h⟩
  · exact ⟨_, declaration_sound h⟩
  rcases takes_orElse.mp h with h | ⟨-, h⟩
  · exact ⟨_, returnStatement_sound h⟩
  rcases takes_orElse.mp h with h | ⟨-, h⟩
  · exact ⟨_, outputStatement_sound h hstart⟩
  · exact ⟨_, callStatement_sound h⟩

/-- What stands in front of a statement: the word of a declaration or a return, the word of a
mapping, or a dashed name and a point. -/
theorem RendersKind.word_or_run {kind : StatementKind} (h : RendersKind p kind text) :
    (∃ name value cs, kind = .declaration name value ∧ text = 'n' :: cs) ∨
      (∃ value cs, kind = .returns value ∧ text = 'r' :: cs) ∨ (∃ cs, text = 'o' :: cs) ∨
        ∃ run cs, text = run ++ '.' :: cs ∧ ∀ c ∈ run, isDashedChar c = true := by
  cases h with
  | declaration _ _ _ _ _ _ => exact .inl ⟨_, _, _, rfl, rfl⟩
  | returns _ _ _ => exact .inr (.inl ⟨_, _, rfl, rfl⟩)
  | output _ _ _ _ _ _ _ => exact .inr (.inr (.inl ⟨_, rfl⟩))
  | mapping hservice _ _ _ _ _ => exact .inr (.inr (.inr ⟨_, _, rfl, hservice.all⟩))
  | call hcall =>
    cases hcall with
    | call hcallee _ _ =>
      obtain ⟨hplugin, -, -⟩ := hcallee
      exact .inr (.inr (.inr ⟨_, _, List.append_assoc .., hplugin.all⟩))

theorem declaration_refuses {kind : StatementKind} (h : RendersKind p kind text)
    (hkind : ∀ name value, kind ≠ .declaration name value) :
    Refuses Grammar.declaration p (text ++ rest) := by
  have hword : ∀ {c cs}, c ≠ 'n' → Refuses Grammar.declaration p (c :: cs) := fun hc =>
    refuses_rule.mpr (refuses_andThen_of_first (refuses_token.mpr (word_eq_none hc)))
  rcases h.word_or_run with ⟨_, _, cs, rfl, -⟩ | ⟨_, cs, -, rfl⟩ | ⟨cs, rfl⟩ | ⟨run, cs, rfl, hrun⟩
  · exact absurd rfl (hkind _ _)
  · exact hword (by decide)
  · exact hword (by decide)
  · rw [List.append_assoc]
    exact declaration_refuses_point hrun

theorem returnStatement_refuses {kind : StatementKind} (h : RendersKind p kind text)
    (hkind : ∀ value, kind ≠ .returns value) :
    Refuses Grammar.returnStatement p (text ++ rest) := by
  have hword : ∀ {c cs}, c ≠ 'r' → Refuses Grammar.returnStatement p (c :: cs) := fun hc =>
    refuses_rule.mpr (refuses_andThen_of_first (refuses_token.mpr (word_eq_none hc)))
  rcases h.word_or_run with ⟨_, _, cs, -, rfl⟩ | ⟨_, cs, rfl, -⟩ | ⟨cs, rfl⟩ | ⟨run, cs, rfl, hrun⟩
  · exact hword (by decide)
  · exact absurd rfl (hkind _)
  · exact hword (by decide)
  · rw [List.append_assoc]
    exact returnStatement_refuses_point hrun

theorem body_complete {kind : StatementKind} (h : RendersKind p kind text)
    (hrest : Parted kind.last rest) :
    ∃ r inner, Takes body p [.mk r p text inner] text rest ∧
      statementKindOf (.mk r p text inner) = .ok kind := by
  cases kind with
  | declaration name value =>
    obtain ⟨inner, htakes, hbuilt⟩ := declaration_complete h hrest
    exact ⟨_, inner, takes_orElse.mpr (.inl htakes), hbuilt⟩
  | returns value =>
    obtain ⟨inner, htakes, hbuilt⟩ := returnStatement_complete h hrest
    refine ⟨_, inner, takes_orElse.mpr (.inr ⟨declaration_refuses h (by simp), ?_⟩), hbuilt⟩
    exact takes_orElse.mpr (.inl htakes)
  | output service field value =>
    obtain ⟨inner, htakes, hbuilt⟩ := outputStatement_complete h hrest
    refine ⟨_, inner, takes_orElse.mpr (.inr ⟨declaration_refuses h (by simp), ?_⟩), hbuilt⟩
    refine takes_orElse.mpr (.inr ⟨returnStatement_refuses h (by simp), ?_⟩)
    exact takes_orElse.mpr (.inl htakes)
  | call callee arguments =>
    obtain ⟨inner, htakes, hbuilt⟩ : ∃ inner, Takes Grammar.callStatement p _ text rest ∧ _ :=
      callStatement_complete h
    have hcallee : Refuses Grammar.outputStatement p (text ++ rest) := by
      cases h with
      | call hcall =>
        cases hcall with
        | call hcallee _ _ =>
          rw [List.append_assoc]
          exact outputStatement_refuses_call hcallee
    refine ⟨_, inner, takes_orElse.mpr (.inr ⟨declaration_refuses h (by simp), ?_⟩), hbuilt⟩
    refine takes_orElse.mpr (.inr ⟨returnStatement_refuses h (by simp), ?_⟩)
    exact takes_orElse.mpr (.inr ⟨hcallee, htakes⟩)

end ScriptForge.Script

import ScriptForge.Proofs.Script.Attempts
import ScriptForge.Proofs.Script.Expressions

/-!
# How far attempts go in a value

A phrase is `Confined` if it attempts nothing in vain beyond a sign that is not part of any path.
Callees, references and the targets of mappings are: they consist of path characters. Strings and
bodies may hold any characters, so a value is `MatchConfined` only (`expression_matchConfined`):
where one is read in front of a gap and such a sign, nothing is attempted beyond the gap.

Calls are nested, so the bound for them (`callTo_within`) is by induction on the depth.
-/

namespace ScriptForge.Script

open Token Phrase Text

variable {p q : Position} {nodes : List Node} {text gap rest cs : List Char} {c : Char}

/-! ## Paths -/

/-- The characters of names, and the signs that stand between the names of a path. -/
def isPathChar (c : Char) : Bool :=
  isDashedChar c || c == '.' || c == '/'

theorem isPathChar_of_isDashedChar (h : isDashedChar c = true) : isPathChar c = true := by
  simp [isPathChar, h]

theorem isPathChar_of_isIdentifierChar (h : isIdentifierChar c = true) : isPathChar c = true :=
  isPathChar_of_isDashedChar (isDashedChar_of_isIdentifierChar h)

/-- A value and a gap behind it are set apart from a sign that is not part of any path. -/
theorem parted_of_not_isPathChar (hgap : IsGap gap) (hc : isPathChar c = false)
    (value : Expression) : Parted value (gap ++ c :: rest) := by
  simp only [isPathChar, Bool.or_eq_false_iff, beq_eq_false_iff_ne] at hc
  exact parted_append hgap hc.1.1 hc.1.2 hc.2 value

theorem scans_dashedName {r : Rule} : Scans isPathChar (token r dashedName) := by
  refine scans_token fun cs text rest h c hc => ?_
  exact isPathChar_of_isDashedChar (IsDashedName.all (name_eq_some_iff.mp h).1 c hc)

theorem scans_plainName {r : Rule} : Scans isPathChar (token r plainName) := by
  refine scans_token fun cs text rest h c hc => ?_
  exact isPathChar_of_isIdentifierChar (IsPlainName.all (name_eq_some_iff.mp h).1 c hc)

theorem scans_identifier {r : Rule} : Scans isPathChar (token r identifier) := by
  refine scans_token fun cs text rest h c hc => ?_
  exact isPathChar_of_isIdentifierChar (IsPlainName.all (identifier_eq_some_iff.mp h).1.1 c hc)

theorem scans_point : Scans isPathChar (symbol ['.']) :=
  scans_symbol (List.forall_mem_singleton.mpr (by decide))

theorem scans_slash : Scans isPathChar (symbol ['/']) :=
  scans_symbol (List.forall_mem_singleton.mpr (by decide))

theorem scans_callee : Scans isPathChar Grammar.callee :=
  (scans_dashedName.andThen (scans_point.andThen (scans_plainName.andThen
    (scans_slash.andThen scans_plainName)))).rule

theorem scans_outputTarget : Scans isPathChar Grammar.outputTarget :=
  (scans_dashedName.andThen (scans_point.andThen scans_plainName)).rule

theorem scans_selections (limit : Nat) : Scans isPathChar (Grammar.selections limit) := by
  induction limit with
  | zero => exact scans_nothing
  | succ limit ih =>
    have hselection : Scans isPathChar Grammar.selection := scans_point.andThen scans_plainName
    exact (hselection.andThen ih).optional

theorem scans_reference : Scans isPathChar Grammar.reference := by
  have hselections : Scans isPathChar fun cursor =>
      Grammar.selections cursor.rest.length cursor :=
    ⟨fun htakes => (scans_selections _).all htakes, fun p cs => (scans_selections _).within p cs⟩
  exact (scans_identifier.andThen hselections).rule

theorem callee_within_of_head (h : c.isAlpha = false) : Within Grammar.callee p (c :: cs) p :=
  (within_token_andThen_of_none (by simp [dashedName, name, h])).rule le_rfl

theorem reference_within_of_head (h : c.isAlpha = false) :
    Within Grammar.reference p (c :: cs) p :=
  (within_token_andThen_of_none (by simp [identifier, plainName, name, h])).rule le_rfl

/-- The tokens of a literal are all tried at its front. -/
theorem literal_within : Within Grammar.literal p cs p :=
  ((within_token le_rfl).orElse ((within_token le_rfl).orElse (within_token le_rfl))).rule le_rfl

/-! ## Confined phrases -/

/-- The phrase attempts nothing in vain beyond a sign that is not part of any path. -/
structure Confined (phrase : Phrase) : Prop where
  within : ∀ {p text c rest}, isPathChar c = false →
    Within phrase p (text ++ c :: rest) (p.afterText text)

/-- Where the phrase matches in front of a gap and a sign that is not part of any path, it attempts
nothing in vain beyond the gap. -/
structure MatchConfined (phrase : Phrase) : Prop where
  within : ∀ {p nodes text gap c rest}, IsGap gap → isPathChar c = false →
    Takes phrase p nodes text (gap ++ c :: rest) →
    Within phrase p (text ++ (gap ++ c :: rest)) (p.afterText (text ++ gap))

section

variable {first second phrase : Phrase}

theorem Phrase.Scans.confined (h : Scans isPathChar phrase) : Confined phrase :=
  ⟨fun hc => h.within_of_stop hc _ _⟩

theorem confined_token {r : Rule} {scan : Scanner} : Confined (token r scan) :=
  ⟨fun _ => within_token (Position.le_afterText _ _)⟩

theorem confined_symbol {text : List Char} : Confined (symbol text) :=
  ⟨fun _ => within_symbol⟩

theorem confined_gap : Confined Phrase.gap :=
  ⟨fun _ => within_gap⟩

theorem Confined.optional (h : Confined phrase) : Confined (optional phrase) :=
  ⟨fun hc => (h.within hc).optional⟩

theorem Confined.matchConfined (h : Confined phrase) : MatchConfined phrase := by
  refine ⟨fun _ hc _ => ?_⟩
  rw [← List.append_assoc]
  exact h.within hc

theorem MatchConfined.rule {r : Rule} (h : MatchConfined phrase) :
    MatchConfined (rule r phrase) := by
  refine ⟨fun hgap hc htakes => ?_⟩
  obtain ⟨_, -, hinner⟩ := takes_rule.mp htakes
  exact (h.within hgap hc hinner).rule (Position.le_afterText _ _)

theorem Confined.andThen [Lawful first] [Lawful second] (hfirst : Confined first)
    (hsecond : MatchConfined second) : MatchConfined (first.andThen second) := by
  refine ⟨fun {p nodes text gap c rest} hgap hc htakes => ?_⟩
  have hwithin : Within first p (text ++ (gap ++ c :: rest)) (p.afterText (text ++ gap)) := by
    rw [← List.append_assoc]
    exact hfirst.within hc
  obtain ⟨_, text₁, _, text₂, -, rfl, htakes₁, htakes₂⟩ := takes_andThen.mp htakes
  rw [List.append_assoc] at hwithin ⊢
  refine hwithin.andThen_of_takes htakes₁ ?_
  rw [List.append_assoc, Position.afterText_append]
  exact hsecond.within hgap hc htakes₂

end

/-! ## Operands -/

/-- Where the phrase takes a call, it is confined. Where no callee stands, it does not match and
goes no further than the callee does. -/
structure CallWithin (call : Phrase) : Prop where
  matchConfined : MatchConfined call
  refuses : ∀ {p cs}, Refuses Grammar.callee p cs → Refuses call p cs
  within_of_refuses : ∀ {p q cs}, Refuses Grammar.callee p cs → Within Grammar.callee p cs q →
    p ≤ q → Within call p cs q

variable {call : Phrase}

theorem operand_within_of_head (hcall : CallWithin call) (h : c.isAlpha = false) :
    Within (operand call) p (c :: cs) p := by
  have hcall : Within call p (c :: cs) p :=
    hcall.within_of_refuses (callee_refuses_of_head h) (callee_within_of_head h) le_rfl
  exact hcall.orElse (literal_within.orElse (reference_within_of_head h))

theorem operand_matchConfined (hcall : CallWithin call) : MatchConfined (operand call) := by
  refine ⟨fun {p nodes text gap c rest} hgap hc h => ?_⟩
  have hparted : ∀ value, Parted value (gap ++ c :: rest) := parted_of_not_isPathChar hgap hc
  have hle := p.le_afterText (text ++ gap)
  rcases takes_orElse.mp h with hcalls | ⟨-, h⟩
  · exact (hcall.matchConfined.within hgap hc hcalls).orElse_of_takes hcalls
  · have hrefuses : Refuses Grammar.callee p (text ++ (gap ++ c :: rest)) := by
      rcases takes_orElse.mp h with h | ⟨-, h⟩
      · obtain ⟨_, _, -, -, hrenders, -⟩ := literal_sound h
        exact callee_refuses_of_literal hrenders (hparted _)
      · obtain ⟨_, _, -, -, hrenders, -⟩ := reference_sound h
        exact callee_refuses_of_reference hrenders (hparted _)
    rw [← List.append_assoc] at hrefuses ⊢
    have hcall := hcall.within_of_refuses hrefuses (scans_callee.confined.within hc) hle
    exact hcall.orElse ((literal_within.mono hle).orElse (scans_reference.confined.within hc))

/-! ## Arguments -/

theorem argument_matchConfined (hcall : CallWithin call) :
    MatchConfined (Grammar.argument call) :=
  (operand_matchConfined hcall).rule

/-- Behind an argument, and a gap, stands a comma or the parenthesis that closes the call. -/
theorem Phrase.Repeats.front_of_argument [Lawful call]
    (h : Repeats (nextArgument call) p nodes text (')' :: rest)) : ∃ gap c more, IsGap gap ∧
      gap <+: text ∧ isPathChar c = false ∧ text ++ ')' :: rest = gap ++ c :: more := by
  cases h with
  | stop hgap _ =>
    exact ⟨text, ')', rest, isGap_of_gap hgap (by simp), List.prefix_rfl, by decide, rfl⟩
  | @step _ nodes₁ nodes₂ gap text₁ text₂ _ hgap hitem _ =>
    obtain ⟨_, behind, rfl, -, -⟩ := takes_nextArgument.mp hitem
    exact ⟨gap, ',', _, isGap_of_gap hgap (by simp), List.prefix_append _ _, by decide,
      List.append_assoc ..⟩

theorem Phrase.Repeats.within_arguments [Lawful call] (hcall : CallWithin call)
    {close : List Char} (h : Repeats (nextArgument call) p nodes text close)
    (hclose : close = ')' :: rest) (hq : p.afterText text ≤ q) :
    RepeatsTo (nextArgument call) q close p text := by
  induction h with
  | stop hgap hrefuses =>
    subst hclose
    exact .stop hgap hrefuses (within_symbol.andThen_of_refuses rfl)
  | @step p nodes₁ nodes₂ gap text₁ text₂ close hgap hitem hmore ih =>
    subst hclose
    obtain ⟨left, argument, rfl, hleft, hargument⟩ := takes_nextArgument.mp hitem
    obtain ⟨right, c, more, hright, hprefix, hc, hfront⟩ := hmore.front_of_argument
    have hbound : (((p.afterText gap).afterText (',' :: left)).afterText (argument ++ right)) ≤
        q := by
      obtain ⟨others, rfl⟩ := hprefix
      refine le_trans ?_ hq
      simp only [← Position.afterText_append]
      exact Position.afterText_le_of_prefix ⟨others, by simp⟩
    refine .step hgap hitem ?_ (ih rfl (by simpa [Position.afterText_append] using hq))
    rw [hfront] at hargument hleft ⊢
    refine within_symbol_andThen fun behind hbehind => ?_
    obtain rfl : behind = left ++ (argument ++ (right ++ c :: more)) := by
      simpa using hbehind.symm
    refine Within.gap_andThen hleft ?_
    exact ((argument_matchConfined hcall).within hright hc hargument).mono hbound

/-! ## Calls -/

theorem arguments_within [Lawful call] (hcall : CallWithin call) {tail : List Char}
    (h : Takes (Grammar.arguments call) p nodes text (tail ++ ')' :: rest))
    (hstart : Token.gap (text ++ (tail ++ ')' :: rest)) = ([], text ++ (tail ++ ')' :: rest)))
    (htail : Token.gap (tail ++ ')' :: rest) = (tail, ')' :: rest)) :
    Within (Grammar.arguments call) p (text ++ (tail ++ ')' :: rest))
      (p.afterText (text ++ tail)) := by
  rcases takes_optional.mp h with hsome | ⟨-, rfl, hnone⟩
  · refine Within.orElse_of_takes ?_ hsome
    obtain ⟨_, first, _, others, -, rfl, hargument, hmore⟩ := takes_andThen.mp hsome
    have hrepeats := Repeats.of_repeated consumes_nextArgument hmore htail
    obtain ⟨gap, c, more, hgap, hprefix, hc, hfront⟩ := hrepeats.front_of_argument
    have hrepeated := (hrepeats.within_arguments hcall rfl le_rfl).within_repeated
    rw [← Position.afterText_append] at hrepeated
    rw [List.append_assoc, List.append_assoc]
    refine Within.andThen_of_takes ?_ hargument (by rwa [List.append_assoc] at hrepeated)
    rw [← List.append_assoc others, hfront] at hargument ⊢
    refine ((argument_matchConfined hcall).within hgap hc hargument).mono ?_
    exact Position.afterText_le_of_prefix ((List.prefix_append_right_inj first).mpr hprefix)
  · rw [List.nil_append, htail] at hstart
    obtain ⟨rfl, -⟩ := Prod.mk.inj hstart
    have hargument : Within (Grammar.argument call) p (')' :: rest) p :=
      (operand_within_of_head hcall (by decide)).rule le_rfl
    have hrefuses : Refuses (operand call) p (')' :: rest) := operand_refuses_of_head
      (hcall.refuses (callee_refuses_of_head (by decide))) rfl (by decide)
    exact (hargument.andThen_of_refuses (refuses_rule.mpr hrefuses)).optional

/-- What stands between the parentheses of a call, with the one that closes it. -/
theorem closing_matchConfined [Lawful call] (hcall : CallWithin call) :
    MatchConfined (Phrase.gap.andThen
      ((Grammar.arguments call).andThen (Phrase.gap.andThen (symbol [')'])))) := by
  refine ⟨fun {p nodes text behind c rest} _ _ htakes => ?_⟩
  obtain ⟨before, _, rfl, hbefore, hinner⟩ := takes_gap_andThen.mp htakes
  obtain ⟨_, taken, _, _, -, rfl, harguments, hclose⟩ := takes_andThen.mp hinner
  obtain ⟨tail, _, rfl, htail, hclose⟩ := takes_gap_andThen.mp hclose
  obtain ⟨-, rfl⟩ := takes_symbol.mp hclose
  simp only [List.append_assoc, List.cons_append, List.nil_append] at *
  have hwithin := arguments_within hcall harguments (gap_behind hbefore) htail
  refine Within.gap_andThen hbefore ((hwithin.mono ?_).andThen_of_takes harguments ?_)
  · rw [← Position.afterText_append]
    exact Position.afterText_le_of_prefix ⟨')' :: behind, by simp⟩
  · exact Within.gap_andThen htail within_symbol

theorem callTo_within (depth : Nat) : CallWithin (Grammar.callTo depth) := by
  induction depth with
  | zero =>
    refine ⟨⟨fun _ _ h => ?_⟩, callTo_refuses 0, fun _ _ hle => Within.rule (le_max_left _ _) hle⟩
    obtain ⟨_, -, h⟩ := takes_rule.mp h
    cases h
  | succ depth ih =>
    refine ⟨?_, callTo_refuses (depth + 1),
      fun hrefuses hwithin hle => (hwithin.andThen_of_refuses hrefuses).rule hle⟩
    exact (scans_callee.confined.andThen (confined_gap.andThen
      (confined_symbol.andThen (closing_matchConfined ih)))).rule

theorem within_call : Within Grammar.call p cs q ↔
    Within (Grammar.callTo (cs.length + 1)) p cs q := by
  simp only [Within, reach, Grammar.call, nested]

theorem call_within : CallWithin Grammar.call where
  matchConfined := ⟨fun hgap hc h =>
    within_call.mpr ((callTo_within _).matchConfined.within hgap hc (takes_call.mp h))⟩
  refuses := (call_complete 0).refuses
  within_of_refuses hrefuses hwithin hle :=
    within_call.mpr ((callTo_within _).within_of_refuses hrefuses hwithin hle)

/-! ## Words that plugins are named like -/

/-- A phrase that starts with a word goes no further than a dashed name in front of a point, if what
follows the word does not go beyond a point or a dash. -/
theorem word_within {r : Rule} {word run : List Char} {more : Char → Bool} {second : Phrase}
    {phrases : List Phrase} (hword : word.all isIdentifierChar = true)
    (hrun : ∀ c ∈ run, isDashedChar c = true)
    (hmore : ∀ c, isIdentifierChar c = true → more c = true)
    (hsecond : ∀ q c cs, c = '.' ∨ c = '-' →
      Within (spaced (second :: phrases)) q (c :: cs) q) :
    Within (spaced (token r (Token.word word more) :: second :: phrases)) p (run ++ '.' :: rest)
      (p.afterText run) := by
  refine within_token_andThen (p.le_afterText run) fun text behind hscan => ?_
  obtain ⟨rfl, hstops, heq⟩ := word_eq_some_iff.mp hscan
  obtain ⟨c, cs, rfl, hc⟩ := word_at_run hword hrun hmore hstops heq
  have hnone : Token.gap (c :: cs) = ([], c :: cs) := by
    refine gapIn_of_stops (stops_cons.mpr ?_)
    rcases hc with ⟨rfl, -⟩ | ⟨rfl, -⟩ <;> decide
  have hprefix : text <+: run := by
    rcases List.append_eq_append_iff.mp heq with ⟨left, rfl, hleft⟩ | ⟨left, rfl, -⟩
    · cases left with
      | nil => simp
      | cons d left =>
        obtain ⟨rfl, -⟩ := List.cons.inj hleft
        cases List.all_eq_true.mp hword '.' (by simp)
    · exact List.prefix_append text left
  refine Within.gap_andThen hnone ?_
  exact (hsecond _ c cs (hc.imp And.left And.left)).mono (Position.afterText_le_of_prefix hprefix)

/-! ## Values -/

theorem gqlBlock_within_of_word (h : Token.word "gql".toList isIdentifierChar cs = none) :
    Within Grammar.gqlBlock p cs p :=
  (within_token_andThen_of_none h).rule le_rfl

theorem gqlBlock_matchConfined : MatchConfined Grammar.gqlBlock :=
  (confined_token.andThen (confined_gap.andThen (confined_token.andThen
    (confined_gap.andThen confined_token.matchConfined)))).rule

/-- Where an operand stands, an embedded block is not attempted beyond it. -/
theorem gqlBlock_within {value : Expression} (h : RendersOperand p value text)
    (hrest : Parted value rest) :
    Within Grammar.gqlBlock p (text ++ rest) (p.afterText text) := by
  rcases gqlWord_eq_none_or_run h hrest with hnone | ⟨run, more, rfl, hrun⟩
  · exact (gqlBlock_within_of_word hnone).mono (p.le_afterText text)
  · rw [List.append_assoc]
    have hword : Within Grammar.gqlBlock p (run ++ '.' :: (more ++ rest)) (p.afterText run) := by
      refine (word_within (by decide) hrun (fun _ h => h) fun q c cs hc => ?_).rule
        (p.le_afterText run)
      refine within_token_andThen_of_none ?_
      rcases hc with rfl | rfl <;> rfl
    exact hword.mono (Position.afterText_le_of_prefix (List.prefix_append _ _))

theorem expression_within_of_head (h : c.isAlpha = false)
    (hword : Token.word "gql".toList isIdentifierChar (c :: cs) = none) :
    Within Grammar.expression p (c :: cs) p :=
  ((gqlBlock_within_of_word hword).orElse (operand_within_of_head call_within h)).rule le_rfl

theorem expression_matchConfined : MatchConfined Grammar.expression := by
  refine MatchConfined.rule ⟨fun {p nodes text gap c rest} hgap hc h => ?_⟩
  rcases takes_orElse.mp h with hblock | ⟨-, hoperand⟩
  · exact (gqlBlock_matchConfined.within hgap hc hblock).orElse_of_takes hblock
  · obtain ⟨_, value, -, -, hrenders, -⟩ := operand_sound call_sound hoperand
    have hparted : Parted value (gap ++ c :: rest) := parted_of_not_isPathChar hgap hc value
    have hblock := (gqlBlock_within hrenders hparted).mono
      (Position.afterText_le_of_prefix (List.prefix_append text gap))
    exact hblock.orElse ((operand_matchConfined call_within).within hgap hc hoperand)

end ScriptForge.Script

import ScriptForge.Proofs.Script.Values

/-!
# Reading calls and values

A call contains operands and an operand may be a call. Calls are looked for up to a depth, so
soundness (`callTo_sound`) is by induction on the depth, and so is completeness
(`callTo_complete`), for calls that are no longer than the depth allows.

Of the forms that an operand may have, the first that matches is taken. `operand_complete` shows
that for a text that is written as one form, the forms tried before it do not match.
-/

namespace ScriptForge.Script

open Token Phrase Text

variable {p : Position} {nodes : List Node} {text rest : List Char}

/-! ## Operands -/

/-- A call, a literal or a reference, given what counts as a call. -/
def operand (call : Phrase) : Phrase :=
  firstOf [call, Grammar.literal, Grammar.reference]

/-- What the phrase takes is written as a call, and the call is built from the node it leaves. -/
def CallSound (call : Phrase) : Prop :=
  ∀ p nodes text rest, Takes call p nodes text rest → ∃ inner callee arguments,
    nodes = [.mk .call p text inner] ∧ callOf inner = .ok (callee, arguments) ∧
      RendersOperand p (.call callee arguments) text

/-- The phrase takes every text up to a length that is written as a call, and does not match where
no callee stands. -/
structure CallComplete (limit : Nat) (call : Phrase) : Prop where
  takes : ∀ {p callee arguments text rest}, text.length ≤ limit →
    RendersOperand p (.call callee arguments) text → ∃ inner,
      Takes call p [.mk .call p text inner] text rest ∧ callOf inner = .ok (callee, arguments)
  refuses : ∀ {p cs}, Refuses Grammar.callee p cs → Refuses call p cs

variable {call : Phrase}

instance [Lawful call] : Lawful (operand call) :=
  inferInstanceAs (Lawful (firstOf _))

instance [Lawful call] : Lawful (Grammar.argument call) :=
  inferInstanceAs (Lawful (rule .argument (operand call)))

theorem operandOf_call {callee : Callee} {arguments : List Expression} {inner : List Node}
    (h : callOf inner = .ok (callee, arguments)) :
    operandOf (.mk .call p text inner) = .ok (.call callee arguments) := by
  rw [operandOf, h]
  rfl

theorem operand_sound (hcall : CallSound call) (h : Takes (operand call) p nodes text rest) :
    ∃ node value, nodes = [node] ∧ operandOf node = .ok value ∧ RendersOperand p value text ∧
      (value.endsWithWord = true → Stops isIdentifierChar rest) := by
  rcases takes_orElse.mp h with h | ⟨-, h⟩
  · obtain ⟨inner, callee, arguments, rfl, hbuilt, hrenders⟩ := hcall p nodes text rest h
    exact ⟨_, _, rfl, operandOf_call hbuilt, hrenders, fun h => by cases h⟩
  · rcases takes_orElse.mp h with h | ⟨-, h⟩
    · obtain ⟨node, literal, rfl, hbuilt, hrenders, hstops⟩ := literal_sound h
      exact ⟨node, _, rfl, hbuilt, .literal hrenders, fun hword => hstops (beq_iff_eq.mp hword)⟩
    · obtain ⟨node, reference, rfl, hbuilt, hrenders, hstops⟩ := reference_sound h
      exact ⟨node, _, rfl, hbuilt, .reference hrenders, fun _ => hstops⟩

theorem operand_refuses_of_head {c : Char} (hcall : Refuses call p (c :: rest))
    (hliteral : Refuses Grammar.literal p (c :: rest)) (halpha : c.isAlpha = false) :
    Refuses (operand call) p (c :: rest) :=
  refuses_orElse.mpr ⟨hcall, refuses_orElse.mpr ⟨hliteral, reference_refuses_of_head halpha⟩⟩

/-- A reference is taken as an operand where there is no call, if no path of fields goes on behind
it. -/
theorem operand_of_reference {reference : Reference} (h : RendersReference p reference text)
    (hcall : Refuses call p (text ++ rest))
    (hrest : Stops (fun c => isIdentifierChar c || c == '.') rest) :
    ∃ node, Takes (operand call) p [node] text rest ∧
      operandOf node = .ok (.reference reference) := by
  obtain ⟨node, htakes, hbuilt⟩ := reference_complete h hrest
  have hliteral : Refuses Grammar.literal p (text ++ rest) :=
    literal_refuses_of_reference h (hrest.imp fun c hc => by simp [hc])
  exact ⟨node, takes_orElse.mpr (.inr ⟨hcall, takes_orElse.mpr (.inr ⟨hliteral, htakes⟩)⟩), hbuilt⟩

theorem operand_complete {limit : Nat} (hcall : CallComplete limit call) {value : Expression}
    (h : RendersOperand p value text) (hlimit : text.length ≤ limit) (hrest : Parted value rest) :
    ∃ node, Takes (operand call) p [node] text rest ∧ operandOf node = .ok value := by
  cases h with
  | call hname hgap harguments =>
    obtain ⟨inner, htakes, hbuilt⟩ := hcall.takes hlimit (.call hname hgap harguments)
    exact ⟨_, takes_orElse.mpr (.inl htakes), operandOf_call hbuilt⟩
  | literal hliteral =>
    obtain ⟨node, htakes, hbuilt⟩ := literal_complete hliteral hrest
    have hrefuses : Refuses call p (text ++ rest) :=
      hcall.refuses (callee_refuses_of_literal hliteral hrest)
    exact ⟨node, takes_orElse.mpr (.inr ⟨hrefuses, takes_orElse.mpr (.inl htakes)⟩), hbuilt⟩
  | reference hreference =>
    have hrefuses : Refuses call p (text ++ rest) :=
      hcall.refuses (callee_refuses_of_reference hreference hrest)
    exact operand_of_reference hreference hrefuses hrest.stops_path

/-! ## Arguments -/

theorem RendersCallee.front {callee : Callee} (h : RendersCallee callee text) :
    ∃ c cs, text = c :: cs ∧ c.isAlpha = true := by
  obtain ⟨⟨c, cs, rfl, hc, -⟩, -, -⟩ := h
  exact ⟨c, _, rfl, hc⟩

/-- A gap ends where an operand starts. -/
theorem RendersOperand.front {value : Expression} (h : RendersOperand p value text) :
    ∃ c cs, text = c :: cs ∧ startsNoGap c = true := by
  cases h with
  | literal hliteral =>
    cases hliteral with
    | string htext =>
      obtain ⟨body, rfl, -⟩ := htext
      exact ⟨'"', _, rfl, by decide⟩
    | number htext =>
      obtain ⟨c, cs, rfl, hc | rfl⟩ := htext.head
      · refine ⟨c, cs, rfl, startsNoGap_of_isIdentifierChar ?_⟩
        simp [isIdentifierChar, Char.isAlphanum, hc]
      · exact ⟨'-', cs, rfl, by decide⟩
    | boolean htext => rcases htext with rfl | rfl <;> exact ⟨_, _, rfl, by decide⟩
  | reference hreference =>
    cases hreference with
    | mk hname _ =>
      obtain ⟨⟨c, cs, rfl, hc, -⟩, -⟩ := hname
      exact ⟨c, _, rfl, startsNoGap_of_isAlpha hc⟩
  | call hname _ _ =>
    obtain ⟨c, cs, rfl, hc⟩ := hname.front
    exact ⟨c, _, rfl, startsNoGap_of_isAlpha hc⟩

theorem RendersOperand.stopsGap {value : Expression} (h : RendersOperand p value text) :
    StopsGap (text ++ rest) := by
  obtain ⟨c, cs, rfl, hc⟩ := h.front
  exact stopsGap_of_startsNoGap hc

theorem argument_sound (hcall : CallSound call)
    (h : Takes (Grammar.argument call) p nodes text rest) :
    ∃ node value, nodes = [node] ∧ valueOf node = .ok value ∧ RendersOperand p value text := by
  obtain ⟨_, rfl, hoperand⟩ := takes_rule.mp h
  obtain ⟨node, value, rfl, hbuilt, hrenders, -⟩ := operand_sound hcall hoperand
  exact ⟨_, value, rfl, hbuilt, hrenders⟩

theorem argument_complete {limit : Nat} (hcall : CallComplete limit call) {value : Expression}
    (h : RendersOperand p value text) (hlimit : text.length ≤ limit) (hrest : Parted value rest) :
    ∃ node, Takes (Grammar.argument call) p [node] text rest ∧ valueOf node = .ok value := by
  obtain ⟨node, htakes, hbuilt⟩ := operand_complete hcall h hlimit hrest
  exact ⟨_, takes_rule.mpr ⟨_, rfl, htakes⟩, hbuilt⟩

/-- A comma and an argument. -/
def nextArgument (call : Phrase) : Phrase :=
  spaced [symbol [','], Grammar.argument call]

instance [Lawful call] : Lawful (nextArgument call) :=
  inferInstanceAs (Lawful (spaced _))

theorem consumes_nextArgument [Lawful call] : Consumes (nextArgument call) := by
  intro p nodes text rest h
  obtain ⟨behind, rfl, -⟩ := takes_symbol_andThen.mp h
  exact List.cons_ne_nil _ _

theorem takes_nextArgument [Lawful call] : Takes (nextArgument call) p nodes text rest ↔
    ∃ gap behind, text = ',' :: (gap ++ behind) ∧
      Token.gap (gap ++ (behind ++ rest)) = (gap, behind ++ rest) ∧
      Takes (Grammar.argument call) (p.afterText (',' :: gap)) nodes behind rest := by
  simp only [nextArgument, spaced_cons, spaced_singleton, takes_symbol_andThen, takes_gap_andThen]
  constructor
  · rintro ⟨_, rfl, gap, behind, rfl, hgap, hargument⟩
    exact ⟨gap, behind, rfl, hgap, hargument⟩
  · rintro ⟨gap, behind, rfl, hgap, hargument⟩
    exact ⟨_, rfl, gap, behind, rfl, hgap, hargument⟩

theorem argumentsOf_cons {node : Node} {value : Expression} {values : List Expression}
    (hfirst : valueOf node = .ok value) (hmore : argumentsOf nodes = .ok values) :
    argumentsOf (node :: nodes) = .ok (value :: values) := by
  rw [argumentsOf, hfirst, hmore]
  rfl

/-- The first argument and those that the phrase takes behind it. -/
theorem arguments_of_repeats [Lawful call] (hcall : CallSound call) {q : Position}
    {before first : List Char} {value : Expression} (hbefore : IsGap before)
    (hfirst : RendersOperand (p.afterText before) value first)
    (h : Repeats (nextArgument call) q nodes text rest)
    (hq : q = (p.afterText before).afterText first) (hrest : rest ≠ []) :
    ∃ arguments, argumentsOf nodes = .ok arguments ∧
      RendersArguments RendersOperand p (value :: arguments) (before ++ (first ++ text)) := by
  induction h generalizing p before first value with
  | stop hgap _ => exact ⟨[], rfl, .one hbefore hfirst (isGap_of_gap hgap hrest)⟩
  | @step q nodes₁ nodes₂ gap text₁ text₂ rest hgap hitem _ ih =>
    obtain ⟨behind, argument, rfl, hbehind, hargument⟩ := takes_nextArgument.mp hitem
    obtain ⟨node, second, rfl, hbuilt, hsecond⟩ := argument_sound hcall hargument
    have hne : argument ++ (text₂ ++ rest) ≠ [] := by simp [hrest]
    subst hq
    obtain ⟨arguments, hmore, hrenders⟩ :=
      ih (p := p.afterText (before ++ (first ++ (gap ++ [','])))) (isGap_of_gap hbehind hne)
        (by simpa [Position.afterText_append] using hsecond)
        (by simp [Position.afterText_append]) hrest
    refine ⟨second :: arguments, argumentsOf_cons hbuilt hmore, ?_⟩
    have hgap := isGap_of_gap hgap (by simp)
    simpa using RendersArguments.more hbefore hfirst hgap hrenders

theorem arguments_sound [Lawful call] (hcall : CallSound call) {before tail : List Char}
    (hbefore : IsGap before)
    (h : Takes (Grammar.arguments call) (p.afterText before) nodes text (tail ++ rest))
    (htail : Token.gap (tail ++ rest) = (tail, rest)) (hrest : rest ≠ []) :
    ∃ arguments, argumentsOf nodes = .ok arguments ∧
      RendersArguments RendersOperand p arguments (before ++ (text ++ tail)) := by
  rcases takes_optional.mp h with h | ⟨rfl, rfl, -⟩
  · obtain ⟨nodes₁, text₁, nodes₂, text₂, rfl, rfl, hargument, hmore⟩ := takes_andThen.mp h
    obtain ⟨node, value, rfl, hbuilt, hvalue⟩ := argument_sound hcall hargument
    have hrepeats := Repeats.of_repeated consumes_nextArgument hmore htail
    obtain ⟨arguments, hmore, hrenders⟩ :=
      arguments_of_repeats hcall hbefore hvalue hrepeats rfl hrest
    rw [List.append_assoc]
    exact ⟨value :: arguments, argumentsOf_cons hbuilt hmore, hrenders⟩
  · exact ⟨[], rfl, .none (hbefore.append (isGap_of_gap htail hrest))⟩

/-- Arguments, of which there is one at least, are a first one and those behind commas. -/
theorem repeats_of_arguments [Lawful call] {limit : Nat} (hcall : CallComplete limit call)
    {arguments : List Expression} (h : RendersArguments RendersOperand p arguments text)
    (hne : arguments ≠ []) (hlimit : text.length ≤ limit) (rest : List Char) :
    ∃ before first behind nodes₁ nodes₂, text = before ++ (first ++ behind) ∧ IsGap before ∧
      StopsGap (first ++ (behind ++ ')' :: rest)) ∧
      Takes (Grammar.argument call) (p.afterText before) nodes₁ first (behind ++ ')' :: rest) ∧
      Repeats (nextArgument call) ((p.afterText before).afterText first) nodes₂ behind
        (')' :: rest) ∧ argumentsOf (nodes₁ ++ nodes₂) = .ok arguments := by
  induction h with
  | none _ => exact absurd rfl hne
  | @one p before first behind argument hbefore hfirst hbehind =>
    have hparted : Parted argument (behind ++ ')' :: rest) :=
      parted_append hbehind (by decide) (by decide) (by decide) _
    obtain ⟨node, htakes, hbuilt⟩ := argument_complete hcall hfirst
      (by simp only [List.length_append] at hlimit; omega) hparted
    have hgap : Token.gap (behind ++ ')' :: rest) = (behind, ')' :: rest) :=
      gap_append hbehind (stops_cons.mpr (by decide))
    exact ⟨before, first, behind, [node], [], rfl, hbefore, hfirst.stopsGap, htakes,
      .stop hgap (refuses_andThen_of_first rfl), argumentsOf_cons hbuilt rfl⟩
  | @more p before first gap others value second arguments hbefore hfirst hgap _ ih =>
    obtain ⟨before', first', behind, nodes₁, nodes₂, rfl, hbefore', hstops, hnext, hrepeats,
      hbuilt⟩ := ih (List.cons_ne_nil _ _)
        (by simp only [List.length_append, List.length_cons] at hlimit; omega)
    have hparted : Parted value (gap ++ ',' :: (before' ++ (first' ++ (behind ++ ')' :: rest)))) :=
      parted_append hgap (by decide) (by decide) (by decide) _
    obtain ⟨node, htakes, hvalue⟩ := argument_complete hcall hfirst
      (by simp only [List.length_append] at hlimit; omega) hparted
    have hitem : Takes (nextArgument call) (((p.afterText before).afterText first).afterText gap)
        nodes₁ (',' :: (before' ++ first')) (behind ++ ')' :: rest) := by
      refine takes_nextArgument.mpr ⟨before', first', rfl, gap_append hbefore' hstops, ?_⟩
      simpa [Position.afterText_append] using hnext
    have hscan : Token.gap (gap ++ (',' :: (before' ++ first') ++ (behind ++ ')' :: rest))) =
        (gap, ',' :: (before' ++ first') ++ (behind ++ ')' :: rest)) :=
      gap_append hgap (stops_cons.mpr (by decide))
    have hmore : Repeats (nextArgument call)
        ((((p.afterText before).afterText first).afterText gap).afterText
          (',' :: (before' ++ first'))) nodes₂ behind (')' :: rest) := by
      simpa [Position.afterText_append] using hrepeats
    refine ⟨before, first, gap ++ (',' :: (before' ++ first') ++ behind), [node], nodes₁ ++ nodes₂,
      by simp, hbefore, hfirst.stopsGap, ?_, .step hscan hitem hmore,
      argumentsOf_cons hvalue hbuilt⟩
    simpa using htakes

theorem arguments_complete [Lawful call] {limit : Nat} (hcall : CallComplete limit call)
    {arguments : List Expression} (h : RendersArguments RendersOperand p arguments text)
    (hlimit : text.length ≤ limit) (rest : List Char) :
    ∃ before taken tail nodes, text = before ++ (taken ++ tail) ∧ IsGap before ∧
      StopsGap (taken ++ (tail ++ ')' :: rest)) ∧
      Takes (Grammar.arguments call) (p.afterText before) nodes taken (tail ++ ')' :: rest) ∧
      Token.gap (tail ++ ')' :: rest) = (tail, ')' :: rest) ∧
      argumentsOf nodes = .ok arguments := by
  by_cases hne : arguments = []
  · subst hne
    cases h with
    | none hgap =>
      have hclose : StopsGap (')' :: rest) := stops_cons.mpr (by decide)
      have hrefuses : Refuses (operand call) (p.afterText text) (')' :: rest) :=
        operand_refuses_of_head (hcall.refuses (callee_refuses_of_head (by decide))) rfl (by decide)
      refine ⟨text, [], [], [], by simp, hgap, hclose, ?_, gap_append .nil hclose, rfl⟩
      exact takes_optional.mpr (.inr ⟨rfl, rfl,
        refuses_andThen_of_first (refuses_rule.mpr hrefuses)⟩)
  · obtain ⟨before, first, behind, nodes₁, nodes₂, rfl, hbefore, hstops, hfirst, hrepeats,
      hbuilt⟩ := repeats_of_arguments hcall h hne hlimit rest
    obtain ⟨taken, tail, rfl, htail, hmore⟩ := hrepeats.takes_repeated consumes_nextArgument
    rw [List.append_assoc] at hstops hfirst
    refine ⟨before, first ++ taken, tail, nodes₁ ++ nodes₂, by simp, hbefore, ?_, ?_, htail, hbuilt⟩
    · rwa [List.append_assoc]
    · exact takes_optional.mpr (.inl (hfirst.andThen hmore))

/-! ## Calls -/

instance [Lawful call] : Lawful (Grammar.arguments call) :=
  inferInstanceAs (Lawful (optional (spaced _)))

instance : Lawful fun _ => (⟨.none, none⟩ : Reply) :=
  ⟨fun _ _ _ h => nomatch h⟩

instance (depth : Nat) : Lawful (Grammar.callTo depth) := by
  induction depth with
  | zero => exact inferInstanceAs (Lawful (rule .call _))
  | succ depth ih => exact inferInstanceAs (Lawful (rule .call (spaced _)))

theorem callOf_cons {node : Node} {callee : Callee} {arguments : List Expression}
    (hcallee : calleeOf node = .ok callee) (harguments : argumentsOf nodes = .ok arguments) :
    callOf (node :: nodes) = .ok (callee, arguments) := by
  rw [callOf, hcallee, harguments]
  rfl

theorem callTo_sound (depth : Nat) : CallSound (Grammar.callTo depth) := by
  induction depth with
  | zero =>
    intro p nodes text rest h
    obtain ⟨_, -, h⟩ := takes_rule.mp h
    cases h
  | succ depth ih =>
    intro p nodes text rest h
    obtain ⟨_, rfl, hbody⟩ := takes_rule.mp h
    simp only [spaced_cons, spaced_singleton] at hbody
    obtain ⟨_, name, _, _, rfl, rfl, hcallee, hbehind⟩ := takes_andThen.mp hbody
    obtain ⟨gap, _, rfl, hgap, hopen⟩ := takes_gap_andThen.mp hbehind
    obtain ⟨_, rfl, hinner⟩ := takes_symbol_andThen.mp hopen
    obtain ⟨before, _, rfl, hbefore, hinner⟩ := takes_gap_andThen.mp hinner
    obtain ⟨arguments, taken, _, _, rfl, rfl, harguments, hclose⟩ := takes_andThen.mp hinner
    obtain ⟨tail, _, rfl, htail, hclose⟩ := takes_gap_andThen.mp hclose
    obtain ⟨rfl, rfl⟩ := takes_symbol.mp hclose
    obtain ⟨node, callee, rfl, hbuilt, hname⟩ := callee_sound hcallee
    rw [List.append_assoc tail] at harguments
    obtain ⟨arguments, hbuilt', harguments⟩ :=
      arguments_sound ih (isGap_of_gap hbefore (by simp)) harguments htail (by simp)
    refine ⟨_, callee, arguments, rfl, callOf_cons hbuilt (by simpa using hbuilt'), ?_⟩
    have hrenders := RendersOperand.call hname (isGap_of_gap hgap (by simp))
      (by simpa [Position.afterText_append] using harguments)
    simpa using hrenders

theorem callTo_refuses (depth : Nat) {cs : List Char} (h : Refuses Grammar.callee p cs) :
    Refuses (Grammar.callTo depth) p cs := by
  cases depth with
  | zero => rfl
  | succ depth => exact refuses_rule.mpr (refuses_andThen_of_first h)

theorem callTo_complete (depth : Nat) : CallComplete depth (Grammar.callTo depth) := by
  refine ⟨?_, callTo_refuses depth⟩
  induction depth with
  | zero =>
    intro p callee arguments text rest hlimit h
    cases h
    simp only [List.length_append, List.length_cons] at hlimit
    omega
  | succ depth ih =>
    intro p callee arguments text rest hlimit h
    cases h with
    | @call _ _ _ name gap inner hname hgap harguments =>
      have hinner : inner.length ≤ depth := by
        simp only [List.length_append, List.length_cons] at hlimit
        omega
      obtain ⟨before, taken, tail, nodes, rfl, hbefore, hstops, htakes, htail, hbuilt⟩ :=
        arguments_complete ⟨ih, callTo_refuses depth⟩ harguments hinner rest
      have hopen : Stops isDashedChar
          (gap ++ (['('] ++ (before ++ (taken ++ (tail ++ [')']))) ++ rest)) :=
        stops_append hgap (stops_cons.mpr (by decide))
      obtain ⟨node, hname, hbuilt'⟩ : ∃ node, Takes Grammar.callee p [node] name _ ∧ _ :=
        callee_complete hname (hopen.imp fun _ => isDashedChar_of_isIdentifierChar)
      have htext : name ++ (gap ++ '(' :: (before ++ (taken ++ tail) ++ [')'])) =
          name ++ (gap ++ (['('] ++ (before ++ (taken ++ (tail ++ [')']))))) := by simp
      refine ⟨[node] ++ (nodes ++ []), ?_, callOf_cons hbuilt' (by simpa using hbuilt)⟩
      rw [htext]
      rw [← List.append_assoc gap] at hname
      refine takes_rule.mpr ⟨_, rfl, hname.andThen ?_⟩
      refine takes_gap_andThen_of_stops hgap (stops_cons.mpr (by decide)) ?_
      refine takes_symbol_andThen.mpr ⟨_, rfl, takes_gap_andThen_of_stops hbefore ?_ ?_⟩
      · simpa using hstops
      · have hclose : ∀ q, Takes (Phrase.gap.andThen (symbol [')'])) q [] (tail ++ [')']) rest :=
          fun q => takes_gap_andThen.mpr ⟨tail, _, rfl, htail, takes_symbol.mpr ⟨rfl, rfl⟩⟩
        refine Takes.andThen ?_ (hclose _)
        simpa [Position.afterText_append] using htakes

end ScriptForge.Script

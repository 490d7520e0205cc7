import ScriptForge.Proofs.Script.Bodies
import ScriptForge.Proofs.Script.Calls

/-!
# Reading values

A value is an embedded block or an operand. A block starts with a reserved word, which no reference
is and which a called plugin may be: `word_refuses` covers the plugins, here and for the words that
statements start with.
-/

namespace ScriptForge.Script

open Token Phrase Text

variable {p : Position} {nodes : List Node} {text rest : List Char}

theorem takes_call : Takes Grammar.call p nodes text rest ↔
    Takes (Grammar.callTo ((text ++ rest).length + 1)) p nodes text rest := by
  simp only [Takes, Grammar.call, nested]

theorem call_sound : CallSound Grammar.call :=
  fun p nodes text rest h => callTo_sound _ p nodes text rest (takes_call.mp h)

theorem call_complete (limit : Nat) : CallComplete limit Grammar.call := by
  refine ⟨fun {p callee arguments text rest} _ h => ?_, fun h => ?_⟩
  · have hlimit : text.length ≤ (text ++ rest).length + 1 := by
      rw [List.length_append]
      omega
    obtain ⟨inner, htakes, hbuilt⟩ := (callTo_complete _).takes hlimit h
    exact ⟨inner, takes_call.mpr htakes, hbuilt⟩
  · rw [Refuses, Grammar.call, nested]
    exact callTo_refuses _ h

/-! ## Words that plugins are named like -/

/-- A word at the front of a run of dashed characters with a point behind it. -/
theorem word_at_run {word run behind : List Char} {more : Char → Bool}
    (hword : word.all isIdentifierChar = true) (hrun : ∀ c ∈ run, isDashedChar c = true)
    (hmore : ∀ c, isIdentifierChar c = true → more c = true) (hbehind : Stops more behind)
    (heq : run ++ '.' :: rest = word ++ behind) :
    ∃ c cs, behind = c :: cs ∧ (c = '.' ∧ run = word ∨ c = '-' ∧ more '-' = false) := by
  rcases List.append_eq_append_iff.mp heq with ⟨left, rfl, hleft⟩ | ⟨left, rfl, rfl⟩
  · cases left with
    | nil => exact ⟨'.', rest, hleft.symm, .inl ⟨rfl, (List.append_nil _).symm⟩⟩
    | cons c left =>
      obtain ⟨rfl, -⟩ := List.cons.inj hleft
      cases List.all_eq_true.mp hword '.' (by simp)
  · cases left with
    | nil => exact ⟨'.', rest, rfl, .inl ⟨rfl, List.append_nil _⟩⟩
    | cons c left =>
      have hc := stops_cons.mp hbehind
      have hdash : c = '-' := by
        have hdashed := hrun c (by simp)
        have hnot : isIdentifierChar c = false :=
          eq_false_of_ne_true fun h => by rw [hmore c h] at hc; cases hc
        simpa [isDashedChar, hnot] using hdashed
      subst hdash
      exact ⟨'-', _, rfl, .inr ⟨rfl, hc⟩⟩

theorem not_takes_of_refuses {phrase : Phrase} (h : Refuses phrase p (text ++ rest)) :
    ¬ Takes phrase p nodes text rest := by
  intro htakes
  rw [Takes, h] at htakes
  cases htakes

/-- A phrase that starts with a word does not match where a dashed name stands in front of a point,
unless what follows the word may start with the point, or with a dash. -/
theorem word_refuses {r : Rule} {word run : List Char} {more : Char → Bool} {second : Phrase}
    {phrases : List Phrase} [Lawful (spaced (second :: phrases))]
    (hword : word.all isIdentifierChar = true) (hrun : ∀ c ∈ run, isDashedChar c = true)
    (hmore : ∀ c, isIdentifierChar c = true → more c = true)
    (hpoint : run = word → ∀ q cs, Refuses (spaced (second :: phrases)) q ('.' :: cs))
    (hdash : more '-' = false → ∀ q cs, Refuses (spaced (second :: phrases)) q ('-' :: cs)) :
    Refuses (spaced (token r (Token.word word more) :: second :: phrases)) p
      (run ++ '.' :: rest) := by
  refine refuses_of_not_takes fun nodes text rest' heq htakes => ?_
  obtain ⟨taken, _, _, -, rfl, hscan, htail⟩ := takes_token_andThen.mp htakes
  obtain ⟨gap, behind, rfl, hgap, hsecond⟩ := takes_gap_andThen.mp htail
  obtain ⟨rfl, hstops, -⟩ := word_eq_some_iff.mp hscan
  rw [List.append_assoc, List.append_assoc] at heq
  rw [List.append_assoc] at hstops
  obtain ⟨c, cs, hcs, hc⟩ := word_at_run hword hrun hmore hstops heq
  have hnone : Token.gap (c :: cs) = ([], c :: cs) := by
    refine gapIn_of_stops (stops_cons.mpr ?_)
    rcases hc with ⟨rfl, -⟩ | ⟨rfl, -⟩ <;> decide
  rw [hcs, hnone] at hgap
  obtain ⟨rfl, hbehind⟩ := Prod.mk.inj hgap
  refine not_takes_of_refuses ?_ hsecond
  rw [← hbehind]
  rcases hc with ⟨rfl, hrun⟩ | ⟨rfl, hminus⟩
  · exact hpoint hrun _ _
  · exact hdash hminus _ _

/-! ## Values -/

theorem gqlBlock_refuses_of_word (h : Token.word "gql".toList isIdentifierChar rest = none) :
    Refuses Grammar.gqlBlock p rest :=
  refuses_rule.mpr (refuses_andThen_of_first (refuses_token.mpr h))

/-- Where an operand stands, there is no word `gql`, unless a plugin is named like it. -/
theorem gqlWord_eq_none_or_run {value : Expression} (h : RendersOperand p value text)
    (hrest : Parted value rest) : Token.word "gql".toList isIdentifierChar (text ++ rest) = none ∨
      ∃ run more, text = run ++ '.' :: more ∧ ∀ c ∈ run, isDashedChar c = true := by
  cases h with
  | literal hliteral =>
    refine .inl ?_
    cases hliteral with
    | string htext =>
      obtain ⟨body, rfl, -⟩ := htext
      exact word_eq_none (by decide)
    | number htext =>
      obtain ⟨c, cs, rfl, hc⟩ := htext.head
      refine word_eq_none ?_
      rintro rfl
      rcases hc with hc | hc <;> cases hc
    | boolean htext => rcases htext with rfl | rfl <;> exact word_eq_none (by decide)
  | reference hreference =>
    cases hreference with
    | @mk name path hname hpath =>
      rw [List.append_assoc]
      refine .inl (word_eq_none_of_identifier (by decide) hname ?_)
      cases path with
      | nil => exact (hrest.2 rfl).1.imp fun _ => isDashedChar_of_isIdentifierChar
      | cons field path => exact stops_cons.mpr (by decide)
  | call hname _ _ =>
    obtain ⟨hplugin, -, -⟩ := hname
    exact .inr ⟨_, _, List.append_assoc .., hplugin.all⟩

/-- Where an operand stands, there is no embedded block. -/
theorem gqlBlock_refuses {value : Expression} (h : RendersOperand p value text)
    (hrest : Parted value rest) : Refuses Grammar.gqlBlock p (text ++ rest) := by
  rcases gqlWord_eq_none_or_run h hrest with hnone | ⟨run, more, rfl, hrun⟩
  · exact gqlBlock_refuses_of_word hnone
  · rw [List.append_assoc]
    refine refuses_rule.mpr (word_refuses (by decide) hrun (fun _ h => h) ?_ ?_)
    · exact fun _ _ _ => refuses_andThen_of_first (refuses_token.mpr rfl)
    · exact fun _ _ _ => refuses_andThen_of_first (refuses_token.mpr rfl)

theorem RendersValue.front {value : Expression} (h : RendersValue p value text) :
    ∃ c cs, text = c :: cs ∧ startsNoGap c = true := by
  cases h with
  | operand hoperand => exact hoperand.front
  | query _ _ _ _ _ _ _ => exact ⟨'g', _, rfl, by decide⟩

theorem RendersValue.ne_nil {value : Expression} (h : RendersValue p value text) : text ≠ [] := by
  obtain ⟨c, cs, rfl, -⟩ := h.front
  exact List.cons_ne_nil c cs

theorem expression_sound (h : Takes Grammar.expression p nodes text rest) :
    ∃ inner value, nodes = [.mk .expression p text inner] ∧
      valueOf (.mk .expression p text inner) = .ok value ∧ RendersValue p value text ∧
      (value.endsWithWord = true → Stops isIdentifierChar rest) := by
  obtain ⟨inner, rfl, hbody⟩ := takes_rule.mp h
  rcases takes_orElse.mp hbody with hblock | ⟨-, hoperand⟩
  · obtain ⟨node, block, rfl, hbuilt, hrenders⟩ := gqlBlock_sound hblock
    exact ⟨_, _, rfl, hbuilt, hrenders, fun h => by cases h⟩
  · obtain ⟨node, value, rfl, hbuilt, hrenders, hstops⟩ := operand_sound call_sound hoperand
    exact ⟨_, value, rfl, hbuilt, .operand hrenders, hstops⟩

theorem expression_complete {value : Expression} (h : RendersValue p value text)
    (hrest : Parted value rest) : ∃ inner,
    Takes Grammar.expression p [.mk .expression p text inner] text rest ∧
      valueOf (.mk .expression p text inner) = .ok value := by
  cases h with
  | operand hoperand =>
    obtain ⟨node, htakes, hbuilt⟩ :=
      operand_complete (call_complete _) hoperand (Nat.le_refl _) hrest
    have hrefuses : Refuses Grammar.gqlBlock p (text ++ rest) := gqlBlock_refuses hoperand hrest
    exact ⟨[node], takes_rule.mpr ⟨_, rfl, takes_orElse.mpr (.inr ⟨hrefuses, htakes⟩)⟩, hbuilt⟩
  | query hbefore hne hbehind hleft hbody htrim hright =>
    obtain ⟨node, htakes, hbuilt⟩ :=
      gqlBlock_complete (.query hbefore hne hbehind hleft hbody htrim hright)
    exact ⟨[node], takes_rule.mpr ⟨_, rfl, takes_orElse.mpr (.inl htakes)⟩, hbuilt⟩

end ScriptForge.Script

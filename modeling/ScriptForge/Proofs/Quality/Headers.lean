import ScriptForge.Proofs.Quality.Patterns
import ScriptForge.Proofs.Script.Pieces
import ScriptForge.Proofs.Script.Parses
import ScriptForge.Quality.Validator

/-!
# Headers of services

The grammar lets the name of a service hold letters, digits, underscores and dashes. The pattern of
the check on the text knows no underscores. So with an underscore in its name a service is not
recognized, and without one it always is, in whatever way its header is laid out
(`header_missed_iff`).
-/

namespace ScriptForge.Quality

open Script Script.Token Text

namespace TextCheck

/-! ## The check of services -/

section

variable {text : List Char}

theorem check_of_mem_namingFindings {finding : Finding} (h : finding ∈ namingFindings text) :
    finding.check = .naming := by
  obtain ⟨⟨name, line⟩, -, hfinding⟩ := List.mem_filterMap.mp h
  dsimp only at hfinding
  split at hfinding
  · cases hfinding
  · cases hfinding
    rfl

theorem check_of_mem_lineFindings {inComment : Bool} {number : Nat} {lines : List (List Char)}
    {finding : Finding} (h : finding ∈ lineFindings inComment number lines) :
    finding.check = .termination := by
  induction lines generalizing inComment number with
  | nil => cases h
  | cons line rest ih =>
    rw [lineFindings, List.mem_append, Option.mem_toList,
      Option.map_eq_some_iff] at h
    rcases h with ⟨_, -, rfl⟩ | h
    · rfl
    · exact ih h

theorem check_of_mem_blockFindings {finding : Finding} (h : finding ∈ blockFindings text) :
    finding.check = .gqlBody := by
  obtain ⟨⟨block, line⟩, -, hfinding⟩ := List.mem_filterMap.mp h
  dsimp only at hfinding
  split at hfinding
  · cases hfinding
    rfl
  · cases hfinding

/-- That there is no service is reported exactly if there is no header. -/
theorem exists_serviceDefinition_iff {text : String} :
    (∃ finding ∈ ((⟨.fallback⟩ : Validator).validate text).findings,
      finding.check = .serviceDefinition) ↔
        ¬ ∃ header, IsHeader header ∧ header <:+: text.toList := by
  rw [← definesService_iff]
  change (∃ finding ∈ findings text, _) ↔ _
  rw [findings]
  constructor
  · rintro ⟨finding, hmem, hcheck⟩ hdefines
    simp only [List.mem_append] at hmem
    rcases hmem with ((h | h) | h) | h
    · rw [serviceFindings, if_pos hdefines] at h
      cases h
    · cases hcheck.symm.trans (check_of_mem_namingFindings h)
    · cases hcheck.symm.trans (check_of_mem_lineFindings h)
    · cases hcheck.symm.trans (check_of_mem_blockFindings h)
  · intro hdefines
    rw [serviceFindings, if_neg hdefines]
    exact ⟨_, List.mem_append_left _ (List.mem_append_left _ (List.mem_append_left _
      List.mem_cons_self)), rfl⟩

end

/-! ## Headers in a text -/

section

variable {header name run lead before behind rest : List Char}

theorem IsHeader.not_mem {x : Char} (h : IsHeader header) (hword : x ∉ "service".toList)
    (hblank : isBlank x = false) (hname : isHyphenatedChar x = false) (hsign : x ≠ '\x7b') :
    x ∉ header := by
  obtain ⟨name, hletters, htwo⟩ := h
  refine htwo.not_mem hword hblank (fun hmem => ?_) hsign
  have hx := hletters.all (fun c hc => by simp [isHyphenatedChar, Char.isAlphanum, hc]) x hmem
  exact Bool.false_ne_true (hname.symm.trans hx)

theorem IsHeader.exists_concat (h : IsHeader header) :
    ∃ body, header = body ++ ['\x7b'] ∧ '\x7b' ∉ body := by
  obtain ⟨name, hletters, htwo⟩ := h
  refine htwo.exists_concat (by decide) (by decide) fun hmem => ?_
  have hx := hletters.all (fun c hc => by simp [isHyphenatedChar, Char.isAlphanum, hc]) _ hmem
  cases hx

/-- In a header a letter stands behind a blank; at the end of another one there is none. -/
theorem IsHeader.not_infix_tail (h : IsHeader header) (hrun : ∀ c ∈ run, isDashedChar c = true)
    (hbehind : ∀ c ∈ behind, isBlank c = true) : ¬ header <:+: run ++ (behind ++ ['\x7b']) := by
  obtain ⟨_, ⟨c, name, rfl, hc, -⟩, @⟨gap, more, hgap, hne, -⟩⟩ := h
  rintro ⟨front, back, heq⟩
  have hsplit : (front ++ ("service".toList ++ gap)) ++
      (c :: (name ++ (more ++ ['\x7b'])) ++ back) = run ++ (behind ++ ['\x7b']) := by
    rw [← heq]
    simp only [List.append_assoc, List.cons_append]
  obtain ⟨d, gap, rfl⟩ := List.exists_cons_of_ne_nil hne
  rcases List.append_eq_append_iff.mp hsplit with ⟨left, rfl, -⟩ | ⟨left, -, hright⟩
  · have hdashed := hrun d (by simp)
    have hblank := hgap d List.mem_cons_self
    rw [not_isBlank_of_isDashedChar hdashed] at hblank
    cases hblank
  · have hmem : c ∈ behind ++ ['\x7b'] := by
      rw [hright]
      simp
    rcases List.mem_append.mp hmem with hmem | hmem
    · have hdashed := isDashedChar_of_isIdentifierChar (isIdentifierChar_of_isAlpha hc)
      have hblank := hbehind c hmem
      rw [not_isBlank_of_isDashedChar hdashed] at hblank
      cases hblank
    · obtain rfl := List.mem_singleton.mp hmem
      cases hc

/-- Around a name with an underscore there is a header only in front of the word `service` or behind
the brace. -/
theorem IsHeader.infix_iff (h : IsHeader header) (hname : ∀ c ∈ name, isDashedChar c = true)
    (hunder : '_' ∈ name) (hbefore : ∀ c ∈ before, isBlank c = true)
    (hbehind : ∀ c ∈ behind, isBlank c = true) :
    header <:+: lead ++ ("service".toList ++ (before ++ (name ++ (behind ++ '\x7b' :: rest)))) ↔
      header <:+: lead ∨ header <:+: rest := by
  obtain ⟨left, right, rfl⟩ := List.append_of_mem hunder
  have hunder : '_' ∉ header := h.not_mem (by decide) (by decide) (by decide) (by decide)
  have htail : ¬ header <:+: (right ++ behind) ++ ['\x7b'] := by
    rw [List.append_assoc]
    exact h.not_infix_tail (fun c hc => hname c (by simp [hc])) hbehind
  obtain ⟨body, rfl, hbody⟩ := h.exists_concat
  have hbrace : '\x7b' ∉ "service".toList ++ (before ++ left) := by
    have hleft : '\x7b' ∉ left := fun hmem => by cases hname _ (List.mem_append_left _ hmem)
    have hbefore : '\x7b' ∉ before := fun hmem => by cases hbefore _ hmem
    simp [hleft, hbefore]
  have hassoc : lead ++ ("service".toList ++ (before ++ (left ++ '_' :: right ++ (behind ++
      '\x7b' :: rest)))) = (lead ++ ("service".toList ++ (before ++ left))) ++ '_' ::
        ((right ++ behind) ++ '\x7b' :: rest) := by
    simp only [List.append_assoc, List.cons_append]
  rw [hassoc, infix_append_cons_iff hunder, concat_infix_append_iff hbrace,
    concat_infix_append_cons_iff hbody, or_iff_right htail]

end

end TextCheck

/-! ## Headers that the grammar reads -/

open TextCheck

/-- A text from the word `service` in front of a name to the brace behind it, with what stands
around it. -/
structure Opens (service : String) (text lead before behind rest : List Char) : Prop where
  text_eq : text = lead ++ ("service".toList ++ (before ++ (service.toList ++ (behind ++
    '\x7b' :: rest))))
  isGap_lead : IsGap lead
  isGap_before : IsGap before
  before_ne_nil : before ≠ []
  isGap_behind : IsGap behind

section

variable {text : String} {script : Script}

theorem exists_opens (h : parse text = .ok script) : IsDashedName script.service.toList ∧
    ∃ lead before behind rest, Opens script.service text.toList lead before behind rest := by
  obtain ⟨front, gap, pieces, final, hwritten, htext⟩ := (renders_of_parse h).exists_pieces
  obtain ⟨hlead, hbefore, hne, hname, hbehind⟩ := hwritten.renders_front
  refine ⟨hname, _, _, _, gap ++ (pieces.flatMap Piece.whole ++ '\x7d' :: final), ?_, hlead,
    hbefore, hne, hbehind⟩
  rw [htext]
  simp only [List.append_assoc, List.cons_append, List.nil_append]

theorem isBlank_of_isGap {gap : List Char} (h : IsGap gap) (hcomment : '/' ∉ gap) :
    ∀ c ∈ gap, isBlank c = true := by
  induction h with
  | nil => simp
  | space hspace _ ih =>
    rw [List.mem_cons, not_or] at hcomment
    exact List.forall_mem_cons.mpr ⟨isBlank_of_isSpace hspace, ih hcomment.2⟩
  | line | block => simp at hcomment
  | openLine _ hend => cases hend

/-- **Headers.** A script that parses has a header. If there are no comments in it, the fallback
misses it exactly if there is an underscore in the name of the service, and no other header in the
text, where it would have to be in a comment, in a string or in the body of a block. -/
theorem header_missed_iff (h : parse text = .ok script) :
    (∃ lead before behind rest, Opens script.service text.toList lead before behind rest) ∧
    ∀ lead before behind rest, Opens script.service text.toList lead before behind rest →
      '/' ∉ before → '/' ∉ behind →
        ((∃ finding ∈ ((⟨.fallback⟩ : Validator).validate text).findings,
            finding.check = .serviceDefinition) ↔
          '_' ∈ script.service.toList ∧
            ∀ header, IsHeader header → ¬ header <:+: lead ∧ ¬ header <:+: rest) := by
  obtain ⟨hname, hexists⟩ := exists_opens h
  refine ⟨hexists, fun lead before behind rest hopens hbefore hbehind => ?_⟩
  have hbefore := isBlank_of_isGap hopens.isGap_before hbefore
  have hbehind := isBlank_of_isGap hopens.isGap_behind hbehind
  rw [exists_serviceDefinition_iff, hopens.text_eq]
  by_cases hunder : '_' ∈ script.service.toList
  · simp only [hunder, true_and, not_exists, not_and]
    refine forall_congr' fun header => forall_congr' fun hheader => ?_
    rw [hheader.infix_iff hname.all hunder hbefore hbehind, not_or]
  · have hletters : IsName Char.isAlpha isHyphenatedChar script.service.toList := by
      obtain ⟨c, cs, heq, hc, hcs⟩ := hname
      refine ⟨c, cs, heq, hc, fun d hd => ?_⟩
      have hne : d ≠ '_' := by
        rintro rfl
        exact hunder (by rw [heq]; exact List.mem_cons_of_mem _ hd)
      have hdashed := hcs d hd
      simpa [isDashedChar, isIdentifierChar, isHyphenatedChar, hne] using hdashed
    simp only [hunder, false_and, iff_false, not_not]
    refine ⟨_, ⟨_, hletters, .mk hbefore hopens.before_ne_nil hbehind⟩, lead, rest, ?_⟩
    simp only [List.append_assoc, List.cons_append, List.nil_append]

theorem exists_script_of_service {service : String}
    (h : (parse text).toOption.map Script.service = some service) :
    ∃ script, parse text = .ok script ∧ script.service = service := by
  cases hparse : parse text with
  | error error =>
    rw [hparse] at h
    cases h
  | ok script =>
    rw [hparse] at h
    cases h
    exact ⟨script, rfl, rfl⟩

/-- The name may stand on a line of its own. -/
theorem order_rpc_recognized :
    let text := "service\n\torder-rpc\r\n\x7b return 1; \x7d"
    ∃ script, parse text = .ok script ∧
      Opens script.service text.toList [] ['\n', '\t'] ['\r', '\n'] " return 1; \x7d".toList ∧
      ¬ ∃ finding ∈ ((⟨.fallback⟩ : Validator).validate text).findings,
        finding.check = .serviceDefinition := by
  intro text
  obtain ⟨script, hparse, hservice⟩ :=
    @exists_script_of_service text "order-rpc" (by decide +kernel)
  have hopens : Opens script.service text.toList [] ['\n', '\t'] ['\r', '\n']
      " return 1; \x7d".toList := by
    rw [hservice]
    exact ⟨by decide, .nil, .space (by decide) (.space (by decide) .nil), by decide,
      .space (by decide) (.space (by decide) .nil)⟩
  refine ⟨script, hparse, hopens, fun hmissed => ?_⟩
  have hunder := ((header_missed_iff hparse).2 _ _ _ _ hopens (by decide) (by decide)).mp hmissed
  rw [hservice] at hunder
  exact absurd hunder.1 (by decide)

/-- A name with an underscore, which the grammar accepts and the fallback does not know. -/
theorem order_rpc_missed :
    let text := "service order_rpc \x7b return 1; \x7d"
    ∃ script, parse text = .ok script ∧
      Opens script.service text.toList [] [' '] [' '] " return 1; \x7d".toList ∧
      ((⟨.fallback⟩ : Validator).validate text).findings.map Finding.check =
        [.serviceDefinition] := by
  intro text
  obtain ⟨script, hparse, hservice⟩ :=
    @exists_script_of_service text "order_rpc" (by decide +kernel)
  refine ⟨script, hparse, ?_, by decide +kernel⟩
  rw [hservice]
  exact ⟨by decide, .nil, isGap_space, by decide, isGap_space⟩

end

end ScriptForge.Quality

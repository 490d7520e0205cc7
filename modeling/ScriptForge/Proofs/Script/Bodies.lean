import ScriptForge.Proofs.Script.Values
import ScriptForge.Proofs.Text.Trim

/-!
# Reading embedded blocks

The body of an embedded block is what stands between its braces without the blanks at both ends.
Cutting blanks off leaves a text balanced (`balanced_append_blanks`), so the braces enclose a
trimmed and balanced body with blanks around it, and nothing else (`isBody_iff`).
-/

namespace ScriptForge.Script

open Token Phrase Text

variable {p : Position} {nodes : List Node} {text rest : List Char}

/-! ## Bodies -/

namespace Token

variable {c : Char} {cs ds left right body : List Char}

theorem Balanced.append (hcs : Balanced cs) (hds : Balanced ds) : Balanced (cs ++ ds) := by
  induction hcs with
  | nil => exact hds
  | plain hquote hopen hclose _ ih => exact .plain hquote hopen hclose ih
  | string hbody _ ih =>
    rw [List.cons_append, List.append_assoc]
    exact .string hbody ih
  | braces hinner _ _ ih =>
    rw [List.cons_append, List.append_assoc]
    exact .braces hinner ih

/-- A blank is no quote and no brace. -/
theorem plain_of_isBlank (h : isBlank c = true) : c ≠ '"' ∧ c ≠ '\x7b' ∧ c ≠ '\x7d' := by
  refine ⟨?_, ?_, ?_⟩ <;> rintro rfl <;> cases h

theorem balanced_of_blanks (h : ∀ c ∈ cs, isBlank c = true) : Balanced cs := by
  induction cs with
  | nil => exact .nil
  | cons c cs ih =>
    obtain ⟨hc, hcs⟩ := List.forall_mem_cons.mp h
    obtain ⟨hquote, hopen, hclose⟩ := plain_of_isBlank hc
    exact .plain hquote hopen hclose (ih hcs)

theorem Balanced.of_append_left (hleft : ∀ c ∈ left, isBlank c = true)
    (h : Balanced (left ++ cs)) : Balanced cs := by
  induction left with
  | nil => exact h
  | cons c left ih =>
    obtain ⟨hc, hleft⟩ := List.forall_mem_cons.mp hleft
    obtain ⟨hquote, hopen, -⟩ := plain_of_isBlank hc
    rw [List.cons_append] at h
    generalize left ++ cs = ds at h ih
    cases h with
    | plain _ _ _ hmore => exact ih hleft hmore
    | string _ _ => exact absurd rfl hquote
    | braces _ _ => exact absurd rfl hopen

theorem Balanced.of_concat (hc : isBlank c = true) (h : Balanced (cs ++ [c])) : Balanced cs := by
  obtain ⟨hquote, -, hclose⟩ := plain_of_isBlank hc
  generalize hds : cs ++ [c] = ds at h
  induction h generalizing cs with
  | nil => cases cs <;> cases hds
  | @plain d ds hquote hopen hclose _ ih =>
    cases cs with
    | nil => exact .nil
    | cons e cs =>
      cases hds
      exact .plain hquote hopen hclose (ih rfl)
  | @string body ds hbody _ ih =>
    rcases ds.eq_nil_or_concat' with rfl | ⟨ds, d, rfl⟩
    · have hsplit : cs ++ [c] = '"' :: body ++ ['"'] := hds
      cases (List.append_inj' hsplit rfl).2
      exact absurd rfl hquote
    · have hsplit : cs ++ [c] = '"' :: (body ++ '"' :: ds) ++ [d] := by simpa using hds
      obtain ⟨rfl, hlast⟩ := List.append_inj' hsplit rfl
      cases hlast
      exact .string hbody (ih rfl)
  | @braces inner ds hinner _ _ ih =>
    rcases ds.eq_nil_or_concat' with rfl | ⟨ds, d, rfl⟩
    · have hsplit : cs ++ [c] = '\x7b' :: inner ++ ['\x7d'] := hds
      cases (List.append_inj' hsplit rfl).2
      exact absurd rfl hclose
    · have hsplit : cs ++ [c] = '\x7b' :: (inner ++ '\x7d' :: ds) ++ [d] := by simpa using hds
      obtain ⟨rfl, hlast⟩ := List.append_inj' hsplit rfl
      cases hlast
      exact .braces hinner (ih rfl)

theorem Balanced.of_append_right (hright : ∀ c ∈ right, isBlank c = true)
    (h : Balanced (cs ++ right)) : Balanced cs := by
  induction right generalizing cs with
  | nil => rwa [List.append_nil] at h
  | cons c right ih =>
    obtain ⟨hc, hright⟩ := List.forall_mem_cons.mp hright
    rw [List.append_cons] at h
    exact (ih hright h).of_concat hc

/-- A body is a balanced and trimmed text between braces, with blanks around it. -/
theorem isBody_iff : IsBody text ↔ ∃ left body right,
    text = '\x7b' :: (left ++ (body ++ (right ++ ['\x7d']))) ∧ (∀ c ∈ left, isBlank c = true) ∧
      Balanced body ∧ trim body = body ∧ ∀ c ∈ right, isBlank c = true := by
  constructor
  · rintro ⟨inner, rfl, hinner⟩
    obtain ⟨left, right, heq, hleft, hright⟩ := exists_eq_trim inner
    refine ⟨left, trim inner, right, ?_, hleft, ?_, trim_trim inner, hright⟩
    · rw [← List.append_assoc (trim inner), ← List.append_assoc left, ← heq]
    · rw [heq] at hinner
      exact (hinner.of_append_left hleft).of_append_right hright
  · rintro ⟨left, body, right, rfl, hleft, hbody, -, hright⟩
    refine ⟨left ++ (body ++ right), by simp, ?_⟩
    exact (balanced_of_blanks hleft).append (hbody.append (balanced_of_blanks hright))

end Token

theorem stripBraces_eq {left body right : List Char} (hleft : ∀ c ∈ left, isBlank c = true)
    (hright : ∀ c ∈ right, isBlank c = true) (h : trim body = body) :
    stripBraces ('\x7b' :: (left ++ (body ++ (right ++ ['\x7d'])))) = body := by
  have htext : '\x7b' :: (left ++ (body ++ (right ++ ['\x7d']))) =
      '\x7b' :: (left ++ (body ++ right)) ++ ['\x7d'] := by simp
  have htrim : trim ('\x7b' :: (left ++ (body ++ right)) ++ ['\x7d']) =
      '\x7b' :: (left ++ (body ++ right)) ++ ['\x7d'] :=
    trim_eq_self_iff.mpr ⟨trimStart_cons_of_not_blank (by decide),
      trimEnd_concat_of_not_blank (by decide)⟩
  rw [htext, stripBraces, htrim]
  change (if (left ++ (body ++ right) ++ ['\x7d']).getLast? = some '\x7d' then
    trim (left ++ (body ++ right) ++ ['\x7d']).dropLast else _) = body
  rw [if_pos (List.getLast?_concat ..), List.dropLast_concat, trim_append hleft hright h]

/-! ## Embedded blocks -/

theorem word_iff_operation {word : List Char} :
    (word = "query".toList ∨ word = "mutation".toList) ↔ ∃ operation : Operation,
      word = operation.word := by
  constructor
  · rintro (rfl | rfl)
    · exact ⟨.query, rfl⟩
    · exact ⟨.mutation, rfl⟩
  · rintro ⟨_ | _, rfl⟩
    · exact .inl rfl
    · exact .inr rfl

theorem Operation.front (operation : Operation) :
    ∃ c cs, operation.word = c :: cs ∧ isIdentifierChar c = true := by
  cases operation <;> exact ⟨_, _, rfl, by decide⟩

theorem ofList_word_eq (operation : Operation) :
    (if String.ofList operation.word == "mutation" then Operation.mutation else .query) =
      operation := by
  cases operation <;> decide

theorem operandOf_gqlBlock {q q' q'' : Position} {word taken body : List Char} :
    operandOf (.mk .gqlBlock p text [.mk .gqlWord q taken [], .mk .gqlOperation q' word [],
      .mk .gqlBody q'' body []]) = .ok (.query ⟨if String.ofList word == "mutation" then .mutation
        else .query, String.ofList (stripBraces body)⟩) := rfl

theorem gqlBlock_sound (h : Takes Grammar.gqlBlock p nodes text rest) :
    ∃ node block, nodes = [node] ∧ operandOf node = .ok (.query block) ∧
      RendersValue p (.query block) text := by
  simp only [Grammar.gqlBlock, takes_rule, spaced_cons, spaced_singleton, takes_token_andThen,
    takes_gap_andThen, takes_token, word_eq_some_iff, operation_eq_some_iff, word_iff_operation,
    body_eq_some_iff, and_true] at h
  obtain ⟨_, rfl, _, _, _, rfl, rfl, ⟨rfl, hstops⟩, before, _, rfl, hbefore, _, _, _, rfl, rfl,
    ⟨⟨operation, rfl⟩, -⟩, behind, text, rfl, hbehind, rfl, hbody⟩ := h
  obtain ⟨left, body, right, rfl, hleft, hbody, htrim, hright⟩ := isBody_iff.mp hbody
  have hne : before ≠ [] := by
    rintro rfl
    cases operation <;> cases stops_cons.mp hstops
  have hbefore := isGap_of_gap hbefore (by simp)
  have hbehind := isGap_of_gap hbehind (by simp)
  refine ⟨_, _, rfl, operandOf_gqlBlock, ?_⟩
  rw [stripBraces_eq hleft hright htrim, ofList_word_eq]
  exact .query hbefore hne hbehind hleft hbody htrim hright

theorem gqlBlock_complete {block : GqlBlock} (h : RendersValue p (.query block) text) :
    ∃ node, Takes Grammar.gqlBlock p [node] text rest ∧ operandOf node = .ok (.query block) := by
  simp only [Grammar.gqlBlock, takes_rule, spaced_cons, spaced_singleton, takes_token_andThen,
    takes_gap_andThen, takes_token, word_eq_some_iff, operation_eq_some_iff, word_iff_operation,
    body_eq_some_iff, and_true]
  cases h with
  | operand h => cases h
  | @query operation before behind left body right hbefore hne hbehind hleft hbody htrim hright =>
    obtain ⟨c, cs, hword, hc⟩ := operation.front
    have htaken : IsBody ('\x7b' :: (left ++ (body ++ (right ++ ['\x7d'])))) :=
      isBody_iff.mpr ⟨left, body, right, rfl, hleft, hbody, htrim, hright⟩
    have hopen : Stops isDashedChar
        (behind ++ '\x7b' :: (left ++ (body ++ (right ++ ['\x7d']))) ++ rest) := by
      rw [List.append_assoc]
      exact stops_append hbehind (stops_cons.mpr (by decide))
    refine ⟨_, ⟨_, rfl, _, _, _, rfl, rfl, ⟨rfl, ?_⟩, before, _, rfl, ?_, _, _, _, rfl, rfl,
      ⟨⟨operation, rfl⟩, ?_⟩, behind, _, rfl, ?_, rfl, htaken⟩, ?_⟩
    · rw [List.append_assoc]
      exact (stops_of_gap hbefore hne).imp fun _ => isDashedChar_of_isIdentifierChar
    · refine gap_append hbefore ?_
      rw [hword]
      exact stopsGap_of_isIdentifierChar hc
    · exact hopen.imp fun _ => isDashedChar_of_isIdentifierChar
    · exact gap_append hbehind (stops_cons.mpr (by decide))
    · rw [operandOf_gqlBlock, stripBraces_eq hleft hright htrim, ofList_word_eq]

end ScriptForge.Script

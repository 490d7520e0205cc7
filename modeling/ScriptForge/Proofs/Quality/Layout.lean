import ScriptForge.Proofs.Quality.Matches
import ScriptForge.Proofs.Quality.Analysis
import ScriptForge.Proofs.Text.Lines

/-!
# Scripts with one statement on a line

`InLines script text` is about the usual layout of a script: a line opens the service, each line
behind it is empty or holds one statement with its semicolon, and a brace stands on the last line.
Such a text parses to the script (`InLines.parse_eq`), and each of its lines ends in a way that asks
for no terminator (`InLines.lineFindings_eq_nil`).
-/

namespace ScriptForge.Quality.TextCheck

open Text Script Script.Token

/-- Nothing but spaces. -/
def IsPadding (text : List Char) : Prop :=
  ∀ c ∈ text, c = ' '

/-- A line at a position, without its end: nothing, or a statement that a semicolon closes. There
may be spaces around it. -/
inductive Line (p : Position) : Option Statement → List Char → Prop
  | empty {indent : List Char} : IsPadding indent → Line p none indent
  | statement {indent text closing : List Char} {kind : StatementKind} :
      IsPadding indent → RendersKind (p.afterText indent) kind text → '\n' ∉ text →
      IsPadding closing →
      Line p (some ⟨kind, String.ofList (collapse text), true, p.afterText indent⟩)
        (indent ++ (text ++ (closing ++ [';'])))

/-- The statements on lines in a row, the first line at a position. -/
inductive Lines : Position → List Statement → List Char → Prop
  | nil {p : Position} : Lines p [] []
  | cons {p : Position} {statement? : Option Statement} {statements : List Statement}
      {line rest : List Char} : Line p statement? line →
      Lines (p.afterText (line ++ ['\n'])) statements rest →
      Lines p (statement?.toList ++ statements) (line ++ '\n' :: rest)

/-- The line that opens a service, without its end. -/
def openingLine (service : List Char) : List Char :=
  "service".toList ++ ' ' :: (service ++ [' ', '\x7b'])

/-- A script with one statement on a line at most. It has no comments, and `new` and `gql` are not
in its strings and bodies. -/
inductive InLines : Script → List Char → Prop
  | mk {service text final : List Char} {statements : List Statement} :
      IsName Char.isAlpha isHyphenatedChar service →
      Lines (Position.start.afterText (openingLine service ++ ['\n'])) statements text →
      final = [] ∨ final = ['\n'] → Legible (text ++ '\x7d' :: final) →
      InLines ⟨String.ofList service, statements⟩
        (openingLine service ++ '\n' :: (text ++ '\x7d' :: final))

section

variable {p : Position} {text rest padding line final : List Char} {statement? : Option Statement}
  {statements : List Statement} {script : Script}

/-! ## Parsing -/

theorem IsPadding.isGap (h : IsPadding padding) : IsGap padding := by
  induction padding with
  | nil => exact .nil
  | cons c padding ih =>
    obtain ⟨rfl, hmore⟩ := List.forall_mem_cons.mp h
    exact .space (by decide) (ih hmore)

theorem Lines.exists_gap (h : Lines p statements text) : ∃ gap more, text = gap ++ more ∧
    IsGap gap ∧ RendersStatements (p.afterText gap) statements more := by
  induction h with
  | nil => exact ⟨[], [], rfl, .nil, .nil⟩
  | @cons p statement? statements line rest hline _ ih =>
    obtain ⟨gap, more, rfl, hgap, hstatements⟩ := ih
    rw [← Position.afterText_append] at hstatements
    have hbreak : IsGap ('\n' :: gap) := .space (by decide) hgap
    cases hline with
    | empty hpadding =>
      refine ⟨line ++ '\n' :: gap, more, by simp, hpadding.isGap.append hbreak, ?_⟩
      simpa using hstatements
    | @statement indent text closing kind hindent hkind htext hclosing =>
      refine ⟨indent, text ++ ((closing ++ [';']) ++ (('\n' :: gap) ++ more)), by simp,
        hindent.isGap, .cons hkind (.semicolon hclosing.isGap) hbreak
          (fun hmissing => nomatch hmissing) ?_⟩
      rw [← Position.afterText_append]
      simpa using hstatements

theorem openingLine_append (service rest : List Char) : openingLine service ++ rest =
    "service".toList ++ ([' '] ++ (service ++ ([' '] ++ '\x7b' :: rest))) := by
  unfold openingLine
  generalize "service".toList = word
  simp

theorem isDashedName_of_isName {service : List Char}
    (h : IsName Char.isAlpha isHyphenatedChar service) : IsDashedName service := by
  obtain ⟨c, cs, rfl, hc, hcs⟩ := h
  exact ⟨c, cs, rfl, hc, fun d hd => isDashedChar_of_isHyphenatedChar (hcs d hd)⟩

theorem InLines.renders (h : InLines script text) : Renders script text := by
  cases h with
  | @mk service text final statements hservice hlines hfinal =>
    obtain ⟨gap, more, rfl, hgap, hstatements⟩ := hlines.exists_gap
    have hspace : IsGap [' '] := .space (by decide) .nil
    have hbreak : IsGap ('\n' :: gap) := .space (by decide) hgap
    have hfinal : IsFinalGap final := by
      rcases hfinal with rfl | rfl
      · exact .nil
      · exact .space (by decide) .nil
    have hopening : openingLine service ++ ['\n'] ++ gap =
        "service".toList ++ [' '] ++ service ++ [' '] ++ '\x7b' :: '\n' :: gap := by
      rw [List.append_assoc, openingLine_append]
      simp only [List.append_assoc, List.cons_append, List.nil_append]
    have htext : openingLine service ++ '\n' :: (gap ++ more ++ '\x7d' :: final) =
        "service".toList ++ ([' '] ++ (service ++ ([' '] ++ '\x7b' :: ('\n' :: gap ++ (more ++
          ['\x7d']))))) ++ final := by
      rw [openingLine_append]
      simp only [List.append_assoc, List.cons_append, List.nil_append]
    rw [← Position.afterText_append Position.start, hopening] at hstatements
    have hrenders := @RendersService.mk .start service [' '] [' '] ('\n' :: gap) more statements
      hspace (by simp) (isDashedName_of_isName hservice) hspace hbreak hstatements
    rw [htext]
    exact @Renders.mk ⟨String.ofList service, statements⟩ [] _ final .nil hrenders hfinal

/-- A script in lines parses. -/
theorem InLines.parse_eq {text : String} (h : InLines script text.toList) :
    parse text = .ok script :=
  parse_of_renders h.renders

/-! ## Line ends -/

theorem lineCode_of_isClosedLine {code : List Char} (htrim : trim line = code)
    (hclosed : isClosedLine code = true) (hcomment : ['/', '*'].isPrefixOf code = false) :
    lineCode false line = (none, false) := by
  simp [lineCode, htrim, hclosed, hcomment]

theorem IsPadding.isBlank (h : IsPadding padding) : ∀ c ∈ padding, isBlank c = true := by
  intro c hc
  rw [h c hc]
  decide

/-- Code that ends with a semicolon or a brace asks for no terminator. -/
theorem lineCode_append {c sign : Char} {code : List Char} (hpadding : IsPadding padding)
    (hc : isDashedChar c = true) (hsign : sign = ';' ∨ sign = '\x7b' ∨ sign = '\x7d') :
    lineCode false (padding ++ c :: (code ++ [sign])) = (none, false) := by
  have htrim : trim (c :: (code ++ [sign])) = c :: (code ++ [sign]) := by
    refine trim_eq_self_iff.mpr
      ⟨trimStart_cons_of_not_blank (not_isBlank_of_isDashedChar hc), ?_⟩
    rw [← List.cons_append]
    exact trimEnd_concat_of_not_blank (by rcases hsign with rfl | rfl | rfl <;> decide)
  have hclosed : isClosedLine (c :: (code ++ [sign])) = true := by
    have hsuffix : [sign] <:+ c :: (code ++ [sign]) := ⟨c :: code, by simp⟩
    rcases hsign with rfl | rfl | rfl <;> simp [isClosedLine, endsInAny, hsuffix]
  refine lineCode_of_isClosedLine ?_ hclosed ?_
  · have haround := @trim_append _ _ [] hpadding.isBlank (by simp) htrim
    rwa [List.append_nil] at haround
  · have hslash : '/' ≠ c := by
      rintro rfl
      cases hc
    simp [List.isPrefixOf, hslash]

theorem Line.lineCode_eq (h : Line p statement? line) : lineCode false line = (none, false) := by
  cases h with
  | empty hpadding =>
    have htrim : trim line = [] := by
      rw [trim, trimStart, List.dropWhile_eq_nil_iff.mpr hpadding.isBlank]
      rfl
    exact lineCode_of_isClosedLine htrim rfl rfl
  | @statement indent text closing kind hindent hkind htext hclosing =>
    obtain ⟨c, cs, rfl, hc⟩ := hkind.front
    have hdashed := isDashedChar_of_isIdentifierChar (isIdentifierChar_of_isAlpha hc)
    rw [List.cons_append, ← List.append_assoc cs]
    exact lineCode_append hindent hdashed (.inl rfl)

theorem IsPadding.not_mem {c : Char} (h : IsPadding padding) (hc : c ≠ ' ') : c ∉ padding :=
  fun hmem => hc (h c hmem)

theorem Line.not_mem (h : Line p statement? line) : '\n' ∉ line := by
  cases h with
  | empty hpadding => exact hpadding.not_mem (by decide)
  | statement hindent _ htext hclosing =>
    simp [hindent.not_mem, hclosing.not_mem, htext]

theorem Line.lines_append (h : Line p statement? line) :
    lines (line ++ '\n' :: rest) = line :: lines rest := by
  refine Text.lines_append h.not_mem fun c hc => ?_
  cases h with
  | empty hpadding =>
    rw [hpadding c (List.mem_of_getLast? hc)]
    decide
  | @statement indent text closing kind hindent hkind htext hclosing =>
    rw [← List.append_assoc, ← List.append_assoc, List.getLast?_concat] at hc
    cases hc
    decide

theorem Lines.lineFindings_append (h : Lines p statements text) (number : Nat) :
    ∃ last, lineFindings false number (lines (text ++ rest)) =
      lineFindings false last (lines rest) := by
  induction h generalizing number with
  | nil => exact ⟨number, rfl⟩
  | cons hline _ ih =>
    obtain ⟨last, hlast⟩ := ih (number + 1)
    refine ⟨last, ?_⟩
    rw [List.append_assoc, List.cons_append, hline.lines_append, lineFindings, hline.lineCode_eq]
    exact hlast

theorem openingLine_eq (service : List Char) :
    openingLine service = 's' :: ("ervice ".toList ++ service ++ [' '] ++ ['\x7b']) := by
  unfold openingLine
  simp

theorem not_mem_openingLine {service : List Char}
    (h : IsName Char.isAlpha isHyphenatedChar service) : '\n' ∉ openingLine service := by
  have hservice : '\n' ∉ service := by
    intro hmem
    cases (isDashedName_of_isName h).all _ hmem
  rw [openingLine_eq]
  simp [hservice]

theorem lines_openingLine {service : List Char} (h : IsName Char.isAlpha isHyphenatedChar service) :
    lines (openingLine service ++ '\n' :: rest) = openingLine service :: lines rest := by
  refine lines_append (not_mem_openingLine h) fun c hc => ?_
  rw [openingLine_eq, ← List.cons_append, List.getLast?_concat] at hc
  cases hc
  decide

/-- Nothing is reported on the ends of the lines. -/
theorem InLines.lineFindings_eq_nil (h : InLines script text) :
    lineFindings false 1 (lines text) = [] := by
  cases h with
  | @mk service text final statements hservice hlines hfinal =>
    obtain ⟨last, hlast⟩ := @Lines.lineFindings_append _ _ ('\x7d' :: final) _ hlines 2
    have hend : lines ('\x7d' :: final) = [['\x7d']] := by
      rcases hfinal with rfl | rfl <;> rfl
    have hopening : lineCode false (openingLine service) = (none, false) := by
      rw [openingLine_eq]
      exact @lineCode_append [] 's' _ _ (by simp [IsPadding]) (by decide) (.inr (.inl rfl))
    rw [lines_openingLine hservice, lineFindings, hopening]
    refine hlast.trans ?_
    rw [hend]
    rfl

end

end ScriptForge.Quality.TextCheck

import ScriptForge.Proofs.Script.StatementAttempts
import ScriptForge.Quality.Validator

/-!
# Where stray text is reported

Behind the statements of a service, which all have their semicolons, nothing may stand but another
statement, a gap or the closing brace. Text of which none of these starts is reported where it
starts: not inside the statements, although many rules are attempted in vain there, and not further
on (`stray_text_reported`).
-/

namespace ScriptForge.Quality

open Script Script.Token Text

variable {service : String} {front gap : List Char} {pieces : List Piece} {c : Char}

/-- **Stray text.** Text behind the front of a service and statements with their semicolons, laid
out in any way, that starts with no letter, no space, no slash and no closing brace, is no script.
The error is at the line and the column where this text starts, and the grammar reports it as its
only finding, at that line. -/
theorem stray_text_reported (hfront : RendersFront service front) (hgap : IsGap gap)
    (hproper : Proper (Position.start.afterText (front ++ gap)) pieces)
    (hclosed : ∀ piece ∈ pieces, piece.closing.isSome) (hspace : isSpace c = false)
    (hletter : c.isAlpha = false) (hbrace : c ≠ '\x7d') (hslash : c ≠ '/') (stray : List Char) :
    let written := front ++ (gap ++ pieces.flatMap Piece.whole)
    let text := written ++ c :: stray
    let place := placeAt text written.length
    ∃ expected finding,
      parse (String.ofList text) = .error (.unexpected place expected) ∧
      ((⟨.grammar⟩ : Validator).validate (String.ofList text)).findings = [finding] ∧
      finding.check = .form ∧ finding.line = some place.line := by
  intro written text place
  have hstops : startsNoGap c = true := by simp [startsNoGap, hspace, hslash]
  have hfails : Phrase.FailsAt Grammar.script .start text place := by
    have hplace : place = Position.start.afterText written := by
      rw [show place = placeAt text written.length from rfl, placeAt_eq, List.take_left]
    rw [hplace]
    exact script_failsAt hfront hgap hproper hclosed hletter hstops hbrace
  have hblank : ¬ allBlank (String.ofList text) = true := by
    rw [show text = front ++ (gap ++ pieces.flatMap Piece.whole ++ c :: stray) from
      List.append_assoc ..]
    exact not_allBlank_of_front hfront
  obtain ⟨expected, hparse⟩ : ∃ expected,
      parse (String.ofList text) = .error (.unexpected place expected) := by
    have hrefuses : (Grammar.script ⟨.start, text⟩).found = none := hfails.refuses
    refine ⟨(Grammar.script ⟨.start, text⟩).attempts.expected, ?_⟩
    rw [parse, if_neg hblank, String.toList_ofList]
    dsimp only
    rw [hrefuses, ← hfails.reach_eq]
    rfl
  refine ⟨expected, parseFinding (.unexpected place expected), hparse, ?_, rfl, rfl⟩
  simp only [Validator.validate, Verdict.ofFindings, Validator.findings, hparse]

/-- A question mark behind two statements and a comment is reported at the start of its line. -/
theorem question_mark_reported :
    ∃ expected finding,
      parse "service s \x7b\n  new a = true ; // ok\n  b.c/d(\"?\");\n? \x7d" =
        .error (.unexpected ⟨4, 1⟩ expected) ∧
      ((⟨.grammar⟩ : Validator).validate
        "service s \x7b\n  new a = true ; // ok\n  b.c/d(\"?\");\n? \x7d").findings = [finding] ∧
      finding.check = .form ∧ finding.line = some 4 := by
  have hspace : IsGap [' '] := .space (by decide) .nil
  have hname : ∀ {c : Char}, c.isAlpha = true → IsPlainName [c] :=
    fun hc => ⟨_, [], rfl, hc, by simp⟩
  have hfront : RendersFront "s" "service s \x7b".toList :=
    .mk .nil hspace (by simp) ⟨'s', [], rfl, by decide, by simp⟩ hspace
  have hdeclared : IsDeclaredName ['a'] :=
    (declaredName_eq_some_iff.mp (show declaredName ['a'] = some (['a'], []) by decide)).1
  have hcomment : IsGap " // ok\n  ".toList :=
    isGap_of_gap (show Token.gap (" // ok\n  ".toList ++ ['b']) = (" // ok\n  ".toList, ['b'])
      by decide) (by simp)
  have hbreak : IsGap "\n  ".toList :=
    isGap_of_gap (show Token.gap ("\n  ".toList ++ ['b']) = ("\n  ".toList, ['b']) by decide)
      (by simp)
  have hdeclaration : ∀ p, RendersKind p (.declaration "a" (.literal ⟨.boolean, "true"⟩))
      "new a = true".toList := fun p =>
    .declaration hdeclared hspace (by simp) hspace hspace
      (.operand (.literal (.boolean (.inl rfl))))
  have hcall : ∀ p, RendersKind p (.call ⟨"b", "c", "d"⟩ [.literal ⟨.string, "\"?\""⟩])
      "b.c/d(\"?\")".toList := fun p =>
    .call (.call (.mk ⟨'b', [], rfl, by decide, by simp⟩ (hname (by decide)) (hname (by decide)))
      .nil (.one .nil (.literal (.string ⟨['?'], rfl, .plain (by decide) (by decide) .nil⟩)) .nil))
  have hproper : ∀ p, Proper p [⟨_, "new a = true".toList, some [' '], " // ok\n  ".toList⟩,
      ⟨_, "b.c/d(\"?\")".toList, some [], ['\n']⟩] := fun p =>
    .cons (hdeclaration p) (by simpa using hspace) hcomment (by simp)
      (.cons (hcall _) (by simpa using .nil) (.space (by decide) .nil) (by simp) .nil)
  exact stray_text_reported hfront hbreak (hproper _) (by simp) (by decide) (by decide) (by decide)
    (by decide) " \x7d".toList

end ScriptForge.Quality

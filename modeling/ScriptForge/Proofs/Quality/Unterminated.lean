import ScriptForge.Proofs.Quality.Analysis
import ScriptForge.Proofs.Script.Releases
import Mathlib.Data.List.Basic

/-!
# What is reported when semicolons are missing

Of the four checks only one looks at semicolons. A script without those of some statements gives
the findings of the script that has them, and one more for each of the statements
(`validate_withoutSemicolons`).
-/

namespace ScriptForge.Quality

open Script

section

variable {chosen : Statement → Bool} (statement : Statement)

@[simp] theorem released_kind : (statement.released chosen).kind = statement.kind := by
  unfold Statement.released
  split <;> rfl

@[simp] theorem released_position :
    (statement.released chosen).position = statement.position := by
  unfold Statement.released
  split <;> rfl

@[simp] theorem terminationFinding_released :
    terminationFinding (statement.released chosen) = terminationFinding statement := by
  unfold Statement.released
  split <;> rfl

theorem released_terminated :
    (statement.released chosen).terminated = (statement.terminated && !chosen statement) := by
  unfold Statement.released
  split <;> simp [*]

end

section

variable (chosen : Statement → Bool) (script : Script)

theorem misnamed_released : misnamed (script.released chosen) = misnamed script := by
  simp [misnamed, released, List.flatMap_map]

theorem dataFlowFindings_released :
    dataFlowFindings (script.released chosen) = dataFlowFindings script := by
  simp [dataFlowFindings, released, references, declaredNames, List.flatMap_map,
    List.filterMap_map]

theorem gqlBodyFindings_released :
    gqlBodyFindings (script.released chosen) = gqlBodyFindings script := by
  simp [gqlBodyFindings, released, List.filterMap_map]

theorem unterminated_released : unterminated (script.released chosen) =
    (script.statements.filter fun statement =>
      !statement.terminated || chosen statement).map terminationFinding := by
  simp [unterminated, released, List.filter_map, Function.comp_def, released_terminated]

/-- The statements that lose their semicolons are those that are reported in addition. -/
theorem unterminated_released_perm : (unterminated (script.released chosen)).Perm
    (unterminated script ++ (script.statements.filter fun statement =>
      statement.terminated && chosen statement).map terminationFinding) := by
  have hparts := List.filter_append_perm (!Statement.terminated ·)
    (script.statements.filter fun statement => !statement.terminated || chosen statement)
  rw [List.filter_filter, List.filter_filter] at hparts
  have hold : (script.statements.filter fun statement =>
      !statement.terminated && (!statement.terminated || chosen statement)) =
        script.statements.filter (!Statement.terminated ·) := by
    refine List.filter_congr fun statement _ => ?_
    cases statement.terminated <;> simp
  have hnew : (script.statements.filter fun statement =>
      !(!statement.terminated) && (!statement.terminated || chosen statement)) =
        script.statements.filter fun statement => statement.terminated && chosen statement := by
    refine List.filter_congr fun statement _ => ?_
    cases statement.terminated <;> simp
  rw [hold, hnew] at hparts
  rw [unterminated_released, unterminated, ← List.map_append]
  exact hparts.symm.map terminationFinding

theorem unterminated_sublist_released :
    (unterminated script).Sublist (unterminated (script.released chosen)) := by
  rw [unterminated_released, unterminated]
  refine (List.monotone_filter_right _ fun statement hmissing => ?_).map _
  simp [hmissing]

/-! ## Findings -/

theorem analyze_released_perm : (analyze (script.released chosen)).Perm
    (analyze script ++ (script.statements.filter fun statement =>
      statement.terminated && chosen statement).map terminationFinding) := by
  simp only [analyze, namingFindings_eq, terminationFindings_eq, misnamed_released,
    dataFlowFindings_released, gqlBodyFindings_released, List.append_assoc]
  have hmore := unterminated_released_perm chosen script
  refine List.Perm.append_left _ ((hmore.append_right _).trans ?_)
  rw [List.append_assoc, ← List.append_assoc (dataFlowFindings script)]
  exact List.perm_append_comm.append_left _

theorem analyze_sublist_released :
    (analyze script).Sublist (analyze (script.released chosen)) := by
  simp only [analyze, namingFindings_eq, terminationFindings_eq, misnamed_released,
    dataFlowFindings_released, gqlBodyFindings_released]
  have hmore := unterminated_sublist_released chosen script
  exact (((List.Sublist.refl _).append hmore).append (List.Sublist.refl _)).append
    (List.Sublist.refl _)

end

/-- **Missing semicolons.** Where the semicolons of some statements are replaced by spaces, the
text parses to the same script but for the marks of these statements. The findings of the grammar
are those on the text as it was, and one finding for each statement that has lost its semicolon, at
the line of the statement and with its content. -/
theorem validate_withoutSemicolons {text : String} {script : Script} {spans : List Span}
    (hparse : parse text = .ok script) (hspans : LaidOut text.toList script spans)
    (chosen : Statement → Bool) :
    let lost := script.statements.filter fun statement =>
      statement.terminated && chosen statement
    parse (withoutSemicolons chosen script spans text) = .ok (script.released chosen) ∧
      ((⟨.grammar⟩ : Validator).validate text).findings.Sublist
        ((⟨.grammar⟩ : Validator).validate
          (withoutSemicolons chosen script spans text)).findings ∧
      ((⟨.grammar⟩ : Validator).validate
          (withoutSemicolons chosen script spans text)).findings.Perm
        (((⟨.grammar⟩ : Validator).validate text).findings ++ lost.map terminationFinding) ∧
      CiteEach .termination (lost.map terminationFinding) (lost.map .ofStatement) := by
  have hreleased := parse_withoutSemicolons hparse hspans chosen
  simp only [Validator.validate, Verdict.ofFindings, Validator.findings, hparse, hreleased]
  exact ⟨trivial, analyze_sublist_released chosen script, analyze_released_perm chosen script,
    citeEach_map terminationFinding_cites _⟩

theorem validate_without_any_semicolon :
    let text := "service s \x7b\n  new _a = gql query \x7b x; \x7d /* ; */ ;return \";\"; \x7d"
    ∃ script spans, parse text = .ok script ∧ LaidOut text.toList script spans ∧
      ((⟨.grammar⟩ : Validator).validate
          (withoutSemicolons (fun _ => true) script spans text)).findings.Perm
        (((⟨.grammar⟩ : Validator).validate text).findings ++
          (script.statements.filter fun statement =>
            statement.terminated && true).map terminationFinding) := by
  intro text
  have hparses : (parse text).toBool = true := by decide +kernel
  cases hparse : parse text with
  | ok script =>
    obtain ⟨spans, hspans⟩ := (renders_of_parse hparse).exists_spans
    have hfindings := validate_withoutSemicolons hparse hspans fun _ => true
    exact ⟨script, spans, rfl, hspans, hfindings.2.2.1⟩
  | error error =>
    rw [hparse] at hparses
    cases hparses

end ScriptForge.Quality

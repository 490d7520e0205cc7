import ScriptForge.Proofs.Quality.Citations
import ScriptForge.Proofs.Quality.Naming
import ScriptForge.Proofs.Script.Occurrences
import ScriptForge.Proofs.Script.Parses

/-!
# What the analysis reports

`Flawless` says what the four checks ask of a script and `Reported` which findings a script gives,
in which order, and what each of them cites. Both speak of every value in the tree, however deep it
stands. The walk through the tree meets every reference, so no undeclared name is missed; the check
of embedded blocks looks at the values of statements alone and misses none either, because in a
script that was parsed a block is never an argument (`reported_analyze`).

`validate_grammar` puts the parser and the checks together: a text is valid exactly if it parses to
a flawless script, and the findings are those reported on the script, or the error of the parser.
-/

namespace ScriptForge.Quality

open Script

/-! ## First uses -/

/-- A reference is the first one in a list to read its name. -/
def IsFirstUse (references : List Reference) (use : Reference) : Prop :=
  ∃ before behind, references = before ++ use :: behind ∧ ∀ other ∈ before, other.name ≠ use.name

section

variable {seen : List String} {references : List Reference} {first use : Reference}

theorem isFirstUse_cons_iff : IsFirstUse (first :: references) use ↔
    use = first ∨ first.name ≠ use.name ∧ IsFirstUse references use := by
  constructor
  · rintro ⟨before, behind, heq, hbefore⟩
    cases before with
    | nil => exact .inl (List.cons.inj heq).1.symm
    | cons _ before =>
      obtain ⟨rfl, rfl⟩ := List.cons.inj heq
      obtain ⟨hne, hbefore⟩ := List.forall_mem_cons.mp hbefore
      exact .inr ⟨hne, before, behind, rfl, hbefore⟩
  · rintro (rfl | ⟨hne, before, behind, rfl, hbefore⟩)
    · exact ⟨[], references, rfl, by simp⟩
    · exact ⟨first :: before, behind, rfl, List.forall_mem_cons.mpr ⟨hne, hbefore⟩⟩

/-- Every name that is read is read for a first time. -/
theorem exists_isFirstUse (h : use ∈ references) :
    ∃ first, IsFirstUse references first ∧ first.name = use.name := by
  induction references with
  | nil => cases h
  | cons other rest ih =>
    by_cases hname : other.name = use.name
    · exact ⟨other, isFirstUse_cons_iff.mpr (.inl rfl), hname⟩
    · have hmem : use ∈ rest := (List.mem_cons.mp h).resolve_left fun heq => hname (heq ▸ rfl)
      obtain ⟨first, hfirst, heq⟩ := ih hmem
      exact ⟨first, isFirstUse_cons_iff.mpr (.inr ⟨heq ▸ hname, hfirst⟩), heq⟩

/-- A name that was seen ahead of the list has no first use in it. -/
theorem mem_firstUses_iff :
    use ∈ firstUses seen references ↔ use.name ∉ seen ∧ IsFirstUse references use := by
  induction references generalizing seen with
  | nil => simp [firstUses, IsFirstUse]
  | cons first rest ih =>
    rw [firstUses, isFirstUse_cons_iff]
    split
    · have hseen : first.name ∈ seen := List.contains_iff_mem.mp ‹_›
      rw [ih]
      refine and_congr_right fun hnot => ?_
      have hne : first.name ≠ use.name := fun heq => hnot (heq ▸ hseen)
      have hother : use ≠ first := fun heq => hne (heq ▸ rfl)
      simp only [hother, hne, ne_eq, not_false_eq_true, true_and, false_or]
    · have hseen : first.name ∉ seen := fun hmem => ‹¬_› (List.contains_iff_mem.mpr hmem)
      rw [List.mem_cons, ih, List.mem_cons, not_or]
      constructor
      · rintro (rfl | ⟨⟨hne, hnot⟩, hfirst⟩)
        · exact ⟨hseen, .inl rfl⟩
        · exact ⟨hnot, .inr ⟨Ne.symm hne, hfirst⟩⟩
      · rintro ⟨hnot, rfl | ⟨hne, hfirst⟩⟩
        · exact .inl rfl
        · exact .inr ⟨⟨Ne.symm hne, hnot⟩, hfirst⟩

theorem firstUses_sublist : (firstUses seen references).Sublist references := by
  induction references generalizing seen with
  | nil => exact .slnil
  | cons first rest ih =>
    rw [firstUses]
    split
    · exact ih.cons first
    · exact ih.cons_cons first

theorem nodup_firstUses : ((firstUses seen references).map Reference.name).Nodup := by
  induction references generalizing seen with
  | nil => exact List.nodup_nil
  | cons first rest ih =>
    rw [firstUses]
    split
    · exact ih
    · refine List.nodup_cons.mpr ⟨fun hmem => ?_, ih⟩
      obtain ⟨use, huse, hname⟩ := List.mem_map.mp hmem
      exact (mem_firstUses_iff.mp huse).1 (hname ▸ List.mem_cons_self)

end

/-- The uses are the first ones of the names that the script reads and never declares, one for each
name, in source order. -/
structure AreUndeclared (script : Script) (uses : List Reference) : Prop where
  ordered : uses.Sublist script.references
  distinct : (uses.map Reference.name).Nodup
  first : ∀ use ∈ uses, IsFirstUse script.references use
  undeclared : ∀ use ∈ uses, ¬ script.Declares use.name
  complete : ∀ use, script.Contains (.reference use) → ¬ script.Declares use.name →
    use.name ∈ uses.map Reference.name

theorem areUndeclared_firstUses (script : Script) :
    AreUndeclared script ((firstUses [] script.references).filter fun use =>
      !script.declaredNames.contains use.name) := by
  have hfilter {use : Reference} :
      (!script.declaredNames.contains use.name) = true ↔ ¬ script.Declares use.name := by
    rw [Bool.not_eq_true', ← Bool.not_eq_true, List.contains_iff_mem, mem_declaredNames_iff]
  refine ⟨List.filter_sublist.trans firstUses_sublist,
    nodup_firstUses.sublist (List.filter_sublist.map _), fun use huse => ?_, fun use huse => ?_,
    fun use hcontains hundeclared => ?_⟩
  · exact (mem_firstUses_iff.mp (List.mem_of_mem_filter huse)).2
  · exact hfilter.mp (List.mem_filter.mp huse).2
  · obtain ⟨first, hfirst, hname⟩ := exists_isFirstUse (mem_references_iff.mpr hcontains)
    refine List.mem_map.mpr ⟨first, List.mem_filter.mpr ⟨?_, ?_⟩, hname⟩
    · exact mem_firstUses_iff.mpr ⟨List.not_mem_nil, hfirst⟩
    · exact hfilter.mpr (hname ▸ hundeclared)

/-! ## Groups of findings -/

/-- The findings on declared names that break the convention, in source order. -/
def misnamed (script : Script) : List Finding :=
  script.statements.flatMap fun statement =>
    (statement.kind.declared?.toList.filter (¬ Conventional ·)).map
      (namingFinding · statement.position.line)

/-- The findings on statements without their semicolons, in source order. -/
def unterminated (script : Script) : List Finding :=
  (script.statements.filter (!·.terminated)).map terminationFinding

/-- The findings on blocks that select nothing, wherever they stand, in source order. -/
def unselecting (script : Script) : List Finding :=
  script.statements.flatMap fun statement =>
    (statement.kind.last.blocks.filter (Text.allBlank ·.body)).map
      (gqlBodyFinding ·.operation statement.position.line)

/-- The declared names that break the convention, where they are declared, in source order. -/
def misnamedPlaces (script : Script) : List Place :=
  script.statements.flatMap fun statement =>
    (statement.kind.declared?.toList.filter (¬ Conventional ·)).map
      (.ofName statement.position.line)

/-- The statements without their semicolons, in source order. -/
def unterminatedPlaces (script : Script) : List Place :=
  (script.statements.filter (!·.terminated)).map .ofStatement

/-- The blocks that select nothing, each at the line of its statement, in source order. -/
def unselectingPlaces (script : Script) : List Place :=
  script.statements.flatMap fun statement =>
    (statement.kind.last.blocks.filter (Text.allBlank ·.body)).map
      (.ofBlock statement.position.line ·.operation)

/-- The findings on a script, group by group, with the places that the findings of each group cite.
A variable is cited where it is read first. -/
inductive Reported (script : Script) : List Finding → Prop
  | mk {uses : List Reference} :
      AreUndeclared script uses →
      CiteEach .naming (misnamed script) (misnamedPlaces script) →
      CiteEach .termination (unterminated script) (unterminatedPlaces script) →
      CiteEach .dataFlow (uses.map dataFlowFinding) (uses.map .ofUse) →
      CiteEach .gqlBody (unselecting script) (unselectingPlaces script) →
      Reported script
        (misnamed script ++ unterminated script ++ uses.map dataFlowFinding ++ unselecting script)

/-- What the four checks ask of a script. -/
structure Flawless (script : Script) : Prop where
  conventional : ∀ name, script.Declares name → Conventional name
  terminated : ∀ statement ∈ script.statements, statement.terminated = true
  declared : ∀ use, script.Contains (.reference use) → script.Declares use.name
  selecting : ∀ block, script.Contains (.query block) → ¬ Text.allBlank block.body = true

theorem citeEach_misnamed (script : Script) :
    CiteEach .naming (misnamed script) (misnamedPlaces script) := by
  unfold misnamed misnamedPlaces
  refine citeEach_flatMap (fun statement => citeEach_map (fun name => ?_) _) _
  exact namingFinding_cites name statement.position.line

theorem citeEach_unterminated (script : Script) :
    CiteEach .termination (unterminated script) (unterminatedPlaces script) :=
  citeEach_map terminationFinding_cites _

theorem citeEach_unselecting (script : Script) :
    CiteEach .gqlBody (unselecting script) (unselectingPlaces script) := by
  unfold unselecting unselectingPlaces
  refine citeEach_flatMap (fun statement => citeEach_map (fun block => ?_) _) _
  exact gqlBodyFinding_cites block.operation statement.position.line

/-- The stops of a walk that are picked out, statement by statement. -/
theorem filterMap_visits {α : Type} (pick : Visit → Option α) (script : Script) :
    script.visits.filterMap pick = script.statements.flatMap fun statement =>
      (pick (.statement statement)).toList ++
        ((statement.kind.declared?.toList.filterMap fun name =>
            pick (.declaration name statement.position)) ++
          statement.kind.references.filterMap fun use => pick (.usage use)) := by
  rw [visits, List.filterMap_flatMap]
  congr 1
  funext statement
  rw [Statement.visits, List.cons_append, List.filterMap_cons, List.filterMap_append,
    List.filterMap_map, List.filterMap_map]
  cases pick (.statement statement) <;> rfl

theorem namingFindings_eq (script : Script) : namingFindings script = misnamed script := by
  rw [namingFindings, filterMap_visits, misnamed]
  congr 1
  funext statement
  cases hname : statement.kind.declared? with
  | none => simp
  | some name => by_cases h : Conventional name <;> simp [h, isConventional_iff]

theorem terminationFindings_eq (script : Script) :
    terminationFindings script = unterminated script := by
  rw [terminationFindings, filterMap_visits, unterminated]
  induction script.statements with
  | nil => rfl
  | cons statement statements ih =>
    rw [List.flatMap_cons, ih]
    cases h : statement.terminated <;> simp [h]

theorem gqlBodyFindings_eq {script : Script}
    (h : ∀ statement ∈ script.statements,
      statement.kind.last.blocks = (statement.kind.value?.bind Expression.block?).toList) :
    gqlBodyFindings script = unselecting script := by
  rw [gqlBodyFindings, List.filterMap_eq_flatMap_toList, unselecting]
  refine List.flatMap_congr fun statement hmem => ?_
  rw [h statement hmem]
  cases hvalue : statement.kind.value? with
  | none => rfl
  | some value =>
    cases value with
    | query block => by_cases hblank : Text.allBlank block.body <;> simp [Expression.block?, hblank]
    | _ => rfl

/-- The analysis of a script that was parsed. -/
theorem reported_analyze {text : String} {script : Script} (h : Script.parse text = .ok script) :
    Reported script (analyze script) := by
  have hblocks : ∀ statement ∈ script.statements,
      statement.kind.last.blocks = (statement.kind.value?.bind Expression.block?).toList := by
    intro statement hmem
    obtain ⟨q, cs, hkind⟩ := (renders_of_parse h).mem hmem
    exact hkind.blocks_eq
  rw [analyze, namingFindings_eq, terminationFindings_eq, gqlBodyFindings_eq hblocks]
  exact .mk (areUndeclared_firstUses script) (citeEach_misnamed script)
    (citeEach_unterminated script) (citeEach_map dataFlowFinding_cites _)
    (citeEach_unselecting script)

/-! ## Findings of the grammar -/

section

variable {text : String}

theorem grammar_findings_of_ok {script : Script} (h : parse text = .ok script) :
    ((⟨.grammar⟩ : Validator).validate text).findings = analyze script := by
  simp only [Validator.validate, Verdict.ofFindings, Validator.findings, h]

theorem grammar_findings_of_error {error : ParseError} (h : parse text = .error error) :
    ((⟨.grammar⟩ : Validator).validate text).findings = [parseFinding error] := by
  simp only [Validator.validate, Verdict.ofFindings, Validator.findings, h]

end

/-! ## Valid scripts -/

section

variable {script : Script}

theorem AreUndeclared.eq_nil_iff {uses : List Reference} (h : AreUndeclared script uses) :
    uses = [] ↔ ∀ use, script.Contains (.reference use) → script.Declares use.name := by
  constructor
  · rintro rfl use hcontains
    by_contra hundeclared
    cases h.complete use hcontains hundeclared
  · intro hdeclared
    refine List.eq_nil_iff_forall_not_mem.mpr fun use huse => h.undeclared use huse ?_
    exact hdeclared use (mem_references_iff.mp (h.ordered.subset huse))

theorem misnamed_eq_nil_iff :
    misnamed script = [] ↔ ∀ name, script.Declares name → Conventional name := by
  simp only [misnamed, List.flatMap_eq_nil_iff, List.map_eq_nil_iff, List.filter_eq_nil_iff,
    Option.mem_toList, decide_eq_true_eq, Classical.not_not, Declares]
  constructor
  · rintro h name ⟨statement, hmem, hname⟩
    exact h statement hmem name hname
  · intro h statement hmem name hname
    exact h name ⟨statement, hmem, hname⟩

theorem unterminated_eq_nil_iff : unterminated script = [] ↔
    ∀ statement ∈ script.statements, statement.terminated = true := by
  simp only [unterminated, List.map_eq_nil_iff, List.filter_eq_nil_iff, Bool.not_eq_true',
    Bool.not_eq_false]

theorem unselecting_eq_nil_iff : unselecting script = [] ↔
    ∀ block, script.Contains (.query block) → ¬ Text.allBlank block.body = true := by
  simp only [unselecting, List.flatMap_eq_nil_iff, List.map_eq_nil_iff, List.filter_eq_nil_iff,
    mem_blocks_iff, Contains]
  constructor
  · rintro h block ⟨statement, hmem, hblock⟩
    exact h statement hmem block hblock
  · intro h statement hmem block hblock
    exact h block ⟨statement, hmem, hblock⟩

/-- Nothing is reported exactly on flawless scripts. -/
theorem Reported.eq_nil_iff {findings : List Finding} (h : Reported script findings) :
    findings = [] ↔ Flawless script := by
  obtain ⟨huses, -, -, -, -⟩ := h
  rw [List.append_eq_nil_iff, List.append_eq_nil_iff, List.append_eq_nil_iff, misnamed_eq_nil_iff,
    unterminated_eq_nil_iff, List.map_eq_nil_iff, huses.eq_nil_iff, unselecting_eq_nil_iff]
  constructor
  · rintro ⟨⟨⟨hconventional, hterminated⟩, hdeclared⟩, hselecting⟩
    exact ⟨hconventional, hterminated, hdeclared, hselecting⟩
  · rintro ⟨hconventional, hterminated, hdeclared, hselecting⟩
    exact ⟨⟨⟨hconventional, hterminated⟩, hdeclared⟩, hselecting⟩

end

/-- **The verdict of the grammar.** A text is valid exactly if it parses to a flawless script. On a
script the findings are those of the four checks, and each cites the line and the name, the
statement or the block that it is about; on any other text there is the error of the parser and
nothing else. -/
theorem validate_grammar (text : String) :
    (((⟨.grammar⟩ : Validator).validate text).valid = true ↔
        ∃ script, Script.parse text = .ok script ∧ Flawless script) ∧
      match Script.parse text with
      | .ok script => Reported script ((⟨.grammar⟩ : Validator).validate text).findings
      | .error error =>
        ((⟨.grammar⟩ : Validator).validate text).findings = [parseFinding error] ∧
          (parseFinding error).check = .form := by
  simp only [Validator.validate, Verdict.ofFindings, Validator.findings, List.isEmpty_iff]
  cases hparse : Script.parse text with
  | error error => simp [check_parseFinding]
  | ok script =>
    have hreported := reported_analyze hparse
    refine ⟨?_, hreported⟩
    dsimp only
    rw [hreported.eq_nil_iff]
    constructor
    · exact fun h => ⟨script, rfl, h⟩
    · rintro ⟨_, ⟨⟩, h⟩
      exact h

end ScriptForge.Quality

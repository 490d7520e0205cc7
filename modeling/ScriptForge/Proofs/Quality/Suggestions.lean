import ScriptForge.Proofs.Quality.DeclaredNames
import ScriptForge.Proofs.Script.Renaming

/-!
# Suggested names

A name that breaks the convention gets a suggestion: its letters and digits, and eight digits behind
them. Which digits these are does not matter (`pattern_append_iff`). What matters is the first of
the letters and digits of the name. If it is a letter, the suggestion follows the convention, and
who follows the suggestion is rid of the findings on the name (`misnamed_following`). A name of
underscores and dashes alone, or with a digit behind them, gets a suggestion that starts with a
digit: this breaks the convention again, and no script may declare it.
-/

namespace ScriptForge.Quality

open Script Script.Token

/-! ## Digits of a hash -/

theorem isDigit_hashDigit (b : UInt8) : (hashDigit b).isDigit = true := by
  have hdigit : ∀ n < 10, (Char.ofNat ('0'.toNat + n)).isDigit = true := by decide
  exact hdigit _ (Nat.mod_lt _ (by decide))

theorem length_suffixDigits (name : String) : (suffixDigits name).length = 8 := by
  simp [suffixDigits]

theorem isDigit_suffixDigits (name : String) : ∀ d ∈ suffixDigits name, d.isDigit = true := by
  intro d hd
  obtain ⟨b, -, rfl⟩ := List.mem_map.mp hd
  exact isDigit_hashDigit b

/-! ## Names with eight digits behind them -/

/-- The first letter or digit in a name is a letter. -/
def LetterFirst (name : List Char) : Prop :=
  ∃ front c back, name = front ++ c :: back ∧ (∀ d ∈ front, d.isAlphanum = false) ∧
    c.isAlpha = true

section

variable {name stem digits : List Char}

theorem letterFirst_iff :
    LetterFirst name ↔ ∃ c ∈ (name.filter Char.isAlphanum).head?, c.isAlpha = true := by
  constructor
  · rintro ⟨front, c, back, rfl, hfront, hc⟩
    have hnone : front.filter Char.isAlphanum = [] := by simpa using hfront
    refine ⟨c, ?_, hc⟩
    rw [List.filter_append, hnone, List.nil_append,
      List.filter_cons_of_pos (isAlphanum_of_isAlpha hc)]
    rfl
  · rintro ⟨c, hhead, hc⟩
    obtain ⟨back, hstem⟩ : ∃ back, name.filter Char.isAlphanum = c :: back :=
      List.head?_eq_some_iff.mp hhead
    obtain ⟨front, behind, rfl, hfront, -, -⟩ := List.filter_eq_cons_iff.mp hstem
    exact ⟨front, c, behind, rfl, by simpa using hfront, hc⟩

/-- Letters and digits with eight digits behind them match the pattern if a letter comes first. -/
theorem pattern_append_iff (hstem : ∀ c ∈ stem, c.isAlphanum = true) (hlength : digits.length = 8)
    (hdigits : ∀ d ∈ digits, d.isDigit = true) :
    Pattern (stem ++ digits) ↔ ∃ c ∈ stem.head?, c.isAlpha = true := by
  cases stem with
  | nil =>
    -- eight characters are too few
    refine ⟨fun h => ?_, fun ⟨_, hc, _⟩ => nomatch hc⟩
    obtain ⟨c, middle, last, heq, -, -, hlast, -⟩ := h
    have hcount := congrArg List.length heq
    simp only [List.nil_append, List.length_cons, List.length_append] at hcount
    omega
  | cons c stem =>
    constructor
    · rintro ⟨d, middle, last, heq, hd, -⟩
      obtain ⟨rfl, -⟩ := List.cons.inj heq
      exact ⟨c, rfl, hd⟩
    · rintro ⟨_, ⟨⟩, hc⟩
      exact ⟨c, stem, digits, rfl, hc, (List.forall_mem_cons.mp hstem).2, hlength, hdigits⟩

/-- Whatever the eight digits are, the first letter or digit of the name decides. -/
theorem conventional_ofList_iff (hlength : digits.length = 8)
    (hdigits : ∀ d ∈ digits, d.isDigit = true) :
    Conventional (String.ofList (name.filter Char.isAlphanum ++ digits)) ↔ LetterFirst name := by
  rw [conventional_iff_pattern, String.toList_ofList, letterFirst_iff]
  exact pattern_append_iff (fun c hc => (List.mem_filter.mp hc).2) hlength hdigits

end

theorem conventional_suggestedName_iff (name : String) :
    Conventional (suggestedName name) ↔ LetterFirst name.toList :=
  conventional_ofList_iff (length_suffixDigits name) (isDigit_suffixDigits name)

/-- A suggestion that breaks the convention starts with a digit, and may not be declared. -/
theorem not_isDeclaredName_suggestedName {name : String} (h : ¬ LetterFirst name.toList) :
    ¬ IsDeclaredName (suggestedName name).toList := by
  intro hdeclared
  obtain ⟨c, cs, heq, hc, -⟩ := hdeclared.1
  rw [suggestedName, String.toList_ofList] at heq
  cases hstem : name.toList.filter Char.isAlphanum with
  | nil =>
    have hdigit : c.isDigit = true := by
      refine isDigit_suffixDigits name c ?_
      rw [hstem, List.nil_append] at heq
      rw [heq]
      exact List.mem_cons_self
    have hletter : c.isAlpha = true ∨ c = '_' := by simpa using hc
    rcases hletter with hletter | rfl
    · exact not_isAlpha_of_isDigit hdigit hletter
    · cases hdigit
  | cons d stem =>
    rw [hstem] at heq
    obtain ⟨rfl, -⟩ := List.cons.inj heq
    have halphanumeric : d.isAlphanum = true := by
      have hmem : d ∈ name.toList.filter Char.isAlphanum := hstem ▸ List.mem_cons_self
      exact (List.mem_filter.mp hmem).2
    have hletter : d.isAlpha = true ∨ d = '_' := by simpa using hc
    rcases hletter with hletter | rfl
    · exact h (letterFirst_iff.mpr ⟨d, by rw [hstem]; rfl, hletter⟩)
    · cases halphanumeric

/-! ## Following a suggestion -/

/-- The new names of variables if the suggestion for one of them is followed. -/
def following (name other : String) : String :=
  if other = name then suggestedName name else other

theorem namingFinding_message_inj {name other : String} {line line' : Nat} :
    (namingFinding name line).message = (namingFinding other line').message ↔ name = other := by
  constructor
  · intro h
    have hname : toString name = toString other := by simpa [namingFinding] using h
    exact hname
  · rintro rfl
    rfl

theorem misnamed_renamed (f : String → String) (script : Script) :
    misnamed (script.renamed f) = script.statements.flatMap fun statement =>
      (statement.kind.declared?.toList.filter fun name => ¬ Conventional (f name)).map
        fun name => namingFinding (f name) statement.position.line := by
  rw [misnamed, renamed, List.flatMap_map]
  refine List.flatMap_congr fun statement _ => ?_
  rw [Statement.renamed, StatementKind.declared?_renamed]
  cases statement.kind.declared? with
  | none => rfl
  | some name => by_cases h : Conventional (f name) <;> simp [h]

variable {name : String} {script : Script}

/-- Who follows a suggestion that keeps to the convention is rid of the findings on the name. -/
theorem misnamed_following (h : Conventional (suggestedName name)) (script : Script) :
    misnamed (script.renamed (following name)) =
      (misnamed script).filter (·.message ≠ (namingFinding name 0).message) := by
  rw [misnamed_renamed, misnamed, List.filter_flatMap]
  refine List.flatMap_congr fun statement _ => ?_
  cases statement.kind.declared? with
  | none => rfl
  | some other =>
    by_cases hsame : other = name
    · subst hsame
      by_cases hother : Conventional other <;>
        simp [following, h, hother, namingFinding_message_inj]
    · by_cases hother : Conventional other <;>
        simp [following, hsame, hother, namingFinding_message_inj]

/-- Who follows one that breaks the convention gets a finding on the new name. -/
theorem mem_misnamed_following (h : ¬ Conventional (suggestedName name))
    (hname : script.Declares name) :
    ∃ line, namingFinding (suggestedName name) line ∈
      misnamed (script.renamed (following name)) := by
  obtain ⟨statement, hmem, hdeclared⟩ := hname
  refine ⟨statement.position.line, ?_⟩
  rw [misnamed_renamed]
  refine List.mem_flatMap.mpr ⟨statement, hmem, ?_⟩
  simp [hdeclared, following, h]

/-- **Suggested names.** A declared name that breaks the convention is reported, and its letters and
digits with eight digits behind them are suggested in its place. Whatever the digits are, this
follows the convention exactly if the first letter or digit of the name is a letter. Then who
follows the suggestion is rid of the findings on the name, and has the others as before. Otherwise
the suggested name may not be declared, and who declares it all the same gets a finding again. -/
theorem suggested_name_of_declared {text : String} (hparse : parse text = .ok script)
    (hname : script.Declares name) (hbad : ¬ Conventional name) :
    (∃ line, namingFinding name line ∈ ((⟨.grammar⟩ : Validator).validate text).findings ∧
      (namingFinding name line).Cites .naming (.ofName line name) ∧
      (namingFinding name line).Suggests (suggestedName name)) ∧
    (∀ digits : List Char, digits.length = 8 → (∀ d ∈ digits, d.isDigit = true) →
      (Conventional (String.ofList (name.toList.filter Char.isAlphanum ++ digits)) ↔
        LetterFirst name.toList)) ∧
    (Conventional (suggestedName name) ↔ LetterFirst name.toList) ∧
    (LetterFirst name.toList → namingFindings (script.renamed (following name)) =
      (namingFindings script).filter (·.message ≠ (namingFinding name 0).message)) ∧
    (¬ LetterFirst name.toList → ¬ IsDeclaredName (suggestedName name).toList ∧
      ∃ line, namingFinding (suggestedName name) line ∈
        namingFindings (script.renamed (following name))) := by
  refine ⟨?_, fun _ => conventional_ofList_iff, conventional_suggestedName_iff name,
    fun hletter => ?_, fun hletter => ⟨not_isDeclaredName_suggestedName hletter, ?_⟩⟩
  · obtain ⟨statement, hmem, hdeclared⟩ := hname
    refine ⟨statement.position.line, ?_, namingFinding_cites name _,
      namingFinding_suggests name _⟩
    rw [grammar_findings_of_ok hparse, analyze, namingFindings_eq, List.append_assoc,
      List.append_assoc]
    refine List.mem_append_left _ (List.mem_flatMap.mpr ⟨statement, hmem, ?_⟩)
    simp [hdeclared, hbad]
  · rw [namingFindings_eq, namingFindings_eq]
    exact misnamed_following ((conventional_suggestedName_iff name).mpr hletter) script
  · rw [namingFindings_eq]
    exact mem_misnamed_following (mt (conventional_suggestedName_iff name).mp hletter) hname

theorem declares_singleton {service : String} {statement : Statement}
    (h : statement.kind.declared? = some name) : Script.Declares ⟨service, [statement]⟩ name :=
  ⟨statement, List.mem_singleton_self statement, h⟩

/-- A dash is left out of a suggestion, and who follows it is rid of the finding. -/
theorem suggestion_for_order_id :
    let text := "service a \x7b new order-id = 1; \x7d"
    ∃ script, parse text = .ok script ∧ script.Declares "order-id" ∧
      (∃ line, namingFinding "order-id" line ∈
          ((⟨.grammar⟩ : Validator).validate text).findings ∧
        (namingFinding "order-id" line).Cites .naming (.ofName line "order-id") ∧
        (namingFinding "order-id" line).Suggests (suggestedName "order-id")) ∧
      Conventional (suggestedName "order-id") ∧
      namingFindings (script.renamed (following "order-id")) = [] := by
  intro text
  obtain ⟨content, hparse⟩ := @parse_declaring "order-id".toList (by decide)
  rw [show String.ofList (TextCheck.oneLine ['a'] "order-id".toList []) = text by decide,
    String.ofList_toList] at hparse
  have hletter : LetterFirst "order-id".toList :=
    ⟨[], 'o', "rder-id".toList, by decide, by simp, by decide⟩
  obtain ⟨hreported, -, hsuggested, hrid, -⟩ :=
    suggested_name_of_declared hparse (declares_singleton rfl) (by decide)
  refine ⟨_, hparse, declares_singleton rfl, hreported, hsuggested.mpr hletter,
    (hrid hletter).trans ?_⟩
  have hbad : ¬ Conventional "order-id" := by decide
  simp [namingFindings_eq, misnamed, StatementKind.declared?, hbad, namingFinding_message_inj]

/-- Nothing is left of an underscore: eight digits are suggested, which no name may consist of. -/
theorem suggestion_for_underscore :
    let text := "service a \x7b new _ = 1; \x7d"
    ∃ script, parse text = .ok script ∧ script.Declares "_" ∧ ¬ Conventional "_" ∧
      ¬ Conventional (suggestedName "_") ∧ ¬ IsDeclaredName (suggestedName "_").toList ∧
      namingFindings (script.renamed (following "_")) ≠ [] := by
  intro text
  obtain ⟨script, hparse, hdeclares⟩ : ∃ script, parse text = .ok script ∧
      script.Declares "_" := by
    obtain ⟨content, hparse⟩ := @parse_declaring "_".toList (by decide)
    rw [show String.ofList (TextCheck.oneLine ['a'] "_".toList []) = text by decide,
      String.ofList_toList] at hparse
    exact ⟨_, hparse, declares_singleton rfl⟩
  have hletter : ¬ LetterFirst "_".toList := by
    rw [letterFirst_iff, show "_".toList.filter Char.isAlphanum = [] by decide]
    rintro ⟨c, ⟨⟩, -⟩
  have hsuggested : ¬ Conventional (suggestedName "_") :=
    mt (conventional_suggestedName_iff "_").mp hletter
  refine ⟨script, hparse, hdeclares, by decide, hsuggested,
    not_isDeclaredName_suggestedName hletter, ?_⟩
  obtain ⟨line, hmem⟩ := mem_misnamed_following hsuggested hdeclares
  rw [namingFindings_eq]
  exact List.ne_nil_of_mem hmem

end ScriptForge.Quality

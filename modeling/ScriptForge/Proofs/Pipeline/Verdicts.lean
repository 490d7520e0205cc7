import ScriptForge.Pipeline.Review
import ScriptForge.Proofs.Text.Lines
import ScriptForge.Proofs.Text.Search

/-!
# Verdicts on reviews

The verdict by keyword goes by how a review starts. Only a short review that starts with no keyword
is searched for words that mention a problem, and these are not the words that a failing review
starts with. So a review that says further on that something fails may pass, if it is short and does
not call it an error (`mentioned_failure_iff`).

The verdict by tag goes by the last tagged line of a review and by nothing else
(`byTag_of_last_tag`). The tagged lines of two texts with a line feed between them are those of each
of the two, whatever stands at the ends of the texts (`tagValues_append`).
-/

namespace ScriptForge.Pipeline.Classifier

open Text

/-- The text of a review as it is judged by keyword. -/
def judged (review : String) : List Char :=
  lower (trim review.toList)

variable {words : List (List Char)} {text : List Char} {review : String}

/-! ## By keyword -/

theorem startsWithAny_iff : startsWithAny words text = true ↔ ∃ word ∈ words, word <+: text := by
  simp [startsWithAny]

theorem any_containsWord_iff (hne : [] ∉ words) :
    words.any (containsWord · text) = true ↔ ∃ word ∈ words, word <:+: text := by
  rw [List.any_eq_true]
  refine exists_congr fun word => and_congr_right fun hword => containsWord_iff ?_
  rintro rfl
  exact hne hword

/-- A review passes because of how it starts, or because it is short and nothing in it tells
against it. -/
theorem byKeyword_eq_pass_iff : byKeyword review = .pass ↔
    (∃ word ∈ passWords, word <+: judged review) ∨
      judged review ≠ [] ∧ (¬ ∃ word ∈ failWords, word <+: judged review) ∧
        (judged review).length < shortLength ∧
        ¬ ∃ word ∈ problemWords, word <:+: judged review := by
  have hempty : judged review = [] → ¬ ∃ word ∈ passWords, word <+: judged review := by
    intro hnil
    rw [hnil]
    decide
  have hcases : byKeyword review =
      if judged review = [] then .fail
      else if ∃ word ∈ passWords, word <+: judged review then .pass
      else if ∃ word ∈ failWords, word <+: judged review then .fail
      else if (judged review).length < shortLength ∧
        ¬ ∃ word ∈ problemWords, word <:+: judged review then .pass
      else .fail := by
    rw [byKeyword]
    have hne : [] ∉ problemWords := by decide
    simp only [← startsWithAny_iff, ← any_containsWord_iff hne]
    simp [judged]
  rw [hcases]
  split_ifs <;> simp_all

/-- **A failure that is mentioned.** A review that mentions a failure somewhere and does not start
like a passing one fails exactly if it starts like a failing one, is not short or mentions a
problem. -/
theorem mentioned_failure_iff (hfail : ∃ word ∈ failWords, word <:+: judged review)
    (hpass : ∀ word ∈ passWords, ¬ word <+: judged review) :
    byKeyword review = .fail ↔
      (∃ word ∈ failWords, word <+: judged review) ∨ 100 ≤ (judged review).length ∨
        ∃ word ∈ problemWords, word <:+: judged review := by
  have hne : judged review ≠ [] := by
    intro hnil
    rw [hnil] at hfail
    exact absurd hfail (by decide)
  have hstart : ¬ ∃ word ∈ passWords, word <+: judged review :=
    fun ⟨word, hword, h⟩ => hpass word hword h
  have hverdict : byKeyword review = .fail ↔ ¬ byKeyword review = .pass := by
    cases byKeyword review <;> decide
  rw [hverdict, byKeyword_eq_pass_iff, or_iff_right hstart, and_iff_right hne, not_and_or,
    not_and_or, not_not, not_not, not_lt]
  rfl

/-- A short review fails for an error wherever it mentions it. -/
theorem error_at_end_fails :
    let review := " The mapping of the order is an ERROR\n"
    (∃ word ∈ failWords, word <:+: judged review) ∧
      (∀ word ∈ passWords, ¬ word <+: judged review) ∧ byKeyword review = .fail := by
  intro review
  have hfail : ∃ word ∈ failWords, word <:+: judged review := by decide +kernel
  have hpass : ∀ word ∈ passWords, ¬ word <+: judged review := by decide +kernel
  exact ⟨hfail, hpass, (mentioned_failure_iff hfail hpass).mpr (.inr (.inr (by decide +kernel)))⟩

/-- A review that says further on that something fails may pass. -/
theorem failed_mapping_passes :
    let review := "The mapping failed"
    (∃ word ∈ failWords, word <:+: judged review) ∧
      (∀ word ∈ passWords, ¬ word <+: judged review) ∧ byKeyword review = .pass := by
  decide +kernel

/-! ## By tag -/

/-- A line gives a value to the tag `verdict`: the word, in any letter case and with blanks around
it, stands in front of the first colon, and the value behind it. -/
def Tags (line value : List Char) : Prop :=
  ∃ tag rest, line = tag ++ ':' :: rest ∧ ':' ∉ tag ∧
    (trim tag).map Char.toLower = "verdict".toList ∧ value = trim rest

/-- A review has a tagged line. -/
def HasTag (review : String) : Prop :=
  ∃ line ∈ lines review.toList, ∃ value, Tags line value

/-- The last tagged line of a review gives this value. -/
def LastTag (review : String) (value : List Char) : Prop :=
  ∃ front line back, lines review.toList = front ++ line :: back ∧ Tags line value ∧
    ∀ other ∈ back, ∀ value, ¬ Tags other value

/-- The values of the tagged lines of a review. -/
def tagValues (review : String) : List (List Char) :=
  (lines review.toList).filterMap taggedValue?

theorem taggedValue?_eq_some_iff {line value : List Char} :
    taggedValue? line = some value ↔ Tags line value := by
  have hword : "verdict".toList.map Char.toLower = "verdict".toList := by decide
  have hcolon : isBlank ':' = false := by decide
  rw [taggedValue?, splitAtFirst?_trim hcolon]
  constructor
  · intro h
    cases hsplit : splitAtFirst? ':' line with
    | none => simp [hsplit] at h
    | some parts =>
      obtain ⟨tag, rest⟩ := parts
      obtain ⟨rfl, htag⟩ := splitAtFirst?_eq_some_iff.mp hsplit
      simp only [hsplit, Option.map_some, trim_trimStart, trim_trimEnd, sameIgnoringCase, hword,
        beq_iff_eq, Option.ite_none_right_eq_some, Option.some.injEq] at h
      exact ⟨tag, rest, rfl, htag, h.1, h.2.symm⟩
  · rintro ⟨tag, rest, rfl, htag, hverdict, rfl⟩
    rw [splitAtFirst?_eq_some_iff.mpr ⟨rfl, htag⟩]
    simp [trim_trimStart, trim_trimEnd, sameIgnoringCase, hverdict]

theorem taggedValue?_eq_none_iff {line : List Char} :
    taggedValue? line = none ↔ ∀ value, ¬ Tags line value := by
  simp only [Option.eq_none_iff_forall_ne_some, ne_eq, taggedValue?_eq_some_iff]

theorem tagValues_eq_nil_iff : tagValues review = [] ↔ ¬ HasTag review := by
  simp only [tagValues, HasTag, List.filterMap_eq_nil_iff, taggedValue?_eq_none_iff, not_exists,
    not_and]

/-- The last value is that of the last tagged line. -/
theorem getLast?_tagValues_eq_some_iff {value : List Char} :
    (tagValues review).getLast? = some value ↔ LastTag review value := by
  rw [List.getLast?_eq_some_iff]
  constructor
  · rintro ⟨values, hvalues⟩
    obtain ⟨front, rest, hlines, -, hrest⟩ := List.filterMap_eq_append_iff.mp hvalues
    obtain ⟨skipped, line, back, rfl, -, hline, hback⟩ := List.filterMap_eq_cons_iff.mp hrest
    refine ⟨front ++ skipped, line, back, by rw [hlines, List.append_assoc],
      taggedValue?_eq_some_iff.mp hline, fun other hother => ?_⟩
    exact taggedValue?_eq_none_iff.mp (List.filterMap_eq_nil_iff.mp hback other hother)
  · rintro ⟨front, line, back, hlines, hline, hback⟩
    have hnone : back.filterMap taggedValue? = [] := List.filterMap_eq_nil_iff.mpr
      fun other hother => taggedValue?_eq_none_iff.mpr (hback other hother)
    refine ⟨front.filterMap taggedValue?, ?_⟩
    rw [tagValues, hlines, List.filterMap_append,
      List.filterMap_cons_some (taggedValue?_eq_some_iff.mpr hline), hnone]

/-- The tagged lines of two texts are those of the first and then those of the second. -/
theorem tagValues_append (a b : String) :
    tagValues (a ++ "\n" ++ b) = tagValues a ++ tagValues b := by
  have htrim : ∀ cs ds, trim cs = trim ds → taggedValue? cs = taggedValue? ds := by
    intro cs ds h
    rw [taggedValue?, taggedValue?, h]
  have htext : (a ++ "\n" ++ b).toList = a.toList ++ '\n' :: b.toList := by
    simp [String.toList_append]
  rw [tagValues, htext, filterMap_lines_append htrim rfl]
  rfl

theorem byTag_eq_pass_iff : byTag review = .pass ↔
    ∃ value, (tagValues review).getLast? = some value ∧
      value.map Char.toLower = "pass".toList := by
  rw [byTag, ← tagValues]
  cases (tagValues review).getLast? <;> simp [sameIgnoringCase]

/-- Reviews with the same last value get the same verdict. -/
theorem byTag_congr {a b : String} (h : (tagValues a).getLast? = (tagValues b).getLast?) :
    byTag a = byTag b := by
  rw [byTag, ← tagValues, h, byTag, ← tagValues]

theorem byTag_append_of_tag (a : String) {b : String} (h : HasTag b) :
    byTag (a ++ "\n" ++ b) = byTag b := by
  refine byTag_congr ?_
  rw [tagValues_append, List.getLast?_append_of_ne_nil]
  exact fun hnil => tagValues_eq_nil_iff.mp hnil h

theorem byTag_append_of_not_tag (a : String) {b : String} (h : ¬ HasTag b) :
    byTag (a ++ "\n" ++ b) = byTag a := by
  refine byTag_congr ?_
  rw [tagValues_append, tagValues_eq_nil_iff.mpr h, List.append_nil]

/-- **The last verdict line.** The verdict on two texts with a line feed between them is that on the
second if there is a tagged line in it, and that on the first otherwise. So nothing in front of the
last tagged line and nothing untagged behind it turns the verdict, which goes by the value of this
line alone. -/
theorem byTag_of_last_tag (a b : String) :
    (HasTag b → byTag (a ++ "\n" ++ b) = byTag b) ∧
    (¬ HasTag b → byTag (a ++ "\n" ++ b) = byTag a) ∧
    (¬ HasTag a → byTag a = .fail) ∧
    (∀ value, LastTag a value → (byTag a = .pass ↔ value.map Char.toLower = "pass".toList)) ∧
    (HasTag b → ∀ c, ¬ HasTag c → byTag (a ++ "\n" ++ b ++ "\n" ++ c) = byTag b) := by
  refine ⟨byTag_append_of_tag a, byTag_append_of_not_tag a, ?_, ?_, ?_⟩
  · intro hnone
    rw [byTag, ← tagValues, tagValues_eq_nil_iff.mpr hnone]
    rfl
  · intro value hlast
    rw [byTag_eq_pass_iff, getLast?_tagValues_eq_some_iff.mpr hlast]
    simp
  · intro htag c hc
    rw [byTag_append_of_not_tag _ hc, byTag_append_of_tag a htag]

/-- A refusal that ends with a carriage return does not count where a later line passes. -/
theorem pass_behind_fail :
    let a := "VERDICT: fail\r"
    let b := "checked: all\r\n Verdict\t: PASS \nverdict of the day"
    let c := "no: more"
    HasTag b ∧ ¬ HasTag c ∧ LastTag b "PASS".toList ∧
      byTag (a ++ "\n" ++ b ++ "\n" ++ c) = .pass := by
  intro a b c
  have hb : HasTag b := not_not.mp (mt tagValues_eq_nil_iff.mpr (by decide +kernel))
  have hc : ¬ HasTag c := tagValues_eq_nil_iff.mp (by decide +kernel)
  have hlast : LastTag b "PASS".toList := getLast?_tagValues_eq_some_iff.mp (by decide +kernel)
  refine ⟨hb, hc, hlast, ?_⟩
  rw [(byTag_of_last_tag a b).2.2.2.2 hb c hc]
  exact ((byTag_of_last_tag b c).2.2.2.1 _ hlast).mpr (by decide +kernel)

end ScriptForge.Pipeline.Classifier

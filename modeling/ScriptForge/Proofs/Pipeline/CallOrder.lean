import ScriptForge.Proofs.Pipeline.Course
import ScriptForge.Proofs.Pipeline.Failure

/-!
# The order of the calls of a run

`calls_of_run_in_turn`: the calls of a run whose forks are run in turn follow an itinerary. A run in
which nothing fails makes all its calls, and its reviews and validations are what settles its loops;
a failed stage is the last one called.
-/

namespace ScriptForge.Pipeline

/-- The results of `n` attempts with a cap: all but the last reject, and the last one accepts or is
the last that the cap allows. -/
def Settles {α : Type} (accept reject : α) (results : List α) (n cap : Nat) : Prop :=
  ∃ last, results = List.replicate (n - 1) reject ++ [last] ∧ (last = accept ∨ n = cap)

/-- The trace of a run that has gone through the whole of its itinerary. -/
structure RanThrough (setup : Setup) (reviewed validated : Nat) (trace : Trace) : Prop where
  slots : trace.slots = itinerary setup.config.repackageOnRetry reviewed validated
  verdicts : trace.verdicts = (trace.texts setup.stages .review).map setup.classifier
  reviews : Settles .pass .fail trace.verdicts reviewed (max 1 setup.config.reviewRetries)
  /-- The scripts that are validated are the texts of the combining stage from the last reviewed
  candidate on. -/
  validities : trace.validities = ((trace.texts setup.stages .combine).drop (reviewed - 1)).map
    fun script => (setup.validator.validate script).valid
  validations : Settles true false trace.validities validated
    (max 1 setup.config.validationRetries)

/-- A trace that is cut short within the retries that a configuration allows. -/
def FollowsItinerary (setup : Setup) (reviewed validated : Nat) (trace : Trace) : Prop :=
  (1 ≤ reviewed ∧ reviewed ≤ max 1 setup.config.reviewRetries) ∧
  (1 ≤ validated ∧ validated ≤ max 1 setup.config.validationRetries) ∧
  trace.slots <+: itinerary setup.config.repackageOnRetry reviewed validated

variable {setup : Setup} {input : RunInput}

theorem Config.budget_max_review (config : Config) :
    config.budget.max .review = max 1 config.reviewRetries :=
  Nat.max_comm _ _

theorem Config.budget_max_validation (config : Config) :
    config.budget.max .validation = max 1 config.validationRetries :=
  Nat.max_comm _ _

theorem Config.repackages_of_in_turn {config : Config} (hturn : config.concurrentForks = false) :
    config.repackages = config.repackageOnRetry := by
  simp [repackages, hturn]

/-- A run on code that is not blank reports how its computation ends. -/
theorem run_cases (setup : Setup) (hcode : input.isBlank = false) :
    (∃ output s, (RunM.whole setup).run (.start setup.config input) = (.ok output, s) ∧
      run setup input = ⟨s.trace, .ok output⟩) ∨
    (∃ error s, (RunM.whole setup).run (.start setup.config input) = (.error error, s) ∧
      run setup input = ⟨s.trace, .error error⟩) := by
  rw [run, hcode]
  rcases hrun : (RunM.whole setup).run (.start setup.config input) with ⟨error | output, s⟩
  · exact .inr ⟨error, s, rfl, rfl⟩
  · exact .inl ⟨output, s, rfl, rfl⟩

theorem RanThrough.of_course (hturn : setup.config.concurrentForks = false) {trace : Trace}
    {rejected invalid : Nat} {reviewed validated : RunM.Settled} {course course' : Course}
    (hcourse : trace.course setup.stages = .ofSlots Itinerary.opening ++ (course ++ course'))
    (hreviewed : RunM.Reviewed setup (setup.config.budget.max .review - 1) rejected reviewed course)
    (hvalidated : RunM.Validated setup (setup.config.budget.max .validation - 1) invalid
      reviewed.script validated course') :
    RanThrough setup (rejected + 1) (invalid + 1) trace := by
  have hslots : trace.slots = Itinerary.opening ++ (course.slots ++ course'.slots) :=
    congrArg Course.slots hcourse
  have hscripts : trace.texts setup.stages .combine = course.scripts ++ course'.scripts :=
    congrArg Course.scripts hcourse
  have hreviews : trace.texts setup.stages .review = course.reviews ++ course'.reviews :=
    congrArg Course.reviews hcourse
  have hverdicts : trace.verdicts = course.verdicts ++ course'.verdicts :=
    congrArg Course.verdicts hcourse
  have hvalidities : trace.validities = course.validities ++ course'.validities :=
    congrArg Course.validities hcourse
  rw [hvalidated.verdicts, List.append_nil] at hverdicts
  rw [hvalidated.reviews, List.append_nil] at hreviews
  rw [hreviewed.validities, List.nil_append] at hvalidities
  obtain ⟨earlier, hearlier, hlength⟩ := hreviewed.scripts
  obtain ⟨verdict, hlastVerdict, hverdict⟩ := hreviewed.last
  obtain ⟨valid, hlastValid, hvalid⟩ := hvalidated.last
  have hdrop : (trace.texts setup.stages .combine).drop rejected =
      reviewed.script :: course'.scripts := by
    rw [hscripts, hearlier, List.append_assoc, ← hlength, List.drop_left]
    rfl
  exact {
    slots := by
      rw [hslots, hreviewed.slots, hvalidated.slots, Config.repackages_of_in_turn hturn,
        ← List.append_assoc]
      rfl
    verdicts := by rw [hverdicts, hreviews, hreviewed.verdicts]
    reviews := by
      rw [Config.budget_max_review] at hverdict
      exact ⟨verdict, by rw [hverdicts, hlastVerdict]; rfl, hverdict.imp_right (by omega)⟩
    validities := by rw [hvalidities, Nat.add_sub_cancel, hdrop, hvalidated.validities]
    validations := by
      rw [Config.budget_max_validation] at hvalid
      exact ⟨valid, by rw [hvalidities, hlastValid]; rfl, hvalid.imp_right (by omega)⟩ }

/-- **The order of calls.** The calls of a run whose forks are run in turn follow an itinerary. If
all stages return and the sink takes all it is given, then the run goes through the whole itinerary;
if a stage fails, then it is the last one called and its error is that of the run. -/
theorem calls_of_run_in_turn (setup : Setup) (input : RunInput) (hcode : input.isBlank = false)
    (hturn : setup.config.concurrentForks = false) :
    ∃ reviewed validated,
      FollowsItinerary setup reviewed validated (run setup input).trace ∧
      (Returned setup (run setup input).trace.calls →
        (∀ text, (run setup input).result ≠ .error (.stats text)) →
        (∃ output, (run setup input).result = .ok output) ∧
          RanThrough setup reviewed validated (run setup input).trace) ∧
      (∀ before call after cause, (run setup input).trace.calls = before ++ call :: after →
        (setup.stages call).result = .error cause →
        after = [] ∧ (run setup input).result = .error (.stage call.slot cause)) ∧
      ∀ text, (run setup input).result = .error (.stats text) →
        Refused setup (run setup input).trace.written text := by
  have hstart : Returned setup (RunState.start setup.config input).trace.calls := by
    simp [RunState.start, Returned]
  have hends := (RunM.whole_course hturn input).and (RunM.whole_explained hturn _ hstart)
  rcases run_cases setup hcode with ⟨output, s, hrun, hreport⟩ | ⟨error, s, hrun, hreport⟩
  all_goals rw [hreport]
  · obtain ⟨hcourse, hreturned⟩ := hends.of_run_ok hrun
    obtain ⟨rejected, invalid, reviewed, validated, course, course', hc, hr, hv⟩ := hcourse
    have hran := RanThrough.of_course hturn hc hr hv
    have hrejected := hr.within
    have hinvalid := hv.within
    rw [Config.budget_max_review] at hrejected
    rw [Config.budget_max_validation] at hinvalid
    refine ⟨rejected + 1, invalid + 1, ⟨by omega, by omega, ?_⟩, fun _ _ => ⟨⟨output, rfl⟩, hran⟩,
      fun before call after cause hcalls hfailed => ?_, fun _ h => by cases h⟩
    · exact ⟨[], (List.append_nil _).trans hran.slots⟩
    · obtain ⟨_, hok⟩ := hreturned call (by simp [hcalls])
      rw [hfailed] at hok
      cases hok
  · obtain ⟨hwithin, hexplained⟩ := hends.of_run_error hrun
    obtain ⟨rejected, hrejected, invalid, hinvalid, hslots⟩ := hwithin
    rw [Config.budget_max_review] at hrejected
    rw [Config.budget_max_validation] at hinvalid
    rw [Config.repackages_of_in_turn hturn] at hslots
    refine ⟨rejected + 1, invalid + 1, ⟨by omega, by omega, hslots⟩, fun hreturned htaken => ?_,
      fun before call after cause hcalls hfailed => ?_, fun text h => ?_⟩
    · cases hexplained with
      | @stage before call cause hcalls _ hfailed =>
        obtain ⟨_, hok⟩ := hreturned call (by simp [hcalls])
        rw [hfailed] at hok
        cases hok
      | stats _ _ => exact absurd rfl (htaken _)
    · obtain ⟨hafter, rfl⟩ := hexplained.last hcalls hfailed
      exact ⟨hafter, rfl⟩
    · cases h
      cases hexplained with
      | stats _ hrefused => exact hrefused

/-- A setup without a sink whose stages all return the same text. -/
def Setup.constant (config : Config) (text : String) : Setup where
  runId := ""
  config
  stages _ := ⟨0, .ok ⟨text, .zero⟩⟩
  classifier := .byTag
  validator := .default
  sink := none

theorem calls_of_constant_run :
    let setup := Setup.constant { reviewRetries := 2 } "VERDICT: fail"
    let input : RunInput := { code := "fn main() \x7b\x7d" }
    input.isBlank = false ∧ setup.config.concurrentForks = false ∧
      (∃ output, (run setup input).result = .ok output) ∧
      ∃ reviewed validated, RanThrough setup reviewed validated (run setup input).trace := by
  intro setup input
  have hcode : input.isBlank = false := by decide
  obtain ⟨reviewed, validated, -, hran, -, hrefused⟩ :=
    calls_of_run_in_turn setup input hcode rfl
  obtain ⟨houtput, hran⟩ := hran (fun _ _ => ⟨_, rfl⟩) fun text h => by
    obtain ⟨_, _, hsink, _⟩ := hrefused text h
    cases hsink
  exact ⟨hcode, rfl, houtput, reviewed, validated, hran⟩

end ScriptForge.Pipeline

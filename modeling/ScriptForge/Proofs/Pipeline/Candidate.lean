import ScriptForge.Proofs.Pipeline.Executions

/-!
# The candidate that a run returns

A run puts its outcome together from what its two loops end with. `outcome_of_run` says that this
describes the candidate that is returned, whichever way the loops end: the script and the verdicts
are those of the last calls, and the attempts and rounds are the calls that were made.

The latest outputs in the context are the texts of the last calls (`Reaches.output?_eq`), and at
each point the candidate and its review are the latest outputs (`Reaches.knows`).
-/

namespace ScriptForge.Pipeline

namespace Trace

/-- The text that the last call of a slot has returned. -/
def lastText? (stages : Stages) (slot : Slot) (trace : Trace) : Option String :=
  (trace.calls.filter (·.slot = slot)).getLast?.bind fun call => (stages call).text?

end Trace

/-- The outcome of a run describes the candidate that the run returns. -/
structure Describes (setup : Setup) (trace : Trace) (output : RunOutput) : Prop where
  script : trace.lastText? setup.stages .combine = some output.script
  pluginCode : trace.lastText? setup.stages .package = some output.pluginCode
  reviewPassed : ∃ review, trace.lastText? setup.stages .review = some review ∧
    output.outcome.reviewPassed = (setup.classifier review).passed
  scriptValid : output.outcome.scriptValid = (setup.validator.validate output.script).valid
  reviewAttempts : output.outcome.reviewAttempts = trace.slots.count .review
  validationAttempts : output.outcome.validationAttempts =
    1 + (trace.sinceCall .review).slots.count .combine
  rounds_eq : output.rounds =
    output.outcome.reviewAttempts + output.outcome.validationAttempts - 1
  rounds_le : output.rounds ≤
    max 1 setup.config.reviewRetries + max 1 setup.config.validationRetries - 1
  generated : roundsOf .generate output.history = List.range' 1 output.rounds
  combined : roundsOf .combine output.history = List.range' 1 output.rounds
  reviewed : roundsOf .review output.history = List.range' 1 output.outcome.reviewAttempts
  /-- There is one record for each call, with the fingerprint of the text that it returned. -/
  recorded : List.Forall₂ (Recorded setup) (trace.committed setup.config) output.history

/-! ## The latest outputs -/

theorem Reaches.output?_eq {setup : Setup} {input : RunInput} {p : Point} {s : RunState}
    (h : Reaches setup input p s) {slot : Slot} (hslot : setup.config.beside slot = false) :
    s.context.output? slot = s.trace.lastText? setup.stages slot := by
  rw [Context.output?]
  induction h with
  | start => exact SlotMap.get?_empty slot
  | @step p s called next output h hcalls hreturned ih =>
    have htext := Reply.text?_of_ok hreturned
    rw [RunState.stepped_outputs, SlotMap.get?_set]
    by_cases hcalled : slot = called
    · subst hcalled
      simp [Trace.lastText?, htext]
    · simp [Trace.lastText?, hcalled, Ne.symm hcalled, ih]
  | @fork s h ih =>
    have htogether : setup.config.concurrentForks = true := h.fits
    have hpackage : slot ≠ .package := by
      rintro rfl
      simp [Config.beside, htogether] at hslot
    simpa [Trace.lastText?, Ne.symm hpackage] using ih
  | draft h ih => exact ih
  | pass h hcond ih | fail h hcond ih | goBack h hcond ih | redraft h hcond ih | exhaust h hcond ih
  | accept h hcond ih | refuse h hcond ih | keep h hcond ih => simpa [Trace.lastText?] using ih

/-- A slot that has run has an output. -/
theorem Reaches.exists_output {setup : Setup} {input : RunInput} {p : Point} {s : RunState}
    (h : Reaches setup input p s) {slot : Slot} (hran : 0 < p.ran setup.config slot) :
    ∃ text, s.context.output? slot = some text := by
  rw [Context.output?]
  induction h with
  | start => cases slot <;> cases hran
  | @step p s called next output h hcalls hreturned ih =>
    rw [RunState.stepped_outputs, SlotMap.get?_set]
    by_cases hcalled : slot = called
    · exact ⟨output.text, if_pos hcalled⟩
    · rw [if_neg hcalled]
      rw [(hcalls.ran_next h.fits output.text slot).1, if_neg hcalled] at hran
      exact ih hran
  | @fork s h ih =>
    have htogether : setup.config.concurrentForks = true := h.fits
    refine ih ?_
    cases slot <;> simp [Point.ran, Point.tally, Config.packagings, htogether] at hran ⊢
  | pass h hcond ih | fail h hcond ih =>
    rw [RunState.judged_outputs]
    exact ih hran
  | _ => rename_i ih; exact ih hran

/-- The latest review passes if `passed`, and only then. -/
def Judged (setup : Setup) (outputs : SlotMap String) (passed : Bool) : Prop :=
  ∃ review, outputs.get? .review = some review ∧ passed = (setup.classifier review).passed

namespace Point

/-- What a point tells about the latest outputs. -/
def Knows (setup : Setup) (outputs : SlotMap String) : Point → Prop
  | .review _ script => outputs.get? .combine = some script
  | .judge _ script text =>
    outputs.get? .combine = some script ∧ outputs.get? .review = some text
  | .rejected _ script text => outputs.get? .combine = some script ∧
    outputs.get? .review = some text ∧ setup.classifier text = .fail
  | .validate passed _ _ script => outputs.get? .combine = some script ∧ Judged setup outputs passed
  | .invalid passed _ _ script => outputs.get? .combine = some script ∧
    Judged setup outputs passed ∧ (setup.validator.validate script).valid = false
  | .regenerate passed _ _ | .recombine passed _ _ => Judged setup outputs passed
  | .settled passed valid _ _ script => outputs.get? .combine = some script ∧
    Judged setup outputs passed ∧ valid = (setup.validator.validate script).valid
  | _ => True

variable {setup : Setup} {outputs : SlotMap String}

theorem Calls.knows_next {p : Point} {slot : Slot} {next : String → Point}
    (h : p.Calls setup.config slot next) (hknows : p.Knows setup outputs) (text : String) :
    (next text).Knows setup (outputs.set slot text) := by
  cases h with
  | identify k | package k | generate k => trivial
  | encapsulate k =>
    cases k <;> simp only [encapsulated] <;> split <;> trivial
  | combine k => exact SlotMap.get?_set_self ..
  | review k script =>
    exact ⟨(SlotMap.get?_set_of_ne _ (by decide) _).trans hknows, SlotMap.get?_set_self ..⟩
  | regenerate passed k m =>
    obtain ⟨review, hreview, hpassed⟩ := hknows
    exact ⟨review, (SlotMap.get?_set_of_ne _ (by decide) _).trans hreview, hpassed⟩
  | recombine passed k m =>
    obtain ⟨review, hreview, hpassed⟩ := hknows
    exact ⟨SlotMap.get?_set_self .., review,
      (SlotMap.get?_set_of_ne _ (by decide) _).trans hreview, hpassed⟩

end Point

theorem Reaches.knows {setup : Setup} {input : RunInput} {p : Point} {s : RunState}
    (h : Reaches setup input p s) : p.Knows setup s.context.outputs := by
  induction h with
  | step h hcalls hreturned ih =>
    rw [RunState.stepped_outputs]
    exact hcalls.knows_next ih _
  | @pass k script review s h hverdict ih =>
    rw [RunState.judged_outputs]
    exact ⟨ih.1, review, ih.2, by rw [hverdict]; rfl⟩
  | @fail k script review s h hverdict ih =>
    rw [RunState.judged_outputs]
    exact ⟨ih.1, ih.2, hverdict⟩
  | @exhaust k script review s h hcap ih => exact ⟨ih.1, review, ih.2.1, by rw [ih.2.2]; rfl⟩
  | accept h hvalid ih => exact ⟨ih.1, ih.2, hvalid.symm⟩
  | refuse h hvalid ih => exact ⟨ih.1, ih.2, hvalid⟩
  | keep h hcap ih => exact ⟨ih.1, ih.2.1, ih.2.2.symm⟩
  | redraft h hcap ih => exact ih.2.1
  | _ => trivial

/-! ## The scripts since the last review -/

/-- How many scripts have been combined since the last review. -/
def Point.redrafts : Point → Nat
  | .review _ _ => 1
  | .validate _ _ m _ | .invalid _ _ m _ | .settled _ _ _ m _ => m
  | .regenerate _ _ m | .recombine _ _ m => m - 1
  | _ => 0

theorem Point.Calls.redrafts_next {config : Config} {p : Point} {slot : Slot}
    {next : String → Point} (h : p.Calls config slot next) (hfits : p.Fits config)
    (text : String) : (next text).redrafts =
      if slot = .review then 0 else p.redrafts + if slot = .combine then 1 else 0 := by
  cases h with
  | encapsulate k => cases k <;> simp only [encapsulated] <;> split <;> rfl
  | recombine passed k m =>
    have hagain : 0 < m := hfits
    exact (Nat.sub_add_cancel hagain).symm
  | _ => rfl

theorem Trace.sinceCall_slots_append {slot : Slot} {trace more : Trace} (hmore : more.calls = []) :
    (sinceCall slot (trace ++ more)).slots = (trace.sinceCall slot).slots := by
  have hslots : more.slots = [] := by rw [slots, hmore]; rfl
  rw [sinceCall_append (by simp [hslots]), slots_append, hslots, List.append_nil]

theorem Reaches.count_redrafts {setup : Setup} {input : RunInput} {p : Point} {s : RunState}
    (h : Reaches setup input p s) :
    (s.trace.sinceCall .review).slots.count .combine = p.redrafts := by
  induction h with
  | start => rfl
  | @step p s slot next output h hcalls hreturned ih =>
    have hslots : ((s.stepped setup slot output).trace.sinceCall .review).slots =
        if slot = .review then [] else (s.trace.sinceCall .review).slots ++ [slot] := by
      rw [RunState.stepped_sinceCall]
      split <;> simp [Trace.slots]
    rw [hslots, hcalls.redrafts_next h.fits]
    split
    · rfl
    · rw [List.count_append, ih, List.count_singleton]
      simp
  | @fork s h ih =>
    rw [RunState.forked_trace, Trace.sinceCall_append (by simp [Trace.slots]), Trace.slots_append]
    have hredrafts : (Point.draft 0).redrafts = Point.fork.redrafts := rfl
    rw [hredrafts, ← ih]
    simp [Trace.slots]
  | draft h ih => exact ih
  | @pass k script review s h hcond ih | @fail k script review s h hcond ih =>
    rw [RunState.judged_trace, Trace.sinceCall_slots_append rfl]
    exact ih
  | @goBack k script review s h hcond ih =>
    obtain ⟨more, htrace, hcalls, -⟩ := s.exists_retried_trace setup (.ofReview script review)
    rw [htrace, Trace.sinceCall_slots_append hcalls]
    exact ih
  | @redraft passed k m script s h hcond ih =>
    obtain ⟨more, htrace, hcalls, -⟩ := s.exists_retried_trace setup (.ofVerdict script _)
    rw [htrace, Trace.sinceCall_slots_append hcalls]
    exact ih
  | exhaust h hcond ih | accept h hcond ih | refuse h hcond ih | keep h hcond ih =>
    exact (congrArg _ (Trace.sinceCall_slots_append rfl)).trans ih

/-! ## Runs that return -/

section Runs

variable {setup : Setup} {input : RunInput} {passed valid : Bool} {k m : Nat} {script : String}
  {after s : RunState}

theorem Joins.output?_eq (hjoins : Joins setup input after s)
    (h : Reaches setup input (.settled passed valid k m script) after) (slot : Slot) :
    s.context.output? slot = s.trace.lastText? setup.stages slot := by
  rw [Trace.lastText?, hjoins.calls_eq]
  have honce := h.length_besideCalls
  cases hjoins with
  | inTurn hturn => exact h.output?_eq (Config.beside_of_in_turn hturn slot)
  | @together fork output hbeside hreturned =>
    change (after.context.outputs.set .package output.text).get? slot = _
    rw [SlotMap.get?_set]
    split
    · rename_i hslot
      subst hslot
      have hcalls : after.trace.calls.filter (·.slot = .package) = [fork.stepCall .package] := by
        rw [← hbeside.besideCalls (by rw [honce]; split <;> decide), Trace.besideCalls]
        exact List.filter_congr fun call _ => by
          rw [Config.beside, hbeside.together]
          rfl
      rw [hcalls]
      exact (Reply.text?_of_ok hreturned).symm
    · rename_i hslot
      exact h.output?_eq (Config.beside_of_ne _ hslot)

/-- The end of the packaging stage leaves the other outputs. -/
theorem Joins.output?_of_ne (hjoins : Joins setup input after s) {slot : Slot}
    (hslot : slot ≠ .package) : s.context.output? slot = after.context.outputs.get? slot := by
  cases hjoins with
  | inTurn hturn => rfl
  | together hbeside hreturned => exact SlotMap.get?_set_of_ne _ hslot _

theorem Joins.exists_package (hjoins : Joins setup input after s)
    (h : Reaches setup input (.settled passed valid k m script) after) :
    ∃ text, s.context.output? .package = some text := by
  cases hjoins with
  | inTurn hturn =>
    have hpackagings : 0 < setup.config.packagings (k + 1) := by
      cases hrepackage : setup.config.repackageOnRetry <;>
        simp [Config.packagings, hturn, hrepackage]
    exact h.exists_output hpackagings
  | @together fork output hbeside hreturned =>
    exact ⟨output.text, SlotMap.get?_set_self after.context.outputs .package output.text⟩

theorem Joins.count_redrafts (hjoins : Joins setup input after s)
    (h : Reaches setup input (.settled passed valid k m script) after) :
    (s.trace.sinceCall .review).slots.count .combine = m := by
  refine Eq.trans ?_ h.count_redrafts
  cases hjoins with
  | inTurn hturn => rfl
  | @together fork output hbeside hreturned =>
    obtain ⟨first, rest, -, htrace, hinterleaved⟩ := exists_interleaved setup
      (setup.stages (fork.stepCall .package)).delay output hbeside.grown
    rw [RunM.joined_trace, hinterleaved, htrace]
    obtain ⟨earlier, later, hsince, hinserted | hinserted⟩ :=
      Trace.sinceCall_insert (Trace.moment_calls_emitted .review _ _) first rest
    · rw [hinserted, hsince]
      simp [Trace.slots]
    · rw [hinserted, hsince]

end Runs

/-- **The candidate of a run.** What a run returns describes the candidate that it returns. -/
theorem outcome_of_run (setup : Setup) (input : RunInput) {output : RunOutput}
    (hok : (run setup input).result = .ok output) :
    Describes setup (run setup input).trace output := by
  obtain ⟨passed, valid, k, m, script, after, s, h, hjoins, htrace, rfl⟩ := finished_of_run_ok hok
  obtain ⟨hscript, ⟨review, hreview, hpassed⟩, hvalid⟩ := h.knows
  obtain ⟨more, hmore, hcalls, -⟩ := s.exists_finished_trace setup
  have hlast : ∀ slot, (s.finished setup).trace.lastText? setup.stages slot =
      s.context.output? slot := by
    intro slot
    rw [hjoins.output?_eq h, Trace.lastText?, RunState.finished_calls]
    rfl
  have hslots : (s.finished setup).trace.slots = after.trace.slots := by
    rw [Trace.slots, RunState.finished_calls, hjoins.calls_eq]
    rfl
  have hround := hjoins.round_eq h
  have hreviews : k < setup.config.cap .review := h.within.1
  have hvalidations : m < setup.config.cap .validation := h.within.2
  rw [htrace]
  exact {
    script := by
      rw [hlast, hjoins.output?_of_ne (by decide)]
      exact hscript
    pluginCode := by
      obtain ⟨text, htext⟩ := hjoins.exists_package h
      rw [hlast, htext]
      exact congrArg (fun package : Option String => some (package.getD "")) htext.symm
    reviewPassed := by
      rw [hlast, hjoins.output?_of_ne (by decide)]
      exact ⟨review, hreview, hpassed⟩
    scriptValid := hvalid
    reviewAttempts := by
      rw [hslots, h.count_slots (setup.config.beside_of_ne (by decide))]
      rfl
    validationAttempts := by
      rw [hmore, Trace.sinceCall_slots_append hcalls, hjoins.count_redrafts h]
      exact Nat.add_comm m 1
    rounds_eq := by
      change s.round = k + 1 + (m + 1) - 1
      omega
    rounds_le := by
      change s.round ≤ setup.config.cap .review + setup.config.cap .validation - 1
      omega
    generated := by
      change roundsOf .generate s.context.history = List.range' 1 s.round
      rw [hjoins.history_rounds h, setup.config.beside_of_ne (by decide), hround]
      rfl
    combined := by
      change roundsOf .combine s.context.history = List.range' 1 s.round
      rw [hjoins.history_rounds h, setup.config.beside_of_ne (by decide), hround]
      rfl
    reviewed := by
      change roundsOf .review s.context.history = List.range' 1 (k + 1)
      rw [hjoins.history_rounds h, setup.config.beside_of_ne (by decide)]
      rfl
    recorded := by
      rw [RunState.finished_committed]
      exact hjoins.recorded h }

theorem outcome_of_last_candidate :
    let setup : Setup := { Setup.constant { reviewRetries := 2, concurrentForks := true } "" with
      classifier := fun _ => .fail }
    let input : RunInput := { code := "fn main() \x7b\x7d" }
    ∃ output, (run setup input).result = .ok output ∧
      Describes setup (run setup input).trace output ∧ output.outcome.reviewPassed = false := by
  intro setup input
  have hcode : input.isBlank = false := by decide
  have htaken : setup.NothingRefused := by
    intro sink hsink
    cases hsink
  obtain ⟨output, hok⟩ := exists_run_ok hcode (fun _ => ⟨_, rfl⟩) htaken
  have hdescribes := outcome_of_run setup input hok
  obtain ⟨review, -, hpassed⟩ := hdescribes.reviewPassed
  exact ⟨output, hok, hdescribes, hpassed⟩

end ScriptForge.Pipeline

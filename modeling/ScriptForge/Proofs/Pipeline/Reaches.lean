import ScriptForge.Proofs.Pipeline.Course
import ScriptForge.Proofs.Pipeline.Forks

/-!
# What a run reaches

The main fork of a run goes from *point* to point. At a point it calls a stage, judges a review or a
script, starts the forks, or goes on after a candidate has been rejected. `Reaches setup input p s`
says that it comes to the point `p` in the state `s`; it has one constructor for each thing that can
be done at a point. So what holds at the start and is kept by each of them holds at all points of
all runs, and an invariant of runs is proved by induction on `Reaches`.

That the constructors are all that a run does is shown by taking the run apart: the generation fork
ends at a point where it has settled, or it breaks at a point that it has reached
(`generation_reaches`). The loops count down the attempts that they have left, and they are left
with none exactly when their budgets are exhausted (`exhausted_iff_of_rejected`,
`exhausted_iff_of_invalid`).
-/

namespace ScriptForge.Pipeline

open Json

/-! ## Points -/

/-- The attempts that a configuration allows a loop. -/
def Config.cap (config : Config) : Rejection → Nat
  | .review => max 1 config.reviewRetries
  | .validation => max 1 config.validationRetries

/-- Where the main fork of a run stands. Before a point, `k` candidates have been sent back to the
source by a review, and `m` scripts have been sent back to the generating stage by a validation. -/
inductive Point
  /-- The identifying stage is called. -/
  | identify (k : Nat)
  /-- The encapsulating stage is called. -/
  | encapsulate (k : Nat)
  /-- The packaging stage is called in turn. -/
  | package (k : Nat)
  /-- The packaging stage is called, to run side by side. -/
  | fork
  /-- An attempt at a candidate for the review is counted. -/
  | draft (k : Nat)
  /-- The generating stage is called for the review. -/
  | generate (k : Nat)
  /-- The combining stage is called for the review. -/
  | combine (k : Nat)
  /-- The reviewing stage is called on a candidate. -/
  | review (k : Nat) (script : String)
  /-- The review of a candidate is judged. -/
  | judge (k : Nat) (script review : String)
  /-- The review has rejected a candidate. -/
  | rejected (k : Nat) (script review : String)
  /-- A script is validated; its review may have passed or not. -/
  | validate (passed : Bool) (k m : Nat) (script : String)
  /-- The validation has rejected a script. -/
  | invalid (passed : Bool) (k m : Nat) (script : String)
  /-- The generating stage is called for the validation. -/
  | regenerate (passed : Bool) (k m : Nat)
  /-- The combining stage is called for the validation. -/
  | recombine (passed : Bool) (k m : Nat)
  /-- The generation fork has come to its end. -/
  | settled (passed valid : Bool) (k m : Nat) (script : String)

namespace Point

/-- The point that follows when the source has been encapsulated. Side by side, the packaging stage
is called once. -/
def encapsulated (config : Config) : Nat → Point
  | 0 => if config.concurrentForks then .fork else .package 0
  | k + 1 => if config.repackages then .package (k + 1) else .draft (k + 1)

/-- The stage that is called at a point, and the point that follows when it has returned a text. -/
inductive Calls (config : Config) : Point → Slot → (String → Point) → Prop
  | identify (k : Nat) : Calls config (.identify k) .identify fun _ => .encapsulate k
  | encapsulate (k : Nat) :
      Calls config (.encapsulate k) .encapsulate fun _ => encapsulated config k
  | package (k : Nat) : Calls config (.package k) .package fun _ => .draft k
  | generate (k : Nat) : Calls config (.generate k) .generate fun _ => .combine k
  | combine (k : Nat) : Calls config (.combine k) .combine fun script => .review k script
  | review (k : Nat) (script : String) :
      Calls config (.review k script) .review fun review => .judge k script review
  | regenerate (passed : Bool) (k m : Nat) :
      Calls config (.regenerate passed k m) .generate fun _ => .recombine passed k m
  | recombine (passed : Bool) (k m : Nat) :
      Calls config (.recombine passed k m) .combine fun script => .validate passed k m script

/-- How many candidates have been sent back by a review. -/
def back : Point → Nat
  | .identify k | .encapsulate k | .package k | .draft k | .generate k | .combine k | .review k _
  | .judge k _ _ | .rejected k _ _ | .validate _ k _ _ | .invalid _ k _ _ | .regenerate _ k _
  | .recombine _ k _ | .settled _ _ k _ _ => k
  | .fork => 0

/-- How many scripts have been sent back by a validation. -/
def again : Point → Nat
  | .validate _ _ m _ | .invalid _ _ m _ | .regenerate _ _ m | .recombine _ _ m
  | .settled _ _ _ m _ => m
  | _ => 0

/-- The round of a point. -/
def round (p : Point) : Nat := p.back + p.again + 1

/-- How many attempts of a loop have been counted. -/
def counted (p : Point) : Rejection → Nat
  | .review =>
    match p with
    | .identify k | .encapsulate k | .package k | .draft k => k
    | .fork => 0
    | p => p.back + 1
  | .validation =>
    match p with
    | .invalid _ _ m _ | .settled _ _ _ m _ => m + 1
    | p => p.again

variable (config : Config)

/-- A loop that has settled without accepting the candidate has used up its attempts. -/
def Spent : Point → Prop
  | .validate passed k _ _ | .invalid passed k _ _ | .regenerate passed k _
  | .recombine passed k _ => passed = false → k + 1 = config.cap .review
  | .settled passed valid k m _ => (passed = false → k + 1 = config.cap .review) ∧
    (valid = false → m + 1 = config.cap .validation)
  | _ => True

variable (k : Nat)

theorem back_encapsulated : (encapsulated config k).back = k := by
  cases k <;> simp only [encapsulated] <;> split <;> rfl

theorem again_encapsulated : (encapsulated config k).again = 0 := by
  cases k <;> simp only [encapsulated] <;> split <;> rfl

theorem counted_encapsulated (rejection : Rejection) :
    (encapsulated config k).counted rejection = (encapsulate k).counted rejection := by
  cases k <;> simp only [encapsulated] <;> split <;> cases rejection <;> rfl

theorem spent_encapsulated : (encapsulated config k).Spent config := by
  cases k <;> simp only [encapsulated] <;> split <;> trivial

section Next

variable {config : Config} {p : Point} {slot : Slot} {next : String → Point}

/-! A stage that returns leaves the loops where they are. -/

theorem Calls.back_next (h : p.Calls config slot next) (text : String) :
    (next text).back = p.back := by
  cases h with
  | encapsulate k => exact back_encapsulated config k
  | _ => rfl

theorem Calls.again_next (h : p.Calls config slot next) (text : String) :
    (next text).again = p.again := by
  cases h with
  | encapsulate k => exact again_encapsulated config k
  | _ => rfl

theorem Calls.round_next (h : p.Calls config slot next) (text : String) :
    (next text).round = p.round := by
  rw [round, round, h.back_next, h.again_next]

theorem Calls.counted_next (h : p.Calls config slot next) (text : String) (rejection : Rejection) :
    (next text).counted rejection = p.counted rejection := by
  cases h with
  | encapsulate k => exact counted_encapsulated config k rejection
  | _ => cases rejection <;> rfl

end Next

end Point

/-! ## States -/

/-- The directive after a review has rejected a candidate. -/
def Directive.ofReview (script review : String) : Directive :=
  ⟨.review, review, some script⟩

/-- The directive after the validation has rejected a script. -/
def Directive.ofVerdict (script : String) (verdict : Quality.Verdict) : Directive :=
  ⟨.validation, s!"{verdict.report}\nRejected script:\n{script}", some script⟩

namespace RunState

/-- The state after an attempt of a loop has been counted. -/
def counted (s : RunState) (rejection : Rejection) : RunState :=
  { s with budget := s.budget.record rejection }

/-- The state with a diagnostic replaced. -/
def noted (s : RunState) (name : String) (value : Json) : RunState :=
  { s with context := s.context.diagnose name value }

/-- The state after a review has been judged. -/
def judged (s : RunState) (setup : Setup) (review : String) : RunState :=
  let verdict := setup.classifier review
  let s := (s.happened (.emitted (.reviewed setup.runId s.round verdict))).noted "review.passed"
    (.bool verdict.passed)
  if verdict.passed then s else s.noted "review.feedback" (.str review)

/-- The state after a script has been validated. -/
def checked (s : RunState) (setup : Setup) (script : String) : RunState :=
  let verdict := setup.validator.validate script
  ((s.counted .validation).happened
    (.emitted (.validated setup.runId s.round verdict.valid verdict.errors))).noted
      "validation.errors" (.ofList .str verdict.errors)

/-- The state after the next round has started because of a directive. -/
def retried (s : RunState) (setup : Setup) (directive : Directive) : RunState :=
  RunM.advanced { s with directive := some directive } setup directive.rejection

section Fields

variable (s : RunState) (setup : Setup)

@[simp] theorem happened_budget (happening : Happening) :
    (s.happened happening).budget = s.budget := rfl

@[simp] theorem happened_directive (happening : Happening) :
    (s.happened happening).directive = s.directive := rfl

@[simp] theorem happened_context (happening : Happening) :
    (s.happened happening).context = s.context := rfl

@[simp] theorem forked_trace : (s.forked setup).trace = s.trace ++
    [⟨s.clock, .emitted (.stageStarted setup.runId .package s.round)⟩,
      ⟨s.clock, .called (s.stepCall .package)⟩] :=
  replied_trace s setup .package

@[simp] theorem forked_round : (s.forked setup).round = s.round := rfl

@[simp] theorem forked_context : (s.forked setup).context = s.context := rfl

@[simp] theorem forked_ledger :
    (s.forked setup).ledger = { s.ledger with held := true } := rfl

@[simp] theorem judged_trace (review : String) : (s.judged setup review).trace = s.trace ++
    [⟨s.clock, .emitted (.reviewed setup.runId s.round (setup.classifier review))⟩] := by
  unfold judged
  cases setup.classifier review <;> rfl

@[simp] theorem judged_round (review : String) : (s.judged setup review).round = s.round := by
  unfold judged
  cases setup.classifier review <;> rfl

@[simp] theorem judged_budget (review : String) : (s.judged setup review).budget = s.budget := by
  unfold judged
  cases setup.classifier review <;> rfl

@[simp] theorem judged_ledger (review : String) : (s.judged setup review).ledger = s.ledger := by
  unfold judged
  cases setup.classifier review <;> rfl

@[simp] theorem judged_outputs (review : String) :
    (s.judged setup review).context.outputs = s.context.outputs := by
  unfold judged
  cases setup.classifier review <;> rfl

@[simp] theorem judged_history (review : String) :
    (s.judged setup review).context.history = s.context.history := by
  unfold judged
  cases setup.classifier review <;> rfl

@[simp] theorem checked_trace (script : String) : (s.checked setup script).trace = s.trace ++
    [⟨s.clock, .emitted (.validated setup.runId s.round (setup.validator.validate script).valid
      (setup.validator.validate script).errors)⟩] := rfl

@[simp] theorem checked_round (script : String) : (s.checked setup script).round = s.round := rfl

@[simp] theorem checked_budget (script : String) :
    (s.checked setup script).budget = s.budget.record .validation := rfl

@[simp] theorem checked_directive (script : String) :
    (s.checked setup script).directive = s.directive := rfl

@[simp] theorem checked_ledger (script : String) :
    (s.checked setup script).ledger = s.ledger := rfl

@[simp] theorem checked_outputs (script : String) :
    (s.checked setup script).context.outputs = s.context.outputs := rfl

@[simp] theorem checked_history (script : String) :
    (s.checked setup script).context.history = s.context.history := rfl

@[simp] theorem retried_round (directive : Directive) :
    (s.retried setup directive).round = s.round + 1 := rfl

@[simp] theorem retried_budget (directive : Directive) :
    (s.retried setup directive).budget = s.budget := rfl

@[simp] theorem retried_directive (directive : Directive) :
    (s.retried setup directive).directive = some directive := rfl

@[simp] theorem retried_context (directive : Directive) :
    (s.retried setup directive).context = s.context := rfl

theorem retried_ledger (directive : Directive) :
    (s.retried setup directive).ledger = (s.ledger.takeBefore (s.round + 1)).2 := rfl

/-- Before the next round starts, the statistics of the rounds before it are written. -/
theorem retried_trace (directive : Directive) :
    (s.retried setup directive).trace =
      (s.wroteAll setup (s.ledger.takeBefore (s.round + 1)).1).trace ++
        [⟨s.clock, .emitted (.roundAdvanced setup.runId (s.round + 1) directive.rejection)⟩] := rfl

theorem exists_retried_trace (directive : Directive) : ∃ more : Trace,
    (s.retried setup directive).trace = s.trace ++ more ∧ more.calls = [] ∧
      more.events = [.roundAdvanced setup.runId (s.round + 1) directive.rejection] := by
  obtain ⟨more, htrace, hcalls, hevents⟩ :=
    s.exists_wroteAll_trace setup (s.ledger.takeBefore (s.round + 1)).1
  rw [retried_trace, htrace, List.append_assoc]
  exact ⟨_, rfl, by simp [hcalls], by simp [hevents]⟩

@[simp] theorem retried_calls (directive : Directive) :
    (s.retried setup directive).trace.calls = s.trace.calls := by
  obtain ⟨more, htrace, hcalls, -⟩ := s.exists_retried_trace setup directive
  rw [htrace, Trace.calls_append, hcalls, List.append_nil]

@[simp] theorem retried_events (directive : Directive) :
    (s.retried setup directive).trace.events =
      s.trace.events ++ [.roundAdvanced setup.runId (s.round + 1) directive.rejection] := by
  obtain ⟨more, htrace, -, hevents⟩ := s.exists_retried_trace setup directive
  rw [htrace, Trace.events_append, hevents]

end Fields

end RunState

/-! ## Reaching -/

/-- The main fork of a run comes to a point in a state. -/
inductive Reaches (setup : Setup) (input : RunInput) : Point → RunState → Prop
  | start :
      Reaches setup input (.identify 0)
        ((RunState.start setup.config input).happened (.emitted (.runStarted setup.runId)))
  /-- A stage is called and returns. -/
  | step {p : Point} {s : RunState} {slot : Slot} {next : String → Point} {output : StageOutput}
      (h : Reaches setup input p s) (hcalls : p.Calls setup.config slot next)
      (hreturned : (setup.stages (s.stepCall slot)).result = .ok output) :
      Reaches setup input (next output.text) (s.stepped setup slot output)
  /-- The forks start. -/
  | fork {s : RunState} (h : Reaches setup input .fork s) :
      Reaches setup input (.draft 0) (s.forked setup)
  | draft {k : Nat} {s : RunState} (h : Reaches setup input (.draft k) s) :
      Reaches setup input (.generate k) (s.counted .review)
  | pass {k : Nat} {script review : String} {s : RunState}
      (h : Reaches setup input (.judge k script review) s)
      (hverdict : setup.classifier review = .pass) :
      Reaches setup input (.validate true k 0 script) (s.judged setup review)
  | fail {k : Nat} {script review : String} {s : RunState}
      (h : Reaches setup input (.judge k script review) s)
      (hverdict : setup.classifier review = .fail) :
      Reaches setup input (.rejected k script review) (s.judged setup review)
  /-- No attempt is left for the review. -/
  | exhaust {k : Nat} {script review : String} {s : RunState}
      (h : Reaches setup input (.rejected k script review) s)
      (hcap : k + 1 = setup.config.cap .review) :
      Reaches setup input (.validate false k 0 script)
        (s.happened (.emitted (.budgetExhausted setup.runId .review (k + 1))))
  | goBack {k : Nat} {script review : String} {s : RunState}
      (h : Reaches setup input (.rejected k script review) s)
      (hcap : k + 1 < setup.config.cap .review) :
      Reaches setup input (.identify (k + 1)) (s.retried setup (.ofReview script review))
  | accept {passed : Bool} {k m : Nat} {script : String} {s : RunState}
      (h : Reaches setup input (.validate passed k m script) s)
      (hvalid : (setup.validator.validate script).valid = true) :
      Reaches setup input (.settled passed true k m script) (s.checked setup script)
  | refuse {passed : Bool} {k m : Nat} {script : String} {s : RunState}
      (h : Reaches setup input (.validate passed k m script) s)
      (hvalid : (setup.validator.validate script).valid = false) :
      Reaches setup input (.invalid passed k m script) (s.checked setup script)
  /-- No attempt is left for the validation. -/
  | keep {passed : Bool} {k m : Nat} {script : String} {s : RunState}
      (h : Reaches setup input (.invalid passed k m script) s)
      (hcap : m + 1 = setup.config.cap .validation) :
      Reaches setup input (.settled passed false k m script)
        (s.happened (.emitted (.budgetExhausted setup.runId .validation (m + 1))))
  | redraft {passed : Bool} {k m : Nat} {script : String} {s : RunState}
      (h : Reaches setup input (.invalid passed k m script) s)
      (hcap : m + 1 < setup.config.cap .validation) :
      Reaches setup input (.regenerate passed k (m + 1))
        (s.retried setup (.ofVerdict script (setup.validator.validate script)))

/-- The main fork of a run breaks with an error in a state. -/
inductive Breaks (setup : Setup) (input : RunInput) : PipelineError → RunState → Prop
  /-- A stage that is called fails. -/
  | stage {p : Point} {s : RunState} {slot : Slot} {next : String → Point} {cause : StageError}
      (h : Reaches setup input p s) (hcalls : p.Calls setup.config slot next)
      (hfailed : (setup.stages (s.stepCall slot)).result = .error cause) :
      Breaks setup input (.stage slot cause) (s.replied setup slot)
  /-- The sink refuses statistics when a round starts. -/
  | stats {p : Point} {s s' : RunState} {done : List RoundStats} {text : String}
      (h : Reaches setup input p s) (hfree : s.ledger.held = false)
      (htrace : s'.trace = (s.wroteAll setup done).trace)
      (hrefused : Refused setup s'.trace.written text) :
      Breaks setup input (.stats text) s'

namespace Reaches

variable {setup : Setup} {input : RunInput} {p : Point} {s : RunState}

/-- The loops stay within their caps. -/
theorem within (h : Reaches setup input p s) :
    p.back < setup.config.cap .review ∧ p.again < setup.config.cap .validation := by
  induction h with
  | start => exact ⟨Nat.le_max_left .., Nat.le_max_left ..⟩
  | step h hcalls hreturned ih =>
    rw [hcalls.back_next, hcalls.again_next]
    exact ih
  | goBack h hcap ih => exact ⟨hcap, ih.2⟩
  | redraft h hcap ih => exact ⟨ih.1, hcap⟩
  | _ => assumption

theorem round_eq (h : Reaches setup input p s) : s.round = p.round := by
  induction h with
  | start => rfl
  | step h hcalls hreturned ih =>
    rw [RunState.stepped_round, ih, hcalls.round_next]
  | goBack h hcap ih | redraft h hcap ih =>
    rw [RunState.retried_round, ih]
    rfl
  | pass h hverdict ih | fail h hverdict ih =>
    rw [RunState.judged_round, ih]
    rfl
  | _ => assumption

theorem budget_eq (h : Reaches setup input p s) :
    s.budget = ⟨⟨p.counted .review, setup.config.cap .review⟩,
      ⟨p.counted .validation, setup.config.cap .validation⟩⟩ := by
  induction h with
  | start =>
    simp only [RunState.happened_budget, RunState.start, Config.budget, Budget.ofCaps,
      Counter.ofCap, Config.cap, Nat.max_comm 1]
    rfl
  | step h hcalls hreturned ih =>
    rw [RunState.stepped_budget, ih, hcalls.counted_next, hcalls.counted_next]
  | draft h ih =>
    have hcap := Nat.min_eq_left h.within.1
    rw [RunState.counted, ih]
    simpa [Budget.record, Counter.record, Point.counted, Point.back, Point.again] using hcap
  | accept h hvalid ih | refuse h hvalid ih =>
    have hcap := Nat.min_eq_left h.within.2
    rw [RunState.checked_budget, ih]
    simpa [Budget.record, Counter.record, Point.counted, Point.back, Point.again] using hcap
  | goBack h hcap ih | redraft h hcap ih =>
    rw [RunState.retried_budget, ih]
    rfl
  | pass h hverdict ih | fail h hverdict ih =>
    rw [RunState.judged_budget, ih]
    rfl
  | _ => assumption

/-- The budget of a loop is exhausted once all attempts are counted that the configuration
allows. -/
theorem exhausted_iff (h : Reaches setup input p s) (rejection : Rejection) :
    s.budget.exhausted rejection = true ↔
      setup.config.cap rejection ≤ p.counted rejection := by
  rw [h.budget_eq]
  cases rejection <;> exact decide_eq_true_iff

/-- The review loop settles on a rejected candidate exactly if its budget is exhausted: otherwise
the run goes back to the source. -/
theorem exhausted_iff_of_rejected {k : Nat} {script review : String}
    (h : Reaches setup input (.rejected k script review) s) :
    s.budget.exhausted .review = true ↔ k + 1 = setup.config.cap .review := by
  have hwithin : k + 1 ≤ setup.config.cap .review := h.within.1
  rw [h.exhausted_iff]
  exact ⟨fun hle => Nat.le_antisymm hwithin hle, fun heq => heq.ge⟩

/-- The validation loop settles on a rejected script exactly if its budget is exhausted: otherwise
the script is generated anew. -/
theorem exhausted_iff_of_invalid {passed : Bool} {k m : Nat} {script : String}
    (h : Reaches setup input (.invalid passed k m script) s) :
    s.budget.exhausted .validation = true ↔ m + 1 = setup.config.cap .validation := by
  have hwithin : m + 1 ≤ setup.config.cap .validation := h.within.2
  rw [h.exhausted_iff]
  exact ⟨fun hle => Nat.le_antisymm hwithin hle, fun heq => heq.ge⟩

/-- A loop that has settled without accepting the candidate has used up its attempts. -/
theorem spent (h : Reaches setup input p s) : p.Spent setup.config := by
  induction h with
  | step h hcalls hreturned ih =>
    cases hcalls with
    | encapsulate k => exact Point.spent_encapsulated _ k
    | regenerate | recombine => exact ih
    | _ => trivial
  | pass h hverdict ih => exact fun hpassed => by cases hpassed
  | exhaust h hcap ih => exact fun _ => hcap
  | accept h hvalid ih => exact ⟨ih, fun hvalid => by cases hvalid⟩
  | refuse h hvalid ih | redraft h hcap ih => exact ih
  | keep h hcap ih => exact ⟨ih, fun _ => hcap⟩
  | _ => trivial

end Reaches

/-! ## Taking a run apart -/

namespace RunM

variable {α : Type} {setup : Setup} {input : RunInput} {s : RunState}

theorem step_reaches {p : Point} {slot : Slot} {next : String → Point}
    (h : Reaches setup input p s) (hcalls : p.Calls setup.config slot next) :
    Ends (step setup slot) s (fun text s' => Reaches setup input (next text) s')
      (Breaks setup input) :=
  ends_step (fun _ hfailed => .stage h hcalls hfailed) fun _ hreturned => h.step hcalls hreturned

/-- The stage of a point is called, and the run goes on from the point that follows. -/
theorem step_bind_reaches {p : Point} {slot : Slot} {next : String → Point} {f : String → RunM α}
    {ok : α → RunState → Prop} (h : Reaches setup input p s)
    (hcalls : p.Calls setup.config slot next)
    (hf : ∀ text s', Reaches setup input (next text) s' →
      Ends (f text) s' ok (Breaks setup input)) :
    Ends (step setup slot >>= f) s ok (Breaks setup input) := by
  rw [ends_bind]
  exact (step_reaches h hcalls).imp (fun text s' h' => hf text s' h') fun _ _ h => h

theorem reviewedCandidate_reaches {k : Nat} (h : Reaches setup input (.generate k) s) :
    Ends (reviewedCandidate setup) s
      (fun (script, review?) s' => match review? with
        | none => Reaches setup input (.validate true k 0 script) s'
        | some review => Reaches setup input (.rejected k script review) s')
      (Breaks setup input) := by
  refine step_bind_reaches h (.generate k) fun _ s₁ h₁ =>
    step_bind_reaches h₁ (.combine k) fun script s₂ h₂ =>
    step_bind_reaches h₂ (.review k script) fun review s₃ h₃ => ?_
  simp only [ends_bind, ends_get, ends_emit, ends_diagnose]
  cases hverdict : setup.classifier review with
  | pass =>
    have h₄ := h₃.pass hverdict
    rw [RunState.judged, hverdict] at h₄
    exact h₄
  | fail =>
    have h₄ := h₃.fail hverdict
    rw [RunState.judged, hverdict] at h₄
    exact h₄

theorem advanceRound_reaches {p : Point} (directive : Directive) (h : Reaches setup input p s) :
    Ends (advanceRound setup directive.rejection) { s with directive := some directive }
      (fun _ s' => s' = s.retried setup directive) (Breaks setup input) := by
  refine (ends_advanceRound _).imp (fun _ s' h' => h') (fun error s' h' => ?_)
  obtain ⟨text, done, rfl, hfree, htrace, hrefused⟩ := h'
  exact .stats h hfree htrace hrefused

theorem goBack_reaches {k : Nat} {script review : String}
    (h : Reaches setup input (.rejected k script review) s)
    (hcap : k + 1 < setup.config.cap .review) :
    Ends (goBack setup review script) s (fun _ s' => Reaches setup input (.draft (k + 1)) s')
      (Breaks setup input) := by
  rw [goBack, ends_bind, ends_direct, ends_bind]
  refine (advanceRound_reaches (.ofReview script review) h).imp
    (fun _ s₁ h₁ => ?_) (fun _ _ h => h)
  subst h₁
  refine step_bind_reaches (h.goBack hcap) (.identify _) fun _ s₂ h₂ =>
    step_bind_reaches h₂ (.encapsulate _) fun _ s₃ h₃ => ?_
  change Reaches setup input (if setup.config.repackages = true then _ else _) s₃ at h₃
  change Ends (if setup.config.repackages = true then _ else _) s₃ _ _
  split at h₃
  · rw [if_pos ‹_›]
    exact step_bind_reaches h₃ (.package _) fun _ _ h₄ => h₄
  · rw [if_neg ‹_›]
    exact h₃

/-- The review loop settles on a candidate that is validated next. -/
theorem reviewLoop_reaches {k : Nat} {s : RunState} (spare : Nat)
    (h : Reaches setup input (.draft k) s)
    (hspare : k + 1 + spare = setup.config.cap .review) :
    Ends (reviewLoop setup spare) s
      (fun settled s' => ∃ k', settled.attempts = k' + 1 ∧
        Reaches setup input (.validate settled.accepted k' 0 settled.script) s')
      (Breaks setup input) := by
  have hcounted : (s.budget.record .review).used .review = k + 1 :=
    congrArg (·.used .review) h.draft.budget_eq
  unfold reviewLoop
  rw [ends_bind, ends_countAttempt, hcounted, ends_bind]
  refine (reviewedCandidate_reaches h.draft).imp (fun candidate s₁ h₁ => ?_) (fun _ _ h => h)
  obtain ⟨script, _ | review⟩ := candidate
  · exact ⟨k, rfl, h₁⟩
  · change Reaches setup input (.rejected k script review) s₁ at h₁
    cases spare with
    | zero => exact ⟨k, rfl, h₁.exhaust hspare⟩
    | succ spare =>
      change Ends (goBack setup review script >>= fun _ => reviewLoop setup spare) s₁ _ _
      rw [ends_bind]
      exact (goBack_reaches h₁ (by omega)).imp
        (fun _ s₂ h₂ => reviewLoop_reaches spare h₂ (by omega)) (fun _ _ h => h)

theorem validated_reaches {passed : Bool} {k m : Nat} {script : String}
    (h : Reaches setup input (.validate passed k m script) s) :
    Ends (validated setup script) (s.counted .validation)
      (fun verdict s' => verdict = setup.validator.validate script ∧
        Reaches setup input
          (if verdict.valid then .settled passed true k m script else .invalid passed k m script)
          s')
      (Breaks setup input) := by
  simp only [validated, ends_bind, ends_get, ends_emit, ends_diagnose, ends_pure, true_and]
  split
  · exact h.accept ‹_›
  · exact h.refuse (Bool.not_eq_true _ ▸ ‹_›)

theorem regenerate_reaches {passed : Bool} {k m : Nat} {script : String}
    (h : Reaches setup input (.invalid passed k m script) s)
    (hcap : m + 1 < setup.config.cap .validation) :
    Ends (regenerate setup (setup.validator.validate script) script) s
      (fun next s' => Reaches setup input (.validate passed k (m + 1) next) s')
      (Breaks setup input) := by
  rw [regenerate, ends_bind, ends_direct, ends_bind]
  refine (advanceRound_reaches (.ofVerdict script (setup.validator.validate script)) h).imp
    (fun _ s₁ h₁ => ?_) (fun _ _ h => h)
  subst h₁
  exact step_bind_reaches (h.redraft hcap) (.regenerate _ _ _) fun _ s₂ h₂ =>
    step_reaches h₂ (.recombine _ _ _)

/-- The validation loop settles on a script. -/
theorem validationLoop_reaches {passed : Bool} {k m : Nat} {script : String} {s : RunState}
    (spare : Nat) (h : Reaches setup input (.validate passed k m script) s)
    (hspare : m + 1 + spare = setup.config.cap .validation) :
    Ends (validationLoop setup spare script) s
      (fun settled s' => ∃ m', settled.attempts = m' + 1 ∧
        Reaches setup input (.settled passed settled.accepted k m' settled.script) s')
      (Breaks setup input) := by
  have hcounted : (s.budget.record .validation).used .validation = m + 1 := by
    rw [h.budget_eq]
    exact Nat.min_eq_left h.within.2
  unfold validationLoop
  rw [ends_bind, ends_countAttempt, hcounted, ends_bind]
  refine (validated_reaches h).imp (fun verdict s₁ h₁ => ?_) (fun _ _ h => h)
  obtain ⟨rfl, h₁⟩ := h₁
  split at h₁
  · rw [if_pos ‹_›]
    exact ⟨m, rfl, h₁⟩
  · rw [if_neg ‹_›]
    cases spare with
    | zero => exact ⟨m, rfl, h₁.keep hspare⟩
    | succ spare =>
      rw [ends_bind]
      exact (regenerate_reaches h₁ (by omega)).imp
        (fun _ s₂ h₂ => validationLoop_reaches spare h₂ (by omega)) (fun _ _ h => h)

/-- The generation fork settles on a script, or it breaks. -/
theorem generation_reaches (h : Reaches setup input (.draft 0) s) :
    Ends (generation setup) s
      (fun (script, outcome) s' => ∃ passed valid k m, outcome = ⟨passed, valid, k + 1, m + 1⟩ ∧
        Reaches setup input (.settled passed valid k m script) s')
      (Breaks setup input) := by
  simp only [generation, ends_bind, ends_get, ends_pure]
  have hreviews : s.budget.max .review = setup.config.cap .review :=
    congrArg (·.max .review) h.budget_eq
  rw [hreviews]
  refine (reviewLoop_reaches _ h (Nat.add_sub_of_le h.within.1)).imp (fun reviewed s₁ h₁ => ?_)
    (fun _ _ h => h)
  obtain ⟨k, hk, h₁⟩ := h₁
  have hvalidations : s₁.budget.max .validation = setup.config.cap .validation :=
    congrArg (·.max .validation) h₁.budget_eq
  rw [hvalidations]
  refine (validationLoop_reaches _ h₁ (Nat.add_sub_of_le h₁.within.2)).imp
    (fun validated s₂ h₂ => ?_) (fun _ _ h => h)
  obtain ⟨m, hm, h₂⟩ := h₂
  exact ⟨reviewed.accepted, validated.accepted, k, m, by rw [hk, hm], h₂⟩

end RunM

end ScriptForge.Pipeline

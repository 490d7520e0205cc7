import ScriptForge.Pipeline.RunM

/-!
# Runs

A run turns source code into a service script:

```text
identify -> encapsulate -> +-> package
                           +-> generate -> combine -> review --fail--> (from identify on)
                                                         |
                                                        pass
                                                         v
                                                     validate --invalid--> (from generate on)
```

Each loop repeats until a candidate is accepted or its budget is exhausted; then the last candidate
is kept. An error of a stage or of the sink ends the run. Packaging and generation are two forks:
one after the other, or side by side, where the first to fail stops the other.
-/

namespace ScriptForge.Pipeline

namespace RunM

/-- What a loop ends with: the last candidate, whether it was accepted and the attempts it took. -/
structure Settled where
  script : String
  accepted : Bool
  attempts : Nat
  deriving DecidableEq, Repr

/-! ## The loops -/

/-- Generates a candidate and has it reviewed. Returns the candidate and, if it is rejected, the
text of the review. -/
def reviewedCandidate (setup : Setup) : RunM (String × Option String) := do
  let _ ← step setup .generate
  let script ← step setup .combine
  let review ← step setup .review
  let verdict := setup.classifier review
  emit (.reviewed setup.runId (← get).round verdict)
  diagnose "review.passed" (.bool verdict.passed)
  if verdict.passed then
    return (script, none)
  else
    diagnose "review.feedback" (.str review)
    return (script, some review)

/-- Goes back to the source after a review has rejected a candidate. -/
def goBack (setup : Setup) (review script : String) : RunM Unit := do
  direct ⟨.review, review, some script⟩
  advanceRound setup .review
  let _ ← step setup .identify
  let _ ← step setup .encapsulate
  if setup.config.repackageOnRetry && !setup.config.concurrentForks then
    let _ ← step setup .package

/-- Generates candidates until one passes the review, at most `spare` after the first. -/
def reviewLoop (setup : Setup) (spare : Nat) : RunM Settled := do
  let attempts ← countAttempt .review
  let (script, review?) ← reviewedCandidate setup
  match review? with
  | none => return ⟨script, true, attempts⟩
  | some review =>
    match spare with
    | 0 =>
      emit (.budgetExhausted setup.runId .review attempts)
      return ⟨script, false, attempts⟩
    | spare + 1 =>
      goBack setup review script
      reviewLoop setup spare

/-- Validates a candidate and returns the verdict. -/
def validated (setup : Setup) (script : String) : RunM Quality.Verdict := do
  let verdict := setup.validator.validate script
  emit (.validated setup.runId (← get).round verdict.valid verdict.errors)
  diagnose "validation.errors" (.ofList .str verdict.errors)
  return verdict

/-- Generates and combines again after the validation has rejected a candidate. -/
def regenerate (setup : Setup) (verdict : Quality.Verdict) (script : String) : RunM String := do
  let error := s!"{verdict.report}\nRejected script:\n{script}"
  direct ⟨.validation, error, some script⟩
  advanceRound setup .validation
  let _ ← step setup .generate
  step setup .combine

/-- Validates candidates until one is valid, at most `spare` after the first. -/
def validationLoop (setup : Setup) (spare : Nat) (script : String) : RunM Settled := do
  let attempts ← countAttempt .validation
  let verdict ← validated setup script
  if verdict.valid then
    return ⟨script, true, attempts⟩
  else
    match spare with
    | 0 =>
      emit (.budgetExhausted setup.runId .validation attempts)
      return ⟨script, false, attempts⟩
    | spare + 1 =>
      let next ← regenerate setup verdict script
      validationLoop setup spare next

/-- The generation fork: both loops, one after the other. -/
def generation (setup : Setup) : RunM (String × Outcome) := do
  let reviewed ← reviewLoop setup ((← get).budget.max .review - 1)
  let validated ← validationLoop setup ((← get).budget.max .validation - 1) reviewed.script
  return (validated.script,
    ⟨reviewed.accepted, validated.accepted, reviewed.attempts, validated.attempts⟩)

/-! ## The forks -/

/-- Packaging and then generation. -/
def forksInTurn (setup : Setup) : RunM (String × Outcome) := do
  let _ ← step setup .package
  generation setup

/-- Ends a computation in a state with an error. -/
def abort (s : RunState) (error : PipelineError) : RunM α := do
  set s
  throw error

/-- What comes of two forks side by side that have started in the state `fork`: of the reply of the
packaging stage and of the end of the generation fork. Packaging goes first where both are due at
the same time; this is a choice, as nothing tells which of two forks that are due is looked at
first. The output of packaging is committed when both are done. -/
def join (setup : Setup) (fork : RunState) (reply : Reply)
    (generated : Except PipelineError (String × Outcome)) (after : RunState) :
    RunM (String × Outcome) := do
  let due := fork.clock + reply.delay
  let own := after.trace.drop fork.trace.length
  let stopped : RunState := { after with clock := due, trace := fork.trace ++ Trace.before due own }
  match reply.result, generated with
  | .error error, .ok _ =>
    abort stopped (.stage .package error)
  | .error error, .error other =>
    if due ≤ after.clock then abort stopped (.stage .package error)
    else abort after other
  | .ok output, generated =>
    let finished : Moment :=
      ⟨due, .emitted (.stageFinished setup.runId .package fork.round reply.delay output.usage)⟩
    let joined := fork.trace ++ Trace.before due own ++ finished :: Trace.since due own
    match generated with
    | .error other =>
      abort (if due ≤ after.clock then { after with trace := joined } else after) other
    | .ok result =>
      set { after with clock := max due after.clock, trace := joined }
      commit .package fork.round reply.delay output
      modify fun s => { s with ledger := { s.ledger with held := false } }
      return result

/-- Packaging and generation side by side. Packaging is called first. -/
def forksTogether (setup : Setup) : RunM (String × Outcome) := do
  modify fun s => { s with ledger := { s.ledger with held := true } }
  let call ← call setup .package none
  let fork ← get
  let (generated, after) := (generation setup).run fork
  join setup fork (setup.stages call) generated after

/-- Both forks, side by side if the configuration asks for it. -/
def forks (setup : Setup) : RunM (String × Outcome) :=
  if setup.config.concurrentForks then forksTogether setup else forksInTurn setup

/-! ## The whole run -/

/-- Writes the statistics that are left and returns what has come of the run. -/
def finish (setup : Setup) (script : String) (outcome : Outcome) : RunM RunOutput := do
  flushAll setup
  let s ← get
  emit (.runFinished setup.runId s.round)
  return {
    runId := setup.runId
    script
    pluginCode := (s.context.output? .package).getD ""
    outcome
    rounds := s.round
    history := s.context.history }

/-- A run on code that is not blank. -/
def whole (setup : Setup) : RunM RunOutput := do
  emit (.runStarted setup.runId)
  let _ ← step setup .identify
  let _ ← step setup .encapsulate
  let (script, outcome) ← forks setup
  finish setup script outcome

end RunM

/-- What can be seen of a run: what happened and what came of it. -/
structure RunReport where
  trace : Trace
  result : Except PipelineError RunOutput

/-- Runs the pipeline on an input. -/
def run (setup : Setup) (input : RunInput) : RunReport :=
  if input.isBlank then ⟨[], .error .emptyCode⟩
  else
    let (result, state) := (RunM.whole setup).run (.start setup.config input)
    ⟨state.trace, result⟩

end ScriptForge.Pipeline

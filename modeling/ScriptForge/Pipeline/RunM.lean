import ScriptForge.Pipeline.Budget
import ScriptForge.Pipeline.Config
import ScriptForge.Pipeline.Ledger
import ScriptForge.Pipeline.StageSet
import ScriptForge.Pipeline.Trace
import ScriptForge.Quality.Validator

/-!
# The steps of a run

A run is given its stages as a function from calls to replies. A reply may depend on everything the
stage is given and on the calls made before; it says how long the stage takes, so that time passes
on a clock of the run's own. The state of a run holds the clock, the trace and what the loops need.

`step` runs one stage and commits its output, `advanceRound` starts the next round, and `flush`
writes statistics. A step that fails leaves the state as it was then and ends the run.
-/

namespace ScriptForge.Pipeline

/-- The reply of a stage: how long it takes and what comes of it. -/
structure Reply where
  delay : Nat
  result : Except StageError StageOutput

/-- A stage: the slot it occupies and what it does when called. -/
structure Stage where
  slot : Slot
  run : Call → Reply

/-- The behaviour of all stages. -/
abbrev Stages := Call → Reply

/-- The behaviour of a set of stages: a call goes to the stage of its slot. -/
def StageSet.stages (set : StageSet Stage) : Stages := fun call =>
  (set.get call.slot).run call

/-- Takes the statistics of a round after others; a text says why it does not. -/
abbrev Sink := List RoundStats → RoundStats → Option String

/-- What a run works with. -/
structure Setup where
  runId : String
  config : Config
  stages : Stages
  classifier : Classifier
  validator : Quality.Validator
  sink : Option Sink

/-- The state of a run. -/
structure RunState where
  clock : Nat
  trace : Trace
  context : Context
  round : Nat
  budget : Budget
  /-- The rejection that the generating stage has not acted on yet. -/
  directive : Option Directive
  ledger : Ledger

/-- The state at the start. -/
def RunState.start (config : Config) (input : RunInput) : RunState where
  clock := 0
  trace := []
  context := .ofInput input
  round := 1
  budget := config.budget
  directive := none
  ledger := .empty

/-- Computations of a run. -/
abbrev RunM := ExceptT PipelineError (StateM RunState)

namespace RunM

/-! ## Bookkeeping -/

/-- Adds to the trace. -/
def happen (happening : Happening) : RunM Unit :=
  modify fun s => { s with trace := s.trace ++ [⟨s.clock, happening⟩] }

/-- Emits an event. -/
def emit (event : Event) : RunM Unit :=
  happen (.emitted event)

/-- Lets time pass. -/
def wait (delay : Nat) : RunM Unit :=
  modify fun s => { s with clock := s.clock + delay }

/-- Replaces a diagnostic. -/
def diagnose (name : String) (value : Json) : RunM Unit :=
  modify fun s => { s with context := s.context.diagnose name value }

/-- Counts an attempt of a loop and returns how many are counted. -/
def countAttempt (rejection : Rejection) : RunM Nat := do
  modify fun s => { s with budget := s.budget.record rejection }
  return (← get).budget.used rejection

/-- Sets the directive for the next call of the generating stage. -/
def direct (directive : Directive) : RunM Unit :=
  modify fun s => { s with directive := some directive }

/-! ## Statistics -/

/-- Writes the statistics of a round if there is a sink. -/
def write (setup : Setup) (stats : RoundStats) : RunM Unit := do
  match setup.sink with
  | none => return
  | some sink =>
    match sink (← get).trace.written stats with
    | some text => throw (.stats text)
    | none => happen (.wrote stats)

/-- Writes the statistics of several rounds. -/
def writeAll (setup : Setup) : List RoundStats → RunM Unit
  | [] => return
  | stats :: rest => do
    write setup stats
    writeAll setup rest

/-- Writes what the ledger has on the rounds before a given one. -/
def flushBefore (setup : Setup) (round : Nat) : RunM Unit := do
  let (done, ledger) := (← get).ledger.takeBefore round
  modify fun s => { s with ledger }
  writeAll setup done

/-- Writes all that the ledger has. -/
def flushAll (setup : Setup) : RunM Unit := do
  let done := (← get).ledger.rounds
  modify fun s => { s with ledger := { s.ledger with rounds := [] } }
  writeAll setup done

/-! ## Stages -/

/-- Announces a stage and calls it. -/
def call (setup : Setup) (slot : Slot) (directive : Option Directive) : RunM Call := do
  emit (.stageStarted setup.runId slot (← get).round)
  let s ← get
  let call : Call := ⟨slot, s.trace.calls.map Call.slot, s.context, directive⟩
  happen (.called call)
  return call

/-- Enters the output of a stage into the context and the ledger. -/
def commit (slot : Slot) (round latency : Nat) (output : StageOutput) : RunM Unit :=
  let record := Record.ofOutput slot round latency output
  modify fun s =>
    { s with
      ledger := s.ledger.add record
      context := (s.context.setOutput slot output.text).record record }

/-- The directive that a stage is given: the generating stage the pending one, the others none. -/
def directiveFor (s : RunState) : Slot → Option Directive
  | .generate => s.directive
  | _ => none

/-- The state after a stage has returned: the generating stage uses up the directive. -/
def consume (s : RunState) : Slot → RunState
  | .generate => { s with directive := none }
  | _ => s

/-- Runs a stage and returns its text. -/
def step (setup : Setup) (slot : Slot) : RunM String := do
  let call ← call setup slot (directiveFor (← get) slot)
  let reply := setup.stages call
  wait reply.delay
  match reply.result with
  | .error error => throw (.stage slot error)
  | .ok output =>
    let round := (← get).round
    emit (.stageFinished setup.runId slot round reply.delay output.usage)
    modify fun s => consume s slot
    commit slot round reply.delay output
    return output.text

/-- Starts the next round. The number of the round is one of 32 bits; the caps of the two loops,
which have 32 bits as well, must not sum to more if it is never to overflow. -/
def advanceRound (setup : Setup) (reason : Rejection) : RunM Unit := do
  modify fun s => { s with round := s.round + 1 }
  let round := (← get).round
  flushBefore setup round
  emit (.roundAdvanced setup.runId round reason)

end RunM

end ScriptForge.Pipeline

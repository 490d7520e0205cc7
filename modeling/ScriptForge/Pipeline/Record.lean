import ScriptForge.Digest.Blake3
import ScriptForge.Pipeline.Slot
import ScriptForge.Pipeline.Usage
import ScriptForge.Text.Blank

/-!
# Inputs, records and outcomes

What a run is given, what is kept of each execution of a stage and how the final script was reached.
-/

namespace ScriptForge.Pipeline

open Json

/-- What a run is given. -/
structure RunInput where
  /-- The source code to convert. -/
  code : String
  /-- Free hints, such as the name of the service. -/
  auxiliary : String := ""
  deriving DecidableEq, Repr

namespace RunInput

/-- Whether there is no source code. -/
def isBlank (input : RunInput) : Bool :=
  Text.allBlank input.code

def toJson (input : RunInput) : Json :=
  .obj [("code", .str input.code), ("auxiliary_info", .str input.auxiliary)]

def ofJson? : Json → Option RunInput :=
  record? do return ⟨← field "code" string?, ← withDefault "auxiliary_info" string? ""⟩

end RunInput

/-- One execution of a stage. -/
structure Record where
  slot : Slot
  round : Nat
  latency : Nat
  usage : Usage
  /-- The fingerprint of the text that the stage returned. -/
  outputHash : String
  deriving DecidableEq, Repr

namespace Record

/-- The record of an execution that returned `output`. -/
def ofOutput (slot : Slot) (round latency : Nat) (output : StageOutput) : Record :=
  ⟨slot, round, latency, output.usage, Digest.fingerprint output.text⟩

def toJson (record : Record) : Json :=
  .obj [("slot", record.slot.toJson), ("round", .nat record.round),
    ("latency_ms", .nat record.latency), ("usage", record.usage.toJson),
    ("output_hash", .str record.outputHash)]

def ofJson? : Json → Option Record :=
  record? do
    return ⟨← field "slot" Slot.ofJson?, ← field "round" word32?, ← field "latency_ms" word64?,
      ← field "usage" Usage.ofJson?, ← field "output_hash" string?⟩

end Record

/-- How the final script was reached. -/
structure Outcome where
  reviewPassed : Bool
  scriptValid : Bool
  reviewAttempts : Nat
  validationAttempts : Nat
  deriving DecidableEq, Repr

namespace Outcome

/-- Whether a feedback loop ran out of attempts, so that the last candidate was kept. -/
def isLastCandidate (outcome : Outcome) : Bool :=
  !(outcome.reviewPassed && outcome.scriptValid)

def toJson (outcome : Outcome) : Json :=
  .obj [("review_passed", .bool outcome.reviewPassed), ("syntax_valid", .bool outcome.scriptValid),
    ("functional_attempts", .nat outcome.reviewAttempts),
    ("syntax_attempts", .nat outcome.validationAttempts)]

def ofJson? : Json → Option Outcome :=
  record? do
    return ⟨← field "review_passed" bool?, ← field "syntax_valid" bool?,
      ← field "functional_attempts" word32?, ← field "syntax_attempts" word32?⟩

end Outcome

/-- What a run returns. -/
structure RunOutput where
  runId : String
  script : String
  pluginCode : String
  outcome : Outcome
  /-- The highest round reached. -/
  rounds : Nat
  history : List Record
  deriving DecidableEq, Repr

/-- What a run returns, with the time at which it ended. -/
def RunOutput.toJson (finishedAt : String) (output : RunOutput) : Json :=
  .obj [("run_id", .str output.runId), ("script", .str output.script),
    ("plugin_code", .str output.pluginCode), ("outcome", output.outcome.toJson),
    ("rounds", .nat output.rounds), ("history", .ofList Record.toJson output.history),
    ("finished_at", .str finishedAt)]

end ScriptForge.Pipeline

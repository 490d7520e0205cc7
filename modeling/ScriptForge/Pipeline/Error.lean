import ScriptForge.Pipeline.Slot

/-!
# Errors

What can go wrong in a stage, in a configuration and in a run as a whole. Where a text comes from a
reader of a foreign format, a tag such as `<yaml>` stands for that reader's own words.
-/

namespace ScriptForge.Pipeline

/-- Why a stage failed. -/
inductive StageError
  | transport (text : String)
  | timeout (milliseconds : Nat)
  | emptyResponse
  | api (status : Nat) (body : String)
  | template (text : String)
  /-- A slot whose output is needed has none. -/
  | missingInput (slot : Slot)
  | config (text : String)
  deriving DecidableEq, Repr

def StageError.message : StageError → String
  | transport text => s!"transport error: {text}"
  | timeout milliseconds => s!"request timed out after {milliseconds} ms"
  | emptyResponse => "model returned an empty response"
  | api status body => s!"api returned status {status}: {body}"
  | template text => s!"template error: {text}"
  | missingInput slot => s!"missing input: {slot.id} has not produced output yet"
  | config text => s!"configuration error: {text}"

/-- Why a configuration is invalid. -/
inductive ConfigError
  /-- A setting that should be a number. -/
  | noNumber (setting value : String)
  /-- A setting that should be a truth value. -/
  | noTruthValue (setting value : String)
  /-- A document that does not hold a configuration. -/
  | unreadable
  | slotMissing (slot : Slot)
  | slotTwice (slot : Slot)
  /-- A stage cannot be made. -/
  | stage (error : StageError)
  deriving DecidableEq, Repr

def ConfigError.message : ConfigError → String
  | noNumber setting value => s!"{setting} must be a non-negative integer, got '{value}'"
  | noTruthValue setting value => s!"{setting} must be a boolean, got '{value}'"
  | unreadable => "<yaml>"
  | slotMissing slot => s!"no stage for slot {slot.id}"
  | slotTwice slot => s!"stage slot {slot.id} given twice"
  | stage error => error.message

/-- Why a run was aborted. -/
inductive PipelineError
  | stage (slot : Slot) (error : StageError)
  /-- There is no source code. -/
  | emptyCode
  | config (error : ConfigError)
  /-- The statistics of a round could not be written. -/
  | stats (text : String)
  deriving DecidableEq, Repr

def PipelineError.message : PipelineError → String
  | stage slot error => s!"stage {slot.id} failed: {error.message}"
  | emptyCode => "invalid input: source code must not be empty"
  | config error => s!"invalid configuration: {error.message}"
  | stats text => s!"statistics sink failed: {text}"

end ScriptForge.Pipeline

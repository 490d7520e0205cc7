import ScriptForge.Pipeline.Error

/-!
# Failures of a command

A failure has a message and, if it was brought about by other errors, their messages from the
nearest to the furthest. In the report a single cause is indented and several are numbered.
-/

namespace ScriptForge.Cli

open Pipeline

/-- Why a command failed. -/
structure Failure where
  message : String
  causes : List String := []
  deriving DecidableEq, Repr

namespace Failure

/-- A stage error on its own. -/
def ofStage (error : StageError) : Failure where
  message := error.message

/-- An error of a run, with what brought it about. -/
def ofPipeline (error : PipelineError) : Failure where
  message := error.message
  causes :=
    match error with
    | .stage _ source => [source.message]
    | .stats text => [text]
    | .emptyCode | .config _ => []

/-- A text with its first line behind `first` and every further line behind `further`. -/
def indented (first further text : String) : String :=
  first ++ ("\n" ++ further).intercalate (text.splitOn "\n")

/-- The lines on the causes. -/
def causeLines : List String → List String
  | [cause] => [indented "    " "    " cause]
  | causes => causes.zipIdx.map fun (cause, i) =>
    let number := toString i
    indented ("".pushn ' ' (5 - number.length) ++ number ++ ": ") "       " cause

/-- The report on a failure. -/
def report (failure : Failure) : String :=
  s!"Error: {failure.message}" ++
    match failure.causes with
    | [] => ""
    | causes => "\n\nCaused by:\n" ++ "\n".intercalate (causeLines causes)

end Failure

end ScriptForge.Cli

import ScriptForge.Pipeline.Directive
import ScriptForge.Pipeline.Review
import ScriptForge.Pipeline.Slot
import ScriptForge.Pipeline.Usage

/-!
# Progress events

What a run tells its observers while it goes on. Each event carries the id of the run.
-/

namespace ScriptForge.Pipeline

open Json

/-- Events of a run. -/
inductive Event
  | runStarted (runId : String)
  | stageStarted (runId : String) (slot : Slot) (round : Nat)
  | stageFinished (runId : String) (slot : Slot) (round latency : Nat) (usage : Usage)
  | reviewed (runId : String) (round : Nat) (verdict : ReviewVerdict)
  | validated (runId : String) (round : Nat) (valid : Bool) (errors : List String)
  | roundAdvanced (runId : String) (round : Nat) (reason : Rejection)
  | budgetExhausted (runId : String) (rejection : Rejection) (attempts : Nat)
  | runFinished (runId : String) (rounds : Nat)
  deriving DecidableEq, Repr

namespace Event

/-- The id of the run that an event belongs to. -/
def runId : Event → String
  | runStarted id | stageStarted id _ _ | stageFinished id _ _ _ _ | reviewed id _ _
  | validated id _ _ _ | roundAdvanced id _ _ | budgetExhausted id _ _ | runFinished id _ => id

/-- An event with its fields, the name first. -/
def tagged (name runId : String) (fields : List (String × Json)) : Json :=
  .obj (("event", .str name) :: ("run_id", .str runId) :: fields)

def toJson : Event → Json
  | runStarted id => tagged "run_started" id []
  | stageStarted id slot round =>
    tagged "stage_started" id [("slot", slot.toJson), ("round", .nat round)]
  | stageFinished id slot round latency usage =>
    tagged "stage_finished" id
      [("slot", slot.toJson), ("round", .nat round), ("latency_ms", .nat latency),
        ("usage", usage.toJson)]
  | reviewed id round verdict =>
    tagged "review_verdict" id [("round", .nat round), ("verdict", verdict.toJson)]
  | validated id round valid errors =>
    tagged "syntax_checked" id
      [("round", .nat round), ("valid", .bool valid), ("errors", .ofList .str errors)]
  | roundAdvanced id round reason =>
    tagged "round_advanced" id [("round", .nat round), ("reason", reason.toJson)]
  | budgetExhausted id rejection attempts =>
    tagged "budget_exhausted" id [("kind", rejection.toJson), ("attempts", .nat attempts)]
  | runFinished id rounds => tagged "run_finished" id [("rounds", .nat rounds)]

/-- The fields of each kind of event. -/
def alternative : String → FieldReader Event
  | "run_started" => return .runStarted (← field "run_id" string?)
  | "stage_started" =>
    return .stageStarted (← field "run_id" string?) (← field "slot" Slot.ofJson?)
      (← field "round" word32?)
  | "stage_finished" =>
    return .stageFinished (← field "run_id" string?) (← field "slot" Slot.ofJson?)
      (← field "round" word32?) (← field "latency_ms" word64?) (← field "usage" Usage.ofJson?)
  | "review_verdict" =>
    return .reviewed (← field "run_id" string?) (← field "round" word32?)
      (← field "verdict" ReviewVerdict.ofJson?)
  | "syntax_checked" =>
    return .validated (← field "run_id" string?) (← field "round" word32?) (← field "valid" bool?)
      (← field "errors" (items? string?))
  | "round_advanced" =>
    return .roundAdvanced (← field "run_id" string?) (← field "round" word32?)
      (← field "reason" Rejection.ofJson?)
  | "budget_exhausted" =>
    return .budgetExhausted (← field "run_id" string?) (← field "kind" Rejection.ofJson?)
      (← field "attempts" word32?)
  | "run_finished" => return .runFinished (← field "run_id" string?) (← field "rounds" word32?)
  | _ => failure

def ofJson? : Json → Option Event :=
  tagged? "event" alternative

end Event

end ScriptForge.Pipeline

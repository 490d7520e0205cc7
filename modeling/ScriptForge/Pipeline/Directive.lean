import ScriptForge.Json.Fields

/-!
# Regeneration directives

A candidate can be rejected in two ways: the review finds that it does something else than the
source, or the validation finds that it is no valid script. Each way has a feedback loop of its own.
The directive tells the generating stage why the last candidate was rejected.
-/

namespace ScriptForge.Pipeline

open Json

/-- The two ways in which a candidate is rejected. -/
inductive Rejection
  /-- By the review. -/
  | review
  /-- By the validation. -/
  | validation
  deriving DecidableEq, Repr

namespace Rejection

def name : Rejection → String
  | review => "functional"
  | validation => "syntax"

def ofName? : String → Option Rejection
  | "functional" => some review
  | "syntax" => some validation
  | _ => none

def toJson (rejection : Rejection) : Json :=
  .str rejection.name

def ofJson? : Json → Option Rejection :=
  choice? ofName?

end Rejection

/-- Why a candidate was rejected. -/
structure Directive where
  rejection : Rejection
  /-- The text of the review, or the report of the validation. -/
  error : String
  /-- The rejected candidate. -/
  previousScript : Option String
  deriving DecidableEq, Repr

namespace Directive

def toJson (directive : Directive) : Json :=
  .obj [("kind", directive.rejection.toJson), ("error", .str directive.error),
    ("previous_script", .ofOption .str directive.previousScript)]

def ofJson? : Json → Option Directive :=
  record? do
    return ⟨← field "kind" Rejection.ofJson?, ← field "error" string?,
      ← optional "previous_script" string?⟩

end Directive

end ScriptForge.Pipeline

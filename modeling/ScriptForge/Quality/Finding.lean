import ScriptForge.Json.Fields

/-!
# Findings

A finding is one problem of a script: the check that found it, a message, and possibly a way to mend
it and the line where it stands.
-/

namespace ScriptForge.Quality

open Json

/-- The checks that find problems. -/
inductive Check
  /-- The text is no script at all. -/
  | form
  | serviceDefinition
  | naming
  | termination
  | dataFlow
  | gqlBody
  deriving DecidableEq, Repr

def Check.name : Check → String
  | form => "syntax"
  | serviceDefinition => "service_definition"
  | naming => "naming"
  | termination => "termination"
  | dataFlow => "data_flow"
  | gqlBody => "gql_body"

def Check.ofName? : String → Option Check
  | "syntax" => some .form
  | "service_definition" => some .serviceDefinition
  | "naming" => some .naming
  | "termination" => some .termination
  | "data_flow" => some .dataFlow
  | "gql_body" => some .gqlBody
  | _ => none

/-- A problem of a script. -/
structure Finding where
  check : Check
  message : String
  suggestion : Option String
  line : Option Nat
  deriving DecidableEq, Repr

namespace Finding

def toJson (finding : Finding) : Json :=
  .obj [("check", .str finding.check.name), ("message", .str finding.message),
    ("suggestion", .ofOption .str finding.suggestion), ("line", .ofOption .nat finding.line)]

def ofJson? : Json → Option Finding :=
  record? do
    return ⟨← field "check" (choice? Check.ofName?), ← field "message" string?,
      ← optional "suggestion" string?, ← optional "line" word64?⟩

end Finding

end ScriptForge.Quality

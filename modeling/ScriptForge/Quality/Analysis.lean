import ScriptForge.Quality.Naming
import ScriptForge.Script.Walk
import ScriptForge.Text.Blank

/-!
# Checks on the tree of a script

Four checks, each over the whole script: declared names follow the convention, every statement is
terminated, every variable that is read is declared somewhere, and GraphQL blocks select something.
Whether a variable is declared before it is read does not matter.
-/

namespace ScriptForge.Quality

open Script

/-- One finding for each declared name that breaks the convention. -/
def namingFindings (script : Script) : List Finding :=
  script.visits.filterMap fun
    | .declaration name position =>
      if isConventional name.toList then none else some (namingFinding name position.line)
    | _ => none

/-- The finding for a statement without its semicolon. -/
def terminationFinding (statement : Statement) : Finding where
  check := .termination
  message :=
    s!"statement at line {statement.position.line} is missing its terminator: {statement.content}"
  suggestion := some s!"append ';' to '{statement.content}'"
  line := some statement.position.line

/-- One finding for each statement without its semicolon. -/
def terminationFindings (script : Script) : List Finding :=
  script.visits.filterMap fun
    | .statement statement =>
      if statement.terminated then none else some (terminationFinding statement)
    | _ => none

/-- The first reference to each name that has not been seen yet. -/
def firstUses (seen : List String) : List Reference → List Reference
  | [] => []
  | reference :: rest =>
    if seen.contains reference.name then firstUses seen rest
    else reference :: firstUses (reference.name :: seen) rest

/-- The finding for a variable that is nowhere declared. -/
def dataFlowFinding (reference : Reference) : Finding where
  check := .dataFlow
  message := s!"variable '{reference.name}' is used but never declared"
  suggestion :=
    some s!"declare '{reference.name}' with `new {reference.name} = ...` before using it"
  line := some reference.position.line

/-- One finding for each variable that is read but nowhere declared, at its first use. -/
def dataFlowFindings (script : Script) : List Finding :=
  ((firstUses [] script.references).filter fun reference =>
    !script.declaredNames.contains reference.name).map dataFlowFinding

/-- The finding for a GraphQL block that selects nothing. -/
def gqlBodyFinding (operation : Operation) (line : Nat) : Finding :=
  let name := match operation with
    | .query => "query"
    | .mutation => "mutation"
  { check := .gqlBody
    message := s!"gql {name} body is empty"
    suggestion := some s!"add the fields to select in the gql {name}"
    line := some line }

/-- One finding for each statement whose value is a GraphQL block that selects nothing. -/
def gqlBodyFindings (script : Script) : List Finding :=
  script.statements.filterMap fun statement =>
    match statement.kind.value? with
    | some (.query block) =>
      if Text.allBlank block.body then
        some (gqlBodyFinding block.operation statement.position.line)
      else none
    | _ => none

/-- The findings of all four checks. -/
def analyze (script : Script) : List Finding :=
  namingFindings script ++ terminationFindings script ++ dataFlowFindings script ++
    gqlBodyFindings script

end ScriptForge.Quality

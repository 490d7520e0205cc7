import ScriptForge.Pipeline.Directive
import ScriptForge.Text.Blank

/-!
# Feedback

What the generating stage is told about a rejected candidate: a heading for the way in which it was
rejected, the error, the candidate itself and a checklist.
-/

namespace ScriptForge.Prompt

open Pipeline

/-- The heading of the feedback. -/
def feedbackHeading : Rejection → String
  | .review => "Functional review failed"
  | .validation => "Syntax errors"

/-- What is to be checked before the next candidate. -/
def checklist : Rejection → List String
  | .review => [
    "The script does what the original code does",
    "Data flows and variable transformations are correct",
    "Inputs and outputs match the original service's structure"]
  | .validation => [
    "Variable names are a name followed by exactly eight digits",
    "Every statement ends with a semicolon",
    "GraphQL blocks use `gql query \x7b ... \x7d` or `gql mutation \x7b ... \x7d`",
    "Output mappings use `<service>.<field>` on the left-hand side",
    "Plugin calls use `<plugin>.<extension>/<function>(<args>)`"]

/-- A numbered list. -/
def numbered (items : List String) : String :=
  String.join (items.zipIdx.map fun (item, i) => s!"{i + 1}. {item}\n")

/-- The feedback on a rejected candidate. -/
def feedback (directive : Directive) : String :=
  let rejected :=
    match directive.previousScript with
    | some script => s!"===== Previous script =====\n{Text.trimmed script}\n\n"
    | none => ""
  s!"===== {feedbackHeading directive.rejection} =====\n{Text.trimmed directive.error}\n\n" ++
    rejected ++ "Fix the problems above. In particular check:\n" ++
    numbered (checklist directive.rejection)

end ScriptForge.Prompt

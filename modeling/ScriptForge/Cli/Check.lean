import ScriptForge.Cli.Failure
import ScriptForge.Cli.Host
import ScriptForge.Json.Writer
import ScriptForge.Quality.Validator
import ScriptForge.Script.Json

/-!
# The command `check`

Validates a script in a file and prints the report on it: the tree of the script if asked for, then
the verdict.
-/

namespace ScriptForge.Cli

/-- What a command prints, and why it failed if it did. -/
structure Finished where
  output : String
  failure : Option Failure
  deriving DecidableEq, Repr

/-! ## The report -/

/-- The tree of a script, or why it has none. -/
def treeReport (script : String) : String :=
  match Script.parse script with
  | .ok tree => tree.toJson.pretty ++ "\n"
  | .error error => s!"parse error: {error.message}\n"

/-- Whether a script is valid, and the report on it. -/
def checkReport (script : String) (tree : Bool) (validator : Quality.Validator) : Bool × String :=
  let verdict := validator.validate script
  let text :=
    if verdict.valid then s!"valid (engine: {verdict.engine.title})\n" else verdict.report
  (verdict.valid, (if tree then treeReport script else "") ++ text)

/-! ## The command -/

/-- Reads a file that a command needs. -/
def readNeeded [Monad m] (host : Host m) (path : String) : ExceptT Failure m String := do
  match ← host.read path with
  | .ok text => return text
  | .error reason => throw ⟨s!"failed to read {path}", [reason]⟩

/-- The validator that the settings ask for. -/
def validatorOf (settings : String → Option String) : Quality.Validator :=
  .ofConfig (.ofSetting (settings "SVCGEN_GRAMMAR"))

/-- Validates a script, and shows its tree first if asked to. -/
def check [Monad m] (host : Host m) (settings : String → Option String) (path : String)
    (tree : Bool) : m Finished := do
  match ← (readNeeded host path).run with
  | .error failure => return ⟨"", some failure⟩
  | .ok script =>
    let (valid, report) := checkReport script tree (validatorOf settings)
    return ⟨report, if valid then none else some ⟨s!"{path} is not a valid service script", []⟩⟩

end ScriptForge.Cli

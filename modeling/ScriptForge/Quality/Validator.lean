import ScriptForge.Quality.TextCheck
import ScriptForge.Script.Parse

/-!
# Validation

A validator runs one of two engines. The grammar engine parses the script and checks its tree; a
text that does not parse has that as its only finding. The fallback engine checks the text. Which
engine a validator runs is decided when it is made: the grammar has to be enabled and to accept a
sample script.

A verdict is valid when it holds no errors. `Verdict.ofFindings` builds it from the findings.
-/

namespace ScriptForge.Quality

open Json

/-- What produces the findings. -/
inductive Engine
  | grammar
  | fallback
  deriving DecidableEq, Repr

namespace Engine

def name : Engine → String
  | grammar => "grammar"
  | fallback => "fallback"

def ofName? : String → Option Engine
  | "grammar" => some .grammar
  | "fallback" => some .fallback
  | _ => none

/-- The name of an engine in the report on a valid script. -/
def title : Engine → String
  | grammar => "Grammar"
  | fallback => "Fallback"

end Engine

/-! ## Verdicts -/

/-- The outcome of a validation. -/
structure Verdict where
  valid : Bool
  errors : List String
  suggestions : List String
  findings : List Finding
  engine : Engine
  deriving DecidableEq, Repr

namespace Verdict

/-- The verdict on a script with these findings. -/
def ofFindings (engine : Engine) (findings : List Finding) : Verdict where
  valid := findings.isEmpty
  errors := findings.map Finding.message
  suggestions := findings.filterMap Finding.suggestion
  findings
  engine

/-- A bullet list. -/
def bullets (items : List String) : String :=
  String.join (items.map fun item => s!"- {item}\n")

/-- The errors and the suggestions as bullet lists. -/
def report (verdict : Verdict) : String :=
  "Syntax validation errors:\n" ++ bullets verdict.errors ++
    if verdict.suggestions.isEmpty then ""
    else "\nSuggested fixes:\n" ++ bullets verdict.suggestions

def toJson (verdict : Verdict) : Json :=
  .obj [("valid", .bool verdict.valid), ("errors", .ofList .str verdict.errors),
    ("suggestions", .ofList .str verdict.suggestions),
    ("findings", .ofList Finding.toJson verdict.findings), ("engine", .str verdict.engine.name)]

def ofJson? : Json → Option Verdict :=
  record? do
    return ⟨← field "valid" bool?, ← field "errors" (items? string?),
      ← field "suggestions" (items? string?), ← field "findings" (items? Finding.ofJson?),
      ← field "engine" (choice? Engine.ofName?)⟩

end Verdict

/-! ## Configuration -/

/-- Whether the grammar may be used. -/
structure ValidatorConfig where
  grammarEnabled : Bool := true
  deriving DecidableEq, Repr

namespace ValidatorConfig

/-- The words that switch the grammar off. -/
def offWords : List String := ["off", "false", "0"]

/-- The configuration that a setting gives; the grammar is enabled unless the setting switches it
off. -/
def ofSetting : Option String → ValidatorConfig
  | none => {}
  | some setting =>
    ⟨!(offWords.map String.toList).contains (Text.lower (Text.trim setting.toList))⟩

def toJson (config : ValidatorConfig) : Json :=
  .obj [("grammar_enabled", .bool config.grammarEnabled)]

def ofJson? : Json → Option ValidatorConfig :=
  record? do return ⟨← withDefault "grammar_enabled" bool? true⟩

end ValidatorConfig

/-! ## Validators -/

/-- A validator with the engine it runs. -/
structure Validator where
  engine : Engine
  deriving DecidableEq, Repr

/-- The script that the grammar has to accept. -/
def sampleScript : String :=
  "service order-rpc \x7b
    new order12345678 = gql query \x7b getOrder \x7d;

    new result12345678 = myorder.exe/processOrder(order12345678);

    output order-rpc.result = result12345678;

    return result12345678;
\x7d"

/-- The finding for a text that does not parse. -/
def parseFinding (error : Script.ParseError) : Finding :=
  match error with
  | .empty => ⟨.form, "script is empty", some "emit a `service <name> \x7b ... \x7d` block", none⟩
  | .unexpected position _ =>
    ⟨.form, "syntax error at " ++ error.message,
      some s!"check the syntax near line {position.line}", some position.line⟩
  | .missing _ => ⟨.form, "syntax error: " ++ error.message, none, none⟩

namespace Validator

/-- The validator for a configuration. -/
def ofConfig (config : ValidatorConfig) : Validator :=
  if config.grammarEnabled then
    match Script.parse sampleScript with
    | .ok _ => ⟨.grammar⟩
    | .error _ => ⟨.fallback⟩
  else ⟨.fallback⟩

/-- The validator for the default configuration. -/
def default : Validator :=
  ofConfig {}

/-- What the engine finds in a script. -/
def findings (validator : Validator) (script : String) : List Finding :=
  match validator.engine with
  | .grammar =>
    match Script.parse script with
    | .ok tree => analyze tree
    | .error error => [parseFinding error]
  | .fallback => TextCheck.findings script

/-- The verdict on a script. -/
def validate (validator : Validator) (script : String) : Verdict :=
  .ofFindings validator.engine (validator.findings script)

end Validator

end ScriptForge.Quality

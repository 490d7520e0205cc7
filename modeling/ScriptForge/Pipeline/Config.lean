import ScriptForge.Decimal.Natural
import ScriptForge.Pipeline.Budget
import ScriptForge.Pipeline.Error
import ScriptForge.Text.Blank
import ScriptForge.Text.Letter
import ScriptForge.Yaml.Fields
import ScriptForge.Yaml.Reader

/-!
# Configuration of a run

How often each feedback loop may run and how the packaging fork is run. The configuration comes
from settings that are looked up by name or from a document. Of the settings, one sets both retry
counts and one for each count overrides it.
-/

namespace ScriptForge.Pipeline

open Json

/-- The configuration of a run. -/
structure Config where
  /-- How often a candidate is generated and reviewed before the last one is kept. -/
  reviewRetries : Nat := 3
  /-- How often a candidate is validated before the last one is kept. -/
  validationRetries : Nat := 3
  /-- Run the packaging fork alongside the generation fork. -/
  concurrentForks : Bool := false
  /-- Package again after a review has sent the run back. Ignored when the forks are concurrent. -/
  repackageOnRetry : Bool := false
  deriving DecidableEq, Repr

namespace Config

/-- The budget of a run. -/
def budget (config : Config) : Budget :=
  .ofCaps config.reviewRetries config.validationRetries

/-! ## Settings -/

/-- A truth value in words. -/
def truthValue? (text : List Char) : Option Bool :=
  let word := String.ofList (Text.lower text)
  if ["1", "true", "yes", "on"].contains word then some true
  else if ["0", "false", "no", "off"].contains word then some false
  else none

/-- A setting that is a number if it is given at all. -/
def numberSetting (lookup : String → Option String) (name : String) :
    Except ConfigError (Option Nat) :=
  match lookup name with
  | none => .ok none
  | some text =>
    match Decimal.natBelow? UInt32.size (Text.trim text.toList) with
    | some n => .ok (some n)
    | none => .error (.noNumber name text)

/-- A setting that is a truth value if it is given at all. -/
def truthSetting (lookup : String → Option String) (name : String) :
    Except ConfigError (Option Bool) :=
  match lookup name with
  | none => .ok none
  | some text =>
    match truthValue? (Text.trim text.toList) with
    | some b => .ok (some b)
    | none => .error (.noTruthValue name text)

/-- The configuration that settings give. -/
def ofSettings (lookup : String → Option String) : Except ConfigError Config := do
  let both ← numberSetting lookup "SVCGEN_MAX_RETRIES"
  let review ← numberSetting lookup "SVCGEN_FUNCTIONAL_RETRIES"
  let validation ← numberSetting lookup "SVCGEN_SYNTAX_RETRIES"
  let concurrent ← truthSetting lookup "SVCGEN_CONCURRENT_FORKS"
  let repackage ← truthSetting lookup "SVCGEN_REPACKAGE_ON_RETRY"
  let default : Config := {}
  return {
    reviewRetries := (review.orElse fun _ => both).getD default.reviewRetries
    validationRetries := (validation.orElse fun _ => both).getD default.validationRetries
    concurrentForks := concurrent.getD default.concurrentForks
    repackageOnRetry := repackage.getD default.repackageOnRetry }

/-! ## JSON -/

def toJson (config : Config) : Json :=
  .obj [("functional_retries", .nat config.reviewRetries),
    ("syntax_retries", .nat config.validationRetries),
    ("concurrent_forks", .bool config.concurrentForks),
    ("repackage_on_retry", .bool config.repackageOnRetry)]

def ofJson? : Json → Option Config :=
  let default : Config := {}
  record? do
    return {
      reviewRetries := ← withDefault "functional_retries" word32? default.reviewRetries
      validationRetries := ← withDefault "syntax_retries" word32? default.validationRetries
      concurrentForks := ← withDefault "concurrent_forks" bool? default.concurrentForks
      repackageOnRetry := ← withDefault "repackage_on_retry" bool? default.repackageOnRetry }

/-! ## YAML -/

def ofYaml? (yaml : Yaml) : Option Config := do
  let default : Config := {}
  let fields ← yaml.fields?
  let number := Yaml.natBelow? UInt32.size
  return {
    reviewRetries := ← Yaml.fieldOr? fields "functional_retries" number default.reviewRetries
    validationRetries := ← Yaml.fieldOr? fields "syntax_retries" number default.validationRetries
    concurrentForks :=
      ← Yaml.fieldOr? fields "concurrent_forks" Yaml.truth? default.concurrentForks
    repackageOnRetry :=
      ← Yaml.fieldOr? fields "repackage_on_retry" Yaml.truth? default.repackageOnRetry }

/-- The configuration that a document holds. -/
def ofDocument (text : String) : Except ConfigError Config :=
  match (Yaml.read? text).bind ofYaml? with
  | some config => .ok config
  | none => .error .unreadable

end Config

end ScriptForge.Pipeline

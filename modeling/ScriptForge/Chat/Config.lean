import ScriptForge.Chat.Request
import ScriptForge.Decimal.Natural
import ScriptForge.Text.Blank

/-!
# Configuration of the chat client

Where each provider is reached and with which key, how long an answer may take and how often a
request is sent. Addresses, keys and the time limit come from settings; a setting that is empty, or
a time limit that is no number, counts as not given.
-/

namespace ScriptForge.Chat

/-- Where a provider is reached and with which key. -/
structure Endpoint where
  url : Option String := none
  key : Option String := none
  deriving DecidableEq, Repr

/-- The configuration of the client; times are in milliseconds. -/
structure Config where
  claude : Endpoint := {}
  gemini : Endpoint := {}
  openAi : Endpoint := {}
  timeout : Nat := 90000
  /-- How often a request is sent at most. -/
  attempts : Nat := 3
  /-- The unit of the pauses between attempts. -/
  pause : Nat := 1000
  temperature : Float32 := 0.1
  maxTokens : Nat := 8192

namespace Config

/-- The endpoint of a provider. -/
def endpoint (config : Config) : Provider → Endpoint
  | .claude => config.claude
  | .gemini => config.gemini
  | .openAi => config.openAi

/-- The value of a setting that is not empty. -/
def setting? (lookup : String → Option String) (name : String) : Option String :=
  (lookup name).filter fun value => !value.isEmpty

/-- The endpoint that settings give a provider. -/
def endpointOf (lookup : String → Option String) (provider : Provider) : Endpoint where
  url := setting? lookup s!"{provider.settingsName}_API_URL"
  key := setting? lookup s!"{provider.settingsName}_API_KEY"

/-- The configuration that settings give. -/
def ofSettings (lookup : String → Option String) : Config :=
  let limit := (lookup "API_TIMEOUT_READ").bind fun text =>
    Decimal.natBelow? UInt64.size (Text.trim text.toList)
  let default : Config := {}
  { default with
    claude := endpointOf lookup .claude
    gemini := endpointOf lookup .gemini
    openAi := endpointOf lookup .openAi
    timeout := limit.getD default.timeout }

/-- The settings of the keys that are not given, for the providers that a run needs by default. -/
def missingKeys (config : Config) : List String :=
  [Provider.claude, .gemini].filterMap fun provider =>
    match (config.endpoint provider).key with
    | none => some s!"{provider.settingsName}_API_KEY"
    | some _ => none

end Config

end ScriptForge.Chat

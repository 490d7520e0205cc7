import ScriptForge.Json.Fields

/-!
# Chat requests

What is asked of a chat model, and which provider serves a model. The start of a model's name
decides; a name with no known start goes to the first provider.
-/

namespace ScriptForge.Chat

open Json

/-- What is asked of a chat model. -/
structure Request where
  model : String
  systemPrompt : String
  userMessage : String
  /-- The name of the asking stage. -/
  label : String
  deriving DecidableEq, Repr

namespace Request

def toJson (request : Request) : Json :=
  .obj [("model", .str request.model), ("system_prompt", .str request.systemPrompt),
    ("user_message", .str request.userMessage), ("label", .str request.label)]

def ofJson? : Json → Option Request :=
  record? do
    return ⟨← field "model" string?, ← field "system_prompt" string?,
      ← field "user_message" string?, ← field "label" string?⟩

end Request

/-- Who serves models. -/
inductive Provider
  | claude
  | gemini
  | openAi
  deriving DecidableEq, Repr

namespace Provider

/-- The provider of a model. -/
def ofModel (model : String) : Provider :=
  if "gemini".toList.isPrefixOf model.toList then gemini
  else if "gpt".toList.isPrefixOf model.toList then openAi
  else claude

/-- The start of the names of a provider's settings. -/
def settingsName : Provider → String
  | claude => "CLAUDE"
  | gemini => "GEMINI"
  | openAi => "OPENAI"

end Provider

end ScriptForge.Chat

import ScriptForge.Json.Fields

/-!
# Token usage

How many tokens a stage has used, and what a stage returns: a text with its usage.
-/

namespace ScriptForge.Pipeline

open Json

/-- Tokens used by one execution of a stage. -/
structure Usage where
  prompt : Nat
  completion : Nat
  total : Nat
  deriving DecidableEq, Repr, Inhabited

namespace Usage

/-- No tokens. -/
def zero : Usage := ⟨0, 0, 0⟩

def toJson (usage : Usage) : Json :=
  .obj [("prompt_tokens", .nat usage.prompt), ("completion_tokens", .nat usage.completion),
    ("total_tokens", .nat usage.total)]

def ofJson? : Json → Option Usage :=
  record? do
    return ⟨← field "prompt_tokens" word64?, ← field "completion_tokens" word64?,
      ← field "total_tokens" word64?⟩

end Usage

/-- What a stage returns. -/
structure StageOutput where
  text : String
  usage : Usage
  deriving DecidableEq, Repr

namespace StageOutput

def toJson (output : StageOutput) : Json :=
  .obj [("text", .str output.text), ("usage", output.usage.toJson)]

def ofJson? : Json → Option StageOutput :=
  record? do return ⟨← field "text" string?, ← field "usage" Usage.ofJson?⟩

end StageOutput

end ScriptForge.Pipeline

import ScriptForge.Chat.Overflow
import ScriptForge.Decimal.Natural
import ScriptForge.Pipeline.Error
import ScriptForge.Pipeline.Usage
import ScriptForge.Text.Blank

/-!
# Completions

The answer of a chat model is a JSON document. Its text is the content of the first choice and must
not be blank. A token count that is missing or no natural number of 64 bits counts as zero; a
missing total is the sum of the two others, a number of 64 bits as well.
-/

namespace ScriptForge.Json

/-- A field of an object or, if the key is a number, an item of an array. -/
def child? (key : String) : Json → Option Json
  | .arr items => (Decimal.nat? key.toList).bind fun i => items[i]?
  | json => json.get? key

/-- The value at the end of some keys. -/
def descend? : (keys : List String) → Json → Option Json
  | [], json => some json
  | key :: keys, json => (child? key json).bind (descend? keys)

end ScriptForge.Json

namespace ScriptForge.Chat

open Pipeline

/-- The text of an answer; empty if there is none. -/
def contentOf (body : Json) : String :=
  ((body.descend? ["choices", "0", "message", "content"]).bind Json.string?).getD ""

/-- A token count of an answer. -/
def tokens? (body : Json) (name : String) : Option Nat :=
  ((body.get? "usage").bind (·.get? name)).bind (Json.natBelow? UInt64.size)

/-- The usage that an answer reports; nothing if the program stops. -/
def usageOf (overflow : Overflow) (body : Json) : Option Usage :=
  let prompt := (tokens? body "prompt_tokens").getD 0
  let completion := (tokens? body "completion_tokens").getD 0
  -- The sum is taken even where a total is reported.
  (overflow.fit? UInt64.size (prompt + completion)).map fun sum =>
    ⟨prompt, completion, (tokens? body "total_tokens").getD sum⟩

/-- The text and the usage of an answer; nothing if the program stops. -/
def completion (overflow : Overflow) (body : Json) : Option (Except StageError StageOutput) :=
  if Text.allBlank (contentOf body) then some (.error .emptyResponse)
  else (usageOf overflow body).map fun usage => .ok ⟨contentOf body, usage⟩

end ScriptForge.Chat

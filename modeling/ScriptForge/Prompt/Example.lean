import ScriptForge.Json.Fields
import ScriptForge.Text.Blank

/-!
# System prompts

A system prompt is a text followed by worked examples. An example is a short conversation; of its
turns, those of the user and of the assistant are shown and no others. A text without examples is
only rid of the blanks at its end.
-/

namespace ScriptForge.Prompt

open Json

/-- One turn of a conversation. -/
structure Turn where
  role : String
  content : String
  deriving DecidableEq, Repr

namespace Turn

def toJson (turn : Turn) : Json :=
  .obj [("role", .str turn.role), ("content", .str turn.content)]

def ofJson? : Json → Option Turn :=
  record? do return ⟨← field "role" string?, ← field "content" string?⟩

/-- The section of a turn; empty for a role that is not shown. -/
def shown (turn : Turn) : String :=
  match turn.role with
  | "user" => s!"**User input:**\n{turn.content}\n\n"
  | "assistant" => s!"**Output:**\n{turn.content}\n\n"
  | _ => ""

end Turn

/-- A worked example. -/
structure Example where
  description : Option String
  conversation : List Turn
  deriving DecidableEq, Repr

namespace Example

def toJson (sample : Example) : Json :=
  .obj [("description", .ofOption .str sample.description),
    ("conversations", .ofList Turn.toJson sample.conversation)]

def ofJson? : Json → Option Example :=
  record? do
    return ⟨← optionalWithDefault "description" string?,
      ← withDefault "conversations" (items? Turn.ofJson?) []⟩

/-- The section of the example with this number: its heading, if it has a description, its turns and
a rule. -/
def shown (number : Nat) (sample : Example) : String :=
  let heading :=
    match sample.description with
    | some description => s!"### Example {number}: {description}\n\n"
    | none => ""
  heading ++ String.join (sample.conversation.map Turn.shown) ++ "---\n\n"

end Example

/-- A system prompt followed by its examples. -/
def systemPrompt (text : String) (examples : List Example) : String :=
  let start := Text.trimmedEnd text
  if examples.isEmpty then start
  else
    start ++ "\n\n## Examples\n\n" ++
      String.join (examples.zipIdx.map fun (sample, i) => sample.shown (i + 1)) ++
      "Using the examples above, handle the following input:\n"

end ScriptForge.Prompt

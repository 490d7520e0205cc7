import ScriptForge.Chat.Completion
import ScriptForge.Chat.Config
import ScriptForge.Chat.Retry
import ScriptForge.Json.Reader

/-!
# The chat client

A request is posted to the endpoint of the model's provider, again if need be. The server is a
function from the number of the attempt to its reply. Without an address or a key nothing is sent.
-/

namespace ScriptForge.Chat

open Pipeline

/-- What is posted: the address, the key and a JSON document. -/
structure Post where
  url : String
  key : String
  body : Json
  deriving Repr

/-- What comes of a post. -/
inductive Reply
  | answered (status : Nat) (body : String)
  /-- No answer within the time limit. -/
  | silent
  /-- The server cannot be reached. -/
  | unreachable
  deriving DecidableEq, Repr

/-- A failed connection; the tag stands for the words of whoever carries the posts. -/
def transportFailure : StageError :=
  .transport "<transport>"

/-- The document that is posted for a request. -/
def document (config : Config) (request : Request) : Json :=
  let message (role content : String) : Json :=
    .obj [("role", .str role), ("content", .str content)]
  .obj [("model", .str request.model),
    ("messages", .arr [message "system" request.systemPrompt, message "user" request.userMessage]),
    ("temperature", .num (.float config.temperature.toFloat)),
    ("max_tokens", .nat config.maxTokens)]

/-- What is posted for a request. -/
def post (config : Config) (request : Request) : Except StageError Post :=
  let endpoint := config.endpoint (.ofModel request.model)
  match endpoint.url, endpoint.key with
  | none, _ => .error (.config s!"no api url configured for model {request.model}")
  | some _, none => .error (.config s!"no api key configured for model {request.model}")
  | some url, some key => .ok ⟨url, key, document config request⟩

/-- What a reply means: a completion or an error; nothing if the program stops. -/
def Reply.read (overflow : Overflow) (config : Config) :
    Reply → Option (Except StageError StageOutput)
  | answered status body =>
    if 200 ≤ status ∧ status < 300 then
      match Json.read? body with
      | some json => completion overflow json
      | none => some (.error transportFailure)
    else some (.error (.api status body))
  | silent => some (.error (.timeout config.timeout))
  | unreachable => some (.error transportFailure)

/-- What comes of a request: the posts with their replies, how long the pauses between them took
and the result. -/
structure Completed where
  exchanges : List (Post × Reply)
  duration : Nat
  /-- Nothing if the program stops. -/
  result : Option (Except StageError StageOutput)

/-- Sends a request until it is answered well or the attempts are used up. A request that cannot be
posted is attempted as often. -/
def complete (overflow : Overflow) (config : Config) (request : Request) (server : Nat → Reply) :
    Completed :=
  let posted := post config request
  let retried := retry overflow config.attempts config.pause fun number =>
    match posted with
    | .ok _ => (server number).read overflow config
    | .error error => some (.error error)
  let exchanges :=
    match posted with
    | .ok post => retried.attempts.map fun attempt => (post, server attempt.number)
    | .error _ => []
  ⟨exchanges, ((retried.attempts.getLast?).map Attempt.start).getD 0, retried.result⟩

end ScriptForge.Chat

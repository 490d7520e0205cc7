import ScriptForge.Chat.Client
import ScriptForge.Cli.Folder
import ScriptForge.Prompt.Source

/-!
# Hosts

What a command needs of the machine it runs on: files, environment variables, a clock and a network.
`Host.ofFolder` is a machine in memory, with files in a folder and a network given as a function.
-/

namespace ScriptForge.Cli

/-- What a command needs of the machine it runs on. Files that cannot be used give the reason. -/
structure Host (m : Type → Type) where
  read : Prompt.FileReader m
  write : (path text : String) → m (Except String Unit)
  /-- Makes a folder and those around it. -/
  makeFolder : String → m (Except String Unit)
  /-- The value of an environment variable. -/
  lookup : String → m (Option String)
  /-- The text of the nearest file of variables. -/
  variableFile : m (Option String)
  /-- Milliseconds since some time. -/
  clock : m Nat
  /-- The date and the time of the day. -/
  today : m String
  /-- A name for a run that no other run has. -/
  newRunId : m String
  /-- Sends a post after a pause and waits so long for the answer, in milliseconds. -/
  send : (pause timeout : Nat) → Chat.Post → m Chat.Reply

/-- The machine in memory with these environment variables and this network. -/
def Host.ofFolder (environment : String → Option String) (network : Chat.Post → Chat.Reply) :
    Host (StateM Folder) where
  read path := do return ((← get).read path).mapError PathError.message
  write path text := do
    match (← get).write path text with
    | .ok folder => set folder; return .ok ()
    | .error error => return .error error.message
  makeFolder path := do
    match (← get).makeFolder path with
    | .ok folder => set folder; return .ok ()
    | .error error => return .error error.message
  lookup name := return environment name
  variableFile := do return ((← get).read ".env").toOption
  clock := return 0
  today := return ""
  newRunId := return "run"
  send _ _ post := return network post

end ScriptForge.Cli

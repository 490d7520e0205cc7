import ScriptForge.Chat.Client
import ScriptForge.Cli.Arguments
import ScriptForge.Cli.Check
import ScriptForge.Json.Writer
import ScriptForge.Pipeline.Live
import ScriptForge.Prompt.DefaultCatalog
import ScriptForge.Prompt.Stage

/-!
# The command `run`

Converts the source code in a file. What is needed is read first, in this order: the source code,
the hints, the configuration, the catalog and its prompt files, the statistics file. The script, the
plugin and a summary of the run are written to a folder once the run has ended well; the statistics
of its rounds are written in any case. The posts of a stage go over the network of the host, one at
a time; a number that outgrows its type is reduced.
-/

namespace ScriptForge.Cli

open Pipeline

/-! ## Input -/

/-- The hints. -/
def hints [Monad m] (host : Host m) (options : RunOptions) : ExceptT Failure m String :=
  match options.hints, options.hintsFile with
  | some text, _ => return text
  | none, some path => readNeeded host path
  | none, none => return ""

/-- The configuration of the run. -/
def configOf [Monad m] (host : Host m) (settings : String → Option String) (options : RunOptions) :
    ExceptT Failure m Config := do
  let config : Except ConfigError Config ←
    match options.config with
    | some path => Config.ofDocument <$> readNeeded host path
    | none => pure (Config.ofSettings settings)
  match config with
  | .ok config => return config
  | .error error => throw (.ofPipeline (.config error))

/-- The stages of the run. -/
def assemblyOf [Monad m] (host : Host m) (options : RunOptions) :
    ExceptT Failure m Prompt.Assembly := do
  let catalog ←
    match options.catalog with
    | some path => (Prompt.Catalog.load host.read path).adapt .ofStage
    | none => pure Prompt.DefaultCatalog.catalog
  (Prompt.assemble host.read catalog).adapt fun error => .ofPipeline (.config error)

/-! ## Statistics -/

/-- A statistics file that rounds are appended to. -/
structure OpenStats where
  path : String
  text : String

/-- Opens the statistics file. -/
def openStats [Monad m] (host : Host m) (path : String) : ExceptT Failure m OpenStats := do
  let text := StatsFile.append (← host.read path).toOption
  match ← host.write path text with
  | .ok _ => return ⟨path, text⟩
  | .error reason => throw ⟨s!"failed to open stats file {path}", [reason]⟩

/-- Appends rounds to the statistics file. -/
def OpenStats.record [Monad m] (host : Host m) (stats : OpenStats) (rounds : List RoundStats) :
    m Unit := do
  let _ ← host.write stats.path (rounds.foldl StatsFile.record stats.text)

/-! ## Stages -/

/-- The server that gives known replies, the first to the first post. -/
def knownServer (known : List Chat.Reply) : Nat → Chat.Reply := fun number =>
  (known[number - 1]?).getD .unreachable

/-- The pause before the post with this index. -/
def pauseBefore (unit : Nat) : (index : Nat) → Nat
  | 0 => 0
  | index + 1 => (Chat.pauseAfter .wraps unit (index + 1)).getD 0

/-- Sends a request over the network until it is answered well or the attempts are used up. The
client is computed with the replies known so far until every post has one. -/
def complete [Monad m] (host : Host m) (chat : Chat.Config) (request : Chat.Request) :
    m Chat.Completed := do
  let completed (known : List Chat.Reply) : Chat.Completed :=
    Chat.complete .wraps chat request (knownServer known)
  let known ← dialogue (fun known => (completed known).exchanges)
    (fun index exchange => host.send (pauseBefore chat.pause index) chat.timeout exchange.1)
    (max chat.attempts 1) []
  return completed known

/-- Runs a stage and measures how long it takes. With the attempts and the pauses that settings
allow there is always a result. -/
def act [Monad m] (host : Host m) (chat : Chat.Config) (assembly : Prompt.Assembly) (call : Call) :
    m Reply := do
  match assembly.request call with
  | .error error => return ⟨0, .error error⟩
  | .ok request => do
    let start ← host.clock
    let completed ← complete host chat request
    let result := completed.result.getD (.error Chat.transportFailure)
    return ⟨(← host.clock) - start, result⟩

/-! ## Output -/

/-- Writes a file that the run has to leave. -/
def writeNeeded [Monad m] (host : Host m) (folder name text : String) : ExceptT Failure m Unit := do
  match ← host.write (Prompt.pathIn folder name) text with
  | .ok _ => return
  | .error reason => throw ⟨reason, []⟩

/-- Writes the script, the plugin and the summary. -/
def writeOutputs [Monad m] (host : Host m) (folder : String) (output : RunOutput) :
    ExceptT Failure m Unit := do
  match ← host.makeFolder folder with
  | .ok _ => pure ()
  | .error reason => throw ⟨s!"failed to create {folder}", [reason]⟩
  writeNeeded host folder "script.svc" output.script
  writeNeeded host folder "plugin.txt" output.pluginCode
  writeNeeded host folder "run.json" (output.toJson (← host.today)).pretty

/-- What is printed about a run that has ended well. -/
def summary (folder : String) (output : RunOutput) : String :=
  let review := if output.outcome.reviewPassed then "passed" else "not passed"
  let script := if output.outcome.scriptValid then "valid" else "invalid"
  s!"run {output.runId} finished after {output.rounds} round(s): " ++
    s!"review {review}, syntax {script}\noutputs written to {folder}\n"

/-! ## The command -/

/-- Converts source code and returns what is to be printed. -/
def convert [Monad m] (host : Host m) (settings : String → Option String) (options : RunOptions) :
    ExceptT Failure m String := do
  let code ← readNeeded host options.code
  let auxiliary ← hints host options
  let config ← configOf host settings options
  let assembly ← assemblyOf host options
  let stats? ← options.stats.mapM (openStats host)
  let setup : Setup :=
    { runId := ← host.newRunId
      config
      stages := knownReplies []
      classifier :=
        if options.taggedVerdicts then Classifier.byTag else Classifier.byKeyword
      validator := validatorOf settings
      sink := stats?.map fun _ _ _ => none }
  let report : RunReport ←
    (runLive setup (act host (.ofSettings settings) assembly) ⟨code, auxiliary⟩ : m RunReport)
  if let some stats := stats? then
    (stats.record host report.trace.written : m Unit)
  match report.result with
  | .error error => throw (.ofPipeline error)
  | .ok output =>
    writeOutputs host options.outputFolder output
    return summary options.outputFolder output

/-- The command `run`. -/
def run [Monad m] (host : Host m) (settings : String → Option String) (options : RunOptions) :
    m Finished := do
  match ← (convert host settings options).run with
  | .ok output => return ⟨output, none⟩
  | .error failure => return ⟨"", some failure⟩

end ScriptForge.Cli

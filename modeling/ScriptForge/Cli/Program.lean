import ScriptForge.Cli.Dotenv
import ScriptForge.Cli.Run

/-!
# The program

Reads the variables in the nearest file of variables, makes out what is asked for and does it. The
program exits with 0, with 1 if a command failed and with 2 if the arguments make no sense.
-/

namespace ScriptForge.Cli

/-- How the program exits and what it prints, on the standard output and on the other one. -/
structure Exit where
  code : Nat
  output : String
  errors : String
  deriving DecidableEq, Repr

/-- The version of the program. -/
def version : String := "1.0.0"

/-- The names of all settings. -/
def settingNames : List String := [
  "SVCGEN_MAX_RETRIES", "SVCGEN_FUNCTIONAL_RETRIES", "SVCGEN_SYNTAX_RETRIES",
  "SVCGEN_CONCURRENT_FORKS", "SVCGEN_REPACKAGE_ON_RETRY", "SVCGEN_GRAMMAR", "SVCGEN_CATALOG",
  "SVCGEN_STATS", "CLAUDE_API_URL", "CLAUDE_API_KEY", "GEMINI_API_URL", "GEMINI_API_KEY",
  "OPENAI_API_URL", "OPENAI_API_KEY", "API_TIMEOUT_READ"]

/-- The settings: environment variables, and those of the file of variables. -/
def settingsOf [Monad m] (host : Host m) : m (String → Option String) := do
  let entries := ((← host.variableFile).map Dotenv.entries).getD []
  let added ← Dotenv.additions host.lookup [] entries
  let values ← settingNames.mapM fun name => do
    return (name, ← Dotenv.lookup host.lookup added name)
  return fun name => ((values.find? (·.1 == name)).map (·.2)).join

/-! ## Explanations -/

/-- What the program can do. -/
def programHelp : String := "\n".intercalate [
  "Convert service source code into a validated service script",
  "",
  "Usage: svcgen <COMMAND>",
  "",
  "Commands:",
  "  run    Run the full generation pipeline on a source file",
  "  check  Validate a service script",
  "  help   Print this message or the help of the given subcommand(s)",
  "",
  "Options:",
  "  -h, --help     Print help",
  "  -V, --version  Print version",
  ""]

/-- What `run` can do. -/
def runHelp : String := "\n".intercalate [
  "Run the full generation pipeline on a source file",
  "",
  "Usage: svcgen run [OPTIONS] <FILE>",
  "",
  "Arguments:",
  "  <FILE>  Source code to convert",
  "",
  "Options:",
  "      --aux <AUX>        Auxiliary hints, e.g. \"service name: order-rpc\"",
  "      --aux-file <FILE>  Read auxiliary hints from a file",
  "      --catalog <FILE>   Custom stage catalog (YAML); the built-in one is used otherwise",
  "      --config <FILE>    Pipeline configuration (YAML); environment variables otherwise",
  "      --out-dir <DIR>    Directory for the script, plugin and run summary [default: output]",
  "      --stats <FILE>     Append per-round statistics to this CSV file",
  "      --tagged-verdicts  Expect an explicit `VERDICT: PASS|FAIL` line from the reviewer",
  "  -h, --help             Print help",
  ""]

/-- What `check` can do. -/
def checkHelp : String := "\n".intercalate [
  "Validate a service script",
  "",
  "Usage: svcgen check [OPTIONS] <FILE>",
  "",
  "Arguments:",
  "  <FILE>",
  "",
  "Options:",
  "      --tree  Print the parse tree as JSON",
  "  -h, --help  Print help",
  ""]

/-- The explanation of the program or of a command. -/
def helpOn : Option String → String
  | some "run" => runHelp
  | some "check" => checkHelp
  | _ => programHelp

/-! ## Exits -/

/-- The exit after a command. -/
def Finished.exit (finished : Finished) : Exit :=
  match finished.failure with
  | none => ⟨0, finished.output, ""⟩
  | some failure => ⟨1, finished.output, failure.report ++ "\n"⟩

/-- Does what the arguments ask for. -/
def program [Monad m] (host : Host m) (arguments : List String) : m Exit := do
  let settings ← settingsOf host
  match Request.ofArguments? settings arguments with
  | none => return ⟨2, "", programHelp⟩
  | some .version => return ⟨0, s!"svcgen {version}\n", ""⟩
  | some (.help command) => return ⟨0, helpOn command, ""⟩
  | some (.check script tree) => return (← check host settings script tree).exit
  | some (.run options) => return (← run host settings options).exit

end ScriptForge.Cli

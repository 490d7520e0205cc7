/-!
# Arguments

The program is given a command, `run` or `check`, with the one file it works on and options. An
option starts with two hyphens; its value follows it, or stands behind an equals sign. No option may
be given twice, and what stands behind two hyphens alone is no option. Two options of `run` may be
given as environment variables instead.
-/

namespace ScriptForge.Cli

/-- What `run` is asked to do. -/
structure RunOptions where
  /-- The file with the source code. -/
  code : String
  /-- Hints as a text. -/
  hints : Option String
  /-- Hints in a file. -/
  hintsFile : Option String
  catalog : Option String
  config : Option String
  outputFolder : String
  stats : Option String
  /-- Expect the reviewer's verdict on a line of its own. -/
  taggedVerdicts : Bool
  deriving DecidableEq, Repr

/-- What the program is asked to do. -/
inductive Request
  | version
  /-- Explain the program or a command. -/
  | help (command : Option String)
  | run (options : RunOptions)
  | check (script : String) (tree : Bool)
  deriving DecidableEq, Repr

/-! ## Options -/

/-- The options that a command knows. -/
structure Known where
  valued : List String
  flags : List String

/-- What a command has been given. -/
structure Given where
  values : List (String × String) := []
  flags : List String := []
  files : List String := []

/-- Whether an option has been given. -/
def Given.has (given : Given) (name : String) : Bool :=
  given.flags.contains name || given.values.any (·.1 == name)

/-- The value of an option. -/
def Given.value? (given : Given) (name : String) : Option String :=
  (given.values.find? (·.1 == name)).map (·.2)

/-- What has been given, with one more option that has a value. -/
def Given.setValue (given : Given) (name value : String) : Given :=
  { given with values := (name, value) :: given.values }

/-- An option with the value behind its equals sign, if it has one. -/
def splitOption (argument : String) : String × Option String :=
  match argument.splitOn "=" with
  | [] => (argument, none)
  | [name] => (name, none)
  | name :: value => (name, some ("=".intercalate value))

/-- Whether an argument can be a value: it is no option. -/
def isValue (argument : String) : Bool :=
  argument == "-" || !argument.startsWith "-"

/-- What is known after some arguments: what a command has been given, or that it is to be
explained. -/
inductive Scanned
  | given (given : Given)
  | helpAsked

/-- Reads the arguments of a command. -/
def scan (known : Known) (given : Given) : List String → Option Scanned
  | [] => some (.given given)
  | argument :: rest =>
    if argument == "--" then some (.given { given with files := given.files ++ rest })
    else if isValue argument then
      if given.files.isEmpty then scan known { given with files := [argument] } rest else none
    else if argument.startsWith "-h" || argument == "--help" then some .helpAsked
    else
      match splitOption argument with
      | (name, value) =>
        if given.has name then none
        else if known.flags.contains name then
          if value.isSome then none
          else scan known { given with flags := name :: given.flags } rest
        else if known.valued.contains name then
          match value, rest with
          | some value, rest => scan known (given.setValue name value) rest
          | none, value :: rest =>
            if isValue value then scan known (given.setValue name value) rest else none
          | none, [] => none
        else none

/-! ## Commands -/

/-- The options of `run`. -/
def runKnown : Known where
  valued := ["--aux", "--aux-file", "--catalog", "--config", "--out-dir", "--stats"]
  flags := ["--tagged-verdicts"]

/-- The options of `check`. -/
def checkKnown : Known where
  valued := []
  flags := ["--tree"]

/-- The one file that a command works on. -/
def Given.file? (given : Given) : Option String :=
  match given.files with
  | [file] => if file.isEmpty then none else some file
  | _ => none

/-- The path that an option or else an environment variable gives; nothing if it is empty. -/
def Given.path? (given : Given) (name : String) (other : Option String) :
    Option (Option String) :=
  match (given.value? name).orElse fun _ => other with
  | some path => if path.isEmpty then none else some (some path)
  | none => some none

/-- The options of `run` from what it has been given. -/
def runOptions? (lookup : String → Option String) (given : Given) : Option RunOptions := do
  let code ← given.file?
  let hints := given.value? "--aux"
  let hintsFile ← given.path? "--aux-file" none
  if hints.isSome && hintsFile.isSome then none
  return {
    code, hints, hintsFile
    catalog := ← given.path? "--catalog" (lookup "SVCGEN_CATALOG")
    config := ← given.path? "--config" none
    outputFolder := (← given.path? "--out-dir" none).getD "output"
    stats := ← given.path? "--stats" (lookup "SVCGEN_STATS")
    taggedVerdicts := given.has "--tagged-verdicts" }

/-- What the program is asked to do, given the environment variables; nothing if the arguments make
no sense. -/
def Request.ofArguments? (lookup : String → Option String) : List String → Option Request
  | "run" :: arguments => do
    match ← scan runKnown {} arguments with
    | .given given => Request.run <$> runOptions? lookup given
    | .helpAsked => return .help (some "run")
  | "check" :: arguments => do
    match ← scan checkKnown {} arguments with
    | .given given => return .check (← given.file?) (given.has "--tree")
    | .helpAsked => return .help (some "check")
  | ["help"] | ["help", "help"] => some (.help none)
  | ["help", command] =>
    if command == "run" || command == "check" then some (.help (some command)) else none
  | argument :: _ =>
    if argument == "--version" || argument.startsWith "-V" then some .version
    else if argument == "--help" || argument.startsWith "-h" then some (.help none)
    else none
  | [] => none

end ScriptForge.Cli

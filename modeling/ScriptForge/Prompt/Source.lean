import ScriptForge.Pipeline.Error
import ScriptForge.Prompt.Builtin

/-!
# Where prompt files come from

Prompt files are built in or lie in a folder, next to the catalog that names them. Files are read in
any monad; reading gives the text of a file or the reason why there is none.
-/

namespace ScriptForge.Prompt

open Pipeline

/-- Reads the file at a path: its text, or why it cannot be read. -/
abbrev FileReader (m : Type → Type) := String → m (Except String String)

/-! ## Paths -/

/-- A path from its end to its start, without the slashes and the steps `.` at its end. -/
def withoutTrail : List Char → List Char
  | [] => []
  | c :: cs =>
    match c, cs with
    | '/', [] => ['/']
    | '/', _ :: _ => withoutTrail cs
    | '.', '/' :: _ => withoutTrail cs
    | c, cs => c :: cs

/-- The folder of the file at a path; empty if the path names no folder. -/
def folderOf (path : String) : String :=
  match withoutTrail path.toList.reverse with
  | ['/'] => ""
  | reversed => String.ofList (withoutTrail (reversed.dropWhile (· != '/'))).reverse

/-- The path of a file in a folder; a path from the root stays as it is. -/
def pathIn (folder name : String) : String :=
  if folder.isEmpty || name.startsWith "/" then name
  else if folder.endsWith "/" then folder ++ name
  else s!"{folder}/{name}"

/-! ## Sources -/

/-- Where prompt files come from. -/
inductive Source
  | builtin
  | folder (path : String)
  deriving DecidableEq, Repr

/-- Reads a prompt file. -/
def Source.read [Monad m] (files : FileReader m) : Source → String → ExceptT StageError m String
  | builtin, name =>
    match Builtin.file? name with
    | some text => return text
    | none => throw (.config s!"no embedded prompt named {name}")
  | folder path, name => do
    match ← files (pathIn path name) with
    | .ok text => return text
    | .error reason => throw (.config s!"failed to read {pathIn path name}: {reason}")

end ScriptForge.Prompt

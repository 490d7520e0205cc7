/-!
# Folders

A folder in memory: the texts of files by path and the folders made among them. A path is walked
step by step from the folder; a step that is no folder ends the walk with the error a file system
reports. A path from the root, or one that leaves the folder, leads nowhere.
-/

namespace ScriptForge.Cli

/-- Why a path cannot be used. -/
inductive PathError
  | missing
  | alreadyThere
  | notFolder
  | isFolder
  deriving DecidableEq, Repr

def PathError.message : PathError → String
  | missing => "No such file or directory (os error 2)"
  | alreadyThere => "File exists (os error 17)"
  | notFolder => "Not a directory (os error 20)"
  | isFolder => "Is a directory (os error 21)"

/-- The steps of a path from a folder. -/
abbrev Steps := List String

/-- A folder: its files, and the folders in it that were made without a file. -/
structure Folder where
  files : List (Steps × String)
  made : List Steps
  deriving Repr

/-- What a path leads to. -/
inductive Place
  | file (text : String)
  | folder
  deriving DecidableEq, Repr

namespace Folder

/-- The text of a file. -/
def file? (folder : Folder) (steps : Steps) : Option String :=
  (folder.files.find? fun file => file.1 == steps).map (·.2)

/-- Whether steps lead to a folder. -/
def isFolder (folder : Folder) (steps : Steps) : Bool :=
  steps.isEmpty || folder.made.any (steps.isPrefixOf ·) ||
    folder.files.any fun file => steps.isPrefixOf file.1 && file.1 != steps

/-- What steps lead to. -/
def place? (folder : Folder) (steps : Steps) : Option Place :=
  match folder.file? steps with
  | some text => some (.file text)
  | none => if folder.isFolder steps then some .folder else none

/-- Takes a step from a folder. -/
def walkStep (folder : Folder) (here : Steps) (step : String) : Except PathError Steps :=
  match folder.place? here with
  | none => .error .missing
  | some (.file _) => .error .notFolder
  | some .folder =>
    if step == "" || step == "." then .ok here
    else if step == ".." then
      if here.isEmpty then .error .missing else .ok here.dropLast
    else .ok (here ++ [step])

/-- The steps that a path amounts to; the last one need not exist. -/
def walk (folder : Folder) (path : String) : Except PathError Steps :=
  if path.isEmpty || path.startsWith "/" then .error .missing
  else (path.splitOn "/").foldlM (folder.walkStep · ·) []

/-- Reads the file at a path. -/
def read (folder : Folder) (path : String) : Except PathError String := do
  match folder.place? (← folder.walk path) with
  | some (.file text) => return text
  | some .folder => throw .isFolder
  | none => throw .missing

/-- The folder with the text of a file set. -/
def setFile (folder : Folder) (steps : Steps) (text : String) : Folder :=
  { folder with files := folder.files.filter (·.1 != steps) ++ [(steps, text)] }

/-- Writes a text to the file at a path. -/
def write (folder : Folder) (path text : String) : Except PathError Folder := do
  let steps ← folder.walk path
  match folder.place? steps with
  | some .folder => throw .isFolder
  | _ => return folder.setFile steps text

/-- Makes the folders of some steps, one inside the other. -/
def makeSteps (folder : Folder) (here : Steps) : Steps → Except PathError Folder
  | [] => .ok folder
  | step :: steps => do
    let next ← folder.walkStep here step
    match folder.place? next with
    | some .folder => makeSteps folder next steps
    | some (.file _) => throw (if steps.isEmpty then .alreadyThere else .notFolder)
    | none => makeSteps { folder with made := folder.made ++ [next] } next steps

/-- Makes the folder at a path and those around it. -/
def makeFolder (folder : Folder) (path : String) : Except PathError Folder :=
  if path.startsWith "/" then .error .missing
  else folder.makeSteps [] (path.splitOn "/")

/-- The folder with these files. -/
def ofFiles (files : List (String × String)) : Folder where
  files := files.map fun (path, text) => (path.splitOn "/", text)
  made := []

end Folder

end ScriptForge.Cli

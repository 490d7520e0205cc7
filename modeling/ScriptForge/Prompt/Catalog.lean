import ScriptForge.Json.Reader
import ScriptForge.Pipeline.StageSet
import ScriptForge.Prompt.Example
import ScriptForge.Prompt.Source
import ScriptForge.Yaml.Fields
import ScriptForge.Yaml.Reader

/-!
# Catalogs of stages

A catalog says for every slot which model is asked, with which prompts and which instruction
template. It is read from a document that has to have an entry for every slot and may have no other;
the prompt files are read when a stage is resolved.
-/

namespace ScriptForge.Prompt

open Pipeline Json

/-- What the stage of a slot is made of. -/
structure Spec where
  name : String
  model : String
  /-- The file of the system prompt. -/
  promptFile : String
  /-- The file of the worked examples. -/
  examplesFile : Option String
  /-- The instruction template. -/
  template : String
  /-- Whether the stage is told why the last candidate was rejected. -/
  usesFeedback : Bool
  deriving DecidableEq, Repr

namespace Spec

def toJson (spec : Spec) : Json :=
  .obj [("name", .str spec.name), ("model", .str spec.model),
    ("system_prompt", .str spec.promptFile), ("examples", .ofOption .str spec.examplesFile),
    ("template", .str spec.template), ("uses_feedback", .bool spec.usesFeedback)]

def ofJson? : Json → Option Spec :=
  record? do
    return ⟨← field "name" string?, ← field "model" string?, ← field "system_prompt" string?,
      ← optionalWithDefault "examples" string?, ← field "template" string?,
      ← withDefault "uses_feedback" bool? false⟩

def ofYaml? (yaml : Yaml) : Option Spec := do
  let fields ← yaml.fields?
  return {
    name := ← Yaml.field? fields "name" Yaml.text?
    model := ← Yaml.field? fields "model" Yaml.text?
    promptFile := ← Yaml.field? fields "system_prompt" Yaml.text?
    examplesFile := ← Yaml.fieldOr? fields "examples" (Yaml.nullable? Yaml.text?) none
    template := ← Yaml.field? fields "template" Yaml.text?
    usesFeedback := ← Yaml.fieldOr? fields "uses_feedback" Yaml.truth? false }

end Spec

/-- A catalog of stages. -/
structure Catalog where
  version : String
  specs : StageSet Spec
  source : Source

namespace Catalog

/-- The entries of a catalog by slot. -/
def entries? (yaml : Yaml) : Option (SlotMap Spec) := do
  let entries ← (← yaml.fields?).mapM fun (name, value) => do
    return (← Slot.ofId? name, ← Spec.ofYaml? value)
  return .ofList entries

/-- The version and the entries of a catalog. -/
def parts? (yaml : Yaml) : Option (String × SlotMap Spec) := do
  let fields ← yaml.fields?
  return (← Yaml.field? fields "version" Yaml.text?, ← Yaml.field? fields "stages" entries?)

/-- The entry of a slot. -/
def entry (entries : SlotMap Spec) (slot : Slot) : Except StageError Spec :=
  match entries.get? slot with
  | some spec => .ok spec
  | none => .error (.config s!"stage catalog has no entry for {slot.id}")

/-- The catalog that a document holds. -/
def ofDocument (text : String) (source : Source) : Except StageError Catalog := do
  match (Yaml.read? text).bind parts? with
  | none => throw (.config "invalid stage catalog: <yaml>")
  | some (version, entries) => return ⟨version, ← StageSet.mapM (entry entries), source⟩

/-- The catalog in a file. Its prompt files lie in the same folder. -/
def load [Monad m] (files : FileReader m) (path : String) : ExceptT StageError m Catalog := do
  match ← files path with
  | .ok text => ofDocument text (.folder (folderOf path))
  | .error reason => throw (.config s!"failed to read catalog {path}: {reason}")

end Catalog

/-- A stage with its prompt files read. -/
structure Resolved where
  spec : Spec
  systemText : String
  examples : List Example

/-- The worked examples in a file. -/
def examplesOf (name text : String) : Except StageError (List Example) :=
  match (Json.read? text).bind (items? Example.ofJson?) with
  | some examples => .ok examples
  | none => .error (.config s!"invalid examples file {name}: <json>")

/-- Reads the prompt files of a stage. -/
def Catalog.resolve [Monad m] (files : FileReader m) (catalog : Catalog) (slot : Slot) :
    ExceptT StageError m Resolved := do
  let spec := catalog.specs.get slot
  let systemText ← catalog.source.read files spec.promptFile
  match spec.examplesFile with
  | none => return ⟨spec, systemText, []⟩
  | some name =>
    let text ← catalog.source.read files name
    return ⟨spec, systemText, ← examplesOf name text⟩

end ScriptForge.Prompt

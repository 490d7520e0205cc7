import ScriptForge.Chat.Request
import ScriptForge.Pipeline.RunM
import ScriptForge.Prompt.Catalog
import ScriptForge.Prompt.Feedback
import ScriptForge.Prompt.Renderer
import ScriptForge.Prompt.ServiceName

/-!
# Prompt stages

A prompt stage fills in its instruction template and sends it to a chat model together with its
system prompt. The template is given the output of the stage before under the name `main`, the
hints, the source code, for the combining stage the name of the service, and feedback where the
stage is to have it. `assemble` makes the stages of all slots from a catalog.
-/

namespace ScriptForge.Prompt

open Pipeline

/-- The stage of a slot, without its instruction template. -/
structure PromptStage where
  slot : Slot
  name : String
  model : String
  systemPrompt : String
  usesFeedback : Bool
  deriving DecidableEq, Repr

/-- The stage of a slot with its prompt files read. -/
def PromptStage.ofResolved (slot : Slot) (resolved : Resolved) : PromptStage where
  slot
  name := resolved.spec.name
  model := resolved.spec.model
  systemPrompt := Prompt.systemPrompt resolved.systemText resolved.examples
  usesFeedback := resolved.spec.usesFeedback

/-! ## Template data -/

/-- The text that a stage works on: the source code, or the output of the stage before it. -/
def workedOn (context : Context) : Slot → Except StageError String
  | .identify => .ok context.code
  | .encapsulate => context.require .identify
  | .package | .generate => context.require .encapsulate
  | .combine => context.require .generate
  | .review => context.require .combine

namespace PromptStage

/-- The fields that a template is given besides the text that the stage works on. -/
def furtherData (stage : PromptStage) (context : Context) (directive : Option Directive) :
    List (String × Json) :=
  let service :=
    match stage.slot with
    | .combine => [("service_name", .str (serviceName context.auxiliary))]
    | _ => []
  let feedback :=
    match stage.usesFeedback, directive with
    | true, some directive => [("feedback", .str (feedback directive))]
    | _, _ => []
  ("aux", .str (Text.trimmed context.auxiliary)) :: ("source", .str context.code) ::
    (service ++ feedback)

/-- The data that the template of a stage is given. -/
def data (stage : PromptStage) (context : Context) (directive : Option Directive) :
    Except StageError Json := do
  return .obj (("main", .str (← workedOn context stage.slot)) ::
    stage.furtherData context directive)

/-- What a stage asks the chat model. -/
def request (stage : PromptStage) (renderer : Renderer) (context : Context)
    (directive : Option Directive) : Except StageError Chat.Request := do
  let userMessage ← renderer.render stage.slot (← stage.data context directive)
  return ⟨stage.model, stage.systemPrompt, userMessage, stage.name⟩

end PromptStage

/-! ## Running stages -/

/-- What answers the requests of a run. An answer may depend on the calls that were made before. -/
abbrev Client := (earlier : List Slot) → Chat.Request → Reply

/-- The stages of all slots with their instruction templates. -/
structure Assembly where
  renderer : Renderer
  stages : StageSet PromptStage

namespace Assembly

/-- What is asked of the chat model in a call. -/
def request (assembly : Assembly) (call : Call) : Except StageError Chat.Request :=
  (assembly.stages.get call.slot).request assembly.renderer call.context call.directive

/-- The behaviour of the stages with a client. -/
def run (assembly : Assembly) (client : Client) : Stages := fun call =>
  match assembly.request call with
  | .error error => ⟨0, .error error⟩
  | .ok request => client call.earlier request

end Assembly

/-- Adds the stage of a slot: reads its prompt files and sets its template. -/
def addStage [Monad m] (files : FileReader m) (catalog : Catalog) (slot : Slot) :
    StateT Renderer (ExceptT ConfigError m) PromptStage := fun renderer => do
  let resolved ← (catalog.resolve files slot).adapt .stage
  match renderer.register slot resolved.spec.template with
  | .ok renderer => return (.ofResolved slot resolved, renderer)
  | .error error => throw (.stage error)

/-- The stages that a catalog describes. -/
def assemble [Monad m] (files : FileReader m) (catalog : Catalog) :
    ExceptT ConfigError m Assembly := do
  let (stages, renderer) ← (StageSet.mapM (addStage files catalog)).run SlotMap.empty
  return ⟨renderer, stages⟩

end ScriptForge.Prompt

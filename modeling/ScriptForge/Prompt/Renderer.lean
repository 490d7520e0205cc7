import ScriptForge.Pipeline.Error
import ScriptForge.Template.Parse
import ScriptForge.Template.Render
import ScriptForge.Text.Blank

/-!
# Instruction templates

A renderer keeps one template per slot. A template that cannot be read leaves the renderer as it
was, and rendering a slot without a template is an error. The rendered text has no blanks at its
ends.
-/

namespace ScriptForge.Prompt

open Pipeline

/-- One template per slot, for those that have one. -/
abbrev Renderer := SlotMap (List Template.Part)

namespace Renderer

/-- The error of a slot whose template cannot be read or rendered. -/
def failure (slot : Slot) : StageError :=
  .template s!"{slot.id}: <template>"

/-- Sets the template of a slot. -/
def register (renderer : Renderer) (slot : Slot) (template : String) :
    Except StageError Renderer :=
  match Template.parse? template.toList with
  | some parts => .ok (renderer.set slot parts)
  | none => .error (failure slot)

/-- The text of the template of a slot with data. -/
def render (renderer : Renderer) (slot : Slot) (data : Json) : Except StageError String :=
  match (renderer.get? slot).bind fun parts => Template.render? parts data with
  | some text => .ok (String.ofList (Text.trim text))
  | none => .error (failure slot)

end Renderer

end ScriptForge.Prompt

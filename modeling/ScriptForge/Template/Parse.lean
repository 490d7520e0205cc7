import ScriptForge.Template.Token

/-!
# From tokens to templates

A stack of open blocks takes the tokens one by one. A tag that closes a block has to name the block
that was opened last; at the end no block may be open.
-/

namespace ScriptForge.Template

/-- A block that is not closed yet. -/
structure Frame where
  invocation : Invocation
  /-- Whether the block is the other part of the one around it and ends with it. -/
  chained : Bool
  /-- The parts that came before the block. -/
  before : List Part
  /-- The body, once the other part has started. -/
  body : Option (List Part)
  deriving Repr

/-- The open blocks, the last one first, and the parts of what is open. -/
structure Building where
  frames : List Frame
  parts : List Part
  deriving Repr

/-- A block from its frame and the parts of what was open. -/
def Frame.close (frame : Frame) (parts : List Part) : Part :=
  match frame.body with
  | some body => .block frame.invocation body parts
  | none => .block frame.invocation parts []

/-- Closes the last block and, if it is chained, those around it. -/
def closeFrames (name : String) : List Frame → List Part → Option Building
  | [], _ => none
  | frame :: frames, parts =>
    let parts' := frame.before ++ [frame.close parts]
    if frame.chained then closeFrames name frames parts'
    else if frame.invocation.name == name then some ⟨frames, parts'⟩
    else none

/-- Starts the other part of the last block. -/
def divide (building : Building) : Option Building :=
  match building.frames with
  | [] => none
  | frame :: frames =>
    match frame.body with
    | some _ => none
    | none => some ⟨{ frame with body := some building.parts } :: frames, []⟩

/-- Takes one more token. -/
def Building.step (building : Building) : Token → Option Building
  | .text text => some { building with parts := building.parts ++ [.text text] }
  | .tag tag =>
    match tag.kind with
    | .comment => some building
    | .value path => some { building with parts := building.parts ++ [.value path] }
    | .call invocation => some { building with parts := building.parts ++ [.call invocation] }
    | .opening invocation =>
      some ⟨⟨invocation, false, building.parts, none⟩ :: building.frames, []⟩
    | .otherwise => divide building
    | .otherwiseOpening invocation => do
      let divided ← divide building
      return ⟨⟨invocation, true, divided.parts, none⟩ :: divided.frames, []⟩
    | .closing name => closeFrames name building.frames building.parts

/-- Takes tokens one by one. -/
def Building.run (building : Building) : List Token → Option Building
  | [] => some building
  | token :: tokens => (building.step token).bind fun next => next.run tokens

/-- The parts of a template. -/
def parse? (text : List Char) : Option (List Part) := do
  let tokens ← tokens? (text.length + 1) text
  let building ← Building.run ⟨[], []⟩ (settle true ⟨false, false⟩ tokens)
  match building.frames with
  | [] => return building.parts
  | _ :: _ => none

end ScriptForge.Template

import ScriptForge.Pipeline.Error
import ScriptForge.Pipeline.Record

/-!
# The context of a run

The working state that stages read: the source code and the hints, the latest output of each slot,
named diagnostics and the records of all executions so far.
-/

namespace ScriptForge.Pipeline

/-- Named values, each name at most once. -/
abbrev Diagnostics := List (String × Json)

namespace Diagnostics

/-- The diagnostics with the value of a name replaced. -/
def set (name : String) (value : Json) : Diagnostics → Diagnostics
  | [] => [(name, value)]
  | (other, old) :: rest =>
    if other == name then (name, value) :: rest else (other, old) :: set name value rest

/-- The value of a name. -/
def get? (name : String) : Diagnostics → Option Json
  | [] => none
  | (other, value) :: rest => if other == name then some value else get? name rest

end Diagnostics

/-- The working state that stages read. -/
structure Context where
  code : String
  auxiliary : String
  outputs : SlotMap String
  diagnostics : Diagnostics
  history : List Record
  deriving Repr

namespace Context

/-- The context at the start of a run. -/
def ofInput (input : RunInput) : Context :=
  ⟨input.code, input.auxiliary, .empty, [], []⟩

/-- The latest output of a slot. -/
def output? (context : Context) (slot : Slot) : Option String :=
  context.outputs.get? slot

/-- The latest output of a slot, or else an error. -/
def require (context : Context) (slot : Slot) : Except StageError String :=
  match context.output? slot with
  | some text => .ok text
  | none => .error (.missingInput slot)

/-- The context with the output of a slot replaced. -/
def setOutput (context : Context) (slot : Slot) (text : String) : Context :=
  { context with outputs := context.outputs.set slot text }

/-- The context with a diagnostic replaced. -/
def diagnose (context : Context) (name : String) (value : Json) : Context :=
  { context with diagnostics := context.diagnostics.set name value }

/-- The context with one more record; the usage becomes a diagnostic too. -/
def record (context : Context) (record : Record) : Context :=
  { context.diagnose ("usage." ++ record.slot.id) record.usage.toJson with
    history := context.history ++ [record] }

end Context

end ScriptForge.Pipeline

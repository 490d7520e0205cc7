import ScriptForge.Pipeline.Context
import ScriptForge.Pipeline.Directive
import ScriptForge.Pipeline.Event
import ScriptForge.Pipeline.Stats

/-!
# Traces

What happens in a run, with the time at which it happens: a stage is called, an event is emitted,
the statistics of a round are written. The views `calls`, `events` and `written` pick one kind each
and keep the order.
-/

namespace ScriptForge.Pipeline

/-- One call of a stage. -/
structure Call where
  slot : Slot
  /-- The slots of the calls made before, in order. -/
  earlier : List Slot
  /-- The working state that the stage reads. -/
  context : Context
  /-- Why the last candidate was rejected, if the stage has to act on it. -/
  directive : Option Directive
  deriving Repr

/-- What can happen in a run. -/
inductive Happening
  | called (call : Call)
  | emitted (event : Event)
  | wrote (stats : RoundStats)
  deriving Repr

/-- Something that happened at a time. -/
structure Moment where
  time : Nat
  happening : Happening
  deriving Repr

/-- What happened, in order. -/
abbrev Trace := List Moment

namespace Trace

/-- The calls of stages. -/
def calls (trace : Trace) : List Call :=
  trace.filterMap fun moment =>
    match moment.happening with
    | .called call => some call
    | _ => none

/-- The emitted events. -/
def events (trace : Trace) : List Event :=
  trace.filterMap fun moment =>
    match moment.happening with
    | .emitted event => some event
    | _ => none

/-- The rounds whose statistics were written. -/
def written (trace : Trace) : List RoundStats :=
  trace.filterMap fun moment =>
    match moment.happening with
    | .wrote stats => some stats
    | _ => none

/-- What happened before a time, as far as it comes first in the trace. -/
def before (time : Nat) (trace : Trace) : Trace :=
  trace.takeWhile (·.time < time)

/-- What follows the moments before a time. -/
def since (time : Nat) (trace : Trace) : Trace :=
  trace.dropWhile (·.time < time)

end Trace

end ScriptForge.Pipeline

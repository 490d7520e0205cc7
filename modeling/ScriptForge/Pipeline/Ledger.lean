import ScriptForge.Pipeline.Record
import ScriptForge.Pipeline.Stats

/-!
# The ledger of rounds

Measurements of rounds that have not been written yet, in ascending order of rounds.
-/

namespace ScriptForge.Pipeline

/-- Measurements that have not been written yet. While the ledger is held, none may be taken out. -/
structure Ledger where
  rounds : List RoundStats
  held : Bool
  deriving DecidableEq, Repr

namespace Ledger

/-- The ledger without measurements. -/
def empty : Ledger := ⟨[], false⟩

/-- Adds the measurements of an execution to those of its round. -/
def addTo (record : Record) : List RoundStats → List RoundStats
  | [] => [(RoundStats.ofRound record.round).add record.slot record.latency record.usage.total]
  | stats :: rest =>
    if record.round < stats.round then
      (RoundStats.ofRound record.round).add record.slot record.latency record.usage.total ::
        stats :: rest
    else if record.round = stats.round then
      stats.add record.slot record.latency record.usage.total :: rest
    else stats :: addTo record rest

/-- The ledger with the measurements of one more execution. -/
def add (ledger : Ledger) (record : Record) : Ledger :=
  { ledger with rounds := addTo record ledger.rounds }

/-- The rounds before a given one, which may be written, and the ledger without them. -/
def takeBefore (ledger : Ledger) (round : Nat) : List RoundStats × Ledger :=
  if ledger.held then ([], ledger)
  else
    (ledger.rounds.filter (·.round < round),
      { ledger with rounds := ledger.rounds.filter (round ≤ ·.round) })

end Ledger

end ScriptForge.Pipeline

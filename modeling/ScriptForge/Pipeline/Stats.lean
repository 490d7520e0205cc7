import ScriptForge.Pipeline.Slot

/-!
# Statistics of rounds

Per round and slot, how long the stage took and how many tokens it used. A statistics file is a
table with a header line and two rows per round; a slot that did not run leaves its field empty.
-/

namespace ScriptForge.Pipeline

open Json

/-- The measurements of one round. -/
structure RoundStats where
  round : Nat
  latency : SlotMap Nat
  tokens : SlotMap Nat
  deriving DecidableEq, Repr

namespace RoundStats

/-- The round without measurements. -/
def ofRound (round : Nat) : RoundStats :=
  ⟨round, .empty, .empty⟩

/-- Adds a measurement to what a slot has already. -/
def add (stats : RoundStats) (slot : Slot) (latency tokens : Nat) : RoundStats :=
  { stats with latency := stats.latency.add slot latency, tokens := stats.tokens.add slot tokens }

def toJson (stats : RoundStats) : Json :=
  .obj [("round", .nat stats.round), ("latency_ms", stats.latency.toJson .nat),
    ("tokens", stats.tokens.toJson .nat)]

def ofJson? : Json → Option RoundStats :=
  record? do
    return ⟨← field "round" word32?, ← field "latency_ms" (SlotMap.ofJson? word64?),
      ← field "tokens" (SlotMap.ofJson? word64?)⟩

end RoundStats

/-! ## Statistics files -/

namespace StatsFile

/-- The names of the columns. -/
def columns : List String :=
  "round" :: "kind" :: Slot.all.map Slot.id

/-- A line of fields. -/
def line (fields : List String) : String :=
  ",".intercalate fields ++ "\n"

/-- The header line. -/
def header : String := line columns

/-- One row of a round. -/
def row (round : Nat) (kind : String) (values : SlotMap Nat) : String :=
  line (toString round :: kind :: Slot.all.map fun slot =>
    match values.get? slot with
    | some n => toString n
    | none => "")

/-- The two rows of a round. -/
def rows (stats : RoundStats) : String :=
  row stats.round "duration_ms" stats.latency ++ row stats.round "tokens" stats.tokens

/-- The text after opening the file anew. -/
def create : String := header

/-- The text after opening the file to append to it, given its text if it exists. -/
def append (text : Option String) : String :=
  match text with
  | none => header
  | some text => if text.isEmpty then header else text

/-- The text after a round has been recorded. -/
def record (text : String) (stats : RoundStats) : String :=
  text ++ rows stats

end StatsFile

end ScriptForge.Pipeline

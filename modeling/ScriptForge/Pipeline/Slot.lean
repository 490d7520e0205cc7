import ScriptForge.Json.Fields

/-!
# Slots

The six positions that a stage of the pipeline can occupy, in pipeline order, and tables with at
most one entry per slot. A table is read with `get?` and changed with `set`; setting an entry
changes no other.
-/

namespace ScriptForge.Pipeline

open Json

/-- The positions of the pipeline. -/
inductive Slot
  | identify
  | encapsulate
  | package
  | generate
  | combine
  | review
  deriving DecidableEq, Repr, Inhabited

namespace Slot

/-- All slots, in pipeline order. -/
def all : List Slot :=
  [identify, encapsulate, package, generate, combine, review]

theorem mem_all (slot : Slot) : slot ∈ all := by
  cases slot <;> decide

/-- The name of a slot. -/
def id : Slot → String
  | identify => "identify"
  | encapsulate => "encapsulate"
  | package => "package"
  | generate => "generate"
  | combine => "combine"
  | review => "review"

def ofId? : String → Option Slot
  | "identify" => some identify
  | "encapsulate" => some encapsulate
  | "package" => some package
  | "generate" => some generate
  | "combine" => some combine
  | "review" => some review
  | _ => none

theorem ofId?_id (slot : Slot) : ofId? slot.id = some slot := by
  cases slot <;> rfl

def toJson (slot : Slot) : Json :=
  .str slot.id

def ofJson? : Json → Option Slot :=
  choice? ofId?

end Slot

/-- A table with at most one entry per slot. -/
structure SlotMap (α : Type) where
  identify : Option α := none
  encapsulate : Option α := none
  package : Option α := none
  generate : Option α := none
  combine : Option α := none
  review : Option α := none
  deriving DecidableEq, Repr

namespace SlotMap

/-- The table without entries. -/
def empty : SlotMap α := {}

/-- The entry of a slot. -/
def get? (table : SlotMap α) : Slot → Option α
  | .identify => table.identify
  | .encapsulate => table.encapsulate
  | .package => table.package
  | .generate => table.generate
  | .combine => table.combine
  | .review => table.review

/-- The table with the entry of a slot replaced. -/
def set (table : SlotMap α) (slot : Slot) (a : α) : SlotMap α :=
  match slot with
  | .identify => { table with identify := some a }
  | .encapsulate => { table with encapsulate := some a }
  | .package => { table with package := some a }
  | .generate => { table with generate := some a }
  | .combine => { table with combine := some a }
  | .review => { table with review := some a }

@[simp] theorem get?_empty (slot : Slot) : (empty : SlotMap α).get? slot = none := by
  cases slot <;> rfl

@[simp] theorem get?_set_self (table : SlotMap α) (slot : Slot) (a : α) :
    (table.set slot a).get? slot = some a := by
  cases slot <;> rfl

theorem get?_set_of_ne (table : SlotMap α) {slot other : Slot} (h : other ≠ slot) (a : α) :
    (table.set slot a).get? other = table.get? other := by
  cases slot <;> cases other <;> first | rfl | exact absurd rfl h

/-- Adds to the entry of a slot; a missing entry counts as zero. -/
def add (table : SlotMap Nat) (slot : Slot) (n : Nat) : SlotMap Nat :=
  table.set slot ((table.get? slot).getD 0 + n)

/-- The entries in pipeline order. -/
def toList (table : SlotMap α) : List (Slot × α) :=
  Slot.all.filterMap fun slot => (table.get? slot).map (slot, ·)

/-- The table with these entries; of several for one slot the last counts. -/
def ofList (entries : List (Slot × α)) : SlotMap α :=
  entries.foldl (fun table (slot, a) => table.set slot a) empty

def toJson (encode : α → Json) (table : SlotMap α) : Json :=
  .obj (table.toList.map fun (slot, a) => (slot.id, encode a))

def ofJson? (decode : Json → Option α) : Json → Option (SlotMap α)
  | .obj fields =>
    ofList <$> fields.mapM fun (name, value) => do return (← Slot.ofId? name, ← decode value)
  | _ => none

end SlotMap

end ScriptForge.Pipeline

import ScriptForge.Pipeline.Error

/-!
# Stage sets

A run needs exactly one stage per slot. `StageSet.ofList` makes a set from stages in any order and
refuses a list with two stages for one slot or with none.
-/

namespace ScriptForge.Pipeline

/-- One stage per slot. -/
structure StageSet (σ : Type) where
  identify : σ
  encapsulate : σ
  package : σ
  generate : σ
  combine : σ
  review : σ
  deriving Repr

namespace StageSet

/-- The stage of a slot. -/
def get (stages : StageSet σ) : Slot → σ
  | .identify => stages.identify
  | .encapsulate => stages.encapsulate
  | .package => stages.package
  | .generate => stages.generate
  | .combine => stages.combine
  | .review => stages.review

/-- The set of what an action gives for each slot; the actions run in pipeline order. -/
def mapM [Monad m] (action : Slot → m σ) : m (StageSet σ) := do
  return {
    identify := ← action .identify
    encapsulate := ← action .encapsulate
    package := ← action .package
    generate := ← action .generate
    combine := ← action .combine
    review := ← action .review }

/-- The stages by slot, or an error at the first stage whose slot is taken. -/
def collect (slotOf : σ → Slot) (table : SlotMap σ) : List σ → Except ConfigError (SlotMap σ)
  | [] => .ok table
  | stage :: rest =>
    match table.get? (slotOf stage) with
    | some _ => .error (.slotTwice (slotOf stage))
    | none => collect slotOf (table.set (slotOf stage) stage) rest

/-- The stage of a slot in a table, or an error. -/
def take (table : SlotMap σ) (slot : Slot) : Except ConfigError σ :=
  match table.get? slot with
  | some stage => .ok stage
  | none => .error (.slotMissing slot)

/-- The set of some stages, one per slot. -/
def ofList (slotOf : σ → Slot) (stages : List σ) : Except ConfigError (StageSet σ) := do
  mapM (take (← collect slotOf .empty stages))

end StageSet

end ScriptForge.Pipeline

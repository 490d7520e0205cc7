import ScriptForge.Pipeline.Run

/-!
# Live runs

A run is a function of the replies of its stages. To run it with stages that act on the world, it is
computed with the replies known so far; the first call without a reply is put to the stage, and so
on until every call has one. A dialogue is the general form: a computation that, given some answers,
says which questions it asks, the answered ones first.
-/

namespace ScriptForge.Pipeline

/-- Has the questions of a computation answered one by one, at most `limit` of them. The index of a
question is passed along with it. -/
def dialogue [Monad m] (questions : List β → List α) (answer : Nat → α → m β) :
    (limit : Nat) → List β → m (List β)
  | 0, known => return known
  | limit + 1, known =>
    match (questions known)[known.length]? with
    | none => return known
    | some question => do
      dialogue questions answer limit (known ++ [← answer known.length question])

/-- Stages that give known replies; a call without one fails. -/
def knownReplies (known : List Reply) : Stages := fun call =>
  (known[call.earlier.length]?).getD ⟨0, .error .emptyResponse⟩

/-- A bound on the number of calls of a run. -/
def Config.callLimit (config : Config) : Nat :=
  3 + 6 * max config.reviewRetries 1 + 2 * max config.validationRetries 1

/-- Runs the pipeline with stages that act; those of the setup are not used. -/
def runLive [Monad m] (setup : Setup) (act : Call → m Reply) (input : RunInput) : m RunReport := do
  let report (known : List Reply) : RunReport :=
    run { setup with stages := knownReplies known } input
  let known ← dialogue (fun known => (report known).trace.calls) (fun _ call => act call)
    setup.config.callLimit []
  return report known

end ScriptForge.Pipeline

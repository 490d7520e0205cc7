import ScriptForge.Proofs.Pipeline.Contexts
import ScriptForge.Proofs.Pipeline.EachCall
import ScriptForge.Proofs.Pipeline.Events
import ScriptForge.Proofs.Pipeline.Opening

/-!
# What the calls of a run are given

`Sees` says what a call of a run is given, by what has happened before it: the outputs and the
records are those of the calls of the main fork, and the diagnostics tell of the reviews and the
validations. A packaging stage that runs in a fork of its own is called when the source has been
read once, so it sees nothing else (`Snapshot`); and nothing is seen of it.
-/

namespace ScriptForge.Pipeline

/-- What a packaging stage that runs in a fork of its own is given: the source has been read and
encapsulated once, and there is nothing else. -/
inductive Snapshot (setup : Setup) (input : RunInput) : List Call → Context → Prop
  | mk {identify encapsulate : Call} {first second : StageOutput}
      (hidentify : identify.slot = .identify) (hencapsulate : encapsulate.slot = .encapsulate)
      (hfirst : (setup.stages identify).result = .ok first)
      (hsecond : (setup.stages encapsulate).result = .ok second) :
      Snapshot setup input [identify, encapsulate]
        (((Context.ofInput input).entered .identify 1 (setup.stages identify).delay first).entered
          .encapsulate 1 (setup.stages encapsulate).delay second)

theorem Snapshot.slots_eq {setup : Setup} {input : RunInput} {calls : List Call}
    {context : Context} (h : Snapshot setup input calls context) :
    calls.map Call.slot = [.identify, .encapsulate] := by
  cases h with
  | mk hidentify hencapsulate => simp [hidentify, hencapsulate]

theorem Reaches.snapshot {setup : Setup} {input : RunInput} {s : RunState}
    (h : Reaches setup input .fork s) : Snapshot setup input s.trace.calls s.context := by
  obtain ⟨first, second, hfirst, hsecond, rfl⟩ := h.fork_eq
  have hcalls : (((RunState.opened setup input).stepped setup .identify first).stepped setup
      .encapsulate second).trace.calls = [(RunState.opened setup input).stepCall .identify,
        ((RunState.opened setup input).stepped setup .identify first).stepCall .encapsulate] := by
    simp [RunState.opened, RunState.start]
  rw [hcalls]
  exact .mk rfl rfl hfirst hsecond

/-! ## What each call is given -/

/-- What a call is given, by what has happened before. -/
structure Sees (setup : Setup) (input : RunInput) (before : Trace) (call : Call) : Prop where
  source : call.context.code = input.code ∧ call.context.auxiliary = input.auxiliary
  coherent : call.context.Coherent
  /-- A slot has an output if there is a record of it, and only then. -/
  present : ∀ slot, (call.context.output? slot).isSome ↔
    ∃ record ∈ call.context.history, record.slot = slot
  /-- All calls of the main fork have returned, and the history has their records. -/
  recorded : List.Forall₂ (Recorded setup) (before.ownCalls setup.config) call.context.history
  finished : (before.ownEvents setup.config).filter Event.finishes =
    call.context.history.map (Record.finished setup.runId)
  outputs : ∀ slot, setup.config.beside slot = false →
    call.context.output? slot = before.lastText? setup.stages slot
  /-- One fork after the other, the history has the records of all calls. -/
  inTurn : setup.config.concurrentForks = false →
    List.Forall₂ (Recorded setup) before.calls call.context.history
  /-- Side by side, nothing is seen of the packaging stage. -/
  apart : setup.config.concurrentForks = true → call.context.output? .package = none ∧
    call.context.usage? .package = none ∧ ∀ record ∈ call.context.history, record.slot ≠ .package
  snapshot : setup.config.concurrentForks = true → call.slot = .package →
    Snapshot setup input before.calls call.context
  verdicts : before.verdicts = (before.texts setup.stages .review).map setup.classifier
  /-- The diagnostics tell of the reviews and the validations. -/
  notes : Notes setup (before.texts setup.stages .review) before.validations call.context
  /-- The last validation was one of the last script. -/
  validated : ∀ errors ∈ before.validations.getLast?, ∃ script,
    before.lastText? setup.stages .combine = some script ∧
      errors = (setup.validator.validate script).errors

/-- In one fork all calls are calls of the main fork. -/
theorem Trace.ownCalls_of_in_turn {config : Config} (hturn : config.concurrentForks = false)
    (trace : Trace) : trace.ownCalls config = trace.calls := by
  simp [Trace.ownCalls, Config.beside_of_in_turn hturn]

/-- Side by side, the main fork does not package. -/
theorem Point.ran_package {config : Config} (htogether : config.concurrentForks = true)
    (p : Point) : p.ran config .package = 0 := by
  have hnever : ∀ k, config.packagings k = 0 := by
    intro k
    cases k <;> simp [Config.packagings, htogether]
  cases p <;> simp [ran, tally, hnever]

theorem Reaches.not_package {setup : Setup} {input : RunInput} {p : Point} {s : RunState}
    (h : Reaches setup input p s) (htogether : setup.config.concurrentForks = true) :
    ∀ record ∈ s.context.history, record.slot ≠ .package := by
  have hrounds := h.history_rounds .package
  rw [Point.ran_package htogether] at hrounds
  simpa [roundsOf] using hrounds

/-- Where a stage is called, what it is given is told by what has happened before. -/
theorem Reaches.sees {setup : Setup} {input : RunInput} {p : Point} {s : RunState} {slot : Slot}
    (h : Reaches setup input p s) (hjudged : p.unjudged = [])
    (hvalidated : ∀ errors ∈ s.trace.validations.getLast?, ∃ script,
      s.context.outputs.get? .combine = some script ∧
        errors = (setup.validator.validate script).errors)
    (hsnapshot : setup.config.concurrentForks = true → slot = .package →
      Snapshot setup input s.trace.calls s.context) :
    Sees setup input (s.announced setup slot).trace (s.stepCall slot) := by
  obtain ⟨reviews, hnoted⟩ := h.noted
  have htexts := hnoted.texts
  rw [hjudged, List.append_nil] at htexts
  have hlast : ∀ other, (s.announced setup slot).trace.lastText? setup.stages other =
      s.trace.lastText? setup.stages other := by
    simp [Trace.lastText?, RunState.announced_trace]
  have hreviews : (s.announced setup slot).trace.texts setup.stages .review = reviews := by
    rw [← htexts]
    simp [Trace.texts, RunState.announced_trace]
  have hvalidations : (s.announced setup slot).trace.validations = s.trace.validations := by
    simp [Trace.validations, RunState.announced_trace]
  have hcalls : (s.announced setup slot).trace.calls = s.trace.calls := by
    simp [RunState.announced_trace]
  have hown : (s.announced setup slot).trace.ownCalls setup.config =
      s.trace.ownCalls setup.config := by
    rw [Trace.ownCalls, hcalls]
    rfl
  exact {
    source := h.input_eq
    coherent := h.coherent
    present := h.coherent.output?_isSome_iff
    recorded := by
      rw [hown]
      exact h.recorded
    finished := by
      have hfinished : ((s.announced setup slot).trace.ownEvents setup.config).filter
          Event.finishes = (s.trace.ownEvents setup.config).filter Event.finishes := by
        by_cases hslot : setup.config.beside slot <;>
          simp [Trace.ownEvents, RunState.announced_trace, Event.beside, Event.slot?, hslot,
            Event.finishes]
      rw [hfinished]
      exact h.shows.finished
    outputs := by
      intro other hother
      rw [hlast]
      exact h.output?_eq hother
    inTurn := by
      intro hturn
      rw [hcalls, ← Trace.ownCalls_of_in_turn hturn]
      exact h.recorded
    apart := by
      intro htogether
      have hnone := h.not_package htogether
      have hrecord : s.context.lastRecord? .package = none := by
        simpa [Context.lastRecord?] using hnone
      have houtput := h.coherent.output .package
      have husage := h.coherent.usage .package
      rw [hrecord] at houtput husage
      exact ⟨Option.map_eq_none_iff.mp houtput, husage, hnone⟩
    snapshot := by
      intro htogether hslot
      rw [hcalls]
      exact hsnapshot htogether hslot
    verdicts := by
      rw [hreviews, ← hnoted.verdicts]
      simp [Trace.verdicts, RunState.announced_trace]
    notes := by
      rw [hreviews, hvalidations]
      exact hnoted.notes
    validated := by
      rw [hvalidations, hlast, ← h.output?_eq (setup.config.beside_of_ne (by decide))]
      exact hvalidated }

/-- When the packaging stage returns makes no difference to what the other stages are given. -/
theorem Sees.insert {setup : Setup} {input : RunInput} {first rest : Trace} {call : Call}
    (h : Sees setup input (first ++ rest) call) (htogether : setup.config.concurrentForks = true)
    (time round latency : Nat) (usage : Usage) :
    Sees setup input (first ++ ⟨time, .emitted
      (.stageFinished setup.runId .package round latency usage)⟩ :: rest) call := by
  generalize hmore : (⟨time, .emitted (.stageFinished setup.runId .package round latency usage)⟩ ::
    rest : Trace) = more
  have hcalls : Trace.calls (first ++ more) = Trace.calls (first ++ rest) := by
    simp [← hmore]
  have hown : Trace.ownEvents setup.config (first ++ more) =
      Trace.ownEvents setup.config (first ++ rest) := by
    simp [← hmore, Trace.ownEvents, Event.beside, Event.slot?, Config.beside, htogether]
  have hverdicts : Trace.verdicts (first ++ more) = Trace.verdicts (first ++ rest) := by
    simp [← hmore, Trace.verdicts]
  have hvalidations : Trace.validations (first ++ more) = Trace.validations (first ++ rest) := by
    simp [← hmore, Trace.validations]
  have hlast : Trace.lastText? setup.stages .combine (first ++ more) =
      Trace.lastText? setup.stages .combine (first ++ rest) := by
    rw [Trace.lastText?, hcalls, Trace.lastText?]
  exact {
    source := h.source
    coherent := h.coherent
    present := h.present
    recorded := by
      rw [Trace.ownCalls, hcalls]
      exact h.recorded
    finished := by
      rw [hown]
      exact h.finished
    outputs := by
      simp only [Trace.lastText?, hcalls]
      exact h.outputs
    inTurn := by
      rw [hcalls]
      exact h.inTurn
    apart := h.apart
    snapshot := by
      rw [hcalls]
      exact h.snapshot
    verdicts := by
      rw [hverdicts, Trace.texts, hcalls]
      exact h.verdicts
    notes := by
      rw [hvalidations, Trace.texts, hcalls]
      exact h.notes
    validated := by
      rw [hvalidations, hlast]
      exact h.validated }

/-- **The contexts of a run.** In every run, each call is given what has happened before it. -/
theorem contexts_of_run (setup : Setup) (input : RunInput) :
    (run setup input).trace.EachCall (Sees setup input) := by
  have hcalling : Calling setup input (Sees setup input) := {
    step := by
      intro p s slot next h hcalls
      refine h.sees (hcalls.unjudged_next "").1 (hcalls.validated h.validated) ?_
      rintro htogether rfl
      have hbeside := hcalls.not_beside h.fits
      simp [Config.beside, htogether] at hbeside
    fork := by
      intro s h
      refine h.sees rfl ?_ fun _ _ => h.snapshot
      have hnone : s.trace.validations.getLast? = none := h.validated
      rw [hnone]
      rintro errors ⟨⟩
    joined := fun htogether _ _ time round latency usage _ h =>
      h.insert htogether time round latency usage }
  exact hcalling.run

end ScriptForge.Pipeline

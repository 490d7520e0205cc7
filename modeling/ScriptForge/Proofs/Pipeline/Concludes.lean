import ScriptForge.Proofs.Pipeline.CallOrder
import ScriptForge.Proofs.Pipeline.Reaches

/-!
# How a run concludes

The report of a run is told by how its main fork ends (`Reaches`, `Breaks`) and, where the forks run
side by side, by the reply of the packaging stage. `Concludes` lists the ways: the run finishes, its
last statistics are refused, the main fork breaks, or the packaging stage fails first and stops it.
`run_concludes` says that there is no other.

Beside the packaging stage the trace of the main fork is cut when that stage fails, and has one more
moment where it has returned (`interleaved`). So what holds of the main fork's trace, of each of its
prefixes, and does not depend on that moment, holds of the trace of the run.
-/

namespace ScriptForge.Pipeline

namespace RunState

/-- The state after the statistics that are left have been written and the run has finished. -/
def finished (s : RunState) (setup : Setup) : RunState :=
  ({ s with ledger := { s.ledger with rounds := [] } }.wroteAll setup s.ledger.rounds).happened
    (.emitted (.runFinished setup.runId s.round))

/-- What a run returns that finishes in a state. -/
def output (s : RunState) (setup : Setup) (script : String) (outcome : Outcome) : RunOutput where
  runId := setup.runId
  script
  pluginCode := (s.context.output? .package).getD ""
  outcome
  rounds := s.round
  history := s.context.history

section Fields

variable (s : RunState) (setup : Setup)

theorem finished_trace : (s.finished setup).trace =
    (s.wroteAll setup s.ledger.rounds).trace ++
      [⟨s.clock, .emitted (.runFinished setup.runId s.round)⟩] := rfl

theorem exists_finished_trace : ∃ more : Trace, (s.finished setup).trace = s.trace ++ more ∧
    more.calls = [] ∧ more.events = [.runFinished setup.runId s.round] := by
  obtain ⟨more, htrace, hcalls, hevents⟩ := s.exists_wroteAll_trace setup s.ledger.rounds
  rw [finished_trace, htrace, List.append_assoc]
  exact ⟨_, rfl, by simp [hcalls], by simp [hevents]⟩

@[simp] theorem finished_calls : (s.finished setup).trace.calls = s.trace.calls := by
  simp [finished_trace]

@[simp] theorem finished_events : (s.finished setup).trace.events =
    s.trace.events ++ [.runFinished setup.runId s.round] := by
  simp [finished_trace]

theorem finished_written : (s.finished setup).trace.written =
    s.trace.written ++ if setup.sink.isSome then s.ledger.rounds else [] := by
  simp [finished_trace, wroteAll_written]

end Fields

end RunState

/-- The trace of the main fork with the end of the packaging stage, which was called in the state
`fork`. -/
def interleaved (setup : Setup) (fork : RunState) (delay : Nat) (output : StageOutput)
    (trace : Trace) : Trace :=
  let due := fork.clock + delay
  let own := trace.drop fork.trace.length
  fork.trace ++ Trace.before due own ++
    ⟨due, .emitted (.stageFinished setup.runId .package fork.round delay output.usage)⟩ ::
      Trace.since due own

theorem RunM.joined_trace (setup : Setup) (fork : RunState) (delay : Nat) (output : StageOutput)
    (after : RunState) :
    (RunM.joined setup fork delay output after).trace =
      interleaved setup fork delay output after.trace := rfl

/-- The trace of the main fork up to the failure of the packaging stage, which was called in the
state `fork`. -/
def cutShort (fork : RunState) (delay : Nat) (trace : Trace) : Trace :=
  fork.trace ++ Trace.before (fork.clock + delay) (trace.drop fork.trace.length)

theorem exists_interleaved (setup : Setup) {fork : RunState} (delay : Nat) (output : StageOutput)
    {trace : Trace} (hgrown : fork.trace <+: trace) :
    ∃ first rest, first = cutShort fork delay trace ∧ trace = first ++ rest ∧
      interleaved setup fork delay output trace = first ++ ⟨fork.clock + delay, .emitted
        (.stageFinished setup.runId .package fork.round delay output.usage)⟩ :: rest := by
  obtain ⟨own, rfl⟩ := hgrown
  refine ⟨_, Trace.since (fork.clock + delay) own, rfl, ?_, ?_⟩
  · rw [cutShort, List.drop_left, List.append_assoc, Trace.before_append_since]
  · rw [interleaved, cutShort, List.drop_left]

theorem cutShort_between {fork : RunState} (delay : Nat) {trace : Trace}
    (hgrown : fork.trace <+: trace) :
    fork.trace <+: cutShort fork delay trace ∧ cutShort fork delay trace <+: trace := by
  obtain ⟨own, rfl⟩ := hgrown
  rw [cutShort, List.drop_left]
  exact ⟨List.prefix_append _ _, List.prefix_append_right_inj _ |>.mpr (List.takeWhile_prefix _)⟩

/-- The forks run side by side. They have started at the state `fork`, and the main fork has come to
the state `after`. -/
structure SideBySide (setup : Setup) (input : RunInput) (fork after : RunState) : Prop where
  together : setup.config.concurrentForks = true
  start : Reaches setup input .fork fork
  grown : (fork.forked setup).trace <+: after.trace

/-- The end of the packaging stage is no call. -/
theorem interleaved_calls {setup : Setup} {input : RunInput} {fork after : RunState}
    (h : SideBySide setup input fork after) (delay : Nat) (output : StageOutput) :
    (interleaved setup (fork.forked setup) delay output after.trace).calls = after.trace.calls := by
  obtain ⟨first, rest, -, htrace, hinterleaved⟩ := exists_interleaved setup delay output h.grown
  rw [hinterleaved, htrace]
  simp

/-- The state in which a run finishes whose main fork has settled in the state `after`. -/
inductive Joins (setup : Setup) (input : RunInput) (after : RunState) : RunState → Prop
  | inTurn (hturn : setup.config.concurrentForks = false) : Joins setup input after after
  | together {fork : RunState} {output : StageOutput} (h : SideBySide setup input fork after)
      (hreturned : (setup.stages (fork.stepCall .package)).result = .ok output) :
      Joins setup input after (RunM.joined setup (fork.forked setup)
        (setup.stages (fork.stepCall .package)).delay output after)

/-- The reports that a run can end with. -/
inductive Concludes (setup : Setup) (input : RunInput) : RunReport → Prop
  | finished {passed valid : Bool} {k m : Nat} {script : String} {after s : RunState}
      (h : Reaches setup input (.settled passed valid k m script) after)
      (hjoins : Joins setup input after s) :
      Concludes setup input
        ⟨(s.finished setup).trace, .ok (s.output setup script ⟨passed, valid, k + 1, m + 1⟩)⟩
  /-- The sink refuses the statistics that are left. -/
  | unwritten {passed valid : Bool} {k m : Nat} {script : String} {after s s' : RunState}
      {done : List RoundStats} {text : String}
      (h : Reaches setup input (.settled passed valid k m script) after)
      (hjoins : Joins setup input after s) (htrace : s'.trace = (s.wroteAll setup done).trace)
      (hrefused : Refused setup s'.trace.written text) :
      Concludes setup input ⟨s'.trace, .error (.stats text)⟩
  | broken {error : PipelineError} {s : RunState} (h : Breaks setup input error s) :
      Concludes setup input ⟨s.trace, .error error⟩
  /-- The main fork breaks when the packaging stage has returned. -/
  | brokenBeside {fork s : RunState} {output : StageOutput} {error : PipelineError}
      (hbeside : SideBySide setup input fork s)
      (hreturned : (setup.stages (fork.stepCall .package)).result = .ok output)
      (h : Breaks setup input error s) :
      Concludes setup input ⟨interleaved setup (fork.forked setup)
        (setup.stages (fork.stepCall .package)).delay output s.trace, .error error⟩
  /-- The packaging stage fails and stops the main fork. -/
  | stopped {fork s : RunState} {cause : StageError} (hbeside : SideBySide setup input fork s)
      (hfailed : (setup.stages (fork.stepCall .package)).result = .error cause)
      (h : (∃ p, Reaches setup input p s) ∨ ∃ error, Breaks setup input error s) :
      Concludes setup input ⟨cutShort (fork.forked setup)
        (setup.stages (fork.stepCall .package)).delay s.trace, .error (.stage .package cause)⟩

/-! ## Taking a run apart -/

namespace RunM

variable {setup : Setup} {input : RunInput} {s : RunState}

/-- The two forks in turn. -/
theorem forksInTurn_reaches (h : Reaches setup input (.package 0) s) :
    Ends (forksInTurn setup) s
      (fun (script, outcome) s' => ∃ passed valid k m, outcome = ⟨passed, valid, k + 1, m + 1⟩ ∧
        Reaches setup input (.settled passed valid k m script) s')
      (Breaks setup input) :=
  step_bind_reaches h (.package 0) fun _ _ h₁ => generation_reaches h₁

/-- The two forks side by side. -/
theorem forksTogether_concludes (htogether : setup.config.concurrentForks = true)
    (h : Reaches setup input .fork s) :
    Ends (forksTogether setup) s
      (fun (script, outcome) s' => ∃ passed valid k m after,
        outcome = ⟨passed, valid, k + 1, m + 1⟩ ∧
        Reaches setup input (.settled passed valid k m script) after ∧ Joins setup input after s')
      (fun error s' => Concludes setup input ⟨s'.trace, .error error⟩) := by
  have hends := (generation_reaches h.fork).and
    ((actionsGrow setup _).generation (s.forked setup) List.prefix_rfl)
  simp only [forksTogether, ends_bind, ends_modify, ends_call, ends_get]
  change Ends (join setup (s.forked setup) (setup.stages (s.stepCall .package))
    ((generation setup).run (s.forked setup)).1 ((generation setup).run (s.forked setup)).2) _ _ _
  rcases hgeneration : (generation setup).run (s.forked setup) with
    ⟨error | ⟨script, outcome⟩, after⟩
  · obtain ⟨hbreaks, hgrown⟩ := hends.of_run_error hgeneration
    have hbeside : SideBySide setup input s after := ⟨htogether, h, hgrown⟩
    cases hreply : (setup.stages (s.stepCall .package)).result with
    | error cause =>
      simp only [join, hreply]
      split
      · exact .stopped hbeside hreply (.inr ⟨error, hbreaks⟩)
      · exact .broken hbreaks
    | ok output =>
      simp only [join, hreply]
      change Concludes setup input ⟨(if _ then _ else _ : RunState).trace, _⟩
      split
      · exact .brokenBeside hbeside hreply hbreaks
      · exact .broken hbreaks
  · obtain ⟨⟨passed, valid, k, m, rfl, hsettled⟩, hgrown⟩ := hends.of_run_ok hgeneration
    have hbeside : SideBySide setup input s after := ⟨htogether, h, hgrown⟩
    cases hreply : (setup.stages (s.stepCall .package)).result with
    | error cause =>
      simp only [join, hreply]
      exact .stopped hbeside hreply (.inl ⟨_, hsettled⟩)
    | ok output =>
      rw [Ends, run_join hreply]
      exact ⟨passed, valid, k, m, after, rfl, hsettled, .together hbeside hreply⟩

theorem ends_finish (script : String) (outcome : Outcome) (s : RunState) :
    Ends (finish setup script outcome) s
      (fun output s' => output = s.output setup script outcome ∧ s' = s.finished setup)
      (fun error s' => ∃ text done, error = .stats text ∧
        s'.trace = (s.wroteAll setup done).trace ∧ Refused setup s'.trace.written text) := by
  simp only [finish, flushAll, ends_bind, ends_get, ends_modify, ends_emit, ends_pure]
  refine (ends_writeAll _ _).imp (fun _ s' h => ?_) (fun error s' h => ?_)
  · rw [h]
    exact ⟨rfl, rfl⟩
  · obtain ⟨text, done, stats, rest, rfl, -, rfl, hrefused⟩ := h
    exact ⟨text, done, rfl, rfl, hrefused⟩

theorem whole_concludes (setup : Setup) (input : RunInput) :
    Ends (whole setup) (.start setup.config input)
      (fun output s => Concludes setup input ⟨s.trace, .ok output⟩)
      (fun error s => Concludes setup input ⟨s.trace, .error error⟩) := by
  rw [whole, ends_bind, ends_emit, ends_bind]
  refine (step_reaches .start (.identify 0)).imp (fun _ s₁ h₁ => ?_) (fun _ _ h => .broken h)
  rw [ends_bind]
  refine (step_reaches h₁ (.encapsulate 0)).imp (fun _ s₂ h₂ => ?_) (fun _ _ h => .broken h)
  have hforks : Ends (forks setup) s₂
      (fun (script, outcome) s' => ∃ passed valid k m after,
        outcome = ⟨passed, valid, k + 1, m + 1⟩ ∧
        Reaches setup input (.settled passed valid k m script) after ∧ Joins setup input after s')
      (fun error s' => Concludes setup input ⟨s'.trace, .error error⟩) := by
    rw [Point.encapsulated] at h₂
    rw [forks]
    split at h₂
    · rw [if_pos ‹_›]
      exact forksTogether_concludes ‹_› h₂
    · rw [if_neg ‹_›]
      refine (forksInTurn_reaches h₂).imp (fun generated s₃ h₃ => ?_) (fun _ _ h => .broken h)
      obtain ⟨passed, valid, k, m, houtcome, h₃⟩ := h₃
      exact ⟨passed, valid, k, m, s₃, houtcome, h₃, .inTurn (Bool.not_eq_true _ ▸ ‹_›)⟩
  rw [ends_bind]
  refine hforks.imp (fun generated s₃ h₃ => ?_) (fun _ _ h => h)
  obtain ⟨passed, valid, k, m, after, houtcome, hsettled, hjoins⟩ := h₃
  obtain ⟨script, outcome⟩ := generated
  change outcome = _ at houtcome
  subst houtcome
  refine (ends_finish script _ s₃).imp (fun output s₄ h₄ => ?_) (fun error s₄ h₄ => ?_)
  · obtain ⟨rfl, rfl⟩ := h₄
    exact .finished hsettled hjoins
  · obtain ⟨text, done, rfl, htrace, hrefused⟩ := h₄
    exact .unwritten hsettled hjoins htrace hrefused

end RunM

theorem run_concludes (setup : Setup) {input : RunInput} (hcode : input.isBlank = false) :
    Concludes setup input (run setup input) := by
  rcases run_cases setup hcode with ⟨output, s, hrun, hreport⟩ | ⟨error, s, hrun, hreport⟩
  · rw [hreport]
    exact (RunM.whole_concludes setup input).of_run_ok hrun
  · rw [hreport]
    exact (RunM.whole_concludes setup input).of_run_error hrun

/-! ## What holds of all traces -/

/-- What a run does after its main fork keeps a property of traces. -/
structure Lasts (setup : Setup) (property : Trace → Prop) : Prop where
  cut : ∀ first trace, first <+: trace → property trace → property first
  /-- The packaging stage has returned while the main fork ran. -/
  joined : setup.config.concurrentForks = true → ∀ first rest time round latency usage,
    property (first ++ rest) → property (first ++ ⟨time, .emitted
      (.stageFinished setup.runId .package round latency usage)⟩ :: rest)
  wrote : ∀ trace more : Trace, more.calls = [] → more.events = [] → property trace →
    property (trace ++ more)
  finished : ∀ trace time rounds, property trace →
    property (trace ++ [⟨time, .emitted (.runFinished setup.runId rounds)⟩])

namespace Lasts

variable {setup : Setup} {input : RunInput} {property : Trace → Prop} {after s : RunState}
  {report : RunReport}

theorem wroteAll (hlasts : Lasts setup property) (rounds : List RoundStats)
    (h : property s.trace) : property (s.wroteAll setup rounds).trace := by
  obtain ⟨more, htrace, hcalls, hevents⟩ := s.exists_wroteAll_trace setup rounds
  rw [htrace]
  exact hlasts.wrote _ _ hcalls hevents h

theorem interleaved (hlasts : Lasts setup property) {fork : RunState} (delay : Nat)
    (output : StageOutput) (hbeside : SideBySide setup input fork after)
    (h : property after.trace) :
    property (interleaved setup (fork.forked setup) delay output after.trace) := by
  obtain ⟨first, rest, -, htrace, hinterleaved⟩ :=
    exists_interleaved setup delay output hbeside.grown
  rw [htrace] at h
  rw [hinterleaved]
  exact hlasts.joined hbeside.together _ _ _ _ _ _ h

theorem joins (hlasts : Lasts setup property) (hjoins : Joins setup input after s)
    (h : property after.trace) : property s.trace := by
  cases hjoins with
  | inTurn hturn => exact h
  | together hbeside hreturned => exact hlasts.interleaved _ _ hbeside h

/-- What holds of the traces of the main fork, and lasts, holds of the trace of the run. -/
theorem of_concludes (hlasts : Lasts setup property)
    (hreaches : ∀ p s, Reaches setup input p s → property s.trace)
    (hbreaks : ∀ error s, Breaks setup input error s → property s.trace)
    (h : Concludes setup input report) : property report.trace := by
  cases h with
  | @finished passed valid k m script after s h hjoins =>
    change property ((s.wroteAll setup s.ledger.rounds).trace ++ [_])
    exact hlasts.finished _ _ _ (hlasts.wroteAll _ (hlasts.joins hjoins (hreaches _ _ h)))
  | @unwritten passed valid k m script after s s' done text h hjoins htrace hrefused =>
    change property s'.trace
    rw [htrace]
    exact hlasts.wroteAll _ (hlasts.joins hjoins (hreaches _ _ h))
  | broken h => exact hbreaks _ _ h
  | brokenBeside hbeside hreturned h => exact hlasts.interleaved _ _ hbeside (hbreaks _ _ h)
  | stopped hbeside hfailed h =>
    refine hlasts.cut _ _ (cutShort_between _ hbeside.grown).2 ?_
    rcases h with ⟨p, h⟩ | ⟨error, h⟩
    · exact hreaches _ _ h
    · exact hbreaks _ _ h

end Lasts

/-! ## Runs that return -/

theorem isBlank_of_run_ok {setup : Setup} {input : RunInput} {output : RunOutput}
    (hok : (run setup input).result = .ok output) : input.isBlank = false := by
  cases hcode : input.isBlank with
  | false => rfl
  | true =>
    rw [run, hcode] at hok
    cases hok

/-- A run that returns has settled on a script, and its forks have ended. -/
theorem finished_of_run_ok {setup : Setup} {input : RunInput} {output : RunOutput}
    (hok : (run setup input).result = .ok output) :
    ∃ passed valid k m script after s,
      Reaches setup input (.settled passed valid k m script) after ∧
      Joins setup input after s ∧ (run setup input).trace = (s.finished setup).trace ∧
      output = s.output setup script ⟨passed, valid, k + 1, m + 1⟩ := by
  have hconcludes := run_concludes setup (isBlank_of_run_ok hok)
  generalize run setup input = report at hok hconcludes
  cases hconcludes with
  | finished h hjoins =>
    cases hok
    exact ⟨_, _, _, _, _, _, _, h, hjoins, rfl, rfl⟩
  | _ => cases hok

theorem Setup.NothingRefused.not_refused {setup : Setup} (htaken : setup.NothingRefused)
    {written : List RoundStats} {text : String} : ¬ Refused setup written text := by
  rintro ⟨sink, stats, hsink, htext⟩
  rw [htaken sink hsink] at htext
  cases htext

/-- A run returns if no stage fails and the sink takes all that it is given. -/
theorem exists_run_ok {setup : Setup} {input : RunInput} (hcode : input.isBlank = false)
    (hstages : ∀ call, ∃ output, (setup.stages call).result = .ok output)
    (htaken : setup.NothingRefused) : ∃ output, (run setup input).result = .ok output := by
  have hstage : ∀ call cause, (setup.stages call).result ≠ .error cause := by
    intro call cause hfailed
    obtain ⟨output, hok⟩ := hstages call
    rw [hfailed] at hok
    cases hok
  have hbreaks : ∀ error s, ¬ Breaks setup input error s := by
    rintro error s (⟨-, -, hfailed⟩ | ⟨-, -, -, hrefused⟩)
    · exact hstage _ _ hfailed
    · exact htaken.not_refused hrefused
  have hconcludes := run_concludes setup hcode
  generalize run setup input = report at hconcludes
  cases hconcludes with
  | finished => exact ⟨_, rfl⟩
  | unwritten _ _ _ hrefused => exact absurd hrefused htaken.not_refused
  | broken h => exact absurd h (hbreaks _ _)
  | brokenBeside _ _ h => exact absurd h (hbreaks _ _)
  | stopped _ hfailed => exact absurd hfailed (hstage _ _)

/-! ## Runs that fail -/

/-- A stage error of a run is that of a stage which was called. -/
theorem Concludes.exists_failed {setup : Setup} {input : RunInput} {report : RunReport}
    (h : Concludes setup input report) {slot : Slot} {cause : StageError}
    (hfailed : report.result = .error (.stage slot cause)) :
    ∃ call ∈ report.trace.calls, call.slot = slot ∧ (setup.stages call).result = .error cause := by
  have hbreaks : ∀ s, Breaks setup input (.stage slot cause) s → ∃ call ∈ s.trace.calls,
      call.slot = slot ∧ (setup.stages call).result = .error cause := by
    rintro _ ⟨hreaches, hcalls, hfailed⟩
    exact ⟨_, by simp, RunState.stepCall_slot _ _, hfailed⟩
  cases h with
  | finished | unwritten => cases hfailed
  | broken h =>
    cases hfailed
    exact hbreaks _ h
  | @brokenBeside fork s output error hbeside hreturned h =>
    cases hfailed
    obtain ⟨call, hcall, hcause⟩ := hbreaks _ h
    refine ⟨call, ?_, hcause⟩
    rw [interleaved_calls hbeside]
    exact hcall
  | @stopped fork s cause hbeside hreply h =>
    cases hfailed
    obtain ⟨more, hmore⟩ := (cutShort_between
      (setup.stages (fork.stepCall .package)).delay hbeside.grown).1
    refine ⟨fork.stepCall .package, ?_, rfl, hreply⟩
    rw [← hmore]
    simp

end ScriptForge.Pipeline

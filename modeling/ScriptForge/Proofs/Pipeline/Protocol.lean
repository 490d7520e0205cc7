import ScriptForge.Proofs.Pipeline.Events
import ScriptForge.Proofs.Pipeline.Statistics

/-!
# The events of a run

`events_of_run` is the protocol that the events of every run follow. Those of the main fork are in
the order that it has gone through, those of a packaging stage in a fork of its own come at any time
between them, and where one fork fails the events of the other are cut off (`Proceeds`). What a run
returns is told by its events too: they tell of the executions in its history and of the loops that
have not accepted the candidate.
-/

namespace ScriptForge.Pipeline

/-- The events of a packaging stage that runs in a fork of its own. -/
def packaging (setup : Setup) (latency : Nat) (usage : Usage) : List Event :=
  [.stageStarted setup.runId .package 1, .stageFinished setup.runId .package 1 latency usage]

namespace Trace

/-- A stage has been announced that has not finished. -/
def Unfinished (config : Config) (trace : Trace) : Prop :=
  ∃ event, event.started?.isSome ∧
    ((trace.ownEvents config).getLast? = some event ∨
      (trace.besideEvents config).getLast? = some event)

theorem not_unfinished {config : Config} {trace : Trace}
    (hown : ∀ last ∈ (trace.ownEvents config).getLast?, last.started? = none)
    (hbeside : ∀ last ∈ (trace.besideEvents config).getLast?, last.started? = none) :
    ¬ trace.Unfinished config := by
  rintro ⟨event, hstarted, hlast | hlast⟩
  · simp [hown event hlast] at hstarted
  · simp [hbeside event hlast] at hstarted

/-- A call is the last one of a fork. -/
def LastCall (config : Config) (trace : Trace) (call : Call) : Prop :=
  (trace.ownCalls config).getLast? = some call ∨ (trace.besideCalls config).getLast? = some call

end Trace

/-- The loops that have not accepted the candidate, and the attempts that they made. -/
def Outcome.exhausted (outcome : Outcome) : List (Rejection × Nat) :=
  (if outcome.reviewPassed then [] else [(.review, outcome.reviewAttempts)]) ++
    if outcome.scriptValid then [] else [(.validation, outcome.validationAttempts)]

/-- The event at the end of a run. -/
def Setup.closing (setup : Setup) : Except PipelineError RunOutput → List Event
  | .ok output => [.runFinished setup.runId output.rounds]
  | .error _ => []

/-- What the events of a run tell of its output. -/
structure TellsOutput (setup : Setup) (trace : Trace) (output : RunOutput) : Prop where
  finished : (trace.ownEvents setup.config).filter Event.finishes =
    (output.history.filter (!setup.config.beside ·.slot)).map (Record.finished setup.runId)
  packaged : (trace.besideEvents setup.config).filter Event.finishes =
    (output.history.filter (setup.config.beside ·.slot)).map (Record.finished setup.runId)
  exhausted : trace.events.filterMap Event.exhausted? = output.outcome.exhausted
  lastCandidate : output.outcome.isLastCandidate ↔ trace.events.filterMap Event.exhausted? ≠ []

/-- The protocol that the events of a run follow. -/
structure FollowsProtocol (setup : Setup) (report : RunReport) : Prop where
  /-- The run is said to start once and first, and to finish once and last if it returns. -/
  framed : ∃ middle, (∀ event ∈ middle, event.frames = false) ∧
    report.trace.events = .runStarted setup.runId :: (middle ++ setup.closing report.result)
  /-- Each call has been announced, and nothing else has. -/
  announced : report.trace.events.filterMap Event.started? = report.trace.slots
  own : Orderly setup.config (report.trace.ownEvents setup.config)
  beside : ∃ latency usage,
    report.trace.besideEvents setup.config <+: packaging setup latency usage
  /-- Where a stage has not finished, it has failed, or the other fork has. -/
  unfinished : report.trace.Unfinished setup.config → ∃ call cause,
    report.trace.LastCall setup.config call ∧ (setup.stages call).result = .error cause ∧
      report.result = .error (.stage call.slot cause)
  returned : ∀ output, report.result = .ok output → TellsOutput setup report.trace output

/-- What the events show of a run that has not finished. -/
structure Proceeds (setup : Setup) (beside : List Event) (trace : Trace) : Prop where
  opened : ∃ middle, (∀ event ∈ middle, event.frames = false) ∧
    trace.events = .runStarted setup.runId :: middle
  announced : Announced trace
  own : Orderly setup.config (trace.ownEvents setup.config)
  beside : trace.besideEvents setup.config <+: beside
  once : (trace.besideCalls setup.config).length ≤ 1

namespace Proceeds

variable {setup : Setup} {beside : List Event} {trace more : Trace}

theorem mono {other : List Event} (h : Proceeds setup beside trace) (hother : beside <+: other) :
    Proceeds setup other trace :=
  { h with beside := h.beside.trans hother }

/-- Where statistics are written nothing is told. -/
theorem append (h : Proceeds setup beside trace) (hcalls : more.calls = [])
    (hevents : more.events = []) : Proceeds setup beside (trace ++ more) where
  opened := by simpa [hevents] using h.opened
  announced := h.announced.append (.of_calls hcalls (by simp [hevents]))
  own := by simpa [Trace.ownEvents, hevents] using h.own
  beside := by simpa [Trace.besideEvents, hevents] using h.beside
  once := by simpa [Trace.besideCalls, hcalls] using h.once

end Proceeds

section MainFork

variable {setup : Setup} {input : RunInput} {p : Point} {s : RunState} {error : PipelineError}

theorem Reaches.proceeds (h : Reaches setup input p s) :
    Proceeds setup [.stageStarted setup.runId .package 1] s.trace where
  opened := h.shows.opened
  announced := h.shows.announced
  own := h.shows.own.orderly
  beside := by
    rw [h.shows.beside]
    split
    · exact List.prefix_rfl
    · exact List.nil_prefix
  once := by
    rw [h.length_besideCalls]
    split <;> decide

theorem Breaks.proceeds (h : Breaks setup input error s) :
    Proceeds setup [.stageStarted setup.runId .package 1] s.trace := by
  cases h with
  | @stage p s slot next cause h hcalls hfailed =>
    have hbeside := hcalls.not_beside h.fits
    have hown : (s.replied setup slot).trace.ownEvents setup.config =
        s.trace.ownEvents setup.config ++ [.stageStarted setup.runId slot s.round] := by
      simp [Trace.ownEvents, Event.beside, Event.slot?, hbeside]
    have hevents : (s.replied setup slot).trace.besideEvents setup.config =
        s.trace.besideEvents setup.config := by
      simp [Trace.besideEvents, Event.beside, Event.slot?, hbeside]
    have hbesideCalls : (s.replied setup slot).trace.besideCalls setup.config =
        s.trace.besideCalls setup.config := by
      simp [Trace.besideCalls, hbeside]
    exact {
      opened := h.shows.opened_append (RunState.replied_trace ..) (by simp [Event.frames])
      announced := by
        rw [RunState.replied_trace]
        exact h.shows.announced.append (.stage rfl .nil)
      own := hown ▸ (h.shows.started slot h.round_eq).orderly
      beside := hevents ▸ h.proceeds.beside
      once := hbesideCalls ▸ h.proceeds.once }
  | @stats p s s' done text h hfree htrace hrefused =>
    obtain ⟨more, hmore, hcalls, hevents⟩ := s.exists_wroteAll_trace setup done
    rw [htrace, hmore]
    exact h.proceeds.append hcalls hevents

end MainFork

/-! ## Two forks -/

section Beside

variable {setup : Setup} {input : RunInput} {fork after : RunState}

theorem SideBySide.besideEvents (h : SideBySide setup input fork after)
    (hafter : Proceeds setup [.stageStarted setup.runId .package 1] after.trace) :
    after.trace.besideEvents setup.config = [.stageStarted setup.runId .package 1] := by
  have hfork := h.start.fork.shows.beside
  rw [h.together] at hfork
  have hshort := Trace.besideEvents_mono setup.config h.grown
  rw [hfork] at hshort
  exact hafter.beside.sublist.antisymm hshort.sublist

/-- The packaging stage stops the main fork. -/
theorem Proceeds.cut (h : Proceeds setup [.stageStarted setup.runId .package 1] after.trace)
    (hbeside : SideBySide setup input fork after) (delay : Nat) :
    Proceeds setup [.stageStarted setup.runId .package 1]
      (cutShort (fork.forked setup) delay after.trace) := by
  have hstart := hbeside.start.fork.shows
  obtain ⟨⟨rest, hrest⟩, hcut⟩ := cutShort_between delay hbeside.grown
  obtain ⟨own, hown⟩ := hbeside.grown
  exact {
    opened := by
      obtain ⟨middle, hmiddle, hevents⟩ := h.opened
      obtain ⟨begun, -, hbegun⟩ := hstart.opened
      -- the cut comes after the forks have parted, so the start of the run is not cut off
      have hcutEvents : (cutShort (fork.forked setup) delay after.trace).events =
          .runStarted setup.runId :: (begun ++ Trace.events rest) := by
        rw [← hrest, Trace.events_append, hbegun]
        rfl
      have hshort := Trace.events_mono hcut
      rw [hcutEvents, hevents, List.cons_prefix_cons] at hshort
      exact ⟨_, fun event hevent => hmiddle event (hshort.2.subset hevent), hcutEvents⟩
    announced := by
      have hafter := h.announced
      rw [cutShort, ← hown, List.drop_left]
      rw [← hown] at hafter
      exact hstart.announced.append ((hstart.announced.of_append hafter).before _)
    own := h.own.of_prefix (Trace.ownEvents_mono setup.config hcut)
    beside := (Trace.besideEvents_mono setup.config hcut).trans h.beside
    once := by
      refine Nat.le_trans (List.Sublist.length_le ?_) h.once
      exact (List.IsPrefix.filterMap _ hcut).sublist.filter _ }

section Interleaved

variable (hbeside : SideBySide setup input fork after) (delay : Nat) (output : StageOutput)

include hbeside

theorem interleaved_ownEvents :
    (interleaved setup (fork.forked setup) delay output after.trace).ownEvents setup.config =
      after.trace.ownEvents setup.config := by
  obtain ⟨first, rest, -, htrace, hinterleaved⟩ :=
    exists_interleaved setup delay output hbeside.grown
  rw [hinterleaved, htrace]
  simp [Trace.ownEvents, Event.beside, Event.slot?, Config.beside, hbeside.together]

theorem interleaved_besideEvents
    (h : Proceeds setup [.stageStarted setup.runId .package 1] after.trace) :
    (interleaved setup (fork.forked setup) delay output after.trace).besideEvents setup.config =
      packaging setup delay output.usage := by
  have hround : (fork.forked setup).round = 1 := hbeside.start.round_eq
  obtain ⟨first, rest, hfirst, htrace, hinterleaved⟩ :=
    exists_interleaved setup delay output hbeside.grown
  have hcut : SideBySide setup input fork { after with trace := first } :=
    ⟨hbeside.together, hbeside.start, hfirst ▸ (cutShort_between delay hbeside.grown).1⟩
  have hstarted := hcut.besideEvents (hfirst ▸ h.cut hbeside delay)
  have hafter := hbeside.besideEvents h
  rw [htrace, Trace.besideEvents_append, hstarted, List.append_right_eq_self] at hafter
  rw [hinterleaved, ← List.singleton_append, Trace.besideEvents_append, Trace.besideEvents_append,
    hstarted, hafter, hround]
  simp [Trace.besideEvents, Event.beside, Event.slot?, Config.beside, hbeside.together, packaging]

/-- The packaging stage returns while the main fork runs. -/
theorem Proceeds.insert
    (h : Proceeds setup [.stageStarted setup.runId .package 1] after.trace) :
    Proceeds setup (packaging setup delay output.usage)
      (interleaved setup (fork.forked setup) delay output after.trace) where
  opened := by
    obtain ⟨first, rest, hfirst, htrace, hinterleaved⟩ :=
      exists_interleaved setup delay output hbeside.grown
    obtain ⟨begun, hbegun, hevents⟩ := (h.cut hbeside delay).opened
    obtain ⟨middle, hmiddle, hafter⟩ := h.opened
    rw [htrace, Trace.events_append, hfirst, hevents, List.cons_append, List.cons.injEq] at hafter
    rw [← hafter.2, List.forall_mem_append] at hmiddle
    rw [hinterleaved, Trace.events_append, Trace.events_emitted, hfirst, hevents]
    exact ⟨_, List.forall_mem_append.mpr ⟨hbegun, List.forall_mem_cons.mpr ⟨rfl, hmiddle.2⟩⟩, rfl⟩
  announced := by
    obtain ⟨first, rest, hfirst, htrace, hinterleaved⟩ :=
      exists_interleaved setup delay output hbeside.grown
    have hannounced := h.announced
    have hcut := (h.cut hbeside delay).announced
    rw [← hfirst] at hcut
    rw [htrace] at hannounced
    rw [hinterleaved]
    exact hcut.append (.told rfl (hcut.of_append hannounced))
  own := by
    rw [interleaved_ownEvents hbeside]
    exact h.own
  beside := by
    have hevents := interleaved_besideEvents hbeside delay output h
    exact hevents ▸ List.prefix_rfl
  once := by
    rw [Trace.besideCalls, interleaved_calls hbeside]
    exact h.once

end Interleaved

end Beside

/-! ## Where a run ends -/

section Ends

variable {setup : Setup} {input : RunInput} {passed valid : Bool} {k m : Nat} {script : String}
  {p : Point} {after s : RunState} {error : PipelineError} {trace : Trace}

/-- What the events show of a run that ends with an error. -/
theorem Proceeds.protocol {latency : Nat} {usage : Usage}
    (h : Proceeds setup (packaging setup latency usage) trace)
    (hunfinished : trace.Unfinished setup.config → ∃ call cause,
      trace.LastCall setup.config call ∧ (setup.stages call).result = .error cause ∧
        error = .stage call.slot cause) : FollowsProtocol setup ⟨trace, .error error⟩ where
  framed := by
    obtain ⟨middle, hmiddle, hevents⟩ := h.opened
    exact ⟨middle, hmiddle, by rw [hevents]; simp [Setup.closing]⟩
  announced := h.announced.slots_eq
  own := h.own
  beside := ⟨latency, usage, h.beside⟩
  unfinished hrunning := by
    obtain ⟨call, cause, hlast, hfailed, rfl⟩ := hunfinished hrunning
    exact ⟨call, cause, hlast, hfailed, rfl⟩
  returned output houtput := by cases houtput

/-- The main fork has failed at its last call, or none of its stages is running. -/
theorem Breaks.stopped (h : Breaks setup input error s) :
    (∃ call cause, (s.trace.ownCalls setup.config).getLast? = some call ∧
      (setup.stages call).result = .error cause ∧ error = .stage call.slot cause) ∨
    ¬ s.trace.Unfinished setup.config := by
  cases h with
  | @stage p s slot next cause h hcalls hfailed =>
    refine .inl ⟨s.stepCall slot, cause, ?_, hfailed, rfl⟩
    simp [Trace.ownCalls, hcalls.not_beside h.fits]
  | @stats p s s' done text h hfree htrace hrefused =>
    refine .inr ?_
    obtain ⟨more, hmore, hcalls, hevents⟩ := s.exists_wroteAll_trace setup done
    -- statistics that are not kept back are refused before the forks part, or where they never do
    have hbeside := h.shows.beside
    rw [← h.booked.held, hfree] at hbeside
    rw [htrace, hmore]
    refine Trace.not_unfinished ?_ ?_
    · rw [Trace.ownEvents_append_of_silent hevents]
      exact h.shows.idle
    · rw [Trace.besideEvents_append_of_silent hevents, hbeside]
      simp

theorem Joins.ownEvents_eq (hjoins : Joins setup input after s) :
    s.trace.ownEvents setup.config = after.trace.ownEvents setup.config := by
  cases hjoins with
  | inTurn hturn => rfl
  | together hbeside hreturned => exact interleaved_ownEvents hbeside _ _

theorem Joins.proceeds (hjoins : Joins setup input after s)
    (h : Reaches setup input (.settled passed valid k m script) after) :
    ∃ latency usage, Proceeds setup (packaging setup latency usage) s.trace := by
  cases hjoins with
  | inTurn hturn => exact ⟨0, .zero, h.proceeds.mono (List.prefix_append _ _)⟩
  | together hbeside hreturned => exact ⟨_, _, h.proceeds.insert hbeside _ _⟩

/-- When the forks have ended, the packaging stage is not running. -/
theorem Joins.beside_idle (hjoins : Joins setup input after s)
    (h : Reaches setup input (.settled passed valid k m script) after) :
    ∀ last ∈ (s.trace.besideEvents setup.config).getLast?, last.started? = none := by
  cases hjoins with
  | inTurn hturn =>
    rw [h.shows.beside, hturn]
    simp
  | together hbeside hreturned =>
    rw [RunM.joined_trace, interleaved_besideEvents hbeside _ _ h.proceeds]
    rintro last ⟨⟩
    rfl

/-- The sink has refused the statistics that are left. -/
theorem Joins.protocol_unwritten (hjoins : Joins setup input after s)
    (h : Reaches setup input (.settled passed valid k m script) after) {done : List RoundStats}
    {text : String} :
    FollowsProtocol setup ⟨(s.wroteAll setup done).trace, .error (.stats text)⟩ := by
  obtain ⟨latency, usage, hproceeds⟩ := hjoins.proceeds h
  obtain ⟨more, hmore, hcalls, hevents⟩ := s.exists_wroteAll_trace setup done
  rw [hmore]
  refine (hproceeds.append hcalls hevents).protocol fun hrunning =>
    absurd hrunning (Trace.not_unfinished ?_ ?_)
  · rw [Trace.ownEvents_append_of_silent hevents, hjoins.ownEvents_eq]
    exact h.shows.idle
  · rw [Trace.besideEvents_append_of_silent hevents]
    exact hjoins.beside_idle h

/-- The history has the executions of the main fork, and then that of the packaging stage. -/
theorem Joins.history_finished (hjoins : Joins setup input after s)
    (h : Reaches setup input (.settled passed valid k m script) after) :
    (s.trace.ownEvents setup.config).filter Event.finishes =
      (s.context.history.filter (!setup.config.beside ·.slot)).map
        (Record.finished setup.runId) ∧
    (s.trace.besideEvents setup.config).filter Event.finishes =
      (s.context.history.filter (setup.config.beside ·.slot)).map
        (Record.finished setup.runId) := by
  have hown : ∀ record ∈ after.context.history, setup.config.beside record.slot = false := by
    intro record hrecord
    have hevent : record.finished setup.runId ∈ after.trace.ownEvents setup.config := by
      refine List.mem_of_mem_filter (p := Event.finishes) ?_
      rw [h.shows.finished]
      exact List.mem_map_of_mem hrecord
    simpa [Trace.ownEvents, Record.finished, Event.beside, Event.slot?] using
      (List.mem_filter.mp hevent).2
  have hownHistory : after.context.history.filter (!setup.config.beside ·.slot) =
      after.context.history :=
    List.filter_eq_self.mpr fun record hrecord => by simp [hown record hrecord]
  have hbesideHistory : after.context.history.filter (setup.config.beside ·.slot) = [] :=
    List.filter_eq_nil_iff.mpr fun record hrecord => by simp [hown record hrecord]
  rw [hjoins.ownEvents_eq, h.shows.finished]
  cases hjoins with
  | inTurn hturn =>
    rw [hownHistory, hbesideHistory, h.shows.beside, hturn]
    exact ⟨rfl, rfl⟩
  | @together fork output hbeside hreturned =>
    have hround : fork.round = 1 := hbeside.start.round_eq
    have hpackage : setup.config.beside .package = true := by
      rw [Config.beside, hbeside.together]
      rfl
    rw [RunM.joined_trace, interleaved_besideEvents hbeside _ _ h.proceeds]
    let record : Record := .ofOutput .package fork.round
      (setup.stages (fork.stepCall .package)).delay output
    change _ = ((after.context.history ++ [record]).filter _).map _ ∧
      _ = ((after.context.history ++ [record]).filter _).map _
    rw [List.filter_append, List.filter_append, hownHistory, hbesideHistory]
    constructor
    · simp [record, hpackage]
    · simp [record, hpackage, packaging, Event.finishes, Record.finished, Record.ofOutput, hround]

theorem Trace.filterMap_exhausted? (config : Config) (trace : Trace) :
    (trace.ownEvents config).filterMap Event.exhausted? =
      trace.events.filterMap Event.exhausted? := by
  rw [ownEvents, List.filterMap_filter]
  refine List.filterMap_congr fun event _ => ?_
  cases event with
  | stageStarted id slot round | stageFinished id slot round latency usage => exact ite_self _
  | _ => rfl

theorem Joins.finished_ownEvents (hjoins : Joins setup input after s) :
    (s.finished setup).trace.ownEvents setup.config =
      after.trace.ownEvents setup.config ++ [.runFinished setup.runId s.round] := by
  rw [← hjoins.ownEvents_eq, Trace.ownEvents, RunState.finished_events, List.filter_append]
  rfl

theorem RunState.finished_besideEvents (s : RunState) (setup : Setup) (config : Config) :
    (s.finished setup).trace.besideEvents config = s.trace.besideEvents config := by
  rw [Trace.besideEvents, finished_events, List.filter_append]
  exact List.append_nil _

/-- The run is said to finish where no stage is running. -/
theorem Joins.tells (hjoins : Joins setup input after s)
    (h : Reaches setup input (.settled passed valid k m script) after) :
    Tells setup.config (.settled passed valid k m script)
      ((s.finished setup).trace.ownEvents setup.config) := by
  rw [hjoins.finished_ownEvents]
  exact h.shows.own.concat (fun last hlast => .other (h.shows.idle last hlast) rfl)
    (by simp [Event.round?]) (List.append_nil _).symm (List.append_nil _).symm

theorem Joins.tellsOutput (hjoins : Joins setup input after s)
    (h : Reaches setup input (.settled passed valid k m script) after) :
    TellsOutput setup (s.finished setup).trace
      (s.output setup script ⟨passed, valid, k + 1, m + 1⟩) := by
  obtain ⟨hown, hbeside⟩ := hjoins.history_finished h
  have hexhausted : (s.finished setup).trace.events.filterMap Event.exhausted? =
      Outcome.exhausted ⟨passed, valid, k + 1, m + 1⟩ := by
    obtain ⟨hreview, hvalidation⟩ := h.spent
    rw [← Trace.filterMap_exhausted? setup.config, (hjoins.tells h).exhausted, Outcome.exhausted,
      Point.exhausted]
    cases passed <;> cases valid <;> simp [hreview, hvalidation]
  exact {
    finished := by
      rw [hjoins.finished_ownEvents, List.filter_append, ← hjoins.ownEvents_eq, hown]
      exact List.append_nil _
    packaged := by
      rw [RunState.finished_besideEvents]
      exact hbeside
    exhausted := hexhausted
    lastCandidate := by
      rw [hexhausted]
      cases passed <;> cases valid <;>
        simp [RunState.output, Outcome.isLastCandidate, Outcome.exhausted] }

theorem Joins.protocol (hjoins : Joins setup input after s)
    (h : Reaches setup input (.settled passed valid k m script) after) :
    FollowsProtocol setup ⟨(s.finished setup).trace,
      .ok (s.output setup script ⟨passed, valid, k + 1, m + 1⟩)⟩ := by
  obtain ⟨latency, usage, hproceeds⟩ := hjoins.proceeds h
  obtain ⟨more, hmore, hcalls, hevents⟩ := s.exists_finished_trace setup
  exact {
    framed := by
      obtain ⟨middle, hmiddle, hopened⟩ := hproceeds.opened
      refine ⟨middle, hmiddle, ?_⟩
      rw [RunState.finished_events, hopened]
      rfl
    announced := by
      have hend : Announced more := .of_calls hcalls (by simp [hevents, Event.started?])
      rw [hmore]
      exact (hproceeds.announced.append hend).slots_eq
    own := (hjoins.tells h).orderly
    beside := by
      rw [RunState.finished_besideEvents]
      exact ⟨latency, usage, hproceeds.beside⟩
    unfinished := fun hrunning => by
      refine absurd hrunning (Trace.not_unfinished ?_ ?_)
      · rw [hjoins.finished_ownEvents, List.getLast?_concat]
        rintro last ⟨⟩
        rfl
      · rw [RunState.finished_besideEvents]
        exact hjoins.beside_idle h
    returned := by
      rintro output ⟨⟩
      exact hjoins.tellsOutput h }

theorem Breaks.protocol (h : Breaks setup input error s) :
    FollowsProtocol setup ⟨s.trace, .error error⟩ := by
  have hproceeds : Proceeds setup (packaging setup 0 .zero) s.trace :=
    h.proceeds.mono (List.prefix_append _ _)
  refine hproceeds.protocol fun hrunning => ?_
  rcases h.stopped with ⟨call, cause, hlast, hfailed⟩ | hnone
  · exact ⟨call, cause, .inl hlast, hfailed⟩
  · exact absurd hrunning hnone

/-- The main fork has broken after the packaging stage has returned. -/
theorem Breaks.protocol_beside (h : Breaks setup input error s) {fork : RunState}
    (hbeside : SideBySide setup input fork s) {delay : Nat} {output : StageOutput} :
    FollowsProtocol setup
      ⟨interleaved setup (fork.forked setup) delay output s.trace, .error error⟩ := by
  refine (h.proceeds.insert hbeside delay output).protocol fun hrunning => ?_
  rcases h.stopped with ⟨call, cause, hlast, hfailed⟩ | hnone
  · refine ⟨call, cause, .inl ?_, hfailed⟩
    rw [Trace.ownCalls, interleaved_calls hbeside]
    exact hlast
  · obtain ⟨event, hstarted, hlast⟩ := hrunning
    rw [interleaved_ownEvents hbeside, interleaved_besideEvents hbeside _ _ h.proceeds] at hlast
    rcases hlast with hlast | hlast
    · exact absurd ⟨event, hstarted, .inl hlast⟩ hnone
    · rw [← Option.some.inj hlast] at hstarted
      cases hstarted

/-- The packaging stage has failed and stopped the main fork. -/
theorem Proceeds.protocol_stopped {fork : RunState} {cause : StageError}
    (h : Proceeds setup [.stageStarted setup.runId .package 1] s.trace)
    (hbeside : SideBySide setup input fork s)
    (hfailed : (setup.stages (fork.stepCall .package)).result = .error cause) {delay : Nat} :
    FollowsProtocol setup
      ⟨cutShort (fork.forked setup) delay s.trace, .error (.stage .package cause)⟩ := by
  have hcut := h.cut hbeside delay
  have hproceeds : Proceeds setup (packaging setup 0 .zero)
      (cutShort (fork.forked setup) delay s.trace) := hcut.mono (List.prefix_append _ _)
  refine hproceeds.protocol fun _ => ⟨fork.stepCall .package, cause, .inr ?_, hfailed, rfl⟩
  let stopped : RunState := { s with trace := cutShort (fork.forked setup) delay s.trace }
  have hstopped : SideBySide setup input fork stopped :=
    ⟨hbeside.together, hbeside.start, (cutShort_between delay hbeside.grown).1⟩
  exact congrArg List.getLast? (hstopped.besideCalls hcut.once)

end Ends

/-- **The events of a run.** A run on blank code tells nothing; the events of any other follow the
protocol. -/
theorem events_of_run (setup : Setup) (input : RunInput) :
    if input.isBlank then (run setup input).trace.events = []
    else FollowsProtocol setup (run setup input) := by
  split
  · rename_i hcode
    rw [run, hcode]
    rfl
  · rename_i hcode
    have hconcludes := run_concludes setup (Bool.not_eq_true _ ▸ hcode)
    generalize run setup input = report at hconcludes
    cases hconcludes with
    | finished h hjoins => exact hjoins.protocol h
    | unwritten h hjoins htrace hrefused =>
      rw [htrace]
      exact hjoins.protocol_unwritten h
    | broken h => exact h.protocol
    | brokenBeside hbeside hreturned h => exact h.protocol_beside hbeside
    | stopped hbeside hfailed h =>
      rcases h with ⟨p, h⟩ | ⟨error, h⟩ <;>
        exact h.proceeds.protocol_stopped hbeside hfailed

end ScriptForge.Pipeline

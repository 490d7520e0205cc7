import ScriptForge.Proofs.Pipeline.Alone

/-!
# The first failure

A run side by side in which a stage of one of its forks fails ends with the first failure
(`first_failure_of_run`). Which one it is, and what has been done by then, is told by what each fork
does alone: the failure that comes first stops both, and up to there each fork has done the
beginning of what it does alone.

That a failing call is the last to end rests on one invariant: nothing in a trace is later than the
clock (`Timely`). It is kept by all actions while the statistics are kept back.
-/

namespace ScriptForge.Pipeline

/-! ## The last call -/

/-- The error is that of a call which ends at a time, and nothing happens later. -/
structure FailsAt (setup : Setup) (time : Nat) (trace : Trace) (error : PipelineError) : Prop where
  call : ∃ start call cause, ⟨start, .called call⟩ ∈ trace ∧
    start + (setup.stages call).delay = time ∧ (setup.stages call).result = .error cause ∧
    error = .stage call.slot cause
  last : ∀ moment ∈ trace, moment.time ≤ time

theorem FailsAt.append {setup : Setup} {time : Nat} {trace more : Trace} {error : PipelineError}
    (h : FailsAt setup time trace error) (hmore : ∀ moment ∈ more, moment.time ≤ time) :
    FailsAt setup time (trace ++ more) error where
  call := by
    obtain ⟨start, call, cause, hcall, htold⟩ := h.call
    exact ⟨start, call, cause, List.mem_append_left _ hcall, htold⟩
  last := List.forall_mem_append.mpr ⟨h.last, hmore⟩

/-- Nothing in the trace is later than the clock, and no statistics have been written. -/
structure Timely (s : RunState) : Prop where
  past : ∀ moment ∈ s.trace, moment.time ≤ s.clock
  unwritten : s.trace.written = []

/-- The statistics are kept back. -/
structure KeptBack (s : RunState) : Prop extends Timely s where
  held : s.ledger.held = true

/-- A call has failed, and its end is now. -/
structure HasFailed (setup : Setup) (error : PipelineError) (s : RunState) : Prop extends
    Timely s where
  failsAt : FailsAt setup s.clock s.trace error

namespace Timely

variable {s : RunState} {setup : Setup} {input : RunInput} {slot : Slot}

theorem happened (h : Timely s) (event : Event) : Timely (s.happened (.emitted event)) where
  past := List.forall_mem_append.mpr ⟨h.past, by simp [RunState.happened]⟩
  unwritten := by simp [h.unwritten]

theorem replied (h : Timely s) : Timely (s.replied setup slot) where
  past := by
    have hclock : (s.replied setup slot).clock =
        s.clock + (setup.stages (s.stepCall slot)).delay := rfl
    rw [RunState.replied_trace, hclock]
    refine List.forall_mem_append.mpr ⟨fun moment hmoment => ?_, by simp⟩
    exact (h.past moment hmoment).trans (Nat.le_add_right _ _)
  unwritten := by simp [h.unwritten]

theorem stepped (h : Timely s) (output : StageOutput) : Timely (s.stepped setup slot output) where
  past := by
    have hclock : (s.stepped setup slot output).clock = (s.replied setup slot).clock := by
      cases slot <;> rfl
    rw [RunState.stepped_trace, hclock]
    exact List.forall_mem_append.mpr ⟨h.replied.past, by simp⟩
  unwritten := by simp [h.unwritten]

theorem held (h : Timely s) : KeptBack s.held :=
  ⟨⟨h.past, h.unwritten⟩, rfl⟩

theorem forked (h : Timely s) : KeptBack (s.forked setup) where
  past := by
    rw [RunState.forked_trace]
    exact List.forall_mem_append.mpr ⟨h.past, by simp [RunState.forked, RunState.called,
      RunState.happened]⟩
  unwritten := (s.forked_written setup).trans h.unwritten
  held := rfl

theorem hasFailed (h : Timely s) {cause : StageError}
    (hfailed : (setup.stages (s.stepCall slot)).result = .error cause) :
    HasFailed setup (.stage slot cause) (s.replied setup slot) where
  toTimely := h.replied
  failsAt := {
    call := ⟨s.clock, s.stepCall slot, cause, by simp, rfl, hfailed, rfl⟩
    last := h.replied.past }

theorem of_fork (h : Reaches setup input .fork s) : Timely s := by
  obtain ⟨first, second, -, -, rfl⟩ := h.fork_eq
  have hstart : Timely (.start setup.config input) := ⟨by simp [RunState.start], rfl⟩
  exact ((hstart.happened _).stepped first).stepped second

end Timely

namespace RunM

variable {setup : Setup} {input : RunInput} {s : RunState}

theorem step_keptBack (slot : Slot) : Keeps KeptBack (HasFailed setup) (step setup slot) := by
  intro s h
  refine ends_step (fun cause hfailed => h.hasFailed hfailed) fun output _ =>
    ⟨h.toTimely.stepped output, ?_⟩
  rw [RunState.stepped_ledger]
  exact h.held

/-- Statistics that are kept back are not written when a round starts. -/
theorem advanceRound_keptBack (reason : Rejection) :
    Keeps KeptBack (HasFailed setup) (advanceRound setup reason) := by
  intro s h
  refine (ends_advanceRound reason).imp (fun _ s' hs' => ?_) fun error s' hs' => ?_
  · rw [hs', advanced, Ledger.takeBefore_of_held h.held]
    simp only [RunState.wroteAll_nil]
    have hstart : Timely { s with round := s.round + 1 } := ⟨h.past, h.unwritten⟩
    exact ⟨hstart.happened _, h.held⟩
  · obtain ⟨-, -, -, hfree, -⟩ := hs'
    rw [h.held] at hfree
    cases hfree

theorem actionsKeptBack : ActionsKeep setup KeptBack (HasFailed setup) where
  step := step_keptBack
  emit event _ h := ⟨h.toTimely.happened event, h.held⟩
  diagnose _ _ _ h := ⟨⟨h.past, h.unwritten⟩, h.held⟩
  countAttempt _ _ h := ⟨⟨h.past, h.unwritten⟩, h.held⟩
  direct _ _ h := ⟨⟨h.past, h.unwritten⟩, h.held⟩
  advanceRound := advanceRound_keptBack

end RunM

/-! ## Two forks joined -/

/-- A run has stopped with the error of its last call. Each fork has done the beginning of what it
does alone, where it ends in a state of its own, and no statistics have been written. -/
structure Stopped (setup : Setup) (packaging generation : RunState) (trace : Trace)
    (error : PipelineError) : Prop where
  packaged : trace.packaging <+: packaging.trace.packaging
  generated : trace.unpackaged <+: generation.trace.unpackaged
  failed : ∃ time, FailsAt setup time trace error
  unwritten : trace.written = []

section Joined

variable {setup : Setup} {input : RunInput} {s after packaging generation : RunState}
  {error : PipelineError}

theorem RunState.held_replied_trace (s : RunState) (setup : Setup) :
    (s.held.replied setup .package).trace = (s.forked setup).trace := by
  rw [replied_trace, forked_trace]
  rfl

namespace SideBySide

/-- Beside the generation fork the packaging stage is called once. -/
theorem packaging_eq (h : SideBySide setup input s after)
    (hafter : Proceeds setup [.stageStarted setup.runId .package 1] after.trace) :
    after.trace.packaging = (s.forked setup).trace.packaging := by
  have hforked : SideBySide setup input s (s.forked setup) :=
    ⟨h.together, h.start, List.prefix_rfl⟩
  have hproceeds := h.start.fork.proceeds
  have hcalls := (h.besideCalls hafter.once).trans (hforked.besideCalls hproceeds.once).symm
  have hevents := (h.besideEvents hafter).trans (hforked.besideEvents hproceeds).symm
  obtain ⟨own, hown⟩ := h.grown
  rw [← hown, Trace.besideCalls, Trace.calls_append, List.filter_append] at hcalls
  rw [← hown, Trace.besideEvents_append] at hevents
  have hpackage : setup.config.beside .package = true := by simp [Config.beside, h.together]
  have hnone : Trace.packaging own = [] := by
    refine Trace.packaging_eq_nil own (fun call hcall hslot => ?_) fun event hevent hslot => ?_
    · have hother := List.filter_eq_nil_iff.mp (List.append_right_eq_self.mp hcalls) call hcall
      exact hother (hslot ▸ hpackage)
    · have hother := List.filter_eq_nil_iff.mp (List.append_right_eq_self.mp hevents) event hevent
      exact hother (by simp [Event.beside, hslot, hpackage])
  rw [← hown, Trace.packaging_append, hnone, List.append_nil]

variable (h : SideBySide setup input s after)
  (hpackaging : after.trace.packaging = (s.forked setup).trace.packaging)
  (hgenerated : generation.trace.unpackaged = after.trace.unpackaged)
  (hunwritten : after.trace.written = [])

include hpackaging hgenerated hunwritten

include h in
/-- The packaging stage fails before anything else does. -/
theorem stopped_packaging {cause : StageError}
    (hfailed : (setup.stages (s.stepCall .package)).result = .error cause) :
    Stopped setup (s.held.replied setup .package) generation
      (cutShort (s.forked setup) (setup.stages (s.stepCall .package)).delay after.trace)
      (.stage .package cause) := by
  have hcut := (cutShort_between (setup.stages (s.stepCall .package)).delay h.grown).2
  exact {
    packaged := by
      rw [s.held_replied_trace, ← hpackaging]
      exact Trace.packaging_mono hcut
    generated := by
      rw [hgenerated]
      exact Trace.unpackaged_mono hcut
    failed := by
      have hfails : FailsAt setup _ (s.held.replied setup .package).trace _ :=
        ((Timely.of_fork h.start).held.hasFailed hfailed).failsAt
      rw [s.held_replied_trace] at hfails
      refine ⟨_, hfails.append fun moment hmoment => ?_⟩
      have hbefore := List.mem_takeWhile_imp hmoment
      exact Nat.le_of_lt (of_decide_eq_true hbefore)
    unwritten := by
      have hwritten : Trace.written _ <+: after.trace.written := hcut.filterMap _
      rwa [hunwritten, List.prefix_nil] at hwritten }

/-- The generation fork fails while the packaging stage is running. -/
theorem stopped_generation (hforked : (s.forked setup).trace <+: packaging.trace)
    (hfails : FailsAt setup after.clock after.trace error) :
    Stopped setup packaging generation after.trace error where
  packaged := by
    rw [hpackaging]
    exact Trace.packaging_mono hforked
  generated := hgenerated ▸ List.prefix_rfl
  failed := ⟨_, hfails⟩
  unwritten := hunwritten

include h in
/-- The generation fork fails when the packaging stage has returned. -/
theorem stopped_joined (hfails : FailsAt setup after.clock after.trace error)
    {output : StageOutput}
    (hdue : s.clock + (setup.stages (s.stepCall .package)).delay ≤ after.clock) :
    Stopped setup (s.held.stepped setup .package output) generation
      (interleaved setup (s.forked setup) (setup.stages (s.stepCall .package)).delay output
        after.trace) error := by
  obtain ⟨first, rest, hfirst, htrace, hinterleaved⟩ := exists_interleaved setup
    (setup.stages (s.stepCall .package)).delay output h.grown
  obtain ⟨between, hbetween⟩ :=
    (cutShort_between (setup.stages (s.stepCall .package)).delay h.grown).1
  rw [← hfirst] at hbetween
  -- nothing else that the generation fork does is about the packaging stage
  have hnone : Trace.packaging between = [] ∧ Trace.packaging rest = [] := by
    rw [htrace, ← hbetween, Trace.packaging_append, Trace.packaging_append, List.append_assoc,
      List.append_right_eq_self] at hpackaging
    exact List.append_eq_nil_iff.mp hpackaging
  rw [hinterleaved]
  exact {
    packaged := by
      rw [← hbetween, ← List.singleton_append, RunState.stepped_trace, s.held_replied_trace]
      simp only [Trace.packaging_append, hnone, List.append_nil]
      exact List.prefix_rfl
    generated := by
      rw [hgenerated, htrace]
      simp [Trace.unpackaged, Moment.packages, Event.slot?]
    failed := by
      obtain ⟨start, call, cause, hcall, htold⟩ := hfails.call
      have hlast := hfails.last
      rw [htrace] at hcall hlast
      refine ⟨after.clock, ⟨start, call, cause, ?_, htold⟩, ?_⟩
      · simpa using hcall
      · rw [List.forall_mem_append] at hlast ⊢
        exact ⟨hlast.1, List.forall_mem_cons.mpr ⟨hdue, hlast.2⟩⟩
    unwritten := by
      rw [htrace] at hunwritten
      simpa using hunwritten }

end SideBySide

end Joined

/-! ## Which fork fails first -/

namespace RunM

/-- The error of two forks side by side, by what comes of each fork alone. Packaging goes first
where both fail at the same time, which is the choice that `join` makes. -/
def firstError {α β : Type} (packaging : Except PipelineError α × RunState)
    (generation : Except PipelineError β × RunState) : Option PipelineError :=
  match packaging.1, generation.1 with
  | .error error, .ok _ => some error
  | .ok _, .error error => some error
  | .error error, .error other =>
    some (if packaging.2.clock ≤ generation.2.clock then error else other)
  | .ok _, .ok _ => none

end RunM

/-- A run side by side has stopped with the first error of its forks. -/
structure StoppedFirst (setup : Setup) (packaging : Except PipelineError String × RunState)
    (generation : Except PipelineError (String × Outcome) × RunState) (trace : Trace)
    (error : PipelineError) : Prop extends
    Stopped setup packaging.2 generation.2 trace error where
  first : RunM.firstError packaging generation = some error

theorem Returned.of_fork {setup : Setup} {input : RunInput} {s : RunState}
    (h : Reaches setup input .fork s) : Returned setup s.trace.calls := by
  obtain ⟨first, second, hfirst, hsecond, rfl⟩ := h.fork_eq
  have hstart : Returned setup (RunState.opened setup input).trace.calls := by
    simp [RunState.opened, RunState.start, Returned]
  simpa using (hstart.append hfirst).append hsecond

namespace RunM

variable {setup : Setup} {input : RunInput} {schedule : Schedule} {s after ended : RunState}
  {error : PipelineError} {result : String × Outcome} {ok : String × Outcome → RunState → Prop}

section Join

variable (h : SideBySide setup input s after)
  (hpackaging : after.trace.packaging = (s.forked setup).trace.packaging)
  (hbeside : Beside ended after) (htimely : Timely after)

include h hpackaging hbeside htimely

/-- The generation fork returns, and the packaging stage may fail. -/
theorem join_first_of_ok
    (hok : ∀ output, (setup.stages (s.stepCall .package)).result = .ok output → ok result
      (joined setup (s.forked setup) (setup.stages (s.stepCall .package)).delay output after)) :
    Ends (join setup (s.forked setup) (setup.stages (s.stepCall .package)) (.ok result) after)
      (s.forked setup) ok fun error t => StoppedFirst setup ((step setup .package).run s.held)
        (.ok result, ended) t.trace error := by
  cases hreply : (setup.stages (s.stepCall .package)).result with
  | error cause =>
    have hpackage : (step setup .package).run s.held =
        (.error (.stage .package cause), s.held.replied setup .package) := run_step_of_error hreply
    simp only [hpackage, join, hreply]
    exact ⟨h.stopped_packaging hpackaging hbeside.unpackaged_eq htimely.unwritten hreply, rfl⟩
  | ok output =>
    rw [Ends, run_join hreply]
    exact hok output hreply

/-- The generation fork fails, and the packaging stage may fail before. -/
theorem join_first_of_error (hfails : FailsAt setup after.clock after.trace error) :
    Ends (join setup (s.forked setup) (setup.stages (s.stepCall .package)) (.error error) after)
      (s.forked setup) ok fun other t => StoppedFirst setup ((step setup .package).run s.held)
        (.error error, ended) t.trace other := by
  have hgenerated := hbeside.unpackaged_eq
  have hclock := hbeside.clock_eq
  have hforked := s.held_replied_trace setup
  cases hreply : (setup.stages (s.stepCall .package)).result with
  | error cause =>
    have hpackage : (step setup .package).run s.held =
        (.error (.stage .package cause), s.held.replied setup .package) := run_step_of_error hreply
    simp only [hpackage, join, hreply]
    split
    next hdue =>
      exact {
        h.stopped_packaging hpackaging hgenerated htimely.unwritten hreply with
        first := congrArg some (if_pos (hclock ▸ hdue)) }
    next hlater =>
      exact {
        SideBySide.stopped_generation hpackaging hgenerated htimely.unwritten
          (hforked ▸ List.prefix_rfl) hfails with
        first := congrArg some (if_neg (hclock ▸ hlater)) }
  | ok output =>
    have hpackage : (step setup .package).run s.held =
        (.ok output.text, s.held.stepped setup .package output) := run_step hreply
    simp only [hpackage, join, hreply]
    change StoppedFirst setup _ _ (if _ then _ else _ : RunState).trace _
    split
    next hdue =>
      exact {
        h.stopped_joined hpackaging hgenerated htimely.unwritten hfails hdue with
        first := rfl }
    next hlater =>
      have hgrown : (s.forked setup).trace <+: (s.held.stepped setup .package output).trace := by
        rw [RunState.stepped_trace, hforked]
        exact List.prefix_append _ _
      exact {
        SideBySide.stopped_generation hpackaging hgenerated htimely.unwritten hgrown hfails with
        first := rfl }

end Join

/-- Two forks side by side return, or they stop at the first error. -/
theorem forksTogether_first (hstages : setup.stages = schedule.stages)
    (htogether : setup.config.concurrentForks = true) (h : Reaches setup input .fork s) :
    Ends (forksTogether setup) s (fun _ t => Returned setup t.trace.calls)
      (fun error t => StoppedFirst setup ((step setup .package).run s.held)
        ((generation setup).run s.held) t.trace error) := by
  have hends := ((generation_reaches h.fork).and
    ((actionsGrow setup _).generation (s.forked setup) List.prefix_rfl)).and
    (actionsKeptBack.generation (s.forked setup) (Timely.of_fork h).forked)
  have hbeside := generation_beside hstages htogether s
  rw [Ends, run_forksTogether_eq]
  generalize (generation setup).run s.held = alone at hbeside ⊢
  rcases hrun : (generation setup).run (s.forked setup) with ⟨error | result, after⟩
  · obtain ⟨⟨hbreaks, hgrown⟩, hfailed⟩ := hends.of_run_error hrun
    have hparted : SideBySide setup input s after := ⟨htogether, h, hgrown⟩
    rw [hrun] at hbeside
    cases hbeside with
    | error error hbeside =>
      exact join_first_of_error hparted (hparted.packaging_eq hbreaks.proceeds) hbeside
        hfailed.toTimely hfailed.failsAt
  · obtain ⟨⟨hsettled, hgrown⟩, hkept⟩ := hends.of_run_ok hrun
    obtain ⟨passed, valid, k, m, -, hsettled⟩ := hsettled
    have hparted : SideBySide setup input s after := ⟨htogether, h, hgrown⟩
    rw [hrun] at hbeside
    cases hbeside with
    | ok result hbeside =>
      refine join_first_of_ok hparted (hparted.packaging_eq hsettled.proceeds) hbeside
        hkept.toTimely fun output hreply => ?_
      rw [joined_trace, interleaved_calls hparted]
      have hopened : Returned setup s.trace.calls := Returned.of_fork h
      have hforked : Returned setup (s.forked setup).trace.calls := by
        simpa using hopened.append hreply
      exact (actionsExplain.generation _ hforked).of_run_ok hrun

/-- A run whose forks side by side have stopped is over. -/
theorem run_of_forks_error (hcode : input.isBlank = false)
    (htogether : setup.config.concurrentForks = true) (h : Reaches setup input .fork s)
    {t : RunState} (hrun : (forksTogether setup).run s = (.error error, t)) :
    run setup input = ⟨t.trace, .error error⟩ := by
  have hforks : (forks setup).run s = (.error error, t) := by rw [forks, if_pos htogether, hrun]
  rw [run, hcode, whole, run_opening h, run_bind, hforks]
  rfl

/-- When the forks have returned, no stage is called. -/
theorem calls_of_forks_ok (hcode : input.isBlank = false)
    (htogether : setup.config.concurrentForks = true) (h : Reaches setup input .fork s)
    {t : RunState} (hrun : (forksTogether setup).run s = (.ok result, t)) :
    (run setup input).trace.calls = t.trace.calls := by
  have hforks : (forks setup).run s = (.ok result, t) := by rw [forks, if_pos htogether, hrun]
  have hends : Ends (finish setup result.1 result.2) t _ _ := ends_finish result.1 result.2 t
  rw [run, hcode, whole, run_opening h, run_bind_of_ok hforks]
  rcases hfinish : (finish setup result.1 result.2).run t with ⟨error | output, t'⟩
  · obtain ⟨-, done, -, htrace, -⟩ := hends.of_run_error hfinish
    change t'.trace.calls = _
    rw [htrace, RunState.wroteAll_calls]
  · obtain ⟨-, rfl⟩ := hends.of_run_ok hfinish
    exact t.finished_calls setup

/-- A fork that fails alone does so at the end of its last call. -/
theorem failsAt_of_alone (h : Reaches setup input .fork s) {α : Type} {fork : RunM α}
    (hfork : Keeps KeptBack (HasFailed setup) fork) {error : PipelineError}
    (herror : (alone setup input fork).1 = .error error) :
    FailsAt setup (alone setup input fork).2.clock (alone setup input fork).2.trace error := by
  rw [alone_eq h] at herror ⊢
  have hends := hfork s.held (Timely.of_fork h).held
  rcases hrun : fork.run s.held with ⟨other | a, after⟩ <;> rw [hrun] at herror <;> cases herror
  exact (hends.of_run_error hrun).failsAt

end RunM

/-- A run side by side ends with the first error of its forks, given what comes of each alone. -/
structure EndsWithFirst (setup : Setup) (packaging : Except PipelineError String × RunState)
    (generation : Except PipelineError (String × Outcome) × RunState) (report : RunReport) :
    Prop where
  stopped : ∃ error, report.result = .error error ∧
    StoppedFirst setup packaging generation report.trace error
  /-- The clock of a fork that fails alone stands at the end of its failing call. -/
  packagingFails : ∀ error, packaging.1 = .error error →
    FailsAt setup packaging.2.clock packaging.2.trace error
  generationFails : ∀ error, generation.1 = .error error →
    FailsAt setup generation.2.clock generation.2.trace error

/-- **The first failure.** If a stage fails in a run side by side, and not before its forks part,
then the run ends with the error of the fork that is first to fail. Up to there each fork has done
the beginning of what it does alone, and no statistics have been written. -/
theorem first_failure_of_run (setup : Setup) (input : RunInput) (schedule : Schedule)
    (hidentified : ∃ output, (schedule .identify 0).result = .ok output)
    (hencapsulated : ∃ output, (schedule .encapsulate 0).result = .ok output)
    (hfailed : ∃ call ∈ (run (setup.together schedule.stages) input).trace.calls,
      ∃ cause, (schedule.stages call).result = .error cause) :
    let together := setup.together schedule.stages
    EndsWithFirst together (RunM.alone together input (RunM.step together .package))
      (RunM.alone together input (RunM.generation together)) (run together input) := by
  intro together
  obtain ⟨first, hfirst⟩ := hidentified
  obtain ⟨second, hsecond⟩ := hencapsulated
  have hparted : ∃ s, Reaches together input .fork s :=
    ⟨_, (Reaches.start.step (.identify 0) hfirst).step (.encapsulate 0) hsecond⟩
  obtain ⟨s, h⟩ := hparted
  obtain ⟨call, hcall, cause, hcause⟩ := hfailed
  have hcode : input.isBlank = false := by
    cases hblank : input.isBlank with
    | false => rfl
    | true =>
      rw [run, hblank] at hcall
      cases hcall
  refine ⟨?_, fun error => RunM.failsAt_of_alone h (RunM.step_keptBack .package),
    fun error => RunM.failsAt_of_alone h RunM.actionsKeptBack.generation⟩
  have hstages : together.stages = schedule.stages := rfl
  have hends := RunM.forksTogether_first hstages rfl h
  rcases hrun : (RunM.forksTogether together).run s with ⟨error | result, t⟩
  · have hstopped := hends.of_run_error hrun
    rw [RunM.run_of_forks_error hcode rfl h hrun, RunM.alone_eq h, RunM.alone_eq h]
    exact ⟨error, rfl, hstopped⟩
  · -- the forks return only if all their calls do
    rw [RunM.calls_of_forks_ok hcode rfl h hrun] at hcall
    obtain ⟨output, houtput⟩ := hends.of_run_ok hrun call hcall
    rw [hstages, hcause] at houtput
    cases houtput

/-- The packaging stage and the combining stage fail, the combining stage first. -/
def Schedule.failing : Schedule
  | .package, _ => ⟨9, .error .emptyResponse⟩
  | .combine, _ => ⟨3, .error (.timeout 3)⟩
  | slot, _ => ⟨2, .ok ⟨slot.id, .zero⟩⟩

theorem combine_fails_first :
    let together := (Setup.constant {} "").together Schedule.failing.stages
    let input : RunInput := { code := "fn main() \x7b\x7d" }
    (run together input).result = .error (.stage .combine (.timeout 3)) ∧
      EndsWithFirst together (RunM.alone together input (RunM.step together .package))
        (RunM.alone together input (RunM.generation together)) (run together input) := by
  intro together input
  have hcode : input.isBlank = false := by decide
  have hresult : (run together input).result = .error (.stage .combine (.timeout 3)) := by
    decide +kernel
  obtain ⟨call, hcall, -, hcause⟩ := (run_concludes together hcode).exists_failed hresult
  exact ⟨hresult, first_failure_of_run _ input Schedule.failing ⟨_, rfl⟩ ⟨_, rfl⟩
    ⟨call, hcall, _, hcause⟩⟩

end ScriptForge.Pipeline

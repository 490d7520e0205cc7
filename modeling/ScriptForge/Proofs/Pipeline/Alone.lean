import ScriptForge.Proofs.Pipeline.Opening
import ScriptForge.Proofs.Pipeline.Protocol

/-!
# A fork alone

`alone setup input fork` is a run side by side in which only one of the two forks is started. The
trace of the run with both forks is taken apart into what is about the packaging stage
(`Trace.packaging`) and the rest (`Trace.unpackaged`).

Stages that reply by slot and call number (`Schedule`) do not notice that the packaging stage has
been called. So the generation fork does the same alone and beside the packaging fork, at the same
times (`generation_beside`).
-/

namespace ScriptForge.Pipeline

/-- The reply to each call of a slot, by the number of its calls before. -/
abbrev Schedule := Slot → Nat → Reply

/-- The stages that reply as a schedule says. -/
def Schedule.stages (schedule : Schedule) : Stages :=
  fun call => schedule call.slot (call.earlier.count call.slot)

/-! ## One of two forks -/

/-- The state with the statistics kept back. -/
def RunState.held (s : RunState) : RunState :=
  { s with ledger := { s.ledger with held := true } }

namespace RunM

variable {α : Type} {setup : Setup} {input : RunInput} {s : RunState}

/-- A run side by side in which one fork is started. -/
def withFork (setup : Setup) (fork : RunM α) : RunM α := do
  emit (.runStarted setup.runId)
  let _ ← step setup .identify
  let _ ← step setup .encapsulate
  modify RunState.held
  fork

/-- What comes of a fork that is started alone. -/
def alone (setup : Setup) (input : RunInput) (fork : RunM α) : Except PipelineError α × RunState :=
  (withFork setup fork).run (.start setup.config input)

/-- Up to the point where the forks part, all runs do the same. -/
theorem run_opening (h : Reaches setup input .fork s) (m : RunM α) :
    (emit (.runStarted setup.runId) >>= fun _ => step setup .identify >>= fun _ =>
      step setup .encapsulate >>= fun _ => m).run (.start setup.config input) = m.run s := by
  obtain ⟨first, second, hfirst, hsecond, rfl⟩ := h.fork_eq
  have hstarted : (emit (.runStarted setup.runId)).run (.start setup.config input) =
      (.ok (), RunState.opened setup input) := rfl
  rw [run_bind_of_ok hstarted, run_bind_of_ok (run_step hfirst), run_bind_of_ok (run_step hsecond)]

theorem alone_eq (h : Reaches setup input .fork s) (fork : RunM α) :
    alone setup input fork = fork.run s.held := by
  have hheld : (modify RunState.held : RunM Unit).run s = (.ok (), s.held) := rfl
  rw [alone, withFork, run_opening h, run_bind_of_ok hheld]

end RunM

/-! ## The trace of two forks taken apart -/

/-- The call as it is made where the packaging stage has not been called. -/
def Call.unpackaged (call : Call) : Call :=
  { call with earlier := call.earlier.filter (· ≠ .package) }

namespace Moment

/-- Whether a moment is about the packaging stage. -/
def packages (moment : Moment) : Bool :=
  match moment.happening with
  | .called call => call.slot = .package
  | .emitted event => event.slot? = some .package
  | .wrote _ => false

/-- The moment as it is where the packaging stage has not been called. -/
def unpackaged (moment : Moment) : Moment :=
  match moment.happening with
  | .called call => ⟨moment.time, .called call.unpackaged⟩
  | _ => moment

end Moment

namespace Trace

/-- What is about the packaging stage. -/
def packaging (trace : Trace) : Trace :=
  trace.filter Moment.packages

/-- What is not about the packaging stage, as it is where that stage has not been called. -/
def unpackaged (trace : Trace) : Trace :=
  (trace.filter (!·.packages)).map Moment.unpackaged

variable (first second trace : Trace)

@[simp] theorem packaging_append :
    packaging (first ++ second) = first.packaging ++ second.packaging :=
  List.filter_append ..

@[simp] theorem unpackaged_append :
    unpackaged (first ++ second) = first.unpackaged ++ second.unpackaged := by
  simp [unpackaged]

theorem packaging_eq_nil (hcalls : ∀ call ∈ trace.calls, call.slot ≠ .package)
    (hevents : ∀ event ∈ trace.events, event.slot? ≠ some .package) : trace.packaging = [] := by
  refine List.filter_eq_nil_iff.mpr ?_
  rintro ⟨time, call | event | stats⟩ hmoment
  · simpa [Moment.packages] using hcalls call (List.mem_filterMap.mpr ⟨_, hmoment, rfl⟩)
  · simpa [Moment.packages] using hevents event (List.mem_filterMap.mpr ⟨_, hmoment, rfl⟩)
  · simp [Moment.packages]

theorem unpackaged_slots : trace.unpackaged.slots = trace.slots.filter (· ≠ .package) := by
  induction trace with
  | nil => rfl
  | cons moment rest ih =>
    rw [← List.singleton_append, unpackaged_append, slots_append, slots_append, List.filter_append,
      ih]
    congr 1
    obtain ⟨time, call | event | stats⟩ := moment
    · by_cases hslot : call.slot = .package <;>
        simp [unpackaged, Moment.packages, Moment.unpackaged, Call.unpackaged, slots, calls, hslot]
    · by_cases hslot : event.slot? = some .package <;>
        simp [unpackaged, Moment.packages, Moment.unpackaged, slots, calls, hslot]
    · rfl

theorem unpackaged_written : trace.unpackaged.written = trace.written := by
  induction trace with
  | nil => rfl
  | cons moment rest ih =>
    rw [← List.singleton_append, unpackaged_append, written_append, written_append, ih]
    congr 1
    obtain ⟨time, call | event | stats⟩ := moment
    · by_cases hslot : call.slot = .package <;>
        simp [unpackaged, Moment.packages, Moment.unpackaged, written, hslot]
    · by_cases hslot : event.slot? = some .package <;>
        simp [unpackaged, Moment.packages, Moment.unpackaged, written, hslot]
    · rfl

variable {first second}

theorem packaging_mono (h : first <+: second) : first.packaging <+: second.packaging :=
  h.filter _

theorem unpackaged_mono (h : first <+: second) : first.unpackaged <+: second.unpackaged :=
  (h.filter _).map _

end Trace

/-! ## Generation alone and beside the packaging fork -/

/-- The second state is the first, but the packaging stage may have been called. -/
def Beside (s t : RunState) : Prop :=
  ∃ trace : Trace, t = { s with trace } ∧ s.trace.unpackaged = trace.unpackaged

namespace Beside

variable {s t : RunState} {setup : Setup} {schedule : Schedule} {slot : Slot}

theorem clock_eq (h : Beside s t) : t.clock = s.clock := by
  obtain ⟨trace, rfl, -⟩ := h
  rfl

theorem unpackaged_eq (h : Beside s t) : s.trace.unpackaged = t.trace.unpackaged := by
  obtain ⟨trace, rfl, htrace⟩ := h
  exact htrace

theorem slots_filter {s : RunState} {trace : Trace} (h : s.trace.unpackaged = trace.unpackaged) :
    s.trace.slots.filter (· ≠ .package) = trace.slots.filter (· ≠ .package) := by
  rw [← Trace.unpackaged_slots, ← Trace.unpackaged_slots, h]

theorem stepCall_unpackaged (h : Beside s t) (slot : Slot) :
    (s.stepCall slot).unpackaged = (t.stepCall slot).unpackaged := by
  obtain ⟨trace, rfl, htrace⟩ := h
  have hslots := slots_filter htrace
  simp only [Call.unpackaged, RunState.stepCall, RunState.nextCall, hslots]
  cases slot <;> rfl

/-- The stages of a schedule reply alike. -/
theorem stages_stepCall (hstages : setup.stages = schedule.stages) (h : Beside s t)
    (hslot : slot ≠ .package) :
    setup.stages (s.stepCall slot) = setup.stages (t.stepCall slot) := by
  obtain ⟨trace, rfl, htrace⟩ := h
  have hcount : s.trace.slots.count slot = trace.slots.count slot := by
    have hslots := congrArg (List.count slot) (slots_filter htrace)
    rwa [List.count_filter (by simpa using hslot), List.count_filter (by simpa using hslot)]
      at hslots
  rw [hstages]
  exact congrArg (schedule slot) hcount

theorem happened (h : Beside s t) (happening : Happening) :
    Beside (s.happened happening) (t.happened happening) := by
  obtain ⟨trace, rfl, htrace⟩ := h
  exact ⟨_, rfl, by simp [htrace]⟩

theorem replied (hstages : setup.stages = schedule.stages) (h : Beside s t)
    (hslot : slot ≠ .package) : Beside (s.replied setup slot) (t.replied setup slot) := by
  have hcall := h.stepCall_unpackaged slot
  have hreply := stages_stepCall hstages h hslot
  obtain ⟨trace, rfl, htrace⟩ := h
  refine ⟨(RunState.replied { s with trace } setup slot).trace, ?_, ?_⟩
  · simp only [RunState.replied, hreply]
    rfl
  · rw [RunState.replied_trace, RunState.replied_trace, Trace.unpackaged_append,
      Trace.unpackaged_append, htrace]
    simp [Trace.unpackaged, Moment.packages, Moment.unpackaged, Event.slot?, hslot, hcall]

theorem consume (h : Beside s t) (slot : Slot) :
    Beside (RunM.consume s slot) (RunM.consume t slot) := by
  obtain ⟨trace, rfl, htrace⟩ := h
  cases slot <;> exact ⟨trace, rfl, htrace⟩

theorem committed (h : Beside s t) (slot : Slot) (round latency : Nat) (output : StageOutput) :
    Beside (s.committed slot round latency output) (t.committed slot round latency output) := by
  obtain ⟨trace, rfl, htrace⟩ := h
  exact ⟨trace, rfl, htrace⟩

theorem stepped (hstages : setup.stages = schedule.stages) (h : Beside s t)
    (hslot : slot ≠ .package) (output : StageOutput) :
    Beside (s.stepped setup slot output) (t.stepped setup slot output) := by
  have hround : t.round = s.round := by
    obtain ⟨trace, rfl, -⟩ := h
    rfl
  simp only [RunState.stepped, hround, ← stages_stepCall hstages h hslot]
  exact (((h.replied hstages hslot).happened _).consume slot).committed slot _ _ output

end Beside

namespace RunM

variable {setup : Setup} {schedule : Schedule}

theorem happen_beside (happening : Happening) :
    Abreast Beside Beside (happen happening) (happen happening) :=
  fun _ _ h => .ok () (h.happened happening)

theorem write_beside (stats : RoundStats) :
    Abreast Beside Beside (write setup stats) (write setup stats) := by
  refine .write rfl ?_ (fun _ _ h => h) (fun stats => happen_beside _) stats
  rintro s _ ⟨trace, rfl, htrace⟩
  rw [← Trace.unpackaged_written, htrace, Trace.unpackaged_written]

/-- Neither run calls the packaging stage, which runs beside the second one. -/
theorem loopsBeside (hstages : setup.stages = schedule.stages)
    (htogether : setup.config.concurrentForks = true) :
    LoopsAbreast setup setup Beside Beside where
  classifier := rfl
  validator := rfl
  repackages := rfl
  step slot hslot := .step
    (fun s t h => congrArg Reply.result (h.stages_stepCall hstages hslot))
    (fun s t h => h.replied hstages hslot) fun s t output h => h.stepped hstages hslot output
  package hrepackages := by simp [htogether] at hrepackages
  emit := by
    rintro s _ ⟨trace, rfl, -⟩ event
    exact happen_beside _
  diagnose name value := by
    rintro s _ ⟨trace, rfl, htrace⟩
    exact .ok () ⟨trace, rfl, htrace⟩
  direct directive := by
    rintro s _ ⟨trace, rfl, htrace⟩
    exact .ok () ⟨trace, rfl, htrace⟩
  advanceRound := by
    refine .advanceRound ?_ ?_ ?_ write_beside fun round reason => happen_beside _
    · rintro s _ ⟨trace, rfl, -⟩
      rfl
    · rintro s _ ⟨trace, rfl, -⟩
      rfl
    · rintro s _ round ledger ⟨trace, rfl, htrace⟩
      exact ⟨trace, rfl, htrace⟩
  budget := by
    rintro s _ ⟨trace, rfl, -⟩
    rfl
  countAttempt rejection := by
    rintro s _ ⟨trace, rfl, htrace⟩
    exact .ok _ ⟨trace, rfl, htrace⟩

/-- The generation fork does the same alone and beside the packaging fork. -/
theorem generation_beside (hstages : setup.stages = schedule.stages)
    (htogether : setup.config.concurrentForks = true) (s : RunState) :
    EndAbreast Beside Beside ((generation setup).run s.held)
      ((generation setup).run (s.forked setup)) := by
  refine (loopsBeside hstages htogether).generation _ _ ⟨(s.forked setup).trace, rfl, ?_⟩
  simp [RunState.held, Trace.unpackaged, Moment.packages, Event.slot?]

end RunM

end ScriptForge.Pipeline

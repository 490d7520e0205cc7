import ScriptForge.Proofs.Pipeline.Trace

/-!
# How a computation of a run ends

`Ends m s ok bad` says how the computation `m` ends when it starts in the state `s`: with a value
and a state for which `ok` holds, or with an error and a state for which `bad` holds. As every
computation of a run ends, this is a statement about all that the computation can do.

The rules take a computation apart: `ends_bind` at its first action, `ends_step` into the two ways a
stage can reply, `ends_write` into the two answers of the sink. `Keeps` is what is left of `Ends`
when a property of states is all that matters: what every action keeps, each loop and the whole
generation fork keep (`keeps_generation`).
-/

namespace ScriptForge.Pipeline

/-! ## States after single actions -/

namespace RunState

/-- The state after something has happened. -/
def happened (s : RunState) (happening : Happening) : RunState :=
  { s with trace := s.trace ++ [⟨s.clock, happening⟩] }

/-- The call that is made when a slot is called next. -/
def nextCall (s : RunState) (slot : Slot) (directive : Option Directive) : Call :=
  ⟨slot, s.trace.slots, s.context, directive⟩

/-- The state after a stage has been announced and called. -/
def called (s : RunState) (setup : Setup) (slot : Slot) (directive : Option Directive) : RunState :=
  (s.happened (.emitted (.stageStarted setup.runId slot s.round))).happened
    (.called (s.nextCall slot directive))

/-- The call that a step makes: only the generating stage is given the directive. -/
def stepCall (s : RunState) (slot : Slot) : Call :=
  s.nextCall slot (RunM.directiveFor s slot)

/-- The state after a stage has been called in a step and its reply has come. -/
def replied (s : RunState) (setup : Setup) (slot : Slot) : RunState :=
  let s' := s.called setup slot (RunM.directiveFor s slot)
  { s' with clock := s'.clock + (setup.stages (s.stepCall slot)).delay }

/-- The state after an output has been committed. -/
def committed (s : RunState) (slot : Slot) (round latency : Nat) (output : StageOutput) :
    RunState :=
  let record := Record.ofOutput slot round latency output
  { s with
    ledger := s.ledger.add record
    context := (s.context.setOutput slot output.text).record record }

/-- The state after a step in which the stage has returned an output. -/
def stepped (s : RunState) (setup : Setup) (slot : Slot) (output : StageOutput) : RunState :=
  let latency := (setup.stages (s.stepCall slot)).delay
  let finished := .stageFinished setup.runId slot s.round latency output.usage
  (RunM.consume ((s.replied setup slot).happened (.emitted finished)) slot).committed slot s.round
    latency output

section Fields

variable (s : RunState) (setup : Setup) (slot : Slot) (output : StageOutput)

@[simp] theorem happened_trace (happening : Happening) :
    (s.happened happening).trace = s.trace ++ [⟨s.clock, happening⟩] := rfl

@[simp] theorem happened_round (happening : Happening) :
    (s.happened happening).round = s.round := rfl

@[simp] theorem happened_ledger (happening : Happening) :
    (s.happened happening).ledger = s.ledger := rfl

theorem happened_emitted_slots (event : Event) :
    (s.happened (.emitted event)).trace.slots = s.trace.slots := by
  simp [Trace.slots]

theorem happened_emitted_written (event : Event) :
    (s.happened (.emitted event)).trace.written = s.trace.written := by
  simp

@[simp] theorem replied_trace :
    (s.replied setup slot).trace = s.trace ++
      [⟨s.clock, .emitted (.stageStarted setup.runId slot s.round)⟩,
        ⟨s.clock, .called (s.stepCall slot)⟩] := by
  simp [replied, called, happened, stepCall, nextCall, Trace.slots]

@[simp] theorem stepped_trace :
    (s.stepped setup slot output).trace = (s.replied setup slot).trace ++
      [⟨(s.replied setup slot).clock, .emitted (.stageFinished setup.runId slot s.round
        (setup.stages (s.stepCall slot)).delay output.usage)⟩] := by
  cases slot <;> rfl

@[simp] theorem stepped_round : (s.stepped setup slot output).round = s.round := by
  cases slot <;> rfl

@[simp] theorem stepped_budget : (s.stepped setup slot output).budget = s.budget := by
  cases slot <;> rfl

@[simp] theorem stepCall_slot : (s.stepCall slot).slot = slot := rfl

theorem stepped_slots :
    (s.stepped setup slot output).trace.slots = s.trace.slots ++ [slot] := by
  simp [Trace.slots]

theorem stepped_sinceCall (other : Slot) :
    (s.stepped setup slot output).trace.sinceCall other =
      (if slot = other then [] else s.trace.sinceCall other ++
        [⟨s.clock, .emitted (.stageStarted setup.runId slot s.round)⟩,
          ⟨s.clock, .called (s.stepCall slot)⟩]) ++
      [⟨(s.replied setup slot).clock, .emitted (.stageFinished setup.runId slot s.round
        (setup.stages (s.stepCall slot)).delay output.usage)⟩] := by
  rw [stepped_trace, Trace.sinceCall_concat, if_neg (by simp), replied_trace,
    List.append_cons s.trace, Trace.sinceCall_concat, Trace.sinceCall_concat]
  by_cases hslot : slot = other <;> simp [hslot]

theorem stepped_written : (s.stepped setup slot output).trace.written = s.trace.written := by
  simp

theorem stepped_directive : (s.stepped setup slot output).directive =
    if slot = .generate then none else s.directive := by
  cases slot <;> rfl

theorem stepped_ledger : (s.stepped setup slot output).ledger =
    s.ledger.add (.ofOutput slot s.round (setup.stages (s.stepCall slot)).delay output) := by
  cases slot <;> rfl

theorem stepped_code :
    (s.stepped setup slot output).context.code = s.context.code := by
  cases slot <;> rfl

theorem stepped_auxiliary :
    (s.stepped setup slot output).context.auxiliary = s.context.auxiliary := by
  cases slot <;> rfl

theorem stepped_outputs :
    (s.stepped setup slot output).context.outputs = s.context.outputs.set slot output.text := by
  cases slot <;> rfl

theorem stepped_history : (s.stepped setup slot output).context.history = s.context.history ++
    [.ofOutput slot s.round (setup.stages (s.stepCall slot)).delay output] := by
  cases slot <;> rfl

end Fields

end RunState

namespace RunM

variable {α β : Type}

/-- Started in `s`, the computation ends with a value and a state for which `ok` holds, or with an
error and a state for which `bad` holds. -/
def Ends (m : RunM α) (s : RunState) (ok : α → RunState → Prop)
    (bad : PipelineError → RunState → Prop) : Prop :=
  match m.run s with
  | (.ok a, s') => ok a s'
  | (.error error, s') => bad error s'

variable {m : RunM α} {f : α → RunM β} {s : RunState} {setup : Setup}
  {ok ok' : α → RunState → Prop} {bad bad' : PipelineError → RunState → Prop}

theorem run_bind (m : RunM α) (f : α → RunM β) (s : RunState) :
    (m >>= f).run s = match m.run s with
      | (.ok a, s') => (f a).run s'
      | (.error error, s') => (.error error, s') := by
  simp only [ExceptT.run_bind]
  change StateT.bind m.run _ s = _
  rcases h : m.run s with ⟨_ | _, s'⟩ <;> simp only [StateT.bind, h] <;> rfl

theorem run_bind_of_ok {a : α} {s' : RunState} (h : m.run s = (.ok a, s')) :
    (m >>= f).run s = (f a).run s' := by
  rw [run_bind, h]

theorem run_get_bind (f : RunState → RunM β) (s : RunState) :
    (get >>= f).run s = (f s).run s :=
  run_bind get f s

/-- A computation that ends with a value has come past its first action. -/
theorem exists_of_run_bind_ok {b : β} {s' : RunState} (h : (m >>= f).run s = (.ok b, s')) :
    ∃ a t, m.run s = (.ok a, t) ∧ (f a).run t = (.ok b, s') := by
  rw [run_bind] at h
  rcases hm : m.run s with ⟨error | a, t⟩
  · rw [hm] at h
    cases h
  · rw [hm] at h
    exact ⟨a, t, rfl, h⟩

theorem Ends.of_run_ok (h : Ends m s ok bad) {a : α} {s' : RunState} (hm : m.run s = (.ok a, s')) :
    ok a s' := by
  rwa [Ends, hm] at h

theorem Ends.of_run_error (h : Ends m s ok bad) {error : PipelineError} {s' : RunState}
    (hm : m.run s = (.error error, s')) : bad error s' := by
  rwa [Ends, hm] at h

theorem run_of_ends {a : α} {s' : RunState}
    (h : Ends m s (fun b t => b = a ∧ t = s') fun _ _ => False) : m.run s = (.ok a, s') := by
  unfold Ends at h
  split at h
  · obtain ⟨rfl, rfl⟩ := h
    assumption
  · exact h.elim

theorem run_of_ends_error {error : PipelineError} {s' : RunState}
    (h : Ends m s (fun _ _ => False) fun other t => other = error ∧ t = s') :
    m.run s = (.error error, s') := by
  unfold Ends at h
  split at h
  · exact h.elim
  · obtain ⟨rfl, rfl⟩ := h
    assumption

theorem Ends.imp (h : Ends m s ok bad) (hok : ∀ a s', ok a s' → ok' a s')
    (hbad : ∀ error s', bad error s' → bad' error s') : Ends m s ok' bad' := by
  unfold Ends at *
  split at h
  · exact hok _ _ h
  · exact hbad _ _ h

theorem Ends.and (h : Ends m s ok bad) (h' : Ends m s ok' bad') :
    Ends m s (fun a s' => ok a s' ∧ ok' a s') (fun error s' => bad error s' ∧ bad' error s') := by
  unfold Ends at *
  cases hm : m.run s with
  | mk result s' =>
    rw [hm] at h h'
    cases result <;> exact ⟨h, h'⟩

/-! ## Taking computations apart -/

@[simp] theorem ends_pure (a : α) : Ends (pure a) s ok bad ↔ ok a s := Iff.rfl

@[simp] theorem ends_throw (error : PipelineError) :
    Ends (throw error : RunM α) s ok bad ↔ bad error s := Iff.rfl

@[simp] theorem ends_get {ok : RunState → RunState → Prop} :
    Ends get s ok bad ↔ ok s s := Iff.rfl

@[simp] theorem ends_set (s' : RunState) {ok : PUnit → RunState → Prop} :
    Ends (set s') s ok bad ↔ ok ⟨⟩ s' := Iff.rfl

@[simp] theorem ends_modify (g : RunState → RunState) {ok : PUnit → RunState → Prop} :
    Ends (modify g) s ok bad ↔ ok ⟨⟩ (g s) := Iff.rfl

@[simp] theorem ends_bind {ok : β → RunState → Prop} :
    Ends (m >>= f) s ok bad ↔ Ends m s (fun a s' => Ends (f a) s' ok bad) bad := by
  unfold Ends
  rw [run_bind]
  rcases m.run s with ⟨_ | _, s'⟩ <;> rfl

section Actions

variable {ok : Unit → RunState → Prop}

@[simp] theorem ends_happen (happening : Happening) :
    Ends (happen happening) s ok bad ↔ ok () (s.happened happening) := Iff.rfl

@[simp] theorem ends_emit (event : Event) :
    Ends (emit event) s ok bad ↔ ok () (s.happened (.emitted event)) := Iff.rfl

@[simp] theorem ends_wait (delay : Nat) :
    Ends (wait delay) s ok bad ↔ ok () { s with clock := s.clock + delay } := Iff.rfl

@[simp] theorem ends_diagnose (name : String) (value : Json) :
    Ends (diagnose name value) s ok bad ↔
      ok () { s with context := s.context.diagnose name value } := Iff.rfl

@[simp] theorem ends_direct (directive : Directive) :
    Ends (direct directive) s ok bad ↔ ok () { s with directive := some directive } := Iff.rfl

@[simp] theorem ends_commit (slot : Slot) (round latency : Nat) (output : StageOutput) :
    Ends (commit slot round latency output) s ok bad ↔
      ok () (s.committed slot round latency output) := Iff.rfl

end Actions

@[simp] theorem ends_countAttempt (rejection : Rejection) {ok : Nat → RunState → Prop} :
    Ends (countAttempt rejection) s ok bad ↔
      ok ((s.budget.record rejection).used rejection)
        { s with budget := s.budget.record rejection } := Iff.rfl

@[simp] theorem ends_call (slot : Slot) (directive : Option Directive)
    {ok : Call → RunState → Prop} :
    Ends (call setup slot directive) s ok bad ↔
      ok (s.nextCall slot directive) (s.called setup slot directive) := by
  simp only [call, ends_bind, ends_get, ends_emit, ends_happen, ends_pure]
  simp [RunState.called, RunState.nextCall, RunState.happened, Trace.slots]

/-- A step ends as the stage replies: with its error, or with its output committed. -/
theorem ends_step {slot : Slot} {ok : String → RunState → Prop}
    (hbad : ∀ error, (setup.stages (s.stepCall slot)).result = .error error →
      bad (.stage slot error) (s.replied setup slot))
    (hok : ∀ output, (setup.stages (s.stepCall slot)).result = .ok output →
      ok output.text (s.stepped setup slot output)) :
    Ends (step setup slot) s ok bad := by
  simp only [step, ends_bind, ends_get, ends_call, ends_wait]
  split
  · rename_i error h
    exact hbad error h
  · rename_i output h
    exact hok output h

/-- A step whose stage returns an output. -/
theorem run_step {slot : Slot} {output : StageOutput}
    (h : (setup.stages (s.stepCall slot)).result = .ok output) :
    (step setup slot).run s = (.ok output.text, s.stepped setup slot output) := by
  refine run_of_ends (ends_step (fun error herror => ?_) fun other hother => ?_)
  · rw [h] at herror
    cases herror
  · rw [h] at hother
    cases hother
    exact ⟨rfl, rfl⟩

/-- A step whose stage fails. -/
theorem run_step_of_error {slot : Slot} {cause : StageError}
    (h : (setup.stages (s.stepCall slot)).result = .error cause) :
    (step setup slot).run s = (.error (.stage slot cause), s.replied setup slot) := by
  refine run_of_ends_error (ends_step (fun error herror => ?_) fun output houtput => ?_)
  · rw [h] at herror
    cases herror
    exact ⟨rfl, rfl⟩
  · rw [h] at houtput
    cases houtput

/-- A write ends as the sink answers; without a sink nothing is written. -/
theorem ends_write {stats : RoundStats} {ok : Unit → RunState → Prop}
    (hnone : setup.sink = none → ok () s)
    (hbad : ∀ sink text, setup.sink = some sink → sink s.trace.written stats = some text →
      bad (.stats text) s)
    (hok : ∀ sink, setup.sink = some sink → sink s.trace.written stats = none →
      ok () (s.happened (.wrote stats))) :
    Ends (write setup stats) s ok bad := by
  unfold write
  split
  · exact hnone ‹_›
  · rename_i sink hsink
    simp only [ends_bind, ends_get]
    split
    · exact hbad sink _ hsink ‹_›
    · exact hok sink hsink ‹_›

/-! ## What is kept -/

/-- Started where `I` holds, the computation ends where `I` holds or with an error for which `bad`
holds. -/
def Keeps (I : RunState → Prop) (bad : PipelineError → RunState → Prop) (m : RunM α) : Prop :=
  ∀ s, I s → Ends m s (fun _ => I) bad

namespace Keeps

variable {I : RunState → Prop}

theorem ret (a : α) : Keeps I bad (pure a : RunM α) := fun _ h => h

theorem bind (hm : Keeps I bad m) (hf : ∀ a, Keeps I bad (f a)) : Keeps I bad (m >>= f) := by
  intro s hs
  rw [ends_bind]
  exact (hm s hs).imp (fun a s' h => hf a s' h) (fun _ _ h => h)

/-- Reading the state keeps everything. -/
theorem read {f : RunState → RunM β} (hf : ∀ s, Keeps I bad (f s)) : Keeps I bad (get >>= f) := by
  intro s hs
  rw [ends_bind, ends_get]
  exact hf s s hs

theorem writeAll (hwrite : ∀ stats, Keeps I bad (write setup stats)) (rounds : List RoundStats) :
    Keeps I bad (RunM.writeAll setup rounds) := by
  induction rounds with
  | nil => exact ret ()
  | cons stats rest ih => exact (hwrite stats).bind fun _ => ih

/-- A round starts with a new number and another ledger, writes and an event. -/
theorem advanceRound (hstart : ∀ s round ledger, I s → I { s with round, ledger })
    (hwrite : ∀ stats, Keeps I bad (write setup stats)) (hemit : ∀ event, Keeps I bad (emit event))
    (reason : Rejection) : Keeps I bad (RunM.advanceRound setup reason) := by
  intro s hs
  simp only [RunM.advanceRound, flushBefore, ends_bind, ends_modify, ends_get]
  exact (writeAll hwrite _ _ (hstart s _ _ hs)).imp (fun _ _ hs' => hemit _ _ hs') fun _ _ h => h

end Keeps

/-- The actions that the generation fork is made of keep `I`. -/
structure ActionsKeep (setup : Setup) (I : RunState → Prop)
    (bad : PipelineError → RunState → Prop) : Prop where
  step : ∀ slot, Keeps I bad (step setup slot)
  emit : ∀ event, Keeps I bad (emit event)
  diagnose : ∀ name value, Keeps I bad (diagnose name value)
  countAttempt : ∀ rejection, Keeps I bad (countAttempt rejection)
  direct : ∀ directive, Keeps I bad (direct directive)
  advanceRound : ∀ reason, Keeps I bad (advanceRound setup reason)

namespace ActionsKeep

variable {I : RunState → Prop} (h : ActionsKeep setup I bad)

include h

theorem reviewedCandidate : Keeps I bad (reviewedCandidate setup) := by
  refine (h.step _).bind fun _ => (h.step _).bind fun script => (h.step _).bind fun review =>
    .read fun s => (h.emit _).bind fun _ => (h.diagnose _ _).bind fun _ => ?_
  split
  · exact .ret _
  · exact (h.diagnose _ _).bind fun _ => .ret _

theorem goBack (review script : String) : Keeps I bad (goBack setup review script) := by
  refine (h.direct _).bind fun _ => (h.advanceRound _).bind fun _ => (h.step _).bind fun _ =>
    (h.step _).bind fun _ => ?_
  split
  · exact (h.step _).bind fun _ => .ret _
  · exact .ret _

theorem reviewLoop (spare : Nat) : Keeps I bad (reviewLoop setup spare) := by
  induction spare with
  | zero =>
    rw [RunM.reviewLoop]
    refine (h.countAttempt _).bind fun attempts => h.reviewedCandidate.bind fun candidate => ?_
    obtain ⟨script, review?⟩ := candidate
    cases review? with
    | none => exact .ret _
    | some review => exact (h.emit _).bind fun _ => .ret _
  | succ spare ih =>
    rw [RunM.reviewLoop]
    refine (h.countAttempt _).bind fun attempts => h.reviewedCandidate.bind fun candidate => ?_
    obtain ⟨script, review?⟩ := candidate
    cases review? with
    | none => exact .ret _
    | some review => exact (h.goBack _ _).bind fun _ => ih

theorem validated (script : String) : Keeps I bad (validated setup script) :=
  .read fun _ => (h.emit _).bind fun _ => (h.diagnose _ _).bind fun _ => .ret _

theorem regenerate (verdict : Quality.Verdict) (script : String) :
    Keeps I bad (regenerate setup verdict script) :=
  (h.direct _).bind fun _ => (h.advanceRound _).bind fun _ => (h.step _).bind fun _ => h.step _

theorem validationLoop (spare : Nat) (script : String) :
    Keeps I bad (validationLoop setup spare script) := by
  induction spare generalizing script with
  | zero =>
    rw [RunM.validationLoop]
    refine (h.countAttempt _).bind fun attempts => (h.validated script).bind fun verdict => ?_
    split
    · exact .ret _
    · exact (h.emit _).bind fun _ => .ret _
  | succ spare ih =>
    rw [RunM.validationLoop]
    refine (h.countAttempt _).bind fun attempts => (h.validated script).bind fun verdict => ?_
    split
    · exact .ret _
    · exact (h.regenerate _ _).bind fun next => ih next

/-- What the actions keep, the generation fork keeps. -/
theorem generation : Keeps I bad (generation setup) :=
  .read fun _ => (h.reviewLoop _).bind fun _ => .read fun _ => (h.validationLoop _ _).bind fun _ =>
    .ret _

end ActionsKeep

end RunM

end ScriptForge.Pipeline

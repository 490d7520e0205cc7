import ScriptForge.Proofs.Pipeline.Concludes

/-!
# What holds of each call of a run

A stage is called where the main fork has come to a point, or where the forks part. So a relation of
calls to what has happened before them holds throughout a run if it holds for these calls when they
are made (`Calling`). In a run with two forks side by side the packaging stage returns at some time
or other; the relation may not depend on when.
-/

namespace ScriptForge.Pipeline

/-- The state after a stage has been announced. -/
def RunState.announced (s : RunState) (setup : Setup) (slot : Slot) : RunState :=
  s.happened (.emitted (.stageStarted setup.runId slot s.round))

theorem RunState.announced_trace (s : RunState) (setup : Setup) (slot : Slot) :
    (s.announced setup slot).trace =
      s.trace ++ [⟨s.clock, .emitted (.stageStarted setup.runId slot s.round)⟩] := rfl

theorem Trace.EachCall.concat {relation : Trace → Call → Prop} {trace : Trace}
    (h : EachCall relation trace) {call : Call} (hcall : relation trace call) (time : Nat) :
    EachCall relation (trace ++ [⟨time, .called call⟩]) := by
  refine h.append fun between time' call' after heq => ?_
  cases between with
  | nil =>
    cases heq
    rwa [List.append_nil]
  | cons moment between => simp at heq

theorem Trace.EachCall.exists_of_mem {relation : Trace → Call → Prop} {trace : Trace}
    (h : EachCall relation trace) {call : Call} (hcall : call ∈ trace.calls) :
    ∃ before, relation before call := by
  obtain ⟨⟨time, called | event | stats⟩, hmoment, hcalled⟩ := List.mem_filterMap.mp hcall
  · cases hcalled
    obtain ⟨before, after, htrace⟩ := List.append_of_mem hmoment
    exact ⟨before, h before time call after htrace⟩
  · cases hcalled
  · cases hcalled

/-- A relation holds of each call when it is made, and lasts when the packaging stage returns. -/
structure Calling (setup : Setup) (input : RunInput) (relation : Trace → Call → Prop) : Prop where
  step : ∀ {p : Point} {s : RunState} {slot : Slot} {next : String → Point},
    Reaches setup input p s → p.Calls setup.config slot next →
      relation (s.announced setup slot).trace (s.stepCall slot)
  fork : ∀ {s : RunState}, Reaches setup input .fork s →
    relation (s.announced setup .package).trace (s.stepCall .package)
  joined : setup.config.concurrentForks = true → ∀ first rest time round latency usage call,
    relation (first ++ rest) call → relation (first ++ ⟨time, .emitted
      (.stageFinished setup.runId .package round latency usage)⟩ :: rest) call

namespace Calling

variable {setup : Setup} {input : RunInput} {relation : Trace → Call → Prop} {p : Point}
  {s : RunState}

theorem replied {slot : Slot} (h : s.trace.EachCall relation)
    (hcall : relation (s.announced setup slot).trace (s.stepCall slot)) :
    (s.replied setup slot).trace.EachCall relation := by
  have hannounced : (s.announced setup slot).trace.EachCall relation := h.append_of_calls rfl
  rw [RunState.replied_trace, List.append_cons]
  exact hannounced.concat hcall _

theorem reaches (hcalling : Calling setup input relation) (h : Reaches setup input p s) :
    s.trace.EachCall relation := by
  induction h with
  | start =>
    have hnone : Trace.EachCall relation [] := by simp [Trace.EachCall]
    exact hnone.append_of_calls rfl
  | @step p s slot next output h hcalls hreturned ih =>
    rw [RunState.stepped_trace]
    exact (replied ih (hcalling.step h hcalls)).append_of_calls rfl
  | @fork s h ih =>
    rw [RunState.forked_trace, ← RunState.replied_trace]
    exact replied ih (hcalling.fork h)
  | draft h ih => exact ih
  | @pass k script review s h hcond ih | @fail k script review s h hcond ih =>
    rw [RunState.judged_trace]
    exact ih.append_of_calls rfl
  | @goBack k script review s h hcond ih =>
    obtain ⟨more, htrace, hcalls, -⟩ := s.exists_retried_trace setup (.ofReview script review)
    rw [htrace]
    exact ih.append_of_calls hcalls
  | @redraft passed k m script s h hcond ih =>
    obtain ⟨more, htrace, hcalls, -⟩ := s.exists_retried_trace setup (.ofVerdict script _)
    rw [htrace]
    exact ih.append_of_calls hcalls
  | exhaust h hcond ih | accept h hcond ih | refuse h hcond ih | keep h hcond ih =>
    exact ih.append_of_calls rfl

theorem breaks (hcalling : Calling setup input relation) {error : PipelineError}
    (h : Breaks setup input error s) : s.trace.EachCall relation := by
  cases h with
  | stage h hcalls hfailed => exact replied (hcalling.reaches h) (hcalling.step h hcalls)
  | @stats p s s' done text h hfree htrace hrefused =>
    obtain ⟨more, hmore, hcalls, -⟩ := s.exists_wroteAll_trace setup done
    rw [htrace, hmore]
    exact (hcalling.reaches h).append_of_calls hcalls

theorem lasts (hcalling : Calling setup input relation) :
    Lasts setup (Trace.EachCall relation) where
  cut _ _ hfirst h := h.of_prefix hfirst
  joined htogether _ _ _ _ _ _ h :=
    h.insert fun first rest call => hcalling.joined htogether first rest _ _ _ _ call
  wrote _ _ hcalls _ h := h.append_of_calls hcalls
  finished _ _ _ h := h.append_of_calls rfl

/-- What holds of each call when it is made holds of each call of the run. -/
theorem run (hcalling : Calling setup input relation) :
    (run setup input).trace.EachCall relation := by
  cases hcode : input.isBlank with
  | true =>
    have htrace : (Pipeline.run setup input).trace = [] := by rw [Pipeline.run, hcode]; rfl
    rw [htrace]
    exact fun before time call after h => by simp at h
  | false =>
    exact hcalling.lasts.of_concludes (fun _ _ h => hcalling.reaches h)
      (fun _ _ h => hcalling.breaks h) (run_concludes setup hcode)

end Calling

end ScriptForge.Pipeline

import ScriptForge.Proofs.Pipeline.Ends

/-!
# Why a run fails

A run ends with an error for one of two reasons. Either the stage it called last has failed, and the
error is that of this stage, or the sink has refused the statistics of a round. All other stages
that were called have returned. This holds of whatever the actions of a run are put together to
(`actionsExplain`), in particular of a run whose forks are run in turn (`whole_explained`).
-/

namespace ScriptForge.Pipeline

/-- All of some calls have returned an output. -/
def Returned (setup : Setup) (calls : List Call) : Prop :=
  ∀ call ∈ calls, ∃ output, (setup.stages call).result = .ok output

/-- The sink refuses some statistics, after those that were written, with a text. -/
def Refused (setup : Setup) (written : List RoundStats) (text : String) : Prop :=
  ∃ sink stats, setup.sink = some sink ∧ sink written stats = some text

/-- An error is explained by the calls and the writes of the run that ends with it. -/
inductive Explained (setup : Setup) (trace : Trace) : PipelineError → Prop
  /-- The last call has failed and all others have returned. -/
  | stage {before : List Call} {call : Call} {cause : StageError}
      (calls : trace.calls = before ++ [call]) (returned : Returned setup before)
      (failed : (setup.stages call).result = .error cause) :
      Explained setup trace (.stage call.slot cause)
  /-- All calls have returned and the sink has refused the next statistics. -/
  | stats {text : String} (returned : Returned setup trace.calls)
      (refused : Refused setup trace.written text) : Explained setup trace (.stats text)

theorem Returned.append {setup : Setup} {calls : List Call} {call : Call} {output : StageOutput}
    (h : Returned setup calls) (hcall : (setup.stages call).result = .ok output) :
    Returned setup (calls ++ [call]) := by
  intro other hother
  rcases List.mem_append.mp hother with hother | hother
  · exact h other hother
  · rw [List.mem_singleton.mp hother]
    exact ⟨output, hcall⟩

/-- A failed call is the last one of a run that has an explained error. -/
theorem Explained.last {setup : Setup} {trace : Trace} {error : PipelineError}
    (h : Explained setup trace error) {before after : List Call} {call : Call} {cause : StageError}
    (hcalls : trace.calls = before ++ call :: after)
    (hcall : (setup.stages call).result = .error cause) :
    after = [] ∧ error = .stage call.slot cause := by
  have hfailed : ∀ calls, Returned setup calls → call ∉ calls := by
    intro calls hcalls hmem
    obtain ⟨output, houtput⟩ := hcalls call hmem
    rw [hcall] at houtput
    cases houtput
  cases h with
  | @stage before' call' cause' hcalls' hreturned hcall' =>
    rcases List.eq_nil_or_concat after with rfl | ⟨init, last, rfl⟩
    · rw [hcalls] at hcalls'
      obtain ⟨-, hlast⟩ := List.append_inj' hcalls' rfl
      cases hlast
      rw [hcall] at hcall'
      cases hcall'
      exact ⟨rfl, rfl⟩
    · -- a call after the failed one would leave the failed one among those that returned
      rw [hcalls, List.concat_eq_append, ← List.cons_append, ← List.append_assoc] at hcalls'
      obtain ⟨hinit, -⟩ := List.append_inj' hcalls' rfl
      exact absurd (by simp [← hinit]) (hfailed _ hreturned)
  | stats hreturned _ => exact absurd (by simp [hcalls]) (hfailed _ hreturned)

namespace RunM

variable {setup : Setup}

theorem write_explained (stats : RoundStats) :
    Keeps (fun s => Returned setup s.trace.calls) (fun error s => Explained setup s.trace error)
      (write setup stats) := by
  intro s hs
  refine ends_write (fun _ => hs) (fun sink text hsink htext => ?_) (fun _ _ _ => ?_)
  · exact .stats hs ⟨sink, stats, hsink, htext⟩
  · simpa using hs

theorem step_explained (slot : Slot) :
    Keeps (fun s => Returned setup s.trace.calls) (fun error s => Explained setup s.trace error)
      (step setup slot) := by
  intro s hs
  refine ends_step (fun cause h => ?_) (fun output h => ?_)
  · have hcalls : (s.replied setup slot).trace.calls = s.trace.calls ++ [s.stepCall slot] := by
      simp
    exact .stage hcalls hs h
  · simpa using hs.append h

theorem emit_explained (event : Event) :
    Keeps (fun s => Returned setup s.trace.calls) (fun error s => Explained setup s.trace error)
      (emit event) := by
  intro s hs
  simpa using hs

theorem actionsExplain :
    ActionsKeep setup (fun s => Returned setup s.trace.calls)
      (fun error s => Explained setup s.trace error) where
  step := step_explained
  emit := emit_explained
  diagnose _ _ _ hs := hs
  countAttempt _ _ hs := hs
  direct _ _ hs := hs
  advanceRound := .advanceRound (fun _ _ _ hs => hs) write_explained emit_explained

theorem finish_explained (script : String) (outcome : Outcome) :
    Keeps (fun s => Returned setup s.trace.calls) (fun error s => Explained setup s.trace error)
      (finish setup script outcome) := by
  intro s hs
  simp only [finish, flushAll, ends_bind, ends_get, ends_modify, ends_emit, ends_pure]
  refine Ends.imp (Keeps.writeAll write_explained _ _ hs) (fun _ s' hs' => ?_) (fun _ _ h => h)
  simpa using hs'

theorem whole_explained (hturn : setup.config.concurrentForks = false) :
    Keeps (fun s => Returned setup s.trace.calls) (fun error s => Explained setup s.trace error)
      (whole setup) := by
  have hforks : Keeps (fun s => Returned setup s.trace.calls)
      (fun error s => Explained setup s.trace error) (forks setup) := by
    rw [forks, hturn]
    exact (actionsExplain.step _).bind fun _ => actionsExplain.generation
  exact (actionsExplain.emit _).bind fun _ => (actionsExplain.step _).bind fun _ =>
    (actionsExplain.step _).bind fun _ => hforks.bind fun generated =>
      finish_explained generated.1 generated.2

end RunM

end ScriptForge.Pipeline

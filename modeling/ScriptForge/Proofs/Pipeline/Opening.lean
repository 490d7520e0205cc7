import ScriptForge.Proofs.Pipeline.Reaches

/-!
# How a run opens

Up to the point where the forks part a run has no choice: it calls the identifying stage and the
encapsulating stage, once each. So the state in which they part is known (`Reaches.fork_eq`).
-/

namespace ScriptForge.Pipeline

/-- The state in which a run calls its first stage. -/
def RunState.opened (setup : Setup) (input : RunInput) : RunState :=
  (RunState.start setup.config input).happened (.emitted (.runStarted setup.runId))

namespace Point

variable {config : Config} {p : Point} {slot : Slot} {next : String → Point} {text : String}

theorem Calls.next_ne_identify (h : p.Calls config slot next) (k : Nat) :
    next text ≠ .identify k := by
  cases h with
  | encapsulate k => cases k <;> simp only [encapsulated] <;> split <;> simp
  | _ => simp

theorem Calls.of_next_encapsulate (h : p.Calls config slot next) {k : Nat}
    (hnext : next text = .encapsulate k) : p = .identify k ∧ slot = .identify := by
  cases h with
  | identify j =>
    cases hnext
    exact ⟨rfl, rfl⟩
  | encapsulate j =>
    cases j <;> simp only [encapsulated] at hnext <;> split at hnext <;> cases hnext
  | _ => cases hnext

theorem Calls.of_next_fork (h : p.Calls config slot next) (hnext : next text = .fork) :
    p = .encapsulate 0 ∧ slot = .encapsulate := by
  cases h with
  | encapsulate j =>
    cases j with
    | zero => exact ⟨rfl, rfl⟩
    | succ j => simp only [encapsulated] at hnext; split at hnext <;> cases hnext
  | _ => cases hnext

end Point

namespace Reaches

variable {setup : Setup} {input : RunInput} {s : RunState}

theorem identify_zero (h : Reaches setup input (.identify 0) s) : s = .opened setup input := by
  generalize hp : Point.identify 0 = p at h
  cases h with
  | start => rfl
  | step h hcalls hreturned => exact absurd hp.symm (hcalls.next_ne_identify 0)
  | _ => cases hp

theorem encapsulate_zero (h : Reaches setup input (.encapsulate 0) s) : ∃ output,
    (setup.stages ((RunState.opened setup input).stepCall .identify)).result = .ok output ∧
      s = (RunState.opened setup input).stepped setup .identify output := by
  generalize hp : Point.encapsulate 0 = p at h
  cases h with
  | @step p s slot next output h hcalls hreturned =>
    obtain ⟨rfl, rfl⟩ := hcalls.of_next_encapsulate hp.symm
    obtain rfl := h.identify_zero
    exact ⟨output, hreturned, rfl⟩
  | _ => cases hp

/-- When the forks part, the source has been read and encapsulated once. -/
theorem fork_eq (h : Reaches setup input .fork s) : ∃ first second,
    (setup.stages ((RunState.opened setup input).stepCall .identify)).result = .ok first ∧
      (setup.stages (((RunState.opened setup input).stepped setup .identify first).stepCall
        .encapsulate)).result = .ok second ∧
      s = ((RunState.opened setup input).stepped setup .identify first).stepped setup .encapsulate
        second := by
  generalize hp : Point.fork = p at h
  cases h with
  | @step p s slot next second h hcalls hreturned =>
    obtain ⟨rfl, rfl⟩ := hcalls.of_next_fork hp.symm
    obtain ⟨first, hfirst, rfl⟩ := h.encapsulate_zero
    exact ⟨first, second, hfirst, hreturned, rfl⟩
  | _ => cases hp

end Reaches

end ScriptForge.Pipeline

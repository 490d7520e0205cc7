import ScriptForge.Proofs.Pipeline.Ends

/-!
# Computations abreast

`Abreast R bad m₁ m₂` says of two computations that they stay abreast: started in states that `R`
relates, both end with the same value in states that `R` relates, or both end with the same error in
states that `bad` relates. What the actions of two runs do, the parts of their loops do
(`ActionsAbreast`); loops that count attempts alike do so too, and with them the generation forks
(`LoopsAbreast.generation`).
-/

namespace ScriptForge.Pipeline

namespace RunM

variable {α β : Type}

/-- Two ends of computations: with the same value in states that `R` relates, or with the same error
in states that `bad` relates. -/
inductive EndAbreast (R bad : RunState → RunState → Prop) :
    Except PipelineError α × RunState → Except PipelineError α × RunState → Prop
  | ok (a : α) {s₁ s₂ : RunState} (h : R s₁ s₂) : EndAbreast R bad (.ok a, s₁) (.ok a, s₂)
  | error (error : PipelineError) {s₁ s₂ : RunState} (h : bad s₁ s₂) :
      EndAbreast R bad (.error error, s₁) (.error error, s₂)

/-- Started in states that `R` relates, both computations end with the same value in such states, or
with the same error in states that `bad` relates. -/
def Abreast (R bad : RunState → RunState → Prop) (m₁ m₂ : RunM α) : Prop :=
  ∀ s₁ s₂, R s₁ s₂ → EndAbreast R bad (m₁.run s₁) (m₂.run s₂)

namespace Abreast

variable {R bad : RunState → RunState → Prop} {m₁ m₂ : RunM α} {f₁ f₂ : α → RunM β}
  {s₁ s₂ s₁' : RunState}

theorem ret (a : α) : Abreast R bad (pure a : RunM α) (pure a) :=
  fun _ _ h => .ok a h

theorem bind (hm : Abreast R bad m₁ m₂) (hf : ∀ a, Abreast R bad (f₁ a) (f₂ a)) :
    Abreast R bad (m₁ >>= f₁) (m₂ >>= f₂) := by
  intro s₁ s₂ h
  have hend := hm s₁ s₂ h
  rw [run_bind, run_bind]
  generalize m₁.run s₁ = r₁ at hend
  generalize m₂.run s₂ = r₂ at hend
  cases hend with
  | ok a h => exact hf a _ _ h
  | error error h => exact .error error h

theorem read {f₁ f₂ : RunState → RunM β}
    (hf : ∀ s₁ s₂, R s₁ s₂ → Abreast R bad (f₁ s₁) (f₂ s₂)) :
    Abreast R bad (get >>= f₁) (get >>= f₂) := by
  intro s₁ s₂ h
  rw [run_get_bind, run_get_bind]
  exact hf s₁ s₂ h s₁ s₂ h

theorem change {g₁ g₂ : RunState → RunState} (h : ∀ s₁ s₂, R s₁ s₂ → R (g₁ s₁) (g₂ s₂)) :
    Abreast R bad (modify g₁ : RunM PUnit) (modify g₂) :=
  fun s₁ s₂ hs => .ok PUnit.unit (h s₁ s₂ hs)

/-- Where the first computation ends with a value, the second does so too. -/
theorem exists_of_run_ok (h : Abreast R bad m₁ m₂) (hs : R s₁ s₂) {a : α}
    (hrun : m₁.run s₁ = (.ok a, s₁')) : ∃ s₂', m₂.run s₂ = (.ok a, s₂') ∧ R s₁' s₂' := by
  have hend := h s₁ s₂ hs
  rw [hrun] at hend
  generalize hrun₂ : m₂.run s₂ = r at hend
  cases hend with
  | ok a h => exact ⟨_, rfl, h⟩

/-- Where the first computation ends with an error, the second does so too. -/
theorem exists_of_run_error (h : Abreast R bad m₁ m₂) (hs : R s₁ s₂) {error : PipelineError}
    (hrun : m₁.run s₁ = (.error error, s₁')) :
    ∃ s₂', m₂.run s₂ = (.error error, s₂') ∧ bad s₁' s₂' := by
  have hend := h s₁ s₂ hs
  rw [hrun] at hend
  generalize hrun₂ : m₂.run s₂ = r at hend
  cases hend with
  | error error h => exact ⟨_, rfl, h⟩

section Actions

variable {setup₁ setup₂ : Setup}

/-- Steps stay abreast whose stages reply alike. -/
theorem step {slot : Slot}
    (hreply : ∀ s₁ s₂, R s₁ s₂ → (setup₁.stages (s₁.stepCall slot)).result =
      (setup₂.stages (s₂.stepCall slot)).result)
    (hfailed : ∀ s₁ s₂, R s₁ s₂ → bad (s₁.replied setup₁ slot) (s₂.replied setup₂ slot))
    (hreturned : ∀ s₁ s₂ output, R s₁ s₂ →
      R (s₁.stepped setup₁ slot output) (s₂.stepped setup₂ slot output)) :
    Abreast R bad (RunM.step setup₁ slot) (RunM.step setup₂ slot) := by
  intro s₁ s₂ h
  have hreply := hreply s₁ s₂ h
  cases hfirst : (setup₁.stages (s₁.stepCall slot)).result with
  | error cause =>
    rw [run_step_of_error hfirst, run_step_of_error (hreply.symm.trans hfirst)]
    exact .error _ (hfailed s₁ s₂ h)
  | ok output =>
    rw [run_step hfirst, run_step (hreply.symm.trans hfirst)]
    exact .ok _ (hreturned s₁ s₂ output h)

/-- Writes stay abreast where the sink has taken the same statistics. -/
theorem write (hsink : setup₁.sink = setup₂.sink)
    (hwritten : ∀ s₁ s₂, R s₁ s₂ → s₁.trace.written = s₂.trace.written)
    (hrefused : ∀ s₁ s₂, R s₁ s₂ → bad s₁ s₂)
    (hwrote : ∀ stats, Abreast R bad (happen (.wrote stats)) (happen (.wrote stats)))
    (stats : RoundStats) : Abreast R bad (RunM.write setup₁ stats) (RunM.write setup₂ stats) := by
  unfold RunM.write
  rw [hsink]
  split
  · exact ret ()
  · refine .read fun s₁ s₂ h => ?_
    rw [hwritten s₁ s₂ h]
    split
    · exact fun t₁ t₂ ht => .error _ (hrefused t₁ t₂ ht)
    · exact hwrote stats

theorem writeAll
    (hwrite : ∀ stats, Abreast R bad (RunM.write setup₁ stats) (RunM.write setup₂ stats))
    (rounds : List RoundStats) :
    Abreast R bad (RunM.writeAll setup₁ rounds) (RunM.writeAll setup₂ rounds) := by
  induction rounds with
  | nil => exact ret ()
  | cons stats rest ih => exact (hwrite stats).bind fun _ => ih

/-- Rounds start abreast where the runs have come to the same round and have the same measurements
left. -/
theorem advanceRound (hround : ∀ s₁ s₂, R s₁ s₂ → s₁.round = s₂.round)
    (hledger : ∀ s₁ s₂, R s₁ s₂ → s₁.ledger = s₂.ledger)
    (hstart : ∀ s₁ s₂ (round : Nat → Nat) (ledger : Ledger → Ledger), R s₁ s₂ →
      R { s₁ with round := round s₁.round, ledger := ledger s₁.ledger }
        { s₂ with round := round s₂.round, ledger := ledger s₂.ledger })
    (hwrite : ∀ stats, Abreast R bad (RunM.write setup₁ stats) (RunM.write setup₂ stats))
    (hemit : ∀ round reason, Abreast R bad (emit (.roundAdvanced setup₁.runId round reason))
      (emit (.roundAdvanced setup₂.runId round reason))) (reason : Rejection) :
    Abreast R bad (RunM.advanceRound setup₁ reason) (RunM.advanceRound setup₂ reason) := by
  refine (change fun s₁ s₂ h => hstart s₁ s₂ (· + 1) id h).bind fun _ => .read fun s₁ s₂ h => ?_
  rw [hround s₁ s₂ h]
  have hflush : Abreast R bad (flushBefore setup₁ s₂.round) (flushBefore setup₂ s₂.round) := by
    refine .read fun t₁ t₂ ht => ?_
    rw [hledger t₁ t₂ ht]
    exact (change fun u₁ u₂ hu => hstart u₁ u₂ id (fun _ => (t₂.ledger.takeBefore s₂.round).2) hu
      ).bind fun _ => writeAll hwrite _
  exact hflush.bind fun _ => hemit _ _

end Actions

end Abreast

/-- The actions of two runs stay abreast. Both runs judge candidates alike, and both package again
or neither does. -/
structure ActionsAbreast (setup₁ setup₂ : Setup) (R bad : RunState → RunState → Prop) : Prop where
  classifier : setup₁.classifier = setup₂.classifier
  validator : setup₁.validator = setup₂.validator
  repackages : (setup₁.config.repackageOnRetry && !setup₁.config.concurrentForks) =
    (setup₂.config.repackageOnRetry && !setup₂.config.concurrentForks)
  step : ∀ slot, slot ≠ .package → Abreast R bad (step setup₁ slot) (step setup₂ slot)
  package : (setup₁.config.repackageOnRetry && !setup₁.config.concurrentForks) = true →
    Abreast R bad (RunM.step setup₁ .package) (RunM.step setup₂ .package)
  /-- An event may tell of the run and of the round. -/
  emit : ∀ s₁ s₂, R s₁ s₂ → ∀ event : String → Nat → Event, Abreast R bad
    (emit (event setup₁.runId s₁.round)) (emit (event setup₂.runId s₂.round))
  diagnose : ∀ name value, Abreast R bad (diagnose name value) (diagnose name value)
  direct : ∀ directive, Abreast R bad (direct directive) (direct directive)
  advanceRound : ∀ reason, Abreast R bad (advanceRound setup₁ reason) (advanceRound setup₂ reason)

namespace ActionsAbreast

variable {setup₁ setup₂ : Setup} {R bad : RunState → RunState → Prop}
  (h : ActionsAbreast setup₁ setup₂ R bad)

include h

theorem reviewedCandidate :
    Abreast R bad (reviewedCandidate setup₁) (reviewedCandidate setup₂) := by
  refine (h.step _ (by decide)).bind fun _ => (h.step _ (by decide)).bind fun script =>
    (h.step _ (by decide)).bind fun review => .read fun s₁ s₂ hs => ?_
  rw [h.classifier]
  refine (h.emit s₁ s₂ hs fun id round => .reviewed id round _).bind fun _ =>
    (h.diagnose _ _).bind fun _ => ?_
  split
  · exact .ret _
  · exact (h.diagnose _ _).bind fun _ => .ret _

theorem goBack (review script : String) :
    Abreast R bad (goBack setup₁ review script) (goBack setup₂ review script) := by
  refine (h.direct _).bind fun _ => (h.advanceRound _).bind fun _ =>
    (h.step _ (by decide)).bind fun _ => (h.step _ (by decide)).bind fun _ => ?_
  rw [← h.repackages]
  split
  · exact (h.package ‹_›).bind fun _ => .ret _
  · exact .ret _

theorem validated (script : String) :
    Abreast R bad (validated setup₁ script) (validated setup₂ script) := by
  refine .read fun s₁ s₂ hs => ?_
  rw [h.validator]
  exact (h.emit s₁ s₂ hs fun id round => .validated id round _ _).bind fun _ =>
    (h.diagnose _ _).bind fun _ => .ret _

theorem regenerate (verdict : Quality.Verdict) (script : String) :
    Abreast R bad (regenerate setup₁ verdict script) (regenerate setup₂ verdict script) :=
  (h.direct _).bind fun _ => (h.advanceRound _).bind fun _ =>
    (h.step _ (by decide)).bind fun _ => h.step _ (by decide)

/-- The budgets that are exhausted are told alike. -/
theorem exhausted (rejection : Rejection) (attempts : Nat) :
    Abreast R bad (RunM.emit (.budgetExhausted setup₁.runId rejection attempts))
      (RunM.emit (.budgetExhausted setup₂.runId rejection attempts)) :=
  fun s₁ s₂ hs => h.emit s₁ s₂ hs (fun id _ => .budgetExhausted id rejection attempts) s₁ s₂ hs

end ActionsAbreast

/-- The actions of two runs stay abreast, and they count attempts alike. -/
structure LoopsAbreast (setup₁ setup₂ : Setup) (R bad : RunState → RunState → Prop) : Prop extends
    ActionsAbreast setup₁ setup₂ R bad where
  budget : ∀ s₁ s₂, R s₁ s₂ → s₁.budget = s₂.budget
  countAttempt : ∀ rejection, Abreast R bad (countAttempt rejection) (countAttempt rejection)

namespace LoopsAbreast

variable {setup₁ setup₂ : Setup} {R bad : RunState → RunState → Prop}
  (h : LoopsAbreast setup₁ setup₂ R bad)

include h

theorem reviewLoop (spare : Nat) :
    Abreast R bad (reviewLoop setup₁ spare) (reviewLoop setup₂ spare) := by
  induction spare with
  | zero =>
    rw [RunM.reviewLoop, RunM.reviewLoop]
    refine (h.countAttempt _).bind fun attempts => h.reviewedCandidate.bind fun candidate => ?_
    obtain ⟨script, review?⟩ := candidate
    cases review? with
    | none => exact .ret _
    | some review => exact (h.exhausted _ _).bind fun _ => .ret _
  | succ spare ih =>
    rw [RunM.reviewLoop, RunM.reviewLoop]
    refine (h.countAttempt _).bind fun attempts => h.reviewedCandidate.bind fun candidate => ?_
    obtain ⟨script, review?⟩ := candidate
    cases review? with
    | none => exact .ret _
    | some review => exact (h.goBack _ _).bind fun _ => ih

theorem validationLoop (spare : Nat) (script : String) :
    Abreast R bad (validationLoop setup₁ spare script) (validationLoop setup₂ spare script) := by
  induction spare generalizing script with
  | zero =>
    rw [RunM.validationLoop, RunM.validationLoop]
    refine (h.countAttempt _).bind fun attempts => (h.validated script).bind fun verdict => ?_
    split
    · exact .ret _
    · exact (h.exhausted _ _).bind fun _ => .ret _
  | succ spare ih =>
    rw [RunM.validationLoop, RunM.validationLoop]
    refine (h.countAttempt _).bind fun attempts => (h.validated script).bind fun verdict => ?_
    split
    · exact .ret _
    · exact (h.regenerate _ _).bind fun next => ih next

/-- Generation forks whose actions stay abreast stay abreast. -/
theorem generation : Abreast R bad (generation setup₁) (generation setup₂) := by
  refine .read fun s₁ s₂ hs => ?_
  rw [h.budget s₁ s₂ hs]
  refine (h.reviewLoop _).bind fun reviewed => .read fun t₁ t₂ ht => ?_
  rw [h.budget t₁ t₂ ht]
  exact (h.validationLoop _ _).bind fun validated => .ret _

end LoopsAbreast

end RunM

end ScriptForge.Pipeline

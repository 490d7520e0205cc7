import ScriptForge.Proofs.Pipeline.Abreast

/-!
# Computations that end alike

`BothEnd m₁ m₂ s₁ s₂ post` says that two computations, each started in its own state, both end with
a value, and that `post` relates their values and states. `Alike R m₁ m₂` is what is left of it for
equal values and a relation `R` of states that the computations keep. Such computations stay abreast
(`alike_iff`), so what the actions of two runs keep, their generation forks keep
(`ActionsAlike.generation`).
-/

namespace ScriptForge.Pipeline

namespace RunM

variable {α β α' β' : Type}

/-- Both computations end with a value; `post` relates their values and states. -/
def BothEnd (m₁ : RunM α) (m₂ : RunM β) (s₁ s₂ : RunState)
    (post : α → β → RunState → RunState → Prop) : Prop :=
  ∃ a b s₁' s₂', m₁.run s₁ = (.ok a, s₁') ∧ m₂.run s₂ = (.ok b, s₂') ∧ post a b s₁' s₂'

theorem BothEnd.bind {m₁ : RunM α} {m₂ : RunM β} {f₁ : α → RunM α'} {f₂ : β → RunM β'}
    {s₁ s₂ : RunState} {post : α → β → RunState → RunState → Prop}
    {post' : α' → β' → RunState → RunState → Prop} (h : BothEnd m₁ m₂ s₁ s₂ post)
    (hf : ∀ a b s₁' s₂', post a b s₁' s₂' → BothEnd (f₁ a) (f₂ b) s₁' s₂' post') :
    BothEnd (m₁ >>= f₁) (m₂ >>= f₂) s₁ s₂ post' := by
  obtain ⟨a, b, t₁, t₂, h₁, h₂, hpost⟩ := h
  obtain ⟨a', b', u₁, u₂, h₁', h₂', hpost'⟩ := hf a b t₁ t₂ hpost
  exact ⟨a', b', u₁, u₂, (run_bind_of_ok h₁).trans h₁', (run_bind_of_ok h₂).trans h₂', hpost'⟩

/-- Started in states that `R` relates, both computations end with the same value in such states. -/
def Alike (R : RunState → RunState → Prop) (m₁ m₂ : RunM α) : Prop :=
  ∀ s₁ s₂, R s₁ s₂ → BothEnd m₁ m₂ s₁ s₂ fun a b s₁' s₂' => a = b ∧ R s₁' s₂'

/-- Computations that end alike stay abreast, and neither ends with an error. -/
theorem alike_iff {m₁ m₂ : RunM α} {R : RunState → RunState → Prop} :
    Alike R m₁ m₂ ↔ Abreast R (fun _ _ => False) m₁ m₂ := by
  constructor
  · intro h s₁ s₂ hs
    obtain ⟨a, _, s₁', s₂', h₁, h₂, rfl, hs'⟩ := h s₁ s₂ hs
    rw [h₁, h₂]
    exact .ok a hs'
  · intro h s₁ s₂ hs
    rcases hrun : m₁.run s₁ with ⟨error | a, s₁'⟩
    · obtain ⟨-, -, hnone⟩ := h.exists_of_run_error hs hrun
      exact hnone.elim
    · obtain ⟨s₂', hrun₂, hs'⟩ := h.exists_of_run_ok hs hrun
      exact ⟨a, a, s₁', s₂', hrun, hrun₂, rfl, hs'⟩

/-- The actions of two runs keep `R`. Both runs judge candidates alike, and neither packages
again. -/
structure ActionsAlike (setup₁ setup₂ : Setup) (R : RunState → RunState → Prop) : Prop where
  classifier : setup₁.classifier = setup₂.classifier
  validator : setup₁.validator = setup₂.validator
  packagesOnce₁ : (setup₁.config.repackageOnRetry && !setup₁.config.concurrentForks) = false
  packagesOnce₂ : (setup₂.config.repackageOnRetry && !setup₂.config.concurrentForks) = false
  budget : ∀ s₁ s₂, R s₁ s₂ → s₁.budget = s₂.budget
  step : ∀ slot, slot ≠ .package → Alike R (step setup₁ slot) (step setup₂ slot)
  emit : ∀ event₁ event₂, Alike R (emit event₁) (emit event₂)
  diagnose : ∀ name value, Alike R (diagnose name value) (diagnose name value)
  countAttempt : ∀ rejection, Alike R (countAttempt rejection) (countAttempt rejection)
  direct : ∀ directive, Alike R (direct directive) (direct directive)
  advanceRound : ∀ reason, Alike R (advanceRound setup₁ reason) (advanceRound setup₂ reason)

namespace ActionsAlike

variable {setup₁ setup₂ : Setup} {R : RunState → RunState → Prop} (h : ActionsAlike setup₁ setup₂ R)

include h

theorem loopsAbreast : LoopsAbreast setup₁ setup₂ R fun _ _ => False where
  classifier := h.classifier
  validator := h.validator
  repackages := h.packagesOnce₁.trans h.packagesOnce₂.symm
  step slot hslot := alike_iff.mp (h.step slot hslot)
  package hrepackages := by
    rw [h.packagesOnce₁] at hrepackages
    cases hrepackages
  emit _ _ _ _ := alike_iff.mp (h.emit _ _)
  diagnose name value := alike_iff.mp (h.diagnose name value)
  direct directive := alike_iff.mp (h.direct directive)
  advanceRound reason := alike_iff.mp (h.advanceRound reason)
  budget := h.budget
  countAttempt rejection := alike_iff.mp (h.countAttempt rejection)

/-- What the actions of two runs keep, their generation forks keep. -/
theorem generation : Alike R (generation setup₁) (generation setup₂) :=
  alike_iff.mpr h.loopsAbreast.generation

end ActionsAlike

end RunM

end ScriptForge.Pipeline

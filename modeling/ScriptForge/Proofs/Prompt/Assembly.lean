import ScriptForge.Prompt.Stage

/-!
# Assembled stages

Each of the stages that are made from a catalog sits in the slot that it was made for. Reading the
prompt files of a slot may fail, and so may reading its template; then there are no stages at all.
If both succeed for each slot, then there are stages, with what was read (`exists_assembly`).
-/

namespace ScriptForge.Prompt

open Pipeline

/-! ## Taking an assembly apart -/

section Apart

variable {α β ε σ : Type}

theorem exceptT_bind_eq_ok {x : ExceptT ε Id α} {f : α → ExceptT ε Id β} {b : β} :
    (x >>= f).run = .ok b ↔ ∃ a, x.run = .ok a ∧ (f a).run = .ok b := by
  rw [ExceptT.run_bind]
  constructor
  · intro h
    rcases hx : x.run with error | a
    · rw [hx] at h
      cases h
    · rw [hx] at h
      exact ⟨a, rfl, h⟩
  · rintro ⟨a, hx, hf⟩
    rw [hx]
    exact hf

theorem stateT_bind_eq_ok {x : StateT σ (ExceptT ε Id) α} {f : α → StateT σ (ExceptT ε Id) β}
    {s s' : σ} {b : β} :
    ((x >>= f).run s).run = .ok (b, s') ↔
      ∃ a t, (x.run s).run = .ok (a, t) ∧ ((f a).run t).run = .ok (b, s') := by
  rw [StateT.run_bind, exceptT_bind_eq_ok]
  exact Prod.exists

end Apart

/-- Each stage sits in its slot. -/
def Assembly.InPlace (assembly : Assembly) : Prop :=
  ∀ slot, (assembly.stages.get slot).slot = slot

variable {files : FileReader Id} {catalog : Catalog}

theorem slot_of_addStage {slot : Slot} {renderer renderer' : Renderer} {stage : PromptStage}
    (h : ((addStage files catalog slot).run renderer).run = .ok (stage, renderer')) :
    stage.slot = slot := by
  obtain ⟨resolved, -, h⟩ := exceptT_bind_eq_ok.mp h
  split at h
  · cases h
    rfl
  · cases h

theorem inPlace_of_assemble {assembly : Assembly}
    (h : (assemble files catalog).run = .ok assembly) : assembly.InPlace := by
  obtain ⟨⟨stages, renderer⟩, hstages, h⟩ := exceptT_bind_eq_ok.mp h
  cases h
  obtain ⟨identify, _, hidentify, hstages⟩ := stateT_bind_eq_ok.mp hstages
  obtain ⟨encapsulate, _, hencapsulate, hstages⟩ := stateT_bind_eq_ok.mp hstages
  obtain ⟨package, _, hpackage, hstages⟩ := stateT_bind_eq_ok.mp hstages
  obtain ⟨generate, _, hgenerate, hstages⟩ := stateT_bind_eq_ok.mp hstages
  obtain ⟨combine, _, hcombine, hstages⟩ := stateT_bind_eq_ok.mp hstages
  obtain ⟨review, _, hreview, hstages⟩ := stateT_bind_eq_ok.mp hstages
  cases hstages
  intro slot
  cases slot with
  | identify => exact slot_of_addStage hidentify
  | encapsulate => exact slot_of_addStage hencapsulate
  | package => exact slot_of_addStage hpackage
  | generate => exact slot_of_addStage hgenerate
  | combine => exact slot_of_addStage hcombine
  | review => exact slot_of_addStage hreview

/-! ## Putting an assembly together -/

/-- Both the prompt files and the template of a slot can be read. -/
def Readable (files : FileReader Id) (catalog : Catalog) (slot : Slot) (resolved : Resolved)
    (parts : List Template.Part) : Prop :=
  (catalog.resolve files slot).run = .ok resolved ∧
    Template.parse? resolved.spec.template.toList = some parts

theorem addStage_eq_ok {slot : Slot} {resolved : Resolved} {parts : List Template.Part}
    (h : Readable files catalog slot resolved parts) (renderer : Renderer) :
    ((addStage files catalog slot).run renderer).run =
      .ok (.ofResolved slot resolved, renderer.set slot parts) := by
  obtain ⟨hresolved, hparts⟩ := h
  have hadapted : ((catalog.resolve files slot).adapt ConfigError.stage).run = .ok resolved :=
    congrArg (Except.mapError ConfigError.stage) hresolved
  refine exceptT_bind_eq_ok.mpr ⟨resolved, hadapted, ?_⟩
  rw [Renderer.register, hparts]
  rfl

/-- What each slot needs is read, so there are stages: each with its prompt files and template. -/
theorem exists_assembly {resolved : Slot → Resolved} {parts : Slot → List Template.Part}
    (h : ∀ slot, Readable files catalog slot (resolved slot) (parts slot)) :
    ∃ assembly, (assemble files catalog).run = .ok assembly ∧ ∀ slot,
      assembly.stages.get slot = .ofResolved slot (resolved slot) ∧
        assembly.renderer.get? slot = some (parts slot) := by
  have hstep := fun slot => addStage_eq_ok (h slot)
  have hstages : ∃ stages renderer,
      (((StageSet.mapM (addStage files catalog)).run SlotMap.empty).run =
        .ok (stages, renderer)) ∧ ∀ slot, stages.get slot = .ofResolved slot (resolved slot) ∧
          renderer.get? slot = some (parts slot) := by
    refine ⟨_, _, stateT_bind_eq_ok.mpr ⟨_, _, hstep .identify _, stateT_bind_eq_ok.mpr
      ⟨_, _, hstep .encapsulate _, stateT_bind_eq_ok.mpr ⟨_, _, hstep .package _,
        stateT_bind_eq_ok.mpr ⟨_, _, hstep .generate _, stateT_bind_eq_ok.mpr
          ⟨_, _, hstep .combine _, stateT_bind_eq_ok.mpr ⟨_, _, hstep .review _, rfl⟩⟩⟩⟩⟩⟩, ?_⟩
    intro slot
    cases slot <;> exact ⟨rfl, rfl⟩
  obtain ⟨stages, renderer, hset, hslots⟩ := hstages
  exact ⟨⟨renderer, stages⟩, exceptT_bind_eq_ok.mpr ⟨(stages, renderer), hset, rfl⟩, hslots⟩

end ScriptForge.Prompt

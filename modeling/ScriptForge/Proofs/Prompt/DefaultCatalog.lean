import ScriptForge.Proofs.Prompt.Assembly
import ScriptForge.Proofs.Template.Sections
import ScriptForge.Prompt.DefaultCatalog
import Mathlib.Tactic.Choose

/-!
# The stages of the built-in catalog

Everything that the built-in catalog names can be read, so there are stages for it whatever files
there are (`exists_builtin_assembly`). The template of the generating stage is the text of the stage
before and two sections: the hints and the feedback, each with a heading (`parse?_generate`).
-/

namespace ScriptForge.Prompt

open Pipeline Builtin

variable {files : FileReader Id}

theorem toList_unlines (lines : List String) :
    (unlines lines).toList = lines.flatMap fun line => line.toList ++ ['\n'] := by
  simp [unlines, String.toList_join, List.flatMap_map]

/-! ## Prompt files -/

theorem isSome_generateExamples :
    ((Json.read? generateExamples).bind (Json.items? Example.ofJson?)).isSome = true := by
  rw [Json.read?, generateExamples, toList_unlines]
  simp only [List.flatMap_cons, List.flatMap_nil, String.toList_append, String.reduceToList]
  decide +kernel

theorem isSome_reviewExamples :
    ((Json.read? reviewExamples).bind (Json.items? Example.ofJson?)).isSome = true := by
  rw [Json.read?, reviewExamples, toList_unlines]
  simp only [List.flatMap_cons, List.flatMap_nil, String.toList_append, String.reduceToList]
  decide +kernel

theorem exists_examplesOf {text : String}
    (h : ((Json.read? text).bind (Json.items? Example.ofJson?)).isSome = true) (name : String) :
    ∃ examples, examplesOf name text = .ok examples := by
  obtain ⟨examples, hexamples⟩ := Option.isSome_iff_exists.mp h
  exact ⟨examples, by rw [examplesOf, hexamples]⟩

/-- A slot with worked examples is resolved if both of its files can be read. -/
theorem resolve_eq_ok {catalog : Catalog} {slot : Slot} {name systemText text : String}
    {examples : List Example} (hname : (catalog.specs.get slot).examplesFile = some name)
    (hsystem : (catalog.source.read files (catalog.specs.get slot).promptFile).run =
      .ok systemText)
    (htext : (catalog.source.read files name).run = .ok text)
    (hexamples : examplesOf name text = .ok examples) :
    (catalog.resolve files slot).run = .ok ⟨catalog.specs.get slot, systemText, examples⟩ := by
  refine exceptT_bind_eq_ok.mpr ⟨systemText, hsystem, ?_⟩
  rw [hname]
  refine exceptT_bind_eq_ok.mpr ⟨text, htext, exceptT_bind_eq_ok.mpr ⟨examples, ?_, rfl⟩⟩
  rw [hexamples]
  rfl

theorem spec_of_resolve {catalog : Catalog} {slot : Slot} {resolved : Resolved}
    (h : (catalog.resolve files slot).run = .ok resolved) :
    resolved.spec = catalog.specs.get slot := by
  obtain ⟨systemText, -, h⟩ := exceptT_bind_eq_ok.mp h
  split at h
  · cases h
    rfl
  · obtain ⟨text, -, h⟩ := exceptT_bind_eq_ok.mp h
    obtain ⟨examples, -, h⟩ := exceptT_bind_eq_ok.mp h
    cases h
    rfl

namespace DefaultCatalog

theorem exists_resolved (files : FileReader Id) (slot : Slot) :
    ∃ resolved, (catalog.resolve files slot).run = .ok resolved := by
  cases slot with
  | generate =>
    obtain ⟨examples, hexamples⟩ := exists_examplesOf isSome_generateExamples _
    exact ⟨_, resolve_eq_ok rfl rfl rfl hexamples⟩
  | review =>
    obtain ⟨examples, hexamples⟩ := exists_examplesOf isSome_reviewExamples _
    exact ⟨_, resolve_eq_ok rfl rfl rfl hexamples⟩
  | _ => exact ⟨_, rfl⟩

/-! ## Templates -/

/-- The template of the generating stage, as it is rendered. -/
def generateParts : List Template.Part := [
  .value (Template.fieldPath "main"),
  .text ['\n'],
  Template.guarded "aux" "\nAuxiliary info:\n".toList,
  .text [],
  Template.guarded "feedback" "\nRegeneration feedback:\n".toList,
  .text []]

theorem parse?_generate :
    Template.parse? catalog.specs.generate.template.toList = some generateParts := by
  have htext : catalog.specs.generate.template.toList =
      (mainLines ++ hintLines ++ feedbackLines).flatMap fun line => line.toList ++ ['\n'] :=
    toList_unlines _
  rw [htext]
  rfl

theorem exists_parts (slot : Slot) :
    ∃ parts, Template.parse? (catalog.specs.get slot).template.toList = some parts := by
  have hlines : ∀ lines ∈ [mainLines ++ hintLines, mainLines ++ hintLines ++ serviceLines,
      mainLines ++ sourceLines ++ hintLines],
      ∃ parts, Template.parse? (unlines lines).toList = some parts := by
    simp only [toList_unlines, ← Option.isSome_iff_exists]
    decide +kernel
  cases slot with
  | identify | encapsulate | package => exact hlines (mainLines ++ hintLines) (by simp)
  | generate => exact ⟨generateParts, parse?_generate⟩
  | combine => exact hlines (mainLines ++ hintLines ++ serviceLines) (by simp)
  | review => exact hlines (mainLines ++ sourceLines ++ hintLines) (by simp)

/-- There are stages for the built-in catalog, and the generating one has its template. -/
theorem exists_builtin_assembly (files : FileReader Id) :
    ∃ assembly, (assemble files catalog).run = .ok assembly ∧
      (assembly.stages.get .generate).usesFeedback = true ∧
      assembly.renderer.get? .generate = some generateParts := by
  choose resolved hresolved using exists_resolved files
  choose parts hparts using exists_parts
  have hspec := fun slot => spec_of_resolve (hresolved slot)
  obtain ⟨assembly, hassembled, hslots⟩ := exists_assembly fun slot =>
    ⟨hresolved slot, (congrArg (fun spec => Template.parse? spec.template.toList)
      (hspec slot)).trans (hparts slot)⟩
  obtain ⟨hstage, htemplate⟩ := hslots .generate
  refine ⟨assembly, hassembled, ?_, ?_⟩
  · rw [hstage]
    exact congrArg Spec.usesFeedback (hspec .generate)
  · rw [htemplate, ← hparts .generate]
    exact parse?_generate

end DefaultCatalog

end ScriptForge.Prompt

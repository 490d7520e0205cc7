import ScriptForge.Proofs.Prompt.DefaultCatalog
import ScriptForge.Proofs.Prompt.Inputs
import ScriptForge.Proofs.Text.Trim

/-!
# The prompt of the generating stage

With the built-in catalog the generating stage is asked with the text of the stage before, the hints
if there are any and the feedback if there is a directive (`prompt_of_generation`). All texts are
passed on as they are but for the blanks at their ends, so what looks like a template in them stays
as it is, and what is said of a rejected candidate reaches the stage in full.
-/

namespace ScriptForge.Prompt

open Pipeline

/-! ## What is said of a rejected candidate -/

/-- The heading in front of the error. -/
def errorHeading (rejection : Rejection) : String :=
  "===== " ++ feedbackHeading rejection ++ " =====\n"

/-- The rejected candidate with its heading. -/
def candidateSection : Option String → String
  | none => ""
  | some script => "===== Previous script =====\n" ++ Text.trimmed script ++ "\n\n"

theorem candidateSection_some (script : String) : candidateSection (some script) =
    "===== Previous script =====\n" ++ Text.trimmed script ++ "\n\n" := rfl

/-- What is to be checked. -/
def advice (rejection : Rejection) : String :=
  "Fix the problems above. In particular check:\n" ++ numbered (checklist rejection)

variable {directive : Directive}

theorem feedback_eq (directive : Directive) : feedback directive =
    errorHeading directive.rejection ++ Text.trimmed directive.error ++ "\n\n" ++
      candidateSection directive.previousScript ++ advice directive.rejection := by
  obtain ⟨rejection, error, previous⟩ := directive
  unfold advice
  rw [← String.append_assoc]
  cases previous <;> rfl

theorem toList_trimmed (text : String) : (Text.trimmed text).toList = Text.trim text.toList :=
  String.toList_ofList

theorem mem_toList_errorHeading (rejection : Rejection) :
    '=' ∈ (errorHeading rejection).toList := by
  unfold errorHeading
  rw [String.toList_append]
  exact List.mem_append_right _ (by simp)

theorem mem_toList_advice (rejection : Rejection) : 'F' ∈ (advice rejection).toList := by
  unfold advice
  rw [String.toList_append]
  exact List.mem_append_left _ (by simp)

theorem feedback_encloses_error (directive : Directive) :
    Text.Encloses (feedback directive).toList (Text.trim directive.error.toList) := by
  refine ⟨(errorHeading directive.rejection).toList, ("\n\n" ++
    candidateSection directive.previousScript ++ advice directive.rejection).toList, ?_,
    ⟨'=', mem_toList_errorHeading _, by decide⟩, ⟨'F', ?_, by decide⟩⟩
  · rw [feedback_eq]
    simp only [String.toList_append, toList_trimmed, List.append_assoc]
  · rw [String.toList_append]
    exact List.mem_append_right _ (mem_toList_advice _)

theorem feedback_encloses_script {script : String} (h : directive.previousScript = some script) :
    Text.Encloses (feedback directive).toList (Text.trim script.toList) := by
  refine ⟨(errorHeading directive.rejection ++ (Text.trimmed directive.error ++ "\n\n" ++
    "===== Previous script =====\n")).toList, ("\n\n" ++ advice directive.rejection).toList, ?_,
    ⟨'=', ?_, by decide⟩, ⟨'F', ?_, by decide⟩⟩
  · rw [feedback_eq, h, candidateSection_some]
    simp only [String.toList_append, toList_trimmed, List.append_assoc]
  · rw [String.toList_append]
    exact List.mem_append_left _ (mem_toList_errorHeading _)
  · rw [String.toList_append]
    exact List.mem_append_right _ (mem_toList_advice _)

/-- A text conveys why a candidate was rejected: the error and the candidate are in it, without the
blanks at their ends. -/
def Conveys (text : String) (directive : Directive) : Prop :=
  Text.trim directive.error.toList <:+: text.toList ∧
    ∀ script, directive.previousScript = some script →
      Text.trim script.toList <:+: text.toList

/-! ## The prompt -/

/-- The hints with their heading; nothing if they are blank. -/
def hintSection (auxiliary : String) : String :=
  if Text.trimmed auxiliary = "" then ""
  else "\nAuxiliary info:\n" ++ Text.trimmed auxiliary ++ "\n"

/-- The feedback with its heading; nothing without a directive. -/
def feedbackSection : Option Directive → String
  | none => ""
  | some directive => "\nRegeneration feedback:\n" ++ feedback directive ++ "\n"

theorem feedbackSection_some (directive : Directive) : feedbackSection (some directive) =
    "\nRegeneration feedback:\n" ++ feedback directive ++ "\n" := rfl

/-- The prompt of the generating stage. -/
def generationPrompt (main auxiliary : String) (directive : Option Directive) : String :=
  Text.trimmed (main ++ "\n" ++ hintSection auxiliary ++ feedbackSection directive)

theorem generationPrompt_conveys (main auxiliary : String) (directive : Directive) :
    Conveys (generationPrompt main auxiliary (some directive)) directive := by
  have hcarries : ∀ body, Text.Encloses (feedback directive).toList body →
      body <:+: (generationPrompt main auxiliary (some directive)).toList := by
    intro body hbody
    unfold generationPrompt
    rw [toList_trimmed, feedbackSection_some]
    refine Text.Encloses.infix_trim ?_
    have hwhole := hbody.append (main ++ "\n" ++ hintSection auxiliary ++
      "\nRegeneration feedback:\n").toList "\n".toList
    simpa only [String.toList_append, List.append_assoc] using hwhole
  exact ⟨hcarries _ (feedback_encloses_error directive),
    fun script hscript => hcarries _ (feedback_encloses_script hscript)⟩

/-! ## Rendering the prompt -/

/-- The field of the feedback. -/
def feedbackField : Option Directive → Json
  | none => .null
  | some directive => .str (feedback directive)

theorem render_hints {fields : List (String × Json)} {auxiliary : String}
    (h : Template.fieldOf fields "aux" = .str (Text.trimmed auxiliary)) :
    Template.renderPart (Template.outermost (.obj fields))
      (Template.guarded "aux" "\nAuxiliary info:\n".toList) =
        some (hintSection auxiliary).toList := by
  rw [Template.renderPart_guarded rfl, h]
  unfold hintSection
  by_cases hempty : Text.trimmed auxiliary = ""
  · rw [if_pos hempty, hempty]
    rfl
  · have hholds : Template.holds false (.str (Text.trimmed auxiliary)) = true := by
      simpa [Template.holds] using hempty
    rw [if_neg hempty, if_pos hholds]
    simp only [Template.valueText, String.toList_append, List.append_assoc]
    rfl

theorem feedback_ne_empty (directive : Directive) : feedback directive ≠ "" := by
  intro hempty
  obtain ⟨front, back, htext, ⟨c, hc, -⟩, -⟩ := feedback_encloses_error directive
  rw [hempty] at htext
  have hmem : c ∈ "".toList := htext ▸ List.mem_append_left _ hc
  exact List.not_mem_nil hmem

theorem render_feedback {fields : List (String × Json)} {directive : Option Directive}
    (h : Template.fieldOf fields "feedback" = feedbackField directive) :
    Template.renderPart (Template.outermost (.obj fields))
      (Template.guarded "feedback" "\nRegeneration feedback:\n".toList) =
        some (feedbackSection directive).toList := by
  rw [Template.renderPart_guarded rfl, h]
  cases directive with
  | none => rfl
  | some directive =>
    have hholds : Template.holds false (feedbackField (some directive)) = true := by
      simpa [feedbackField, Template.holds] using feedback_ne_empty directive
    rw [if_pos hholds, feedbackSection_some]
    simp only [feedbackField, Template.valueText, String.toList_append, List.append_assoc]
    rfl

theorem render_generateParts {fields : List (String × Json)} {main auxiliary : String}
    {directive : Option Directive} (hmain : Template.fieldOf fields "main" = .str main)
    (haux : Template.fieldOf fields "aux" = .str (Text.trimmed auxiliary))
    (hfeedback : Template.fieldOf fields "feedback" = feedbackField directive) :
    Template.render? DefaultCatalog.generateParts (.obj fields) =
      some (main ++ "\n" ++ hintSection auxiliary ++ feedbackSection directive).toList := by
  have htext : Template.renderPart (Template.outermost (.obj fields))
      (.value (Template.fieldPath "main")) = some main.toList := by
    rw [Template.renderPart_field rfl, hmain]
    rfl
  have hparts := Template.renderParts_cons htext (Template.renderParts_cons
    (Template.renderPart_text _ ['\n']) (Template.renderParts_cons (render_hints haux)
      (Template.renderParts_cons (Template.renderPart_text _ []) (Template.renderParts_cons
        (render_feedback hfeedback) (Template.renderParts_cons (Template.renderPart_text _ [])
          (Template.renderParts_nil _))))))
  rw [Template.render?_eq]
  refine hparts.trans (congrArg some ?_)
  simp [String.toList_append]

/-! ## Asking with the prompt -/

/-- What the template of the generating stage is given. -/
theorem exists_generation_fields {stage : PromptStage} (hslot : stage.slot = .generate)
    (hfeedback : stage.usesFeedback = true) (main : String) (call : Call) :
    ∃ fields, stage.dataOn main call = .obj fields ∧
      Template.fieldOf fields "main" = .str main ∧
      Template.fieldOf fields "aux" = .str (Text.trimmed call.context.auxiliary) ∧
      Template.fieldOf fields "feedback" = feedbackField call.directive := by
  obtain ⟨slot, name, model, systemPrompt, usesFeedback⟩ := stage
  cases hslot
  cases hfeedback
  refine ⟨_, rfl, ?_⟩
  unfold PromptStage.furtherData
  cases call.directive <;> exact ⟨rfl, rfl, rfl⟩

/-- **The prompt of the generating stage.** The stages of the built-in catalog can be assembled, and
the generating one is asked with the output of the encapsulating one, the hints if they are not
blank and the feedback if there is a directive, whatever these texts hold. The error and the
rejected candidate of each directive are in the prompt. -/
theorem prompt_of_generation (files : FileReader Id) :
    ∃ assembly, (assemble files DefaultCatalog.catalog).run = .ok assembly ∧
      ∀ call main, call.slot = .generate → call.context.output? .encapsulate = some main →
        ∃ request, assembly.request call = .ok request ∧
          request.userMessage = Text.trimmed (main ++ "\n" ++
            hintSection call.context.auxiliary ++ feedbackSection call.directive) ∧
          ∀ directive, call.directive = some directive →
            Conveys request.userMessage directive := by
  obtain ⟨assembly, hassembled, hfeedback, htemplate⟩ :=
    DefaultCatalog.exists_builtin_assembly files
  refine ⟨assembly, hassembled, fun call main hslot hmain => ?_⟩
  have hplace := inPlace_of_assemble hassembled
  have hwork : workedOn call.context call.slot = .ok main := by
    rw [hslot, workedOn, Context.require, hmain]
  obtain ⟨fields, hfields, hdata⟩ :=
    exists_generation_fields (hplace .generate) hfeedback main call
  have hrender : assembly.renderer.render .generate
      ((assembly.stages.get .generate).dataOn main call) =
        .ok (generationPrompt main call.context.auxiliary call.directive) := by
    rw [Renderer.render, htemplate, hfields, Option.bind_some,
      render_generateParts hdata.1 hdata.2.1 hdata.2.2]
    rfl
  have hrequest := hplace.request_eq hwork
  rw [hslot, hrender] at hrequest
  refine ⟨_, hrequest, rfl, fun directive hdirective => ?_⟩
  rw [hdirective]
  exact generationPrompt_conveys main call.context.auxiliary directive

/-- Texts that look like parts of a template are passed on as they are. -/
theorem prompt_of_braces :
    let main := "\x7b\x7baux\x7d\x7d\n\x7b\x7b#if main\x7d\x7d"
    let input : RunInput := { code := "fn main() \x7b\x7d", auxiliary := " \x7b\x7b/if\x7d\x7d\n" }
    let context := (Context.ofInput input).setOutput .encapsulate main
    let directive : Directive :=
      ⟨.validation, "\x7b\x7b! \n", some "\nservice \x7b\x7bmain\x7d\x7d"⟩
    ∃ assembly, (assemble emptyFiles DefaultCatalog.catalog).run = .ok assembly ∧
      (∃ request, assembly.request ⟨.generate, [], context, none⟩ = .ok request ∧
        request.userMessage = main ++ "\n\nAuxiliary info:\n\x7b\x7b/if\x7d\x7d") ∧
      ∃ request, assembly.request ⟨.generate, [], context, some directive⟩ = .ok request ∧
        "\x7b\x7b!".toList <:+: request.userMessage.toList ∧
        "service \x7b\x7bmain\x7d\x7d".toList <:+: request.userMessage.toList := by
  intro main input context directive
  have herror : Text.trim directive.error.toList = "\x7b\x7b!".toList := by decide +kernel
  have hscript : Text.trim "\nservice \x7b\x7bmain\x7d\x7d".toList =
      "service \x7b\x7bmain\x7d\x7d".toList := by decide +kernel
  obtain ⟨assembly, hassembled, hprompts⟩ := prompt_of_generation emptyFiles
  obtain ⟨first, hfirst, hmessage, -⟩ := hprompts ⟨.generate, [], context, none⟩ main rfl rfl
  obtain ⟨second, hsecond, -, hconveys⟩ :=
    hprompts ⟨.generate, [], context, some directive⟩ main rfl rfl
  obtain ⟨htold, hshown⟩ := hconveys directive rfl
  refine ⟨assembly, hassembled, ⟨first, hfirst, hmessage.trans (by decide +kernel)⟩,
    second, hsecond, herror ▸ htold, hscript ▸ hshown _ rfl⟩

end ScriptForge.Prompt

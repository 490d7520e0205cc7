import ScriptForge.Proofs.Pipeline.Candidate

/-!
# The contexts of a run

A stage reads the latest outputs, the named diagnostics and the records of the executions so far.
These are three separate parts of the context; `Coherent` says how they belong together, and it is
kept by the only ways in which the context of a run changes (`Reaches.context_induction`).

Beside the usages, the diagnostics tell of the last review, the last review that failed and the last
validation (`Notes`). A review that has been returned is not told of before it has been judged, so
what they tell depends on the point (`Reaches.noted`, `Reaches.validated`).
-/

namespace ScriptForge.Pipeline

open Json

/-! ## Coherence -/

namespace Context

/-- The record of the last execution of a slot. -/
def lastRecord? (context : Context) (slot : Slot) : Option Record :=
  (context.history.filter (·.slot = slot)).getLast?

/-- The usage that is noted for a slot. -/
def usage? (context : Context) (slot : Slot) : Option Json :=
  context.diagnostics.get? ("usage." ++ slot.id)

/-- The context after the output of an execution has been entered. -/
def entered (context : Context) (slot : Slot) (round latency : Nat) (output : StageOutput) :
    Context :=
  (context.setOutput slot output.text).record (.ofOutput slot round latency output)

/-- The outputs and the noted usages are those of the last records. -/
structure Coherent (context : Context) : Prop where
  output : ∀ slot, (context.output? slot).map Digest.fingerprint =
    (context.lastRecord? slot).map Record.outputHash
  usage : ∀ slot, context.usage? slot =
    (context.lastRecord? slot).map fun record => record.usage.toJson

end Context

theorem Diagnostics.get?_set (diagnostics : Diagnostics) (name other : String) (value : Json) :
    (diagnostics.set name value).get? other =
      if other = name then some value else diagnostics.get? other := by
  induction diagnostics with
  | nil => simp [set, get?, @eq_comm _ name]
  | cons entry rest ih =>
    obtain ⟨key, old⟩ := entry
    by_cases hname : key = name
    · subst hname
      by_cases hother : key = other
      · simp [set, get?, hother]
      · simp [set, get?, hother, Ne.symm hother]
    · by_cases hother : key = other
      · subst hother
        simp [set, get?, hname]
      · simp [set, get?, hname, hother, ih]

theorem Slot.usage_id_inj {slot other : Slot} (h : "usage." ++ slot.id = "usage." ++ other.id) :
    slot = other := by
  revert h
  cases slot <;> cases other <;> decide

/-- The diagnostics that are not about the usage of a slot. -/
def verdictNames : List String :=
  ["review.passed", "review.feedback", "validation.errors"]

theorem Slot.usage_not_mem (slot : Slot) : "usage." ++ slot.id ∉ verdictNames := by
  cases slot <;> decide

namespace Context

variable (context : Context) {slot other : Slot}

theorem lastRecord?_entered (round latency : Nat) (output : StageOutput) :
    (context.entered slot round latency output).lastRecord? other =
      if other = slot then some (.ofOutput slot round latency output)
      else context.lastRecord? other := by
  change ((context.history ++ [Record.ofOutput slot round latency output]).filter
    (·.slot = other)).getLast? = _
  by_cases h : other = slot
  · subst h
    simp
  · simp [lastRecord?, h, Ne.symm h]

theorem output?_entered (round latency : Nat) (output : StageOutput) :
    (context.entered slot round latency output).output? other =
      if other = slot then some output.text else context.output? other :=
  SlotMap.get?_set ..

theorem diagnostics_entered (name : String) (round latency : Nat) (output : StageOutput) :
    (context.entered slot round latency output).diagnostics.get? name =
      if name = "usage." ++ slot.id then some output.usage.toJson
      else context.diagnostics.get? name :=
  Diagnostics.get?_set ..

theorem usage?_entered (round latency : Nat) (output : StageOutput) :
    (context.entered slot round latency output).usage? other =
      if other = slot then some output.usage.toJson else context.usage? other := by
  rw [usage?, diagnostics_entered]
  by_cases h : other = slot
  · subst h
    rw [if_pos rfl, if_pos rfl]
  · rw [if_neg h, if_neg fun hname => h (Slot.usage_id_inj hname)]
    rfl

namespace Coherent

theorem ofInput (input : RunInput) : (Context.ofInput input).Coherent where
  output slot := by cases slot <;> rfl
  usage slot := rfl

variable {context}

theorem entered (h : context.Coherent) (slot : Slot) (round latency : Nat) (output : StageOutput) :
    (context.entered slot round latency output).Coherent where
  output other := by
    rw [output?_entered, lastRecord?_entered]
    split
    · rfl
    · exact h.output other
  usage other := by
    rw [usage?_entered, lastRecord?_entered]
    split
    · rfl
    · exact h.usage other

theorem diagnose (h : context.Coherent) {name : String} (hname : name ∈ verdictNames)
    (value : Json) : (context.diagnose name value).Coherent where
  output := h.output
  usage slot := by
    change (context.diagnostics.set name value).get? _ = _
    have hother : "usage." ++ slot.id ≠ name := by
      rintro rfl
      exact slot.usage_not_mem hname
    rw [Diagnostics.get?_set, if_neg hother]
    exact h.usage slot

/-- A slot has an output if there is a record of it, and only then. -/
theorem output?_isSome_iff (h : context.Coherent) (slot : Slot) :
    (context.output? slot).isSome ↔ ∃ record ∈ context.history, record.slot = slot := by
  rw [← Option.isSome_map (f := Digest.fingerprint), h.output, Option.isSome_map, lastRecord?,
    Option.isSome_iff_ne_none, ne_eq, List.getLast?_eq_none_iff, List.filter_eq_nil_iff]
  simp

end Coherent

end Context

/-! ## The contexts of a run -/

theorem RunState.stepped_context (s : RunState) (setup : Setup) (slot : Slot)
    (output : StageOutput) : (s.stepped setup slot output).context =
      s.context.entered slot s.round (setup.stages (s.stepCall slot)).delay output := by
  cases slot <;> rfl

theorem RunState.checked_context (s : RunState) (setup : Setup) (script : String) :
    (s.checked setup script).context = s.context.diagnose "validation.errors"
      (.ofList .str (setup.validator.validate script).errors) := rfl

/-- The context after a review has been judged. -/
def Context.judged (context : Context) (setup : Setup) (review : String) : Context :=
  let verdict := setup.classifier review
  let context := context.diagnose "review.passed" (.bool verdict.passed)
  if verdict.passed then context else context.diagnose "review.feedback" (.str review)

theorem RunState.judged_context (s : RunState) (setup : Setup) (review : String) :
    (s.judged setup review).context = s.context.judged setup review := by
  unfold judged Context.judged
  cases setup.classifier review <;> rfl

/-- The context of a run changes when a stage returns, and when a diagnostic is replaced that is not
about a usage. -/
theorem Reaches.context_induction {setup : Setup} {input : RunInput} (property : Context → Prop)
    (hstart : property (.ofInput input))
    (hentered : ∀ context slot round latency output, property context →
      property (context.entered slot round latency output))
    (hnoted : ∀ context, ∀ name ∈ verdictNames, ∀ value, property context →
      property (context.diagnose name value))
    {p : Point} {s : RunState} (h : Reaches setup input p s) : property s.context := by
  have hjudged : ∀ context review, property context →
      property (Context.judged context setup review) := by
    intro context review hcontext
    have hpassed := hnoted context "review.passed" (by decide)
      (.bool (setup.classifier review).passed) hcontext
    rw [Context.judged]
    split
    · exact hpassed
    · exact hnoted _ "review.feedback" (by decide) _ hpassed
  induction h with
  | start => exact hstart
  | step h hcalls hreturned ih =>
    rw [RunState.stepped_context]
    exact hentered _ _ _ _ _ ih
  | pass h hverdict ih | fail h hverdict ih =>
    rw [RunState.judged_context]
    exact hjudged _ _ ih
  | accept h hvalid ih | refuse h hvalid ih =>
    rw [RunState.checked_context]
    exact hnoted _ _ (by decide) _ ih
  | _ => assumption

namespace Reaches

variable {setup : Setup} {input : RunInput} {p : Point} {s : RunState}

/-- The context keeps the input. -/
theorem input_eq (h : Reaches setup input p s) :
    s.context.code = input.code ∧ s.context.auxiliary = input.auxiliary :=
  h.context_induction
    (fun context => context.code = input.code ∧ context.auxiliary = input.auxiliary) ⟨rfl, rfl⟩
    (fun _ _ _ _ _ hcontext => hcontext) fun _ _ _ _ hcontext => hcontext

theorem coherent (h : Reaches setup input p s) : s.context.Coherent :=
  h.context_induction Context.Coherent (.ofInput input)
    (fun _ _ _ _ _ hcontext => hcontext.entered _ _ _ _)
    fun _ _ hname _ hcontext => hcontext.diagnose hname _

end Reaches

/-! ## What the diagnostics tell -/

/-- The errors that the validations have found. -/
def Trace.validations (trace : Trace) : List (List String) :=
  trace.events.filterMap fun
    | .validated _ _ _ errors => some errors
    | _ => none

@[simp] theorem Trace.validations_append (first second : Trace) :
    validations (first ++ second) = first.validations ++ second.validations := by
  simp [validations]

/-- The diagnostics of a context tell of the last review, of the last review that failed and of the
last validation. -/
structure Notes (setup : Setup) (reviews : List String) (validations : List (List String))
    (context : Context) : Prop where
  passed : context.diagnostics.get? "review.passed" =
    reviews.getLast?.map fun review => .bool (setup.classifier review).passed
  feedback : context.diagnostics.get? "review.feedback" =
    (reviews.filter (setup.classifier · = .fail)).getLast?.map .str
  errors : context.diagnostics.get? "validation.errors" =
    validations.getLast?.map (.ofList .str)

namespace Notes

variable {setup : Setup} {reviews : List String} {validations : List (List String)}
  {context : Context}

theorem entered (h : Notes setup reviews validations context) (slot : Slot) (round latency : Nat)
    (output : StageOutput) :
    Notes setup reviews validations (context.entered slot round latency output) := by
  have hother : ∀ name ∈ verdictNames,
      (context.entered slot round latency output).diagnostics.get? name =
        context.diagnostics.get? name := by
    intro name hname
    rw [Context.diagnostics_entered, if_neg]
    rintro rfl
    exact slot.usage_not_mem hname
  exact {
    passed := (hother _ (by decide)).trans h.passed
    feedback := (hother _ (by decide)).trans h.feedback
    errors := (hother _ (by decide)).trans h.errors }

theorem judged (h : Notes setup reviews validations context) (review : String) :
    Notes setup (reviews ++ [review]) validations (context.judged setup review) := by
  cases hverdict : setup.classifier review with
  | pass =>
    have hcontext :
        context.judged setup review = context.diagnose "review.passed" (.bool true) := by
      rw [Context.judged, hverdict]
      rfl
    rw [hcontext]
    exact {
      passed := by simp [Context.diagnose, Diagnostics.get?_set, hverdict, ReviewVerdict.passed]
      feedback := by simp [Context.diagnose, Diagnostics.get?_set, hverdict, h.feedback]
      errors := by simp [Context.diagnose, Diagnostics.get?_set, h.errors] }
  | fail =>
    have hcontext : context.judged setup review =
        (context.diagnose "review.passed" (.bool false)).diagnose "review.feedback"
          (.str review) := by
      rw [Context.judged, hverdict]
      rfl
    rw [hcontext]
    exact {
      passed := by simp [Context.diagnose, Diagnostics.get?_set, hverdict, ReviewVerdict.passed]
      feedback := by simp [Context.diagnose, Diagnostics.get?_set, hverdict]
      errors := by simp [Context.diagnose, Diagnostics.get?_set, h.errors] }

theorem checked (h : Notes setup reviews validations context) (errors : List String) :
    Notes setup reviews (validations ++ [errors])
      (context.diagnose "validation.errors" (.ofList .str errors)) where
  passed := by simp [Context.diagnose, Diagnostics.get?_set, h.passed]
  feedback := by simp [Context.diagnose, Diagnostics.get?_set, h.feedback]
  errors := by simp [Context.diagnose, Diagnostics.get?_set]

end Notes

namespace Point

/-- The review that has been returned and is judged next. -/
def unjudged : Point → List String
  | .judge _ _ text => [text]
  | _ => []

theorem Calls.unjudged_next {config : Config} {p : Point} {slot : Slot} {next : String → Point}
    (h : p.Calls config slot next) (text : String) :
    p.unjudged = [] ∧ (next text).unjudged = if slot = .review then [text] else [] := by
  cases h with
  | encapsulate k => cases k <;> simp only [encapsulated] <;> split <;> exact ⟨rfl, rfl⟩
  | _ => exact ⟨rfl, rfl⟩

end Point

/-- The reviews that have been judged up to a point, and what the diagnostics tell there. -/
structure Noted (setup : Setup) (p : Point) (s : RunState) (reviews : List String) : Prop where
  texts : s.trace.texts setup.stages .review = reviews ++ p.unjudged
  verdicts : s.trace.verdicts = reviews.map setup.classifier
  notes : Notes setup reviews s.trace.validations s.context

namespace Noted

variable {setup : Setup} {p q : Point} {s s' : RunState} {reviews : List String}

/-- Something happens that is about neither a review nor a validation. -/
theorem append (h : Noted setup p s reviews) {more : Trace} (htrace : s'.trace = s.trace ++ more)
    (hcalls : more.texts setup.stages .review = []) (hverdicts : more.verdicts = [])
    (hvalidations : more.validations = []) (hcontext : s'.context = s.context)
    (hunjudged : q.unjudged = p.unjudged) : Noted setup q s' reviews where
  texts := by rw [htrace, Trace.texts_append, hcalls, List.append_nil, h.texts, hunjudged]
  verdicts := by rw [htrace, Trace.verdicts_append, hverdicts, List.append_nil, h.verdicts]
  notes := by
    rw [htrace, Trace.validations_append, hvalidations, List.append_nil, hcontext]
    exact h.notes

theorem stepped (h : Noted setup p s reviews) {slot : Slot} {next : String → Point}
    (hcalls : p.Calls setup.config slot next) {output : StageOutput}
    (hreturned : (setup.stages (s.stepCall slot)).result = .ok output) :
    Noted setup (next output.text) (s.stepped setup slot output) reviews := by
  obtain ⟨hbefore, hafter⟩ := hcalls.unjudged_next output.text
  have htext := Reply.text?_of_ok hreturned
  have htexts := h.texts
  rw [hbefore, List.append_nil] at htexts
  exact {
    texts := by
      rw [hafter, ← htexts]
      by_cases hslot : slot = .review
      · subst hslot
        simp [Trace.texts, htext]
      · simp [Trace.texts, hslot]
    verdicts := by
      rw [← h.verdicts]
      simp [Trace.verdicts]
    notes := by
      have hvalidations : (s.stepped setup slot output).trace.validations =
          s.trace.validations := by
        simp [Trace.validations]
      rw [hvalidations, RunState.stepped_context]
      exact h.notes.entered _ _ _ _ }

theorem judged {k : Nat} {script review : String}
    (h : Noted setup (.judge k script review) s reviews) (hunjudged : q.unjudged = []) :
    Noted setup q (s.judged setup review) (reviews ++ [review]) where
  texts := by
    have htexts : (s.judged setup review).trace.texts setup.stages .review =
        s.trace.texts setup.stages .review := by
      simp [Trace.texts]
    rw [htexts, h.texts, hunjudged, List.append_nil]
    rfl
  verdicts := by
    rw [RunState.judged_trace, Trace.verdicts_append, h.verdicts, List.map_append]
    rfl
  notes := by
    have hvalidations : (s.judged setup review).trace.validations = s.trace.validations := by
      simp [Trace.validations]
    rw [hvalidations, RunState.judged_context]
    exact h.notes.judged review

theorem checked (h : Noted setup p s reviews) (script : String)
    (hunjudged : q.unjudged = p.unjudged) : Noted setup q (s.checked setup script) reviews where
  texts := by
    rw [hunjudged, ← h.texts]
    simp [Trace.texts]
  verdicts := by
    rw [← h.verdicts]
    simp [Trace.verdicts]
  notes := by
    rw [RunState.checked_trace, Trace.validations_append, RunState.checked_context]
    exact h.notes.checked _

end Noted

theorem Reaches.noted {setup : Setup} {input : RunInput} {p : Point} {s : RunState}
    (h : Reaches setup input p s) : ∃ reviews, Noted setup p s reviews := by
  induction h with
  | start => exact ⟨[], rfl, rfl, rfl, rfl, rfl⟩
  | step h hcalls hreturned ih =>
    obtain ⟨reviews, hnoted⟩ := ih
    exact ⟨reviews, hnoted.stepped hcalls hreturned⟩
  | @fork s h ih =>
    obtain ⟨reviews, hnoted⟩ := ih
    exact ⟨reviews, hnoted.append (s.forked_trace setup) (by simp [Trace.texts]) rfl rfl rfl rfl⟩
  | draft h ih =>
    obtain ⟨reviews, hnoted⟩ := ih
    exact ⟨reviews, hnoted.append (List.append_nil _).symm rfl rfl rfl rfl rfl⟩
  | @pass k script review s h hcond ih | @fail k script review s h hcond ih =>
    obtain ⟨reviews, hnoted⟩ := ih
    exact ⟨reviews ++ [review], hnoted.judged rfl⟩
  | exhaust h hcond ih | keep h hcond ih =>
    obtain ⟨reviews, hnoted⟩ := ih
    exact ⟨reviews, hnoted.append (RunState.happened_trace _ _) rfl rfl rfl rfl rfl⟩
  | accept h hcond ih | refuse h hcond ih =>
    obtain ⟨reviews, hnoted⟩ := ih
    exact ⟨reviews, hnoted.checked _ rfl⟩
  | @goBack k script review s h hcond ih =>
    obtain ⟨reviews, hnoted⟩ := ih
    obtain ⟨more, htrace, hcalls, hevents⟩ := s.exists_retried_trace setup (.ofReview script review)
    exact ⟨reviews, hnoted.append htrace (by simp [Trace.texts, hcalls])
      (by simp [Trace.verdicts, hevents]) (by simp [Trace.validations, hevents]) rfl rfl⟩
  | @redraft passed k m script s h hcond ih =>
    obtain ⟨reviews, hnoted⟩ := ih
    obtain ⟨more, htrace, hcalls, hevents⟩ := s.exists_retried_trace setup (.ofVerdict script _)
    exact ⟨reviews, hnoted.append htrace (by simp [Trace.texts, hcalls])
      (by simp [Trace.verdicts, hevents]) (by simp [Trace.validations, hevents]) rfl rfl⟩

namespace Point

/-- What is known at a point of the errors `last` that the last validation has found. -/
def Validated (setup : Setup) (outputs : SlotMap String) (last : Option (List String)) :
    Point → Prop
  | .invalid _ _ _ script => last = some (setup.validator.validate script).errors
  | .regenerate _ _ _ | .recombine _ _ _ => ∃ script, outputs.get? .combine = some script ∧
    last = some (setup.validator.validate script).errors
  | .validate _ _ _ _ | .settled _ _ _ _ _ => True
  | _ => last = none

variable {setup : Setup} {outputs : SlotMap String} {last : Option (List String)} {p : Point}
  {slot : Slot} {next : String → Point}

theorem Calls.validated_next (h : p.Calls setup.config slot next)
    (hvalidated : p.Validated setup outputs last) (text : String) :
    (next text).Validated setup (outputs.set slot text) last := by
  cases h with
  | encapsulate k => cases k <;> simp only [encapsulated] <;> split <;> exact hvalidated
  | regenerate passed k m =>
    obtain ⟨script, hscript, hlast⟩ := hvalidated
    exact ⟨script, (SlotMap.get?_set_of_ne _ (by decide) _).trans hscript, hlast⟩
  | recombine passed k m => trivial
  | _ => exact hvalidated

/-- Where a stage is called, the last validation was one of the last script. -/
theorem Calls.validated (h : p.Calls setup.config slot next)
    (hvalidated : p.Validated setup outputs last) : ∀ errors ∈ last, ∃ script,
      outputs.get? .combine = some script ∧ errors = (setup.validator.validate script).errors := by
  rintro errors rfl
  cases h with
  | regenerate passed k m | recombine passed k m =>
    obtain ⟨script, hscript, hlast⟩ := hvalidated
    exact ⟨script, hscript, Option.some.inj hlast⟩
  | _ => cases hvalidated

end Point

theorem Reaches.validated {setup : Setup} {input : RunInput} {p : Point} {s : RunState}
    (h : Reaches setup input p s) :
    p.Validated setup s.context.outputs s.trace.validations.getLast? := by
  induction h with
  | start => rfl
  | @step p s slot next output h hcalls hreturned ih =>
    have hvalidations : (s.stepped setup slot output).trace.validations = s.trace.validations := by
      simp [Trace.validations]
    rw [hvalidations, RunState.stepped_outputs]
    exact hcalls.validated_next ih _
  | @fork s h ih =>
    have hvalidations : (s.forked setup).trace.validations = s.trace.validations := by
      simp [Trace.validations]
    rw [hvalidations]
    exact ih
  | draft h ih => exact ih
  | @fail k script review s h hverdict ih =>
    have hvalidations : (s.judged setup review).trace.validations = s.trace.validations := by
      simp [Trace.validations]
    rw [hvalidations]
    exact ih
  | @goBack k script review s h hcap ih =>
    have hvalidations : (s.retried setup (.ofReview script review)).trace.validations =
        s.trace.validations := by
      simp [Trace.validations]
    rw [hvalidations]
    exact ih
  | @refuse passed k m script s h hvalid ih =>
    rw [RunState.checked_trace, Trace.validations_append]
    simp [Point.Validated, Trace.validations]
  | @redraft passed k m script s h hcap ih =>
    have hvalidations : (s.retried setup (.ofVerdict script
        (setup.validator.validate script))).trace.validations = s.trace.validations := by
      simp [Trace.validations]
    rw [hvalidations]
    exact ⟨script, h.knows.1, ih⟩
  | _ => trivial

end ScriptForge.Pipeline

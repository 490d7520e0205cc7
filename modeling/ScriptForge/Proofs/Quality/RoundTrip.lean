import ScriptForge.Proofs.Pipeline.RoundTrip
import ScriptForge.Proofs.Script.RoundTrip
import ScriptForge.Quality.Validator

/-!
# Verdicts, scripts and records read back from JSON

Findings and verdicts are read back from their written form as long as lines are numbers of 64 bits.
The last theorem puts them beside scripts and the records of a run: no encoding loses anything, and
who works on what was read again finds what there was before it was written.
-/

namespace ScriptForge.Quality

open Json

/-! ## Verdicts -/

@[simp] theorem Check.ofName?_name (check : Check) : ofName? check.name = some check := by
  cases check <;> rfl

@[simp] theorem Engine.ofName?_name (engine : Engine) : ofName? engine.name = some engine := by
  cases engine <;> rfl

/-- The line, if there is one, is a number of 64 bits. -/
def Finding.Fits (finding : Finding) : Prop :=
  ∀ line ∈ finding.line, line < UInt64.size

theorem Finding.restores : Restores toJson ofJson? Fits := by
  intro finding hfits
  have hsuggestion : ∀ suggestion ∈ finding.suggestion,
      Json.str suggestion ≠ .null ∧ string? (.str suggestion) = some suggestion :=
    fun suggestion _ => ⟨Json.noConfusion, rfl⟩
  have hline : ∀ line ∈ finding.line, Json.nat line ≠ .null ∧ word64? (.nat line) = some line :=
    fun line hline => ⟨Json.noConfusion, word64?_nat (hfits line hline)⟩
  refine record?_obj ?_
  rw [field_bind rfl (Check.ofName?_name finding.check),
    field_bind rfl (string?_str finding.message),
    run_bind (optional_named rfl hsuggestion), run_bind (optional_named rfl hline)]
  rfl

/-- The lines of the findings are numbers of 64 bits. -/
def Verdict.Fits (verdict : Verdict) : Prop :=
  ∀ finding ∈ verdict.findings, finding.Fits

theorem Verdict.restores : Restores toJson ofJson? Fits := by
  intro verdict hfits
  refine record?_obj ?_
  rw [field_bind rfl (bool?_bool verdict.valid), field_bind rfl (items?_strings verdict.errors),
    field_bind rfl (items?_strings verdict.suggestions),
    field_bind rfl (Finding.restores.list verdict.findings hfits),
    field_bind rfl (Engine.ofName?_name verdict.engine)]
  rfl

/-! ## Everything that is written -/

open Pipeline

/-- A subscriber that is sent written events and reads each of them receives what it would have
received if it had been sent the events. -/
theorem receive_written (channel : Channel Event) (subscriber : Nat)
    (h : ∀ event ∈ channel.sent, event.Fits) :
    ((channel.map Event.toJson).receive subscriber).bind (fun (received, next) =>
        (received.decode? Event.ofJson?).map fun received => (received, next)) =
      (channel.receive subscriber).map fun (received, next) =>
        (received, next.map Event.toJson) := by
  rw [Channel.receive_map]
  cases hreceive : channel.receive subscriber with
  | none => rfl
  | some outcome =>
    obtain ⟨received, next⟩ := outcome
    cases received with
    | message event =>
      have hread := Event.restores event (h event (Channel.mem_sent_of_receive hreceive))
      simp [Received.map, Received.decode?, hread]
    | _ => rfl

/-- Whatever is written as JSON is read back as it was, as long as its numbers are of the size that
is read, and no two values are written alike. The checks and the walk find the same in a script that
was read again, and a subscriber that is sent written events receives the same. -/
theorem all_faithful :
    Faithful Script.toJson Script.ofJson? Script.Fits ∧
    Faithful Event.toJson Event.ofJson? Event.Fits ∧
    Faithful RoundStats.toJson RoundStats.ofJson? RoundStats.Fits ∧
    Faithful Record.toJson Record.ofJson? Record.Fits ∧
    Faithful Directive.toJson Directive.ofJson? (fun _ => True) ∧
    Faithful Outcome.toJson Outcome.ofJson? Outcome.Fits ∧
    Faithful Budget.toJson Budget.ofJson? Budget.Fits ∧
    Faithful Config.toJson Config.ofJson? Config.Fits ∧
    Faithful Finding.toJson Finding.ofJson? Finding.Fits ∧
    Faithful Verdict.toJson Verdict.ofJson? Verdict.Fits ∧
    (∀ script : Script, script.Fits →
      (Script.ofJson? script.toJson).map analyze = some (analyze script) ∧
      (Script.ofJson? script.toJson).map Script.visits = some script.visits) ∧
    ∀ (channel : Channel Event) (subscriber : Nat), (∀ event ∈ channel.sent, event.Fits) →
      ((channel.map Event.toJson).receive subscriber).bind (fun (received, next) =>
          (received.decode? Event.ofJson?).map fun received => (received, next)) =
        (channel.receive subscriber).map fun (received, next) =>
          (received, next.map Event.toJson) := by
  refine ⟨Script.restores.faithful, Event.restores.faithful, RoundStats.restores.faithful,
    Record.restores.faithful, Restores.faithful fun directive _ => directive.restores,
    Outcome.restores.faithful, Budget.restores.faithful, Config.restores.faithful,
    Finding.restores.faithful, Verdict.restores.faithful, fun script hfits => ⟨?_, ?_⟩,
    fun channel subscriber hfits => ?_⟩
  · exact Script.restores.map_eq hfits analyze
  · exact Script.restores.map_eq hfits Script.visits
  · exact receive_written channel subscriber hfits

/-- A script in which a call stands in the arguments of another one, and an event with all kinds of
numbers, are read back. -/
theorem nested_call_read_back :
    let script : Script := ⟨"order-rpc", [⟨.returns (.call ⟨"crm", "exe", "join"⟩
      [.call ⟨"crm", "dll", "load"⟩ [.reference ⟨"order", ["customer", "id"], ⟨2, 30⟩⟩],
        .literal ⟨.string, "\"eu\""⟩]), "return ...", true, ⟨2, 5⟩⟩]⟩
    let event : Event := .stageFinished "run" .review 2 40 ⟨5, 6, 11⟩
    script.Fits ∧ Script.ofJson? script.toJson = some script ∧
      event.Fits ∧ Event.ofJson? event.toJson = some event := by
  intro script event
  have hscript : script.Fits := by
    simp [script, Script.Fits, Script.Statement.Fits, Script.StatementKind.Fits,
      Script.Position.Fits, Script.StatementKind.references, Script.Expression.references,
      Script.argumentReferences, UInt64.size]
  have hevent : event.Fits := ⟨by decide, by decide, by decide, by decide, by decide⟩
  obtain ⟨hscripts, hevents, -⟩ := all_faithful
  exact ⟨hscript, hscripts.restores script hscript, hevent, hevents.restores event hevent⟩

end ScriptForge.Quality

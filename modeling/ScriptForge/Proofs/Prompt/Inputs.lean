import ScriptForge.Proofs.Pipeline.Sees
import ScriptForge.Proofs.Prompt.Assembly

/-!
# What prompt stages work on

A prompt stage works on the source code or on the output of the stage before it (`upstream?`). The
order in which a run calls its stages, over both loops and in both fork modes, makes sure that this
output is there and that it is not stale: `Fed` says which text a prompt is filled in with and from
which round it stems. So a prompt stage never misses its input; a run fails for a missing input only
where the client itself says so (`missing_input_of_client`).
-/

namespace ScriptForge.Pipeline

/-! ## The last record of a slot -/

/-- The latest round that a review has started. In it the source was read last. -/
def sourceRound (events : List Event) : Nat :=
  (((events.filterMap Event.advance?).filter (·.1 = .review)).map Prod.snd).getLast?.getD 1

theorem Rejection.filter_inTurn (k m : Nat) :
    ((inTurn k m).zipIdx 2).filter (·.1 = .review) =
      (List.replicate k Rejection.review).zipIdx 2 := by
  rw [inTurn, List.zipIdx_append, List.filter_append, List.filter_eq_self.mpr,
    List.filter_eq_nil_iff.mpr, List.append_nil]
  · rintro ⟨rejection, round⟩ hmem
    have hvalidation : rejection = .validation :=
      List.eq_of_mem_replicate (List.fst_mem_of_mem_zipIdx hmem)
    simp [hvalidation]
  · rintro ⟨rejection, round⟩ hmem
    have hreview : rejection = .review :=
      List.eq_of_mem_replicate (List.fst_mem_of_mem_zipIdx hmem)
    simp [hreview]

theorem Tells.sourceRound_eq {config : Config} {p : Point} {events : List Event}
    (h : Tells config p events) : sourceRound events = p.back + 1 := by
  rw [sourceRound, h.advances, Rejection.filter_inTurn, List.zipIdx_map_snd,
    List.length_replicate, List.getLast?_range']
  cases p.back with
  | zero => rfl
  | succ k => exact Nat.add_comm 2 _

/-- The last record of a slot that has run is one of the last round in which it has run, and it has
the fingerprint of the slot's output. -/
theorem Reaches.exists_lastRecord {setup : Setup} {input : RunInput} {p : Point} {s : RunState}
    (h : Reaches setup input p s) {slot : Slot} (hran : 0 < p.ran setup.config slot) :
    ∃ text record, s.context.output? slot = some text ∧
      s.context.lastRecord? slot = some record ∧
      record.outputHash = Digest.fingerprint text ∧ record.round = p.ran setup.config slot := by
  obtain ⟨text, htext⟩ := h.exists_output hran
  have hhash := h.coherent.output slot
  rw [htext] at hhash
  obtain ⟨record, hrecord, hfingerprint⟩ := Option.map_eq_some_iff.mp hhash.symm
  have hround : (roundsOf slot s.context.history).getLast? = some record.round := by
    rw [roundsOf, List.getLast?_map]
    exact congrArg (Option.map Record.round) hrecord
  rw [h.history_rounds, List.getLast?_range', if_neg (by omega)] at hround
  refine ⟨text, record, htext, hrecord, hfingerprint, ?_⟩
  have hlast := Option.some.inj hround
  omega

end ScriptForge.Pipeline

namespace ScriptForge.Prompt

open Pipeline

/-! ## The stage before a stage -/

/-- The slot whose output the stage of a slot works on. The identifying stage works on the source
code. -/
def upstream? : Slot → Option Slot
  | .identify => none
  | .encapsulate => some .identify
  | .package | .generate => some .encapsulate
  | .combine => some .generate
  | .review => some .combine

theorem workedOn_eq (context : Context) (slot : Slot) : workedOn context slot =
    match upstream? slot with
    | none => .ok context.code
    | some up => context.require up := by
  cases slot <;> rfl

/-- The round in which a slot has run last, where rounds have started as some events tell. The
identifying and the encapsulating stage run when the source is read, the others in each round. -/
def lastRoundOf (events : List Event) : Slot → Nat
  | .identify | .encapsulate => sourceRound events
  | _ => latestRound events

/-- Where a stage is called, the stage before it has run, in the last round in which it should. -/
theorem ran_upstream {config : Config} {p : Point} {slot up : Slot} {next : String → Point}
    (h : p.Calls config slot next) (hup : upstream? slot = some up) {events : List Event}
    (htells : Tells config p events) :
    0 < p.ran config up ∧ p.ran config up = lastRoundOf events up := by
  have hsource := htells.sourceRound_eq
  have hlatest := htells.latestRound_eq
  cases h <;> cases hup
  all_goals
    simp only [lastRoundOf, hsource, hlatest]
    simp [Point.ran, Point.tally, Point.back, Point.again, Point.round]

/-! ## What a prompt is filled in with -/

/-- The text that a stage should work on: the source code, or what the last call of the stage before
it has returned. -/
def freshest? (stages : Stages) (input : RunInput) (slot : Slot) (before : Trace) :
    Option String :=
  match upstream? slot with
  | none => some input.code
  | some up => before.lastText? stages up

/-- The data that the template of a stage is given when it works on a text. -/
def PromptStage.dataOn (stage : PromptStage) (text : String) (call : Call) : Json :=
  .obj (("main", .str text) :: stage.furtherData call.context call.directive)

/-- What a stage asks the chat model with a prompt. -/
def PromptStage.asking (stage : PromptStage) (prompt : String) : Chat.Request :=
  ⟨stage.model, stage.systemPrompt, prompt, stage.name⟩

/-- The prompt of a call is filled in with the freshest text. -/
structure Fed (assembly : Assembly) (client : Client) (setup : Setup) (input : RunInput)
    (before : Trace) (call : Call) : Prop where
  /-- The prompt is rendered from the freshest text. The last record of the stage before is that of
  this text, and of the last round in which that stage should have run. -/
  main : ∃ text, freshest? setup.stages input call.slot before = some text ∧
    assembly.request call = (assembly.renderer.render call.slot
      ((assembly.stages.get call.slot).dataOn text call)).map
        (assembly.stages.get call.slot).asking ∧
    ∀ up, upstream? call.slot = some up → ∃ record, call.context.lastRecord? up = some record ∧
      record.outputHash = Digest.fingerprint text ∧
      record.round = lastRoundOf (before.ownEvents setup.config) up
  /-- A call of the main fork is one of the latest round. -/
  round : setup.config.beside call.slot = false →
    (before.ownEvents setup.config).getLast? = some
      (.stageStarted setup.runId call.slot (latestRound (before.ownEvents setup.config)))
  /-- A packaging stage that runs in a fork of its own is called in the first round. -/
  beside : setup.config.concurrentForks = true → call.slot = .package →
    before.slots = [.identify, .encapsulate] ∧ sourceRound (before.ownEvents setup.config) = 1
  /-- No input is missing unless the client says so. -/
  missing : ∀ up, (setup.stages call).result = .error (.missingInput up) →
    ∃ request, assembly.request call = .ok request ∧
      (client call.earlier request).result = .error (.missingInput up)

theorem Assembly.InPlace.request_eq {assembly : Assembly} (h : assembly.InPlace) {call : Call}
    {text : String} (hwork : workedOn call.context call.slot = .ok text) :
    assembly.request call = (assembly.renderer.render call.slot
      ((assembly.stages.get call.slot).dataOn text call)).map
        (assembly.stages.get call.slot).asking := by
  have hdata : (assembly.stages.get call.slot).data call.context call.directive =
      .ok ((assembly.stages.get call.slot).dataOn text call) := by
    rw [PromptStage.data, h, hwork]
    rfl
  rw [request, PromptStage.request, hdata, h]
  rfl

/-- A prompt that cannot be rendered is no missing input. -/
theorem Renderer.render_ne_missingInput (renderer : Renderer) (slot up : Slot) (data : Json) :
    renderer.render slot data ≠ .error (.missingInput up) := by
  unfold render
  split <;> simp [failure]

/-- A stage that has its input misses none unless the client says so. -/
theorem Assembly.InPlace.exists_request {assembly : Assembly} (h : assembly.InPlace)
    {client : Client} {call : Call} {text : String}
    (hwork : workedOn call.context call.slot = .ok text) {up : Slot}
    (hmissing : (assembly.run client call).result = .error (.missingInput up)) :
    ∃ request, assembly.request call = .ok request ∧
      (client call.earlier request).result = .error (.missingInput up) := by
  have hrequest := h.request_eq hwork
  cases hrender : assembly.renderer.render call.slot
      ((assembly.stages.get call.slot).dataOn text call) with
  | ok prompt =>
    rw [hrender] at hrequest
    rw [Assembly.run, hrequest] at hmissing
    exact ⟨_, hrequest, hmissing⟩
  | error error =>
    rw [hrender] at hrequest
    rw [Assembly.run, hrequest] at hmissing
    obtain rfl : error = .missingInput up := Except.error.inj hmissing
    exact absurd hrender (assembly.renderer.render_ne_missingInput _ _ _)

/-! ## The prompts of a run -/

section Runs

variable {assembly : Assembly} {client : Client} {setup : Setup} {input : RunInput}

/-- What a stage works on where it is called. -/
theorem exists_work {p : Point} {s : RunState} {slot : Slot} (h : Reaches setup input p s)
    (hran : ∀ up, upstream? slot = some up → 0 < p.ran setup.config up ∧
      p.ran setup.config up = lastRoundOf (s.trace.ownEvents setup.config) up) :
    ∃ text, freshest? setup.stages input slot s.trace = some text ∧
      workedOn s.context slot = .ok text ∧
      ∀ up, upstream? slot = some up → ∃ record, s.context.lastRecord? up = some record ∧
        record.outputHash = Digest.fingerprint text ∧
        record.round = lastRoundOf (s.trace.ownEvents setup.config) up := by
  rw [freshest?, workedOn_eq]
  cases hup : upstream? slot with
  | none => exact ⟨input.code, rfl, congrArg Except.ok h.input_eq.1, by simp⟩
  | some up =>
    obtain ⟨hpos, hround⟩ := hran up hup
    obtain ⟨text, record, htext, hrecord, hhash, hlast⟩ := h.exists_lastRecord hpos
    have hbeside : setup.config.beside up = false := by
      cases slot <;> cases hup <;> exact setup.config.beside_of_ne (by decide)
    refine ⟨text, ?_, ?_, ?_⟩
    · exact (h.output?_eq hbeside).symm.trans htext
    · simp only [Context.require, htext]
    · rintro _ ⟨⟩
      exact ⟨record, hrecord, hhash, hlast.trans hround⟩

/-- The rounds in which slots have run last depend on the rounds that have started. -/
theorem lastRoundOf_congr {events events' : List Event}
    (h : events.filterMap Event.advance? = events'.filterMap Event.advance?) (slot : Slot) :
    lastRoundOf events slot = lastRoundOf events' slot := by
  cases slot <;> simp only [lastRoundOf, sourceRound, latestRound, h]

theorem advances_announced (s : RunState) (setup : Setup) (slot : Slot) :
    ((s.announced setup slot).trace.ownEvents setup.config).filterMap Event.advance? =
      (s.trace.ownEvents setup.config).filterMap Event.advance? := by
  by_cases hslot : setup.config.beside slot <;>
    simp [RunState.announced_trace, Trace.ownEvents, Event.beside, Event.slot?, hslot,
      Event.advance?]

theorem freshest?_announced (stages : Stages) (input : RunInput) (s : RunState) (setup : Setup)
    (slot : Slot) : freshest? stages input slot (s.announced setup slot).trace =
      freshest? stages input slot s.trace := by
  simp [freshest?, Trace.lastText?, RunState.announced_trace]

/-- Where a stage is called whose stage before has run in the last round in which it should, the
prompt is filled in with the freshest text. -/
theorem Fed.of_reaches (hplace : assembly.InPlace) (hstages : setup.stages = assembly.run client)
    {p : Point} {s : RunState} {slot : Slot} (h : Reaches setup input p s)
    (hran : ∀ up, upstream? slot = some up → 0 < p.ran setup.config up ∧
      p.ran setup.config up = lastRoundOf (s.trace.ownEvents setup.config) up)
    (hbeside : setup.config.concurrentForks = true → slot = .package →
      s.trace.slots = [.identify, .encapsulate] ∧
        sourceRound (s.trace.ownEvents setup.config) = 1) :
    Fed assembly client setup input (s.announced setup slot).trace (s.stepCall slot) := by
  obtain ⟨text, htext, hwork, hrecord⟩ := exists_work h hran
  have hadvances := advances_announced s setup slot
  exact {
    main := by
      refine ⟨text, (freshest?_announced ..).trans htext, hplace.request_eq hwork, ?_⟩
      intro up hup
      obtain ⟨record, hlast, hhash, hround⟩ := hrecord up hup
      exact ⟨record, hlast, hhash, hround.trans (lastRoundOf_congr hadvances.symm up)⟩
    round := by
      intro hown
      change setup.config.beside slot = false at hown
      have hevents : (s.announced setup slot).trace.ownEvents setup.config =
          s.trace.ownEvents setup.config ++ [.stageStarted setup.runId slot s.round] := by
        simp [RunState.announced_trace, Trace.ownEvents, Event.beside, Event.slot?, hown]
      have hlatest : latestRound ((s.announced setup slot).trace.ownEvents setup.config) =
          s.round := by
        rw [latestRound, hadvances, h.round_eq]
        exact h.shows.own.latestRound_eq
      rw [hlatest, hevents, List.getLast?_concat]
      rfl
    beside := by
      intro htogether hslot
      obtain ⟨hslots, hsource⟩ := hbeside htogether hslot
      refine ⟨?_, ?_⟩
      · rw [← hslots]
        exact s.happened_emitted_slots _
      · rw [sourceRound, hadvances]
        exact hsource
    missing := by
      intro up hmissing
      rw [hstages] at hmissing
      exact hplace.exists_request hwork hmissing }

/-- When the packaging stage returns makes no difference to what the other prompts are filled in
with. -/
theorem Fed.insert {first rest : Trace} {call : Call}
    (h : Fed assembly client setup input (first ++ rest) call)
    (htogether : setup.config.concurrentForks = true) (time round latency : Nat) (usage : Usage) :
    Fed assembly client setup input (first ++ ⟨time, .emitted
      (.stageFinished setup.runId .package round latency usage)⟩ :: rest) call := by
  generalize hmore : (⟨time, .emitted (.stageFinished setup.runId .package round latency usage)⟩ ::
    rest : Trace) = more
  have hcalls : Trace.calls (first ++ more) = Trace.calls (first ++ rest) := by
    simp [← hmore]
  have hown : Trace.ownEvents setup.config (first ++ more) =
      Trace.ownEvents setup.config (first ++ rest) := by
    simp [← hmore, Trace.ownEvents, Event.beside, Event.slot?, Config.beside, htogether]
  exact {
    main := by
      simp only [freshest?, Trace.lastText?, hcalls, hown]
      exact h.main
    round := by
      rw [hown]
      exact h.round
    beside := by
      rw [hown, Trace.slots, hcalls]
      exact h.beside
    missing := h.missing }

theorem calling_fed (hplace : assembly.InPlace) (hstages : setup.stages = assembly.run client) :
    Calling setup input (Fed assembly client setup input) where
  step := by
    intro p s slot next h hcalls
    refine .of_reaches hplace hstages h (fun up hup => ran_upstream hcalls hup h.shows.own) ?_
    rintro htogether rfl
    have hbeside := hcalls.not_beside h.fits
    simp [Config.beside, htogether] at hbeside
  fork := by
    intro s h
    have hsource : sourceRound (s.trace.ownEvents setup.config) = 1 := h.shows.own.sourceRound_eq
    refine .of_reaches hplace hstages h ?_ fun _ _ => ⟨h.snapshot.slots_eq, hsource⟩
    rintro up ⟨⟩
    exact ⟨Nat.one_pos, hsource.symm⟩
  joined := fun htogether _ _ time round latency usage _ h =>
    h.insert htogether time round latency usage

end Runs

/-- **The prompts of a run.** In every run over prompt stages that were made from a catalog, each
prompt is filled in with the freshest text of the stage before, and an input is missing only if the
client says so. -/
theorem prompts_of_run {files : FileReader Id} {catalog : Catalog} {assembly : Assembly}
    (hassembled : (assemble files catalog).run = .ok assembly) (client : Client) (setup : Setup)
    (input : RunInput) :
    let setup := { setup with stages := assembly.run client }
    (run setup input).trace.EachCall (Fed assembly client setup input) ∧
    ∀ slot up, (run setup input).result = .error (.stage slot (.missingInput up)) →
      ∃ call ∈ (run setup input).trace.calls, call.slot = slot ∧
        ∃ request, assembly.request call = .ok request ∧
          (client call.earlier request).result = .error (.missingInput up) := by
  intro setup
  have hcalling : Calling setup input (Fed assembly client setup input) :=
    calling_fed (inPlace_of_assemble hassembled) rfl
  refine ⟨hcalling.run, ?_⟩
  intro slot up hmissing
  cases hcode : input.isBlank with
  | true =>
    rw [run, hcode] at hmissing
    cases hmissing
  | false =>
    obtain ⟨call, hcall, hslot, hfailed⟩ := (run_concludes setup hcode).exists_failed hmissing
    obtain ⟨before, hfed⟩ := hcalling.run.exists_of_mem hcall
    exact ⟨call, hcall, hslot, hfed.missing up hfailed⟩

/-! ## A plain catalog -/

/-- Reads each file as an empty one. -/
def emptyFiles : FileReader Id := fun _ => .ok ""

/-- A catalog whose stages pass on the text that they work on. -/
def Catalog.plain : Catalog where
  version := "1"
  source := .folder "prompts"
  specs :=
    let spec : Spec := ⟨"stage", "model", "prompt.txt", none, "\x7b\x7bmain\x7d\x7d", false⟩
    ⟨spec, spec, spec, spec, spec, spec⟩

/-- What is computed of the stages of the plain catalog holds of them. -/
theorem exists_plain (property : Assembly → Bool)
    (h : (match (assemble emptyFiles .plain).run with
      | .ok assembly => property assembly
      | .error _ => false) = true) :
    ∃ assembly, (assemble emptyFiles .plain).run = .ok assembly ∧ property assembly = true := by
  split at h
  · exact ⟨_, ‹_›, h⟩
  · cases h

/-- The client that replies with the prompt, up to a number of replies. -/
def Client.echo (replies : Nat) : Client := fun earlier request =>
  if earlier.length < replies then ⟨0, .ok ⟨request.userMessage, .zero⟩⟩
  else ⟨0, .error .emptyResponse⟩

theorem prompts_of_plain_run : ∃ assembly,
    (assemble emptyFiles .plain).run = .ok assembly ∧
    let setup := { Setup.constant {} "" with stages := assembly.run (.echo 5) }
    let input : RunInput := { code := "fn main() \x7b\x7d" }
    (run setup input).trace.EachCall (Fed assembly (.echo 5) setup input) ∧
      (run setup input).trace.slots = Slot.all := by
  obtain ⟨assembly, hassembled, hslots⟩ := exists_plain (fun assembly =>
    (run { Setup.constant {} "" with stages := assembly.run (.echo 5) }
      { code := "fn main() \x7b\x7d" }).trace.slots = Slot.all)
    (by decide +kernel)
  exact ⟨assembly, hassembled, (prompts_of_run hassembled (.echo 5) (Setup.constant {} "") _).1,
    of_decide_eq_true hslots⟩

/-- A run fails for a missing input where the client replies so. -/
theorem missing_input_of_client : ∃ assembly,
    (assemble emptyFiles .plain).run = .ok assembly ∧
    (run { Setup.constant {} "" with
        stages := assembly.run fun _ _ => ⟨0, .error (.missingInput .identify)⟩ }
      { code := "fn main() \x7b\x7d" }).result =
        .error (.stage .identify (.missingInput .identify)) := by
  obtain ⟨assembly, hassembled, hresult⟩ := exists_plain (fun assembly =>
    (run { Setup.constant {} "" with
        stages := assembly.run fun _ _ => ⟨0, .error (.missingInput .identify)⟩ }
      { code := "fn main() \x7b\x7d" }).result =
        .error (.stage .identify (.missingInput .identify))) (by decide +kernel)
  exact ⟨assembly, hassembled, of_decide_eq_true hresult⟩

end ScriptForge.Prompt

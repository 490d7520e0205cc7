import ScriptForge.Proofs.Pipeline.Alike
import ScriptForge.Proofs.Pipeline.Ledger
import ScriptForge.Proofs.Pipeline.Writes

/-!
# Forks side by side

A run whose forks are run side by side ends as the one whose forks are run in turn, however long its
stages take (`together_as_in_turn`). Between the forks and their end the run in turn is ahead by the
output of the packaging stage: it has its text, its record and its measurements, and the other run
does not (`Apart`). No other stage reads that text, so the generation forks of the two runs stay
abreast; at the end of the forks the other run catches up.
-/

namespace ScriptForge.Pipeline

/-! ## What the runs are given -/

/-- The table without the entry of the packaging stage. -/
def SlotMap.unpackaged {α : Type} (table : SlotMap α) : SlotMap α :=
  { table with package := none }

theorem SlotMap.unpackaged_set {α : Type} (table : SlotMap α) {slot : Slot}
    (hslot : slot ≠ .package) (a : α) :
    (table.set slot a).unpackaged = table.unpackaged.set slot a := by
  cases slot <;> first | rfl | exact absurd rfl hslot

theorem SlotMap.unpackaged_set_package {α : Type} (table : SlotMap α) (a : α) :
    (table.set .package a).unpackaged = table.unpackaged := rfl

/-- What the `n`-th call of a slot returns, by the code, the hints, the directive and the outputs of
the slots other than packaging. -/
abbrev Answer := Slot → Nat → String → String → Option Directive → SlotMap String → StageOutput

/-- The answer to a call. -/
def Answer.to (answer : Answer) (call : Call) : StageOutput :=
  answer call.slot (call.earlier.count call.slot) call.context.code call.context.auxiliary
    call.directive call.context.outputs.unpackaged

/-- The stages that return what an answer says, each call after a delay of its own. -/
def Answer.stages (answer : Answer) (delay : Call → Nat) : Stages :=
  fun call => ⟨delay call, .ok (answer.to call)⟩

namespace Setup

/-- The setup with other stages and the forks in turn. -/
def inTurn (setup : Setup) (stages : Stages) : Setup :=
  { setup with stages, config := { setup.config with concurrentForks := false } }

/-- The setup with other stages and the forks side by side. -/
def together (setup : Setup) (stages : Stages) : Setup :=
  { setup with stages, config := { setup.config with concurrentForks := true } }

@[simp] theorem inTurn_sink (setup : Setup) (stages : Stages) :
    (setup.inTurn stages).sink = setup.sink := rfl

@[simp] theorem together_sink (setup : Setup) (stages : Stages) :
    (setup.together stages).sink = setup.sink := rfl

end Setup

/-! ## Where the generation fork starts -/

/-- The state in which the generation fork starts beside the packaging fork. -/
def RunState.forked (s : RunState) (setup : Setup) : RunState :=
  ({ s with ledger := { s.ledger with held := true } } : RunState).called setup .package none

theorem RunState.forked_slots (s : RunState) (setup : Setup) :
    (s.forked setup).trace.slots = s.trace.slots ++ [.package] := by
  simp [forked, called, happened, nextCall, Trace.slots]

theorem RunState.forked_written (s : RunState) (setup : Setup) :
    (s.forked setup).trace.written = s.trace.written := by
  simp [forked, called, happened]

/-! ## One run ahead of the other by the packaging stage -/

/-- The record of the packaging stage in the first round, the time left aside. -/
def packageRecord (output : StageOutput) : Record :=
  .ofOutput .package 1 0 output

/-- Measurements with those of the packaging stage in the first round, if there are any. -/
def withPackage (ahead : Option StageOutput) (rounds : List RoundStats) : List RoundStats :=
  match ahead with
  | none => rounds
  | some output => Ledger.addTo (packageRecord output) rounds

theorem addTo_withPackage (record : Record) (ahead : Option StageOutput)
    (rounds : List RoundStats) :
    Ledger.addTo record (withPackage ahead rounds) =
      withPackage ahead (Ledger.addTo record rounds) := by
  cases ahead with
  | none => rfl
  | some output => exact Ledger.addTo_comm record (packageRecord output) rounds

/-- The first of two runs may be ahead by the output of the packaging stage. Otherwise they have
come equally far, the times left aside. -/
structure Apart (setup : Setup) (ahead : Option StageOutput) (s₁ s₂ : RunState) : Prop where
  slots : s₁.trace.slots = s₂.trace.slots
  code : s₁.context.code = s₂.context.code
  auxiliary : s₁.context.auxiliary = s₂.context.auxiliary
  outputs : s₁.context.outputs.unpackaged = s₂.context.outputs.unpackaged
  packaged : s₁.context.output? .package = ahead.map StageOutput.text
  round : s₁.round = s₂.round
  /-- Before the forks the runs are in their first round. -/
  first : ahead = none → s₁.round = 1
  budget : s₁.budget = s₂.budget
  directive : s₁.directive = s₂.directive
  history : ∃ before after,
    s₁.context.history.map Record.untimed = before ++ (ahead.map packageRecord).toList ++ after ∧
    s₂.context.history.map Record.untimed = before ++ after ∧
    ∀ record ∈ before ++ after, record.slot ≠ .package
  statistics : setup.sink.isSome → (s₁.trace.written ++ s₁.ledger.rounds).map RoundStats.untimed =
    withPackage ahead (s₂.ledger.rounds.map RoundStats.untimed)
  written : setup.sink = none → s₁.trace.written = []
  unwritten : s₂.trace.written = []
  free : s₁.ledger.held = false
  held : s₂.ledger.held = ahead.isSome
  /-- What the first run has written is on rounds that are over. -/
  past : ∀ stats ∈ s₁.trace.written, stats.round < s₁.round
  current : ∀ stats ∈ s₁.ledger.rounds, stats.round ≤ s₁.round

namespace Apart

variable {setup : Setup} {ahead : Option StageOutput} {s₁ s₂ : RunState} {stages₁ stages₂ : Stages}
  {answer : Answer}

/-- Both runs are given the same answer to a call. -/
theorem stepCall_to (h : Apart setup ahead s₁ s₂) (slot : Slot) :
    answer.to (s₁.stepCall slot) = answer.to (s₂.stepCall slot) := by
  have hdirective : RunM.directiveFor s₁ slot = RunM.directiveFor s₂ slot := by
    cases slot <;> simp [RunM.directiveFor, h.directive]
  simp only [Answer.to, RunState.stepCall, RunState.nextCall, h.slots, h.code, h.auxiliary,
    h.outputs, hdirective]

theorem happened (h : Apart setup ahead s₁ s₂) (event₁ event₂ : Event) :
    Apart setup ahead (s₁.happened (.emitted event₁)) (s₂.happened (.emitted event₂)) where
  slots := by rw [RunState.happened_emitted_slots, RunState.happened_emitted_slots, h.slots]
  code := h.code
  auxiliary := h.auxiliary
  outputs := h.outputs
  packaged := h.packaged
  round := h.round
  first := h.first
  budget := h.budget
  directive := h.directive
  history := h.history
  statistics hsink := by
    rw [RunState.happened_emitted_written]
    exact h.statistics hsink
  written hsink := by rw [RunState.happened_emitted_written, h.written hsink]
  unwritten := by rw [RunState.happened_emitted_written, h.unwritten]
  free := h.free
  held := h.held
  past := by
    rw [RunState.happened_emitted_written]
    exact h.past
  current := h.current

theorem stepped (h : Apart setup ahead s₁ s₂) {slot : Slot} (hslot : slot ≠ .package)
    (output : StageOutput) :
    Apart setup ahead (s₁.stepped (setup.inTurn stages₁) slot output)
      (s₂.stepped (setup.together stages₂) slot output) where
  slots := by rw [RunState.stepped_slots, RunState.stepped_slots, h.slots]
  code := by rw [RunState.stepped_code, RunState.stepped_code, h.code]
  auxiliary := by rw [RunState.stepped_auxiliary, RunState.stepped_auxiliary, h.auxiliary]
  outputs := by
    rw [RunState.stepped_outputs, RunState.stepped_outputs, SlotMap.unpackaged_set _ hslot,
      SlotMap.unpackaged_set _ hslot, h.outputs]
  packaged := by
    rw [Context.output?, RunState.stepped_outputs, SlotMap.get?_set_of_ne _ hslot.symm]
    exact h.packaged
  round := by rw [RunState.stepped_round, RunState.stepped_round, h.round]
  first hnone := by rw [RunState.stepped_round, h.first hnone]
  budget := by rw [RunState.stepped_budget, RunState.stepped_budget, h.budget]
  directive := by rw [RunState.stepped_directive, RunState.stepped_directive, h.directive]
  history := by
    obtain ⟨before, after, h₁, h₂, hslots⟩ := h.history
    refine ⟨before, after ++ [.ofOutput slot s₁.round 0 output], ?_, ?_, ?_⟩
    · rw [RunState.stepped_history, List.map_append, h₁, List.append_assoc]
      rfl
    · rw [RunState.stepped_history, List.map_append, h₂, List.append_assoc, h.round]
      rfl
    · rw [← List.append_assoc]
      refine List.forall_mem_append.mpr ⟨hslots, fun record hrecord => ?_⟩
      rwa [List.mem_singleton.mp hrecord]
  statistics hsink := by
    have hround : s₂.round = s₁.round := h.round.symm
    rw [RunState.stepped_written, RunState.stepped_ledger, RunState.stepped_ledger, Ledger.add,
      Ledger.add, ← Ledger.addTo_append _ _ h.past, Ledger.untimed_addTo, h.statistics hsink,
      addTo_withPackage, Ledger.untimed_addTo, hround]
    rfl
  written hsink := by rw [RunState.stepped_written, h.written hsink]
  unwritten := by rw [RunState.stepped_written, h.unwritten]
  free := by
    rw [RunState.stepped_ledger]
    exact h.free
  held := by
    rw [RunState.stepped_ledger]
    exact h.held
  past := by
    rw [RunState.stepped_written, RunState.stepped_round]
    exact h.past
  current := by
    rw [RunState.stepped_ledger, RunState.stepped_round]
    exact Ledger.round_le_of_mem_addTo _ _ (Nat.le_refl _) h.current

/-- When the next round starts, the first run writes what it knows of the last one; the second run
has to keep it. -/
theorem advanced (h : Apart setup ahead s₁ s₂) (hahead : ahead.isSome) (reason : Rejection) :
    Apart setup ahead (RunM.advanced s₁ (setup.inTurn stages₁) reason)
      (RunM.advanced s₂ (setup.together stages₂) reason) := by
  have hcurrent : ∀ stats ∈ s₁.ledger.rounds, stats.round < s₁.round + 1 :=
    fun stats hstats => Nat.lt_succ_of_le (h.current stats hstats)
  have hheld : s₂.ledger.held = true := h.held.trans hahead
  rw [RunM.advanced, RunM.advanced, Ledger.takeBefore_of_free h.free hcurrent,
    Ledger.takeBefore_of_held hheld]
  refine happened ?_ _ _
  simp only [RunState.wroteAll_nil]
  exact {
    h with
    slots := by rw [RunState.wroteAll_slots, h.slots]
    round := congrArg (· + 1) h.round
    first hnone := by simp [hnone] at hahead
    statistics hsink := by
      rw [RunState.wroteAll_written]
      simpa [hsink, Ledger.empty] using h.statistics hsink
    written hsink := by
      rw [RunState.wroteAll_written]
      simpa [hsink] using h.written hsink
    free := rfl
    past := by
      rw [RunState.wroteAll_written]
      intro stats hstats
      rcases List.mem_append.mp hstats with hstats | hstats
      · exact Nat.lt_succ_of_lt (h.past stats hstats)
      · split at hstats
        · exact hcurrent stats hstats
        · cases hstats
    current := by simp [Ledger.empty] }

/-- From here on the first run is ahead. -/
theorem forked (h : Apart setup none s₁ s₂) (output : StageOutput) :
    Apart setup (some output) (s₁.stepped (setup.inTurn stages₁) .package output)
      (s₂.forked (setup.together stages₂)) where
  slots := by rw [RunState.stepped_slots, RunState.forked_slots, h.slots]
  code := by rw [RunState.stepped_code, h.code]; rfl
  auxiliary := by rw [RunState.stepped_auxiliary, h.auxiliary]; rfl
  outputs := by rw [RunState.stepped_outputs, SlotMap.unpackaged_set_package, h.outputs]; rfl
  packaged := by rw [Context.output?, RunState.stepped_outputs, SlotMap.get?_set_self]; rfl
  round := by rw [RunState.stepped_round, h.round]; rfl
  first hnone := by cases hnone
  budget := by rw [RunState.stepped_budget, h.budget]; rfl
  directive := by rw [RunState.stepped_directive, if_neg (by decide), h.directive]; rfl
  history := by
    obtain ⟨before, after, h₁, h₂, hslots⟩ := h.history
    refine ⟨before ++ after, [], ?_, ?_, ?_⟩
    · rw [RunState.stepped_history, List.map_append, h₁, h.first rfl, List.append_nil]
      simp [packageRecord, Record.ofOutput, Record.untimed]
    · rw [List.append_nil]
      exact h₂
    · rwa [List.append_nil]
  statistics hsink := by
    rw [RunState.stepped_written, RunState.stepped_ledger, Ledger.add,
      ← Ledger.addTo_append _ _ h.past, Ledger.untimed_addTo, h.statistics hsink, h.first rfl]
    rfl
  written hsink := by rw [RunState.stepped_written, h.written hsink]
  unwritten := by rw [RunState.forked_written, h.unwritten]
  free := by rw [RunState.stepped_ledger]; exact h.free
  held := rfl
  past := by rw [RunState.stepped_written, RunState.stepped_round]; exact h.past
  current := by
    rw [RunState.stepped_ledger, RunState.stepped_round]
    exact Ledger.round_le_of_mem_addTo _ _ (Nat.le_refl _) h.current

theorem start (setup : Setup) (stages₁ stages₂ : Stages) (input : RunInput) :
    Apart setup none (.start (setup.inTurn stages₁).config input)
      (.start (setup.together stages₂).config input) where
  slots := rfl
  code := rfl
  auxiliary := rfl
  outputs := rfl
  packaged := rfl
  round := rfl
  first _ := rfl
  budget := rfl
  directive := rfl
  history := ⟨[], [], rfl, rfl, by simp⟩
  statistics _ := rfl
  written _ := rfl
  unwritten := rfl
  free := rfl
  held := rfl
  past := by simp [RunState.start]
  current := by simp [RunState.start, Ledger.empty]

end Apart

namespace RunM

variable {setup : Setup} {ahead : Option StageOutput} {answer : Answer}
  {delay₁ delay₂ : Call → Nat}

theorem step_apart {slot : Slot} (hslot : slot ≠ .package) :
    Alike (Apart setup ahead) (step (setup.inTurn (answer.stages delay₁)) slot)
      (step (setup.together (answer.stages delay₂)) slot) := by
  intro s₁ s₂ h
  have hanswer : answer.to (s₂.stepCall slot) = answer.to (s₁.stepCall slot) :=
    (h.stepCall_to slot).symm
  have hreply : (answer.stages delay₂ (s₂.stepCall slot)).result =
      .ok (answer.to (s₁.stepCall slot)) := congrArg Except.ok hanswer
  exact ⟨_, _, _, _, run_step rfl, run_step hreply, rfl, h.stepped hslot _⟩

theorem emit_apart (event₁ event₂ : Event) :
    Alike (Apart setup ahead) (emit event₁) (emit event₂) :=
  fun _ _ h => ⟨_, _, _, _, rfl, rfl, rfl, h.happened event₁ event₂⟩

theorem actionsApart (hrepackage : setup.config.repackageOnRetry = false)
    (htaken : setup.NothingRefused) (output : StageOutput) :
    ActionsAlike (setup.inTurn (answer.stages delay₁)) (setup.together (answer.stages delay₂))
      (Apart setup (some output)) where
  classifier := rfl
  validator := rfl
  packagesOnce₁ := by simp [Setup.inTurn, hrepackage]
  packagesOnce₂ := by simp [Setup.together]
  budget _ _ h := h.budget
  step _ hslot := step_apart hslot
  emit := emit_apart
  diagnose name value s₁ s₂ h := ⟨_, _, _, _, rfl, rfl, rfl, { h with }⟩
  countAttempt rejection s₁ s₂ h := by
    have hbudget : s₁.budget.record rejection = s₂.budget.record rejection := by rw [h.budget]
    exact ⟨_, _, _, _, rfl, rfl, congrArg (·.used rejection) hbudget, { h with budget := hbudget }⟩
  direct directive s₁ s₂ h := ⟨_, _, _, _, rfl, rfl, rfl, { h with directive := rfl }⟩
  advanceRound reason s₁ s₂ h := by
    have htaken₁ : (setup.inTurn (answer.stages delay₁)).NothingRefused := htaken
    have htaken₂ : (setup.together (answer.stages delay₂)).NothingRefused := htaken
    exact ⟨_, _, _, _, run_advanceRound htaken₁ reason, run_advanceRound htaken₂ reason, rfl,
      h.advanced rfl reason⟩

/-! ## The end of the forks -/

/-- Traces only grow. -/
theorem actionsGrow (setup : Setup) (trace : Trace) :
    ActionsKeep setup (fun s => trace <+: s.trace) (fun _ s => trace <+: s.trace) where
  step slot s hs := by
    refine ends_step (fun _ _ => ?_) fun output _ => ?_
    · rw [RunState.replied_trace]
      exact hs.trans (List.prefix_append _ _)
    · rw [RunState.stepped_trace, RunState.replied_trace]
      exact (hs.trans (List.prefix_append _ _)).trans (List.prefix_append _ _)
  emit _ s hs := hs.trans (List.prefix_append _ _)
  diagnose _ _ _ hs := hs
  countAttempt _ _ hs := hs
  direct _ _ hs := hs
  advanceRound := .advanceRound (fun _ _ _ hs => hs)
    (fun _ _ hs => ends_write (fun _ => hs) (fun _ _ _ _ => hs)
      fun _ _ _ => hs.trans (List.prefix_append _ _))
    fun _ _ hs => hs.trans (List.prefix_append _ _)

/-- The state after two forks side by side that have started in the state `fork`. The generation
fork has ended in `after`. -/
def joined (setup : Setup) (fork : RunState) (delay : Nat) (output : StageOutput)
    (after : RunState) : RunState :=
  let due := fork.clock + delay
  let own := after.trace.drop fork.trace.length
  let finished : Moment :=
    ⟨due, .emitted (.stageFinished setup.runId .package fork.round delay output.usage)⟩
  let trace := fork.trace ++ Trace.before due own ++ finished :: Trace.since due own
  let s := ({ after with clock := max due after.clock, trace } : RunState).committed .package
    fork.round delay output
  { s with ledger := { s.ledger with held := false } }

theorem run_join {fork after s : RunState} {reply : Reply} {output : StageOutput}
    {result : String × Outcome} (hreply : reply.result = .ok output) :
    (join setup fork reply (.ok result) after).run s =
      (.ok result, joined setup fork reply.delay output after) := by
  obtain ⟨delay, _⟩ := reply
  cases hreply
  rfl

/-- The generation fork runs to its end, and the reply of the packaging stage joins it. -/
theorem run_forksTogether_eq (setup : Setup) (s : RunState) :
    (forksTogether setup).run s =
      (join setup (s.forked setup) (setup.stages (s.stepCall .package))
        ((generation setup).run (s.forked setup)).1 ((generation setup).run (s.forked setup)).2).run
          (s.forked setup) := by
  let held : RunState := { s with ledger := { s.ledger with held := true } }
  have hhold : (modify fun s => { s with ledger := { s.ledger with held := true } } :
      RunM Unit).run s = (.ok (), held) := rfl
  have hcall : (call setup .package none).run held = (.ok (s.stepCall .package), s.forked setup) :=
    run_of_ends ((ends_call _ _).mpr ⟨rfl, rfl⟩)
  rw [forksTogether, run_bind_of_ok hhold, run_bind_of_ok hcall, run_get_bind]
  rfl

theorem run_forksTogether {s after : RunState} {output : StageOutput} {result : String × Outcome}
    (hpackage : (setup.stages (s.stepCall .package)).result = .ok output)
    (hgenerated : (generation setup).run (s.forked setup) = (.ok result, after)) :
    (forksTogether setup).run s = (.ok result,
      joined setup (s.forked setup) (setup.stages (s.stepCall .package)).delay output after) := by
  rw [run_forksTogether_eq, hgenerated, run_join hpackage]

/-- Forks that return have both returned. -/
theorem exists_of_run_forksTogether_ok {s s' : RunState} {result : String × Outcome}
    (hrun : (forksTogether setup).run s = (.ok result, s')) : ∃ output after,
      (setup.stages (s.stepCall .package)).result = .ok output ∧
      (generation setup).run (s.forked setup) = (.ok result, after) ∧
      s' = joined setup (s.forked setup) (setup.stages (s.stepCall .package)).delay output
        after := by
  rw [run_forksTogether_eq] at hrun
  generalize setup.stages (s.stepCall .package) = reply at hrun ⊢
  obtain ⟨delay, _ | output⟩ := reply <;>
    rcases hgenerated : (generation setup).run (s.forked setup) with ⟨_ | generated, after⟩ <;>
    rw [hgenerated] at hrun
  · simp only [join] at hrun
    split at hrun <;> cases hrun
  · cases hrun
  · cases hrun
  · cases hrun
    exact ⟨output, after, rfl, rfl, rfl⟩

/-- The packaging stage writes nothing. -/
theorem joined_written {fork after : RunState} {delay : Nat} {output : StageOutput}
    (hgrown : fork.trace <+: after.trace) :
    (joined setup fork delay output after).trace.written = after.trace.written := by
  obtain ⟨own, hown⟩ := hgrown
  simp only [joined, RunState.committed, ← hown, List.drop_left, Trace.written_append,
    Trace.written_emitted, List.append_assoc]
  rw [← Trace.written_append (Trace.before _ own), Trace.before_append_since]

end RunM

/-- The second of two runs has caught up. Their histories differ by the place of the record of the
packaging stage. -/
structure Rejoined (setup : Setup) (s₁ s₂ : RunState) : Prop where
  packaged : s₁.context.output? .package = s₂.context.output? .package
  round : s₁.round = s₂.round
  history : ∃ before package after,
    s₁.context.history.map Record.untimed = before ++ package :: after ∧
    s₂.context.history.map Record.untimed = before ++ after ++ [package] ∧
    package.slot = .package ∧ package.round = 1 ∧ ∀ record ∈ before ++ after, record.slot ≠ .package
  statistics : setup.sink.isSome → (s₁.trace.written ++ s₁.ledger.rounds).map RoundStats.untimed =
    (s₂.trace.written ++ s₂.ledger.rounds).map RoundStats.untimed
  written : setup.sink = none → s₁.trace.written = s₂.trace.written

theorem Apart.rejoined {setup : Setup} {output : StageOutput} {fork s₁ after : RunState}
    {delay : Nat} {stages₂ : Stages} (h : Apart setup (some output) s₁ after)
    (hround : fork.round = 1) (hgrown : fork.trace <+: after.trace) :
    Rejoined setup s₁ (RunM.joined (setup.together stages₂) fork delay output after) where
  packaged := by
    rw [h.packaged]
    exact (SlotMap.get?_set_self after.context.outputs .package output.text).symm
  round := h.round
  history := by
    obtain ⟨before, later, h₁, h₂, hslots⟩ := h.history
    refine ⟨before, packageRecord output, later, ?_, ?_, rfl, rfl, hslots⟩
    · simpa using h₁
    · rw [← h₂, packageRecord, ← hround]
      exact List.map_append
  statistics hsink := by
    rw [h.statistics hsink, RunM.joined_written hgrown, h.unwritten, List.nil_append, withPackage,
      packageRecord, ← hround]
    exact (Ledger.untimed_addTo (.ofOutput .package fork.round delay output) _).symm
  written hsink := by
    rw [h.written hsink, RunM.joined_written hgrown, h.unwritten]

/-- What a run side by side returns, compared with the run in turn. -/
structure AsInTurn (inTurn together : RunOutput) : Prop where
  script : together.script = inTurn.script
  pluginCode : together.pluginCode = inTurn.pluginCode
  outcome : together.outcome = inTurn.outcome
  rounds : together.rounds = inTurn.rounds
  /-- The one record of the packaging stage comes last, and still belongs to the first round. -/
  history : ∃ before package after,
    inTurn.history.map Record.untimed = before ++ package :: after ∧
    together.history.map Record.untimed = before ++ after ++ [package] ∧
    package.slot = .package ∧ package.round = 1 ∧ ∀ record ∈ before ++ after, record.slot ≠ .package

namespace RunM

variable {setup : Setup} {answer : Answer} {delay₁ delay₂ : Call → Nat}

theorem forks_rejoined (hrepackage : setup.config.repackageOnRetry = false)
    (htaken : setup.NothingRefused)
    {s₁ s₂ : RunState} (h : Apart setup none s₁ s₂) :
    BothEnd (forks (setup.inTurn (answer.stages delay₁)))
      (forks (setup.together (answer.stages delay₂))) s₁ s₂
      fun a b s₁' s₂' => a = b ∧ Rejoined setup s₁' s₂' := by
  have hreply : (answer.stages delay₂ (s₂.stepCall .package)).result =
      .ok (answer.to (s₁.stepCall .package)) := congrArg Except.ok (h.stepCall_to .package).symm
  have hforked : Apart setup (some (answer.to (s₁.stepCall .package)))
      (s₁.stepped (setup.inTurn (answer.stages delay₁)) .package _)
      (s₂.forked (setup.together (answer.stages delay₂))) :=
    h.forked _
  obtain ⟨result, _, s₁', after, hrun₁, hrun₂, rfl, hafter⟩ :=
    (actionsApart hrepackage htaken _).generation _ _ hforked
  have hgrown : (s₂.forked (setup.together (answer.stages delay₂))).trace <+: after.trace :=
    ((actionsGrow _ _).generation _ List.prefix_rfl).of_run_ok hrun₂
  refine ⟨result, result, s₁', _, ?_, run_forksTogether hreply hrun₂, rfl,
    hafter.rejoined (h.round.symm.trans (h.first rfl)) hgrown⟩
  exact (run_bind_of_ok (run_step rfl)).trans hrun₁

theorem run_finish (htaken : setup.NothingRefused) (script : String) (outcome : Outcome)
    (s : RunState) :
    ∃ s', (finish setup script outcome).run s = (.ok {
        runId := setup.runId
        script
        pluginCode := (s.context.output? .package).getD ""
        outcome
        rounds := s.round
        history := s.context.history }, s') ∧
      s'.trace.written = s.trace.written ++ if setup.sink.isSome then s.ledger.rounds else [] := by
  let flushed := { s with ledger := { s.ledger with rounds := [] } }.wroteAll setup s.ledger.rounds
  have hflush : (flushAll setup).run s = (.ok (), flushed) := run_writeAll htaken _ _
  refine ⟨flushed.happened (.emitted (.runFinished setup.runId s.round)),
    (run_bind_of_ok hflush).trans rfl, ?_⟩
  rw [RunState.happened_emitted_written, RunState.wroteAll_written]

theorem finish_asInTurn (htaken : setup.NothingRefused) (script : String) (outcome : Outcome)
    {s₁ s₂ : RunState} (h : Rejoined setup s₁ s₂) :
    BothEnd (finish (setup.inTurn (answer.stages delay₁)) script outcome)
      (finish (setup.together (answer.stages delay₂)) script outcome) s₁ s₂
      fun output₁ output₂ s₁' s₂' => AsInTurn output₁ output₂ ∧
        s₂'.trace.written.map RoundStats.untimed = s₁'.trace.written.map RoundStats.untimed := by
  have htaken₁ : (setup.inTurn (answer.stages delay₁)).NothingRefused := htaken
  have htaken₂ : (setup.together (answer.stages delay₂)).NothingRefused := htaken
  obtain ⟨s₁', hrun₁, hwritten₁⟩ := run_finish htaken₁ script outcome s₁
  obtain ⟨s₂', hrun₂, hwritten₂⟩ := run_finish htaken₂ script outcome s₂
  refine ⟨_, _, s₁', s₂', hrun₁, hrun₂, ?_, ?_⟩
  · exact {
      script := rfl
      pluginCode := congrArg (·.getD "") h.packaged.symm
      outcome := rfl
      rounds := h.round.symm
      history := h.history }
  · rw [hwritten₁, hwritten₂]
    cases hsink : setup.sink with
    | none => simp [hsink, h.written hsink]
    | some sink => simpa [hsink] using (h.statistics (by simp [hsink])).symm

theorem whole_asInTurn (delay₁ delay₂ : Call → Nat)
    (hrepackage : setup.config.repackageOnRetry = false) (htaken : setup.NothingRefused)
    (input : RunInput) :
    BothEnd (whole (setup.inTurn (answer.stages delay₁)))
      (whole (setup.together (answer.stages delay₂)))
      (.start (setup.inTurn (answer.stages delay₁)).config input)
      (.start (setup.together (answer.stages delay₂)).config input)
      fun output₁ output₂ s₁' s₂' => AsInTurn output₁ output₂ ∧
        s₂'.trace.written.map RoundStats.untimed = s₁'.trace.written.map RoundStats.untimed := by
  refine (emit_apart _ _ _ _ (Apart.start setup _ _ input)).bind fun _ _ s₁ s₂ h => ?_
  refine (step_apart (by decide) s₁ s₂ h.2).bind fun _ _ s₁ s₂ h => ?_
  refine (step_apart (by decide) s₁ s₂ h.2).bind fun _ _ s₁ s₂ h => ?_
  refine (forks_rejoined hrepackage htaken h.2).bind fun _ _ s₁ s₂ h => ?_
  obtain ⟨rfl, h⟩ := h
  exact finish_asInTurn htaken _ _ h

end RunM

/-- **Forks side by side end as forks in turn.** If no stage fails and no other stage reads the
output of the packaging stage, then a run with the forks side by side returns what the run in turn
returns, whatever the delays in either run. Only the record of the packaging stage comes last. The
sink takes the same slots and tokens round by round. -/
theorem together_as_in_turn (setup : Setup) (input : RunInput) (answer : Answer)
    (delay₁ delay₂ : Call → Nat) (hcode : input.isBlank = false)
    (hrepackage : setup.config.repackageOnRetry = false) (htaken : setup.NothingRefused) :
    let inTurn := run (setup.inTurn (answer.stages delay₁)) input
    let together := run (setup.together (answer.stages delay₂)) input
    ∃ output₁ output₂, inTurn.result = .ok output₁ ∧ together.result = .ok output₂ ∧
      AsInTurn output₁ output₂ ∧ together.trace.written.map RoundStats.untimed =
        inTurn.trace.written.map RoundStats.untimed := by
  obtain ⟨output₁, output₂, s₁, s₂, hrun₁, hrun₂, hsame, hwritten⟩ :=
    RunM.whole_asInTurn delay₁ delay₂ hrepackage htaken input
  have hreport₁ : run (setup.inTurn (answer.stages delay₁)) input = ⟨s₁.trace, .ok output₁⟩ := by
    rw [run, hcode, hrun₁]
    rfl
  have hreport₂ : run (setup.together (answer.stages delay₂)) input = ⟨s₂.trace, .ok output₂⟩ := by
    rw [run, hcode, hrun₂]
    rfl
  intro inTurn together
  exact ⟨output₁, output₂, congrArg RunReport.result hreport₁, congrArg RunReport.result hreport₂,
    hsame, by simpa only [inTurn, together, hreport₁, hreport₂] using hwritten⟩

theorem slow_packaging_as_in_turn :
    let answer : Answer := fun slot n _ _ _ _ => ⟨slot.id, ⟨n, n, n⟩⟩
    let setup : Setup := ⟨"", {}, answer.stages fun _ => 0, .byTag, .default, some fun _ _ => none⟩
    let input : RunInput := { code := "fn main() \x7b\x7d" }
    let slow : Call → Nat := fun call => if call.slot = .package then 1000 else 1
    (input.isBlank = false ∧ setup.config.repackageOnRetry = false ∧ setup.NothingRefused) ∧
      ∃ output₁ output₂, (run (setup.inTurn setup.stages) input).result = .ok output₁ ∧
        (run (setup.together (answer.stages slow)) input).result = .ok output₂ ∧
        AsInTurn output₁ output₂ := by
  intro answer setup input slow
  have hcode : input.isBlank = false := by decide
  have htaken : setup.NothingRefused := by
    intro sink hsink _ _
    cases hsink
    rfl
  obtain ⟨output₁, output₂, h₁, h₂, hsame, -⟩ :=
    together_as_in_turn setup input answer (fun _ => 0) slow hcode rfl htaken
  exact ⟨⟨hcode, rfl, htaken⟩, output₁, output₂, h₁, h₂, hsame⟩

end ScriptForge.Pipeline

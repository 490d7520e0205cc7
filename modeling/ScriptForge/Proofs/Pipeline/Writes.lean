import ScriptForge.Proofs.Pipeline.Failure
import ScriptForge.Proofs.Pipeline.Ledger

/-!
# Writing statistics

Statistics are written in order, up to the first that the sink refuses (`ends_writeAll`). Where the
sink takes all that it is given, or there is none, writing always succeeds; then the actions that
write end in states that can be told in advance: `run_writeAll` and `run_advanceRound`.
-/

namespace ScriptForge.Pipeline

/-- If there is a sink, then it takes all statistics. -/
def Setup.NothingRefused (setup : Setup) : Prop :=
  ∀ sink, setup.sink = some sink → ∀ written stats, sink written stats = none

/-- The state after statistics have been written, if there is a sink. -/
def RunState.wroteAll (s : RunState) (setup : Setup) (rounds : List RoundStats) : RunState :=
  { s with trace := s.trace ++
      if setup.sink.isSome then rounds.map fun stats => ⟨s.clock, .wrote stats⟩ else [] }

namespace Trace

theorem written_wrote_map (time : Nat) (rounds : List RoundStats) :
    written (rounds.map fun stats => ⟨time, .wrote stats⟩) = rounds := by
  induction rounds with
  | nil => rfl
  | cons stats rest ih => simpa using ih

theorem calls_wrote_map (time : Nat) (rounds : List RoundStats) :
    calls (rounds.map fun stats => ⟨time, .wrote stats⟩) = [] := by
  induction rounds with
  | nil => rfl
  | cons stats rest ih => simpa using ih

theorem events_wrote_map (time : Nat) (rounds : List RoundStats) :
    events (rounds.map fun stats => ⟨time, .wrote stats⟩) = [] := by
  induction rounds with
  | nil => rfl
  | cons stats rest ih => simpa using ih

end Trace

namespace RunState

variable (s : RunState) (setup : Setup) (rounds : List RoundStats)

/-- Writing makes no calls and emits no events. -/
theorem exists_wroteAll_trace : ∃ more : Trace,
    (s.wroteAll setup rounds).trace = s.trace ++ more ∧ more.calls = [] ∧ more.events = [] := by
  refine ⟨_, rfl, ?_⟩
  split
  · exact ⟨Trace.calls_wrote_map _ _, Trace.events_wrote_map _ _⟩
  · exact ⟨rfl, rfl⟩

@[simp] theorem wroteAll_calls : (s.wroteAll setup rounds).trace.calls = s.trace.calls := by
  obtain ⟨more, htrace, hcalls, -⟩ := s.exists_wroteAll_trace setup rounds
  rw [htrace, Trace.calls_append, hcalls, List.append_nil]

@[simp] theorem wroteAll_events : (s.wroteAll setup rounds).trace.events = s.trace.events := by
  obtain ⟨more, htrace, -, hevents⟩ := s.exists_wroteAll_trace setup rounds
  rw [htrace, Trace.events_append, hevents, List.append_nil]

@[simp] theorem wroteAll_slots : (s.wroteAll setup rounds).trace.slots = s.trace.slots := by
  rw [Trace.slots, wroteAll_calls]
  rfl

theorem wroteAll_nil : s.wroteAll setup [] = s := by
  simp [wroteAll]

@[simp] theorem wroteAll_ledger : (s.wroteAll setup rounds).ledger = s.ledger := rfl

theorem wroteAll_written : (s.wroteAll setup rounds).trace.written =
    s.trace.written ++ if setup.sink.isSome then rounds else [] := by
  rw [wroteAll, Trace.written_append]
  split
  · rw [Trace.written_wrote_map]
  · rfl

end RunState

namespace RunM

variable {setup : Setup} {s : RunState}

/-- Statistics are written one by one, up to the first that the sink refuses. -/
theorem ends_writeAll (rounds : List RoundStats) (s : RunState) :
    Ends (writeAll setup rounds) s (fun _ s' => s' = s.wroteAll setup rounds)
      (fun error s' => ∃ text done stats rest, error = .stats text ∧
        rounds = done ++ stats :: rest ∧ s' = s.wroteAll setup done ∧
        Refused setup s'.trace.written text) := by
  induction rounds generalizing s with
  | nil => exact (s.wroteAll_nil setup).symm
  | cons stats rest ih =>
    rw [writeAll, ends_bind]
    refine ends_write (fun hsink => ?_) (fun sink text hsink htext => ?_) (fun sink hsink _ => ?_)
    · refine (ih s).imp (fun _ s' h => ?_) (fun _ s' h => ?_)
      · simp [h, RunState.wroteAll, hsink]
      · obtain ⟨text, done, other, rest', rfl, rfl, rfl, hrefused⟩ := h
        exact ⟨text, stats :: done, other, rest', rfl, rfl, by simp [RunState.wroteAll, hsink],
          hrefused⟩
    · exact ⟨text, [], stats, rest, rfl, rfl, (s.wroteAll_nil setup).symm, sink, stats, hsink,
        htext⟩
    · refine (ih _).imp (fun _ s' h => ?_) (fun _ s' h => ?_)
      · simp [h, RunState.wroteAll, RunState.happened, hsink]
      · obtain ⟨text, done, other, rest', rfl, rfl, rfl, hrefused⟩ := h
        exact ⟨text, stats :: done, other, rest', rfl, rfl,
          by simp [RunState.wroteAll, RunState.happened, hsink], hrefused⟩

theorem run_writeAll (htaken : setup.NothingRefused) (rounds : List RoundStats) (s : RunState) :
    (writeAll setup rounds).run s = (.ok (), s.wroteAll setup rounds) := by
  refine run_of_ends ((ends_writeAll rounds s).imp (fun _ _ h => ⟨rfl, h⟩) fun _ _ h => ?_)
  obtain ⟨text, -, -, -, -, -, -, sink, stats, hsink, htext⟩ := h
  rw [htaken sink hsink] at htext
  cases htext

/-- The state after the next round has started. -/
def advanced (s : RunState) (setup : Setup) (reason : Rejection) : RunState :=
  let round := s.round + 1
  let (done, ledger) := s.ledger.takeBefore round
  ({ s with round, ledger }.wroteAll setup done).happened
    (.emitted (.roundAdvanced setup.runId round reason))

/-- The next round starts unless the sink refuses what the ledger has on the rounds before it; a
ledger that is held gives nothing out. -/
theorem ends_advanceRound (reason : Rejection) :
    Ends (advanceRound setup reason) s (fun _ s' => s' = advanced s setup reason)
      (fun error s' => ∃ text done, error = .stats text ∧ s.ledger.held = false ∧
        s'.trace = (s.wroteAll setup done).trace ∧ Refused setup s'.trace.written text) := by
  simp only [advanceRound, flushBefore, ends_bind, ends_modify, ends_get, ends_emit]
  refine (ends_writeAll _ _).imp (fun _ s' h => ?_) (fun error s' h => ?_)
  · rw [h]
    rfl
  · obtain ⟨text, done, stats, rest, rfl, hrounds, rfl, hrefused⟩ := h
    refine ⟨text, done, rfl, ?_, rfl, hrefused⟩
    cases hheld : s.ledger.held with
    | false => rfl
    | true =>
      rw [Ledger.takeBefore_of_held hheld] at hrounds
      cases done <;> cases hrounds

theorem run_advanceRound (htaken : setup.NothingRefused) (reason : Rejection) :
    (advanceRound setup reason).run s = (.ok (), advanced s setup reason) := by
  refine run_of_ends ((ends_advanceRound reason).imp (fun _ _ h => ⟨rfl, h⟩) fun _ _ h => ?_)
  obtain ⟨text, -, -, -, -, sink, stats, hsink, htext⟩ := h
  rw [htaken sink hsink] at htext
  cases htext

end RunM

end ScriptForge.Pipeline

import ScriptForge.Proofs.Pipeline.Protocol

/-!
# The statistics of a run that a stage ends

When a round starts in a run whose forks go in turn, the ledger is emptied, so what it has is of the
round that is going on (`Reaches.ledger_current`). A stage that fails in such a run therefore takes
with it the measurements of its own round alone: all rounds before have been written. Side by side
the ledger is held while the forks run, and such a run has written nothing
(`statistics_of_aborted_run`), not even on a round that is over
(`completed_round_unwritten_side_by_side`).
-/

namespace ScriptForge.Pipeline

/-! ## Rounds and what has run in them -/

namespace Event

/-- The slot that is announced to start in a round. -/
def startedIn? (round : Nat) : Event → Option Slot
  | stageStarted _ slot other => if other = round then some slot else none
  | _ => none

/-- The slot that is said to have finished in a round. -/
def finishedIn? (round : Nat) : Event → Option Slot
  | stageFinished _ slot other _ _ => if other = round then some slot else none
  | _ => none

end Event

/-- All stages that have started in a round have finished. -/
def Completed (events : List Event) (round : Nat) : Prop :=
  (events.filterMap (Event.startedIn? round)).Perm (events.filterMap (Event.finishedIn? round))

instance (events : List Event) (round : Nat) : Decidable (Completed events round) :=
  inferInstanceAs (Decidable (List.Perm _ _))

/-- The generating stage has run in each round before that of a point. -/
theorem Point.round_le_ran_generate (config : Config) (p : Point) :
    p.round ≤ p.ran config .generate + 1 := by
  cases p <;> simp [round, back, again, ran, tally]

section MainFork

variable {setup : Setup} {input : RunInput} {p : Point} {s : RunState}

/-- In turn, the ledger has nothing on rounds that are over. -/
theorem Reaches.ledger_current (hturn : setup.config.concurrentForks = false)
    (h : Reaches setup input p s) :
    ∀ round ∈ s.ledger.rounds.map RoundStats.round, s.round ≤ round := by
  have hretried : ∀ {p s} (directive : Directive), Reaches setup input p s →
      ∀ round ∈ (s.retried setup directive).ledger.rounds.map RoundStats.round,
        (s.retried setup directive).round ≤ round := by
    intro p s directive h
    have hfree : s.ledger.held = false := by
      rw [h.booked.held, hturn]
      rfl
    have hcurrent : ∀ stats ∈ s.ledger.rounds, stats.round < s.round + 1 :=
      fun stats hstats => Nat.lt_succ_of_le (h.booked.current stats hstats)
    rw [RunState.retried_ledger, Ledger.takeBefore_of_free hfree hcurrent]
    simp [Ledger.empty]
  induction h with
  | start => simp [RunState.start, Ledger.empty]
  | step h hcalls hreturned ih =>
    rw [RunState.stepped_ledger, RunState.stepped_round]
    intro round hround
    rcases (Ledger.mem_rounds_addTo _ _).mp hround with rfl | hround
    · exact Nat.le_refl _
    · exact ih round hround
  | fork h ih =>
    have htogether : setup.config.concurrentForks = true := h.fits
    rw [hturn] at htogether
    cases htogether
  | pass h hcond ih | fail h hcond ih => simpa using ih
  | goBack h hcap ih => exact hretried _ h
  | redraft h hcap ih => exact hretried _ h
  | _ => assumption

/-- Each round before the one that is going on has been written, once and in order. -/
theorem Reaches.written_rounds (hturn : setup.config.concurrentForks = false)
    (hsink : setup.sink.isSome) (h : Reaches setup input p s) :
    s.trace.written.map RoundStats.round = List.range' 1 (s.round - 1) := by
  have hbooked := h.booked
  have htotal := hbooked.total hsink
  have hascending : (s.trace.written.map RoundStats.round).Pairwise (· < ·) := by
    have hall := Ledger.ascending_tally s.context.history
    rw [← htotal] at hall
    exact List.pairwise_map.mpr (List.pairwise_append.mp hall).1
  have hran : ∀ round, round ∈ s.context.history.map Record.round ↔
      round ∈ s.trace.written.map RoundStats.round ∨
        round ∈ s.ledger.rounds.map RoundStats.round := by
    intro round
    rw [← Ledger.mem_rounds_tally, ← htotal, List.map_append, List.mem_append]
  refine hascending.eq_of_mem_iff List.pairwise_lt_range' fun round => ?_
  rw [List.mem_range'_1]
  constructor
  · intro hround
    obtain ⟨stats, hstats, rfl⟩ := List.mem_map.mp hround
    have hpast := hbooked.past stats hstats
    obtain ⟨record, hrecord, heq⟩ := List.mem_map.mp ((hran stats.round).mpr (.inl hround))
    have hfirst : record.round ∈ roundsOf record.slot s.context.history :=
      List.mem_map_of_mem (List.mem_filter.mpr ⟨hrecord, decide_eq_true rfl⟩)
    rw [h.history_rounds, List.mem_range'_1] at hfirst
    omega
  · rintro ⟨hfirst, hlast⟩
    -- the generating stage has run in the round, and the ledger has nothing on it any more
    have hgenerate : round ∈ roundsOf .generate s.context.history := by
      have hpoint := p.round_le_ran_generate setup.config
      rw [← h.round_eq] at hpoint
      rw [h.history_rounds, List.mem_range'_1]
      omega
    have hmem := (List.filter_sublist.map Record.round).mem hgenerate
    rcases (hran round).mp hmem with hwritten | hkept
    · exact hwritten
    · have hcurrent := h.ledger_current hturn round hkept
      omega

/-- What has been written accounts for the executions so far. -/
theorem Reaches.accounts (hsink : setup.sink.isSome) (h : Reaches setup input p s) :
    ∀ stats ∈ s.trace.written, Accounts s.context.history stats := by
  intro stats hstats
  have hmem : stats ∈ Ledger.tally s.context.history := by
    rw [← h.booked.total hsink]
    exact List.mem_append_left _ hstats
  refine accounts_of_mem_tally (fun slot => ?_) stats hmem
  rw [h.history_rounds]
  exact List.nodup_range'

theorem Trace.ownEvents_of_in_turn (hturn : setup.config.concurrentForks = false)
    (trace : Trace) : trace.ownEvents setup.config = trace.events := by
  refine List.filter_eq_self.mpr fun event _ => ?_
  cases hslot : event.slot? <;> simp [Event.beside, hslot, Config.beside_of_in_turn hturn]

end MainFork

/-! ## Runs that end with a stage error -/

/-- The executions that a run tells of: those of all calls before the last one, which has failed. -/
structure Told (setup : Setup) (trace : Trace) (history : List Record) : Prop where
  finished : trace.events.filter Event.finishes = history.map (Record.finished setup.runId)
  recorded : List.Forall₂ (Recorded setup) trace.calls.dropLast history

section Ends

variable {setup : Setup} {input : RunInput} {slot : Slot} {cause : StageError} {s : RunState}

/-- A stage fails in turn. -/
theorem Breaks.statistics (hturn : setup.config.concurrentForks = false)
    (hsink : setup.sink.isSome) (h : Breaks setup input (.stage slot cause) s) :
    ∃ history, Told setup s.trace history ∧
      s.trace.written.map RoundStats.round = List.range' 1 (latestRound s.trace.events - 1) ∧
      ∀ stats ∈ s.trace.written, Accounts history stats := by
  cases h with
  | @stage p s slot next cause h hcalls hfailed =>
    have hevents : (s.replied setup slot).trace.events =
        s.trace.events ++ [.stageStarted setup.runId slot s.round] := by
      simp
    have hwritten : (s.replied setup slot).trace.written = s.trace.written := by simp
    have hround : latestRound (s.replied setup slot).trace.events = s.round := by
      have hlatest := (h.shows.started slot h.round_eq).latestRound_eq
      rw [Trace.ownEvents_of_in_turn hturn] at hlatest
      rw [hevents, hlatest, h.round_eq]
    rw [hwritten, hround]
    refine ⟨s.context.history, ⟨?_, ?_⟩, h.written_rounds hturn hsink, h.accounts hsink⟩
    · have hfinished := h.shows.finished
      rw [Trace.ownEvents_of_in_turn hturn] at hfinished
      rw [hevents, List.filter_append, hfinished]
      exact List.append_nil _
    · have hcalls : (s.replied setup slot).trace.calls = s.trace.calls ++ [s.stepCall slot] := by
        simp
      have hown : s.trace.ownCalls setup.config = s.trace.calls :=
        List.filter_eq_self.mpr fun call _ => by simp [Config.beside_of_in_turn hturn]
      rw [hcalls, List.dropLast_concat, ← hown]
      exact h.recorded

/-- Side by side, a stage that fails leaves nothing written. -/
theorem Breaks.written_eq_nil (htogether : setup.config.concurrentForks = true)
    (h : Breaks setup input (.stage slot cause) s) : s.trace.written = [] := by
  cases h with
  | @stage p s slot next cause h hcalls hfailed => simpa using h.booked.kept htogether

/-- The sink cannot refuse statistics while the forks run. -/
theorem SideBySide.written_eq_nil {fork : RunState} {error : PipelineError}
    (hbeside : SideBySide setup input fork s) (h : Breaks setup input error s) :
    s.trace.written = [] := by
  have hstarted := hbeside.besideEvents h.proceeds
  cases h with
  | stage h hcalls hfailed => simpa using h.booked.kept hbeside.together
  | @stats p s s' done text h hfree htrace hrefused =>
    -- the packaging stage has not been announced where the ledger is free
    obtain ⟨more, hmore, -, hevents⟩ := s.exists_wroteAll_trace setup done
    rw [htrace, hmore, Trace.besideEvents_append_of_silent hevents, h.shows.beside,
      ← h.booked.held, hfree] at hstarted
    simp at hstarted

theorem Concludes.written_eq_nil {report : RunReport}
    (htogether : setup.config.concurrentForks = true) (h : Concludes setup input report)
    (hfailed : report.result = .error (.stage slot cause)) : report.trace.written = [] := by
  cases h with
  | finished | unwritten => cases hfailed
  | broken h =>
    cases hfailed
    exact h.written_eq_nil htogether
  | @brokenBeside fork s output error hbeside hreturned h =>
    cases hfailed
    obtain ⟨first, rest, -, htrace, hinterleaved⟩ :=
      exists_interleaved setup (setup.stages (fork.stepCall .package)).delay output hbeside.grown
    have hnone := h.written_eq_nil htogether
    rw [htrace, Trace.written_append] at hnone
    rw [hinterleaved, Trace.written_append]
    exact hnone
  | @stopped fork s cause hbeside hreply h =>
    have hnone : s.trace.written = [] := by
      rcases h with ⟨p, h⟩ | ⟨error, h⟩
      · exact h.booked.kept htogether
      · exact hbeside.written_eq_nil h
    obtain ⟨-, rest, hrest⟩ :=
      cutShort_between (setup.stages (fork.stepCall .package)).delay hbeside.grown
    rw [← hrest, Trace.written_append, List.append_eq_nil_iff] at hnone
    exact hnone.1

end Ends

/-- **The statistics of a run that a stage ends.** In turn, the sink has been given each round
before the one that the stage has failed in, once and in order, and the measurements of a round
account for the executions in it; these are of all calls but the one that has failed. Side by side,
the sink has been given nothing. -/
theorem statistics_of_aborted_run (setup : Setup) (input : RunInput) {slot : Slot}
    {cause : StageError} (hsink : setup.sink.isSome)
    (hfailed : (run setup input).result = .error (.stage slot cause)) :
    (setup.config.concurrentForks = false → ∃ history,
      Told setup (run setup input).trace history ∧
        (run setup input).trace.written.map RoundStats.round =
          List.range' 1 (latestRound (run setup input).trace.events - 1) ∧
        ∀ stats ∈ (run setup input).trace.written, Accounts history stats) ∧
    (setup.config.concurrentForks = true → (run setup input).trace.written = []) := by
  have hcode : input.isBlank = false := by
    refine Bool.eq_false_iff.mpr fun hblank => ?_
    rw [run, hblank] at hfailed
    cases hfailed
  have hconcludes := run_concludes setup hcode
  generalize run setup input = report at hconcludes hfailed
  constructor
  · intro hturn
    cases hconcludes with
    | finished | unwritten => cases hfailed
    | broken h =>
      cases hfailed
      exact h.statistics hturn hsink
    | brokenBeside hbeside | stopped hbeside =>
      have htogether := hbeside.together
      rw [hturn] at htogether
      cases htogether
  · intro htogether
    exact hconcludes.written_eq_nil htogether hfailed

/-- The reviews fail, and so does the identifying stage when it is called again. -/
def Setup.abortedInRoundTwo (concurrentForks : Bool) : Setup :=
  { Setup.constant { reviewRetries := 2, concurrentForks } "" with
    stages := fun call =>
      if call.slot = .identify ∧ .generate ∈ call.earlier then ⟨2, .error .emptyResponse⟩
      else ⟨2, .ok ⟨"VERDICT: fail", ⟨1, 2, 3⟩⟩⟩
    sink := some fun _ _ => none }

theorem round_one_of_aborted_run :
    let setup := Setup.abortedInRoundTwo false
    let input : RunInput := { code := "fn main() \x7b\x7d" }
    setup.sink.isSome ∧ (run setup input).result = .error (.stage .identify .emptyResponse) ∧
      (run setup input).trace.written.map RoundStats.round = [1] ∧
      ∃ history, Told setup (run setup input).trace history ∧
        ∀ stats ∈ (run setup input).trace.written, Accounts history stats := by
  intro setup input
  have hresult : (run setup input).result = .error (.stage .identify .emptyResponse) := by
    decide +kernel
  have hlatest : latestRound (run setup input).trace.events = 2 := by decide +kernel
  obtain ⟨history, htold, hrounds, haccounts⟩ :=
    (statistics_of_aborted_run setup input rfl hresult).1 rfl
  rw [hlatest] at hrounds
  exact ⟨rfl, hresult, hrounds, history, htold, haccounts⟩

/-- Side by side, a round whose stages have all finished is not written if a later one is
aborted. -/
theorem completed_round_unwritten_side_by_side :
    let setup := Setup.abortedInRoundTwo true
    let input : RunInput := { code := "fn main() \x7b\x7d" }
    (run setup input).result = .error (.stage .identify .emptyResponse) ∧
      latestRound (run setup input).trace.events = 2 ∧
      Completed (run setup input).trace.events 1 ∧
      ¬ ∃ stats ∈ (run setup input).trace.written, stats.round = 1 := by
  decide +kernel

end ScriptForge.Pipeline

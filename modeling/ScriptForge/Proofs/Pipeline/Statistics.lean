import Mathlib.Data.List.Induction
import Mathlib.Data.List.Sort
import ScriptForge.Proofs.Pipeline.Executions
import ScriptForge.Proofs.Pipeline.Ledger

/-!
# The statistics of a run

What the ledger has got and what has been written of it make up the measurements of all executions
so far (`Reaches.booked`). As no slot runs twice in a round, the measurements of a round are those
of the executions in it (`accounts_of_mem_tally`). So a run that returns has written each round once
and has accounted for each execution (`statistics_of_run`), also where the packaging stage, which
runs in the first round, is entered after all other rounds.
-/

namespace ScriptForge.Pipeline

/-- The executions of a slot in a round. -/
def executions (history : List Record) (slot : Slot) (round : Nat) : List Record :=
  history.filter fun record => record.slot = slot ∧ record.round = round

theorem executions_concat (history : List Record) (record : Record) (slot : Slot) (round : Nat) :
    executions (history ++ [record]) slot round = executions history slot round ++
      if record.slot = slot ∧ record.round = round then [record] else [] := by
  by_cases h : record.slot = slot ∧ record.round = round <;> simp [executions, h]

theorem executions_eq_nil {history : List Record} {slot : Slot} {round : Nat}
    (h : round ∉ roundsOf slot history) : executions history slot round = [] := by
  refine List.filter_eq_nil_iff.mpr fun record hrecord heq => h ?_
  obtain ⟨hslot, hround⟩ := of_decide_eq_true heq
  exact hround ▸ List.mem_map_of_mem (List.mem_filter.mpr ⟨hrecord, decide_eq_true hslot⟩)

/-- The measurements of a round account for the executions in it: a slot has measurements if it has
run, and it has not run more than once. -/
def Accounts (history : List Record) (stats : RoundStats) : Prop :=
  ∀ slot, ∃ executed : Option Record,
    executions history slot stats.round = executed.toList ∧
    stats.latency.get? slot = executed.map Record.latency ∧
    stats.tokens.get? slot = executed.map fun record => record.usage.total

/-! ## The measurements of all executions -/

namespace Ledger

/-- The measurements of executions, round by round. -/
def tally (history : List Record) : List RoundStats :=
  history.foldl (fun rounds record => addTo record rounds) []

theorem tally_concat (history : List Record) (record : Record) :
    tally (history ++ [record]) = addTo record (tally history) := by
  simp [tally]

theorem ascending_tally (history : List Record) : Ascending (tally history) := by
  induction history using List.reverseRecOn with
  | nil => exact .nil
  | append_singleton history record ih =>
    rw [tally_concat]
    exact ih.addTo record

theorem mem_rounds_tally {history : List Record} {round : Nat} :
    round ∈ (tally history).map RoundStats.round ↔ round ∈ history.map Record.round := by
  induction history using List.reverseRecOn with
  | nil => rfl
  | append_singleton history record ih =>
    rw [tally_concat, mem_rounds_addTo, ih, List.map_append, List.mem_append, or_comm]
    simp

end Ledger

theorem get?_count_latency (stats : RoundStats) (record : Record) (slot : Slot) :
    (stats.count record).latency.get? slot =
      if slot = record.slot then some ((stats.latency.get? record.slot).getD 0 + record.latency)
      else stats.latency.get? slot :=
  SlotMap.get?_add stats.latency record.slot slot record.latency

theorem get?_count_tokens (stats : RoundStats) (record : Record) (slot : Slot) :
    (stats.count record).tokens.get? slot =
      if slot = record.slot then some ((stats.tokens.get? record.slot).getD 0 + record.usage.total)
      else stats.tokens.get? slot :=
  SlotMap.get?_add stats.tokens record.slot slot record.usage.total

/-- A round in which nothing has run has no measurements. -/
theorem accounts_ofRound {history : List Record} {round : Nat}
    (hround : round ∉ history.map Record.round) : Accounts history (.ofRound round) := by
  refine fun slot => ⟨none, executions_eq_nil fun hmem => hround ?_, SlotMap.get?_empty slot,
    SlotMap.get?_empty slot⟩
  exact ((List.filter_sublist).map Record.round).mem hmem

/-- An execution in another round changes nothing. -/
theorem Accounts.concat_of_ne {history : List Record} {stats : RoundStats} {record : Record}
    (h : Accounts history stats) (hround : stats.round ≠ record.round) :
    Accounts (history ++ [record]) stats := by
  intro slot
  obtain ⟨executed, hexecuted, hlatency, htokens⟩ := h slot
  exact ⟨executed, by simp [executions_concat, hexecuted, Ne.symm hround], hlatency, htokens⟩

/-- An execution is counted in its round, where its slot has not run before. -/
theorem Accounts.count {history : List Record} {stats : RoundStats} {record : Record}
    (h : Accounts history stats) (hround : stats.round = record.round)
    (hnew : record.round ∉ roundsOf record.slot history) :
    Accounts (history ++ [record]) (stats.count record) := by
  intro slot
  obtain ⟨executed, hexecuted, hlatency, htokens⟩ := h slot
  by_cases hslot : slot = record.slot
  · subst hslot
    rw [hround, executions_eq_nil hnew] at hexecuted
    obtain rfl : executed = none := by
      cases executed with
      | none => rfl
      | some _ => cases hexecuted
    refine ⟨some record, ?_, ?_, ?_⟩
    · simp [executions_concat, hround, executions_eq_nil hnew]
    · rw [get?_count_latency, hlatency]
      simp
    · rw [get?_count_tokens, htokens]
      simp
  · refine ⟨executed, ?_, ?_, ?_⟩
    · simp [executions_concat, hexecuted, Ne.symm hslot]
    · rw [get?_count_latency, if_neg hslot, hlatency]
    · rw [get?_count_tokens, if_neg hslot, htokens]

theorem accounts_of_mem_tally {history : List Record}
    (hnodup : ∀ slot, (roundsOf slot history).Nodup) :
    ∀ stats ∈ Ledger.tally history, Accounts history stats := by
  induction history using List.reverseRecOn with
  | nil => simp [Ledger.tally]
  | append_singleton history record ih =>
    simp only [roundsOf_concat, List.nodup_append] at hnodup
    have hnew : record.round ∉ roundsOf record.slot history := fun hmem =>
      (hnodup record.slot).2.2 _ hmem record.round (by simp) rfl
    specialize ih fun slot => (hnodup slot).1
    intro stats hstats
    rw [Ledger.tally_concat] at hstats
    rcases Ledger.mem_addTo record (Ledger.ascending_tally history) hstats with
      ⟨hmem, hround⟩ | ⟨before, rfl, hround, hmem | ⟨rfl, hnone⟩⟩
    · exact (ih stats hmem).concat_of_ne hround
    · exact (ih before hmem).count hround hnew
    · refine (accounts_ofRound fun hmem => ?_).count hround hnew
      obtain ⟨other, hother, heq⟩ := List.mem_map.mp (Ledger.mem_rounds_tally.mpr hmem)
      exact hnone other hother heq

/-! ## The ledger and the sink along a run -/

/-- What the ledger has and what has been written make up the measurements of all executions. -/
structure Booked (setup : Setup) (p : Point) (s : RunState) : Prop where
  total : setup.sink.isSome → s.trace.written ++ s.ledger.rounds = Ledger.tally s.context.history
  /-- What has been written is on rounds that are over. -/
  past : ∀ stats ∈ s.trace.written, stats.round < s.round
  current : ∀ stats ∈ s.ledger.rounds, stats.round ≤ s.round
  held : s.ledger.held = (setup.config.concurrentForks && p.parted)
  /-- Side by side, nothing is written before the forks have ended. -/
  kept : setup.config.concurrentForks = true → s.trace.written = []

namespace Booked

variable {setup : Setup} {p q : Point} {s : RunState}

theorem stepped (h : Booked setup p s) (slot : Slot) (output : StageOutput)
    (hparted : setup.config.concurrentForks = true → q.parted = p.parted) :
    Booked setup q (s.stepped setup slot output) where
  total hsink := by
    rw [RunState.stepped_written, RunState.stepped_ledger, Ledger.add, RunState.stepped_history,
      Ledger.tally_concat, ← h.total hsink]
    exact (Ledger.addTo_append _ _ h.past).symm
  past := by
    rw [RunState.stepped_written, RunState.stepped_round]
    exact h.past
  current := by
    rw [RunState.stepped_ledger, RunState.stepped_round]
    exact Ledger.round_le_of_mem_addTo _ _ (Nat.le_refl _) h.current
  held := by
    rw [RunState.stepped_ledger]
    refine h.held.trans ?_
    cases htogether : setup.config.concurrentForks with
    | false => rfl
    | true => rw [hparted htogether]
  kept htogether := by rw [RunState.stepped_written, h.kept htogether]

theorem forked (h : Booked setup .fork s) (htogether : setup.config.concurrentForks = true)
    (k : Nat) : Booked setup (.draft k) (s.forked setup) where
  total hsink := by
    rw [RunState.forked_written]
    exact h.total hsink
  past := by
    rw [RunState.forked_written]
    exact h.past
  current := h.current
  held := by
    rw [htogether]
    rfl
  kept htogether := by rw [RunState.forked_written, h.kept htogether]

/-- When a round starts, the rounds before it have been written, unless the ledger is held. -/
theorem retried (h : Booked setup p s) (directive : Directive) (hparted : p.parted = true)
    (hparted' : q.parted = true) : Booked setup q (s.retried setup directive) := by
  have hcurrent : ∀ stats ∈ s.ledger.rounds, stats.round < s.round + 1 :=
    fun stats hstats => Nat.lt_succ_of_le (h.current stats hstats)
  have hheld : s.ledger.held = setup.config.concurrentForks := by
    rw [h.held, hparted, Bool.and_true]
  have hpast : ∀ stats ∈ s.trace.written, stats.round < s.round + 1 :=
    fun stats hstats => Nat.lt_succ_of_lt (h.past stats hstats)
  cases htogether : setup.config.concurrentForks with
  | true =>
    have htake := Ledger.takeBefore_of_held (hheld.trans htogether) (s.round + 1)
    have hwritten : (s.retried setup directive).trace.written = s.trace.written := by
      rw [RunState.retried_trace, htake, RunState.wroteAll_nil]
      simp
    have hledger : (s.retried setup directive).ledger = s.ledger := by
      rw [RunState.retried_ledger, htake]
    exact {
      total := by rw [hwritten, hledger]; exact h.total
      past := by rw [hwritten]; exact hpast
      current := by rw [hledger]; exact fun stats hstats => Nat.le_of_lt (hcurrent stats hstats)
      held := by rw [hledger, h.held, hparted, hparted']
      kept := fun htogether => by rw [hwritten, h.kept htogether] }
  | false =>
    have htake := Ledger.takeBefore_of_free (hheld.trans htogether) hcurrent
    have hwritten : (s.retried setup directive).trace.written =
        s.trace.written ++ if setup.sink.isSome then s.ledger.rounds else [] := by
      rw [RunState.retried_trace, htake, Trace.written_append, RunState.wroteAll_written]
      simp
    have hledger : (s.retried setup directive).ledger = .empty := by
      rw [RunState.retried_ledger, htake]
    exact {
      total := fun hsink => by
        rw [hwritten, hledger, if_pos hsink]
        exact (List.append_nil _).trans (h.total hsink)
      past := by
        rw [hwritten]
        refine List.forall_mem_append.mpr ⟨hpast, fun stats hstats => ?_⟩
        split at hstats
        · exact hcurrent stats hstats
        · cases hstats
      current := by simp [hledger, Ledger.empty]
      held := by
        rw [hledger, htogether]
        rfl
      kept := fun h => by
        rw [htogether] at h
        cases h }

end Booked

theorem Reaches.booked {setup : Setup} {input : RunInput} {p : Point} {s : RunState}
    (h : Reaches setup input p s) : Booked setup p s := by
  induction h with
  | start =>
    exact {
      total := fun _ => rfl
      past := by simp [RunState.start]
      current := by simp [RunState.start, Ledger.empty]
      held := (Bool.and_false _).symm
      kept := fun _ => rfl }
  | step h hcalls hreturned ih =>
    exact ih.stepped _ _ fun htogether => hcalls.parted_next htogether _
  | fork h ih => exact ih.forked h.fits 0
  | draft h ih => exact { ih with }
  | pass h hverdict ih | fail h hverdict ih =>
    exact {
      total := by simpa using ih.total
      past := by simpa using ih.past
      current := by simpa using ih.current
      held := by
        rw [RunState.judged_ledger]
        exact ih.held
      kept := by simpa using ih.kept }
  | exhaust h hcap ih | keep h hcap ih | accept h hvalid ih | refuse h hvalid ih =>
    exact {
      total := by simpa using ih.total
      past := by simpa using ih.past
      current := ih.current
      held := ih.held
      kept := by simpa using ih.kept }
  | goBack h hcap ih => exact ih.retried _ rfl rfl
  | redraft h hcap ih => exact ih.retried _ rfl rfl

/-! ## Runs that return -/

section Runs

variable {setup : Setup} {input : RunInput} {passed valid : Bool} {k m : Nat} {script : String}
  {after s : RunState}

/-- When the forks have ended, nothing is kept back. -/
theorem Joins.total (hjoins : Joins setup input after s)
    (h : Reaches setup input (.settled passed valid k m script) after)
    (hsink : setup.sink.isSome) :
    s.trace.written ++ s.ledger.rounds = Ledger.tally s.context.history := by
  have hbooked := h.booked
  cases hjoins with
  | inTurn => exact hbooked.total hsink
  | @together fork output hbeside hreturned =>
    have hwritten : after.trace.written = [] := hbooked.kept hbeside.together
    have htotal := hbooked.total hsink
    rw [hwritten, List.nil_append] at htotal
    rw [RunM.joined_written hbeside.grown, hwritten, List.nil_append]
    change Ledger.addTo _ after.ledger.rounds = Ledger.tally (after.context.history ++ [_])
    rw [Ledger.tally_concat, htotal]

/-- Something has run in each round, and nothing in any other. -/
theorem Joins.mem_history_rounds (hjoins : Joins setup input after s)
    (h : Reaches setup input (.settled passed valid k m script) after) {round : Nat} :
    round ∈ s.context.history.map Record.round ↔ 1 ≤ round ∧ round ≤ s.round := by
  constructor
  · intro hround
    obtain ⟨record, hrecord, rfl⟩ := List.mem_map.mp hround
    have hran : record.round ∈ roundsOf record.slot s.context.history :=
      List.mem_map_of_mem (List.mem_filter.mpr ⟨hrecord, decide_eq_true rfl⟩)
    exact hjoins.mem_roundsOf h hran
  · intro hround
    have hmem : round ∈ roundsOf .generate s.context.history := by
      rw [hjoins.history_rounds h, List.mem_range'_1]
      change 1 ≤ round ∧ round < 1 + (k + m + 1 + _)
      rw [hjoins.round_eq h] at hround
      omega
    exact (List.filter_sublist.map Record.round).mem hmem

end Runs

/-- **The statistics of a run.** The sink of a run that returns is given the rounds of the run, each
once and in ascending order. The measurements of a round account for the executions in it, every
execution belongs to one of these rounds, and there is one for each call. -/
theorem statistics_of_run (setup : Setup) (input : RunInput) {output : RunOutput}
    (hsink : setup.sink.isSome) (hok : (run setup input).result = .ok output) :
    (run setup input).trace.written.map RoundStats.round = List.range' 1 output.rounds ∧
      (∀ stats ∈ (run setup input).trace.written, Accounts output.history stats) ∧
      (∀ record ∈ output.history, 1 ≤ record.round ∧ record.round ≤ output.rounds) ∧
      List.Forall₂ (Recorded setup) ((run setup input).trace.committed setup.config)
        output.history := by
  obtain ⟨passed, valid, k, m, script, after, s, h, hjoins, htrace, rfl⟩ := finished_of_run_ok hok
  have hwritten : (s.finished setup).trace.written = Ledger.tally s.context.history := by
    rw [RunState.finished_written, if_pos hsink, hjoins.total h hsink]
  have hrounds : ((Ledger.tally s.context.history).map RoundStats.round).Pairwise (· < ·) :=
    List.pairwise_map.mpr (Ledger.ascending_tally _)
  rw [htrace, hwritten, RunState.finished_committed]
  refine ⟨?_, accounts_of_mem_tally fun slot => ?_, fun record hrecord => ?_, hjoins.recorded h⟩
  · refine hrounds.eq_of_mem_iff List.pairwise_lt_range' fun round => ?_
    rw [Ledger.mem_rounds_tally, hjoins.mem_history_rounds h, List.mem_range'_1]
    change 1 ≤ round ∧ round ≤ s.round ↔ 1 ≤ round ∧ round < 1 + s.round
    omega
  · rw [hjoins.history_rounds h]
    exact List.nodup_range'
  · exact (hjoins.mem_history_rounds h).mp (List.mem_map_of_mem hrecord)

theorem statistics_of_counting_run :
    let setup : Setup := ⟨"", { concurrentForks := true },
      fun call => ⟨1, .ok ⟨call.slot.id, ⟨1, 2, 3⟩⟩⟩, .byTag, .default, some fun _ _ => none⟩
    let input : RunInput := { code := "fn main() \x7b\x7d" }
    setup.sink.isSome ∧ ∃ output, (run setup input).result = .ok output ∧
      (run setup input).trace.written.map RoundStats.round = List.range' 1 output.rounds ∧
      ∀ stats ∈ (run setup input).trace.written, Accounts output.history stats := by
  intro setup input
  have hcode : input.isBlank = false := by decide
  have htaken : setup.NothingRefused := by
    intro sink hsink _ _
    cases hsink
    rfl
  obtain ⟨output, hok⟩ := exists_run_ok hcode (fun _ => ⟨_, rfl⟩) htaken
  obtain ⟨hrounds, haccounts, -⟩ := statistics_of_run setup input rfl hok
  exact ⟨rfl, output, hok, hrounds, haccounts⟩

end ScriptForge.Pipeline

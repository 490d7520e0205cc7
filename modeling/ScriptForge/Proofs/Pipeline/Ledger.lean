import Mathlib.Data.List.Basic
import ScriptForge.Pipeline.Ledger

/-!
# Adding to the ledger

The order in which measurements are added to the ledger does not matter (`addTo_comm`), and
measurements of a later round leave the rounds before it alone (`addTo_append`). The rounds stay in
ascending order (`Ascending.addTo`). Leaving the times aside, what the ledger has on a round are the
slots that ran in it and the tokens that they used.
-/

namespace ScriptForge.Pipeline

namespace SlotMap

variable {α β : Type}

/-- The table with every entry changed. -/
def map (f : α → β) (table : SlotMap α) : SlotMap β where
  identify := table.identify.map f
  encapsulate := table.encapsulate.map f
  package := table.package.map f
  generate := table.generate.map f
  combine := table.combine.map f
  review := table.review.map f

@[simp] theorem get?_map (f : α → β) (table : SlotMap α) (slot : Slot) :
    (table.map f).get? slot = (table.get? slot).map f := by
  cases slot <;> rfl

@[ext] theorem ext_get? {first second : SlotMap α}
    (h : ∀ slot, first.get? slot = second.get? slot) : first = second := by
  have := h .identify
  have := h .encapsulate
  have := h .package
  have := h .generate
  have := h .combine
  have := h .review
  cases first
  cases second
  simp_all [get?]

theorem get?_set (table : SlotMap α) (slot other : Slot) (a : α) :
    (table.set slot a).get? other = if other = slot then some a else table.get? other := by
  split
  · subst other
    exact table.get?_set_self slot a
  · exact table.get?_set_of_ne ‹_› a

theorem get?_add (table : SlotMap Nat) (slot other : Slot) (n : Nat) :
    (table.add slot n).get? other =
      if other = slot then some ((table.get? slot).getD 0 + n) else table.get? other :=
  get?_set table slot other _

theorem add_comm (table : SlotMap Nat) (slot other : Slot) (m n : Nat) :
    (table.add slot m).add other n = (table.add other n).add slot m := by
  ext1 third
  by_cases h : slot = other
  · subst h
    by_cases hthird : third = slot
    · simp [get?_add, hthird, Nat.add_right_comm]
    · simp [get?_add, hthird]
  · by_cases hthird : third = slot
    · simp [get?_add, hthird, h]
    · simp [get?_add, hthird, Ne.symm h]

theorem map_zero_add (table : SlotMap Nat) (slot : Slot) (n : Nat) :
    (table.add slot n).map (fun _ => 0) = (table.map fun _ => 0).add slot 0 := by
  ext1 other
  simp only [get?_map, get?_add]
  split
  · cases table.get? slot <;> rfl
  · rfl

end SlotMap

/-- The record with the time left aside. -/
def Record.untimed (record : Record) : Record :=
  { record with latency := 0 }

/-- The measurements of one execution alone. -/
def Record.stats (record : Record) : RoundStats :=
  (RoundStats.ofRound record.round).add record.slot record.latency record.usage.total

@[simp] theorem Record.stats_round (record : Record) : record.stats.round = record.round := rfl

namespace RoundStats

/-- The measurements with those of one more execution. -/
def count (stats : RoundStats) (record : Record) : RoundStats :=
  stats.add record.slot record.latency record.usage.total

/-- The measurements with the times left aside: which slots ran and the tokens they used. -/
def untimed (stats : RoundStats) : RoundStats :=
  { stats with latency := stats.latency.map fun _ => 0 }

@[simp] theorem count_round (stats : RoundStats) (record : Record) :
    (stats.count record).round = stats.round := rfl

@[simp] theorem untimed_round (stats : RoundStats) : stats.untimed.round = stats.round := rfl

theorem count_comm (stats : RoundStats) (record other : Record) :
    (stats.count record).count other = (stats.count other).count record := by
  simp only [count, add, SlotMap.add_comm _ record.slot other.slot]

theorem count_stats_comm {record other : Record} (h : record.round = other.round) :
    record.stats.count other = other.stats.count record := by
  rw [Record.stats, Record.stats, h]
  exact count_comm _ record other

theorem untimed_count (stats : RoundStats) (record : Record) :
    (stats.count record).untimed = stats.untimed.count record.untimed := by
  simp only [untimed, count, add, Record.untimed, SlotMap.map_zero_add]

theorem untimed_stats (record : Record) : record.stats.untimed = record.untimed.stats :=
  untimed_count (ofRound record.round) record

end RoundStats

namespace Ledger

variable (record other : Record) {stats : RoundStats} (rest rounds : List RoundStats)

theorem addTo_nil : addTo record [] = [record.stats] := rfl

theorem addTo_of_lt (h : record.round < stats.round) :
    addTo record (stats :: rest) = record.stats :: stats :: rest := by
  rw [addTo, if_pos h]
  rfl

theorem addTo_of_eq (h : record.round = stats.round) :
    addTo record (stats :: rest) = stats.count record :: rest := by
  rw [addTo, if_neg (Nat.not_lt.mpr (Nat.le_of_eq h.symm)), if_pos h]
  rfl

theorem addTo_of_gt (h : stats.round < record.round) :
    addTo record (stats :: rest) = stats :: addTo record rest := by
  rw [addTo, if_neg (Nat.not_lt_of_gt h), if_neg (Nat.ne_of_gt h)]

/-- Measurements that come before all others can be added in either order. -/
theorem addTo_stats_comm (hrecord : addTo record rest = record.stats :: rest)
    (hother : addTo other rest = other.stats :: rest) :
    addTo record (other.stats :: rest) = addTo other (record.stats :: rest) := by
  rcases Nat.lt_trichotomy record.round other.round with h | h | h
  · rw [addTo_of_lt record rest h, addTo_of_gt other rest h, hother]
  · rw [addTo_of_eq record rest h, addTo_of_eq other rest h.symm,
      RoundStats.count_stats_comm h.symm]
  · rw [addTo_of_gt record rest h, addTo_of_lt other rest h, hrecord]

theorem addTo_comm : addTo record (addTo other rounds) = addTo other (addTo record rounds) := by
  induction rounds with
  | nil => exact addTo_stats_comm record other [] rfl rfl
  | cons stats rest ih =>
    rcases Nat.lt_trichotomy record.round stats.round with h | h | h <;>
      rcases Nat.lt_trichotomy other.round stats.round with h' | h' | h'
    case inl.inl =>
      rw [addTo_of_lt other rest h', addTo_of_lt record rest h]
      exact addTo_stats_comm record other _ (addTo_of_lt record rest h) (addTo_of_lt other rest h')
    all_goals
      grind [addTo_of_lt, addTo_of_eq, addTo_of_gt, RoundStats.count_comm, RoundStats.count_round,
        Record.stats_round]

/-- Measurements of a round come after those of all rounds before it. -/
theorem addTo_append {past : List RoundStats} (hpast : ∀ stats ∈ past, stats.round < record.round) :
    addTo record (past ++ rounds) = past ++ addTo record rounds := by
  induction past with
  | nil => rfl
  | cons stats past ih =>
    obtain ⟨hstats, hpast⟩ := List.forall_mem_cons.mp hpast
    rw [List.cons_append, addTo_of_gt record _ hstats, ih hpast]
    rfl

theorem untimed_addTo :
    (addTo record rounds).map RoundStats.untimed =
      addTo record.untimed (rounds.map RoundStats.untimed) := by
  induction rounds with
  | nil => simp [addTo_nil, RoundStats.untimed_stats]
  | cons stats rest ih =>
    rcases Nat.lt_trichotomy record.round stats.round with h | h | h
    · have huntimed : record.untimed.round < stats.untimed.round := h
      rw [addTo_of_lt record rest h, List.map_cons, List.map_cons,
        addTo_of_lt record.untimed _ huntimed, RoundStats.untimed_stats]
    · have huntimed : record.untimed.round = stats.untimed.round := h
      rw [addTo_of_eq record rest h, List.map_cons, List.map_cons,
        addTo_of_eq record.untimed _ huntimed, RoundStats.untimed_count]
    · have huntimed : stats.untimed.round < record.untimed.round := h
      rw [addTo_of_gt record rest h, List.map_cons, List.map_cons,
        addTo_of_gt record.untimed _ huntimed, ih]

/-- Added measurements belong to the round of the record or to a round that was there. -/
theorem round_le_of_mem_addTo {round : Nat} (hrecord : record.round ≤ round)
    (hrounds : ∀ stats ∈ rounds, stats.round ≤ round) :
    ∀ stats ∈ addTo record rounds, stats.round ≤ round := by
  induction rounds with
  | nil => simpa [addTo_nil] using hrecord
  | cons first rest ih =>
    obtain ⟨hfirst, hrest⟩ := List.forall_mem_cons.mp hrounds
    rcases Nat.lt_trichotomy record.round first.round with h | h | h
    · rw [addTo_of_lt record rest h]
      exact List.forall_mem_cons.mpr ⟨hrecord, hrounds⟩
    · rw [addTo_of_eq record rest h]
      exact List.forall_mem_cons.mpr ⟨hfirst, hrest⟩
    · rw [addTo_of_gt record rest h]
      exact List.forall_mem_cons.mpr ⟨hfirst, ih hrest⟩

/-- The rounds are in ascending order, each at most once. -/
def Ascending (rounds : List RoundStats) : Prop :=
  rounds.Pairwise fun stats other => stats.round < other.round

theorem mem_rounds_addTo {round : Nat} :
    round ∈ (addTo record rounds).map RoundStats.round ↔
      round = record.round ∨ round ∈ rounds.map RoundStats.round := by
  induction rounds with
  | nil => simp [addTo_nil]
  | cons first rest ih =>
    rcases Nat.lt_trichotomy record.round first.round with h | h | h
    · simp [addTo_of_lt record rest h]
    · simp [addTo_of_eq record rest h, h]
    · rw [addTo_of_gt record rest h, List.map_cons, List.mem_cons, ih, List.map_cons, List.mem_cons]
      exact or_left_comm

theorem Ascending.addTo {rounds : List RoundStats} (h : Ascending rounds) :
    Ascending (addTo record rounds) := by
  induction rounds with
  | nil => simp [Ascending, addTo_nil]
  | cons first rest ih =>
    obtain ⟨hfirst, hrest⟩ := List.pairwise_cons.mp h
    rcases Nat.lt_trichotomy record.round first.round with hlt | heq | hgt
    · rw [addTo_of_lt record rest hlt]
      refine List.pairwise_cons.mpr ⟨fun stats hstats => ?_, h⟩
      rcases List.mem_cons.mp hstats with rfl | hstats
      · exact hlt
      · exact Nat.lt_trans hlt (hfirst stats hstats)
    · rw [addTo_of_eq record rest heq]
      exact List.pairwise_cons.mpr ⟨hfirst, hrest⟩
    · rw [addTo_of_gt record rest hgt]
      refine List.pairwise_cons.mpr ⟨fun stats hstats => ?_, ih hrest⟩
      rcases (mem_rounds_addTo record rest).mp (List.mem_map_of_mem hstats) with hround | hround
      · rwa [hround]
      · obtain ⟨other, hother, hround⟩ := List.mem_map.mp hround
        exact hround ▸ hfirst other hother

/-- Adding a record counts it in the measurements of its round, which are new if there are none. The
measurements of other rounds stay as they are. -/
theorem mem_addTo {rounds : List RoundStats} (h : Ascending rounds)
    (hstats : stats ∈ addTo record rounds) :
    (stats ∈ rounds ∧ stats.round ≠ record.round) ∨
      ∃ before, stats = before.count record ∧ before.round = record.round ∧
        (before ∈ rounds ∨
          before = .ofRound record.round ∧ ∀ other ∈ rounds, other.round ≠ record.round) := by
  induction rounds with
  | nil =>
    rw [addTo_nil, List.mem_singleton] at hstats
    exact .inr ⟨.ofRound record.round, hstats, rfl, .inr ⟨rfl, by simp⟩⟩
  | cons first rest ih =>
    obtain ⟨hfirst, hrest⟩ := List.pairwise_cons.mp h
    rcases Nat.lt_trichotomy record.round first.round with hlt | heq | hgt
    · have hlater : ∀ other ∈ first :: rest, record.round < other.round :=
        List.forall_mem_cons.mpr ⟨hlt, fun other hother => Nat.lt_trans hlt (hfirst other hother)⟩
      rw [addTo_of_lt record rest hlt] at hstats
      rcases List.mem_cons.mp hstats with rfl | hstats
      · exact .inr ⟨.ofRound record.round, rfl, rfl,
          .inr ⟨rfl, fun other hother => Nat.ne_of_gt (hlater other hother)⟩⟩
      · exact .inl ⟨hstats, Nat.ne_of_gt (hlater stats hstats)⟩
    · rw [addTo_of_eq record rest heq] at hstats
      rcases List.mem_cons.mp hstats with rfl | hstats
      · exact .inr ⟨first, rfl, heq.symm, .inl (List.mem_cons_self ..)⟩
      · exact .inl ⟨List.mem_cons_of_mem _ hstats, heq ▸ Nat.ne_of_gt (hfirst stats hstats)⟩
    · rw [addTo_of_gt record rest hgt] at hstats
      rcases List.mem_cons.mp hstats with rfl | hstats
      · exact .inl ⟨List.mem_cons_self .., Nat.ne_of_lt hgt⟩
      · rcases ih hrest hstats with ⟨hmem, hround⟩ | ⟨before, hcount, hround, hmem | ⟨hnew, hnone⟩⟩
        · exact .inl ⟨List.mem_cons_of_mem _ hmem, hround⟩
        · exact .inr ⟨before, hcount, hround, .inl (List.mem_cons_of_mem _ hmem)⟩
        · exact .inr ⟨before, hcount, hround,
            .inr ⟨hnew, List.forall_mem_cons.mpr ⟨Nat.ne_of_lt hgt, hnone⟩⟩⟩
theorem takeBefore_of_held {ledger : Ledger} (hheld : ledger.held = true) (round : Nat) :
    ledger.takeBefore round = ([], ledger) := by
  rw [takeBefore, hheld]
  rfl

theorem takeBefore_of_free {ledger : Ledger} (hfree : ledger.held = false) {round : Nat}
    (hrounds : ∀ stats ∈ ledger.rounds, stats.round < round) :
    ledger.takeBefore round = (ledger.rounds, .empty) := by
  have hbefore : ledger.rounds.filter (·.round < round) = ledger.rounds :=
    List.filter_eq_self.mpr fun stats hstats => by simpa using hrounds stats hstats
  have hafter : ledger.rounds.filter (round ≤ ·.round) = [] :=
    List.filter_eq_nil_iff.mpr fun stats hstats => by simpa using hrounds stats hstats
  rw [takeBefore, hfree, hbefore, hafter]
  rfl

end Ledger

end ScriptForge.Pipeline

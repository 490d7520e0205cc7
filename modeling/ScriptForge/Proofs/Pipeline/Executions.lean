import Mathlib.Data.List.Basic
import Mathlib.Data.List.Forall2
import ScriptForge.Proofs.Pipeline.Concludes

/-!
# The executions that a run keeps

The history of a run has one record for each call that has returned, in the order in which the
outputs were committed (`recorded`, `Joins.recorded`). A slot has run once in each round from the
first up to a number that the point of the run tells (`history_rounds`): no stage runs twice in a
round, and none runs in a round after having paused for one.
-/

namespace ScriptForge.Pipeline

/-- The rounds in which a slot has run. -/
def roundsOf (slot : Slot) (history : List Record) : List Nat :=
  (history.filter (·.slot = slot)).map Record.round

theorem roundsOf_concat (slot : Slot) (history : List Record) (record : Record) :
    roundsOf slot (history ++ [record]) =
      roundsOf slot history ++ if record.slot = slot then [record.round] else [] := by
  by_cases h : record.slot = slot <;> simp [roundsOf, h]

@[simp] theorem Record.ofOutput_slot (slot : Slot) (round latency : Nat) (output : StageOutput) :
    (Record.ofOutput slot round latency output).slot = slot := rfl

@[simp] theorem Record.ofOutput_round (slot : Slot) (round latency : Nat) (output : StageOutput) :
    (Record.ofOutput slot round latency output).round = round := rfl

/-- The record tells of the execution that a call has led to: how long the stage took, what it used
and the fingerprint of the text that it returned. -/
def Recorded (setup : Setup) (call : Call) (record : Record) : Prop :=
  ∃ output, (setup.stages call).result = .ok output ∧ record.slot = call.slot ∧
    record.latency = (setup.stages call).delay ∧ record.usage = output.usage ∧
    record.outputHash = Digest.fingerprint output.text

theorem recorded_ofOutput {setup : Setup} {call : Call} {output : StageOutput} (round : Nat)
    (hreturned : (setup.stages call).result = .ok output) :
    Recorded setup call (.ofOutput call.slot round (setup.stages call).delay output) :=
  ⟨output, hreturned, rfl, rfl, rfl, rfl⟩

/-- Whether a slot runs in a fork of its own. -/
def Config.beside (config : Config) (slot : Slot) : Bool :=
  config.concurrentForks && slot == .package

theorem Config.beside_of_ne (config : Config) {slot : Slot} (hslot : slot ≠ .package) :
    config.beside slot = false := by
  simp [beside, hslot]

theorem Config.beside_of_in_turn {config : Config} (hturn : config.concurrentForks = false)
    (slot : Slot) : config.beside slot = false := by
  simp [beside, hturn]

namespace Trace

/-- The calls of the main fork. -/
def ownCalls (config : Config) (trace : Trace) : List Call :=
  trace.calls.filter (!config.beside ·.slot)

/-- The calls of a packaging stage that runs in a fork of its own. -/
def besideCalls (config : Config) (trace : Trace) : List Call :=
  trace.calls.filter (config.beside ·.slot)

/-- The calls in the order in which their outputs are committed: that of a packaging stage that runs
in a fork of its own comes last. -/
def committed (config : Config) (trace : Trace) : List Call :=
  trace.ownCalls config ++ trace.besideCalls config

end Trace

theorem RunState.finished_committed (s : RunState) (setup : Setup) (config : Config) :
    (s.finished setup).trace.committed config = s.trace.committed config := by
  simp only [Trace.committed, Trace.ownCalls, Trace.besideCalls, finished_calls]

/-- How often the main fork has packaged when the source has been read `n` times. -/
def Config.packagings (config : Config) : Nat → Nat
  | 0 => 0
  | n + 1 => if config.concurrentForks then 0 else if config.repackageOnRetry then n + 1 else 1

/-- The packaging stage runs once in each round at most, in either mode. -/
theorem Config.packagings_le (config : Config) (n : Nat) :
    config.packagings (n + 1) + (if config.concurrentForks then 1 else 0) ≤ n + 1 := by
  cases hforks : config.concurrentForks <;> cases hrepackage : config.repackageOnRetry <;>
    simp [packagings, hforks, hrepackage]

namespace Point

/-- What is known at a point of the configuration and of the way there. -/
def Fits (config : Config) : Point → Prop
  | .package k => config.packagings k = k ∧ config.packagings (k + 1) = k + 1 ∧
      config.concurrentForks = false
  | .fork => config.concurrentForks = true
  | .regenerate _ _ m | .recombine _ _ m => 0 < m
  | _ => True

/-- One number for each slot. -/
def tally (identify encapsulate package generate combine review : Nat) : Slot → Nat
  | .identify => identify
  | .encapsulate => encapsulate
  | .package => package
  | .generate => generate
  | .combine => combine
  | .review => review

/-- In how many rounds, from the first on, the main fork has run a slot. -/
def ran (config : Config) : Point → Slot → Nat
  | .identify k => tally k k (config.packagings k) k k k
  | .encapsulate k => tally (k + 1) k (config.packagings k) k k k
  | .package k => tally (k + 1) (k + 1) (config.packagings k) k k k
  | .fork => tally 1 1 0 0 0 0
  | .draft k | .generate k => tally (k + 1) (k + 1) (config.packagings (k + 1)) k k k
  | .combine k => tally (k + 1) (k + 1) (config.packagings (k + 1)) (k + 1) k k
  | .review k _ => tally (k + 1) (k + 1) (config.packagings (k + 1)) (k + 1) (k + 1) k
  | .judge k _ _ | .rejected k _ _ =>
    tally (k + 1) (k + 1) (config.packagings (k + 1)) (k + 1) (k + 1) (k + 1)
  | .validate _ k m _ | .invalid _ k m _ | .settled _ _ k m _ =>
    tally (k + 1) (k + 1) (config.packagings (k + 1)) (k + m + 1) (k + m + 1) (k + 1)
  | .regenerate _ k m =>
    tally (k + 1) (k + 1) (config.packagings (k + 1)) (k + m) (k + m) (k + 1)
  | .recombine _ k m =>
    tally (k + 1) (k + 1) (config.packagings (k + 1)) (k + m + 1) (k + m) (k + 1)

variable {config : Config}

/-- Whether the forks have parted, if they run side by side. -/
def parted : Point → Bool
  | .identify k | .encapsulate k => 0 < k
  | .fork => false
  | _ => true

theorem fits_encapsulated (k : Nat) : (encapsulated config k).Fits config := by
  cases k with
  | zero =>
    simp only [encapsulated]
    split
    · assumption
    · simp [Fits, Config.packagings, *]
  | succ k =>
    simp only [encapsulated]
    split
    · rename_i h
      simp only [Config.repackages, Bool.and_eq_true, Bool.not_eq_true'] at h
      simp [Fits, Config.packagings, h]
    · trivial

theorem ran_encapsulated (k : Nat) (slot : Slot) :
    (encapsulated config k).ran config slot =
      (encapsulate k).ran config slot + if slot = .encapsulate then 1 else 0 := by
  cases k with
  | zero =>
    simp only [encapsulated]
    split <;> cases slot <;> rfl
  | succ k =>
    simp only [encapsulated]
    split
    · cases slot <;> rfl
    · rename_i h
      have hpackagings : config.packagings (k + 2) = config.packagings (k + 1) := by
        cases hrepackage : config.repackageOnRetry <;> cases htogether : config.concurrentForks <;>
          simp_all [Config.packagings, Config.repackages]
      cases slot <;> simp [ran, tally, hpackagings]

/-- A stage that is called runs in one round more, the round of the point. -/
theorem Calls.ran_next {p : Point} {slot : Slot} {next : String → Point}
    (h : p.Calls config slot next) (hfits : p.Fits config) (text : String) (other : Slot) :
    (next text).ran config other = p.ran config other + (if other = slot then 1 else 0) ∧
      p.ran config slot + 1 = p.round := by
  cases h with
  | encapsulate k => exact ⟨ran_encapsulated k other, rfl⟩
  | package k =>
    obtain ⟨hbefore, hafter, -⟩ := hfits
    refine ⟨?_, by simp [ran, tally, round, back, again, hbefore]⟩
    cases other <;> simp [ran, tally, hbefore, hafter]
  | _ => exact ⟨by cases other <;> rfl, rfl⟩

theorem Calls.not_beside {p : Point} {slot : Slot} {next : String → Point}
    (h : p.Calls config slot next) (hfits : p.Fits config) : config.beside slot = false := by
  cases h with
  | package k => simp [Config.beside, hfits.2.2]
  | _ => simp [Config.beside]

theorem Calls.parted_next {p : Point} {slot : Slot} {next : String → Point}
    (h : p.Calls config slot next) (htogether : config.concurrentForks = true) (text : String) :
    (next text).parted = p.parted := by
  cases h with
  | encapsulate k => cases k <;> simp only [encapsulated] <;> split <;> rfl
  | _ => rfl

end Point

namespace Reaches

variable {setup : Setup} {input : RunInput} {p : Point} {s : RunState}

theorem fits (h : Reaches setup input p s) : p.Fits setup.config := by
  induction h with
  | step h hcalls hreturned ih =>
    cases hcalls with
    | encapsulate k => exact Point.fits_encapsulated k
    | regenerate passed k m => exact ih
    | _ => trivial
  | redraft h hcap ih => exact Nat.succ_pos _
  | _ => trivial

/-- The rounds in which a slot has run are the first ones. -/
theorem history_rounds (h : Reaches setup input p s) (slot : Slot) :
    roundsOf slot s.context.history = List.range' 1 (p.ran setup.config slot) := by
  induction h with
  | start => cases slot <;> rfl
  | @step p s called next output h hcalls hreturned ih =>
    obtain ⟨hnext, hround⟩ := hcalls.ran_next h.fits output.text slot
    rw [RunState.stepped_history, roundsOf_concat, Record.ofOutput_slot, Record.ofOutput_round, ih,
      hnext, h.round_eq, ← hround]
    by_cases hslot : slot = called
    · subst hslot
      rw [if_pos rfl, if_pos rfl, List.range'_1_concat, Nat.add_comm 1]
    · rw [if_neg hslot, if_neg (Ne.symm hslot)]
      exact List.append_nil _
  | fork h ih =>
    have htogether : setup.config.concurrentForks = true := h.fits
    rw [RunState.forked_context, ih]
    cases slot <;> simp [Point.ran, Point.tally, Config.packagings, htogether]
  | pass h hverdict ih | fail h hverdict ih =>
    rw [RunState.judged_history, ih]
    rfl
  | _ => assumption

/-- The history has the records of the calls of the main fork. -/
theorem recorded (h : Reaches setup input p s) :
    List.Forall₂ (Recorded setup) (s.trace.ownCalls setup.config) s.context.history := by
  induction h with
  | start => exact .nil
  | @step p s slot next output h hcalls hreturned ih =>
    have hslot := hcalls.not_beside h.fits
    have hcalls' : (s.stepped setup slot output).trace.ownCalls setup.config =
        s.trace.ownCalls setup.config ++ [s.stepCall slot] := by
      simp [Trace.ownCalls, hslot]
    rw [hcalls', RunState.stepped_history]
    exact List.rel_append ih (.cons (recorded_ofOutput _ hreturned) .nil)
  | @fork s h ih =>
    have htogether : setup.config.concurrentForks = true := h.fits
    have hcalls : (s.forked setup).trace.ownCalls setup.config =
        s.trace.ownCalls setup.config := by
      simp [Trace.ownCalls, Config.beside, htogether]
    rwa [hcalls]
  | draft h ih => exact ih
  | pass h hcond ih | fail h hcond ih | exhaust h hcond ih | goBack h hcond ih | accept h hcond ih
  | refuse h hcond ih | keep h hcond ih | redraft h hcond ih => simpa [Trace.ownCalls] using ih

/-- Side by side, the packaging stage is called once, when the forks part. -/
theorem length_besideCalls (h : Reaches setup input p s) :
    (s.trace.besideCalls setup.config).length =
      if setup.config.concurrentForks && p.parted then 1 else 0 := by
  induction h with
  | start => simp [RunState.start, Trace.besideCalls, Point.parted]
  | @step p s slot next output h hcalls hreturned ih =>
    have hslot := hcalls.not_beside h.fits
    have hcalls' : (s.stepped setup slot output).trace.besideCalls setup.config =
        s.trace.besideCalls setup.config := by
      simp [Trace.besideCalls, hslot]
    rw [hcalls', ih]
    by_cases htogether : setup.config.concurrentForks = true
    · rw [hcalls.parted_next htogether]
    · rw [Bool.not_eq_true] at htogether
      rw [htogether]
      rfl
  | @fork s h ih =>
    have htogether : setup.config.concurrentForks = true := h.fits
    have hcalls : (s.forked setup).trace.besideCalls setup.config =
        s.trace.besideCalls setup.config ++ [s.stepCall .package] := by
      simp [Trace.besideCalls, Config.beside, htogether]
    rw [hcalls, List.length_append, ih, htogether]
    rfl
  | draft h ih => exact ih
  | pass h hcond ih | fail h hcond ih | exhaust h hcond ih | goBack h hcond ih | accept h hcond ih
  | refuse h hcond ih | keep h hcond ih | redraft h hcond ih =>
    simpa [Trace.besideCalls, Point.parted] using ih

/-- How often the main fork has called a slot. -/
theorem count_slots (h : Reaches setup input p s) {slot : Slot}
    (hslot : setup.config.beside slot = false) :
    s.trace.slots.count slot = p.ran setup.config slot := by
  have hslots : (s.trace.ownCalls setup.config).map Call.slot =
      s.context.history.map Record.slot := by
    refine List.forall₂_eq_eq_eq ▸ List.forall₂_map_left_iff.mpr (List.forall₂_map_right_iff.mpr
      (h.recorded.imp fun call record hrecorded => ?_))
    obtain ⟨output, -, hslot, -⟩ := hrecorded
    exact hslot.symm
  have hrounds := congrArg List.length (h.history_rounds slot)
  rw [roundsOf, List.length_map, List.length_range', ← List.countP_eq_length_filter] at hrounds
  have hown : (s.trace.ownCalls setup.config).map Call.slot =
      s.trace.slots.filter (!setup.config.beside ·) := by
    rw [Trace.ownCalls, Trace.slots, List.filter_map]
    rfl
  rw [← List.count_filter (p := (!setup.config.beside ·)) (by simp [hslot]), ← hown, hslots,
    List.count, List.countP_map, ← hrounds]
  exact List.countP_congr fun record _ => by simp

end Reaches

/-! ## Where the forks end -/

theorem SideBySide.besideCalls {setup : Setup} {input : RunInput} {fork after : RunState}
    (h : SideBySide setup input fork after)
    (honce : (after.trace.besideCalls setup.config).length ≤ 1) :
    after.trace.besideCalls setup.config = [fork.stepCall .package] := by
  obtain ⟨own, hown⟩ := h.grown
  have hcalls : after.trace.besideCalls setup.config = fork.trace.besideCalls setup.config ++
      fork.stepCall .package :: Trace.besideCalls setup.config own := by
    simp [← hown, Trace.besideCalls, Config.beside, h.together]
  rw [hcalls, List.length_append, List.length_cons] at honce
  rw [hcalls, List.eq_nil_of_length_eq_zero (l := fork.trace.besideCalls setup.config) (by omega),
    List.eq_nil_of_length_eq_zero (l := Trace.besideCalls setup.config own) (by omega)]
  rfl

namespace Joins

variable {setup : Setup} {input : RunInput} {passed valid : Bool} {k m : Nat} {script : String}
  {after s : RunState}

theorem calls_eq (hjoins : Joins setup input after s) : s.trace.calls = after.trace.calls := by
  cases hjoins with
  | inTurn => rfl
  | together hbeside hreturned => exact interleaved_calls hbeside _ _

theorem round_eq (hjoins : Joins setup input after s)
    (h : Reaches setup input (.settled passed valid k m script) after) : s.round = k + m + 1 := by
  have hround : s.round = after.round := by
    cases hjoins <;> rfl
  exact hround.trans h.round_eq

/-- The history has the records of all calls. -/
theorem recorded (hjoins : Joins setup input after s)
    (h : Reaches setup input (.settled passed valid k m script) after) :
    List.Forall₂ (Recorded setup) (s.trace.committed setup.config) s.context.history := by
  have honce := h.length_besideCalls
  rw [Trace.committed, Trace.ownCalls, Trace.besideCalls, hjoins.calls_eq]
  change List.Forall₂ _ (after.trace.ownCalls _ ++ after.trace.besideCalls _) _
  cases hjoins with
  | inTurn hturn =>
    rw [hturn] at honce
    rw [List.eq_nil_of_length_eq_zero honce, List.append_nil]
    exact h.recorded
  | @together fork output hbeside hreturned =>
    rw [hbeside.besideCalls (by rw [honce]; split <;> decide)]
    exact List.rel_append h.recorded (.cons (recorded_ofOutput _ hreturned) .nil)

/-- Side by side, the record of the packaging stage is one of the first round. -/
theorem history_rounds (hjoins : Joins setup input after s)
    (h : Reaches setup input (.settled passed valid k m script) after) (slot : Slot) :
    roundsOf slot s.context.history = List.range' 1
      ((Point.settled passed valid k m script).ran setup.config slot +
        if setup.config.beside slot then 1 else 0) := by
  cases hjoins with
  | inTurn hturn => simp [h.history_rounds, Config.beside_of_in_turn hturn]
  | @together fork output hbeside hreturned =>
    have hfork : fork.round = 1 := hbeside.start.round_eq
    change roundsOf slot (after.context.history ++ [.ofOutput .package fork.round _ output]) = _
    rw [roundsOf_concat, h.history_rounds, Record.ofOutput_slot, Record.ofOutput_round, hfork]
    cases slot <;>
      simp [Config.beside, hbeside.together, Point.ran, Point.tally, Config.packagings]

/-- No slot runs in a round that has not been reached. -/
theorem mem_roundsOf (hjoins : Joins setup input after s)
    (h : Reaches setup input (.settled passed valid k m script) after) {slot : Slot} {round : Nat}
    (hround : round ∈ roundsOf slot s.context.history) : 1 ≤ round ∧ round ≤ s.round := by
  have hreached := hjoins.round_eq h
  have hran : (Point.settled passed valid k m script).ran setup.config slot +
      (if setup.config.beside slot then 1 else 0) ≤ k + m + 1 := by
    have hpackagings := setup.config.packagings_le k
    cases slot <;> simp [Point.ran, Point.tally, Config.beside]
    all_goals omega
  rw [hjoins.history_rounds h, List.mem_range'_1] at hround
  omega

end Joins

end ScriptForge.Pipeline

import Mathlib.Logic.Function.Iterate
import ScriptForge.Pipeline.RunM

/-!
# Attempts on a budget

The attempts of the two loops may come in any order: a counter stands at the number of the attempts
of its own loop so far, or at its cap from there on (`attempts_on_budget`).

The counters do not meet. What a sequence of attempts makes of a counter is what the attempts of its
loop make of it one after the other (`counter_recordAll`), and a counter alone saturates
(`iterate_record`).
-/

namespace ScriptForge.Pipeline

/-- A counter that has started at zero stands at the number of attempts or at its cap. -/
theorem Counter.iterate_record (cap n : Nat) : record^[n] ⟨0, cap⟩ = ⟨min n cap, cap⟩ := by
  induction n with
  | zero => simp
  | succ n ih =>
    rw [Function.iterate_succ_apply', ih]
    simp only [record, mk.injEq, and_true]
    omega

namespace Budget

variable {rejection other : Rejection}

/-- The cap of a loop in a new budget: at least one. -/
def capOf (reviewCap validationCap : Nat) : Rejection → Nat
  | .review => Nat.max reviewCap 1
  | .validation => Nat.max validationCap 1

theorem counter_ofCaps (reviewCap validationCap : Nat) (rejection : Rejection) :
    (ofCaps reviewCap validationCap).counter rejection =
      ⟨0, capOf reviewCap validationCap rejection⟩ := by
  cases rejection <;> rfl

/-! ## One attempt -/

@[simp] theorem counter_record_self (budget : Budget) (rejection : Rejection) :
    (budget.record rejection).counter rejection = (budget.counter rejection).record := by
  cases rejection <;> rfl

theorem counter_record_of_ne (budget : Budget) (h : rejection ≠ other) :
    (budget.record other).counter rejection = budget.counter rejection := by
  cases rejection <;> cases other <;> first | rfl | exact absurd rfl h

/-! ## Several attempts -/

/-- The budget after some attempts, from first to last. -/
def recordAll (budget : Budget) (attempts : List Rejection) : Budget :=
  attempts.foldl record budget

theorem recordAll_cons (budget : Budget) (attempt : Rejection) (attempts : List Rejection) :
    budget.recordAll (attempt :: attempts) = (budget.record attempt).recordAll attempts :=
  rfl

theorem recordAll_append (budget : Budget) (attempts more : List Rejection) :
    budget.recordAll (attempts ++ more) = (budget.recordAll attempts).recordAll more :=
  List.foldl_append

/-- Of several attempts, those of its own loop are all that a counter sees. -/
theorem counter_recordAll (budget : Budget) (attempts : List Rejection) (rejection : Rejection) :
    (budget.recordAll attempts).counter rejection =
      Counter.record^[attempts.count rejection] (budget.counter rejection) := by
  induction attempts generalizing budget with
  | nil => rfl
  | cons attempt attempts ih =>
    rw [recordAll_cons, ih]
    by_cases h : rejection = attempt
    · subst h
      rw [counter_record_self, List.count_cons_self, Function.iterate_succ_apply]
    · rw [counter_record_of_ne _ h, List.count_cons_of_ne (Ne.symm h)]

theorem counter_recordAll_ofCaps (reviewCap validationCap : Nat) (attempts : List Rejection)
    (rejection : Rejection) :
    ((ofCaps reviewCap validationCap).recordAll attempts).counter rejection =
      ⟨min (attempts.count rejection) (capOf reviewCap validationCap rejection),
        capOf reviewCap validationCap rejection⟩ := by
  rw [counter_recordAll, counter_ofCaps, Counter.iterate_record]

theorem counter_recordAll_of_not_mem (budget : Budget) {attempts : List Rejection}
    (h : rejection ∉ attempts) :
    (budget.recordAll attempts).counter rejection = budget.counter rejection := by
  rw [counter_recordAll, List.count_eq_zero.mpr h]
  rfl

theorem used_recordAll (reviewCap validationCap : Nat) (attempts : List Rejection)
    (rejection : Rejection) :
    ((ofCaps reviewCap validationCap).recordAll attempts).used rejection =
      min (attempts.count rejection) (capOf reviewCap validationCap rejection) := by
  rw [used, counter_recordAll_ofCaps]

theorem exhausted_recordAll_iff (reviewCap validationCap : Nat) (attempts : List Rejection)
    (rejection : Rejection) :
    ((ofCaps reviewCap validationCap).recordAll attempts).exhausted rejection ↔
      capOf reviewCap validationCap rejection ≤ attempts.count rejection := by
  simp only [exhausted, Counter.exhausted, counter_recordAll_ofCaps, decide_eq_true_eq]
  omega

/-- **Attempts on a budget.** After any attempts of both loops, a counter of a new budget stands at
the number of the attempts of its loop or at its cap, which is at least one. It is exhausted once
this number has reached the cap, and so it remains. The next attempt of the loop is given its own
number, or the cap if that is less. Attempts of the other loop do not change the counter. -/
theorem attempts_on_budget (reviewCap validationCap : Nat) (attempts : List Rejection)
    (rejection : Rejection) :
    let cap := capOf reviewCap validationCap rejection
    let budget := (ofCaps reviewCap validationCap).recordAll attempts
    budget.used rejection = min (attempts.count rejection) cap ∧
    budget.max rejection = cap ∧
    (budget.exhausted rejection ↔ cap ≤ attempts.count rejection) ∧
    (budget.exhausted rejection → ∀ more, (budget.recordAll more).exhausted rejection) ∧
    (∀ s : RunState, (RunM.countAttempt rejection).run { s with budget } =
      (.ok (min (attempts.count rejection + 1) cap),
        { s with budget := budget.recordAll [rejection] })) ∧
    ∀ more, rejection ∉ more →
      (budget.recordAll more).used rejection = budget.used rejection ∧
      (budget.recordAll more).max rejection = budget.max rejection ∧
      (budget.recordAll more).exhausted rejection = budget.exhausted rejection := by
  intro cap budget
  refine ⟨used_recordAll .., ?_, exhausted_recordAll_iff .., ?_, ?_, ?_⟩
  · rw [max, counter_recordAll_ofCaps]
  · intro hexhausted more
    rw [← recordAll_append]
    have hreached := (exhausted_recordAll_iff ..).mp hexhausted
    refine (exhausted_recordAll_iff ..).mpr ?_
    rw [List.count_append]
    omega
  · intro s
    have hnumber := used_recordAll reviewCap validationCap (attempts ++ [rejection]) rejection
    rw [List.count_append, List.count_singleton_self, recordAll_append] at hnumber
    exact Prod.ext (congrArg Except.ok hnumber) rfl
  · intro more hmore
    simp only [used, max, exhausted, counter_recordAll_of_not_mem budget hmore, and_self]

/-- A cap of two is reached with the second attempt of its loop; a cap of zero allows one. -/
theorem attempts_on_small_budget :
    let budget := (ofCaps 2 0).recordAll [.review, .validation, .review]
    budget.used .review = 2 ∧ budget.exhausted .review ∧
    (budget.recordAll [.validation, .review]).exhausted .review ∧
    Rejection.review ∉ [Rejection.validation, .validation] ∧
    (budget.recordAll [.validation, .validation]).used .review = 2 ∧
    budget.used .validation = 1 ∧ budget.exhausted .validation := by
  intro budget
  obtain ⟨hused, -, hexhausted, hstays, -, happart⟩ :=
    attempts_on_budget 2 0 [.review, .validation, .review] .review
  obtain ⟨hother, -, hspent, -⟩ :=
    attempts_on_budget 2 0 [.review, .validation, .review] .validation
  have hreached := hexhausted.mpr (by decide)
  have hmore : Rejection.review ∉ [Rejection.validation, .validation] := by decide
  exact ⟨hused, hreached, hstays hreached _, hmore, (happart _ hmore).1.trans hused, hother,
    hspent.mpr (by decide)⟩

end Budget

end ScriptForge.Pipeline

import ScriptForge.Chat.Retry
import Mathlib.Algebra.Group.Nat.Defs
import Mathlib.Data.Nat.Init
import Mathlib.Logic.Basic
import Mathlib.Order.Defs.LinearOrder

/-!
# Attempts and their results

An operation is attempted until its first success or, if none comes in time, until the attempts are
used up (`retry_of_outcomes`). An attempt starts once all pauses before it have been taken
(`scheduled`), and as long as no pause overflows, attempt `k` starts at `unit * (2 ^ k - 2)`
(`scheduled_of_fits`). Of the errors only that of the last attempt is seen, as the attempts after a
failed one do not depend on it.
-/

namespace ScriptForge.Chat

variable {ε α : Type} {operation : Nat → Option (Except ε α)} {overflow : Overflow}
  {unit first limit last number : Nat}

/-! ## Pauses -/

/-- The pause after the attempt with this number is computed without an overflow. -/
structure PauseFits (unit number : Nat) : Prop where
  factor_lt : 2 ^ number < UInt32.size
  pause_lt : unit * 2 ^ number < 1000 * UInt64.size

/-- The pauses of a unit of years at most fit for any thirty-one attempts. -/
theorem pauseFits_of_lt (hunit : unit < 2 ^ 42) (hnumber : number < 32) :
    PauseFits unit number where
  factor_lt := Nat.pow_lt_pow_right (by decide) hnumber
  pause_lt := by
    have hfactor : 2 ^ number ≤ 2 ^ 31 := Nat.pow_le_pow_right (by decide) (by omega)
    have hpause : unit * 2 ^ number ≤ 2 ^ 42 * 2 ^ 31 := Nat.mul_le_mul (Nat.le_of_lt hunit) hfactor
    exact Nat.lt_of_le_of_lt hpause (by decide)

theorem pauseAfter_of_fits (overflow : Overflow) (h : PauseFits unit number) :
    pauseAfter overflow unit number = some (unit * 2 ^ number) := by
  rw [pauseAfter, Nat.one_shiftLeft, Overflow.fit?_of_lt overflow h.factor_lt]
  exact if_pos h.pause_lt

/-- All pauses before the attempt with this number can be taken, whether they overflow or not. -/
def PausesBefore (overflow : Overflow) (unit number : Nat) : Prop :=
  ∀ k, 1 ≤ k → k < number → ∃ pause, pauseAfter overflow unit k = some pause

theorem pausesBefore_of_fits (overflow : Overflow)
    (h : ∀ k, 1 ≤ k → k < number → PauseFits unit k) : PausesBefore overflow unit number :=
  fun k hk hlt => ⟨_, pauseAfter_of_fits overflow (h k hk hlt)⟩

/-! ## Starts -/

/-- The attempt with this number, which starts after all pauses before it. -/
def scheduled (overflow : Overflow) (unit number : Nat) : Attempt :=
  ⟨number, (List.range' 1 (number - 1)).foldl
    (fun start k => start + (pauseAfter overflow unit k).getD 0) 0⟩

theorem next?_scheduled {pause : Nat} (hnumber : 1 ≤ number)
    (hpause : pauseAfter overflow unit number = some pause) :
    (scheduled overflow unit number).next? overflow unit =
      some (scheduled overflow unit (number + 1)) := by
  obtain ⟨n, rfl⟩ : ∃ n, number = n + 1 := Nat.exists_eq_add_of_le' hnumber
  have hpauses : List.range' 1 (n + 1) = List.range' 1 n ++ [n + 1] := by
    rw [List.range'_1_concat, Nat.add_comm 1 n]
  simp [Attempt.next?, scheduled, hpause, hpauses]

/-- Each pause doubles what the pauses before it have added up to, and adds the first one. -/
theorem scheduled_of_fits (overflow : Overflow) (hnumber : 1 ≤ number)
    (h : ∀ k, 1 ≤ k → k < number → PauseFits unit k) :
    scheduled overflow unit number = ⟨number, unit * (2 ^ number - 2)⟩ := by
  induction number, hnumber using Nat.le_induction with
  | base => rfl
  | succ n hn ih =>
    have hpause := pauseAfter_of_fits overflow (h n hn (Nat.lt_succ_self n))
    have hnext := next?_scheduled hn hpause
    rw [ih fun k hk hlt => h k hk (Nat.lt_succ_of_lt hlt), Attempt.next?, hpause] at hnext
    have htwo : 2 ≤ 2 ^ n := Nat.le_self_pow (by omega) 2
    have hdouble : 2 ^ n - 2 + 2 ^ n = 2 ^ (n + 1) - 2 := by
      rw [Nat.pow_succ]
      omega
    rw [← Option.some.inj hnext, ← hdouble, Nat.mul_add]

/-! ## One attempt -/

/-- An attempt that does not fail is the last one. -/
theorem retryFrom_of_done {attempt : Attempt} (overflow : Overflow) (unit spare : Nat)
    (h : ∀ error, operation attempt.number ≠ some (.error error)) :
    retryFrom overflow unit operation spare attempt = ⟨[attempt], operation attempt.number⟩ := by
  cases spare with
  | zero => rfl
  | succ spare =>
    rw [retryFrom]
    split
    · rename_i hstop
      rw [hstop]
    · rename_i hok
      rw [hok]
    · rename_i error herror
      exact absurd herror (h error)

/-- Behind a failed attempt all goes as if the next one were the first. -/
theorem retryFrom_of_error {attempt next : Attempt} {error : ε} (spare : Nat)
    (h : operation attempt.number = some (.error error))
    (hnext : attempt.next? overflow unit = some next) :
    retryFrom overflow unit operation (spare + 1) attempt =
      ⟨attempt :: (retryFrom overflow unit operation spare next).attempts,
        (retryFrom overflow unit operation spare next).result⟩ := by
  simp [retryFrom, h, hnext]

/-! ## The last attempt -/

/-- The attempts from `first` on end with the number `last`: all before it have failed, and it has
not or none is left behind it. -/
structure EndsWith (operation : Nat → Option (Except ε α)) (first limit last : Nat) : Prop where
  first_le : first ≤ last
  le_limit : last ≤ limit
  failed : ∀ k, first ≤ k → k < last → ∃ error, operation k = some (.error error)
  ended : last = limit ∨ ∀ error, operation last ≠ some (.error error)

theorem exists_endsWith (operation : Nat → Option (Except ε α)) (first spare : Nat) :
    ∃ last, EndsWith operation first (first + spare) last := by
  induction spare generalizing first with
  | zero =>
    exact ⟨first, Nat.le_refl _, Nat.le_refl _, fun k hk hlt => absurd hlt (by omega), .inl rfl⟩
  | succ spare ih =>
    by_cases hdone : ∀ error, operation first ≠ some (.error error)
    · exact ⟨first, Nat.le_refl _, by omega, fun k hk hlt => absurd hlt (by omega), .inr hdone⟩
    · obtain ⟨error, herror⟩ := not_forall_not.mp hdone
      obtain ⟨last, hends⟩ := ih (first + 1)
      rw [Nat.add_right_comm, Nat.add_assoc] at hends
      refine ⟨last, Nat.le_of_succ_le hends.first_le, hends.le_limit, fun k hk hlt => ?_,
        hends.ended⟩
      rcases Nat.eq_or_lt_of_le hk with rfl | hnext
      · exact ⟨error, herror⟩
      · exact hends.failed k hnext hlt

/-- If the first attempt fails and another one is left, then it is made. -/
theorem EndsWith.next {error : ε} (h : EndsWith operation first limit last)
    (herror : operation first = some (.error error)) (hlimit : first < limit) :
    EndsWith operation (first + 1) limit last where
  first_le := by
    refine Nat.lt_of_le_of_ne h.first_le ?_
    rintro rfl
    rcases h.ended with heq | hdone
    · omega
    · exact hdone error herror
  le_limit := h.le_limit
  failed := fun k hk hlt => h.failed k (Nat.le_of_succ_le hk) hlt
  ended := h.ended

/-- If the first attempt does not fail, then it is the only one. -/
theorem EndsWith.eq_first (h : EndsWith operation first limit last)
    (hdone : ∀ error, operation first ≠ some (.error error)) : last = first := by
  by_contra hne
  obtain ⟨error, herror⟩ := h.failed first (Nat.le_refl _)
    (Nat.lt_of_le_of_ne h.first_le (Ne.symm hne))
  exact hdone error herror

/-- The attempts that are made, each at its time, and the result of the last one. -/
theorem retryFrom_eq (spare : Nat) (hends : EndsWith operation first (first + spare) last)
    (hfirst : 1 ≤ first) (hpauses : PausesBefore overflow unit last) :
    retryFrom overflow unit operation spare (scheduled overflow unit first) =
      ⟨(List.range' first (last + 1 - first)).map (scheduled overflow unit), operation last⟩ := by
  induction spare generalizing first with
  | zero =>
    obtain rfl : last = first := Nat.le_antisymm hends.le_limit hends.first_le
    rw [Nat.add_sub_cancel_left]
    rfl
  | succ spare ih =>
    by_cases hdone : ∀ error, operation first ≠ some (.error error)
    · obtain rfl := hends.eq_first hdone
      rw [Nat.add_sub_cancel_left]
      exact retryFrom_of_done overflow unit (spare + 1) hdone
    · obtain ⟨error, herror⟩ := not_forall_not.mp hdone
      have hlater := hends.next herror (by omega)
      obtain ⟨pause, hpause⟩ := hpauses first hfirst hlater.first_le
      have hretry := ih (by rwa [Nat.add_right_comm, Nat.add_assoc]) (Nat.le_add_left 1 first)
      have hcount : last + 1 - first = last + 1 - (first + 1) + 1 := by
        have hle := hlater.first_le
        omega
      rw [retryFrom_of_error spare herror (next?_scheduled hfirst hpause), hretry, hcount,
        List.range'_succ, List.map_cons]

theorem exists_retry_eq (overflow : Overflow) (limit unit : Nat)
    (operation : Nat → Option (Except ε α)) :
    ∃ last, EndsWith operation 1 (max limit 1) last ∧
      (PausesBefore overflow unit last →
        retry overflow limit unit operation =
          ⟨(List.range' 1 last).map (scheduled overflow unit), operation last⟩) := by
  obtain ⟨last, hends⟩ := exists_endsWith operation 1 (max limit 1 - 1)
  refine ⟨last, ?_, retryFrom_eq _ hends (Nat.le_refl 1)⟩
  rwa [Nat.add_sub_cancel' (Nat.le_max_right limit 1)] at hends

/-! ## The first success -/

/-- The attempt with this number is the first that does not fail. -/
structure FirstDone (operation : Nat → Option (Except ε α)) (number : Nat) : Prop where
  pos : 1 ≤ number
  done : ∀ error, operation number ≠ some (.error error)
  failed : ∀ k, 1 ≤ k → k < number → ∃ error, operation k = some (.error error)

theorem EndsWith.eq_of_firstDone (h : EndsWith operation 1 limit last)
    (hfirst : FirstDone operation number) (hle : number ≤ limit) : last = number := by
  rcases Nat.lt_trichotomy last number with hlt | heq | hlt
  · obtain ⟨error, herror⟩ := hfirst.failed last h.first_le hlt
    rcases h.ended with hlimit | hdone
    · omega
    · exact absurd herror (hdone error)
  · exact heq
  · obtain ⟨error, herror⟩ := h.failed number hfirst.pos hlt
    exact absurd herror (hfirst.done error)

theorem EndsWith.eq_limit (h : EndsWith operation 1 limit last)
    (hnone : ∀ number, FirstDone operation number → limit < number) :
    last = limit ∧ ∃ error, operation limit = some (.error error) := by
  by_cases hdone : ∀ error, operation last ≠ some (.error error)
  · have hlate := hnone last ⟨h.first_le, hdone, h.failed⟩
    exact absurd h.le_limit (by omega)
  · obtain ⟨error, herror⟩ := not_forall_not.mp hdone
    obtain rfl : last = limit := h.ended.resolve_right hdone
    exact ⟨rfl, error, herror⟩

/-- The attempt with this number is the first that succeeds, and this is its value. -/
structure FirstSuccess (operation : Nat → Except ε α) (number : Nat) (a : α) : Prop where
  pos : 1 ≤ number
  succeeds : operation number = .ok a
  failed : ∀ k, 1 ≤ k → k < number → ∃ error, operation k = .error error

/-- An operation that stops no program is done with its first success. -/
theorem firstDone_iff_exists_firstSuccess {operation : Nat → Except ε α} :
    FirstDone (fun k => some (operation k)) number ↔ ∃ a, FirstSuccess operation number a := by
  constructor
  · rintro ⟨hpos, hdone, hfailed⟩
    have hbefore : ∀ k, 1 ≤ k → k < number → ∃ error, operation k = .error error := by
      intro k hk hlt
      obtain ⟨error, herror⟩ := hfailed k hk hlt
      exact ⟨error, Option.some.inj herror⟩
    cases houtcome : operation number with
    | ok a => exact ⟨a, hpos, houtcome, hbefore⟩
    | error error => exact absurd (congrArg some houtcome) (hdone error)
  · rintro ⟨a, hpos, hsucceeds, hfailed⟩
    refine ⟨hpos, ?_, ?_⟩
    · rintro error herror
      rw [hsucceeds] at herror
      cases herror
    · intro k hk hlt
      obtain ⟨error, herror⟩ := hfailed k hk hlt
      exact ⟨error, congrArg some herror⟩

/-- **Attempts until a success.** If the first success comes within the limit, then the attempts up
to it are made and its value is the result. Otherwise all attempts are made, at least one, and the
error of the last one is the result. No pause between these attempts may overflow. -/
theorem retry_of_outcomes (overflow : Overflow) (limit unit : Nat)
    (operation : Nat → Except ε α) :
    let retried := retry overflow limit unit fun k => some (operation k)
    (∀ number a, FirstSuccess operation number a → number ≤ max limit 1 →
      (∀ k, 1 ≤ k → k < number → PauseFits unit k) →
      retried = ⟨(List.range' 1 number).map fun k => ⟨k, unit * (2 ^ k - 2)⟩, some (.ok a)⟩) ∧
    ((∀ number a, FirstSuccess operation number a → max limit 1 < number) →
      (∀ k, 1 ≤ k → k < max limit 1 → PauseFits unit k) →
      ∃ error, operation (max limit 1) = .error error ∧
        retried = ⟨(List.range' 1 (max limit 1)).map fun k => ⟨k, unit * (2 ^ k - 2)⟩,
          some (.error error)⟩) := by
  intro retried
  obtain ⟨last, hends, hretry⟩ := exists_retry_eq overflow limit unit fun k => some (operation k)
  have hattempts : (∀ k, 1 ≤ k → k < last → PauseFits unit k) →
      retried = ⟨(List.range' 1 last).map fun k => ⟨k, unit * (2 ^ k - 2)⟩,
        some (operation last)⟩ := by
    intro hfits
    rw [show retried = _ from hretry (pausesBefore_of_fits overflow hfits)]
    congr 1
    refine List.map_congr_left fun k hk => ?_
    obtain ⟨hone, hle⟩ := List.mem_range'_1.mp hk
    exact scheduled_of_fits overflow hone fun j hj hlt => hfits j hj (by omega)
  constructor
  · intro number a hsuccess hle hfits
    obtain rfl := hends.eq_of_firstDone
      (firstDone_iff_exists_firstSuccess.mpr ⟨a, hsuccess⟩) hle
    rw [hattempts hfits, hsuccess.succeeds]
  · intro hnone hfits
    obtain ⟨rfl, error, herror⟩ := hends.eq_limit fun number hdone =>
      have ⟨a, hsuccess⟩ := firstDone_iff_exists_firstSuccess.mp hdone
      hnone number a hsuccess
    have herror : operation (max limit 1) = .error error := Option.some.inj herror
    exact ⟨error, herror, by rw [hattempts hfits, herror]⟩

/-- An operation that succeeds in its third attempt. -/
def thirdTime : Nat → Except String String := fun number =>
  if number < 3 then .error s!"failure {number}" else .ok s!"value {number}"

/-- The third attempt is made if the limit allows it; a limit of none allows one attempt. -/
theorem retry_thirdTime :
    let operation := fun k => some (thirdTime k)
    FirstSuccess thirdTime 3 "value 3" ∧
    retry .stops 5 1000 operation =
      ⟨[⟨1, 0⟩, ⟨2, 2000⟩, ⟨3, 6000⟩], some (.ok "value 3")⟩ ∧
    retry .stops 0 1000 operation = ⟨[⟨1, 0⟩], some (.error "failure 1")⟩ := by
  have hsuccess : FirstSuccess thirdTime 3 "value 3" :=
    ⟨by decide, rfl, fun k _ hk => ⟨s!"failure {k}", if_pos hk⟩⟩
  have hfits : ∀ k, 1 ≤ k → k < 3 → PauseFits 1000 k := fun k _ hk =>
    pauseFits_of_lt (by decide) (by omega)
  refine ⟨hsuccess,
    (retry_of_outcomes .stops 5 1000 thirdTime).1 3 _ hsuccess (by decide) hfits, ?_⟩
  have hlate : ∀ number a, FirstSuccess thirdTime number a → max 0 1 < number := by
    intro number a h
    by_contra hle
    have hone : number = 1 := by
      have hpos := h.pos
      omega
    have hfails := h.succeeds
    rw [hone] at hfails
    cases hfails
  obtain ⟨error, herror, hretry⟩ := (retry_of_outcomes .stops 0 1000 thirdTime).2 hlate
    fun k hk hlt => absurd hk (by omega)
  cases herror
  exact hretry

end ScriptForge.Chat

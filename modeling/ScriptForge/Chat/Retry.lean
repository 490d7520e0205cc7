import ScriptForge.Chat.Overflow

/-!
# Retries

An operation is attempted until it succeeds or the attempts are used up. Before each further attempt
there is a pause, and every pause is twice as long as the one before. The operation itself takes no
time, so attempt `k` starts at `unit * (2 ^ k - 2)`. A pause that cannot be computed stops the
program, and so may the operation.
-/

namespace ScriptForge.Chat

/-- An attempt: its number, from one on, and when it starts. -/
structure Attempt where
  number : Nat
  start : Nat
  deriving DecidableEq, Repr

/-- The attempts made and the result of the last one. -/
structure Retried (ε α : Type) where
  attempts : List Attempt
  /-- Nothing if the program stops. -/
  result : Option (Except ε α)

/-- The pause in milliseconds before the attempt after the one with this number; nothing if the
program stops. The factor is a number of 32 bits. A pause of `2 ^ 64` seconds or more stops the
program however it is built. -/
def pauseAfter (overflow : Overflow) (unit number : Nat) : Option Nat := do
  let factor ← overflow.fit? UInt32.size (1 <<< number)
  if unit * factor < 1000 * UInt64.size then some (unit * factor) else none

/-- The attempt after another one; nothing if the program stops. -/
def Attempt.next? (overflow : Overflow) (unit : Nat) (attempt : Attempt) : Option Attempt :=
  (pauseAfter overflow unit attempt.number).map fun pause =>
    ⟨attempt.number + 1, attempt.start + pause⟩

/-- Makes an attempt and, as long as they fail, at most `spare` further ones. -/
def retryFrom (overflow : Overflow) (unit : Nat) (operation : Nat → Option (Except ε α)) :
    (spare : Nat) → Attempt → Retried ε α
  | 0, attempt => ⟨[attempt], operation attempt.number⟩
  | spare + 1, attempt =>
    match operation attempt.number with
    | none => ⟨[attempt], none⟩
    | some (.ok a) => ⟨[attempt], some (.ok a)⟩
    | some (.error _) =>
      match attempt.next? overflow unit with
      | none => ⟨[attempt], none⟩
      | some next =>
        let later := retryFrom overflow unit operation spare next
        ⟨attempt :: later.attempts, later.result⟩

/-- Attempts an operation at most `limit` times, and at least once. -/
def retry (overflow : Overflow) (limit unit : Nat) (operation : Nat → Option (Except ε α)) :
    Retried ε α :=
  retryFrom overflow unit operation (max limit 1 - 1) ⟨1, 0⟩

end ScriptForge.Chat

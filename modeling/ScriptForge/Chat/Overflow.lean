/-!
# Overflow

Some numbers of the client are kept in machine types. How the program is built settles what becomes
of a number that outgrows its type: it stops the program, or it is reduced to its last bits.
-/

namespace ScriptForge.Chat

/-- What becomes of a number that outgrows its type. -/
inductive Overflow
  /-- It stops the program. -/
  | stops
  /-- It is reduced to its last bits. -/
  | wraps
  deriving DecidableEq, Repr

namespace Overflow

variable {overflow : Overflow} {size n : Nat}

/-- A number as one of a type with so many values; nothing if it stops the program. -/
def fit? (overflow : Overflow) (size n : Nat) : Option Nat :=
  if n < size then some n
  else
    match overflow with
    | stops => none
    | wraps => some (n % size)

theorem fit?_of_lt (overflow : Overflow) (h : n < size) : overflow.fit? size n = some n :=
  if_pos h

theorem fit?_stops (h : size ≤ n) : stops.fit? size n = none :=
  if_neg (Nat.not_lt.mpr h)

theorem fit?_wraps (size n : Nat) : wraps.fit? size n = some (n % size) := by
  rw [fit?]
  split
  · rw [Nat.mod_eq_of_lt ‹_›]
  · rfl

end Overflow

end ScriptForge.Chat

/-!
# Natural numbers in digits

The number that decimal digits write, and the two ways in which a text is read as one: digits alone,
or digits behind an optional plus sign with a bound on the number. One more digit at the end makes
the number ten times as large and adds the digit.
-/

namespace ScriptForge.Decimal

/-- The value of a digit. -/
def digitValue (c : Char) : Nat :=
  c.toNat - '0'.toNat

/-- The number that digits write. -/
def ofDigits (digits : List Char) : Nat :=
  digits.foldl (fun n d => 10 * n + digitValue d) 0

@[simp] theorem ofDigits_nil : ofDigits [] = 0 := rfl

@[simp] theorem ofDigits_append_singleton (digits : List Char) (d : Char) :
    ofDigits (digits ++ [d]) = 10 * ofDigits digits + digitValue d := by
  simp [ofDigits]

/-- The number that a text writes if it is nothing but digits. -/
def nat? (text : List Char) : Option Nat :=
  if text.isEmpty || !text.all Char.isDigit then none else some (ofDigits text)

/-- The number below a bound that a text writes, with an optional plus sign. -/
def natBelow? (bound : Nat) (text : List Char) : Option Nat := do
  let n ← nat? (match text with
    | '+' :: digits => digits
    | digits => digits)
  if n < bound then return n else none

end ScriptForge.Decimal

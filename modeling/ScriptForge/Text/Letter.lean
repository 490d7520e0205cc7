import ScriptForge.Decimal.Natural

/-!
# Letters, digits and letter case

The classes that names are made of are ASCII classes, whatever alphabet a text is written in.
Folding to lower case is needed only to compare a text with plain words and to count its
characters, so `lower` maps what such a comparison can see: the ASCII capitals, the Kelvin sign,
whose small letter is a plain `k`, and the capital I with a dot, which becomes two characters.

The sixteen hexadecimal digits are written with small letters and read with small or capital ones.
-/

namespace ScriptForge.Text

/-- The characters of an identifier after its first one. -/
def isIdentifierChar (c : Char) : Bool :=
  c.isAlphanum || c == '_'

/-- The characters of a dashed name after its first one. -/
def isDashedChar (c : Char) : Bool :=
  isIdentifierChar c || c == '-'

/-- The characters of a hyphenated word after its first one. -/
def isHyphenatedChar (c : Char) : Bool :=
  c.isAlphanum || c == '-'

/-- The small letters of one character. -/
def lowerChar (c : Char) : List Char :=
  if c = '\u0130' then ['i', '\u0307']
  else if c = '\u212a' then ['k']
  else [c.toLower]

/-- The text with its capitals folded to small letters. -/
def lower (cs : List Char) : List Char :=
  cs.flatMap lowerChar

/-- Whether two texts are the same up to the case of their ASCII letters. -/
def sameIgnoringCase (a b : List Char) : Bool :=
  a.map Char.toLower == b.map Char.toLower

/-! ## Hexadecimal digits -/

/-- The digit of a value below sixteen. -/
def hexDigit (n : Nat) : Char :=
  if n < 10 then Char.ofNat ('0'.toNat + n) else Char.ofNat ('a'.toNat + (n - 10))

/-- The value of a digit. -/
def hexValue? (c : Char) : Option Nat :=
  if c.isDigit then some (Decimal.digitValue c)
  else if 'a' ≤ c ∧ c ≤ 'f' then some (c.toNat - 'a'.toNat + 10)
  else if 'A' ≤ c ∧ c ≤ 'F' then some (c.toNat - 'A'.toNat + 10)
  else none

end ScriptForge.Text

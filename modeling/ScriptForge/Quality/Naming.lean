import ScriptForge.Digest.Blake3
import ScriptForge.Quality.Finding

/-!
# The naming convention

A declared variable is named by a letter, more letters and digits, and eight digits at the end. A
name that breaks the convention gets a suggestion: its letters and digits, followed by eight digits
that its hash decides, so that the same name always gets the same suggestion.
-/

namespace ScriptForge.Quality

/-- Whether a name follows the convention for declared variables. -/
def isConventional (name : List Char) : Bool :=
  match name with
  | [] => false
  | c :: cs =>
    c.isAlpha && cs.all Char.isAlphanum && 8 ≤ cs.length &&
      (cs.drop (cs.length - 8)).all Char.isDigit

/-- The digit that a byte of a hash becomes. -/
def hashDigit (b : UInt8) : Char :=
  Char.ofNat ('0'.toNat + b.toNat % 10)

/-- Eight digits that the hash of a name decides. -/
def suffixDigits (name : String) : List Char :=
  ((Digest.blake3 name).toList.take 8).map hashDigit

/-- The name suggested in place of one that breaks the convention. -/
def suggestedName (name : String) : String :=
  String.ofList (name.toList.filter Char.isAlphanum ++ suffixDigits name)

/-- The finding for a name that breaks the convention. -/
def namingFinding (name : String) (line : Nat) : Finding where
  check := .naming
  message := s!"variable name '{name}' does not follow the '<name><8 digits>' convention"
  suggestion := some s!"rename '{name}' to something like '{suggestedName name}'"
  line := some line

end ScriptForge.Quality

import ScriptForge.Text.Letter
import ScriptForge.Text.Search

/-!
# The tokens of a script

A scanner takes a token off the front of a text and returns it with what follows. Nothing is
skipped inside a token. Names, numbers and words are scanned greedily; strings and GraphQL bodies
end at the first quote or brace that closes them. Between the tokens of a phrase stands a gap, any
mix of spaces, line breaks and comments.

Each scanner splits the text it is given: what it takes and what it leaves make up the whole.
-/

namespace ScriptForge.Script

/-- Takes a token off the front of a text. -/
abbrev Scanner := List Char → Option (List Char × List Char)

namespace Token

open Text

/-- Puts characters in front of what was taken. -/
def push (taken : List Char) : List Char × List Char → List Char × List Char
  | (text, rest) => (taken ++ text, rest)

/-! ## Names -/

/-- The longest name: one character of the first class and any number of the second. -/
def name (first more : Char → Bool) : Scanner
  | [] => none
  | c :: cs => if first c then some (c :: cs.takeWhile more, cs.dropWhile more) else none

/-- A letter, then letters, digits and underscores. -/
def plainName : Scanner :=
  name Char.isAlpha isIdentifierChar

/-- A letter, then letters, digits, underscores and dashes. -/
def dashedName : Scanner :=
  name Char.isAlpha isDashedChar

/-- The reserved words. -/
def reservedWords : List (List Char) :=
  ["service".toList, "new".toList, "output".toList, "return".toList, "gql".toList, "query".toList,
    "mutation".toList, "true".toList, "false".toList]

/-- Whether the text starts with a reserved word that no identifier character follows. -/
def startsReserved (cs : List Char) : Bool :=
  reservedWords.contains (cs.takeWhile isIdentifierChar)

/-- A plain name that is no reserved word. -/
def identifier : Scanner := fun cs =>
  if startsReserved cs then none else plainName cs

/-- The name that a declaration gives. Underscores and dashes are let through here, so that a bad
name can be reported as such. -/
def declaredName : Scanner := fun cs =>
  if startsReserved cs then none else name (fun c => c.isAlpha || c == '_') isDashedChar cs

/-! ## Words -/

/-- A word that no character of the class `more` continues. -/
def word (text : List Char) (more : Char → Bool) : Scanner := fun cs =>
  match after? text cs with
  | none => none
  | some [] => some (text, [])
  | some (c :: rest) => if more c then none else some (text, c :: rest)

/-- The first of two scanners that takes something. -/
def either (first second : Scanner) : Scanner := fun cs =>
  (first cs).orElse fun _ => second cs

/-- One of the words `query` and `mutation`. -/
def operation : Scanner :=
  either (word "query".toList isIdentifierChar) (word "mutation".toList isIdentifierChar)

/-- One of the words `true` and `false`. -/
def boolean : Scanner :=
  either (word "true".toList isIdentifierChar) (word "false".toList isIdentifierChar)

/-! ## Literals and bodies -/

/-- One digit or more. -/
def digits : Scanner :=
  name Char.isDigit Char.isDigit

/-- A point with digits behind it, or nothing. -/
def fraction : List Char → List Char × List Char
  | '.' :: cs =>
    match digits cs with
    | some (text, rest) => ('.' :: text, rest)
    | none => ([], '.' :: cs)
  | cs => ([], cs)

/-- Digits with an optional fraction. -/
def unsigned : Scanner := fun cs =>
  (digits cs).map fun (text, rest) => push text (fraction rest)

/-- A number: an optional minus sign, digits, an optional fraction. -/
def number : Scanner
  | '-' :: cs => (unsigned cs).map (push ['-'])
  | cs => unsigned cs

/-- The rest of a string, up to the first quote without a backslash before it. -/
def closeString : Scanner
  | [] => none
  | '\\' :: c :: cs => (closeString cs).map (push ['\\', c])
  | c :: cs => if c = '"' then some (['"'], cs) else (closeString cs).map (push [c])

/-- A string between double quotes. -/
def string : Scanner
  | '"' :: cs => (closeString cs).map (push ['"'])
  | _ => none

/-- The rest of a body with `depth` braces open inside it, up to the brace that closes the body.
Braces inside a string, where `quoted` holds, do not count. -/
def closeBody : (quoted : Bool) → (depth : Nat) → Scanner
  | _, _, [] => none
  | true, depth, '\\' :: c :: cs => (closeBody true depth cs).map (push ['\\', c])
  | true, depth, c :: cs => (closeBody (c != '"') depth cs).map (push [c])
  | false, depth, c :: cs =>
    if c = '"' then (closeBody true depth cs).map (push [c])
    else if c = '\x7b' then (closeBody false (depth + 1) cs).map (push [c])
    else if c = '\x7d' then
      match depth with
      | 0 => some ([c], cs)
      | depth + 1 => (closeBody false depth cs).map (push [c])
    else (closeBody false depth cs).map (push [c])

/-- A body between braces that match. -/
def body : Scanner
  | '\x7b' :: cs => (closeBody false 0 cs).map (push ['\x7b'])
  | _ => none

/-! ## Gaps -/

/-- Spaces between tokens: blank, tab and the two line break characters. -/
def isSpace (c : Char) : Bool :=
  c == ' ' || c == '\t' || c == '\r' || c == '\n'

/-- Where a gap stands: between comments, in a comment to the end of the line, or in a comment
that a star and a slash close. -/
inductive GapMode
  | between
  | line
  | block

/-- Whether a block comment is closed somewhere in the text. -/
def closesComment : List Char → Bool
  | [] => false
  | '*' :: '/' :: _ => true
  | _ :: cs => closesComment cs

/-- The gap at the front of a text. A block comment that nothing closes is no comment. -/
def gapIn : GapMode → List Char → List Char × List Char
  | _, [] => ([], [])
  | .between, '/' :: '/' :: cs => push ['/', '/'] (gapIn .line cs)
  | .between, '/' :: '*' :: cs =>
    if closesComment cs then push ['/', '*'] (gapIn .block cs) else ([], '/' :: '*' :: cs)
  | .between, c :: cs => if isSpace c then push [c] (gapIn .between cs) else ([], c :: cs)
  | .line, c :: cs =>
    push [c] (gapIn (if c == '\n' || c == '\r' then .between else .line) cs)
  | .block, '*' :: '/' :: cs => push ['*', '/'] (gapIn .between cs)
  | .block, c :: cs => push [c] (gapIn .block cs)

/-- The gap at the front of a text and what follows it. -/
def gap (cs : List Char) : List Char × List Char :=
  gapIn .between cs

end Token

end ScriptForge.Script

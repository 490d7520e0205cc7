import ScriptForge.Quality.Analysis
import ScriptForge.Text.Letter
import ScriptForge.Text.Search
import ScriptForge.Text.WordChar

/-!
# Checks on the text of a script

Checks that need no tree and so work on any text: a service is defined somewhere, declared names
follow the convention, lines end the way a statement or a block does, and GraphQL blocks select
something. They look for patterns in the text and know nothing of strings; only the check of line
ends knows about comments.
-/

namespace ScriptForge.Quality.TextCheck

open Text

/-! ## Patterns -/

/-- What follows a word and one blank or more. -/
def wordThenBlanks? (word cs : List Char) : Option (List Char) :=
  match after? word cs with
  | some (c :: rest) => if isBlank c then some (trimStart rest) else none
  | _ => none

/-- Whether `service <name> {` stands at the front of a text. -/
def startsService (cs : List Char) : Bool :=
  match wordThenBlanks? "service".toList cs with
  | some (c :: rest) =>
    c.isAlpha && (trimStart (rest.dropWhile isHyphenatedChar)).head? == some '\x7b'
  | _ => false

/-- Whether `service <name> {` stands anywhere in a text. -/
def definesService : List Char → Bool
  | [] => false
  | c :: cs => startsService (c :: cs) || definesService cs

/-- The name in `new <name> =` at the front of a text. -/
def declaredAt? (cs : List Char) : Option (List Char) :=
  match wordThenBlanks? "new".toList cs with
  | some (c :: rest) =>
    if (c.isAlpha || c == '_') &&
        (trimStart (rest.dropWhile isDashedChar)).head? == some '=' then
      some (c :: rest.takeWhile isDashedChar)
    else none
  | _ => none

/-- The line behind a character. -/
def lineAfter (line : Nat) (c : Char) : Nat :=
  if c = '\n' then line + 1 else line

/-- The line behind the blanks that follow `new`. -/
def lineOfName (line : Nat) (cs : List Char) : Nat :=
  ((cs.drop 3).takeWhile isBlank).foldl lineAfter line

/-- The names in `new <name> =` with their lines. A `new` that continues a word is not one. -/
def declarations (inWord : Bool) (line : Nat) : List Char → List (List Char × Nat)
  | [] => []
  | c :: cs =>
    let rest := declarations (isWordChar c) (lineAfter line c) cs
    if inWord then rest
    else
      match declaredAt? (c :: cs) with
      | some name => (name, lineOfName line (c :: cs)) :: rest
      | none => rest

/-- A GraphQL block found in a text: what it does, the text up to the first closing brace and the
number of characters it takes. -/
structure Block where
  operation : Script.Operation
  body : List Char
  length : Nat

/-- The block that an operation opens, from what follows its name. -/
def blockBody? (operation : Script.Operation) (total : Nat) (cs : List Char) : Option Block :=
  match trimStart cs with
  | '\x7b' :: rest =>
    match splitAtFirst? '\x7d' rest with
    | some (body, after) => some ⟨operation, body, total - after.length⟩
    | none => none
  | _ => none

/-- The GraphQL block at the front of a text. -/
def blockAt? (cs : List Char) : Option Block :=
  match wordThenBlanks? "gql".toList cs with
  | some rest =>
    match after? "query".toList rest, after? "mutation".toList rest with
    | some rest, _ => blockBody? .query cs.length rest
    | _, some rest => blockBody? .mutation cs.length rest
    | _, _ => none
  | none => none

/-- The GraphQL blocks with the lines where they start, none inside another; the first `skip`
characters are passed over. -/
def blocks : (skip line : Nat) → List Char → List (Block × Nat)
  | _, _, [] => []
  | skip + 1, line, c :: cs => blocks skip (lineAfter line c) cs
  | 0, line, c :: cs =>
    match blockAt? (c :: cs) with
    | some block => (block, line) :: blocks (block.length - 1) (lineAfter line c) cs
    | none => blocks 0 (lineAfter line c) cs

/-! ## Checks -/

/-- A finding unless the text defines a service. -/
def serviceFindings (cs : List Char) : List Finding :=
  if definesService cs then []
  else
    [{ check := .serviceDefinition
       message := "script must contain a `service <name> \x7b` definition"
       suggestion :=
        some "wrap the statements in a service block, e.g. `service order-rpc \x7b ... \x7d`"
       line := none }]

/-- One finding for each declared name that breaks the convention. -/
def namingFindings (cs : List Char) : List Finding :=
  (declarations false 1 cs).filterMap fun (name, line) =>
    if isConventional name then none else some (namingFinding (String.ofList name) line)

/-- Whether a text ends in one of some words. -/
def endsInAny (words : List (List Char)) (cs : List Char) : Bool :=
  words.any fun word => word.isSuffixOf cs

/-- Whether a trimmed line needs no terminator: it has one, opens or closes a block, or is a
comment. -/
def isClosedLine (cs : List Char) : Bool :=
  cs.isEmpty || endsInAny [[';'], ['\x7b'], ['\x7d'], ['*', '/']] cs ||
    ['/', '/'].isPrefixOf cs || ['/', '*'].isPrefixOf cs

/-- The code of a line, if there is any to judge, and whether the line ends in a block comment. A
comment that an earlier line opened is cut off first. -/
def lineCode (inComment : Bool) (line : List Char) : Option (List Char) × Bool :=
  let code? :=
    if inComment then (afterFirst? ['*', '/'] (trim line)).map trim else some (trim line)
  match code? with
  | none => (none, true)
  | some code =>
    if ['/', '*'].isPrefixOf code && !containsWord ['*', '/'] code then (none, true)
    else (if isClosedLine code then none else some code, false)

/-- The finding for a line without a terminator. -/
def lineFinding (number : Nat) (code : List Char) : Finding where
  check := .termination
  message := s!"line {number} is missing its terminator: {String.ofList code}"
  suggestion := some s!"append ';' to line {number}"
  line := some number

/-- One finding for each line that ends without a terminator, from a line number on. -/
def lineFindings (inComment : Bool) (number : Nat) : List (List Char) → List Finding
  | [] => []
  | line :: rest =>
    let (code?, open?) := lineCode inComment line
    (code?.map (lineFinding number)).toList ++ lineFindings open? (number + 1) rest

/-- One finding for each GraphQL block that selects nothing. -/
def blockFindings (cs : List Char) : List Finding :=
  (blocks 0 1 cs).filterMap fun (block, line) =>
    if block.body.all isBlank then some (gqlBodyFinding block.operation line) else none

/-- The findings of all checks. -/
def findings (text : String) : List Finding :=
  let cs := text.toList
  serviceFindings cs ++ namingFindings cs ++ lineFindings false 1 (lines cs) ++ blockFindings cs

end ScriptForge.Quality.TextCheck

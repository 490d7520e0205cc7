import ScriptForge.Text.Blank
import ScriptForge.Text.WordChar

/-!
# Files of variables

A file of variables has one entry per line, a name and a value behind an equals sign. A value in
quotes may go over several lines. Outside of single quotes a dollar sign stands before the name of a
variable whose value is put in its place. What follows the first line that makes no sense is not
read.
-/

namespace ScriptForge.Cli.Dotenv

/-- Parts of a value. -/
inductive Piece
  | char (c : Char)
  /-- The value of a variable. -/
  | value (name : String)
  deriving DecidableEq, Repr

/-- A variable and its value. -/
structure Entry where
  name : String
  value : List Piece
  deriving DecidableEq, Repr

/-! ## Lines -/

/-- Where a line may end: only outside of quotes. -/
inductive LineState
  | outside
  /-- Behind a blank, where a comment may start. -/
  | blank
  | escaped
  | quoted (quote : Char)
  | quotedEscaped (quote : Char)
  deriving DecidableEq, Repr

/-- The state after one more character. -/
def LineState.next (c : Char) : LineState → LineState
  | quoted quote =>
    if c = '\\' then quotedEscaped quote else if c = quote then outside else quoted quote
  | quotedEscaped quote => quoted quote
  | escaped => outside
  | outside =>
    if c = '\\' then escaped
    else if c = '"' ∨ c = '\x27' then quoted c
    else if Text.isBlank c ∧ c ≠ '\n' ∧ c ≠ '\r' then blank
    else outside
  | blank => if c = '\\' then escaped else if c = '"' ∨ c = '\x27' then quoted c else outside

/-- What follows the next line break. -/
def nextLine (cs : List Char) : List Char :=
  (cs.dropWhile (· != '\n')).drop 1

/-- The rest of a line and what follows it; a line must not end inside of quotes. -/
def takeLine? (state : LineState) : List Char → Option (List Char × List Char)
  | [] => if state = .outside then some ([], []) else none
  | c :: cs =>
    if state = .blank ∧ c = '#' then some ([], nextLine (c :: cs))
    else if c = '\n' ∧ state.next c = .outside then some ([], cs)
    else (takeLine? (state.next c) cs).map fun (line, rest) => (c :: line, rest)

/-- A line that is nothing but a comment. -/
def isComment (cs : List Char) : Bool :=
  match (cs.takeWhile (· != '\n')).dropWhile Text.isBlank with
  | '#' :: _ => true
  | _ => false

/-- The lines of a file, as far as they make sense; `limit` bounds their number. -/
def lines : (limit : Nat) → List Char → List (List Char)
  | 0, _ => []
  | _ + 1, [] => []
  | limit + 1, cs =>
    if isComment cs then lines limit (nextLine cs)
    else
      match takeLine? .outside cs with
      | some (line, rest) => line :: lines limit rest
      | none => []

/-! ## Values -/

/-- What a character of a value counts as. -/
inductive Mode
  /-- Part of the value, or the start of something. -/
  | plain (inQuotes : Bool)
  /-- Part of the value up to the closing quote. -/
  | literal
  | escaped (inQuotes : Bool)
  /-- Part of a name, or the character behind it. -/
  | name (inQuotes : Bool) (soFar : List Char)
  /-- Part of a name between braces. -/
  | braced (inQuotes : Bool) (soFar : List Char)
  /-- Behind the value. -/
  | done

/-- The part of a value that a name stands for. -/
def reference (name : List Char) : List Piece :=
  if name.isEmpty then [] else [.value (String.ofList name)]

/-- The parts of a value. -/
def value? : Mode → List Char → Option (List Piece)
  | .plain inQuotes, [] => if inQuotes then none else some []
  | .literal, [] => none
  | .escaped inQuotes, [] => if inQuotes then none else some []
  | .name inQuotes soFar, [] => if inQuotes then none else some (reference soFar)
  | .braced _ _, [] => none
  | .done, [] => some []
  | .done, c :: cs =>
    if c = ' ' ∨ c = '\t' then value? .done cs else if c = '#' then some [] else none
  | .escaped inQuotes, c :: cs =>
    if ['\\', '\x27', '"', '$', ' '].contains c then (.char c :: ·) <$> value? (.plain inQuotes) cs
    else if c = 'n' then (.char '\n' :: ·) <$> value? (.plain inQuotes) cs
    else none
  | .literal, c :: cs =>
    if c = '\x27' then value? (.plain false) cs else (.char c :: ·) <$> value? .literal cs
  | .name inQuotes soFar, c :: cs =>
    if Text.isWordChar c ∧ c ≠ '_' then value? (.name inQuotes (soFar ++ [c])) cs
    else if c = '\x7b' ∧ soFar = [] then value? (.braced inQuotes []) cs
    else if c = '$' then (reference soFar ++ ·) <$> value? (.name inQuotes []) cs
    else (reference soFar ++ .char c :: ·) <$> value? (.plain inQuotes) cs
  | .braced inQuotes soFar, c :: cs =>
    if c = '\x7d' then (reference soFar ++ ·) <$> value? (.plain inQuotes) cs
    else value? (.braced inQuotes (soFar ++ [c])) cs
  | .plain inQuotes, c :: cs =>
    if c = '$' then value? (.name inQuotes []) cs
    else if c = '\\' then value? (.escaped inQuotes) cs
    else if c = '"' then value? (.plain !inQuotes) cs
    else if inQuotes then (.char c :: ·) <$> value? (.plain true) cs
    else if c = '\x27' then value? .literal cs
    else if c = ' ' ∨ c = '\t' then value? .done cs
    else (.char c :: ·) <$> value? (.plain false) cs

/-! ## Entries -/

/-- The characters of a name after its first one. -/
def isNameChar (c : Char) : Bool :=
  c.isAlphanum || c == '_' || c == '.'

/-- A name and what follows it. -/
def name? : List Char → Option (List Char × List Char)
  | [] => none
  | c :: cs =>
    if c.isAlpha || c == '_' then
      some ((c :: cs).takeWhile isNameChar, (c :: cs).dropWhile isNameChar)
    else none

/-- A name in front of an equals sign, and what follows. -/
def assignment? (cs : List Char) : Option (List Char × List Char) := do
  let (name, rest) ← name? cs
  match Text.trimStart rest with
  | '=' :: rest => return (name, rest)
  | _ => none

/-- A name in front of an equals sign, possibly behind the word `export`. -/
def exported? (cs : List Char) : Option (List Char × List Char) :=
  (assignment? cs).orElse fun _ => do
    let (name, rest) ← name? cs
    if name = "export".toList then assignment? (Text.trimStart rest) else none

/-- The entry on a line, if there is one; nothing if the line makes no sense. -/
def entry? (line : List Char) : Option (Option Entry) :=
  match Text.trim line with
  | [] | '#' :: _ => some none
  | cs => do
    let (name, rest) ← exported? cs
    match Text.trimStart rest with
    | [] | '#' :: _ => return some ⟨String.ofList name, []⟩
    | value => return some ⟨String.ofList name, ← value? (.plain false) value⟩

/-- The entries on lines, up to the first that makes no sense. -/
def entriesOf : List (List Char) → List Entry
  | [] => []
  | line :: rest =>
    match entry? line with
    | none => []
    | some none => entriesOf rest
    | some (some entry) => entry :: entriesOf rest

/-- The entries of a file. -/
def entries (text : String) : List Entry :=
  let cs := match text.toList with
    | '\ufeff' :: cs => cs
    | cs => cs
  entriesOf (lines (cs.length + 1) cs)

/-! ## Variables -/

/-- The value of a variable: the one that is set already, or else the first one in the file. -/
def lookup [Monad m] (set : String → m (Option String)) (added : List (String × String))
    (name : String) : m (Option String) := do
  match ← set name with
  | some value => return some value
  | none => return (added.find? (·.1 == name)).map (·.2)

/-- The text of a value. -/
def Piece.text [Monad m] (lookup : String → m (Option String)) : Piece → m String
  | char c => return String.singleton c
  | value name => return (← lookup name).getD ""

/-- The variables that entries add to those that are set. -/
def additions [Monad m] (set : String → m (Option String)) (added : List (String × String)) :
    List Entry → m (List (String × String))
  | [] => return added
  | entry :: rest => do
    let texts ← entry.value.mapM (Piece.text (lookup set added))
    additions set (added ++ [(entry.name, String.join texts)]) rest

end ScriptForge.Cli.Dotenv

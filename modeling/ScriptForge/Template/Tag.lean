import ScriptForge.Json.Reader
import ScriptForge.Template.Basic
import ScriptForge.Text.Search

/-!
# Tags

A tag stands between double braces. It fills in a value, calls something by name, opens, divides or
closes a block, or is a comment. A tilde inside the braces takes away the blanks on its side of the
tag. Scanners return what they read with what follows it.
-/

namespace ScriptForge.Template

/-- What a tag does. -/
inductive TagKind
  | comment
  | value (path : Path)
  | call (invocation : Invocation)
  | opening (invocation : Invocation)
  /-- Starts the part of a block that is rendered otherwise. -/
  | otherwise
  /-- Starts that part with a block that ends with the first one. -/
  | otherwiseOpening (invocation : Invocation)
  | closing (name : String)
  deriving Repr

/-- A tag; `trimBefore` and `trimAfter` take away the blanks around it. -/
structure Tag where
  kind : TagKind
  trimBefore : Bool
  trimAfter : Bool
  deriving Repr

/-! ## Names and paths -/

/-- Whether a character may stand between the parts of a tag. -/
def isTagSpace (c : Char) : Bool :=
  c == ' ' || c == '\t' || c == '\n' || c == '\r'

/-- The text without the spaces in front. -/
def skipSpace (cs : List Char) : List Char :=
  cs.dropWhile isTagSpace

/-- The characters of a name. -/
def isNameChar (c : Char) : Bool :=
  c.isAlphanum || c == '_' || c == '-' || c == '$' || 128 ≤ c.toNat

/-- A name. -/
def name? (cs : List Char) : Option (String × List Char) :=
  match cs.takeWhile isNameChar with
  | [] => none
  | name => some (String.ofList name, cs.dropWhile isNameChar)

/-- A key of a path: a name, or any text between brackets. -/
def key? : List Char → Option (String × List Char)
  | '[' :: cs => (Text.splitAtFirst? ']' cs).map fun (key, rest) => (String.ofList key, rest)
  | cs => name? cs

/-- The keys behind the first one. -/
def moreKeys : (limit : Nat) → List Char → List String × List Char
  | 0, cs => ([], cs)
  | limit + 1, cs =>
    match cs with
    | [] => ([], cs)
    | c :: rest =>
      if c = '.' || c = '/' then
        match key? rest with
        | some (key, rest) =>
          let (keys, last) := moreKeys limit rest
          (key :: keys, last)
        | none => ([], cs)
      else ([], cs)

/-- The keys of a path. The key `this` leads nowhere else and is left out. -/
def keys? (cs : List Char) : Option (List String × List Char) := do
  let (first, rest) ← key? cs
  let (keys, rest) := moreKeys rest.length rest
  return ((first :: keys).filter (· != "this"), rest)

/-- Whether a key starts here. -/
def startsKey : List Char → Bool
  | [] => false
  | c :: _ => c == '[' || isNameChar c

/-- How many blocks a path goes out, and what follows. -/
def outward : List Char → Nat × List Char
  | '.' :: '.' :: '/' :: cs =>
    let (n, rest) := outward cs
    (n + 1, rest)
  | cs => (0, cs)

/-- What follows the steps that stay where they are. -/
def skipStay : List Char → List Char
  | '.' :: '/' :: cs => skipStay cs
  | cs => cs

/-- A path. -/
def path? : List Char → Option (Path × List Char)
  | '@' :: cs => do
    let (blocks, cs) := outward cs
    let (keys, rest) ← keys? cs
    match keys with
    | "root" :: keys => return (⟨.whole, keys⟩, rest)
    | keys => return (⟨.provided blocks, keys⟩, rest)
  | cs =>
    match outward cs with
    | (blocks, '.' :: '.' :: rest) => some (⟨.around (blocks + 1), []⟩, rest)
    | (blocks, '.' :: '/' :: rest) =>
      (keys? (skipStay rest)).map fun (keys, rest) => (⟨.around blocks, keys⟩, rest)
    | (blocks, '.' :: rest) => if startsKey rest then none else some (⟨.around blocks, []⟩, rest)
    | (blocks, rest) => (keys? rest).map fun (keys, rest) => (⟨.around blocks, keys⟩, rest)

/-! ## Arguments -/

/-- A word that stands for a value. -/
def constant? : String → Option Json
  | "true" => some (.bool true)
  | "false" => some (.bool false)
  | "null" => some .null
  | _ => none

/-- An argument without a name. -/
def bareArgument? (cs : List Char) : Option (Argument × List Char) :=
  match cs with
  | '"' :: rest => (Json.Reader.stringTail? rest).map fun (text, rest) =>
    (.literal (.str (String.ofList text)), rest)
  | '\x27' :: rest => (Text.splitAtFirst? '\x27' rest).map fun (text, rest) =>
    (.literal (.str (String.ofList text)), rest)
  | _ =>
    match name? cs with
    | some (name, rest) =>
      if name == "as" || name == "else" then none
      else
        match constant? name with
        | some value => some (.literal value, rest)
        | none =>
          if name.toList.all fun c => c.isDigit || c == '-' then
            (Json.Reader.number? cs).map fun (number, rest) => (.literal (.num number), rest)
          else (path? cs).map fun (path, rest) => (.path path, rest)
    | none => (path? cs).map fun (path, rest) => (.path path, rest)

/-- An argument, possibly behind a name and an equals sign. -/
def argument? (cs : List Char) : Option (Argument × List Char) :=
  match name? cs with
  | some (name, rest) =>
    match skipSpace rest with
    | '=' :: rest => (bareArgument? (skipSpace rest)).map fun (value, rest) =>
      (.named name value, rest)
    | _ => bareArgument? cs
  | none => bareArgument? cs

/-- As many arguments as there are. -/
def arguments : (limit : Nat) → List Char → List Argument × List Char
  | 0, cs => ([], cs)
  | limit + 1, cs =>
    match argument? (skipSpace cs) with
    | some (argument, rest) =>
      let (others, last) := arguments limit rest
      (argument :: others, last)
    | none => ([], skipSpace cs)

/-- A name and its arguments. -/
def invocation? (cs : List Char) : Option (Invocation × List Char) := do
  let (name, rest) ← name? (skipSpace cs)
  let (arguments, rest) := arguments rest.length rest
  return (⟨name, arguments, []⟩, rest)

/-- The one or two names between bars behind the word `as`; none if the word does not stand here. -/
def parameters? (cs : List Char) : Option (List String × List Char) :=
  match skipSpace cs with
  | 'a' :: 's' :: rest => do
    let ('|' :: rest) := skipSpace rest | none
    let (item, rest) ← name? (skipSpace rest)
    let (place, rest) :=
      match name? (skipSpace rest) with
      | some (name, rest) => ([name], rest)
      | none => ([], rest)
    let ('|' :: rest) := skipSpace rest | none
    return (item :: place, rest)
  | rest => some ([], rest)

/-- The start of a block: a name, its arguments and the names it gives. -/
def blockStart? (cs : List Char) : Option (Invocation × List Char) := do
  let (invocation, rest) ← invocation? cs
  let (parameters, rest) ← parameters? rest
  return ({ invocation with parameters := parameters }, rest)

/-- A value to fill in, or a call with at least one argument. -/
def expression? (cs : List Char) : Option (TagKind × List Char) :=
  let called :=
    match invocation? cs with
    | some (invocation, rest) =>
      if invocation.name == "else" || invocation.arguments.isEmpty then none
      else some (TagKind.call invocation, rest)
    | none => none
  called.orElse fun _ =>
    (path? (skipSpace cs)).map fun (path, rest) => (.value path, skipSpace rest)

/-! ## Tags -/

/-- The end of a tag: an optional tilde and two braces. -/
def tagEnd? (cs : List Char) : Option (Bool × List Char) :=
  match skipSpace cs with
  | '~' :: rest =>
    match skipSpace rest with
    | '\x7d' :: '\x7d' :: rest => some (true, rest)
    | _ => none
  | '\x7d' :: '\x7d' :: rest => some (false, rest)
  | _ => none

/-- What a tag does, from behind its opening braces and tilde. -/
def tagKind? (cs : List Char) : Option (TagKind × List Char) :=
  match skipSpace cs with
  | '#' :: rest => (blockStart? rest).map fun (invocation, rest) => (.opening invocation, rest)
  | '/' :: rest => (name? (skipSpace rest)).map fun (name, rest) => (.closing name, rest)
  | '^' :: rest => some (.otherwise, rest)
  | '&' :: rest => expression? rest
  | '>' :: rest => (invocation? rest).map fun (invocation, rest) =>
    (.call { invocation with name := ">" }, rest)
  | '\x7b' :: rest => do
    let (kind, rest) ← expression? rest
    match skipSpace rest with
    | '\x7d' :: rest => return (kind, rest)
    | _ => none
  | rest =>
    match name? rest with
    | some ("else", rest) =>
      match blockStart? rest with
      | some (invocation, rest) => some (.otherwiseOpening invocation, rest)
      | none => some (.otherwise, rest)
    | _ => expression? rest

/-- What follows a comment, from behind its exclamation mark. -/
def commentEnd? (cs : List Char) : Option (List Char) :=
  match cs with
  | '-' :: '-' :: rest =>
    (Text.afterFirst? ['-', '-', '\x7d', '\x7d'] rest).orElse fun _ =>
      Text.afterFirst? ['\x7d', '\x7d'] cs
  | _ => Text.afterFirst? ['\x7d', '\x7d'] cs

/-- A tag, from behind its opening braces. -/
def tag? (cs : List Char) : Option (Tag × List Char) :=
  match cs with
  | '!' :: rest => (commentEnd? rest).map fun rest => (⟨.comment, false, false⟩, rest)
  | _ => do
    let (trimBefore, cs) :=
      match skipSpace cs with
      | '~' :: rest => (true, rest)
      | rest => (false, rest)
    let (kind, cs) ← tagKind? cs
    let (trimAfter, rest) ← tagEnd? cs
    return (⟨kind, trimBefore, trimAfter⟩, rest)

end ScriptForge.Template

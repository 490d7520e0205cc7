import ScriptForge.Decimal.Shortest
import ScriptForge.Json.Basic
import ScriptForge.Text.Letter

/-!
# Writing JSON

`compact` leaves no space between the parts of a value; `pretty` puts every item and field on a line
of its own, two spaces deeper than what holds it, except that empty arrays and objects stay on one
line. Strings escape the quote, the backslash and the control characters and nothing else.
-/

namespace ScriptForge.Json

/-- A character as it stands in a string. -/
def escapeChar (c : Char) : List Char :=
  if c = '"' then ['\\', '"']
  else if c = '\\' then ['\\', '\\']
  else if c = '\n' then ['\\', 'n']
  else if c = '\r' then ['\\', 'r']
  else if c = '\t' then ['\\', 't']
  else if c = '\x08' then ['\\', 'b']
  else if c = '\x0c' then ['\\', 'f']
  else if c.toNat < 32 then
    ['\\', 'u', '0', '0', Text.hexDigit (c.toNat / 16), Text.hexDigit (c.toNat % 16)]
  else [c]

/-- A string between quotes. -/
def quote (s : String) : String :=
  String.ofList ('"' :: s.toList.flatMap escapeChar ++ ['"'])

/-- The text of a number. -/
def Number.text : Number → String
  | int value => toString value
  | float value => Decimal.floatText value

/-- The text of a value that holds no others. -/
def atomText : Json → String
  | .null => "null"
  | .bool true => "true"
  | .bool false => "false"
  | .num value => value.text
  | .str value => quote value
  | .arr _ => "[]"
  | .obj _ => "\x7b\x7d"

mutual

/-- The text of a value without spaces. -/
def compact : Json → String
  | .arr items => "[" ++ ",".intercalate (compactItems items) ++ "]"
  | .obj fields => "\x7b" ++ ",".intercalate (compactFields fields) ++ "\x7d"
  | atom => atomText atom

def compactItems : List Json → List String
  | [] => []
  | item :: items => compact item :: compactItems items

def compactFields : List (String × Json) → List String
  | [] => []
  | (name, value) :: fields => (quote name ++ ":" ++ compact value) :: compactFields fields

end

/-- The start of a line at a depth. -/
def indent (depth : Nat) : String :=
  "\n" ++ String.ofList (List.replicate (2 * depth) ' ')

mutual

/-- The text of a value spread over lines, at a depth. -/
def prettyAt (depth : Nat) : Json → String
  | .arr (item :: items) =>
    "[" ++ ",".intercalate (prettyItems (depth + 1) (item :: items)) ++ indent depth ++ "]"
  | .obj (field :: fields) =>
    "\x7b" ++ ",".intercalate (prettyFields (depth + 1) (field :: fields)) ++ indent depth ++ "\x7d"
  | atom => atomText atom

def prettyItems (depth : Nat) : List Json → List String
  | [] => []
  | item :: items => (indent depth ++ prettyAt depth item) :: prettyItems depth items

def prettyFields (depth : Nat) : List (String × Json) → List String
  | [] => []
  | (name, value) :: fields =>
    (indent depth ++ quote name ++ ": " ++ prettyAt depth value) :: prettyFields depth fields

end

/-- The text of a value spread over lines. -/
def pretty (json : Json) : String :=
  prettyAt 0 json

end ScriptForge.Json

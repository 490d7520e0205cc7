import ScriptForge.Json.Reader
import ScriptForge.Yaml.Basic

/-!
# Records in YAML

A record is a mapping whose keys are scalars. Fields of other names are ignored, but no field may be
given twice. Any scalar is a text; a number and a truth value have to be written plain.
-/

namespace ScriptForge.Yaml

/-- The text of a scalar. -/
def text? : Yaml → Option String
  | scalar text _ => some (String.ofList text)
  | _ => none

/-- Whether a value stands for nothing at all. -/
def isNothing : Yaml → Bool
  | scalar text true => text.isEmpty || ["~", "null", "Null", "NULL"].contains (String.ofList text)
  | _ => false

/-- A truth value. -/
def truth? : Yaml → Option Bool
  | scalar text true =>
    let word := String.ofList text
    if ["true", "True", "TRUE"].contains word then some true
    else if ["false", "False", "FALSE"].contains word then some false
    else none
  | _ => none

/-- The number that digits to a base stand for; there has to be at least one. -/
def digits? (base : Nat) (digits : List Char) : Option Nat :=
  if digits.isEmpty then none
  else
    digits.foldlM (fun n d => do
      let value ← Text.hexValue? d
      if value < base then return base * n + value else none) 0

/-- A natural number below a bound: decimal without a zero in front, or behind `0x`, `0o` or `0b`. A
plus sign may stand before it. -/
def natBelow? (bound : Nat) : Yaml → Option Nat
  | scalar text true => do
    let number := match text with
      | '+' :: rest => rest
      | rest => rest
    let n ←
      match number with
      | '0' :: 'x' :: digits => digits? 16 digits
      | '0' :: 'o' :: digits => digits? 8 digits
      | '0' :: 'b' :: digits => digits? 2 digits
      | ['0'] => some 0
      | '0' :: _ => none
      | digits => digits? 10 digits
    if n < bound then return n else none
  | _ => none

/-- The named entries of a mapping whose keys are scalars; where nothing is written there are none.
-/
def fields? : Yaml → Option (List (String × Yaml))
  | scalar [] true => some []
  | mapping entries => entries.mapM fun (key, value) => do return (← key.text?, value)
  | _ => none

/-- The value of a field that may be missing; nothing if it is given twice. -/
def lookup? (fields : List (String × Yaml)) (name : String) : Option (Option Yaml) :=
  match fields.filter fun field => field.1 == name with
  | [] => some none
  | [(_, value)] => some (some value)
  | _ => none

/-- A field that must be there. -/
def field? (fields : List (String × Yaml)) (name : String) (decode : Yaml → Option α) : Option α :=
  match lookup? fields name with
  | some (some value) => decode value
  | _ => none

/-- A field that may be missing. -/
def fieldOr? (fields : List (String × Yaml)) (name : String) (decode : Yaml → Option α)
    (default : α) : Option α :=
  match lookup? fields name with
  | some (some value) => decode value
  | some none => some default
  | none => none

/-- A value that may stand for nothing. -/
def nullable? (decode : Yaml → Option α) (value : Yaml) : Option (Option α) :=
  if value.isNothing then some none else some <$> decode value

end ScriptForge.Yaml

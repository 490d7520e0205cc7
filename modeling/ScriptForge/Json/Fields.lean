import ScriptForge.Json.Basic

/-!
# Records and choices in JSON

A record is written as an object with one field per part, or as an array of its parts in order.
Reading takes the parts one after the other: `field` one that must be there, `optional` one that may
be `null` or, in an object, missing, and `withDefault` one that may be missing in either form.
Fields of other names are ignored, but no field may be given twice and an array may hold no further
items.

A choice is written as the name of the alternative. A tagged record carries the name of its
alternative in a field of its own, or as the first item of the array.
-/

namespace ScriptForge.Json

/-- What is still to be read of a record: named fields, or parts in order. -/
inductive Fields
  | named (fields : List (String × Json))
  | listed (items : List Json)

/-- Reads parts of a record one after the other. -/
abbrev FieldReader := StateT Fields Option

/-- The values that the fields of a name have. -/
def valuesOf (name : String) (fields : List (String × Json)) : List Json :=
  (fields.filter fun field => field.1 == name).map (·.2)

/-- Takes the next part: its value, if it has one. -/
def take (name : String) : FieldReader (Option Json)
  | .named fields =>
    match valuesOf name fields with
    | [] => some (none, .named fields)
    | [value] => some (some value, .named fields)
    | _ => none
  | .listed [] => some (none, .listed [])
  | .listed (item :: items) => some (some item, .listed items)

/-- A part that must be there. -/
def field (name : String) (decode : Json → Option α) : FieldReader α := do
  match ← take name with
  | some value => decode value
  | none => failure

/-- A part that may be `null`, or missing where `absent` is set. -/
def nullable (absent : Fields → Bool) (name : String) (decode : Json → Option α) :
    FieldReader (Option α) := do
  let fields ← get
  match ← take name with
  | some .null => return none
  | some value => some <$> (decode value : Option α)
  | none => if absent fields then return none else failure

/-- A part that may be `null` or a missing field. -/
def optional (name : String) (decode : Json → Option α) : FieldReader (Option α) :=
  nullable (fun | .named _ => true | .listed _ => false) name decode

/-- A part that may be `null` or missing. -/
def optionalWithDefault (name : String) (decode : Json → Option α) : FieldReader (Option α) :=
  nullable (fun _ => true) name decode

/-- A part that may be missing. -/
def withDefault (name : String) (decode : Json → Option α) (default : α) : FieldReader α := do
  match ← take name with
  | some value => decode value
  | none => return default

/-- All parts of a record and nothing else. -/
def readAll (reader : FieldReader α) (fields : Fields) : Option α :=
  match reader fields with
  | some (a, .named _) => some a
  | some (a, .listed []) => some a
  | _ => none

/-- A record. -/
def record? (reader : FieldReader α) : Json → Option α
  | .obj fields => readAll reader (.named fields)
  | .arr items => readAll reader (.listed items)
  | _ => none

/-- A record with the name of its alternative in the field `tag`. -/
def tagged? (tag : String) (alternative : String → FieldReader α) : Json → Option α
  | .obj fields =>
    match valuesOf tag fields with
    | [.str name] => readAll (alternative name) (.named (fields.filter fun field => field.1 != tag))
    | _ => none
  | .arr (.str name :: items) => readAll (alternative name) (.listed items)
  | _ => none

/-- One of several alternatives, written as its name alone or as a field of that name with no
value. -/
def choice? (alternative : String → Option α) : Json → Option α
  | .str name => alternative name
  | .obj [(name, .null)] => alternative name
  | _ => none

/-- A list of values. -/
def items? (decode : Json → Option α) : Json → Option (List α)
  | .arr items => items.mapM decode
  | _ => none

/-- A number of 32 bits. -/
def word32? : Json → Option Nat :=
  natBelow? UInt32.size

/-- A number of 64 bits. -/
def word64? : Json → Option Nat :=
  natBelow? UInt64.size

/-! ## Depth -/

mutual

/-- How deep values are nested. -/
def depth : Json → Nat
  | .arr items => itemsDepth items + 1
  | .obj fields => fieldsDepth fields + 1
  | _ => 1

def itemsDepth : List Json → Nat
  | [] => 0
  | item :: items => max item.depth (itemsDepth items)

def fieldsDepth : List (String × Json) → Nat
  | [] => 0
  | (_, value) :: fields => max value.depth (fieldsDepth fields)

end

end ScriptForge.Json

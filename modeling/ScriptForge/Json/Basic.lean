/-!
# JSON values

A number is an integer as long as it is written as one and fits into 64 bits, with or without a
sign; any other number is a floating-point one. The fields of an object keep the order in which they
were given. Looking a field up takes the last one of its name.
-/

namespace ScriptForge

namespace Json

/-- Numbers. -/
inductive Number
  | int (value : Int)
  | float (value : Float)
  deriving Repr, Inhabited

end Json

/-- JSON values. -/
inductive Json
  | null
  | bool (value : Bool)
  | num (value : Json.Number)
  | str (value : String)
  | arr (items : List Json)
  | obj (fields : List (String × Json))
  deriving Repr, Inhabited

namespace Json

/-- A natural number. -/
def nat (n : Nat) : Json :=
  .num (.int n)

/-- A value that may be absent, written as `null`. -/
def ofOption (encode : α → Json) : Option α → Json
  | none => .null
  | some a => encode a

/-- A list of values. -/
def ofList (encode : α → Json) (items : List α) : Json :=
  .arr (items.map encode)

/-- The value of the last field of a name. -/
def lookup? (fields : List (String × Json)) (name : String) : Option Json :=
  match fields with
  | [] => none
  | (key, value) :: rest =>
    (lookup? rest name).orElse fun _ => if key == name then some value else none

/-- A field of an object. -/
def get? (json : Json) (name : String) : Option Json :=
  match json with
  | .obj fields => lookup? fields name
  | _ => none

/-- The text of a string. -/
def string? : Json → Option String
  | .str s => some s
  | _ => none

/-- The items of an array. -/
def list? : Json → Option (List Json)
  | .arr items => some items
  | _ => none

/-- A truth value. -/
def bool? : Json → Option Bool
  | .bool b => some b
  | _ => none

/-- A natural number below a bound. -/
def natBelow? (bound : Nat) : Json → Option Nat
  | .num (.int (.ofNat n)) => if n < bound then some n else none
  | _ => none

end Json

end ScriptForge

import ScriptForge.Decimal.Natural
import ScriptForge.Json.Basic
import ScriptForge.Text.Letter

/-!
# Reading JSON

`Json.read?` reads one value with nothing but spaces around it. The readers of the parts take a
value off the front of a text and return what follows. Their recursion is bounded by a limit that
the length of the text sets, and values may be nested to a depth of 127.
-/

namespace ScriptForge.Json

namespace Reader

/-- The text without the spaces in front. -/
def skip (cs : List Char) : List Char :=
  cs.dropWhile fun c => c == ' ' || c == '\t' || c == '\n' || c == '\r'

/-- What follows a word. -/
def expect? : (word : List Char) → List Char → Option (List Char)
  | [], cs => some cs
  | w :: word, c :: cs => if w = c then expect? word cs else none
  | _ :: _, [] => none

/-! ## Numbers -/

/-- An integer in digits: a single zero, or digits that start with none. -/
def wholeDigits? (cs : List Char) : Option (List Char × List Char) :=
  match cs.takeWhile Char.isDigit with
  | [] => none
  | ['0'] => some (['0'], cs.drop 1)
  | '0' :: _ => none
  | digits => some (digits, cs.dropWhile Char.isDigit)

/-- The digits behind a point, if there is one. -/
def fraction? : List Char → Option (Option (List Char) × List Char)
  | '.' :: cs =>
    match cs.takeWhile Char.isDigit with
    | [] => none
    | digits => some (some digits, cs.dropWhile Char.isDigit)
  | cs => some (none, cs)

/-- The sign and the digits of an exponent. -/
def signedDigits? : List Char → Option (Int × List Char)
  | cs =>
    let (negative, cs) :=
      match cs with
      | '+' :: cs => (false, cs)
      | '-' :: cs => (true, cs)
      | cs => (false, cs)
    match cs.takeWhile Char.isDigit with
    | [] => none
    | digits =>
      let n : Int := Decimal.ofDigits digits
      some (if negative then -n else n, cs.dropWhile Char.isDigit)

/-- The exponent, if there is one. -/
def exponent? : List Char → Option (Option Int × List Char)
  | 'e' :: cs => (signedDigits? cs).map fun (n, rest) => (some n, rest)
  | 'E' :: cs => (signedDigits? cs).map fun (n, rest) => (some n, rest)
  | cs => some (none, cs)

/-- A floating-point number from its digits; nothing if it is too large. -/
def float? (negative : Bool) (digits : Nat) (exponent : Int) : Option Number :=
  let x :=
    if digits = 0 ∨ exponent < -1000 - (toString digits).length then 0.0
    else Float.ofScientific digits (exponent < 0) exponent.natAbs
  if 400 < exponent ∧ digits ≠ 0 then none
  else if x.isFinite then some (.float (if negative then -x else x)) else none

/-- An integer from its sign and digits; one that needs more than 64 bits is a floating-point
number, and so is a negative zero. -/
def integer? (negative : Bool) (digits : Nat) : Option Number :=
  if negative then
    if digits = 0 ∨ UInt64.size / 2 < digits then float? true digits 0 else some (.int (-digits))
  else if UInt64.size ≤ digits then float? false digits 0
  else some (.int digits)

/-- A number. -/
def number? (cs : List Char) : Option (Number × List Char) := do
  let (negative, cs) :=
    match cs with
    | '-' :: cs => (true, cs)
    | cs => (false, cs)
  let (whole, cs) ← wholeDigits? cs
  let (fraction, cs) ← fraction? cs
  let (exponent, cs) ← exponent? cs
  match fraction, exponent with
  | none, none => return (← integer? negative (Decimal.ofDigits whole), cs)
  | _, _ =>
    let places := fraction.getD []
    let shift : Int := exponent.getD 0 - (places.length : Int)
    return (← float? negative (Decimal.ofDigits (whole ++ places)) shift, cs)

/-! ## Strings -/

/-- The number that four hexadecimal digits write. -/
def hexFour? (a b c d : Char) : Option Nat := do
  return 4096 * (← Text.hexValue? a) + 256 * (← Text.hexValue? b) + 16 * (← Text.hexValue? c) +
    (← Text.hexValue? d)

/-- The character that a backslash and a letter stand for. -/
def escape? (c : Char) : Option Char :=
  match c with
  | '"' => some '"'
  | '\\' => some '\\'
  | '/' => some '/'
  | 'b' => some '\x08'
  | 'f' => some '\x0c'
  | 'n' => some '\n'
  | 'r' => some '\r'
  | 't' => some '\t'
  | _ => none

/-- Puts a character in front of what was read. -/
def cons (c : Char) : List Char × List Char → List Char × List Char
  | (text, rest) => (c :: text, rest)

/-- The rest of a string, without its closing quote. A character outside the basic plane may be
written as a pair of units; half of such a pair is refused. -/
def stringTail? : List Char → Option (List Char × List Char)
  | [] => none
  | '"' :: cs => some ([], cs)
  | '\\' :: 'u' :: a :: b :: c :: d :: cs =>
    match hexFour? a b c d with
    | none => none
    | some unit =>
      if 0xd800 ≤ unit ∧ unit < 0xdc00 then
        match cs with
        | '\\' :: 'u' :: e :: f :: g :: h :: cs =>
          match hexFour? e f g h with
          | some low =>
            if 0xdc00 ≤ low ∧ low < 0xe000 then
              (stringTail? cs).map
                (cons (Char.ofNat (0x10000 + 1024 * (unit - 0xd800) + (low - 0xdc00))))
            else none
          | none => none
        | _ => none
      else if 0xdc00 ≤ unit ∧ unit < 0xe000 then none
      else (stringTail? cs).map (cons (Char.ofNat unit))
  | '\\' :: c :: cs =>
    match escape? c with
    | some e => (stringTail? cs).map (cons e)
    | none => none
  | c :: cs => if c.toNat < 32 ∨ c = '\\' then none else (stringTail? cs).map (cons c)

/-! ## Values -/

mutual

/-- A value, nested at most `depth` deep. -/
def value? : (limit depth : Nat) → List Char → Option (Json × List Char)
  | 0, _, _ => none
  | limit + 1, depth, cs =>
    match skip cs with
    | 'n' :: cs => (expect? "ull".toList cs).map (.null, ·)
    | 't' :: cs => (expect? "rue".toList cs).map (.bool true, ·)
    | 'f' :: cs => (expect? "alse".toList cs).map (.bool false, ·)
    | '"' :: cs => (stringTail? cs).map fun (text, rest) => (.str (String.ofList text), rest)
    | '[' :: cs =>
      match depth, skip cs with
      | 0, _ => none
      | _ + 1, ']' :: cs => some (.arr [], cs)
      | depth + 1, cs => (items? limit depth cs).map fun (items, rest) => (.arr items, rest)
    | '\x7b' :: cs =>
      match depth, skip cs with
      | 0, _ => none
      | _ + 1, '\x7d' :: cs => some (.obj [], cs)
      | depth + 1, cs => (fields? limit depth cs).map fun (fields, rest) => (.obj fields, rest)
    | cs => (number? cs).map fun (number, rest) => (.num number, rest)

/-- One item or more and the closing bracket. -/
def items? : (limit depth : Nat) → List Char → Option (List Json × List Char)
  | 0, _, _ => none
  | limit + 1, depth, cs =>
    match value? limit depth cs with
    | none => none
    | some (item, cs) =>
      match skip cs with
      | ']' :: cs => some ([item], cs)
      | ',' :: cs => (items? limit depth cs).map fun (items, rest) => (item :: items, rest)
      | _ => none

/-- One field or more and the closing brace. -/
def fields? : (limit depth : Nat) → List Char → Option (List (String × Json) × List Char)
  | 0, _, _ => none
  | limit + 1, depth, cs =>
    match skip cs with
    | '"' :: cs =>
      match stringTail? cs with
      | none => none
      | some (name, cs) =>
        match skip cs with
        | ':' :: cs =>
          match value? limit depth cs with
          | none => none
          | some (value, cs) =>
            let field := (String.ofList name, value)
            match skip cs with
            | '\x7d' :: cs => some ([field], cs)
            | ',' :: cs => do
              let (fields, rest) ← fields? limit depth cs
              return (field :: fields, rest)
            | _ => none
        | _ => none
    | _ => none

end

end Reader

/-- Reads one value. -/
def read? (text : String) : Option Json :=
  let cs := text.toList
  match Reader.value? (2 * cs.length + 2) 127 cs with
  | some (json, rest) => if (Reader.skip rest).isEmpty then some json else none
  | none => none

end ScriptForge.Json

/-!
# Shortest decimals

The text of a floating-point number is the shortest decimal that reads back as the number; of two
equally short ones, the nearer. A finite number is `mantissa · 2 ^ power`, and the reals that round
to it form an interval between the midpoints to its neighbours; the ends belong to it when the
mantissa is even. For each count of digits the two neighbours of the number on the grid of decimals
with that many digits are tried, and the first grid with a hit wins.
-/

namespace ScriptForge.Decimal

/-- A positive decimal: `digits · 10 ^ exponent`. -/
structure Positive where
  digits : Nat
  exponent : Int
  deriving DecidableEq, Repr

/-- The quotient `numerator / denominator` of a positive number and the ends of the interval that
rounds to it, all over one denominator. -/
structure Interval where
  low : Nat
  value : Nat
  high : Nat
  denominator : Nat
  /-- Whether the ends round to the number too. -/
  closed : Bool
  deriving Repr

/-- The interval of `mantissa · 2 ^ power`. The lower neighbour is half as far away when the
mantissa is a power of two, except at the bottom of the range. -/
def Interval.ofBinary (mantissa : Nat) (power : Int) (narrow : Bool) : Interval :=
  let scale := if power < 0 then 1 else Nat.pow 2 power.toNat
  let denominator := if power < 0 then Nat.pow 2 (-power).toNat else 1
  let value := 4 * mantissa * scale
  { low := value - (if narrow then scale else 2 * scale)
    value
    high := value + 2 * scale
    denominator := 4 * denominator
    closed := mantissa % 2 == 0 }

/-- Whether `numerator / denominator` rounds to the number. -/
def Interval.holds (i : Interval) (numerator denominator : Nat) : Bool :=
  let low := i.low * denominator
  let high := i.high * denominator
  let x := numerator * i.denominator
  if i.closed then low ≤ x && x ≤ high else low < x && x < high

/-- A decimal as a quotient. -/
def Positive.quotient (p : Positive) : Nat × Nat :=
  if p.exponent < 0 then (p.digits, Nat.pow 10 (-p.exponent).toNat)
  else (p.digits * Nat.pow 10 p.exponent.toNat, 1)

/-- The neighbours of the number on the grid of multiples of `10 ^ exponent`, the nearer first; a
tie goes to the even one. -/
def Interval.neighbours (i : Interval) (exponent : Int) : List Positive :=
  let numerator := if exponent < 0 then i.value * Nat.pow 10 (-exponent).toNat else i.value
  let denominator :=
    if exponent < 0 then i.denominator else i.denominator * Nat.pow 10 exponent.toNat
  let below := numerator / denominator
  let rest := numerator % denominator
  let lower : Positive := ⟨below, exponent⟩
  let upper : Positive := ⟨below + 1, exponent⟩
  if 2 * rest < denominator || (2 * rest == denominator && below % 2 == 0) then [lower, upper]
  else [upper, lower]

/-- The exponent of the leading digit: the largest `e` with `10 ^ e` at most the number, searched
downwards from `from` for `steps` steps. -/
def Interval.leading (i : Interval) : (steps : Nat) → (start : Int) → Int
  | 0, start => start
  | steps + 1, start =>
    let (numerator, denominator) := Positive.quotient ⟨1, start⟩
    if numerator * i.denominator ≤ i.value * denominator then start
    else i.leading steps (start - 1)

/-- The first decimal with at most `more` digits beyond `count` that rounds to the number. -/
def Interval.shortestFrom (i : Interval) (leading : Int) : (more count : Nat) → Option Positive
  | 0, _ => none
  | more + 1, count =>
    let candidates := i.neighbours (leading - (count : Int) + 1)
    let hit := candidates.find? fun p =>
      p.digits ≠ 0 && (let (numerator, denominator) := p.quotient; i.holds numerator denominator)
    match hit with
    | some p => some p
    | none => i.shortestFrom leading more (count + 1)

/-- A decimal without zeros at the end of its digits, `limit` of them at most. -/
def Positive.strip : (limit : Nat) → Positive → Positive
  | 0, p => p
  | limit + 1, p =>
    if p.digits ≠ 0 ∧ p.digits % 10 = 0 then strip limit ⟨p.digits / 10, p.exponent + 1⟩ else p

/-- The bit of the sign among the 64 bits of a number. -/
def signBit : Nat := 1 <<< 63

/-- The leading bit of a mantissa, which is not among the bits of a number. -/
def hiddenBit : Nat := 1 <<< 52

/-- The shortest decimal that reads back as a positive finite number. -/
def shortest (x : Float) : Positive :=
  let bits : Nat := x.toBits.toNat % signBit
  let field : Nat := bits / hiddenBit
  let fraction : Nat := bits % hiddenBit
  let mantissa := if field = 0 then fraction else hiddenBit + fraction
  let power : Int := (if field = 0 then 1 else (field : Int)) - 1075
  let i := Interval.ofBinary mantissa power (fraction = 0 && 1 < field)
  ((i.shortestFrom (i.leading 640 310) 17 1).getD ⟨0, 0⟩).strip 17

/-- How a decimal is written: plain up to sixteen places before the point and down to five zeros
behind it, otherwise with an exponent. A plain number always has a point. -/
def Positive.text (p : Positive) : String :=
  let digits := (toString p.digits).toList
  let length := digits.length
  let point : Int := length + p.exponent
  let zeros (n : Nat) := List.replicate n '0'
  if 0 ≤ p.exponent ∧ point ≤ 16 then
    String.ofList (digits ++ zeros p.exponent.toNat) ++ ".0"
  else if 0 < point ∧ point ≤ 16 then
    String.ofList (digits.take point.toNat ++ '.' :: digits.drop point.toNat)
  else if -5 < point ∧ point ≤ 0 then
    String.ofList ('0' :: '.' :: zeros (-point).toNat ++ digits)
  else
    let exponent := toString (point - 1)
    match digits with
    | [] => ""
    | [d] => String.ofList [d, 'e'] ++ exponent
    | d :: ds => String.ofList (d :: '.' :: ds) ++ "e" ++ exponent

/-- The text of a finite floating-point number. -/
def floatText (x : Float) : String :=
  let sign := if x.toBits.toNat < signBit then "" else "-"
  if x == 0 then sign ++ "0.0" else sign ++ (shortest x).text

end ScriptForge.Decimal

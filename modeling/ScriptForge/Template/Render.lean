import ScriptForge.Decimal.Natural
import ScriptForge.Json.Writer
import ScriptForge.Template.Basic

/-!
# Rendering

A template is rendered with JSON data. A value that is not found is written as nothing, and no value
is ever read as a template. The blocks are `if` and `unless`, `each` over the items of an array or
the fields of an object, and `with`; a block or a call of another name is an error once it is
reached, and so is a key of an array that is no number. A block that is only called writes nothing.
-/

namespace ScriptForge.Template

/-- The current value of a block, what every block of its kind provides and the names that the
template itself gives. -/
structure Scope where
  value : Json
  provided : List (String × Json)
  given : List (String × Json)

/-- The scopes of the blocks around a place, the innermost first, and the whole data. -/
structure Scopes where
  inner : List Scope
  whole : Json

/-! ## Looking values up -/

/-- The value at the end of some keys. What is not there counts as `null`, but an array has to be
given a number. -/
def descend? : (keys : List String) → Json → Option Json
  | [], value => some value
  | key :: keys, .arr items =>
    (Decimal.natBelow? UInt64.size key.toList).bind fun i => descend? keys (items[i]?.getD .null)
  | key :: keys, value => descend? keys ((value.get? key).getD .null)

/-- The scope that is current so many blocks further out; the innermost if there are not so many. -/
def Scopes.around? (scopes : Scopes) (blocks : Nat) : Option Scope :=
  (scopes.inner[blocks]?).orElse fun _ => scopes.inner.head?

/-- The value of a name that the template gives, in the innermost block that gives it. -/
def Scopes.given? (scopes : Scopes) (name : String) : Option Json :=
  scopes.inner.findSome? fun scope => Json.lookup? scope.given name

/-- The value that a path leads to. -/
def Scopes.find? (scopes : Scopes) (path : Path) : Option Json :=
  match path.origin, path.keys with
  | .whole, keys => descend? keys scopes.whole
  | .provided blocks, keys =>
    let found := do Json.lookup? (← scopes.inner[blocks]?).provided (← keys.head?)
    some (found.getD .null)
  | .around blocks, keys =>
    match (keys.head?).bind scopes.given? with
    | some value => descend? (keys.drop 1) value
    | none => (scopes.around? blocks).bind fun scope => descend? keys scope.value

/-- The value of an argument. -/
def Scopes.value? (scopes : Scopes) : Argument → Option Json
  | .path path => scopes.find? path
  | .literal value => some value
  | .named _ argument => scopes.value? argument

/-! ## Values as text and as conditions -/

mutual

/-- A value as text. -/
def valueText : Json → String
  | .null => ""
  | .bool true => "true"
  | .bool false => "false"
  | .num number => number.text
  | .str text => text
  | .arr items => "[" ++ ", ".intercalate (valueTexts items) ++ "]"
  | .obj _ => "[object]"

def valueTexts : List Json → List String
  | [] => []
  | item :: items => valueText item :: valueTexts items

end

/-- The least positive number that is stored with all its digits. -/
def leastNormal : Float :=
  Float.ofBits 0x0010000000000000

/-- Whether a value counts as true; zero does only where `zero` says so. -/
def holds (zero : Bool) : Json → Bool
  | .null => false
  | .bool value => value
  | .num (.int value) => zero || value != 0
  | .num (.float value) => if zero then !value.isNaN else leastNormal ≤ value.abs
  | .str text => !text.isEmpty
  | .arr items => !items.isEmpty
  | .obj fields => !fields.isEmpty

/-! ## Arguments -/

/-- The values of arguments, those with a name apart. -/
structure Values where
  plain : List Json
  named : List (String × Json)

/-- The values of all arguments. -/
def Scopes.values? (scopes : Scopes) : List Argument → Option Values
  | [] => some ⟨[], []⟩
  | argument :: arguments => do
    let value ← scopes.value? argument
    let others ← scopes.values? arguments
    return match argument with
      | .named name _ => { others with named := (name, value) :: others.named }
      | _ => { others with plain := value :: others.plain }

/-- Whether zero is to count as true. -/
def Values.includesZero (values : Values) : Bool :=
  match Json.lookup? values.named "includeZero" with
  | some (.bool value) => value
  | _ => false

/-! ## Scopes of items -/

/-- The names that `each` provides for every item. -/
def placeNames (i count : Nat) : List (String × Json) :=
  [("index", .nat i), ("first", .bool (i == 0)), ("last", .bool (i + 1 == count))]

/-- The names of an item and of its place. -/
def givenNames (parameters : List String) (item place : Json) : List (String × Json) :=
  parameters.zip [item, place]

/-- The scopes of the items of an array. -/
def itemScopes (parameters : List String) (items : List Json) : List Scope :=
  items.zipIdx.map fun (item, i) =>
    ⟨item, placeNames i items.length, givenNames parameters item (.nat i)⟩

/-- Fields in the order of their names, each name once. -/
def sortedFields (fields : List (String × Json)) : List (String × Json) :=
  let names := (fields.map (·.1)).eraseDups.mergeSort (fun a b => a ≤ b)
  names.filterMap fun name => (Json.lookup? fields name).map (name, ·)

/-- The scopes of the fields of an object, in the order of their names. -/
def fieldScopes (parameters : List String) (fields : List (String × Json)) : List Scope :=
  let sorted := sortedFields fields
  sorted.zipIdx.map fun ((name, value), i) =>
    ⟨value, ("key", .str name) :: placeNames i sorted.length,
      givenNames parameters value (.str name)⟩

/-- The scopes in which the body of `each` is rendered; none for a value without items. -/
def eachScopes (parameters : List String) : Json → List Scope
  | .arr items => itemScopes parameters items
  | .obj fields => fieldScopes parameters fields
  | _ => []

/-! ## Blocks -/

/-- How a block is rendered: its body in each of some scopes, its body where it stands, or its other
part. -/
inductive Choice
  | bodyIn (scopes : List Scope)
  | body
  | inverse

/-- How a block is rendered; nothing for an unknown name or a missing argument. -/
def choose? (scopes : Scopes) (invocation : Invocation) : Option Choice := do
  let values ← scopes.values? invocation.arguments
  let value ← values.plain.head?
  match invocation.name with
  | "if" => return if holds values.includesZero value then .body else .inverse
  | "unless" => return if holds values.includesZero value then .inverse else .body
  | "each" =>
    let inner := eachScopes invocation.parameters value
    return if inner.isEmpty then .inverse else .bodyIn inner
  | "with" =>
    let given :=
      if invocation.parameters.length = 1 then givenNames invocation.parameters value .null else []
    return if holds false value then .bodyIn [⟨value, [], given⟩] else .inverse
  | _ => none

/-- Whether a name is that of a block, so that it cannot be used as a value. -/
def isBlockName (path : Path) : Bool :=
  path.origin == .around 0 &&
    match path.keys with
    | [name] => ["if", "unless", "each", "with", "lookup"].contains name
    | _ => false

mutual

/-- The text of one part. -/
def renderPart (scopes : Scopes) : Part → Option (List Char)
  | .text text => some text
  | .value path =>
    if isBlockName path then none
    else (scopes.find? path).map fun value => (valueText value).toList
  | .call invocation => (choose? scopes invocation).map fun _ => []
  | .block invocation body inverse =>
    match choose? scopes invocation with
    | none => none
    | some .body => renderParts scopes body
    | some .inverse => renderParts scopes inverse
    | some (.bodyIn inner) =>
      List.flatten <$> inner.mapM fun scope =>
        renderParts { scopes with inner := scope :: scopes.inner } body

/-- The text of several parts. -/
def renderParts (scopes : Scopes) : List Part → Option (List Char)
  | [] => some []
  | part :: parts => do
    let text ← renderPart scopes part
    let more ← renderParts scopes parts
    return text ++ more

end

/-- The text of a template with data. -/
def render? (template : List Part) (data : Json) : Option (List Char) :=
  renderParts ⟨[⟨data, [], []⟩], data⟩ template

end ScriptForge.Template

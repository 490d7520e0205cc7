import ScriptForge.Json.Fields
import ScriptForge.Script.Basic

/-!
# Scripts in JSON

The written form of a script and its parts. Statements and values are tagged records: the field
`node` names the alternative and comes first.
-/

namespace ScriptForge.Script

open Json

/-! ## Writing -/

def Position.toJson (position : Position) : Json :=
  .obj [("line", .nat position.line), ("column", .nat position.column)]

def Operation.name : Operation → String
  | query => "query"
  | mutation => "mutation"

def LiteralKind.name : LiteralKind → String
  | string => "string"
  | number => "number"
  | boolean => "boolean"

/-- The fields of a GraphQL block. -/
def GqlBlock.fields (block : GqlBlock) : List (String × Json) :=
  [("operation", .str block.operation.name), ("body", .str block.body)]

/-- The fields of a literal. -/
def Literal.fields (literal : Literal) : List (String × Json) :=
  [("literal_type", .str literal.kind.name), ("raw", .str literal.raw)]

/-- The fields of a reference. -/
def Reference.fields (reference : Reference) : List (String × Json) :=
  [("name", .str reference.name), ("path", .ofList .str reference.path),
    ("position", reference.position.toJson)]

/-- The fields of a call whose arguments are written already. -/
def Callee.fields (callee : Callee) (arguments : List Json) : List (String × Json) :=
  [("plugin", .str callee.plugin), ("extension", .str callee.extension),
    ("function", .str callee.function), ("args", .arr arguments)]

/-- A tagged record. -/
def node (name : String) (fields : List (String × Json)) : Json :=
  .obj (("node", .str name) :: fields)

mutual

def Expression.toJson : Expression → Json
  | .query block => node "query" block.fields
  | .call callee arguments => node "call" (callee.fields (argumentsToJson arguments))
  | .reference reference => node "reference" reference.fields
  | .literal literal => node "literal" literal.fields

def argumentsToJson : List Expression → List Json
  | [] => []
  | argument :: arguments => argument.toJson :: argumentsToJson arguments

end

def StatementKind.toJson : StatementKind → Json
  | .declaration name value => node "declaration" [("name", .str name), ("value", value.toJson)]
  | .output service field value =>
    node "output" [("service", .str service), ("field", .str field), ("value", value.toJson)]
  | .returns value => node "return" [("value", value.toJson)]
  | .call callee arguments =>
    node "call" [("call", .obj (callee.fields (argumentsToJson arguments)))]

def Statement.toJson (statement : Statement) : Json :=
  .obj [("kind", statement.kind.toJson), ("content", .str statement.content),
    ("terminated", .bool statement.terminated), ("position", statement.position.toJson)]

def toJson (script : Script) : Json :=
  .obj [("service", .str script.service),
    ("statements", .ofList Statement.toJson script.statements)]

/-! ## Reading -/

def Position.ofJson? : Json → Option Position :=
  record? do return ⟨← field "line" word64?, ← field "column" word64?⟩

def Operation.ofName? : String → Option Operation
  | "query" => some .query
  | "mutation" => some .mutation
  | _ => none

def LiteralKind.ofName? : String → Option LiteralKind
  | "string" => some .string
  | "number" => some .number
  | "boolean" => some .boolean
  | _ => none

def GqlBlock.reader : FieldReader GqlBlock :=
  return ⟨← field "operation" (choice? Operation.ofName?), ← field "body" string?⟩

def Literal.reader : FieldReader Literal :=
  return ⟨← field "literal_type" (choice? LiteralKind.ofName?), ← field "raw" string?⟩

def Reference.reader : FieldReader Reference :=
  return ⟨← field "name" string?, ← field "path" (items? string?),
    ← field "position" Position.ofJson?⟩

/-- A call, given how an argument is read. -/
def Callee.reader (argument : Json → Option Expression) :
    FieldReader (Callee × List Expression) := do
  let callee : Callee :=
    ⟨← field "plugin" string?, ← field "extension" string?, ← field "function" string?⟩
  return (callee, ← field "args" (items? argument))

/-- The alternatives of a value, given how an argument is read. -/
def Expression.alternative (argument : Json → Option Expression) :
    String → FieldReader Expression
  | "query" => .query <$> GqlBlock.reader
  | "call" => (fun (callee, arguments) => .call callee arguments) <$> Callee.reader argument
  | "reference" => .reference <$> Reference.reader
  | "literal" => .literal <$> Literal.reader
  | _ => failure

/-- A value with calls nested up to a depth. -/
def Expression.ofJsonTo? : (depth : Nat) → Json → Option Expression
  | 0, _ => none
  | depth + 1, json => tagged? "node" (alternative (ofJsonTo? depth)) json

def Expression.ofJson? (json : Json) : Option Expression :=
  ofJsonTo? json.depth json

/-- The alternatives of what a statement does. -/
def StatementKind.alternative : String → FieldReader StatementKind
  | "declaration" =>
    return .declaration (← field "name" string?) (← field "value" Expression.ofJson?)
  | "output" =>
    return .output (← field "service" string?) (← field "field" string?)
      (← field "value" Expression.ofJson?)
  | "return" => return .returns (← field "value" Expression.ofJson?)
  | "call" => do
    let (callee, arguments) ← field "call" (record? (Callee.reader Expression.ofJson?))
    return .call callee arguments
  | _ => failure

def Statement.ofJson? : Json → Option Statement :=
  record? do
    return ⟨← field "kind" (tagged? "node" StatementKind.alternative), ← field "content" string?,
      ← field "terminated" bool?, ← field "position" Position.ofJson?⟩

def ofJson? : Json → Option Script :=
  record? do return ⟨← field "service" string?, ← field "statements" (items? Statement.ofJson?)⟩

end ScriptForge.Script

import ScriptForge.Script.Grammar
import ScriptForge.Text.Blank

/-!
# From a text to a script

`Script.parse` matches the grammar and builds the script from the nodes that its rules left. A
blank text is refused before the grammar is tried. A text that does not match is refused with the
place that was reached furthest and the rules that were attempted there; a node that the grammar
should have left and did not would be refused as missing.
-/

namespace ScriptForge.Script

/-! ## Errors -/

/-- Why a text is no script. -/
inductive ParseError
  /-- There is nothing but blanks. -/
  | empty
  /-- None of the expected rules matches at a place. -/
  | unexpected (position : Position) (expected : List Rule)
  /-- A matched rule lacks a part. -/
  | missing (part : String)
  deriving DecidableEq, Repr

/-- Some alternatives in words: `A`, `A or B`, `A, B, or C`. -/
def alternatives : List String → String
  | [] => ""
  | [a] => a
  | [a, b] => a ++ " or " ++ b
  | words => ", ".intercalate words.dropLast ++ ", or " ++ words.getLastD ""

/-- The rules a report names, each once and in the order of the grammar. -/
def Attempts.expected (attempts : Attempts) : List Rule :=
  Rule.all.filter (attempts.rules.contains ·)

namespace ParseError

/-- What was expected instead. -/
def expectation (expected : List Rule) : String :=
  "expected " ++ alternatives (expected.map Rule.describe)

/-- The text of an error. -/
def message : ParseError → String
  | empty => "empty script"
  | unexpected position expected =>
    s!"line {position.line}, column {position.column}: " ++ expectation expected
  | missing part => "unexpected parse structure: missing " ++ part

/-- Where the error is, if it is at a place. -/
def position? : ParseError → Option Position
  | unexpected position _ => some position
  | _ => none

end ParseError

/-! ## Building the tree -/

namespace Node

/-- The text a node covers. -/
def string (node : Node) : String :=
  String.ofList node.text

/-- The first child that a rule left, or else an error. -/
def require (node : Node) (rule : Rule) : Except ParseError Node :=
  match node.child? rule with
  | some child => .ok child
  | none => .error (.missing rule.describe)

/-- The text of the first child that a rule left. -/
def requireText (node : Node) (rule : Rule) : Except ParseError String :=
  string <$> node.require rule

/-- The children that a rule left. -/
def childrenOf (node : Node) (rule : Rule) : List Node :=
  node.children.filter fun child => child.rule == rule

end Node

/-- What stands between the braces of a body, trimmed. -/
def stripBraces (body : List Char) : List Char :=
  match Text.trim body with
  | '\x7b' :: inner =>
    if inner.getLast? = some '\x7d' then Text.trim inner.dropLast else Text.trim body
  | _ => Text.trim body

/-- A GraphQL block from its node. -/
def gqlBlockOf (node : Node) : Except ParseError GqlBlock := do
  let operation ← node.requireText .gqlOperation
  let body ← node.require .gqlBody
  return ⟨if operation == "mutation" then .mutation else .query,
    String.ofList (stripBraces body.text)⟩

/-- A literal from its node. -/
def literalOf (node : Node) : Except ParseError Literal :=
  match node.children with
  | [] => .error (.missing Rule.literal.describe)
  | value :: _ =>
    .ok ⟨match value.rule with
      | .string => .string
      | .number => .number
      | _ => .boolean, value.string⟩

/-- A reference from its node. -/
def referenceOf (node : Node) : Except ParseError Reference := do
  let name ← node.requireText .identifier
  return ⟨name, (node.childrenOf .field).map Node.string, node.position⟩

/-- The name of a called function from its node. -/
def calleeOf (node : Node) : Except ParseError Callee := do
  let plugin ← node.requireText .pluginName
  let extension ← node.requireText .extension
  let function ← node.requireText .functionName
  return ⟨plugin, extension, function⟩

mutual

/-- The operand of a value or an argument from its node. -/
def operandOf : Node → Except ParseError Expression
  | .mk .gqlBlock position text children =>
    .query <$> gqlBlockOf (.mk .gqlBlock position text children)
  | .mk .call _ _ children => do
    let (callee, arguments) ← callOf children
    return .call callee arguments
  | .mk .literal position text children =>
    .literal <$> literalOf (.mk .literal position text children)
  | .mk .reference position text children =>
    .reference <$> referenceOf (.mk .reference position text children)
  | .mk rule _ _ _ => .error (.missing ("operand, found " ++ rule.describe))

/-- The operand that a value or an argument wraps. -/
def valueOf : Node → Except ParseError Expression
  | .mk _ _ _ (operand :: _) => operandOf operand
  | .mk rule _ _ [] => .error (.missing rule.describe)

/-- The called function and the arguments from the children of a call. -/
def callOf : List Node → Except ParseError (Callee × List Expression)
  | [] => .error (.missing Rule.callee.describe)
  | callee :: arguments => do
    let callee ← calleeOf callee
    let arguments ← argumentsOf arguments
    return (callee, arguments)

/-- The arguments of a call from their nodes. -/
def argumentsOf : List Node → Except ParseError (List Expression)
  | [] => .ok []
  | argument :: arguments => do
    let first ← valueOf argument
    let others ← argumentsOf arguments
    return first :: others

end

/-- What a statement does, from the node of its body. -/
def statementKindOf (body : Node) : Except ParseError StatementKind :=
  match body.rule with
  | .declaration => do
    let name ← body.requireText .declaredName
    let value ← valueOf (← body.require .expression)
    return .declaration name value
  | .returnStatement => do
    let value ← valueOf (← body.require .expression)
    return .returns value
  | .outputStatement => do
    let target ← body.require .outputTarget
    let service ← target.requireText .serviceName
    let field ← target.requireText .field
    let value ← valueOf (← body.require .expression)
    return .output service field value
  | .callStatement => do
    let call ← body.require .call
    let (callee, arguments) ← callOf call.children
    return .call callee arguments
  | rule => .error (.missing ("statement body, found " ++ rule.describe))

/-- A statement from its node. -/
def statementOf (node : Node) : Except ParseError Statement :=
  match node.children with
  | [] => .error (.missing Rule.statement.describe)
  | body :: closing => do
    let kind ← statementKindOf body
    return ⟨kind, String.ofList (Text.collapse body.text),
      closing.any fun child => child.rule == .terminator, node.position⟩

/-- A script from the node of the whole text. -/
def scriptOf (node : Node) : Except ParseError Script := do
  let service ← node.require .service
  let name ← service.requireText .serviceName
  let statements ← (service.childrenOf .statement).mapM statementOf
  return ⟨name, statements⟩

/-! ## Parsing -/

/-- Reads a script. -/
def parse (text : String) : Except ParseError Script :=
  if Text.allBlank text then .error .empty
  else
    let reply := Grammar.script ⟨.start, text.toList⟩
    match reply.found with
    | some ⟨node :: _, _, _⟩ => scriptOf node
    | some ⟨[], _, _⟩ => .error (.missing Rule.script.describe)
    | none => .error (.unexpected reply.attempts.position reply.attempts.expected)

end ScriptForge.Script

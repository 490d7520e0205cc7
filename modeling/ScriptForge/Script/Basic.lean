/-!
# Service scripts

The tree of a service script: the name of the service and its statements in source order. A
statement declares a variable, maps a value to an output field, returns a value or calls a plugin;
a value is an embedded GraphQL block, a plugin call, a literal or a reference to a variable.

Arguments of a call may be calls again, to any depth.
-/

namespace ScriptForge.Script

/-- A place in a text: line and column, both counted from one. -/
structure Position where
  line : Nat
  column : Nat
  deriving DecidableEq, Repr, Inhabited

/-- What an embedded GraphQL block does. -/
inductive Operation
  | query
  | mutation
  deriving DecidableEq, Repr

/-- An embedded GraphQL block; the body stands between the outer braces, trimmed. -/
structure GqlBlock where
  operation : Operation
  body : String
  deriving DecidableEq, Repr

/-- The kinds of literals. -/
inductive LiteralKind
  | string
  | number
  | boolean
  deriving DecidableEq, Repr

/-- A literal as it is written in the source. -/
structure Literal where
  kind : LiteralKind
  raw : String
  deriving DecidableEq, Repr

/-- A variable that is read, with the path of fields behind it. -/
structure Reference where
  name : String
  path : List String
  position : Position
  deriving DecidableEq, Repr

/-- The function of a plugin that a call names: `plugin.extension/function`. -/
structure Callee where
  plugin : String
  extension : String
  function : String
  deriving DecidableEq, Repr

/-- Values. -/
inductive Expression
  | query (block : GqlBlock)
  | call (callee : Callee) (arguments : List Expression)
  | reference (reference : Reference)
  | literal (literal : Literal)
  deriving Repr

/-- What a statement does. -/
inductive StatementKind
  /-- A variable is declared: `new name = value`. -/
  | declaration (name : String) (value : Expression)
  /-- A value is mapped to a field: `output service.field = value`. -/
  | output (service field : String) (value : Expression)
  /-- A value is returned: `return value`. -/
  | returns (value : Expression)
  /-- A plugin call on its own. -/
  | call (callee : Callee) (arguments : List Expression)
  deriving Repr

/-- A statement with its text, spacing collapsed, and whether a `;` closes it. -/
structure Statement where
  kind : StatementKind
  content : String
  terminated : Bool
  position : Position
  deriving Repr

end ScriptForge.Script

namespace ScriptForge

/-- A parsed service script. -/
structure Script where
  service : String
  statements : List Script.Statement
  deriving Repr

end ScriptForge

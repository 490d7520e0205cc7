import ScriptForge.Script.Basic

/-!
# Walking a script

The order in which a script is read: each statement, then the variable it declares, then every
variable it uses, those in the arguments of calls included.
-/

namespace ScriptForge.Script

/-- One stop of the walk. -/
inductive Visit
  | statement (statement : Statement)
  /-- The name a statement declares, with the position of the statement. -/
  | declaration (name : String) (position : Position)
  | usage (reference : Reference)
  deriving Repr

mutual

/-- The references in a value, from left to right. -/
def Expression.references : Expression → List Reference
  | .query _ => []
  | .call _ arguments => argumentReferences arguments
  | .reference reference => [reference]
  | .literal _ => []

/-- The references in the arguments of a call, from left to right. -/
def argumentReferences : List Expression → List Reference
  | [] => []
  | argument :: arguments => argument.references ++ argumentReferences arguments

end

/-- The value a statement computes; a call on its own has none. -/
def StatementKind.value? : StatementKind → Option Expression
  | .declaration _ value => some value
  | .output _ _ value => some value
  | .returns value => some value
  | .call _ _ => none

/-- The name a statement declares. -/
def StatementKind.declared? : StatementKind → Option String
  | .declaration name _ => some name
  | _ => none

/-- The references in a statement, from left to right. -/
def StatementKind.references : StatementKind → List Reference
  | .declaration _ value => value.references
  | .output _ _ value => value.references
  | .returns value => value.references
  | .call _ arguments => argumentReferences arguments

/-- The stops of the walk in one statement. -/
def Statement.visits (statement : Statement) : List Visit :=
  .statement statement ::
    (statement.kind.declared?.toList.map fun name => .declaration name statement.position) ++
      statement.kind.references.map .usage

/-- The stops of the walk through a script. -/
def visits (script : Script) : List Visit :=
  script.statements.flatMap Statement.visits

/-- The names a script declares, in source order. -/
def declaredNames (script : Script) : List String :=
  script.statements.filterMap fun statement => statement.kind.declared?

/-- The references in a script, in source order. -/
def references (script : Script) : List Reference :=
  script.statements.flatMap fun statement => statement.kind.references

end ScriptForge.Script

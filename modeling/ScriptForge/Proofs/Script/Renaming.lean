import ScriptForge.Proofs.Script.Occurrences
import Mathlib.Data.List.Basic

/-!
# Renaming variables

`Script.renamed f script` is the script with another name for each variable, in its declaration and
wherever it is read. A walk through the renamed script meets the same references as before, each
with its new name and all else as it was (`references_renamed`), and the renamed script declares the
new names (`declaredNames_renamed`).
-/

namespace ScriptForge.Script

variable (f : String → String)

/-- The reference to the variable by its new name. -/
def Reference.renamed (reference : Reference) : Reference :=
  { reference with name := f reference.name }

@[simp] theorem Reference.renamed_name (reference : Reference) :
    (reference.renamed f).name = f reference.name := rfl

mutual

/-- The value with the new names of the variables in it. -/
def Expression.renamed : Expression → Expression
  | .query block => .query block
  | .call callee arguments => .call callee (renamedArguments arguments)
  | .reference reference => .reference (reference.renamed f)
  | .literal literal => .literal literal

/-- The arguments of a call with the new names of the variables in them. -/
def renamedArguments : List Expression → List Expression
  | [] => []
  | argument :: arguments => argument.renamed :: renamedArguments arguments

end

/-- What a statement does, with the new names of the variable it declares and of those it reads. -/
def StatementKind.renamed : StatementKind → StatementKind
  | .declaration name value => .declaration (f name) (value.renamed f)
  | .output service field value => .output service field (value.renamed f)
  | .returns value => .returns (value.renamed f)
  | .call callee arguments => .call callee (renamedArguments f arguments)

/-- The statement with the new names of the variables. -/
def Statement.renamed (statement : Statement) : Statement :=
  { statement with kind := statement.kind.renamed f }

/-- The script with the new names of the variables. -/
def renamed (script : Script) : Script :=
  { script with statements := script.statements.map (Statement.renamed f) }

/-- The names of the variables that a script declares or reads. -/
def variableNames (script : Script) : List String :=
  script.declaredNames ++ script.references.map Reference.name

/-! ## What is met in a renamed script -/

mutual

theorem Expression.references_renamed : ∀ value : Expression,
    (value.renamed f).references = value.references.map (Reference.renamed f)
  | .query _ => rfl
  | .call _ arguments => argumentReferences_renamed arguments
  | .reference _ => rfl
  | .literal _ => rfl

theorem argumentReferences_renamed : ∀ arguments : List Expression,
    argumentReferences (renamedArguments f arguments) =
      (argumentReferences arguments).map (Reference.renamed f)
  | [] => rfl
  | argument :: arguments => by
    rw [renamedArguments, argumentReferences, argumentReferences, List.map_append,
      argument.references_renamed, argumentReferences_renamed arguments]

end

theorem StatementKind.references_renamed (kind : StatementKind) :
    (kind.renamed f).references = kind.references.map (Reference.renamed f) := by
  cases kind with
  | declaration _ value => exact value.references_renamed f
  | output _ _ value => exact value.references_renamed f
  | returns value => exact value.references_renamed f
  | call _ arguments => exact argumentReferences_renamed f arguments

theorem StatementKind.declared?_renamed (kind : StatementKind) :
    (kind.renamed f).declared? = kind.declared?.map f := by
  cases kind <;> rfl

theorem references_renamed (script : Script) :
    (script.renamed f).references = script.references.map (Reference.renamed f) := by
  rw [references, renamed, List.flatMap_map, references, List.map_flatMap]
  exact List.flatMap_congr fun statement _ => statement.kind.references_renamed f

theorem declaredNames_renamed (script : Script) :
    (script.renamed f).declaredNames = script.declaredNames.map f := by
  rw [declaredNames, renamed, List.filterMap_map, declaredNames, List.map_filterMap]
  exact List.filterMap_congr fun statement _ => statement.kind.declared?_renamed f

end ScriptForge.Script

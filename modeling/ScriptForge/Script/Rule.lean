/-!
# The rules of the script grammar

The named rules of the grammar, in the order in which the grammar states them, and the words in
which an error message mentions each of them. Several rules share one description, because to a
reader of the message they are the same thing.
-/

namespace ScriptForge.Script

/-- The named rules of the grammar. -/
inductive Rule
  | endOfScript
  | script
  | service
  | serviceName
  | statement
  | terminator
  | declaration
  | returnStatement
  | outputStatement
  | callStatement
  | outputTarget
  | expression
  | gqlBlock
  | gqlOperation
  | gqlBody
  | call
  | callee
  | pluginName
  | extension
  | functionName
  | argument
  | reference
  | field
  | literal
  | string
  | number
  | boolean
  | identifier
  | declaredName
  | serviceWord
  | newWord
  | returnWord
  | outputWord
  | gqlWord
  deriving DecidableEq, Repr

namespace Rule

/-- All rules, in the order of the grammar. -/
def all : List Rule :=
  [endOfScript, script, service, serviceName, statement, terminator, declaration, returnStatement,
    outputStatement, callStatement, outputTarget, expression, gqlBlock, gqlOperation, gqlBody, call,
    callee, pluginName, extension, functionName, argument, reference, field, literal, string,
    number, boolean, identifier, declaredName, serviceWord, newWord, returnWord, outputWord,
    gqlWord]

theorem mem_all (rule : Rule) : rule ∈ all := by
  cases rule <;> decide

/-- What an error message calls a rule. -/
def describe : Rule → String
  | endOfScript => "end of script"
  | script => "script"
  | service | serviceWord => "`service <name> \x7b`"
  | serviceName => "service name"
  | statement => "statement"
  | terminator => "`;`"
  | declaration | newWord => "`new <name> = <expression>`"
  | returnStatement | returnWord => "`return <expression>`"
  | outputStatement | outputWord | outputTarget => "`output <service>.<field> = <expression>`"
  | callStatement | call | callee => "`<plugin>.<extension>/<function>(<args>)`"
  | expression | argument => "expression"
  | gqlBlock | gqlWord => "`gql query \x7b ... \x7d`"
  | gqlOperation => "`query` or `mutation`"
  | gqlBody => "`\x7b ... \x7d` query body"
  | pluginName => "plugin_name"
  | extension => "extension"
  | functionName => "function_name"
  | identifier | reference => "identifier"
  | field => "field"
  | literal | string | number | boolean => "literal"
  | declaredName => "variable name"

end Rule

end ScriptForge.Script

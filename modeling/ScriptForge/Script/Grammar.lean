import ScriptForge.Script.Phrase

/-!
# The grammar of service scripts

A script is one service. For instance:

```text
service order-rpc {
    new order12345678 = gql query { getOrder };
    new result12345678 = myorder.exe/processOrder(order12345678);
    output order-rpc.result = result12345678;
    return result12345678;
}
```

The semicolon behind a statement may be missing, and the word `output` before a mapping too; both
are left for later checks to judge. Gaps may stand between the parts of a phrase, but not inside
the target of a mapping, the name of a called function or a reference.
-/

namespace ScriptForge.Script.Grammar

open Phrase Text

/-! ## Calls and values -/

/-- The function of a plugin: `plugin.extension/function`. -/
def callee : Phrase :=
  rule .callee (joined [token .pluginName Token.dashedName, symbol ['.'],
    token .extension Token.plainName, symbol ['/'], token .functionName Token.plainName])

/-- A string, a number or a truth value. -/
def literal : Phrase :=
  rule .literal (firstOf [token .string Token.string, token .number Token.number,
    token .boolean Token.boolean])

/-- A point and a field name. -/
def selection : Phrase :=
  joined [symbol ['.'], token .field Token.plainName]

/-- Selections as often as they follow one another, `limit` times at most. -/
def selections : (limit : Nat) → Phrase
  | 0 => nothing
  | limit + 1 => optional (selection.andThen (selections limit))

/-- A variable with a path of fields. -/
def reference : Phrase :=
  rule .reference (joined [token .identifier Token.identifier,
    fun cursor => selections cursor.rest.length cursor])

/-- An argument of a call, given what counts as a call. -/
def argument (call : Phrase) : Phrase :=
  rule .argument (firstOf [call, literal, reference])

/-- The arguments of a call: none, or some between commas. -/
def arguments (call : Phrase) : Phrase :=
  optional (spaced [argument call, repeated (spaced [symbol [','], argument call])])

/-- A call with calls nested up to a depth. -/
def callTo : (depth : Nat) → Phrase
  | 0 => rule .call fun _ => ⟨.none, none⟩
  | depth + 1 =>
    rule .call (spaced [callee, symbol ['('], arguments (callTo depth), symbol [')']])

/-- A call: `plugin.extension/function(arguments)`. -/
def call : Phrase :=
  nested callTo

/-- An embedded block: `gql query { ... }` or `gql mutation { ... }`. -/
def gqlBlock : Phrase :=
  rule .gqlBlock (spaced [token .gqlWord (Token.word "gql".toList isIdentifierChar),
    token .gqlOperation Token.operation, token .gqlBody Token.body])

/-- A value. -/
def expression : Phrase :=
  rule .expression (firstOf [gqlBlock, call, literal, reference])

/-! ## Statements -/

/-- A declaration: `new name = value`. -/
def declaration : Phrase :=
  rule .declaration (spaced [token .newWord (Token.word "new".toList isIdentifierChar),
    token .declaredName Token.declaredName, symbol ['='], expression])

/-- A return: `return value`. -/
def returnStatement : Phrase :=
  rule .returnStatement (spaced [token .returnWord (Token.word "return".toList isDashedChar),
    expression])

/-- The target of a mapping: `service.field`. -/
def outputTarget : Phrase :=
  rule .outputTarget (joined [token .serviceName Token.dashedName, symbol ['.'],
    token .field Token.plainName])

/-- A mapping: `output service.field = value`, the first word optional. -/
def outputStatement : Phrase :=
  rule .outputStatement (spaced [
    optional (token .outputWord (Token.word "output".toList isDashedChar)),
    outputTarget, symbol ['='], expression])

/-- A call on its own. -/
def callStatement : Phrase :=
  rule .callStatement call

/-- A statement with its semicolon, which may be missing. -/
def statement : Phrase :=
  rule .statement (spaced [
    firstOf [declaration, returnStatement, outputStatement, callStatement],
    optional (token .terminator (after? [';'] · |>.map fun rest => ([';'], rest)))])

/-! ## Scripts -/

/-- A service: `service name { statements }`. -/
def service : Phrase :=
  rule .service (spaced [token .serviceWord (Token.word "service".toList isDashedChar),
    token .serviceName Token.dashedName, symbol ['\x7b'], repeated statement, symbol ['\x7d']])

/-- The end of the text. -/
def endOfScript : Phrase :=
  token .endOfScript fun cs => if cs.isEmpty then some ([], []) else none

/-- A service and nothing else. -/
def script : Phrase :=
  rule .script (gap.andThen (spaced [service, endOfScript]))

end ScriptForge.Script.Grammar

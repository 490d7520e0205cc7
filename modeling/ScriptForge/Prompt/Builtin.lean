/-!
# Built-in prompts

The prompt files that come with the library, as texts by name. Every line ends with a line feed.
-/

namespace ScriptForge.Prompt.Builtin

/-- Lines as one text. -/
def unlines (lines : List String) : String :=
  String.join (lines.map (· ++ "\n"))

/-- Asks for the code blocks of the source. -/
def identifyText : String := unlines [
  "You analyze microservice source code. Identify every code block that",
  "performs a distinct unit of work: data access, remote calls, business",
  "logic, input parsing and response shaping.",
  "",
  "For each block output its name, its inputs and outputs, and whether it",
  "reads or writes data through the GraphQL gateway. Keep the original",
  "order. Output plain text, one block per section."]

/-- Asks for the code blocks as functions. -/
def encapsulateText : String := unlines [
  "You receive a list of identified code blocks. Wrap every block that is",
  "not a pure GraphQL query or mutation into a standalone function.",
  "",
  "Each function takes explicit parameters, returns a single value and has",
  "no hidden dependencies on globals. Name functions in lowerCamelCase and",
  "group them by the plugin they belong to. Output the functions only."]

/-- Asks for the functions as a plugin. -/
def packageText : String := unlines [
  "You package encapsulated functions into a deployable plugin.",
  "",
  "Produce the plugin source with an exported entry point per function, a",
  "manifest naming the plugin and its extension, and nothing else. The",
  "plugin must be callable as `<plugin>.<extension>/<function>(<args>)`."]

/-- Asks for the statements of a script. -/
def generateText : String := unlines [
  "You write service scripts. A service script looks like this:",
  "",
  "service order-rpc \x7b",
  "    new order12345678 = gql query \x7b getOrder \x7d;",
  "    new result12345678 = myorder.exe/processOrder(order12345678);",
  "    output order-rpc.result = result12345678;",
  "    return result12345678;",
  "\x7d",
  "",
  "Rules:",
  "1. Declare every variable with `new <name> = <expression>;`.",
  "2. Variable names are a name followed by exactly eight digits.",
  "3. Every statement ends with `;`.",
  "4. Data access goes through `gql query \x7b ... \x7d` or `gql mutation \x7b ... \x7d`.",
  "5. Plugin calls use `<plugin>.<extension>/<function>(<args>)`.",
  "6. Output mappings use `<service>.<field> = <expression>;`.",
  "7. End with `return <expression>;`.",
  "",
  "Output only the script statements, without explanations."]

/-- Asks for one script made of the statements. -/
def combineText : String := unlines [
  "You assemble generated service script statements into one complete",
  "script for the named service.",
  "",
  "Wrap the statements in `service <name> \x7b ... \x7d` using the current service",
  "name, keep their order, remove duplicates and make sure every output",
  "mapping targets that service. Output only the finished script."]

/-- Asks whether a script does what the source does. -/
def reviewText : String := unlines [
  "You check that a service script is functionally equivalent to the",
  "original source code: same inputs, same data access, same transformations",
  "and the same response structure.",
  "",
  "Start your answer with `pass` if the script is equivalent. Otherwise",
  "start with `fail` and list every difference you found."]

/-- Examples of generated statements. -/
def generateExamples : String := unlines [
  "[",
  "  \x7b",
  "    \"description\": \"Single query with a plugin call\",",
  "    \"conversations\": [",
  "      \x7b",
  "        \"role\": \"user\",",
  "        \"content\": \"function getUserOrders(userId) \x7b\\n  const orders = " ++
    "db.query('orders', \x7b userId \x7d);\\n  return summarize(orders);\\n\x7d\"",
  "      \x7d,",
  "      \x7b",
  "        \"role\": \"assistant\",",
  "        \"content\": \"new orders20240101 = gql query \x7b orders(userId: $userId) \x7b id " ++
    "total \x7d \x7d;\\nnew summary20240102 = orders.exe/summarize(orders20240101);\\noutput " ++
    "user-orders.summary = summary20240102;\\nreturn summary20240102;\"",
  "      \x7d",
  "    ]",
  "  \x7d",
  "]"]

/-- Examples of reviews. -/
def reviewExamples : String := unlines [
  "[",
  "  \x7b",
  "    \"description\": \"Equivalent script\",",
  "    \"conversations\": [",
  "      \x7b \"role\": \"user\", \"content\": \"service order-rpc \x7b\\n    new order12345678 " ++
    "= gql query \x7b getOrder \x7d;\\n    return order12345678;\\n\x7d\\n\\nOriginal " ++
    "source:\\nfunction getOrder() \x7b return db.orders.get(); \x7d\" \x7d,",
  "      \x7b \"role\": \"assistant\", \"content\": \"pass\" \x7d",
  "    ]",
  "  \x7d,",
  "  \x7b",
  "    \"description\": \"Missing output mapping\",",
  "    \"conversations\": [",
  "      \x7b \"role\": \"user\", \"content\": \"service order-rpc \x7b\\n    new order12345678 " ++
    "= gql query \x7b getOrder \x7d;\\n    return order12345678;\\n\x7d\\n\\nOriginal " ++
    "source:\\nfunction getOrder(res) \x7b res.result = db.orders.get(); return res.result; " ++
    "\x7d\" \x7d,",
  "      \x7b \"role\": \"assistant\", \"content\": \"fail: the original writes result on the " ++
    "response but the script has no output mapping for order-rpc.result\" \x7d",
  "    ]",
  "  \x7d",
  "]"]

/-- The text of a file. -/
def file? : String → Option String
  | "identify.txt" => some identifyText
  | "encapsulate.txt" => some encapsulateText
  | "package.txt" => some packageText
  | "generate.txt" => some generateText
  | "combine.txt" => some combineText
  | "review.txt" => some reviewText
  | "generate-examples.json" => some generateExamples
  | "review-examples.json" => some reviewExamples
  | _ => none

end ScriptForge.Prompt.Builtin

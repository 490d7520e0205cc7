import ScriptForge.Prompt.Catalog

/-!
# The built-in catalog

The catalog that is used unless another one is given. Every template starts with the text of the
stage before; the hints follow if there are any.
-/

namespace ScriptForge.Prompt.DefaultCatalog

open Builtin

/-- The text of the stage before. -/
def mainLines : List String := ["\x7b\x7bmain\x7d\x7d"]

/-- The hints, if there are any. -/
def hintLines : List String := [
  "\x7b\x7b#if aux\x7d\x7d",
  "",
  "Auxiliary info:",
  "\x7b\x7baux\x7d\x7d",
  "\x7b\x7b/if\x7d\x7d"]

/-- Why the last candidate was rejected, if it was. -/
def feedbackLines : List String := [
  "\x7b\x7b#if feedback\x7d\x7d",
  "",
  "Regeneration feedback:",
  "\x7b\x7bfeedback\x7d\x7d",
  "\x7b\x7b/if\x7d\x7d"]

/-- The name of the service. -/
def serviceLines : List String := [
  "",
  "Current service name:",
  "\x7b\x7bservice_name\x7d\x7d"]

/-- The source code. -/
def sourceLines : List String := [
  "",
  "Original source:",
  "\x7b\x7bsource\x7d\x7d"]

/-- The model that writes. -/
def writer : String := "claude-sonnet-4-5-20250929"

/-- The model that reviews. -/
def reviewer : String := "gemini-2.5-pro"

/-- The built-in catalog. -/
def catalog : Catalog where
  version := "1"
  source := .builtin
  specs := {
    identify := ⟨"Code block identifier", writer, "identify.txt", none,
      unlines (mainLines ++ hintLines), false⟩
    encapsulate := ⟨"Function encapsulator", writer, "encapsulate.txt", none,
      unlines (mainLines ++ hintLines), false⟩
    package := ⟨"Plugin packer", writer, "package.txt", none,
      unlines (mainLines ++ hintLines), false⟩
    generate := ⟨"Script generator", writer, "generate.txt", some "generate-examples.json",
      unlines (mainLines ++ hintLines ++ feedbackLines), true⟩
    combine := ⟨"Script combiner", writer, "combine.txt", none,
      unlines (mainLines ++ hintLines ++ serviceLines), false⟩
    review := ⟨"Functional reviewer", reviewer, "review.txt", some "review-examples.json",
      unlines (mainLines ++ sourceLines ++ hintLines), false⟩ }

end ScriptForge.Prompt.DefaultCatalog

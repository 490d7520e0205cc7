import ScriptForge.Json.Fields
import ScriptForge.Text.Blank
import ScriptForge.Text.Letter
import ScriptForge.Text.Search

/-!
# Reading a review

A classifier turns the free text of a review into a verdict. `byKeyword` looks at how the text
starts and, failing that, lets a short text pass that mentions no problem; `byTag` reads the last
line of the form `VERDICT: ...`.
-/

namespace ScriptForge.Pipeline

open Json Text

/-- Whether a review accepts the candidate. -/
inductive ReviewVerdict
  | pass
  | fail
  deriving DecidableEq, Repr

namespace ReviewVerdict

def passed : ReviewVerdict → Bool
  | pass => true
  | fail => false

def name : ReviewVerdict → String
  | pass => "pass"
  | fail => "fail"

def ofName? : String → Option ReviewVerdict
  | "pass" => some pass
  | "fail" => some fail
  | _ => none

def toJson (verdict : ReviewVerdict) : Json :=
  .str verdict.name

def ofJson? : Json → Option ReviewVerdict :=
  choice? ofName?

end ReviewVerdict

/-- Turns the text of a review into a verdict. -/
abbrev Classifier := String → ReviewVerdict

namespace Classifier

/-! ## By keyword -/

/-- Words that a passing review starts with. -/
def passWords : List (List Char) :=
  ["通过".toList, "pass".toList, "passed".toList, "success".toList, "successful".toList,
    "成功".toList]

/-- Words that a failing review starts with. -/
def failWords : List (List Char) :=
  ["不通过".toList, "fail".toList, "failed".toList, "error".toList, "错误".toList, "失败".toList]

/-- Words that mention a problem. -/
def problemWords : List (List Char) :=
  ["错误".toList, "问题".toList, "error".toList, "issue".toList]

/-- A text with fewer characters is short. -/
def shortLength : Nat := 100

/-- Whether a text starts with one of some words. -/
def startsWithAny (words : List (List Char)) (text : List Char) : Bool :=
  words.any (·.isPrefixOf text)

/-- The verdict by the first words of the text and, for a short text, by the absence of problems. -/
def byKeyword : Classifier := fun review =>
  let text := lower (trim review.toList)
  if text.isEmpty then .fail
  else if startsWithAny passWords text then .pass
  else if startsWithAny failWords text then .fail
  else if text.length < shortLength && !problemWords.any (containsWord · text) then .pass
  else .fail

/-! ## By tag -/

/-- The value of a line `VERDICT: value`. -/
def taggedValue? (line : List Char) : Option (List Char) :=
  match splitAtFirst? ':' (trim line) with
  | some (tag, value) =>
    if sameIgnoringCase (trim tag) "verdict".toList then some (trim value) else none
  | none => none

/-- The verdict of the last tagged line; a text without one fails. -/
def byTag : Classifier := fun review =>
  match ((lines review.toList).filterMap taggedValue?).getLast? with
  | some value => if sameIgnoringCase value "pass".toList then .pass else .fail
  | none => .fail

end Classifier

end ScriptForge.Pipeline

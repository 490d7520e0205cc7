import ScriptForge.Text.Blank
import ScriptForge.Text.Letter
import ScriptForge.Text.Search

/-!
# Service names in hints

Free hints may name the service. A name behind a label and a colon is looked for first, the more
telling labels before the plain one; without any, the first line that is nothing but a name counts.
A name starts with a letter and goes on with letters, digits and hyphens, so it ends before any
other character.
-/

namespace ScriptForge.Prompt

/-- The name of a service that the hints do not name. -/
def unknownService : String := "unknown-service"

/-- Words with blanks between them, in small letters, and whether the letter case of a text matters
when they and the name behind them are looked for. -/
structure Label where
  words : List (List Char)
  caseMatters : Bool

/-- The small letter that a character is taken for. Besides the ASCII capitals the long s and the
Kelvin sign have one. -/
def smallLetter (c : Char) : Char :=
  if c = '\u017f' then 's' else if c = '\u212a' then 'k' else c.toLower

namespace Label

/-- A character as the label sees it. -/
def seen (label : Label) (c : Char) : Char :=
  if label.caseMatters then c else smallLetter c

/-- Whether a character may start a name. -/
def isNameStart (label : Label) (c : Char) : Bool :=
  (label.seen c).isAlpha

/-- Whether a character may continue a name. -/
def isNameChar (label : Label) (c : Char) : Bool :=
  Text.isHyphenatedChar (label.seen c)

/-- What follows a word. -/
def afterWord? (label : Label) : (word : List Char) → List Char → Option (List Char)
  | [], cs => some cs
  | _ :: _, [] => none
  | w :: word, c :: cs => if label.seen c = w then label.afterWord? word cs else none

/-- What follows words with blanks between them. -/
def afterWords? (label : Label) : (words : List (List Char)) → List Char → Option (List Char)
  | [], cs => some cs
  | [word], cs => label.afterWord? word cs
  | word :: words, cs => do
    let rest ← label.afterWord? word cs
    if rest.takeWhile Text.isBlank = [] then none
    else label.afterWords? words (rest.dropWhile Text.isBlank)

/-- The name behind a colon with blanks around it. -/
def nameAfterColon? (label : Label) (cs : List Char) : Option (List Char) :=
  match Text.trimStart cs with
  | [] => none
  | colon :: rest =>
    if colon = ':' ∨ colon = '：' then
      match Text.trimStart rest with
      | [] => none
      | c :: cs => if label.isNameStart c then some (c :: cs.takeWhile label.isNameChar) else none
    else none

/-- The name that follows the label at the start of a text. -/
def nameHere? (label : Label) (cs : List Char) : Option (List Char) :=
  (label.afterWords? label.words cs).bind label.nameAfterColon?

end Label

/-- The name behind the first of several labels, wherever it stands. -/
def labelledName? (labels : List Label) : List Char → Option (List Char)
  | [] => none
  | c :: cs =>
    (labels.findSome? fun label => label.nameHere? (c :: cs)).orElse fun _ =>
      labelledName? labels cs

/-- The labels, those that are looked for together in one list. -/
def labelGroups : List (List Label) := [
  [⟨["服务名".toList], false⟩, ⟨["service".toList, "name".toList], false⟩,
    ⟨["current".toList, "service".toList], false⟩],
  [⟨["service".toList], false⟩],
  [⟨["当前服务".toList], true⟩]]

/-- Whether a text is nothing but a name. -/
def isBareName : List Char → Bool
  | [] => false
  | c :: cs => c.isAlpha && cs.all Text.isHyphenatedChar

/-- The name of the service that hints are about. -/
def serviceName (hints : String) : String :=
  let labelled := labelGroups.findSome? fun labels => labelledName? labels hints.toList
  let named := labelled.orElse fun _ =>
    ((Text.lines hints.toList).map Text.trim).find? isBareName
  match named with
  | some name => String.ofList name
  | none => unknownService

end ScriptForge.Prompt

import ScriptForge.Template.Tag
import ScriptForge.Text.Blank

/-!
# From text to tokens

A template is a row of texts and tags. A backslash in front of a tag makes it text. A tag that
opens, divides or closes a block, and a comment, takes its whole line away if it stands alone on it.
-/

namespace ScriptForge.Template

/-- Parts of the text of a template. -/
inductive Token
  | text (text : List Char)
  | tag (tag : Tag)
  deriving Repr

/-- Whether a tag starts here. -/
def startsTag : List Char → Bool
  | '\x7b' :: '\x7b' :: _ => true
  | _ => false

/-- Puts characters in front of what was read. -/
def pushText (text : List Char) : List Char × List Char → List Char × List Char
  | (more, rest) => (text ++ more, rest)

/-- The text up to the next tag. One backslash in front of a tag is dropped and makes it text; of
several in front of a tag, one is dropped. -/
def textRun : List Char → List Char × List Char
  | [] => ([], [])
  | '\\' :: '\x7b' :: '\x7b' :: '\x7b' :: '\x7b' :: cs =>
    pushText ['\x7b', '\x7b', '\x7b', '\x7b'] (textRun cs)
  | '\\' :: '\x7b' :: '\x7b' :: cs => pushText ['\x7b', '\x7b'] (textRun cs)
  | '\\' :: cs =>
    let slashes := cs.takeWhile (· == '\\')
    if !slashes.isEmpty && startsTag (cs.drop slashes.length) then (slashes, cs.drop slashes.length)
    else pushText ['\\'] (textRun cs)
  | c :: cs => if startsTag (c :: cs) then ([], c :: cs) else pushText [c] (textRun cs)

/-- The tokens of a text; `limit` bounds their number. -/
def tokens? : (limit : Nat) → List Char → Option (List Token)
  | 0, _ => none
  | limit + 1, cs =>
    match cs with
    | [] => some []
    | '\x7b' :: '\x7b' :: rest => do
      let (tag, rest) ← tag? rest
      return .tag tag :: (← tokens? limit rest)
    | cs =>
      let (text, rest) := textRun cs
      (tokens? limit rest).map (.text text :: ·)

/-! ## Lines that tags take away -/

/-- Whether a character is a space or a tab. -/
def isLineSpace (c : Char) : Bool :=
  c == ' ' || c == '\t'

/-- Whether a character breaks lines. -/
def isBreak (c : Char) : Bool :=
  c == '\n' || c == '\r'

/-- Whether a text leaves the line empty in front of what follows it; `first` says whether the
template starts with the text. -/
def endsEmptyLine (first : Bool) (text : List Char) : Bool :=
  match text.reverse.dropWhile isLineSpace with
  | [] => first
  | c :: _ => isBreak c

/-- Whether a text leaves the line empty behind what comes before it. -/
def startsEmptyLine (text : List Char) : Bool :=
  match text.dropWhile isLineSpace with
  | [] => false
  | c :: _ => isBreak c

/-- Whether a tag takes its line away if it stands alone on it. -/
def TagKind.ownsLine : TagKind → Bool
  | .value _ | .call _ => false
  | _ => true

/-- Whether a tag stands alone on its line, given the text before it, if there is any, and the
tokens behind it. -/
def standsAlone (first : Bool) (before : Option (List Char)) (tag : Tag) (behind : List Token) :
    Bool :=
  let opens :=
    match before with
    | some text => endsEmptyLine first text
    | none => first
  let closes :=
    match behind with
    | .text text :: _ => startsEmptyLine text
    | _ => false
  tag.kind.ownsLine && opens && closes

/-- A text without its first line break. -/
def dropBreak : List Char → List Char
  | '\r' :: '\n' :: cs => cs
  | '\n' :: cs => cs
  | cs => cs

/-- What a tag leaves of the text before it. -/
def Tag.trimEndOf (tag : Tag) (alone : Bool) (text : List Char) : List Char :=
  if tag.trimBefore then Text.trimEnd text
  else if alone then (text.reverse.dropWhile isLineSpace).reverse
  else text

/-- How the text behind a tag is trimmed at its start. -/
structure Trimming where
  /-- All blanks go. -/
  blanks : Bool
  /-- The rest of the line goes. -/
  line : Bool

namespace Trimming

/-- A text trimmed at its start. -/
def apply (trimming : Trimming) (text : List Char) : List Char :=
  if trimming.blanks then Text.trimStart text
  else if trimming.line then dropBreak (text.dropWhile isLineSpace)
  else text

/-- What is left to be done behind a text. Blanks between two tags that all go leave a line open. -/
def behindText (trimming : Trimming) (text : List Char) : Trimming :=
  if trimming.blanks && text.all isTagSpace then trimming else { trimming with line := false }

/-- What is to be done behind a tag. A comment does not say whether blanks go, nor a value whether
the line does. -/
def behindTag (trimming : Trimming) (tag : Tag) (alone : Bool) : Trimming :=
  match tag.kind with
  | .comment => { trimming with line := alone }
  | .value _ | .call _ => { trimming with blanks := tag.trimAfter }
  | _ => ⟨tag.trimAfter, alone⟩

end Trimming

/-- The texts trimmed by the tags around them. `first` says whether nothing of the template comes
before, `trimming` how the text in front is trimmed at its start. -/
def settle (first : Bool) (trimming : Trimming) : List Token → List Token
  | [] => []
  | [.text text] => [.text (trimming.apply text)]
  | .text text :: .tag tag :: rest =>
    let alone := standsAlone first (some text) tag rest
    .text (tag.trimEndOf alone (trimming.apply text)) :: .tag tag ::
      settle false ((trimming.behindText text).behindTag tag alone) rest
  | .text text :: rest =>
    .text (trimming.apply text) :: settle false (trimming.behindText text) rest
  | .tag tag :: rest =>
    .tag tag :: settle false (trimming.behindTag tag (standsAlone first none tag rest)) rest

end ScriptForge.Template

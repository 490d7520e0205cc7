import ScriptForge.Json.Reader
import ScriptForge.Yaml.Basic

/-!
# YAML scalars

Scalars are written plain, between quotes or as a block of lines. A line break inside a plain or a
quoted scalar counts as a space, and blank lines after it as line breaks; blanks around line breaks
do not count. A block keeps its line breaks after `|` and folds them after `>`.

Scanners work on a cursor, the rest of a text with the column where it starts.
-/

namespace ScriptForge.Yaml

/-- The rest of a text and the column where it starts. -/
structure Cursor where
  column : Nat
  rest : List Char
  deriving Repr

/-- Whether a character is a space or a tab. -/
def isGap (c : Char) : Bool :=
  c == ' ' || c == '\t'

/-- Whether a line or a word ends here. -/
def endsWord : List Char → Bool
  | [] => true
  | c :: _ => isGap c || c == '\n'

/-- Whether a line starts with a marker of documents. -/
def startsMarker : List Char → Bool
  | '-' :: '-' :: '-' :: cs => endsWord cs
  | '.' :: '.' :: '.' :: cs => endsWord cs
  | _ => false

namespace Cursor

/-- Whether nothing of the document is left. -/
def atEnd (cursor : Cursor) : Bool :=
  cursor.rest.isEmpty || (cursor.column == 0 && startsMarker cursor.rest)

/-- The cursor behind some characters of a line. -/
def skip (cursor : Cursor) (n : Nat) : Cursor :=
  ⟨cursor.column + n, cursor.rest.drop n⟩

/-- The cursor behind the spaces and tabs of a line. -/
def skipGap (cursor : Cursor) : Cursor :=
  cursor.skip (cursor.rest.takeWhile isGap).length

/-- The cursor behind a scanned piece of text. -/
def behind (taken rest : List Char) (cursor : Cursor) : Cursor :=
  ⟨taken.foldl (fun column c => if c = '\n' then 0 else column + 1) cursor.column, rest⟩

end Cursor

/-- The next character that is no space, line break or part of a comment. Tabs are passed over where
`tabs` allows it, and in every line of flowing text. -/
def contentFrom (flow : Bool) : (tabs comment : Bool) → (column : Nat) → List Char → Cursor
  | _, _, column, [] => ⟨column, []⟩
  | tabs, comment, column, c :: cs =>
    if c = '\n' then contentFrom flow flow false 0 cs
    else if comment then contentFrom flow tabs true (column + 1) cs
    else if c = '#' then contentFrom flow tabs true (column + 1) cs
    else if c = ' ' || (c = '\t' && tabs) then contentFrom flow tabs false (column + 1) cs
    else ⟨column, c :: cs⟩

/-- The next character of content from the start or the middle of a line. -/
def Cursor.content (cursor : Cursor) (flow : Bool) : Cursor :=
  contentFrom flow flow false cursor.column cursor.rest

/-- The next character of content in a later line, if nothing else stands in this one. -/
def Cursor.nextLine? (cursor : Cursor) : Option Cursor :=
  match cursor.skipGap.rest with
  | [] => some cursor.skipGap
  | c :: cs =>
    if c = '\n' || c = '#' then some (contentFrom false true false cursor.skipGap.column (c :: cs))
    else none

/-- Whether a character is a sign of flowing text. -/
def isFlowSign (c : Char) : Bool :=
  c == ',' || c == '[' || c == ']' || c == '\x7b' || c == '\x7d'

/-! ## Anchors and tags -/

/-- Whether a name behind `&` or `*` ends here. -/
def endsName : List Char → Bool
  | [] => true
  | c :: cs => endsWord (c :: cs) || ['?', ':', ',', ']', '\x7d', '%', '@', '\x60'].contains c

/-- The name behind a sign, and the cursor behind it. -/
def name? (cursor : Cursor) : Option (List Char × Cursor) :=
  let name := (cursor.rest.drop 1).takeWhile fun c => c.isAlphanum || c == '_' || c == '-'
  let next := cursor.skip (name.length + 1)
  if name.isEmpty || !endsName next.rest then none else some (name, next)

/-- The cursor behind a tag, if there is one. What a value is follows from the place that asks for
it, so a tag is passed over. -/
def pastTag (flow : Bool) (cursor : Cursor) : Cursor :=
  match cursor.rest with
  | '!' :: cs =>
    let tag := cs.takeWhile fun c => !(isGap c || c == '\n' || (flow && isFlowSign c))
    (cursor.skip (tag.length + 1)).skipGap
  | _ => cursor

/-- The anchor in front of a value, and the cursor at the value. A tag may stand on either side. -/
def anchor? (flow : Bool) (cursor : Cursor) : Option (Option (List Char) × Cursor) :=
  let start := pastTag flow cursor
  match start.rest with
  | '&' :: _ => do
    let (name, next) ← name? start
    let behind := next.skipGap
    return (some name, if start.column == cursor.column then pastTag flow behind else behind)
  | _ => some (none, start)

/-! ## Plain scalars -/

/-- Whether a plain scalar can start here. -/
def startsPlain (flow : Bool) : List Char → Bool
  | [] => false
  | c :: cs =>
    if c == '-' || (!flow && (c == '?' || c == ':')) then !endsWord cs
    else
      !(isGap c || c == '\n' || isFlowSign c ||
        ['#', '&', '*', '!', '|', '>', '\x27', '"', '%', '@', '\x60', '?', ':'].contains c)

/-- Whether a colon in front of this ends a plain scalar. -/
def endsKey (flow : Bool) : List Char → Bool
  | [] => true
  | c :: cs => endsWord (c :: cs) || (flow && (isFlowSign c || c == '?'))

/-- The part of a line that a plain scalar can take, and what follows it. -/
def plainPart (flow : Bool) : (blank : Bool) → List Char → List Char × List Char
  | _, [] => ([], [])
  | blank, c :: cs =>
    if c = '\n' || (c = '#' && blank) || (c = ':' && endsKey flow cs) || (flow && isFlowSign c) then
      ([], c :: cs)
    else
      let (part, rest) := plainPart flow (isGap c) cs
      (c :: part, rest)

/-- A text without spaces and tabs at its end. -/
def withoutGap (text : List Char) : List Char :=
  (text.reverse.dropWhile isGap).reverse

/-- One line of a plain scalar, and the cursor behind it. -/
def plainLine (flow : Bool) (cursor : Cursor) : List Char × Cursor :=
  let text := withoutGap (plainPart flow false cursor.rest).1
  (text, cursor.skip text.length)

/-- What a number of line breaks stands for. -/
def folded (breaks : Nat) : List Char :=
  if breaks ≤ 1 then [' '] else List.replicate (breaks - 1) '\n'

/-- A plain scalar that goes on over lines indented by at least `least`; `limit` bounds their
number. -/
def plainLines (flow : Bool) (least : Nat) : (limit : Nat) → Cursor → List Char × Cursor
  | 0, cursor => plainLine flow cursor
  | limit + 1, cursor =>
    let (text, behind) := plainLine flow cursor
    let space := behind.rest.takeWhile fun c => isGap c || c == '\n'
    let next := behind.behind space (behind.rest.drop space.length)
    let breaks := space.count '\n'
    if breaks = 0 || next.atEnd || next.rest.head? == some '#' || (!flow && next.column < least) ||
        (plainPart flow true next.rest).1.isEmpty then
      (text, behind)
    else
      let (more, last) := plainLines flow least limit next
      (text ++ folded breaks ++ more, last)

/-! ## Quoted scalars -/

/-- The character that a backslash and a letter stand for. -/
def escape? (c : Char) : Option Char :=
  match c with
  | '0' => some '\x00'
  | 'a' => some '\x07'
  | 'b' => some '\x08'
  | 't' | '\t' => some '\t'
  | 'n' => some '\n'
  | 'v' => some '\x0b'
  | 'f' => some '\x0c'
  | 'r' => some '\r'
  | 'e' => some '\x1b'
  | ' ' => some ' '
  | '"' => some '"'
  | '/' => some '/'
  | '\\' => some '\\'
  | 'N' => some '\u0085'
  | '_' => some '\u00a0'
  | 'L' => some '\u2028'
  | 'P' => some '\u2029'
  | _ => none

/-- How many hexadecimal digits follow a letter behind a backslash. -/
def hexLength (c : Char) : Nat :=
  match c with
  | 'x' => 2
  | 'u' => 4
  | 'U' => 8
  | _ => 0

/-- The character that hexadecimal digits stand for. -/
def hexChar? (digits : List Char) : Option Char := do
  let n ← digits.foldlM (fun n d => do return 16 * n + (← Text.hexValue? d)) 0
  if n.isValidChar then some (Char.ofNat n) else none

/-- The rest of a scalar between quotes, up to its closing quote; `limit` bounds its length. -/
def quotedTail? (double : Bool) : (limit : Nat) → List Char → Option (List Char × List Char)
  | 0, _ => none
  | _ + 1, [] => none
  | limit + 1, c :: cs =>
    let push (text : List Char) (rest : List Char) : Option (List Char × List Char) :=
      (quotedTail? double limit rest).map fun (more, last) => (text ++ more, last)
    if c = '"' && double then some ([], cs)
    else if c = '\x27' && !double then
      match cs with
      | '\x27' :: cs => push ['\x27'] cs
      | cs => some ([], cs)
    else if c = '\\' && double then
      match cs with
      | [] => none
      | '\n' :: cs => push [] (cs.dropWhile isGap)
      | e :: cs =>
        if 0 < hexLength e then
          if (cs.take (hexLength e)).length < hexLength e then none
          else do push [← hexChar? (cs.take (hexLength e))] (cs.drop (hexLength e))
        else do push [← escape? e] cs
    else if isGap c || c = '\n' then
      let space := (c :: cs).takeWhile fun c => isGap c || c == '\n'
      let rest := cs.drop (space.length - 1)
      if space.contains '\n' then push (folded (space.count '\n')) rest else push space rest
    else push [c] cs

/-- A scalar between quotes, and the cursor behind it. -/
def quoted? (cursor : Cursor) : Option (List Char × Cursor) := do
  let (text, rest) ←
    match cursor.rest with
    | '"' :: cs => quotedTail? true (cs.length + 1) cs
    | '\x27' :: cs => quotedTail? false (cs.length + 1) cs
    | _ => none
  let taken := cursor.rest.take (cursor.rest.length - rest.length)
  return (text, cursor.behind taken rest)

/-! ## Blocks of lines -/

/-- What becomes of the line breaks at the end of a block. -/
inductive Chomping
  /-- None stays. -/
  | strip
  /-- One stays. -/
  | clip
  /-- All stay. -/
  | keep
  deriving DecidableEq

/-- The indicators behind the sign of a block: how far it is indented, if this is said, and what
becomes of the line breaks at its end. -/
def indicators? : List Char → Option (Option Nat × Chomping × List Char)
  | '+' :: cs => some (size cs, .keep, dropSize cs)
  | '-' :: cs => some (size cs, .strip, dropSize cs)
  | cs =>
    match dropSize cs with
    | '+' :: rest => some (size cs, .keep, rest)
    | '-' :: rest => some (size cs, .strip, rest)
    | rest => some (size cs, .clip, rest)
where
  size : List Char → Option Nat
    | c :: _ => if '1' ≤ c ∧ c ≤ '9' then some (Decimal.digitValue c) else none
    | [] => none
  dropSize : List Char → List Char
    | c :: cs => if '1' ≤ c ∧ c ≤ '9' then cs else c :: cs
    | [] => []

/-- The lines of a text; after the last line break stands a last, possibly empty line. -/
def splitLines : List Char → List (List Char)
  | [] => [[]]
  | c :: cs =>
    match splitLines cs with
    | [] => [[c]]
    | line :: lines => if c = '\n' then [] :: line :: lines else (c :: line) :: lines

/-- How many spaces a line starts with. -/
def indentation (line : List Char) : Nat :=
  (line.takeWhile (· == ' ')).length

/-- Whether a line holds nothing but at most `indent` spaces. -/
def isBlankLine (indent : Nat) (line : List Char) : Bool :=
  line.all (· == ' ') && line.length ≤ indent

/-- The indentation of a block that does not state it: that of its first line of content, or of a
blank line before it that is longer. -/
def detected : List (List Char) → Nat
  | [] => 0
  | line :: lines =>
    if line.all (· == ' ') then max line.length (detected lines) else indentation line

/-- The lines of a block that is indented by `indent`, and the lines that follow it. -/
def blockLines (indent : Nat) : List (List Char) → List (List Char) × List (List Char)
  | [] => ([], [])
  | line :: lines =>
    if isBlankLine indent line || indent ≤ indentation line then
      let (block, rest) := blockLines indent lines
      (line.drop indent :: block, rest)
    else ([], line :: lines)

/-- Lines of a block put together, the blank ones before each line counted in `blank`; `loose` says
whether the line before starts with a space, so that no fold can stand behind it. -/
def joinLines (fold : Bool) : (blank : Nat) → (loose first : Bool) → List (List Char) → List Char
  | _, _, _, [] => []
  | blank, loose, first, line :: lines =>
    match line with
    | [] => joinLines fold (blank + 1) loose first lines
    | c :: _ =>
      let breaks :=
        if first then List.replicate blank '\n'
        else if fold && !loose && !isGap c then folded (blank + 1)
        else List.replicate (blank + 1) '\n'
      breaks ++ line ++ joinLines fold 0 (isGap c) false lines

/-- The text of a block. The lines that follow its last line of content count by the breaks that end
them; `ended` says whether the last line of all is ended by one. -/
def blockText (fold : Bool) (chomping : Chomping) (lines : List (List Char)) (ended : Bool) :
    List Char :=
  let trailing := (lines.reverse.takeWhile List.isEmpty).length
  let content := lines.take (lines.length - trailing)
  let breaks := trailing + (if content.isEmpty then 0 else 1) - (if ended then 0 else 1)
  let last :=
    match chomping with
    | .strip => 0
    | .clip => if content.isEmpty then 0 else min 1 breaks
    | .keep => breaks
  joinLines fold 0 false true content ++ List.replicate last '\n'

/-- A block of lines behind its sign, indented by at least `least`, and the cursor at the content
behind it. -/
def block? (least : Nat) (cursor : Cursor) : Option (List Char × Cursor) := do
  let (fold, cs) ←
    match cursor.rest with
    | '|' :: cs => some (false, cs)
    | '>' :: cs => some (true, cs)
    | _ => none
  let (size, chomping, rest) ← indicators? cs
  let lines ←
    match splitLines rest with
    | [] => none
    | header :: lines =>
      match header.dropWhile isGap with
      | [] => some lines
      | c :: _ => if c = '#' && (header.head?.map isGap).getD false then some lines else none
  let indent :=
    match size with
    | some n => least - 1 + n
    | none => max (detected lines) (max least 1)
  let (block, rest) := blockLines indent lines
  let ended := !rest.isEmpty
  let behind : Cursor := ⟨0, ['\n'].intercalate rest⟩
  return (blockText fold chomping block ended, behind.content false)

end ScriptForge.Yaml

import ScriptForge.Yaml.Scalar

/-!
# Reading YAML

`Yaml.read?` reads one document. Blocks are told apart by indentation: the entries of a mapping or a
sequence start in one column, and what belongs to an entry starts further right, except that a
sequence may stand right below the key of a mapping. Flowing text between brackets and braces may be
spread over lines freely. A text without a document reads as an empty mapping.

An anchor may stand in front of any value, and a name with a star for a value that has one. Keys
that are not scalars of one line are refused. Recursion is bounded by a limit that the length of the
text sets.
-/

namespace ScriptForge.Yaml

/-- The cursor at the next content, if the line ends here. -/
def closeLine (value : Yaml) (cursor : Cursor) : Option (Yaml × Cursor) :=
  cursor.nextLine?.map fun next => (value, next)

/-! ## Flowing text -/

/-- Whether a value in flowing text ends here. -/
def endsFlow : List Char → Bool
  | [] => true
  | c :: _ => c == ',' || c == ']' || c == '\x7d' || c == ':'

/-- A scalar or a name in flowing text, and the cursor behind it. A colon right behind a plain
scalar has to be followed by a blank. -/
def flowScalar? (cursor : Cursor) : Option (Yaml × Cursor) :=
  match cursor.rest with
  | '*' :: _ => (name? cursor).map fun (name, next) => (.sameAs name, next)
  | cs =>
    match quoted? cursor with
    | some (text, next) => some (.scalar text false, next)
    | none =>
      if startsPlain true cs then
        let (text, next) := plainLines true 0 cs.length cursor
        match next.skipGap.rest with
        | ':' :: rest => if endsWord rest then some (.scalar text true, next) else none
        | _ => some (.scalar text true, next)
      else none

mutual

/-- A value in flowing text, and the cursor behind it. -/
def flowValue? : (limit : Nat) → Cursor → Option (Yaml × Cursor)
  | 0, _ => none
  | limit + 1, cursor => do
    let (anchor, start) ← anchor? true cursor
    let start := start.content true
    let (value, next) ←
      match start.rest with
      | '[' :: _ => do
        let (items, next) ← flowItems? limit ((start.skip 1).content true)
        pure (.sequence items, next)
      | '\x7b' :: _ => do
        let (entries, next) ← flowEntries? limit ((start.skip 1).content true)
        pure (.mapping entries, next)
      | _ =>
        if start.column ≠ cursor.column && endsFlow start.rest then some (.nothing, start)
        else flowScalar? start
    return (value.withAnchor anchor, next)

/-- The items of a sequence up to its closing bracket, from content on. -/
def flowItems? : (limit : Nat) → Cursor → Option (List Yaml × Cursor)
  | 0, _ => none
  | limit + 1, cursor =>
    match cursor.rest with
    | ']' :: _ => some ([], cursor.skip 1)
    | _ => do
      let (key, next) ← flowValue? limit cursor
      let (item, next) ←
        match (next.content true).rest with
        | ':' :: _ => do
          let (value, last) ← flowPairValue? limit (next.content true)
          some (Yaml.mapping [(key, value)], last)
        | _ => some (key, next.content true)
      match next.rest with
      | ']' :: _ => return ([item], next.skip 1)
      | ',' :: _ => do
        let (items, last) ← flowItems? limit ((next.skip 1).content true)
        return (item :: items, last)
      | _ => none

/-- The value behind a colon, and the cursor at the content behind it. -/
def flowPairValue? : (limit : Nat) → Cursor → Option (Yaml × Cursor)
  | 0, _ => none
  | limit + 1, cursor =>
    let value := (cursor.skip 1).content true
    match value.rest with
    | ',' :: _ | ']' :: _ | '\x7d' :: _ => some (.nothing, value)
    | _ => (flowValue? limit value).map fun (value, next) => (value, next.content true)

/-- The entries of a mapping up to its closing brace, from content on. -/
def flowEntries? : (limit : Nat) → Cursor → Option (List (Yaml × Yaml) × Cursor)
  | 0, _ => none
  | limit + 1, cursor =>
    match cursor.rest with
    | '\x7d' :: _ => some ([], cursor.skip 1)
    | _ => do
      let (key, next) ← flowValue? limit cursor
      let (value, next) ←
        match (next.content true).rest with
        | ':' :: _ => flowPairValue? limit (next.content true)
        | _ => some (.nothing, next.content true)
      match next.rest with
      | '\x7d' :: _ => return ([(key, value)], next.skip 1)
      | ',' :: _ => do
        let (entries, last) ← flowEntries? limit ((next.skip 1).content true)
        return ((key, value) :: entries, last)
      | _ => none

end

/-! ## Blocks -/

/-- Whether an entry of a sequence starts here. -/
def startsEntry : List Char → Bool
  | '-' :: cs => endsWord cs
  | _ => false

/-- A key of one line with its colon, and the cursor behind the colon. -/
def key? (cursor : Cursor) : Option (Yaml × Cursor) := do
  let (anchor, cursor) ← anchor? false cursor
  let (key, next) ←
    match cursor.rest with
    | '*' :: _ => (name? cursor).map fun (name, next) => (Yaml.sameAs name, next)
    | _ =>
      match quoted? cursor with
      | some (text, next) =>
        if (cursor.rest.take (cursor.rest.length - next.rest.length)).contains '\n' then none
        else some (Yaml.scalar text false, next)
      | none =>
        if startsPlain false cursor.rest then
          let (text, next) := plainLine false cursor
          some (Yaml.scalar text true, next)
        else none
  match next.skipGap.rest with
  | ':' :: cs => if endsWord cs then return (key.withAnchor anchor, next.skipGap.skip 1) else none
  | _ => none

/-- A value that starts in the middle of a line, its further lines indented by at least `least`, and
the cursor at the content behind it. -/
def inline? (least : Nat) (cursor : Cursor) : Option (Yaml × Cursor) :=
  match cursor.rest with
  | '|' :: _ | '>' :: _ => (block? least cursor).map fun (text, next) => (.scalar text false, next)
  | '*' :: _ => do
    let (name, next) ← name? cursor
    closeLine (.sameAs name) next
  | '[' :: _ | '\x7b' :: _ => do
    let (value, next) ← flowValue? (2 * cursor.rest.length + 2) cursor
    closeLine value next
  | cs =>
    match quoted? cursor with
    | some (text, next) => closeLine (.scalar text false) next
    | none =>
      if startsPlain false cs then
        let (text, next) := plainLines false least cs.length cursor
        closeLine (.scalar text true) next
      else none

mutual

/-- The value whose content starts at the cursor if that is indented by at least `least`, and the
cursor at the content behind it. -/
def value? : (limit least : Nat) → Cursor → Option (Yaml × Cursor)
  | 0, _, _ => none
  | limit + 1, least, cursor =>
    if cursor.atEnd || cursor.column < least then some (.nothing, cursor)
    else if startsEntry cursor.rest then
      (items? limit cursor.column cursor).map fun (items, next) => (.sequence items, next)
    else if (key? cursor).isSome then
      (entries? limit cursor.column cursor).map fun (entries, next) => (.mapping entries, next)
    else do
      let (anchor, start) ← anchor? false cursor
      let (value, next) ←
        if start.column == cursor.column then inline? least cursor
        else
          match start.nextLine? with
          | some next => value? limit least next
          | none => inline? least start
      return (value.withAnchor anchor, next)

/-- The entries of a sequence in a column, from its dash on. -/
def items? : (limit column : Nat) → Cursor → Option (List Yaml × Cursor)
  | 0, _, _ => none
  | limit + 1, column, cursor => do
    let behind := cursor.skip 1
    let start :=
      match behind.nextLine? with
      | some next => next
      | none => behind.skip (behind.rest.takeWhile (· == ' ')).length
    let (item, next) ← value? limit (column + 1) start
    if !next.atEnd && next.column == column && startsEntry next.rest then
      let (items, last) ← items? limit column next
      return (item :: items, last)
    else return ([item], next)

/-- The entries of a mapping in a column, from its key on. -/
def entries? : (limit column : Nat) → Cursor → Option (List (Yaml × Yaml) × Cursor)
  | 0, _, _ => none
  | limit + 1, column, cursor => do
    let (key, colon) ← key? cursor
    let (anchor, behind) ← anchor? false colon.skipGap
    let (value, next) ←
      match behind.nextLine? with
      | some next =>
        if !next.atEnd && next.column == column && startsEntry next.rest then
          (items? limit column next).map fun (items, last) => (Yaml.sequence items, last)
        else value? limit (column + 1) next
      | none =>
        if startsEntry behind.skipGap.rest then none else inline? (column + 1) behind.skipGap
    let entry := (key, value.withAnchor anchor)
    if next.atEnd || next.column < column then return ([entry], next)
    else if next.column == column then
      let (entries, last) ← entries? limit column next
      return (entry :: entries, last)
    else none

end

/-! ## Documents -/

/-- The text with every kind of line break written as a line feed. -/
def unifyBreaks : List Char → List Char
  | [] => []
  | '\r' :: '\n' :: cs => '\n' :: unifyBreaks cs
  | c :: cs => (if c = '\r' || c = '\u0085' then '\n' else c) :: unifyBreaks cs

/-- Whether a character may stand in a document. -/
def isAllowed (c : Char) : Bool :=
  c == '\t' || c == '\n' || c == '\r' || (' ' ≤ c && c ≤ '~') || c == '\u0085' ||
    ('\u00a0' ≤ c && c ≤ '\ufffd' && c != '\ufeff') || 0x10000 ≤ c.toNat

/-- The cursor at the content of the document, behind its opening marker if there is one; and
whether there is one. -/
def opening (cursor : Cursor) : Option (Cursor × Bool) :=
  match cursor.rest with
  | '-' :: '-' :: '-' :: _ =>
    if cursor.atEnd then
      match (cursor.skip 3).nextLine? with
      | some next => some (next, true)
      | none => some ((cursor.skip 3).skipGap, true)
    else some (cursor, false)
  | '%' :: _ => none
  | _ => if cursor.atEnd then none else some (cursor, false)

/-- Whether nothing but a closing marker follows the document. -/
def isClosed (cursor : Cursor) : Bool :=
  match cursor.rest with
  | [] => true
  | '.' :: '.' :: '.' :: _ =>
    cursor.atEnd &&
      match (cursor.skip 3).nextLine? with
      | some next => next.rest.isEmpty
      | none => false
  | _ => false

/-- Reads the one document of a text. -/
def read? (text : String) : Option Yaml := do
  let cs := unifyBreaks (match text.toList with
    | '\ufeff' :: cs => cs
    | cs => cs)
  if !cs.all isAllowed then none
  let start := Cursor.content ⟨0, cs⟩ false
  if start.rest.isEmpty then return .mapping []
  let (content, marked) ← opening start
  let (value, next) ←
    if marked && content.column ≠ 0 && (key? content).isSome then none
    else value? (2 * cs.length + 4) 0 content
  if isClosed next then value.resolve? else none

end ScriptForge.Yaml

import ScriptForge.Script.Basic
import ScriptForge.Script.Rule
import ScriptForge.Script.Token

/-!
# Phrases

A phrase is tried at a cursor. It either matches, taking a piece of the text and leaving one node
for each named rule that matched in it, or it does not; in both cases it reports the rules that
were attempted in vain, of which only those furthest into the text are kept.

Rules are reported by three laws. Reports of phrases tried one after the other are merged, and the
one further into the text wins. A rule that fails replaces the reports from its own start by its
own name. The exception is a rule at whose start exactly one rule was reported: that report is the
more precise one and stays, as does any report from beyond its start.

`spaced` and `joined` match phrases in a row, with and without gaps between them, `firstOf` takes
the first phrase that matches, and `optional` and `repeated` cannot fail.
-/

namespace ScriptForge.Script

/-! ## Places -/

namespace Position

/-- Where a text starts. -/
def start : Position := ⟨1, 1⟩

/-- The place behind a character: a line feed starts a new line, anything else is one column. -/
def after (p : Position) (c : Char) : Position :=
  if c = '\n' then ⟨p.line + 1, 1⟩ else ⟨p.line, p.column + 1⟩

/-- The place behind a text. -/
def afterText (p : Position) (text : List Char) : Position :=
  text.foldl after p

/-- Whether one place comes before another. -/
def before (p q : Position) : Bool :=
  p.line < q.line || (p.line == q.line && p.column < q.column)

end Position

/-- A place in a text with what follows it. -/
structure Cursor where
  position : Position
  rest : List Char
  deriving DecidableEq, Repr

/-- The cursor behind a piece of text. -/
def Cursor.past (cursor : Cursor) (text rest : List Char) : Cursor :=
  ⟨cursor.position.afterText text, rest⟩

/-! ## Nodes -/

/-- A rule that matched, with where it matched, the text it took and the rules inside it. -/
inductive Node
  | mk (rule : Rule) (position : Position) (text : List Char) (children : List Node)
  deriving Repr

namespace Node

def rule : Node → Rule
  | mk rule _ _ _ => rule

def position : Node → Position
  | mk _ position _ _ => position

/-- The text a node covers. -/
def text : Node → List Char
  | mk _ _ text _ => text

/-- The nodes of the rules that matched inside. -/
def children : Node → List Node
  | mk _ _ _ children => children

/-- The first child that a rule left. -/
def child? (node : Node) (rule : Rule) : Option Node :=
  node.children.find? fun child => child.rule == rule

end Node

/-! ## Failed attempts -/

/-- The rules that failed furthest into the text. -/
structure Attempts where
  position : Position
  rules : List Rule
  deriving DecidableEq, Repr

namespace Attempts

/-- Nothing has failed yet. -/
def none : Attempts := ⟨.start, []⟩

/-- What is known after two reports: the one further on, or both together. -/
def merge (a b : Attempts) : Attempts :=
  if a.position.before b.position then b
  else if b.position.before a.position then a
  else ⟨a.position, a.rules ++ b.rules⟩

/-- The report of a rule that failed, given what was reported since it started. -/
def ofRule (rule : Rule) (start : Position) (inner : Attempts) : Attempts :=
  if start.before inner.position then inner
  else if inner.position = start ∧ inner.rules.length = 1 then inner
  else ⟨start, [rule]⟩

end Attempts

/-! ## Phrases -/

/-- What a phrase took: the nodes it left, its text and the cursor behind it. -/
structure Match where
  nodes : List Node
  text : List Char
  next : Cursor
  deriving Repr

/-- The answer of a phrase. -/
structure Reply where
  attempts : Attempts
  found : Option Match
  deriving Repr

/-- Something that can be looked for at a cursor. -/
abbrev Phrase := Cursor → Reply

namespace Phrase

/-- Takes nothing. -/
def nothing : Phrase := fun cursor =>
  ⟨.none, some ⟨[], [], cursor⟩⟩

/-- A piece of text that is no rule of its own. -/
def symbol (text : List Char) : Phrase := fun cursor =>
  match Text.after? text cursor.rest with
  | some rest => ⟨.none, some ⟨[], text, cursor.past text rest⟩⟩
  | none => ⟨.none, none⟩

/-- The gap between two tokens. -/
def gap : Phrase := fun cursor =>
  let (text, rest) := Token.gap cursor.rest
  ⟨.none, some ⟨[], text, cursor.past text rest⟩⟩

/-- A rule that takes one token. -/
def token (rule : Rule) (scan : Scanner) : Phrase := fun cursor =>
  match scan cursor.rest with
  | some (text, rest) =>
    ⟨.none, some ⟨[.mk rule cursor.position text []], text, cursor.past text rest⟩⟩
  | none => ⟨⟨cursor.position, [rule]⟩, none⟩

/-- A rule made of other phrases. -/
def rule (rule : Rule) (body : Phrase) : Phrase := fun cursor =>
  match body cursor with
  | ⟨attempts, some found⟩ =>
    ⟨attempts, some { found with
      nodes := [.mk rule cursor.position found.text found.nodes] }⟩
  | ⟨attempts, none⟩ => ⟨attempts.ofRule rule cursor.position, none⟩

/-- One phrase and then another. -/
def andThen (first second : Phrase) : Phrase := fun cursor =>
  match first cursor with
  | ⟨attempts, none⟩ => ⟨attempts, none⟩
  | ⟨attempts, some found⟩ =>
    match second found.next with
    | ⟨more, none⟩ => ⟨attempts.merge more, none⟩
    | ⟨more, some last⟩ =>
      ⟨attempts.merge more,
        some ⟨found.nodes ++ last.nodes, found.text ++ last.text, last.next⟩⟩

/-- One phrase or else another. -/
def orElse (first second : Phrase) : Phrase := fun cursor =>
  match first cursor with
  | ⟨attempts, some found⟩ => ⟨attempts, some found⟩
  | ⟨attempts, none⟩ =>
    let reply := second cursor
    ⟨attempts.merge reply.attempts, reply.found⟩

/-- Phrases in a row with nothing between them. -/
def joined : List Phrase → Phrase
  | [] => nothing
  | [phrase] => phrase
  | phrase :: phrases => phrase.andThen (joined phrases)

/-- Phrases in a row with gaps between them. -/
def spaced : List Phrase → Phrase
  | [] => nothing
  | [phrase] => phrase
  | phrase :: phrases => phrase.andThen (gap.andThen (spaced phrases))

/-- The first of several phrases that matches. -/
def firstOf : List Phrase → Phrase
  | [] => fun _ => ⟨.none, none⟩
  | [phrase] => phrase
  | phrase :: phrases => phrase.orElse (firstOf phrases)

/-- A phrase or nothing. -/
def optional (phrase : Phrase) : Phrase :=
  phrase.orElse nothing

/-- A phrase up to `limit` more times, each time behind a gap. -/
def more : (limit : Nat) → Phrase → Phrase
  | 0, _ => nothing
  | limit + 1, phrase => optional (gap.andThen (phrase.andThen (more limit phrase)))

/-- A phrase as often as it matches. Each time takes at least one character, so the length of the
text bounds the number of times. -/
def repeated (phrase : Phrase) : Phrase := fun cursor =>
  optional (phrase.andThen (more cursor.rest.length phrase)) cursor

/-- A phrase that may contain itself; each level takes at least one character, so the length of the
text bounds the depth. -/
def nested (phrase : Nat → Phrase) : Phrase := fun cursor =>
  phrase (cursor.rest.length + 1) cursor

end Phrase

end ScriptForge.Script

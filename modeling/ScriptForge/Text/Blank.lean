/-!
# Blank characters, words and lines

The characters that count as blank are those with the Unicode property White_Space. Everything
that trims a text, splits it into words or collapses its spacing goes through `isBlank`. The
functions on `List Char` carry the definitions; the ones on `String` at the end wrap them.
-/

namespace ScriptForge.Text

/-! ## Blanks -/

/-- The characters with the Unicode property White_Space. -/
def isBlank (c : Char) : Bool :=
  ('\t' ≤ c && c ≤ '\r') || c == ' ' || c == '\u0085' || c == '\u00a0' || c == '\u1680' ||
    ('\u2000' ≤ c && c ≤ '\u200a') || c == '\u2028' || c == '\u2029' || c == '\u202f' ||
    c == '\u205f' || c == '\u3000'

/-- The text without its leading blanks. -/
def trimStart (cs : List Char) : List Char :=
  cs.dropWhile isBlank

/-- The text without its trailing blanks. -/
def trimEnd (cs : List Char) : List Char :=
  (cs.reverse.dropWhile isBlank).reverse

/-- The text without the blanks at both ends. -/
def trim (cs : List Char) : List Char :=
  trimEnd (trimStart cs)

/-! ## Words -/

/-- Puts a character in front of the first piece. -/
def consFirst (c : Char) : List (List Char) → List (List Char)
  | [] => [[c]]
  | piece :: pieces => (c :: piece) :: pieces

/-- The maximal runs of characters that are not blank. -/
def words : List Char → List (List Char)
  | [] => []
  | c :: cs =>
    if isBlank c then words cs
    else
      match cs with
      | [] => [[c]]
      | d :: _ => if isBlank d then [c] :: words cs else consFirst c (words cs)

/-- The words of a text, separated by single spaces. -/
def collapse (cs : List Char) : List Char :=
  [' '].intercalate (words cs)

/-! ## Lines -/

/-- The lines of a text. A line ends at a line feed, which takes the carriage return before it
along; nothing after the last line feed is no line. -/
def lines : List Char → List (List Char)
  | [] => []
  | '\r' :: '\n' :: cs => [] :: lines cs
  | c :: cs => if c = '\n' then [] :: lines cs else consFirst c (lines cs)

/-! ## On strings -/

/-- The text without the blanks at both ends. -/
def trimmed (s : String) : String :=
  String.ofList (trim s.toList)

/-- The text without its trailing blanks. -/
def trimmedEnd (s : String) : String :=
  String.ofList (trimEnd s.toList)

/-- Whether the text holds nothing but blanks. -/
def allBlank (s : String) : Bool :=
  s.toList.all isBlank

end ScriptForge.Text

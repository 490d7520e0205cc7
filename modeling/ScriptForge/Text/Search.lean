/-!
# Searching in a text

Prefixes, substrings and the first occurrence of a character or of a short text.
-/

namespace ScriptForge.Text

/-- What follows `word` in a text that starts with it. -/
def after? : (word : List Char) → List Char → Option (List Char)
  | [], cs => some cs
  | _ :: _, [] => none
  | w :: word, c :: cs => if w = c then after? word cs else none

theorem after?_eq_some_iff {word cs rest : List Char} :
    after? word cs = some rest ↔ cs = word ++ rest := by
  induction word generalizing cs with
  | nil => simp [after?, eq_comm]
  | cons w word ih =>
    cases cs with
    | nil => simp [after?]
    | cons c cs =>
      by_cases h : w = c
      · subst h; simp [after?, ih]
      · simp [after?, h, Ne.symm h]

/-- Whether `word` occurs in the text. -/
def containsWord (word : List Char) : List Char → Bool
  | [] => word.isEmpty
  | c :: cs => word.isPrefixOf (c :: cs) || containsWord word cs

/-- What follows the first occurrence of `word`. -/
def afterFirst? (word : List Char) : List Char → Option (List Char)
  | [] => after? word []
  | c :: cs => (after? word (c :: cs)).orElse fun _ => afterFirst? word cs

/-- The parts before and after the first occurrence of a character. -/
def splitAtFirst? (x : Char) : List Char → Option (List Char × List Char)
  | [] => none
  | c :: cs =>
    if c = x then some ([], cs)
    else (splitAtFirst? x cs).map fun (before, rest) => (c :: before, rest)

end ScriptForge.Text

import ScriptForge.Script.Token

/-!
# The texts of the tokens

For each scanner, the texts that it takes. Names and words are taken as far as they go, so the text
behind them must not go on with a character of their class (`Stops`). Strings and bodies end by
themselves: at the first quote that no backslash stands before, and at the brace that matches the
first one.
-/

namespace ScriptForge.Script

namespace Token

open Text

/-! ## Names -/

/-- The text does not go on with a character of the class. -/
def Stops (more : Char → Bool) (rest : List Char) : Prop :=
  ∀ c ∈ rest.head?, more c = false

/-- One character of the first class and any number of the second. -/
def IsName (first more : Char → Bool) (text : List Char) : Prop :=
  ∃ c cs, text = c :: cs ∧ first c = true ∧ ∀ d ∈ cs, more d = true

/-- A letter, then letters, digits and underscores. -/
def IsPlainName : List Char → Prop :=
  IsName Char.isAlpha isIdentifierChar

/-- A letter, then letters, digits, underscores and dashes. -/
def IsDashedName : List Char → Prop :=
  IsName Char.isAlpha isDashedChar

/-- A plain name that is no reserved word. -/
def IsIdentifier (text : List Char) : Prop :=
  IsPlainName text ∧ text ∉ reservedWords

/-- A dashed name that may start with an underscore. It is no reserved word, and no reserved word
with a dash behind it starts it. -/
def IsDeclaredName (text : List Char) : Prop :=
  IsName (fun c => c.isAlpha || c == '_') isDashedChar text ∧
    ∀ word ∈ reservedWords, text ≠ word ∧ ∀ more, text ≠ word ++ '-' :: more

theorem isName_iff {first more : Char → Bool} {text : List Char} :
    IsName first more text ↔ text.head?.any first = true ∧ text.tail.all more = true := by
  cases text with
  | nil => simp [IsName]
  | cons c cs =>
    rw [List.tail_cons, List.all_eq_true]
    constructor
    · rintro ⟨_, _, ⟨⟩, h⟩
      exact h
    · exact fun h => ⟨c, cs, rfl, h⟩

instance {first more : Char → Bool} {text : List Char} : Decidable (IsName first more text) :=
  decidable_of_iff _ isName_iff.symm

instance {text : List Char} : Decidable (IsPlainName text) :=
  inferInstanceAs (Decidable (IsName Char.isAlpha isIdentifierChar text))

instance {text : List Char} : Decidable (IsDashedName text) :=
  inferInstanceAs (Decidable (IsName Char.isAlpha isDashedChar text))

theorem stops_nil (more : Char → Bool) : Stops more [] := by
  simp [Stops]

@[simp] theorem stops_cons {more : Char → Bool} {c : Char} {cs : List Char} :
    Stops more (c :: cs) ↔ more c = false := by
  simp [Stops]

theorem Stops.imp {more more' : Char → Bool} {rest : List Char} (h : Stops more rest)
    (himp : ∀ c, more' c = true → more c = true) : Stops more' rest := by
  intro c hc
  have hmore := h c hc
  cases hc' : more' c with
  | false => rfl
  | true => rw [himp c hc'] at hmore; cases hmore

theorem takeWhile_of_stops {more : Char → Bool} {cs rest : List Char}
    (hcs : ∀ c ∈ cs, more c = true) (hrest : Stops more rest) :
    (cs ++ rest).takeWhile more = cs := by
  rw [List.takeWhile_append_of_pos hcs]
  cases rest with
  | nil => simp
  | cons c rest => simp [stops_cons.mp hrest]

theorem dropWhile_of_stops {more : Char → Bool} {cs rest : List Char}
    (hcs : ∀ c ∈ cs, more c = true) (hrest : Stops more rest) :
    (cs ++ rest).dropWhile more = rest := by
  rw [List.dropWhile_append_of_pos hcs]
  cases rest with
  | nil => rfl
  | cons c rest => simp [stops_cons.mp hrest]

/-- A text splits in one way into a run of characters of the class and what does not go on with
it. -/
theorem run_unique {more : Char → Bool} {cs ds rest rest' : List Char}
    (hcs : ∀ c ∈ cs, more c = true) (hrest : Stops more rest) (hds : ∀ c ∈ ds, more c = true)
    (hrest' : Stops more rest') (heq : cs ++ rest = ds ++ rest') : cs = ds ∧ rest = rest' := by
  have hrun : cs = ds := by
    rw [← takeWhile_of_stops hcs hrest, heq, takeWhile_of_stops hds hrest']
  subst hrun
  exact ⟨rfl, List.append_cancel_left heq⟩

theorem stops_dropWhile (more : Char → Bool) (cs : List Char) : Stops more (cs.dropWhile more) := by
  intro c hc
  have := List.head?_dropWhile_not more cs
  rw [hc] at this
  simpa using this

theorem name_eq_some_iff {first more : Char → Bool} {cs text rest : List Char} :
    name first more cs = some (text, rest) ↔
      IsName first more text ∧ Stops more rest ∧ cs = text ++ rest := by
  constructor
  · intro h
    cases cs with
    | nil => cases h
    | cons c cs =>
      rw [name] at h
      split at h
      · cases h
        refine ⟨⟨c, _, rfl, ‹_›, fun d hd => ?_⟩, stops_dropWhile more cs, ?_⟩
        · exact (List.all_eq_true.mp List.all_takeWhile) d hd
        · rw [List.cons_append, List.takeWhile_append_dropWhile]
      · cases h
  · rintro ⟨⟨c, cs, rfl, hc, hcs⟩, hrest, rfl⟩
    rw [List.cons_append, name, if_pos hc, takeWhile_of_stops hcs hrest,
      dropWhile_of_stops hcs hrest]

theorem isDashedChar_of_isIdentifierChar {c : Char} (h : isIdentifierChar c = true) :
    isDashedChar c = true := by
  simp [isDashedChar, h]

theorem isDashedChar_of_isHyphenatedChar {c : Char} (h : isHyphenatedChar c = true) :
    isDashedChar c = true := by
  rw [isHyphenatedChar, Bool.or_eq_true] at h
  rcases h with h | h <;> simp [isDashedChar, isIdentifierChar, h]

theorem isIdentifierChar_of_isAlpha {c : Char} (h : c.isAlpha = true) :
    isIdentifierChar c = true := by
  simp [isIdentifierChar, Char.isAlphanum, h]

theorem isIdentifierChar_of_isAlpha_or {c : Char} (h : (c.isAlpha || c == '_') = true) :
    isIdentifierChar c = true := by
  rw [Bool.or_eq_true, beq_iff_eq] at h
  rcases h with h | rfl
  · exact isIdentifierChar_of_isAlpha h
  · decide

theorem IsPlainName.all {text : List Char} (h : IsPlainName text) :
    ∀ c ∈ text, isIdentifierChar c = true := by
  obtain ⟨c, cs, rfl, hc, hcs⟩ := h
  simpa using ⟨isIdentifierChar_of_isAlpha hc, hcs⟩

theorem identifier_eq_some_iff {cs text rest : List Char} :
    identifier cs = some (text, rest) ↔
      IsIdentifier text ∧ Stops isIdentifierChar rest ∧ cs = text ++ rest := by
  have hreserved : IsPlainName text → Stops isIdentifierChar rest →
      (startsReserved (text ++ rest) = true ↔ text ∈ reservedWords) := by
    intro hname hrest
    rw [startsReserved, takeWhile_of_stops hname.all hrest, List.contains_iff_mem]
  rw [identifier]
  constructor
  · intro h
    split at h
    · cases h
    · rename_i hstarts
      obtain ⟨hname, hrest, rfl⟩ := name_eq_some_iff.mp h
      exact ⟨⟨hname, fun hmem => hstarts ((hreserved hname hrest).mpr hmem)⟩, hrest, rfl⟩
  · rintro ⟨⟨hname, hmem⟩, hrest, rfl⟩
    rw [if_neg fun h => hmem ((hreserved hname hrest).mp h)]
    exact name_eq_some_iff.mpr ⟨hname, hrest, rfl⟩

theorem isIdentifierChar_of_mem_reservedWords :
    ∀ word ∈ reservedWords, ∀ c ∈ word, isIdentifierChar c = true := by
  have hall : reservedWords.all (List.all · isIdentifierChar) = true := by decide
  exact fun word hword => List.all_eq_true.mp (List.all_eq_true.mp hall word hword)

/-- A dashed text is a run of identifier characters, alone or with a dash behind it. -/
theorem eq_takeWhile_or_dash {text : List Char} (h : ∀ c ∈ text, isDashedChar c = true) :
    text = text.takeWhile isIdentifierChar ∨
      ∃ more, text = text.takeWhile isIdentifierChar ++ '-' :: more := by
  have hsplit := List.takeWhile_append_dropWhile (p := isIdentifierChar) (l := text)
  cases hdrop : text.dropWhile isIdentifierChar with
  | nil =>
    rw [hdrop, List.append_nil] at hsplit
    exact .inl hsplit.symm
  | cons d more =>
    have hstop : isIdentifierChar d = false := by
      have := stops_dropWhile isIdentifierChar text
      rwa [hdrop, stops_cons] at this
    have hdash : d = '-' := by
      have hmem : d ∈ text := (List.dropWhile_sublist _).subset (hdrop ▸ List.mem_cons_self)
      simpa [isDashedChar, hstop] using h d hmem
    rw [hdrop, hdash] at hsplit
    exact .inr ⟨more, hsplit.symm⟩

theorem startsReserved_append {text rest : List Char} (htext : ∀ c ∈ text, isDashedChar c = true)
    (hrest : Stops isDashedChar rest) :
    startsReserved (text ++ rest) = true ↔
      ∃ word ∈ reservedWords, text = word ∨ ∃ more, text = word ++ '-' :: more := by
  have hrun : (text ++ rest).takeWhile isIdentifierChar = text.takeWhile isIdentifierChar := by
    rcases eq_takeWhile_or_dash htext with h | ⟨more, h⟩
    · have hall : ∀ c ∈ text, isIdentifierChar c = true := by
        rw [h]
        exact fun c hc => (List.all_eq_true.mp List.all_takeWhile) c hc
      rw [← h]
      exact takeWhile_of_stops hall (hrest.imp fun _ => isDashedChar_of_isIdentifierChar)
    · rw [h, List.append_assoc]
      have hall : ∀ c ∈ text.takeWhile isIdentifierChar, isIdentifierChar c = true :=
        fun c hc => (List.all_eq_true.mp List.all_takeWhile) c hc
      rw [List.cons_append, takeWhile_of_stops hall (stops_cons.mpr (by decide)),
        takeWhile_of_stops hall (stops_cons.mpr (by decide))]
  rw [startsReserved, hrun, List.contains_iff_mem]
  constructor
  · intro hmem
    exact ⟨_, hmem, eq_takeWhile_or_dash htext⟩
  · rintro ⟨word, hword, rfl | ⟨more, rfl⟩⟩
    · have := takeWhile_of_stops (isIdentifierChar_of_mem_reservedWords _ hword) (stops_nil _)
      rw [List.append_nil] at this
      rwa [this]
    · rwa [takeWhile_of_stops (isIdentifierChar_of_mem_reservedWords _ hword)
        (stops_cons.mpr (by decide))]

theorem IsName.all {first more : Char → Bool} {text : List Char} (h : IsName first more text)
    (himp : ∀ c, first c = true → more c = true) : ∀ c ∈ text, more c = true := by
  obtain ⟨c, cs, rfl, hc, hcs⟩ := h
  simpa using ⟨himp c hc, hcs⟩

theorem IsDashedName.all {text : List Char} (h : IsDashedName text) :
    ∀ c ∈ text, isDashedChar c = true :=
  IsName.all h fun _ hc => isDashedChar_of_isIdentifierChar (isIdentifierChar_of_isAlpha hc)

theorem IsDeclaredName.front {text : List Char} (h : IsDeclaredName text) :
    ∃ c cs, text = c :: cs ∧ isIdentifierChar c = true := by
  obtain ⟨⟨c, cs, rfl, hc, -⟩, -⟩ := h
  exact ⟨c, cs, rfl, isIdentifierChar_of_isAlpha_or hc⟩

theorem declaredName_eq_some_iff {cs text rest : List Char} :
    declaredName cs = some (text, rest) ↔
      IsDeclaredName text ∧ Stops isDashedChar rest ∧ cs = text ++ rest := by
  have hreserved : IsName (fun c => c.isAlpha || c == '_') isDashedChar text →
      Stops isDashedChar rest → (startsReserved (text ++ rest) = true ↔
        ∃ word ∈ reservedWords, text = word ∨ ∃ more, text = word ++ '-' :: more) := by
    refine fun hname hrest => startsReserved_append (hname.all fun c hc => ?_) hrest
    exact isDashedChar_of_isIdentifierChar (isIdentifierChar_of_isAlpha_or hc)
  rw [declaredName]
  constructor
  · intro h
    split at h
    · cases h
    · rename_i hstarts
      obtain ⟨hname, hrest, rfl⟩ := name_eq_some_iff.mp h
      refine ⟨⟨hname, fun word hword => ⟨fun heq => ?_, fun more heq => ?_⟩⟩, hrest, rfl⟩
      · exact hstarts ((hreserved hname hrest).mpr ⟨word, hword, .inl heq⟩)
      · exact hstarts ((hreserved hname hrest).mpr ⟨word, hword, .inr ⟨more, heq⟩⟩)
  · rintro ⟨⟨hname, hfree⟩, hrest, rfl⟩
    rw [if_neg]
    · exact name_eq_some_iff.mpr ⟨hname, hrest, rfl⟩
    · intro hstarts
      obtain ⟨word, hword, heq | ⟨more, heq⟩⟩ := (hreserved hname hrest).mp hstarts
      · exact (hfree word hword).1 heq
      · exact (hfree word hword).2 more heq

instance {text : List Char} : Decidable (IsDeclaredName text) :=
  decidable_of_iff (declaredName text = some (text, [])) <|
    declaredName_eq_some_iff.trans
      ⟨And.left, fun h => ⟨h, stops_nil _, (List.append_nil text).symm⟩⟩

/-- A name that no declaration gives is not read as a shorter one either. -/
theorem declaredName_eq_none {text rest : List Char}
    (hname : IsName (fun c => c.isAlpha || c == '_') isDashedChar text)
    (hrest : Stops isDashedChar rest) (hnot : ¬ IsDeclaredName text) :
    declaredName (text ++ rest) = none := by
  have hletters : ∀ c, (c.isAlpha || c == '_') = true → isDashedChar c = true :=
    fun c hc => isDashedChar_of_isIdentifierChar (isIdentifierChar_of_isAlpha_or hc)
  cases hscan : declaredName (text ++ rest) with
  | none => rfl
  | some token =>
    obtain ⟨hdeclared, hstops, heq⟩ := declaredName_eq_some_iff.mp hscan
    obtain ⟨rfl, -⟩ := run_unique (hname.all hletters) hrest (hdeclared.1.all hletters) hstops heq
    exact absurd hdeclared hnot

/-- A name that is not plain breaks off at an underscore in front or at a dash. -/
theorem exists_break {text : List Char}
    (hname : IsName (fun c => c.isAlpha || c == '_') isDashedChar text)
    (hnot : ¬ IsPlainName text) : ∃ front c back, text = front ++ c :: back ∧
      (front = [] ∧ c = '_' ∨ IsPlainName front ∧ c = '-') := by
  obtain ⟨c, cs, rfl, hc, hcs⟩ := hname
  have hrun : ∀ d ∈ cs.takeWhile isIdentifierChar, isIdentifierChar d = true :=
    List.all_eq_true.mp List.all_takeWhile
  rw [Bool.or_eq_true, beq_iff_eq] at hc
  rcases hc with hc | rfl
  · rcases eq_takeWhile_or_dash hcs with hall | ⟨back, hback⟩
    · exact absurd ⟨c, cs, rfl, hc, hall ▸ hrun⟩ hnot
    · exact ⟨c :: cs.takeWhile isIdentifierChar, '-', back, congrArg (c :: ·) hback,
        .inr ⟨⟨c, _, rfl, hc, hrun⟩, rfl⟩⟩
  · exact ⟨[], '_', cs, rfl, .inl ⟨rfl, rfl⟩⟩

/-! ## Words -/

theorem word_eq_some_iff {expected text cs rest : List Char} {more : Char → Bool} :
    Token.word expected more cs = some (text, rest) ↔
      text = expected ∧ Stops more rest ∧ cs = text ++ rest := by
  rw [word]
  split
  · rename_i hnone
    constructor
    · intro h
      cases h
    · rintro ⟨rfl, -, rfl⟩
      rw [after?_eq_some_iff.mpr rfl] at hnone
      cases hnone
  · rename_i hsome
    rw [after?_eq_some_iff] at hsome
    subst hsome
    constructor
    · intro h
      cases h
      exact ⟨rfl, stops_nil _, rfl⟩
    · rintro ⟨rfl, -, h⟩
      rw [List.append_cancel_left_eq] at h
      rw [← h]
  · rename_i c more' hsome
    rw [after?_eq_some_iff] at hsome
    subst hsome
    constructor
    · intro h
      split at h
      · cases h
      · cases h
        exact ⟨rfl, stops_cons.mpr (eq_false_of_ne_true ‹_›), rfl⟩
    · rintro ⟨rfl, hrest, h⟩
      rw [List.append_cancel_left_eq] at h
      subst h
      rw [if_neg (by simpa using hrest)]

theorem word_eq_none {c d : Char} {more : Char → Bool} {expected cs : List Char} (hne : c ≠ d) :
    Token.word (d :: expected) more (c :: cs) = none := by
  rw [word, after?, if_neg hne.symm]

/-- No reserved word starts where an identifier stands. -/
theorem word_eq_none_of_identifier {word text rest : List Char} (hword : word ∈ reservedWords)
    (htext : IsIdentifier text) (hrest : Stops isIdentifierChar rest) :
    Token.word word isIdentifierChar (text ++ rest) = none := by
  cases h : Token.word word isIdentifierChar (text ++ rest) with
  | none => rfl
  | some token =>
    obtain ⟨hexpected, hstops, heq⟩ := word_eq_some_iff.mp h
    rw [hexpected] at heq
    obtain ⟨rfl, -⟩ := run_unique htext.1.all hrest
      (isIdentifierChar_of_mem_reservedWords _ hword) hstops heq
    exact absurd hword htext.2

theorem either_eq_some_iff {first second : Scanner} {cs : List Char} {token : List Char × List Char}
    (hfirst : ∀ token', first cs = some token' → second cs = none) :
    either first second cs = some token ↔ first cs = some token ∨ second cs = some token := by
  rw [either]
  cases h : first cs with
  | none => simp
  | some token' => simp [hfirst token' h]

/-- One of two words of which none starts the other. -/
theorem either_word_eq_some_iff {word other : List Char} {c d : Char} (hne : c ≠ d)
    {more : Char → Bool} {cs text rest : List Char} :
    either (Token.word (c :: word) more) (Token.word (d :: other) more) cs = some (text, rest) ↔
      (text = c :: word ∨ text = d :: other) ∧ Stops more rest ∧ cs = text ++ rest := by
  rw [either_eq_some_iff, word_eq_some_iff, word_eq_some_iff]
  · constructor
    · rintro (⟨rfl, hrest, rfl⟩ | ⟨rfl, hrest, rfl⟩)
      · exact ⟨.inl rfl, hrest, rfl⟩
      · exact ⟨.inr rfl, hrest, rfl⟩
    · rintro ⟨rfl | rfl, hrest, rfl⟩
      · exact .inl ⟨rfl, hrest, rfl⟩
      · exact .inr ⟨rfl, hrest, rfl⟩
  · rintro ⟨text', rest'⟩ h
    obtain ⟨rfl, -, rfl⟩ := word_eq_some_iff.mp h
    rw [Token.word, List.cons_append, after?, if_neg hne.symm]

theorem operation_eq_some_iff {cs text rest : List Char} :
    operation cs = some (text, rest) ↔
      (text = "query".toList ∨ text = "mutation".toList) ∧ Stops isIdentifierChar rest ∧
        cs = text ++ rest :=
  either_word_eq_some_iff (by decide)

theorem boolean_eq_some_iff {cs text rest : List Char} :
    boolean cs = some (text, rest) ↔
      (text = "true".toList ∨ text = "false".toList) ∧ Stops isIdentifierChar rest ∧
        cs = text ++ rest :=
  either_word_eq_some_iff (by decide)

theorem map_push_eq_some_iff {taken text rest : List Char}
    {scanned : Option (List Char × List Char)} :
    scanned.map (push taken) = some (text, rest) ↔
      ∃ more, text = taken ++ more ∧ scanned = some (more, rest) := by
  rw [Option.map_eq_some_iff]
  constructor
  · rintro ⟨⟨more, rest'⟩, rfl, h⟩
    cases h
    exact ⟨more, rfl, rfl⟩
  · rintro ⟨more, rfl, rfl⟩
    exact ⟨(more, rest), rfl, rfl⟩

/-! ## Numbers -/

/-- One digit or more. -/
def IsDigits : List Char → Prop :=
  IsName Char.isDigit Char.isDigit

/-- A point with digits behind it, or nothing. -/
def IsFraction (text : List Char) : Prop :=
  text = [] ∨ ∃ digits, text = '.' :: digits ∧ IsDigits digits

/-- An optional minus sign, digits, and an optional fraction. -/
def IsNumber (text : List Char) : Prop :=
  ∃ sign whole fraction, text = sign ++ (whole ++ fraction) ∧ (sign = [] ∨ sign = ['-']) ∧
    IsDigits whole ∧ IsFraction fraction

instance {text : List Char} : Decidable (IsDigits text) :=
  inferInstanceAs (Decidable (IsName Char.isDigit Char.isDigit text))

theorem IsDigits.isNumber {text : List Char} (h : IsDigits text) : IsNumber text :=
  ⟨[], text, [], (List.append_nil text).symm, .inl rfl, h, .inl rfl⟩

theorem digits_eq_some_iff {cs text rest : List Char} :
    digits cs = some (text, rest) ↔ IsDigits text ∧ Stops Char.isDigit rest ∧ cs = text ++ rest :=
  name_eq_some_iff

theorem fraction_sound {cs text rest : List Char} (h : fraction cs = (text, rest)) :
    IsFraction text ∧ cs = text ++ rest := by
  unfold fraction at h
  split at h
  · split at h
    · rename_i hdigits
      cases h
      obtain ⟨htext, -, rfl⟩ := digits_eq_some_iff.mp hdigits
      exact ⟨.inr ⟨_, rfl, htext⟩, rfl⟩
    · cases h
      exact ⟨.inl rfl, rfl⟩
  · cases h
    exact ⟨.inl rfl, rfl⟩

theorem fraction_append {text rest : List Char} (h : IsFraction text)
    (hrest : Stops (fun c => c.isDigit || c == '.') rest) :
    fraction (text ++ rest) = (text, rest) := by
  rcases h with rfl | ⟨digits, rfl, hdigits⟩
  · cases rest with
    | nil => rfl
    | cons c rest =>
      unfold fraction
      split
      · rename_i heq
        cases heq
        simp at hrest
      · rfl
  · have hscan : Token.digits (digits ++ rest) = some (digits, rest) :=
      digits_eq_some_iff.mpr ⟨hdigits, hrest.imp fun c hc => by simp [hc], rfl⟩
    simp [fraction, hscan]

theorem unsigned_sound {cs text rest : List Char} (h : unsigned cs = some (text, rest)) :
    ∃ whole fraction, text = whole ++ fraction ∧ IsDigits whole ∧ IsFraction fraction ∧
      cs = text ++ rest := by
  rw [unsigned, Option.map_eq_some_iff] at h
  obtain ⟨⟨whole, behind⟩, hdigits, hpush⟩ := h
  obtain ⟨hwhole, -, rfl⟩ := digits_eq_some_iff.mp hdigits
  cases hfraction : fraction behind with
  | mk frac rest' =>
    obtain ⟨hfrac, rfl⟩ := fraction_sound hfraction
    change push whole (fraction (frac ++ rest')) = (text, rest) at hpush
    rw [hfraction] at hpush
    cases hpush
    exact ⟨whole, frac, rfl, hwhole, hfrac, (List.append_assoc ..).symm⟩

theorem unsigned_append {whole fraction rest : List Char} (hwhole : IsDigits whole)
    (hfraction : IsFraction fraction) (hrest : Stops (fun c => c.isDigit || c == '.') rest) :
    unsigned (whole ++ fraction ++ rest) = some (whole ++ fraction, rest) := by
  have hstops : Stops Char.isDigit (fraction ++ rest) := by
    rcases hfraction with rfl | ⟨digits, rfl, -⟩
    · exact hrest.imp fun c hc => by simp [hc]
    · exact stops_cons.mpr (by decide)
  rw [unsigned, List.append_assoc, digits_eq_some_iff.mpr ⟨hwhole, hstops, rfl⟩]
  change some (push whole (Token.fraction (fraction ++ rest))) = _
  rw [fraction_append hfraction hrest]
  rfl

theorem number_sound {cs text rest : List Char} (h : number cs = some (text, rest)) :
    IsNumber text ∧ cs = text ++ rest := by
  unfold number at h
  split at h
  · obtain ⟨text', rfl, hunsigned⟩ := map_push_eq_some_iff.mp h
    obtain ⟨whole, fraction, rfl, hwhole, hfraction, rfl⟩ := unsigned_sound hunsigned
    exact ⟨⟨['-'], whole, fraction, rfl, .inr rfl, hwhole, hfraction⟩, rfl⟩
  · obtain ⟨whole, fraction, rfl, hwhole, hfraction, rfl⟩ := unsigned_sound h
    exact ⟨⟨[], whole, fraction, rfl, .inl rfl, hwhole, hfraction⟩, rfl⟩

theorem number_append {text rest : List Char} (h : IsNumber text)
    (hrest : Stops (fun c => c.isDigit || c == '.') rest) :
    number (text ++ rest) = some (text, rest) := by
  obtain ⟨sign, whole, fraction, rfl, hsign, hwhole, hfraction⟩ := h
  have hunsigned := unsigned_append hwhole hfraction hrest
  rcases hsign with rfl | rfl
  · obtain ⟨c, cs, rfl, hc, -⟩ := hwhole
    rw [List.nil_append]
    unfold number
    split
    · rename_i heq
      cases heq
      cases hc
    · exact hunsigned
  · rw [List.append_assoc, List.singleton_append, number, hunsigned]
    rfl

theorem number_eq_none {c : Char} {cs : List Char} (hdigit : c.isDigit = false) (hminus : c ≠ '-') :
    number (c :: cs) = none := by
  unfold number
  split
  · rename_i heq
    cases heq
    exact absurd rfl hminus
  · simp [unsigned, digits, name, hdigit]

theorem IsNumber.head {text : List Char} (h : IsNumber text) :
    ∃ c cs, text = c :: cs ∧ (c.isDigit = true ∨ c = '-') := by
  obtain ⟨sign, whole, fraction, rfl, rfl | rfl, ⟨c, cs, rfl, hc, -⟩, -⟩ := h
  · exact ⟨c, _, rfl, .inl hc⟩
  · exact ⟨'-', _, rfl, .inr rfl⟩

/-! ## Strings -/

/-- What stands between the quotes of a string: any characters, a quote only behind a backslash. -/
inductive IsStringBody : List Char → Prop
  | nil : IsStringBody []
  | plain {c : Char} {cs : List Char} (hquote : c ≠ '"') (hbackslash : c ≠ '\\') :
      IsStringBody cs → IsStringBody (c :: cs)
  | escaped {c : Char} {cs : List Char} : IsStringBody cs → IsStringBody ('\\' :: c :: cs)

/-- A string between double quotes. -/
def IsString (text : List Char) : Prop :=
  ∃ body, text = '"' :: (body ++ ['"']) ∧ IsStringBody body

theorem closeString_sound {cs text rest : List Char} (h : closeString cs = some (text, rest)) :
    ∃ body, text = body ++ ['"'] ∧ IsStringBody body ∧ cs = text ++ rest := by
  fun_induction closeString cs generalizing text with
  | case1 => cases h
  | case2 c cs ih =>
    obtain ⟨text', rfl, hclose⟩ := map_push_eq_some_iff.mp h
    obtain ⟨body, rfl, hbody, rfl⟩ := ih hclose
    exact ⟨_, rfl, .escaped hbody, rfl⟩
  | case3 cs =>
    cases h
    exact ⟨[], rfl, .nil, rfl⟩
  | case4 c cs hnotEscaped hquote ih =>
    obtain ⟨text', rfl, hclose⟩ := map_push_eq_some_iff.mp h
    obtain ⟨body, rfl, hbody, rfl⟩ := ih hclose
    refine ⟨_, rfl, .plain hquote (fun hbackslash => ?_) hbody, rfl⟩
    cases body <;> exact hnotEscaped _ _ hbackslash rfl

theorem closeString_append {body rest : List Char} (h : IsStringBody body) :
    closeString (body ++ '"' :: rest) = some (body ++ ['"'], rest) := by
  induction h with
  | nil => rfl
  | plain hquote hbackslash _ ih =>
    rw [List.cons_append, closeString, if_neg hquote, ih]
    · rfl
    · exact fun _ _ h => absurd h hbackslash
  | escaped _ ih =>
    rw [List.cons_append, List.cons_append, closeString, ih]
    rfl

theorem string_eq_none {c : Char} {cs : List Char} (hquote : c ≠ '"') :
    Token.string (c :: cs) = none := by
  unfold Token.string
  split
  · rename_i heq
    cases heq
    exact absurd rfl hquote
  · rfl

theorem string_eq_some_iff {cs text rest : List Char} :
    Token.string cs = some (text, rest) ↔ IsString text ∧ cs = text ++ rest := by
  constructor
  · intro h
    unfold Token.string at h
    split at h
    · obtain ⟨⟨text', rest'⟩, hclose, hpush⟩ := Option.map_eq_some_iff.mp h
      cases hpush
      obtain ⟨body, rfl, hbody, rfl⟩ := closeString_sound hclose
      exact ⟨⟨body, rfl, hbody⟩, rfl⟩
    · cases h
  · rintro ⟨⟨body, rfl, hbody⟩, rfl⟩
    rw [List.cons_append, Token.string, List.append_assoc, List.singleton_append,
      closeString_append hbody]
    rfl

/-! ## Bodies -/

/-- A text in which braces match. Those inside a string do not count, and all strings are closed. -/
inductive Balanced : List Char → Prop
  | nil : Balanced []
  | plain {c : Char} {cs : List Char} (hquote : c ≠ '"') (hopen : c ≠ '\x7b')
      (hclose : c ≠ '\x7d') : Balanced cs → Balanced (c :: cs)
  | string {text cs : List Char} :
      IsStringBody text → Balanced cs → Balanced ('"' :: (text ++ '"' :: cs))
  | braces {inner cs : List Char} :
      Balanced inner → Balanced cs → Balanced ('\x7b' :: (inner ++ '\x7d' :: cs))

/-- A text that closes `depth` open braces and one more, and ends there. -/
inductive Closes : Nat → List Char → Prop
  | last {text : List Char} : Balanced text → Closes 0 (text ++ ['\x7d'])
  | next {depth : Nat} {text cs : List Char} :
      Balanced text → Closes depth cs → Closes (depth + 1) (text ++ '\x7d' :: cs)

namespace Closes

variable {depth : Nat} {cs : List Char}

theorem plain {c : Char} (hquote : c ≠ '"') (hopen : c ≠ '\x7b') (hclose : c ≠ '\x7d')
    (h : Closes depth cs) : Closes depth (c :: cs) := by
  cases h with
  | last htext => exact .last (.plain hquote hopen hclose htext)
  | next htext hcs => exact .next (.plain hquote hopen hclose htext) hcs

theorem string {body : List Char} (hbody : IsStringBody body) (h : Closes depth cs) :
    Closes depth ('"' :: (body ++ '"' :: cs)) := by
  cases h with
  | last htext => simpa using Closes.last (.string hbody htext)
  | next htext hcs => simpa using Closes.next (.string hbody htext) hcs

theorem braces (h : Closes (depth + 1) cs) : Closes depth ('\x7b' :: cs) := by
  cases h with
  | next hinner hcs =>
    cases hcs with
    | last htext => simpa using Closes.last (.braces hinner htext)
    | next htext hcs => simpa using Closes.next (.braces hinner htext) hcs

/-- A text that closes braces where `quoted` says whether it starts inside a string. -/
def From (quoted : Bool) (depth : Nat) (text : List Char) : Prop :=
  match quoted with
  | true => ∃ body more, text = body ++ '"' :: more ∧ IsStringBody body ∧ Closes depth more
  | false => Closes depth text

end Closes

theorem closeBody_sound {quoted : Bool} {depth : Nat} {cs text rest : List Char}
    (h : closeBody quoted depth cs = some (text, rest)) :
    Closes.From quoted depth text ∧ cs = text ++ rest := by
  fun_induction closeBody quoted depth cs generalizing text with
  | case1 => cases h
  | case2 depth c cs ih =>
    obtain ⟨text', rfl, hclose⟩ := map_push_eq_some_iff.mp h
    obtain ⟨⟨body, more, rfl, hbody, hmore⟩, rfl⟩ := ih hclose
    exact ⟨⟨'\\' :: c :: body, more, rfl, .escaped hbody, hmore⟩, rfl⟩
  | case3 depth c cs hnotEscaped ih =>
    obtain ⟨text', rfl, hclose⟩ := map_push_eq_some_iff.mp h
    obtain ⟨htext, rfl⟩ := ih hclose
    refine ⟨?_, rfl⟩
    by_cases hquote : c = '"'
    · subst hquote
      exact ⟨[], text', rfl, .nil, htext⟩
    · rw [bne_iff_ne.mpr hquote] at htext
      obtain ⟨body, more, rfl, hbody, hmore⟩ := htext
      refine ⟨c :: body, more, rfl, .plain hquote (fun hbackslash => ?_) hbody, hmore⟩
      cases body <;> exact hnotEscaped _ _ hbackslash rfl
  | case4 depth cs ih =>
    obtain ⟨text', rfl, hclose⟩ := map_push_eq_some_iff.mp h
    obtain ⟨⟨body, more, rfl, hbody, hmore⟩, rfl⟩ := ih hclose
    exact ⟨hmore.string hbody, rfl⟩
  | case5 depth cs _ ih =>
    obtain ⟨text', rfl, hclose⟩ := map_push_eq_some_iff.mp h
    obtain ⟨htext, rfl⟩ := ih hclose
    exact ⟨Closes.braces htext, rfl⟩
  | case6 cs =>
    cases h
    exact ⟨.last .nil, rfl⟩
  | case7 cs depth _ _ ih =>
    obtain ⟨text', rfl, hclose⟩ := map_push_eq_some_iff.mp h
    obtain ⟨htext, rfl⟩ := ih hclose
    exact ⟨.next .nil htext, rfl⟩
  | case8 depth c cs hquote hopen hclose' ih =>
    obtain ⟨text', rfl, hclose⟩ := map_push_eq_some_iff.mp h
    obtain ⟨htext, rfl⟩ := ih hclose
    exact ⟨Closes.plain hquote hopen hclose' htext, rfl⟩

theorem closeBody_string {depth : Nat} {body cs : List Char} (h : IsStringBody body) :
    closeBody true depth (body ++ '"' :: cs) =
      (closeBody false depth cs).map (push (body ++ ['"'])) := by
  induction h with
  | nil => rfl
  | plain hquote hbackslash _ ih =>
    rw [List.cons_append, closeBody, bne_iff_ne.mpr hquote, ih, Option.map_map]
    · rfl
    · exact fun _ _ h => absurd h hbackslash
  | escaped _ ih =>
    rw [List.cons_append, List.cons_append, closeBody, ih, Option.map_map]
    rfl

theorem closeBody_plain {depth : Nat} {c : Char} {cs : List Char} (hquote : c ≠ '"')
    (hopen : c ≠ '\x7b') (hclose : c ≠ '\x7d') :
    closeBody false depth (c :: cs) = (closeBody false depth cs).map (push [c]) := by
  rw [closeBody.eq_def]
  simp only [if_neg hquote, if_neg hopen, if_neg hclose]

theorem closeBody_quote {depth : Nat} {cs : List Char} :
    closeBody false depth ('"' :: cs) = (closeBody true depth cs).map (push ['"']) := by
  cases depth <;> rfl

theorem closeBody_open {depth : Nat} {cs : List Char} :
    closeBody false depth ('\x7b' :: cs) =
      (closeBody false (depth + 1) cs).map (push ['\x7b']) := by
  cases depth <;> rfl

theorem closeBody_close {depth : Nat} {cs : List Char} :
    closeBody false (depth + 1) ('\x7d' :: cs) =
      (closeBody false depth cs).map (push ['\x7d']) := rfl

theorem map_push_push (first second : List Char) (scanned : Option (List Char × List Char)) :
    (scanned.map (push second)).map (push first) = scanned.map (push (first ++ second)) := by
  cases scanned with
  | none => rfl
  | some token => simp [push, List.append_assoc]

theorem closeBody_balanced {text : List Char} (h : Balanced text) (depth : Nat) (cs : List Char) :
    closeBody false depth (text ++ cs) = (closeBody false depth cs).map (push text) := by
  induction h generalizing depth cs with
  | nil =>
    cases h : closeBody false depth cs with
    | none => exact h
    | some token => exact h
  | plain hquote hopen hclose _ ih =>
    rw [List.cons_append, closeBody_plain hquote hopen hclose, ih, map_push_push]
    rfl
  | string hbody _ ih =>
    rw [List.cons_append, closeBody_quote, List.append_assoc, List.cons_append,
      closeBody_string hbody, ih, map_push_push, map_push_push]
    simp
  | braces _ _ ihinner ih =>
    rw [List.cons_append, closeBody_open, List.append_assoc, List.cons_append, ihinner,
      closeBody_close, ih, map_push_push, map_push_push, map_push_push]
    simp

/-- A body between braces that match. -/
def IsBody (text : List Char) : Prop :=
  ∃ inner, text = '\x7b' :: (inner ++ ['\x7d']) ∧ Balanced inner

theorem body_eq_some_iff {cs text rest : List Char} :
    Token.body cs = some (text, rest) ↔ IsBody text ∧ cs = text ++ rest := by
  constructor
  · intro h
    unfold Token.body at h
    split at h
    · obtain ⟨text', rfl, hclose⟩ := map_push_eq_some_iff.mp h
      obtain ⟨hcloses, rfl⟩ := closeBody_sound hclose
      cases hcloses with
      | last hinner => exact ⟨⟨_, rfl, hinner⟩, rfl⟩
    · cases h
  · rintro ⟨⟨inner, rfl, hinner⟩, rfl⟩
    rw [List.cons_append, Token.body, List.append_assoc, closeBody_balanced hinner]
    rfl

end Token

end ScriptForge.Script

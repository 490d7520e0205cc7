import ScriptForge.Proofs.Script.Pieces
import ScriptForge.Quality.TextCheck

/-!
# Where the patterns of the text checks match

The names in `new <name> =` and the blocks after `gql` are looked for everywhere in a text. Both
patterns start with a word, blanks and another word (`Hits`). In a script without comments two words
with nothing but blanks between them are rare: behind a name comes a point, a slash, a comma or
another sign. So operands have no such place (`passes_operand`), however deep their calls are
nested, and neither have strings and bodies without the words (`passes_string`, `passes_body`).

`Passes word text rest` is about a text with what follows it, because a word at its end may go on
there; what passes one after the other passes as a whole (`Passes.append`).
-/

namespace ScriptForge.Quality.TextCheck

open Text Script Script.Token

/-! ## Texts that can be read without a grammar -/

/-- Neither word that the checks look for is in a text. -/
structure Harmless (text : List Char) : Prop where
  new : ¬ "new".toList <:+: text
  gql : ¬ "gql".toList <:+: text

/-- A text without comments, and without the words that the checks look for in its strings and
bodies. -/
inductive Legible : List Char → Prop
  | nil : Legible []
  | code {c : Char} {cs : List Char} : c ≠ '"' → c ≠ '\x7b' → ¬ "//".toList <+: c :: cs →
      ¬ "/*".toList <+: c :: cs → Legible cs → Legible (c :: cs)
  | string {text cs : List Char} : IsString text → Harmless text → Legible cs →
      Legible (text ++ cs)
  | body {text cs : List Char} : IsBody text → Harmless text → Legible cs → Legible (text ++ cs)

section

variable {c : Char} {cs text rest gap run : List Char}

theorem Legible.of_cons (h : Legible (c :: cs)) (hquote : c ≠ '"') (hbrace : c ≠ '\x7b') :
    Legible cs ∧ ¬ "//".toList <+: c :: cs ∧ ¬ "/*".toList <+: c :: cs := by
  generalize hall : c :: cs = all at h
  cases h with
  | nil => cases hall
  | code _ _ hline hblock hmore =>
    cases hall
    exact ⟨hmore, hline, hblock⟩
  | string hstring =>
    obtain ⟨body, rfl, -⟩ := hstring
    cases hall
    exact absurd rfl hquote
  | body hbody =>
    obtain ⟨inner, rfl, -⟩ := hbody
    cases hall
    exact absurd rfl hbrace

/-- Code without quotes, opening braces and slashes is legible. -/
theorem legible_append (hrun : ∀ c ∈ run, c ≠ '"' ∧ c ≠ '\x7b' ∧ c ≠ '/') (hrest : Legible rest) :
    Legible (run ++ rest) := by
  induction run with
  | nil => exact hrest
  | cons c run ih =>
    obtain ⟨⟨hquote, hbrace, hslash⟩, hrun⟩ := List.forall_mem_cons.mp hrun
    have hcomment : ∀ d : Char, ¬ ['/', d] <+: c :: (run ++ rest) :=
      fun d hstart => hslash (List.cons_prefix_cons.mp hstart).1.symm
    exact .code hquote hbrace (hcomment '/') (hcomment '*') (ih hrun)

theorem Legible.of_run (h : Legible (run ++ rest)) (hrun : ∀ c ∈ run, c ≠ '"' ∧ c ≠ '\x7b') :
    Legible rest := by
  induction run with
  | nil => exact h
  | cons c run ih =>
    obtain ⟨⟨hquote, hbrace⟩, hrun⟩ := List.forall_mem_cons.mp hrun
    exact ih (h.of_cons hquote hbrace).1 hrun

/-- A gap in a legible text is spaces. -/
theorem Legible.of_gap (h : Legible (gap ++ rest)) (hgap : IsGap gap) :
    (∀ c ∈ gap, isSpace c = true) ∧ Legible rest := by
  induction hgap with
  | nil => exact ⟨by simp, h⟩
  | @space c cs hspace _ ih =>
    have hcode : c ≠ '"' ∧ c ≠ '\x7b' := by
      constructor <;> rintro rfl <;> cases hspace
    obtain ⟨hcs, hrest⟩ := ih (h.of_cons hcode.1 hcode.2).1
    exact ⟨List.forall_mem_cons.mpr ⟨hspace, hcs⟩, hrest⟩
  | line =>
    have hline := (h.of_cons (by decide) (by decide)).2.1
    exact absurd ⟨_, rfl⟩ hline
  | block =>
    have hblock := (h.of_cons (by decide) (by decide)).2.2
    exact absurd ⟨_, rfl⟩ hblock
  | openLine _ hend => cases hend

/-- A string in a legible text is harmless. -/
theorem Legible.of_string (h : Legible (text ++ rest)) (htext : IsString text) :
    Harmless text ∧ Legible rest := by
  have hscan : Token.string (text ++ rest) = some (text, rest) :=
    string_eq_some_iff.mpr ⟨htext, rfl⟩
  obtain ⟨body, rfl, -⟩ := htext
  generalize hall : '"' :: (body ++ ['"']) ++ rest = all at h hscan
  cases h with
  | nil => cases hall
  | code hquote =>
    cases hall
    exact absurd rfl hquote
  | string hstring hharmless hmore =>
    rw [string_eq_some_iff.mpr ⟨hstring, rfl⟩] at hscan
    cases hscan
    exact ⟨hharmless, hmore⟩
  | body hbody =>
    obtain ⟨inner, rfl, -⟩ := hbody
    cases hall

/-- A body in a legible text is harmless. -/
theorem Legible.of_body (h : Legible (text ++ rest)) (htext : IsBody text) :
    Harmless text ∧ Legible rest := by
  have hscan : Token.body (text ++ rest) = some (text, rest) :=
    body_eq_some_iff.mpr ⟨htext, rfl⟩
  obtain ⟨inner, rfl, -⟩ := htext
  generalize hall : '\x7b' :: (inner ++ ['\x7d']) ++ rest = all at h hscan
  cases h with
  | nil => cases hall
  | code _ hbrace =>
    cases hall
    exact absurd rfl hbrace
  | string hstring =>
    obtain ⟨body, rfl, -⟩ := hstring
    cases hall
  | body hbody hharmless hmore =>
    rw [body_eq_some_iff.mpr ⟨hbody, rfl⟩] at hscan
    cases hscan
    exact ⟨hharmless, hmore⟩

end

/-! ## Places where a pattern may match -/

/-- The first characters of a name or a keyword. -/
def startsWord (c : Char) : Bool :=
  c.isAlpha || c == '_'

theorem isDashedChar_of_startsWord {c : Char} (h : startsWord c = true) :
    isDashedChar c = true :=
  isDashedChar_of_isIdentifierChar (isIdentifierChar_of_isAlpha_or h)

/-- The text starts with a word, blanks and another word. -/
def Hits (word cs : List Char) : Prop :=
  ∃ rest, wordThenBlanks? word cs = some rest ∧ ∃ c ∈ rest.head?, startsWord c = true

/-- A pattern that matches nowhere but where a word, blanks and another word stand. -/
def Seeks {α : Type} (word : List Char) (at? : List Char → Option α) : Prop :=
  ∀ cs, ¬ Hits word cs → at? cs = none

theorem seeks_declaredAt? : Seeks "new".toList declaredAt? := by
  intro cs hmiss
  rw [declaredAt?]
  split
  · rename_i c rest hword
    have hc : startsWord c = false :=
      eq_false_of_ne_true fun hc => hmiss ⟨_, hword, c, rfl, hc⟩
    rw [startsWord] at hc
    simp [hc]
  · rfl

theorem seeks_blockAt? : Seeks "gql".toList blockAt? := by
  intro cs hmiss
  rw [blockAt?]
  split
  · rename_i rest hword
    have hnone : ∀ w : List Char, (∃ c ∈ w.head?, startsWord c = true) → after? w rest = none := by
      rintro w ⟨c, hhead, hc⟩
      cases hafter : after? w rest with
      | none => rfl
      | some behind =>
        have hrest : c ∈ rest.head? := by
          rw [after?_eq_some_iff.mp hafter, List.head?_append, hhead]
          rfl
        exact absurd ⟨_, hword, c, hrest, hc⟩ hmiss
    rw [hnone _ ⟨'q', rfl, by decide⟩, hnone _ ⟨'m', rfl, by decide⟩]
  · rfl

/-- The text goes on with no word behind its blanks. -/
def NoWordNext (rest : List Char) : Prop :=
  ∀ c ∈ (trimStart rest).head?, startsWord c = false

theorem hits_iff {word cs : List Char} : Hits word cs ↔ ∃ c rest, cs = word ++ c :: rest ∧
    isBlank c = true ∧ ¬ NoWordNext (c :: rest) := by
  have htrim : ∀ {c : Char} {rest : List Char}, isBlank c = true →
      trimStart (c :: rest) = trimStart rest :=
    fun hc => List.dropWhile_cons_of_pos hc
  rw [Hits]
  unfold wordThenBlanks?
  constructor
  · rintro ⟨rest, hword, d, hd, hstarts⟩
    split at hword
    · rename_i c more hafter
      split at hword
      · rename_i hc
        cases hword
        refine ⟨c, more, after?_eq_some_iff.mp hafter, hc, fun hnone => ?_⟩
        have hd' := hnone d (by rwa [htrim hc])
        rw [hstarts] at hd'
        cases hd'
      · cases hword
    · cases hword
  · rintro ⟨c, rest, rfl, hc, hnext⟩
    rw [after?_eq_some_iff.mpr rfl]
    simp only [NoWordNext, htrim hc, not_forall, Bool.not_eq_false] at hnext
    obtain ⟨d, hd, hstarts⟩ := hnext
    exact ⟨trimStart rest, if_pos hc, d, hd, hstarts⟩

/-- Nowhere in a text, with more behind it, the word stands with blanks and a word behind it. -/
def Misses (word : List Char) : (text rest : List Char) → Prop
  | [], _ => True
  | c :: cs, rest => ¬ Hits word (c :: (cs ++ rest)) ∧ Misses word cs rest

section

variable {word text first second rest run : List Char}

theorem Misses.append (hfirst : Misses word first (second ++ rest))
    (hsecond : Misses word second rest) : Misses word (first ++ second) rest := by
  induction first with
  | nil => exact hsecond
  | cons c first ih =>
    rw [List.cons_append, Misses, List.append_assoc]
    exact ⟨hfirst.1, ih hfirst.2⟩

theorem Misses.of_append (h : Misses word (first ++ second) rest) : Misses word second rest := by
  induction first with
  | nil => exact h
  | cons c first ih => exact ih h.2

theorem not_isAlpha_of_not_isDashedChar {c : Char} (h : isDashedChar c = false) :
    c.isAlpha = false := by
  refine eq_false_of_ne_true fun hc => ?_
  rw [isDashedChar_of_isIdentifierChar (isIdentifierChar_of_isAlpha hc)] at h
  cases h

/-- The words that the checks look for. -/
def IsKeyword (word : List Char) : Prop :=
  word = "new".toList ∨ word = "gql".toList

theorem IsKeyword.ne_nil (h : IsKeyword word) : word ≠ [] := by
  rcases h with rfl | rfl <;> decide

theorem IsKeyword.letters (h : IsKeyword word) : ∀ c ∈ word, c.isAlpha = true := by
  rcases h with rfl | rfl <;> simp

theorem IsKeyword.not_infix (h : IsKeyword word) (htext : Harmless text) : ¬ word <:+: text := by
  rcases h with rfl | rfl
  · exact htext.new
  · exact htext.gql

theorem IsKeyword.dashed (h : IsKeyword word) : ∀ c ∈ word, isDashedChar c = true :=
  fun c hc => isDashedChar_of_isIdentifierChar (isIdentifierChar_of_isAlpha (h.letters c hc))

/-- No word starts with a character that is no letter. -/
theorem IsKeyword.not_hits (h : IsKeyword word) {c : Char} (hc : c.isAlpha = false)
    (cs : List Char) : ¬ Hits word (c :: cs) := by
  intro hhits
  obtain ⟨d, more, heq, -⟩ := hits_iff.mp hhits
  obtain ⟨w, word, rfl⟩ := List.exists_cons_of_ne_nil h.ne_nil
  cases heq
  rw [h.letters c (List.mem_cons_self)] at hc
  cases hc

theorem IsKeyword.misses_of_forall (h : IsKeyword word) (htext : ∀ c ∈ text, c.isAlpha = false) :
    Misses word text rest := by
  induction text with
  | nil => trivial
  | cons c text ih =>
    obtain ⟨hc, htext⟩ := List.forall_mem_cons.mp htext
    exact ⟨h.not_hits hc _, ih htext⟩

/-- A word that is nowhere in a text does not start in it either, if the text ends with a sign. -/
theorem IsKeyword.misses_of_not_infix (h : IsKeyword word) {c : Char}
    (hc : isDashedChar c = false) (htext : ¬ word <:+: text ++ [c]) :
    Misses word (text ++ [c]) rest := by
  induction text with
  | nil => exact h.misses_of_forall (by simpa using not_isAlpha_of_not_isDashedChar hc)
  | cons d text ih =>
    refine ⟨fun hhits => ?_, ih fun hinside => htext (hinside.trans (List.suffix_cons d _).isInfix)⟩
    obtain ⟨e, more, heq, -⟩ := hits_iff.mp hhits
    rw [← List.cons_append] at heq
    rcases List.append_eq_append_iff.mp heq with ⟨behind, rfl, -⟩ | ⟨behind, hall, -⟩
    · have hmem : c ∈ d :: (text ++ [c]) ++ behind := by simp
      rw [h.dashed c hmem] at hc
      cases hc
    · exact htext ⟨[], behind, hall.symm⟩

/-- A word stands in a run of its characters only at the end. -/
theorem IsKeyword.misses_run (h : IsKeyword word) (hrun : ∀ c ∈ run, isDashedChar c = true)
    (hstops : Stops isDashedChar rest) (hnext : word <:+ run → NoWordNext rest) :
    Misses word run rest := by
  induction run with
  | nil => trivial
  | cons c run ih =>
    refine ⟨fun hhits => ?_, ih (List.forall_mem_cons.mp hrun).2
      fun hsuffix => hnext (hsuffix.trans (List.suffix_cons c run))⟩
    obtain ⟨d, more, heq, hd, hword⟩ := hits_iff.mp hhits
    have hd : Stops isDashedChar (d :: more) := stops_cons.mpr <| eq_false_of_ne_true fun hdashed =>
      absurd hd (by rw [not_isBlank_of_isDashedChar hdashed]; exact Bool.false_ne_true)
    rw [← List.cons_append] at heq
    obtain ⟨hall, rfl⟩ := run_unique hrun hstops h.dashed hd heq
    exact hword (hnext (hall ▸ List.suffix_rfl))

end

/-! ## Texts without such a place -/

/-- A text in front of another one has no place where the word could match, and what is legible
stays so behind it. -/
def Passes (word text rest : List Char) : Prop :=
  Legible (text ++ rest) → Misses word text rest ∧ Legible rest

/-- What follows a word and does not go on with it, nor with blanks and another word. -/
structure Ends (rest : List Char) : Prop where
  stops : Stops isDashedChar rest
  noWordNext : NoWordNext rest

section

variable {word text first second gap rest run : List Char} {c : Char}

theorem Passes.append (hfirst : Passes word first (second ++ rest))
    (hsecond : Passes word second rest) : Passes word (first ++ second) rest := by
  intro h
  rw [List.append_assoc] at h
  obtain ⟨hmisses, hmore⟩ := hfirst h
  obtain ⟨hmisses', hrest⟩ := hsecond hmore
  exact ⟨hmisses.append hmisses', hrest⟩

theorem ends_cons (hdashed : isDashedChar c = false) (hblank : isBlank c = false) :
    Ends (c :: rest) := by
  refine ⟨stops_cons.mpr hdashed, ?_⟩
  rw [NoWordNext, trimStart_cons_of_not_blank hblank]
  rintro _ ⟨⟩
  have hunder : c ≠ '_' := by
    rintro rfl
    cases hdashed
  simp [startsWord, not_isAlpha_of_not_isDashedChar hdashed, hunder]

theorem isBlank_of_isSpace (h : isSpace c = true) : isBlank c = true := by
  simp only [isSpace, Bool.or_eq_true, beq_iff_eq] at h
  rcases h with ((rfl | rfl) | rfl) | rfl <;> decide

theorem ends_gap (h : Legible (gap ++ rest)) (hgap : IsGap gap) (hrest : Ends rest) :
    Ends (gap ++ rest) := by
  refine ⟨stops_append hgap hrest.stops, ?_⟩
  have hblank : ∀ c ∈ gap, isBlank c = true :=
    fun c hc => isBlank_of_isSpace ((h.of_gap hgap).1 c hc)
  rw [NoWordNext, trimStart, List.dropWhile_append_of_pos hblank]
  exact hrest.noWordNext

theorem code_of_isDashedChar (h : isDashedChar c = true) : c ≠ '"' ∧ c ≠ '\x7b' := by
  constructor <;> rintro rfl <;> cases h

variable (hword : IsKeyword word)

include hword

theorem passes_gap (hgap : IsGap gap) : Passes word gap rest := by
  intro h
  obtain ⟨hspaces, hrest⟩ := h.of_gap hgap
  exact ⟨hword.misses_of_forall fun c hc =>
    not_isAlpha_of_not_isDashedChar (isDashedChar_of_isSpace (hspaces c hc)), hrest⟩

theorem passes_signs (htext : ∀ c ∈ text, c.isAlpha = false ∧ c ≠ '"' ∧ c ≠ '\x7b') :
    Passes word text rest :=
  fun h => ⟨hword.misses_of_forall fun c hc => (htext c hc).1,
    h.of_run fun c hc => (htext c hc).2⟩

theorem passes_sign (hsign : c.isAlpha = false ∧ c ≠ '"' ∧ c ≠ '\x7b') : Passes word [c] rest :=
  passes_signs hword (by simpa using hsign)

theorem passes_run (hrun : ∀ c ∈ run, isDashedChar c = true)
    (hstops : Legible rest → Stops isDashedChar rest)
    (hnext : Legible rest → word <:+ run → NoWordNext rest) : Passes word run rest := by
  intro h
  have hrest := h.of_run fun c hc => code_of_isDashedChar (hrun c hc)
  exact ⟨hword.misses_run hrun (hstops hrest) (hnext hrest), hrest⟩

theorem passes_name (hrun : ∀ c ∈ run, isDashedChar c = true) (hends : Legible rest → Ends rest) :
    Passes word run rest :=
  passes_run hword hrun (fun h => (hends h).stops) fun h _ => (hends h).noWordNext

theorem passes_string (htext : IsString text) : Passes word text rest := by
  intro h
  obtain ⟨hharmless, hrest⟩ := h.of_string htext
  obtain ⟨body, rfl, -⟩ := htext
  have hmisses : Misses word (('"' :: body) ++ ['"']) rest :=
    hword.misses_of_not_infix (by decide) (hword.not_infix hharmless)
  exact ⟨hmisses, hrest⟩

theorem passes_body (htext : IsBody text) : Passes word text rest := by
  intro h
  obtain ⟨hharmless, hrest⟩ := h.of_body htext
  obtain ⟨inner, rfl, -⟩ := htext
  have hmisses : Misses word (('\x7b' :: inner) ++ ['\x7d']) rest :=
    hword.misses_of_not_infix (by decide) (hword.not_infix hharmless)
  exact ⟨hmisses, hrest⟩

end

/-! ## Operands -/

section

variable {word text rest : List Char} {p : Position}

theorem code_of_isDigit {c : Char} (h : c.isDigit = true) :
    c.isAlpha = false ∧ c ≠ '"' ∧ c ≠ '\x7b' := by
  refine ⟨eq_false_of_ne_true (not_isAlpha_of_isDigit h), ?_, ?_⟩ <;> rintro rfl <;> cases h

theorem code_of_isNumber (h : IsNumber text) :
    ∀ c ∈ text, c.isAlpha = false ∧ c ≠ '"' ∧ c ≠ '\x7b' := by
  obtain ⟨sign, whole, fraction, rfl, hsign, hwhole, hfraction⟩ := h
  have hdigits : ∀ {text : List Char}, IsDigits text →
      ∀ c ∈ text, c.isAlpha = false ∧ c ≠ '"' ∧ c ≠ '\x7b' :=
    fun htext c hc => code_of_isDigit (IsName.all htext (fun _ => id) c hc)
  refine List.forall_mem_append.mpr ⟨?_, List.forall_mem_append.mpr ⟨hdigits hwhole, ?_⟩⟩
  · rcases hsign with rfl | rfl <;> simp
  · rcases hfraction with rfl | ⟨digits, rfl, htext⟩
    · simp
    · exact List.forall_mem_cons.mpr ⟨by decide, hdigits htext⟩

theorem ends_path {path : List (List Char)} (hends : Legible rest → Ends rest)
    (h : Legible (path.flatMap ('.' :: ·) ++ rest)) : Ends (path.flatMap ('.' :: ·) ++ rest) := by
  cases path with
  | nil => exact hends h
  | cons field path => exact ends_cons (by decide) (by decide)

variable (hword : IsKeyword word)

include hword

theorem IsPlainName.passes (h : IsPlainName text) (hends : Legible rest → Ends rest) :
    Passes word text rest :=
  passes_name hword
    (fun c hc => isDashedChar_of_isIdentifierChar (Script.Token.IsPlainName.all h c hc)) hends

theorem passes_path {path : List (List Char)} (hpath : ∀ field ∈ path, IsPlainName field)
    (hends : Legible rest → Ends rest) : Passes word (path.flatMap ('.' :: ·)) rest := by
  induction path with
  | nil => exact fun h => ⟨trivial, h⟩
  | cons field path ih =>
    obtain ⟨hfield, hpath⟩ := List.forall_mem_cons.mp hpath
    exact (passes_sign hword (by decide)).append
      ((IsPlainName.passes hword hfield (ends_path hends)).append (ih hpath))

theorem passes_literal {literal : Literal} (h : RendersLiteral literal text)
    (hends : Legible rest → Ends rest) : Passes word text rest := by
  cases h with
  | string htext => exact passes_string hword htext
  | number htext => exact passes_signs hword (code_of_isNumber htext)
  | boolean htext =>
    refine passes_name hword ?_ hends
    rcases htext with rfl | rfl <;> exact List.all_eq_true.mp (by decide)

theorem passes_reference {reference : Reference} (h : RendersReference p reference text)
    (hends : Legible rest → Ends rest) : Passes word text rest := by
  cases h with
  | mk hname hpath =>
    exact (IsPlainName.passes hword hname.1 (ends_path hends)).append
      (passes_path hword hpath hends)

theorem passes_callee {callee : Callee} (h : RendersCallee callee text)
    (hends : Legible rest → Ends rest) : Passes word text rest := by
  cases h with
  | mk hplugin hextension hfunction =>
    refine (passes_name hword hplugin.all fun _ => ends_cons (by decide) (by decide)).append ?_
    refine (passes_sign hword (by decide)).append ?_
    refine (IsPlainName.passes hword hextension
      fun _ => ends_cons (by decide) (by decide)).append ?_
    exact (passes_sign hword (by decide)).append (IsPlainName.passes hword hfunction hends)

mutual

/-- Nowhere in an operand two words stand with nothing but blanks between them. -/
theorem passes_operand : ∀ {p : Position} {value : Expression} {text rest : List Char},
    RendersOperand p value text → (Legible rest → Ends rest) → Passes word text rest
  | _, _, _, _, .literal h, hends => passes_literal hword h hends
  | _, _, _, _, .reference h, hends => passes_reference hword h hends
  | _, _, _, _, .call hname hgap harguments, hends => by
    refine (passes_callee hword hname fun h => ?_).append ((passes_gap hword hgap).append ?_)
    · rw [List.append_assoc] at h ⊢
      exact ends_gap h hgap (ends_cons (by decide) (by decide))
    · exact (passes_sign hword (by decide)).append
        ((passes_arguments harguments).append (passes_sign hword (by decide)))

theorem passes_arguments : ∀ {p : Position} {values : List Expression} {text rest : List Char},
    RendersArguments RendersOperand p values text → Passes word text (')' :: rest)
  | _, _, _, _, .none hgap => passes_gap hword hgap
  | _, _, _, _, .one hbefore hvalue hbehind =>
    (passes_gap hword hbefore).append
      ((passes_operand hvalue
        fun h => ends_gap h hbehind (ends_cons (by decide) (by decide))).append
          (passes_gap hword hbehind))
  | _, _, _, _, .more hbefore hvalue hbehind hmore => by
    refine (passes_gap hword hbefore).append ((passes_operand hvalue fun h => ?_).append ?_)
    · rw [List.append_assoc] at h ⊢
      exact ends_gap h hbehind (ends_cons (by decide) (by decide))
    · exact (passes_gap hword hbehind).append
        ((passes_sign hword (by decide)).append (passes_arguments hmore))

end

end

end ScriptForge.Quality.TextCheck

import ScriptForge.Proofs.Quality.Matches

/-!
# What the patterns match

The three patterns of the checks on the text are alike: a word, blanks, a second word, and a sign
with blanks in front of it or none (`TwoWords`). A pattern matches where such a text stands, and
nowhere else (`definesService_iff`, `declaredAt?_eq_some_iff`, `blockAt?_eq_some_iff`).
-/

namespace ScriptForge.Quality.TextCheck

open Text Script Script.Token

/-- A word, blanks, a second word, blanks or none, and a sign. -/
inductive TwoWords (word name : List Char) (sign : Char) : List Char → Prop
  | mk {gap behind : List Char} : (∀ c ∈ gap, isBlank c = true) → gap ≠ [] →
      (∀ c ∈ behind, isBlank c = true) →
      TwoWords word name sign (word ++ (gap ++ (name ++ (behind ++ [sign]))))

section

variable {word name text cs rest : List Char} {sign x : Char}

theorem TwoWords.not_mem (h : TwoWords word name sign text) (hword : x ∉ word)
    (hblank : isBlank x = false) (hname : x ∉ name) (hsign : x ≠ sign) : x ∉ text := by
  obtain ⟨hgap, -, hbehind⟩ := h
  have hgap : x ∉ _ := fun hmem => Bool.false_ne_true (hblank.symm.trans (hgap x hmem))
  have hbehind : x ∉ _ := fun hmem => Bool.false_ne_true (hblank.symm.trans (hbehind x hmem))
  simp [hword, hgap, hname, hbehind, hsign]

/-- The sign stands at the end, and nowhere else. -/
theorem TwoWords.exists_concat (h : TwoWords word name sign text) (hword : sign ∉ word)
    (hblank : isBlank sign = false) (hname : sign ∉ name) :
    ∃ body, text = body ++ [sign] ∧ sign ∉ body := by
  obtain @⟨gap, behind, hgap, -, hbehind⟩ := h
  have hgap : sign ∉ gap := fun hmem => Bool.false_ne_true (hblank.symm.trans (hgap _ hmem))
  have hbehind : sign ∉ behind :=
    fun hmem => Bool.false_ne_true (hblank.symm.trans (hbehind _ hmem))
  exact ⟨word ++ (gap ++ (name ++ behind)), by simp, by simp [hword, hgap, hname, hbehind]⟩

theorem head?_trimStart : ∀ c ∈ (trimStart cs).head?, isBlank c = false := by
  intro c hc
  have hnot := List.head?_dropWhile_not isBlank cs
  rw [show (cs.dropWhile isBlank).head? = some c from hc] at hnot
  simpa using hnot

theorem takeWhile_append_trimStart (cs : List Char) :
    cs.takeWhile isBlank ++ trimStart cs = cs :=
  List.takeWhile_append_dropWhile

theorem isBlank_of_mem_takeWhile : ∀ c ∈ cs.takeWhile isBlank, isBlank c = true :=
  fun _ hc => List.mem_takeWhile_imp hc

theorem wordThenBlanks?_eq_some_iff : wordThenBlanks? word cs = some rest ↔
    ∃ gap, cs = word ++ (gap ++ rest) ∧ (∀ c ∈ gap, isBlank c = true) ∧ gap ≠ [] ∧
      ∀ c ∈ rest.head?, isBlank c = false := by
  constructor
  · intro h
    unfold wordThenBlanks? at h
    split at h
    · rename_i c more hafter
      split at h
      · rename_i hc
        cases h
        refine ⟨c :: more.takeWhile isBlank, ?_, List.forall_mem_cons.mpr
          ⟨hc, isBlank_of_mem_takeWhile⟩, List.cons_ne_nil _ _, head?_trimStart⟩
        rw [List.cons_append, takeWhile_append_trimStart]
        exact after?_eq_some_iff.mp hafter
      · cases h
    · cases h
  · rintro ⟨gap, rfl, hgap, hne, hrest⟩
    exact wordThenBlanks?_append hgap hne hrest

/-- A name does not go on with blanks. -/
theorem stops_of_blanks {behind : List Char} (hbehind : ∀ c ∈ behind, isBlank c = true)
    (hsign : isDashedChar sign = false) : Stops isDashedChar (behind ++ sign :: rest) := by
  cases behind with
  | nil => exact stops_cons.mpr hsign
  | cons c behind =>
    refine stops_cons.mpr (eq_false_of_ne_true fun hc => ?_)
    have hblank := hbehind c List.mem_cons_self
    rw [not_isBlank_of_isDashedChar hc] at hblank
    cases hblank

/-- A sign behind blanks, or behind none. -/
theorem head?_trimStart_eq_some_iff : (trimStart cs).head? = some sign ↔
    isBlank sign = false ∧ ∃ behind rest, cs = behind ++ sign :: rest ∧
      ∀ c ∈ behind, isBlank c = true := by
  constructor
  · intro h
    refine ⟨head?_trimStart sign h, cs.takeWhile isBlank, (trimStart cs).tail, ?_,
      isBlank_of_mem_takeWhile⟩
    rw [List.cons_head?_tail h, takeWhile_append_trimStart]
  · rintro ⟨hsign, behind, rest, rfl, hbehind⟩
    rw [trimStart_append hbehind hsign]
    rfl

end

/-! ## Services -/

section

variable {name header cs rest : List Char}

/-- A header as the check of services looks for it. -/
def IsHeader (header : List Char) : Prop :=
  ∃ name, IsName Char.isAlpha isHyphenatedChar name ∧
    TwoWords "service".toList name '\x7b' header

theorem startsService_iff :
    startsService cs = true ↔ ∃ header, IsHeader header ∧ header <+: cs := by
  constructor
  · intro h
    unfold startsService at h
    split at h
    · rename_i c more hword
      obtain ⟨gap, rfl, hgap, hne, -⟩ := wordThenBlanks?_eq_some_iff.mp hword
      rw [Bool.and_eq_true, beq_iff_eq, head?_trimStart_eq_some_iff] at h
      obtain ⟨hc, -, behind, rest, hmore, hbehind⟩ := h
      refine ⟨_, ⟨c :: more.takeWhile isHyphenatedChar, ⟨c, _, rfl, hc, ?_⟩,
        .mk hgap hne hbehind⟩, rest, ?_⟩
      · exact fun d hd => List.mem_takeWhile_imp hd
      · have hsplit : more = more.takeWhile isHyphenatedChar ++ (behind ++ '\x7b' :: rest) := by
          rw [← hmore, List.takeWhile_append_dropWhile]
        conv_rhs => rw [hsplit]
        simp only [List.append_assoc, List.cons_append, List.nil_append]
    · cases h
  · rintro ⟨_, ⟨_, ⟨c, name, rfl, hc, hname⟩, @⟨gap, behind, hgap, hne, hbehind⟩⟩, rest, rfl⟩
    have hblank : ∀ d ∈ (c :: name ++ (behind ++ '\x7b' :: rest)).head?, isBlank d = false := by
      rintro _ ⟨⟩
      exact not_isBlank_of_isDashedChar
        (isDashedChar_of_isIdentifierChar (isIdentifierChar_of_isAlpha hc))
    have hstops : Stops isHyphenatedChar (behind ++ '\x7b' :: rest) :=
      (stops_of_blanks hbehind (by decide)).imp fun _ => isDashedChar_of_isHyphenatedChar
    have hassoc : "service".toList ++ (gap ++ (c :: name ++ (behind ++ ['\x7b']))) ++ rest =
        "service".toList ++ (gap ++ (c :: name ++ (behind ++ '\x7b' :: rest))) := by
      simp only [List.append_assoc, List.cons_append, List.nil_append]
    rw [hassoc, startsService, wordThenBlanks?_append hgap hne hblank]
    simp only [List.cons_append, hc, dropWhile_of_stops hname hstops,
      trimStart_append hbehind (show isBlank '\x7b' = false by decide)]
    rfl

/-- A text defines a service if there is a header in it. -/
theorem definesService_iff :
    definesService cs = true ↔ ∃ header, IsHeader header ∧ header <:+: cs := by
  induction cs with
  | nil =>
    constructor
    · intro h
      cases h
    · rintro ⟨_, ⟨_, -, ⟨⟩⟩, hinside⟩
      simp at hinside
  | cons c cs ih =>
    rw [definesService, Bool.or_eq_true, startsService_iff, ih]
    simp only [List.infix_cons_iff, and_or_left, exists_or]

end

/-! ## Declared names -/

section

variable {name cs rest : List Char} {x : Char}

theorem declaredAt?_eq_some_iff : declaredAt? cs = some name ↔
    IsName startsWord isDashedChar name ∧
      ∃ phrase, TwoWords "new".toList name '=' phrase ∧ phrase <+: cs := by
  constructor
  · intro h
    unfold declaredAt? at h
    split at h
    · rename_i c more hword
      obtain ⟨gap, rfl, hgap, hne, -⟩ := wordThenBlanks?_eq_some_iff.mp hword
      split at h
      · rename_i hname
        cases h
        rw [Bool.and_eq_true, beq_iff_eq, head?_trimStart_eq_some_iff] at hname
        obtain ⟨hc, -, behind, rest, hmore, hbehind⟩ := hname
        refine ⟨⟨c, _, rfl, hc, fun d hd => List.mem_takeWhile_imp hd⟩, _,
          .mk hgap hne hbehind, rest, ?_⟩
        have hsplit : more = more.takeWhile isDashedChar ++ (behind ++ '=' :: rest) := by
          rw [← hmore, List.takeWhile_append_dropWhile]
        conv_rhs => rw [hsplit]
        simp only [List.append_assoc, List.cons_append, List.nil_append]
      · cases h
    · cases h
  · rintro ⟨hname, _, @⟨gap, behind, hgap, hne, hbehind⟩, rest, rfl⟩
    simp only [List.append_assoc, List.cons_append, List.nil_append]
    exact declaredAt?_append hname hgap hne hbehind (stops_of_blanks hbehind (by decide))

/-- A character that no pattern matches. -/
structure IsForeign (x : Char) : Prop where
  not_dashed : isDashedChar x = false
  not_blank : isBlank x = false
  ne_equals : x ≠ '='
  ne_brace : x ≠ '\x7b'

theorem IsForeign.not_mem {word : List Char} (hx : IsForeign x)
    (hword : ∀ c ∈ word, isDashedChar c = true) : x ∉ word :=
  fun hmem => Bool.false_ne_true (hx.not_dashed.symm.trans (hword x hmem))

/-- A declared name is found in front of a foreign character as if the text ended there. -/
theorem declaredAt?_append_cons (hx : IsForeign x) :
    declaredAt? (cs ++ x :: rest) = declaredAt? cs := by
  refine Option.ext fun name => ?_
  rw [declaredAt?_eq_some_iff, declaredAt?_eq_some_iff]
  refine and_congr_right fun hname => exists_congr fun phrase => and_congr_right fun hphrase => ?_
  exact prefix_append_cons_iff (hphrase.not_mem (hx.not_mem (IsKeyword.dashed (.inl rfl)))
    hx.not_blank (hx.not_mem (hname.all fun _ => isDashedChar_of_startsWord)) hx.ne_equals)

theorem lineOfName_append_of_declaredAt? (h : declaredAt? cs = some name) (line : Nat) :
    lineOfName line (cs ++ rest) = lineOfName line cs := by
  obtain ⟨⟨c, more, rfl, hc, -⟩, _, @⟨gap, behind, hgap, hne, hbehind⟩, back, rfl⟩ :=
    declaredAt?_eq_some_iff.mp h
  have hblank : isBlank c = false := not_isBlank_of_isDashedChar (isDashedChar_of_startsWord hc)
  simp only [List.append_assoc]
  rw [lineOfName_append hgap (by rintro _ ⟨⟩; exact hblank),
    lineOfName_append hgap (by rintro _ ⟨⟩; exact hblank)]

/-- No declaration reaches over a foreign character. -/
theorem declarations_append_cons (hx : IsForeign x) (inWord : Bool) (line : Nat) :
    declarations inWord line (cs ++ x :: rest) = declarations inWord line cs ++
      declarations (isWordChar x) (lineAfter (cs.foldl lineAfter line) x) rest := by
  induction cs generalizing inWord line with
  | nil =>
    have hnone : declaredAt? (x :: rest) = none :=
      @declaredAt?_append_cons [] rest x hx
    simp [declarations, hnone]
  | cons c cs ih =>
    rw [List.cons_append, declarations, declarations, ih]
    cases inWord with
    | true => rfl
    | false =>
      rw [← List.cons_append, declaredAt?_append_cons hx]
      cases hat : declaredAt? (c :: cs) with
      | none => rfl
      | some name =>
        rw [lineOfName_append_of_declaredAt? hat]
        rfl

end

/-! ## Blocks -/

section

variable {opener body cs rest : List Char} {operation : Operation} {block : Block} {c x : Char}

/-- The opening of a block as the check of blocks looks for it. -/
def IsOpener (operation : Operation) : List Char → Prop :=
  TwoWords "gql".toList operation.word '\x7b'

theorem IsOpener.not_mem (h : IsOpener operation opener) (hx : IsForeign x) : x ∉ opener :=
  TwoWords.not_mem h (hx.not_mem (IsKeyword.dashed (.inr rfl))) hx.not_blank
    (hx.not_mem (Operation.isDashedChar_of_mem_word operation)) hx.ne_brace

theorem blockBody?_eq_some_iff {total : Nat} : blockBody? operation total cs = some block ↔
    ∃ gap rest, cs = gap ++ '\x7b' :: (block.body ++ '\x7d' :: rest) ∧
      (∀ c ∈ gap, isBlank c = true) ∧ '\x7d' ∉ block.body ∧
      block = ⟨operation, block.body, total - rest.length⟩ := by
  constructor
  · intro h
    unfold blockBody? at h
    split at h
    · rename_i more htrim
      split at h
      · rename_i body behind hsplit
        cases h
        obtain ⟨rfl, hbody⟩ := splitAtFirst?_eq_some_iff.mp hsplit
        refine ⟨cs.takeWhile isBlank, behind, ?_, isBlank_of_mem_takeWhile, hbody, rfl⟩
        rw [← htrim, takeWhile_append_trimStart]
      · cases h
    · cases h
  · rintro ⟨gap, rest, rfl, hgap, hbody, hblock⟩
    rw [blockBody?_append operation total hgap hbody]
    exact congrArg some hblock.symm

/-- A block is found where its opening stands with a closing brace somewhere behind it. -/
theorem blockAt?_eq_some_iff : blockAt? cs = some block ↔
    ∃ opener rest, IsOpener block.operation opener ∧
      cs = opener ++ (block.body ++ '\x7d' :: rest) ∧ '\x7d' ∉ block.body ∧
      block.length = (opener ++ (block.body ++ ['\x7d'])).length := by
  constructor
  · intro h
    obtain ⟨operation, more, hword, hbody⟩ : ∃ operation more,
        wordThenBlanks? "gql".toList cs = some (operation.word ++ more) ∧
          blockBody? operation cs.length more = some block := by
      unfold blockAt? at h
      split at h
      · rename_i found hword
        split at h
        · rename_i more hafter
          exact ⟨.query, more, by rw [hword, after?_eq_some_iff.mp hafter]; rfl, h⟩
        · rename_i more hafter _
          exact ⟨.mutation, more, by rw [hword, after?_eq_some_iff.mp hafter]; rfl, h⟩
        · cases h
      · cases h
    obtain ⟨before, rfl, hbefore, hne, -⟩ := wordThenBlanks?_eq_some_iff.mp hword
    obtain ⟨gap, rest, rfl, hgap, hinner, hblock⟩ := blockBody?_eq_some_iff.mp hbody
    have hoperation : block.operation = operation := congrArg Block.operation hblock
    refine ⟨_, rest, .mk hbefore hne hgap, ?_, hinner, (congrArg Block.length hblock).trans ?_⟩
    · simp only [hoperation, List.append_assoc, List.cons_append, List.nil_append]
    · simp only [hoperation, List.length_append, List.length_cons, List.length_nil]
      omega
  · rintro ⟨_, rest, @⟨before, gap, hbefore, hne, hgap⟩, rfl, hbody, hlength⟩
    obtain ⟨operation, body, length⟩ := block
    dsimp only at hbody hlength ⊢
    subst hlength
    simpa using @blockAt?_append body rest before gap operation hbefore hne hgap hbody

theorem blocksSeen_cons (h : blockAt? (c :: cs) = none) (line : Nat) :
    blocksSeen line (c :: cs) = blocksSeen (lineAfter line c) cs := by
  rw [blocksSeen, blocks, h]
  rfl

/-- A block is seen where it opens, and the next one behind its closing brace. -/
theorem blocksSeen_block (hopener : IsOpener operation opener) (hbody : '\x7d' ∉ body)
    (line : Nat) : blocksSeen line (opener ++ (body ++ '\x7d' :: rest)) =
      (operation, body.all isBlank, line) ::
        blocksSeen ((opener ++ (body ++ ['\x7d'])).foldl lineAfter line) rest := by
  have hat : blockAt? (opener ++ (body ++ '\x7d' :: rest)) =
      some ⟨operation, body, (opener ++ (body ++ ['\x7d'])).length⟩ :=
    blockAt?_eq_some_iff.mpr ⟨opener, rest, hopener, rfl, hbody, rfl⟩
  have hassoc : opener ++ (body ++ '\x7d' :: rest) = (opener ++ (body ++ ['\x7d'])) ++ rest := by
    simp only [List.append_assoc, List.cons_append, List.nil_append]
  rw [hassoc] at hat ⊢
  cases htaken : opener ++ (body ++ ['\x7d']) with
  | nil => simp at htaken
  | cons c taken =>
    rw [htaken, List.cons_append] at hat
    rw [List.cons_append, blocksSeen, blocks, hat]
    simp only [List.length_cons, Nat.add_sub_cancel, blocks_skip]
    rfl

theorem IsOpener.ne_nil (h : IsOpener operation opener) : opener ≠ [] := by
  obtain ⟨-, -, -⟩ := h
  exact List.cons_ne_nil _ _

/-- No block is found where none opens. -/
theorem blockAt?_of_opens_none
    (h : ∀ operation opener, IsOpener operation opener → ¬ opener <+: cs) :
    blockAt? cs = none := by
  refine Option.eq_none_iff_forall_ne_some.mpr fun block hat => ?_
  obtain ⟨opener, more, hopener, heq, -⟩ := blockAt?_eq_some_iff.mp hat
  exact h _ _ hopener ⟨_, heq.symm⟩

/-- No opening reaches over a foreign character. -/
theorem blockAt?_append_cons (hx : IsForeign x)
    (h : ∀ operation opener, IsOpener operation opener → ¬ opener <+: cs) :
    blockAt? (cs ++ x :: rest) = none :=
  blockAt?_of_opens_none fun operation opener hopener hstart =>
    h operation opener hopener ((prefix_append_cons_iff (hopener.not_mem hx)).mp hstart)

/-- A block that is never closed is not found. -/
theorem blocksSeen_of_unclosed (h : '\x7d' ∉ cs) (line : Nat) : blocksSeen line cs = [] := by
  induction cs generalizing line with
  | nil => rfl
  | cons c cs ih =>
    have hnone : blockAt? (c :: cs) = none := by
      refine Option.eq_none_iff_forall_ne_some.mpr fun block hat => ?_
      obtain ⟨opener, rest, -, heq, -⟩ := blockAt?_eq_some_iff.mp hat
      rw [heq] at h
      simp at h
    rw [blocksSeen_cons hnone]
    exact ih (fun hmem => h (List.mem_cons_of_mem c hmem)) _

/-- A text as the check of blocks goes through it: a character where no block opens, a block up to
its closing brace, or an opening behind which there is no such brace. -/
inductive Scanned : List Char → Prop
  | nil : Scanned []
  | next {c : Char} {rest : List Char} :
      (∀ operation opener, IsOpener operation opener → ¬ opener <+: c :: rest) →
      Scanned rest → Scanned (c :: rest)
  | block {operation : Operation} {opener body rest : List Char} :
      IsOpener operation opener → '\x7d' ∉ body → Scanned rest →
      Scanned (opener ++ (body ++ '\x7d' :: rest))
  | unclosed {operation : Operation} {opener rest : List Char} :
      IsOpener operation opener → '\x7d' ∉ rest → Scanned (opener ++ rest)

theorem scanned (text : List Char) : Scanned text := by
  induction hlength : text.length using Nat.strong_induction_on generalizing text with
  | h n ih =>
  subst hlength
  by_cases hopens : ∃ operation opener, IsOpener operation opener ∧ opener <+: text
  · obtain ⟨operation, opener, hopener, more, rfl⟩ := hopens
    by_cases hmore : '\x7d' ∈ more
    · obtain ⟨body, rest, rfl, hbody⟩ := List.eq_append_cons_of_mem hmore
      exact .block hopener hbody (ih rest.length (by simp; omega) rest rfl)
    · exact .unclosed hopener hmore
  · cases text with
    | nil => exact .nil
    | cons c rest =>
      refine .next (fun operation opener hopener hstart => ?_)
        (ih rest.length (Nat.lt_succ_self _) rest rfl)
      exact hopens ⟨operation, opener, hopener, hstart⟩

end

end ScriptForge.Quality.TextCheck

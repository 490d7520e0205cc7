import ScriptForge.Proofs.Quality.Scans
import ScriptForge.Proofs.Script.Occurrences
import ScriptForge.Proofs.Text.Search

/-!
# What the text checks find in a statement

In a legible text a statement has the match of `new <name> =` that its kind calls for, and no other
(`declarations_kind`), and so with the block that is its value (`blocksSeen_kind`). The block in the
text ends at the first closing brace, which may be that of a string or of braces inside the body; it
is blank exactly if the whole body is (`all_isBlank_iff`).
-/

namespace ScriptForge.Quality.TextCheck

open Text Script Script.Token

/-! ## Scanning past a text -/

section

variable {text rest : List Char}

theorem foldl_lineAfter (p : Position) (text : List Char) :
    text.foldl lineAfter p.line = (p.afterText text).line := by
  induction text generalizing p with
  | nil => rfl
  | cons c text ih =>
    have hline : lineAfter p.line c = (p.after c).line := by
      unfold lineAfter Position.after
      split <;> rfl
    rw [List.foldl_cons, hline, ih, Position.afterText_cons]

theorem foldl_lineAfter_eq_add (text : List Char) (line : Nat) :
    text.foldl lineAfter line = line + text.count '\n' := by
  induction text generalizing line with
  | nil => rfl
  | cons c text ih =>
    rw [List.foldl_cons, ih, lineAfter, List.count_cons]
    by_cases hc : c = '\n' <;> simp [hc]
    omega

theorem foldl_lineAfter_of_not_mem {line : Nat} (h : '\n' ∉ text) :
    text.foldl lineAfter line = line := by
  rw [foldl_lineAfter_eq_add, List.count_eq_zero.mpr h, Nat.add_zero]

theorem declarations_append (h : Misses "new".toList text rest) (inWord : Bool) (line : Nat) :
    declarations inWord line (text ++ rest) =
      declarations (text.foldl (fun _ c => isWordChar c) inWord) (text.foldl lineAfter line)
        rest := by
  induction text generalizing inWord line with
  | nil => rfl
  | cons c text ih =>
    rw [List.cons_append, declarations, seeks_declaredAt? _ h.1, ih h.2]
    simp

theorem blocks_append (h : Misses "gql".toList text rest) (line : Nat) :
    blocks 0 line (text ++ rest) = blocks 0 (text.foldl lineAfter line) rest := by
  induction text generalizing line with
  | nil => rfl
  | cons c text ih =>
    rw [List.cons_append, blocks, seeks_blockAt? _ h.1]
    exact ih h.2 _

theorem blocks_skip (text rest : List Char) (line : Nat) :
    blocks text.length line (text ++ rest) = blocks 0 (text.foldl lineAfter line) rest := by
  induction text generalizing line with
  | nil => rfl
  | cons c text ih => exact ih _

end

/-! ## Blocks -/

section

variable {inner first behind rest : List Char}

/-- Up to the first closing brace there is nothing but blanks exactly if the whole body is blank. -/
theorem all_isBlank_iff (hinner : Balanced inner)
    (hsplit : inner ++ ['\x7d'] = first ++ '\x7d' :: behind) :
    (∀ c ∈ first, isBlank c = true) ↔ ∀ c ∈ inner, isBlank c = true := by
  have hlength := congrArg List.length hsplit
  simp only [List.length_append, List.length_cons, List.length_nil] at hlength
  constructor
  · intro hfirst
    rcases behind.eq_nil_or_concat' with rfl | ⟨behind, c, rfl⟩
    · obtain ⟨rfl, -⟩ := List.append_inj' hsplit rfl
      exact hfirst
    · -- the brace would close what nothing opens
      rw [← List.cons_append, ← List.append_assoc] at hsplit
      obtain ⟨rfl, -⟩ := List.append_inj' hsplit rfl
      have hclosing := hinner.of_append_left hfirst
      cases hclosing with
      | plain _ _ hclose => exact absurd rfl hclose
  · intro hblank c hc
    have hstart : first <+: inner :=
      List.prefix_of_prefix_length_le ⟨_, rfl⟩ (hsplit ▸ List.prefix_append _ _) (by omega)
    exact hblank c (hstart.subset hc)

theorem wordThenBlanks?_append {word gap : List Char} (hgap : ∀ c ∈ gap, isBlank c = true)
    (hne : gap ≠ []) (hrest : ∀ c ∈ rest.head?, isBlank c = false) :
    wordThenBlanks? word (word ++ (gap ++ rest)) = some rest := by
  obtain ⟨c, gap, rfl⟩ := List.exists_cons_of_ne_nil hne
  obtain ⟨hc, hgap⟩ := List.forall_mem_cons.mp hgap
  have hafter : after? word (word ++ (c :: gap ++ rest)) = some (c :: (gap ++ rest)) :=
    after?_eq_some_iff.mpr rfl
  have htrim : trimStart rest = rest := by
    cases rest with
    | nil => rfl
    | cons d rest => exact trimStart_cons_of_not_blank (hrest d rfl)
  rw [wordThenBlanks?, hafter]
  simp only [hc, if_true, trimStart, List.dropWhile_append_of_pos hgap]
  exact congrArg some htrim

theorem blockBody?_append {gap : List Char} (operation : Operation) (total : Nat)
    (hgap : ∀ c ∈ gap, isBlank c = true) (hfirst : '\x7d' ∉ first) :
    blockBody? operation total (gap ++ '\x7b' :: (first ++ '\x7d' :: rest)) =
      some ⟨operation, first, total - rest.length⟩ := by
  rw [blockBody?, trimStart_append hgap (by decide)]
  simp only [splitAtFirst?_eq_some_iff.mpr ⟨rfl, hfirst⟩]

/-- The block at the front of a text. -/
theorem blockAt?_append {before gap : List Char} (operation : Operation)
    (hbefore : ∀ c ∈ before, isBlank c = true) (hne : before ≠ [])
    (hgap : ∀ c ∈ gap, isBlank c = true) (hfirst : '\x7d' ∉ first) :
    blockAt? ("gql".toList ++ (before ++ (operation.word ++ (gap ++ '\x7b' ::
        (first ++ '\x7d' :: rest))))) =
      some ⟨operation, first, ("gql".toList ++ (before ++ (operation.word ++ (gap ++ '\x7b' ::
        (first ++ ['\x7d']))))).length⟩ := by
  have hhead : ∀ c ∈ (operation.word ++ (gap ++ '\x7b' :: (first ++ '\x7d' :: rest))).head?,
      isBlank c = false := by
    cases operation <;> rintro _ ⟨⟩ <;> rfl
  have hlength : ∀ total, total = ("gql".toList ++ (before ++ (operation.word ++ (gap ++ '\x7b' ::
      (first ++ '\x7d' :: rest))))).length → total - rest.length =
        ("gql".toList ++ (before ++ (operation.word ++ (gap ++ '\x7b' ::
          (first ++ ['\x7d']))))).length := by
    rintro _ rfl
    simp only [List.length_append, List.length_cons, List.length_nil]
    omega
  rw [blockAt?, wordThenBlanks?_append hbefore hne hhead]
  cases operation with
  | query =>
    have hafter : after? "query".toList (Operation.query.word ++ (gap ++ '\x7b' ::
        (first ++ '\x7d' :: rest))) = some (gap ++ '\x7b' :: (first ++ '\x7d' :: rest)) :=
      after?_eq_some_iff.mpr rfl
    simp only [hafter, blockBody?_append _ _ hgap hfirst, hlength _ rfl]
  | mutation =>
    have hnone : after? "query".toList (Operation.mutation.word ++ (gap ++ '\x7b' ::
        (first ++ '\x7d' :: rest))) = none := rfl
    have hafter : after? "mutation".toList (Operation.mutation.word ++ (gap ++ '\x7b' ::
        (first ++ '\x7d' :: rest))) = some (gap ++ '\x7b' :: (first ++ '\x7d' :: rest)) :=
      after?_eq_some_iff.mpr rfl
    simp only [hnone, hafter, blockBody?_append _ _ hgap hfirst, hlength _ rfl]

end

section

variable {p : Position} {text rest : List Char} {block : GqlBlock}

theorem Operation.isDashedChar_of_mem_word (operation : Operation) :
    ∀ c ∈ operation.word, isDashedChar c = true := by
  cases operation <;> exact List.all_eq_true.mp (by decide)

/-- In a legible text the gaps behind words are blanks. -/
theorem Legible.of_words {run before word gap : List Char}
    (hrun : ∀ c ∈ run, isDashedChar c = true) (hbefore : IsGap before)
    (hword : ∀ c ∈ word, isDashedChar c = true) (hgap : IsGap gap)
    (h : Legible (run ++ (before ++ (word ++ (gap ++ rest))))) :
    (∀ c ∈ before, isBlank c = true) ∧ (∀ c ∈ gap, isBlank c = true) ∧ Legible rest := by
  have hbefore := (h.of_run fun c hc => code_of_isDashedChar (hrun c hc)).of_gap hbefore
  have hgap := (hbefore.2.of_run fun c hc => code_of_isDashedChar (hword c hc)).of_gap hgap
  exact ⟨fun c hc => isBlank_of_isSpace (hbefore.1 c hc),
    fun c hc => isBlank_of_isSpace (hgap.1 c hc), hgap.2⟩

/-- A block that is a value is found where it starts. What is found ends in it, and behind that
there is no other block. -/
theorem exists_block (h : RendersValue p (.query block) text) (hlegible : Legible (text ++ rest)) :
    ∃ found skipped tail, text = 'g' :: (skipped ++ tail) ∧
      blockAt? ('g' :: (skipped ++ (tail ++ rest))) = some found ∧
      found.operation = block.operation ∧ found.body.all isBlank = allBlank block.body ∧
      found.length = skipped.length + 1 ∧ Misses "gql".toList tail rest := by
  cases h with
  | @query operation before gap left body right hbefore hne hgap hleft hbody htrim hright =>
    have hinner : Balanced (left ++ (body ++ right)) :=
      (balanced_of_blanks hleft).append (hbody.append (balanced_of_blanks hright))
    obtain ⟨first, tail, hsplit, hfirst⟩ := List.eq_append_cons_of_mem
      (show '\x7d' ∈ left ++ (body ++ right) ++ ['\x7d'] by simp)
    have hbraces : '\x7b' :: (left ++ (body ++ (right ++ ['\x7d']))) =
        ('\x7b' :: (first ++ ['\x7d'])) ++ tail := by
      simpa using congrArg ('\x7b' :: ·) hsplit
    simp only [List.append_assoc] at hlegible
    obtain ⟨hbefore, hgap, hlegible⟩ := hlegible.of_words (IsKeyword.dashed (.inr rfl)) hbefore
      (Operation.isDashedChar_of_mem_word operation) hgap
    have hmisses := (passes_body (.inr rfl) ⟨_, by simp, hinner⟩ hlegible).1
    rw [hbraces] at hmisses ⊢
    have hat := @blockAt?_append first (tail ++ rest) before gap operation hbefore hne hgap hfirst
    refine ⟨⟨operation, first, _⟩, "ql".toList ++ (before ++ (operation.word ++ (gap ++
      '\x7b' :: (first ++ ['\x7d'])))), tail, by simp, ?_, rfl, ?_, rfl, hmisses.of_append⟩
    · simpa [Nat.add_assoc] using hat
    · rw [allBlank, Bool.eq_iff_iff, List.all_eq_true, List.all_eq_true,
        all_isBlank_iff hinner hsplit]
      simp only [List.forall_mem_append, String.toList_ofList]
      exact ⟨fun hall => hall.2.1, fun hbody => ⟨hleft, hbody, hright⟩⟩
  | operand h => cases h

theorem blocks_query (h : RendersValue p (.query block) text) (hlegible : Legible (text ++ rest))
    (hline : '\n' ∉ text) (line : Nat) :
    ∃ found, found.operation = block.operation ∧
      found.body.all isBlank = allBlank block.body ∧
      blocks 0 line (text ++ rest) = (found, line) :: blocks 0 line rest := by
  obtain ⟨found, skipped, tail, rfl, hat, hoperation, hbody, hlength, hmisses⟩ :=
    exists_block h hlegible
  have hsame : ('g' :: (skipped ++ tail)).foldl lineAfter line = line :=
    foldl_lineAfter_of_not_mem hline
  refine ⟨found, hoperation, hbody, ?_⟩
  rw [List.foldl_cons, List.foldl_append] at hsame
  rw [List.cons_append, List.append_assoc, blocks, hat]
  simp only [hlength, Nat.add_sub_cancel]
  rw [blocks_skip, blocks_append hmisses, hsame]

end

/-! ## Statements -/

section

variable {word run before name service field behind gap text rest : List Char} {p : Position}

theorem passes_opening (hword : IsKeyword word) (hrun : ∀ c ∈ run, isDashedChar c = true)
    (hnot : ¬ word <:+ run) (hgap : IsGap gap) (hne : gap ≠ []) : Passes word (run ++ gap) rest :=
  (passes_run hword hrun (fun _ => stops_of_gap hgap hne)
    fun _ hsuffix => absurd hsuffix hnot).append (passes_gap hword hgap)

theorem passes_assigned (hword : IsKeyword word) (hname : ∀ c ∈ name, isDashedChar c = true)
    (hbehind : IsGap behind) (hgap : IsGap gap) :
    Passes word (name ++ (behind ++ '=' :: gap)) rest := by
  refine (passes_name hword hname fun h => ?_).append ((passes_gap hword hbehind).append
    ((passes_sign hword (by decide)).append (passes_gap hword hgap)))
  rw [List.append_assoc] at h ⊢
  exact ends_gap h hbehind (ends_cons (by decide) (by decide))

theorem passes_target (hword : IsKeyword word) (hservice : IsDashedName service)
    (hfield : IsPlainName field) (hbehind : IsGap behind) (hgap : IsGap gap) :
    Passes word (service ++ '.' :: (field ++ (behind ++ '=' :: gap))) rest :=
  (passes_name hword hservice.all fun _ => ends_cons (by decide) (by decide)).append
    ((passes_sign hword (by decide)).append (passes_assigned hword
      (fun c hc => isDashedChar_of_isIdentifierChar (hfield.all c hc)) hbehind hgap))

/-- Nowhere in a value a name stands behind `new`. -/
theorem passes_value {value : Expression} (h : RendersValue p value text)
    (hends : Legible rest → Ends rest) : Passes "new".toList text rest := by
  have hnew : IsKeyword "new".toList := .inl rfl
  cases h with
  | operand h => exact passes_operand hnew h hends
  | @query operation before gap left body right hbefore hne hgap hleft hbody htrim hright =>
    have hinner : Balanced (left ++ (body ++ right)) :=
      (balanced_of_blanks hleft).append (hbody.append (balanced_of_blanks hright))
    rw [← List.append_assoc]
    refine (passes_opening hnew (IsKeyword.dashed (.inr rfl)) (by decide) hbefore hne).append
      ((passes_name hnew (Operation.isDashedChar_of_mem_word operation) fun h => ?_).append
        ((passes_gap hnew hgap).append (passes_body hnew ⟨_, by simp, hinner⟩)))
    rw [List.append_assoc] at h ⊢
    exact ends_gap h hgap (ends_cons (by decide) (by decide))

/-- Neither word is found in front of the value of a statement, but for the `new` of a
declaration. -/
theorem exists_front {kind : StatementKind} (h : RendersKind p kind text) :
    ∃ front q written, text = front ++ written ∧ RendersValue q kind.last written ∧
      ∀ word, IsKeyword word → kind.declared? = none ∨ word = "gql".toList →
        ∀ rest, Passes word front (written ++ rest) := by
  cases h with
  | @declaration name before behind gap written value hname hbefore hne hbehind hgap hvalue =>
    refine ⟨("new".toList ++ before) ++ (name ++ (behind ++ '=' :: gap)), _, written, by simp,
      hvalue, fun word hword hdeclares rest => ?_⟩
    have hnot : ¬ word <:+ "new".toList := by
      rcases hdeclares with ⟨⟨⟩⟩ | rfl
      decide
    exact (passes_opening hword (IsKeyword.dashed (.inl rfl)) hnot hbefore hne).append
      (passes_assigned hword (hname.1.all fun _ => isDashedChar_of_startsWord) hbehind hgap)
  | @returns gap written value hgap hstops hvalue =>
    refine ⟨"return".toList ++ gap, _, written, by simp, hvalue, fun word hword _ rest => ?_⟩
    have hnot : ¬ word <:+ "return".toList := by
      rcases hword with rfl | rfl <;> decide
    have hletters : ∀ c ∈ "return".toList, isDashedChar c = true :=
      List.all_eq_true.mp (by decide)
    refine (passes_run hword hletters (fun _ => ?_)
      fun _ hsuffix => absurd hsuffix hnot).append (passes_gap hword hgap)
    obtain ⟨c, cs, rfl, -⟩ := hvalue.front
    cases gap with
    | nil => exact stops_cons.mpr (stops_cons.mp hstops)
    | cons d ds => exact stops_cons.mpr (stops_cons.mp hstops)
  | @output first service field behind gap written value hfirst hne hservice hfield hbehind hgap
      hvalue =>
    refine ⟨("output".toList ++ first) ++ (service ++ '.' :: (field ++ (behind ++ '=' :: gap))), _,
      written, by simp, hvalue, fun word hword _ rest => ?_⟩
    have hnot : ¬ word <:+ "output".toList := by
      rcases hword with rfl | rfl <;> decide
    exact (passes_opening hword (List.all_eq_true.mp (by decide)) hnot hfirst hne).append
      (passes_target hword hservice hfield hbehind hgap)
  | @mapping service field behind gap written value hservice hne hfield hbehind hgap hvalue =>
    exact ⟨service ++ '.' :: (field ++ (behind ++ '=' :: gap)), _, written, by simp, hvalue,
      fun word hword _ rest => passes_target hword hservice hfield hbehind hgap⟩
  | @call callee arguments _ h =>
    exact ⟨[], p, text, rfl, .operand h, fun _ _ _ _ h => ⟨trivial, h⟩⟩

/-- What is legible stays so behind a statement. -/
theorem legible_behind {kind : StatementKind} (h : RendersKind p kind text)
    (hlegible : Legible (text ++ rest)) (hends : Ends rest) : Legible rest := by
  obtain ⟨front, q, written, rfl, hvalue, hfront⟩ := exists_front h
  rw [List.append_assoc] at hlegible
  have hwritten := (hfront _ (.inr rfl) (.inr rfl) rest hlegible).2
  exact (passes_value hvalue (fun _ => hends) hwritten).2

/-- The name behind `new` at the front of a text. -/
theorem declaredAt?_append (hname : IsName startsWord isDashedChar name)
    (hbefore : ∀ c ∈ before, isBlank c = true) (hne : before ≠ [])
    (hbehind : ∀ c ∈ behind, isBlank c = true)
    (hstops : Stops isDashedChar (behind ++ '=' :: rest)) :
    declaredAt? ("new".toList ++ (before ++ (name ++ (behind ++ '=' :: rest)))) = some name := by
  obtain ⟨c, cs, rfl, hc, hcs⟩ := hname
  have hblank : isBlank c = false := not_isBlank_of_isDashedChar (isDashedChar_of_startsWord hc)
  rw [startsWord] at hc
  rw [declaredAt?, wordThenBlanks?_append hbefore hne (by rintro _ ⟨⟩; exact hblank)]
  simp only [List.cons_append, hc, dropWhile_of_stops hcs hstops, takeWhile_of_stops hcs hstops,
    trimStart_append hbehind (show isBlank '=' = false by decide)]
  rfl

/-- The line of the name behind `new` and blanks. -/
theorem lineOfName_append (hbefore : ∀ c ∈ before, isBlank c = true)
    (hrest : ∀ c ∈ rest.head?, isBlank c = false) (line : Nat) :
    lineOfName line ("new".toList ++ (before ++ rest)) = before.foldl lineAfter line := by
  have hblanks : (before ++ rest).takeWhile isBlank = before :=
    takeWhile_of_stops hbefore hrest
  rw [lineOfName, List.drop_left' (by decide), hblanks]

theorem declarations_cons {c : Char} {tail : List Char} {line : Nat}
    (hat : declaredAt? (c :: (tail ++ rest)) = some name)
    (hlineOf : lineOfName line (c :: (tail ++ rest)) = line) (hline : '\n' ∉ c :: tail)
    (hmisses : Misses "new".toList tail rest) :
    ∃ inWord, declarations false line (c :: tail ++ rest) =
      (name, line) :: declarations inWord line rest := by
  have hsame : (c :: tail).foldl lineAfter line = line := foldl_lineAfter_of_not_mem hline
  rw [List.foldl_cons] at hsame
  rw [List.cons_append, declarations, if_neg Bool.false_ne_true, declarations_append hmisses]
  simp only [hat, hlineOf, hsame]
  exact ⟨_, rfl⟩

/-- A declaration has its name found where it starts, and no other name. -/
theorem declarations_declaration {value : Expression} {q : Position}
    (hname : IsName startsWord isDashedChar name) (hbefore : IsGap before) (hne : before ≠ [])
    (hbehind : IsGap behind) (hgap : IsGap gap) (hvalue : RendersValue q value text)
    (hends : Ends rest) (line : Nat)
    (hlegible : Legible ("new".toList ++ (before ++ (name ++ (behind ++ '=' :: (gap ++ text)))) ++
      rest))
    (hline : '\n' ∉ "new".toList ++ (before ++ (name ++ (behind ++ '=' :: (gap ++ text))))) :
    ∃ inWord, declarations false line ("new".toList ++ (before ++ (name ++ (behind ++ '=' ::
      (gap ++ text)))) ++ rest) = (name, line) :: declarations inWord line rest := by
  have hnew : IsKeyword "new".toList := .inl rfl
  have hletters : ∀ c ∈ name, isDashedChar c = true :=
    hname.all fun _ => isDashedChar_of_startsWord
  have hstops : ∀ {more : List Char}, Stops isDashedChar (behind ++ '=' :: more) :=
    stops_append hbehind (stops_cons.mpr (by decide))
  have hhead : ∀ {more : List Char}, ∀ c ∈ (name ++ more).head?, isBlank c = false := by
    obtain ⟨c, cs, rfl, hc, -⟩ := hname
    rintro more _ ⟨⟩
    exact not_isBlank_of_isDashedChar (isDashedChar_of_startsWord hc)
  have hpasses : Passes "new".toList (("ew".toList ++ before) ++
      ((name ++ (behind ++ '=' :: gap)) ++ text)) rest :=
    (passes_opening hnew (List.all_eq_true.mp (by decide)) (by decide) hbefore hne).append
      ((passes_assigned hnew hletters hbehind hgap).append (passes_value hvalue fun _ => hends))
  have hword : "new".toList ++ (before ++ (name ++ (behind ++ '=' :: (gap ++ text)))) =
      'n' :: (("ew".toList ++ before) ++ ((name ++ (behind ++ '=' :: gap)) ++ text)) := by
    simp
  have hfront : 'n' :: (("ew".toList ++ before) ++ ((name ++ (behind ++ '=' :: gap)) ++ text) ++
      rest) = "new".toList ++ (before ++ (name ++ (behind ++ '=' :: (gap ++ (text ++ rest))))) := by
    simp
  have hbreak : '\n' ∉ before := fun hmem => hline (by simp [hmem])
  rw [hword] at hline hlegible ⊢
  rw [List.cons_append] at hlegible
  refine declarations_cons ?_ ?_ hline (hpasses (hlegible.of_cons (by decide) (by decide)).1).1
  · rw [hfront] at hlegible ⊢
    obtain ⟨hbefore, hbehind, -⟩ := hlegible.of_words hnew.dashed hbefore hletters hbehind
    exact declaredAt?_append hname hbefore hne hbehind hstops
  · rw [hfront] at hlegible ⊢
    obtain ⟨hbefore, -, -⟩ := hlegible.of_words hnew.dashed hbefore hletters hbehind
    rw [lineOfName_append hbefore hhead, foldl_lineAfter_of_not_mem hbreak]

/-- The names found in a statement: the one that it declares, if it declares one. -/
theorem declarations_kind {kind : StatementKind} (h : RendersKind p kind text)
    (hlegible : Legible (text ++ rest)) (hends : Ends rest) (hline : '\n' ∉ text) (line : Nat) :
    ∃ inWord, declarations false line (text ++ rest) =
      kind.declared?.toList.map (fun name => (name.toList, line)) ++
        declarations inWord line rest := by
  by_cases hdeclares : kind.declared? = none
  · obtain ⟨front, q, written, rfl, hvalue, hfront⟩ := exists_front h
    have hpasses : Passes "new".toList (front ++ written) rest :=
      (hfront _ (.inl rfl) (.inl hdeclares) rest).append (passes_value hvalue fun _ => hends)
    rw [declarations_append (hpasses hlegible).1, foldl_lineAfter_of_not_mem hline, hdeclares]
    exact ⟨_, rfl⟩
  · cases h with
    | @declaration name before behind gap written value hname hbefore hne hbehind hgap hvalue =>
      obtain ⟨inWord, hfound⟩ := declarations_declaration hname.1 hbefore hne hbehind hgap hvalue
        hends line hlegible hline
      refine ⟨inWord, hfound.trans ?_⟩
      rw [StatementKind.declared?, Option.toList_some, List.map_singleton, String.toList_ofList]
      rfl
    | returns | output | mapping | call => exact absurd rfl hdeclares

/-- What the check of blocks sees in a text: what the blocks do, whether they select nothing, and
the lines where they start. -/
def blocksSeen (line : Nat) (cs : List Char) : List (Operation × Bool × Nat) :=
  (blocks 0 line cs).map fun found =>
    (found.1.operation, found.1.body.all isBlank, found.2)

theorem blockFindings_eq (text : List Char) :
    blockFindings text = (blocksSeen 1 text).filterMap fun seen =>
      if seen.2.1 then some (gqlBodyFinding seen.1 seen.2.2) else none := by
  rw [blocksSeen, List.filterMap_map]
  rfl

theorem blocksSeen_append (h : Misses "gql".toList text rest) (line : Nat) :
    blocksSeen line (text ++ rest) = blocksSeen (text.foldl lineAfter line) rest :=
  congrArg _ (blocks_append h line)

/-- The blocks seen in a statement: the one that is its value, if it has one. -/
theorem blocksSeen_kind {kind : StatementKind} (h : RendersKind p kind text)
    (hlegible : Legible (text ++ rest)) (hends : Ends rest) (hline : '\n' ∉ text) (line : Nat) :
    blocksSeen line (text ++ rest) =
      kind.last.blocks.map (fun block => (block.operation, allBlank block.body, line)) ++
        blocksSeen line rest := by
  have hgql : IsKeyword "gql".toList := .inr rfl
  obtain ⟨front, q, written, rfl, hvalue, hfront⟩ := exists_front h
  rw [List.append_assoc] at hlegible
  obtain ⟨hmisses, hwritten⟩ := hfront _ hgql (.inr rfl) rest hlegible
  rw [List.mem_append, not_or] at hline
  rw [List.append_assoc, blocksSeen_append hmisses, foldl_lineAfter_of_not_mem hline.1,
    hvalue.blocks_eq]
  generalize kind.last = value at hvalue
  cases hblock : value.block? with
  | none =>
    cases hvalue with
    | operand hoperand =>
      rw [blocksSeen_append (passes_operand hgql hoperand (fun _ => hends) hwritten).1,
        foldl_lineAfter_of_not_mem hline.2]
      rfl
    | query => cases hblock
  | some block =>
    obtain rfl := block?_eq_some_iff.mp hblock
    obtain ⟨found, hoperation, hbody, hblocks⟩ := blocks_query hvalue hwritten hline.2 line
    rw [blocksSeen, hblocks, List.map_cons, hoperation, hbody]
    rfl

end

end ScriptForge.Quality.TextCheck

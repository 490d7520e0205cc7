import ScriptForge.Proofs.Quality.Agreement
import ScriptForge.Proofs.Script.NameAttempts

/-!
# What is reported on declared names

A name that breaks the convention for variables is to be reported as such, and as nothing else. On a
script on one line the checks on the text always do so (`findings_oneLine`), as they look for the
name behind `new` and read nothing else of the script.

The grammar has to read the script first, and the names it takes differ from place to place. Behind
`new` it takes every name but a reserved word, and but the names that go on with a dash behind a
reserved word; these are a syntax error (`declared_name_reported`). Where a variable is read, it
takes plain names only. So a declared name with a dash, or with an underscore in front, is a syntax
error where it is returned, at the character that is not part of a plain name, and nothing is
reported on the name itself (`unconventional_name_reported`).
-/

namespace ScriptForge.Quality

open Script Script.Token Text

namespace TextCheck

section

variable {service name more text rest : List Char}

/-- A declaration of a number. -/
def declaring (name : List Char) : List Char :=
  "new".toList ++ ([' '] ++ (name ++ ([' '] ++ '=' :: ([' '] ++ ['1']))))

/-- A script on one line that starts with a declaration of a number. -/
def oneLine (service name more : List Char) : List Char :=
  openingLine service ++ ' ' :: (declaring name ++ ';' :: (more ++ [' ', '\x7d']))

/-- Nothing that ends a line, and nothing that starts a string, a body or a comment. -/
def IsInline (text : List Char) : Prop :=
  ∀ c ∈ text, c ≠ '"' ∧ c ≠ '\x7b' ∧ c ≠ '/' ∧ c ≠ '\n'

theorem isInline_append : IsInline (text ++ rest) ↔ IsInline text ∧ IsInline rest :=
  List.forall_mem_append

theorem isInline_of_isDashedChar (h : ∀ c ∈ text, isDashedChar c = true) : IsInline text := by
  intro c hc
  have hdashed := h c hc
  refine ⟨?_, ?_, ?_, ?_⟩ <;> rintro rfl <;> cases hdashed

theorem IsInline.legible (h : IsInline text) : Legible text := by
  rw [← List.append_nil text]
  exact legible_append (fun c hc => ⟨(h c hc).1, (h c hc).2.1, (h c hc).2.2.1⟩) .nil

theorem IsInline.not_mem (h : IsInline text) : '\n' ∉ text :=
  fun hmem => (h '\n' hmem).2.2.2 rfl

variable (hname : IsName startsWord isDashedChar name)

include hname

theorem isInline_declaring : IsInline (declaring name) := by
  have hletters : IsInline name :=
    isInline_of_isDashedChar (hname.all fun _ => isDashedChar_of_startsWord)
  simp only [declaring, isInline_append]
  exact ⟨by simp [IsInline], by simp [IsInline], hletters, by simp [IsInline]⟩

/-- The name is found in its declaration, and no other one. -/
theorem declarations_declaring (hrest : IsInline rest) (line : Nat) :
    ∃ inWord, declarations false line (declaring name ++ ';' :: rest) =
      (name, line) :: declarations inWord line (';' :: rest) := by
  have hinline : IsInline (declaring name) := isInline_declaring hname
  have hlegible : IsInline (declaring name ++ ';' :: rest) :=
    isInline_append.mpr ⟨hinline, List.forall_mem_cons.mpr ⟨by decide, hrest⟩⟩
  exact declarations_declaration hname isGap_space (by simp) isGap_space isGap_space
    (@RendersValue.digits .start ['1'] (by decide)) (ends_cons (by decide) (by decide)) line
    hlegible.legible hinline.not_mem

/-- No block is found in a declaration. -/
theorem misses_declaring (hrest : IsInline rest) :
    Misses "gql".toList (declaring name) (';' :: rest) := by
  have hgql : IsKeyword "gql".toList := .inr rfl
  have hletters : ∀ c ∈ name, isDashedChar c = true :=
    hname.all fun _ => isDashedChar_of_startsWord
  have hpasses : Passes "gql".toList (("new".toList ++ [' ']) ++
      ((name ++ ([' '] ++ '=' :: [' '])) ++ ['1'])) (';' :: rest) :=
    (passes_opening hgql (IsKeyword.dashed (.inl rfl)) (by decide) isGap_space (by simp)).append
      ((passes_assigned hgql hletters isGap_space isGap_space).append
        (passes_sign hgql (by decide)))
  have hlegible : IsInline (declaring name ++ ';' :: rest) :=
    isInline_append.mpr ⟨isInline_declaring hname, List.forall_mem_cons.mpr ⟨by decide, hrest⟩⟩
  have hassoc : declaring name = ("new".toList ++ [' ']) ++
      ((name ++ ([' '] ++ '=' :: [' '])) ++ ['1']) := by
    simp only [declaring, List.append_assoc, List.cons_append, List.nil_append]
  rw [hassoc] at hlegible ⊢
  exact (hpasses hlegible.legible).1

variable (hservice : IsName Char.isAlpha isHyphenatedChar service) (hinline : IsInline more)
  (hmisses : ∀ word, IsKeyword word → Misses word more [' ', '\x7d'])

include hservice hinline hmisses

theorem declarations_oneLine : declarations false 1 (oneLine service name more) = [(name, 1)] := by
  have hnew : IsKeyword "new".toList := .inl rfl
  have hmore : IsInline (more ++ [' ', '\x7d']) :=
    isInline_append.mpr ⟨hinline, by simp [IsInline]⟩
  obtain ⟨inWord, hfound⟩ := declarations_declaring hname hmore 1
  have hopening := declarations_sign (by decide) ((misses_openingLine hnew hservice).append
    (@IsKeyword.misses_of_forall _ [' '] (declaring name ++ ';' :: (more ++ [' ', '\x7d'])) hnew
      (by simp))) (not_mem_openingLine hservice) false 1
  have hclosing : Misses "new".toList (([';'] ++ more) ++ [' ', '\x7d']) [] := by
    rw [List.append_assoc]
    refine (hnew.misses_of_forall (by simp)).append (.append ?_ (hnew.misses_of_forall (by simp)))
    exact hmisses _ hnew
  have hnone := declarations_append hclosing inWord 1
  rw [List.append_nil] at hnone
  exact hopening.trans (hfound.trans (congrArg _ hnone))

theorem blocks_oneLine : blocks 0 1 (oneLine service name more) = [] := by
  have hgql : IsKeyword "gql".toList := .inr rfl
  have hmore : IsInline (more ++ [' ', '\x7d']) :=
    isInline_append.mpr ⟨hinline, by simp [IsInline]⟩
  have hsigns : ∀ {signs rest : List Char}, (∀ c ∈ signs, c.isAlpha = false) →
      Misses "gql".toList signs rest := hgql.misses_of_forall
  have hall : Misses "gql".toList (openingLine service ++ ([' '] ++ (declaring name ++ ([';'] ++
      (more ++ [' ', '\x7d']))))) [] := by
    refine (misses_openingLine hgql hservice).append (.append (hsigns (by simp)) (.append ?_
      (.append (hsigns (by simp)) (.append ?_ (hsigns (by simp))))))
    · rw [List.append_nil]
      exact misses_declaring hname hmore
    · exact hmisses _ hgql
  have hnone := blocks_append hall 1
  rwa [List.append_nil] at hnone

omit hmisses in
theorem lineFindings_oneLine :
    lineFindings false 1 (lines (oneLine service name more)) = [] := by
  have hmore : IsInline (more ++ [' ', '\x7d']) :=
    isInline_append.mpr ⟨hinline, by simp [IsInline]⟩
  have hbreak : '\n' ∉ oneLine service name more := by
    have hbehind : IsInline (' ' :: (declaring name ++ ';' :: (more ++ [' ', '\x7d']))) := by
      refine List.forall_mem_cons.mpr ⟨by decide, ?_⟩
      exact isInline_append.mpr ⟨isInline_declaring hname, List.forall_mem_cons.mpr
        ⟨by decide, hmore⟩⟩
    rw [oneLine, List.mem_append, not_or]
    exact ⟨not_mem_openingLine hservice, hbehind.not_mem⟩
  have hends : ∃ code, oneLine service name more = 's' :: (code ++ ['\x7d']) := by
    rw [oneLine, openingLine_eq]
    refine ⟨"ervice ".toList ++ service ++ [' '] ++ ['\x7b'] ++ ' ' :: (declaring name ++ ';' ::
      (more ++ [' '])), ?_⟩
    simp only [List.append_assoc, List.cons_append, List.nil_append]
  obtain ⟨code, hcode⟩ := hends
  have hclosed : lineCode false (oneLine service name more) = (none, false) := by
    rw [hcode]
    exact @lineCode_append [] 's' _ _ (by simp [IsPadding]) (by decide) (.inr (.inr rfl))
  rw [lines_of_not_mem (by rw [hcode]; exact List.cons_ne_nil _ _) hbreak, lineFindings, hclosed]
  rfl

/-- The checks on the text find the name, if it breaks the convention, and nothing else. -/
theorem findings_oneLine : findings (String.ofList (oneLine service name more)) =
    if Conventional (String.ofList name) then [] else [namingFinding (String.ofList name) 1] := by
  have hconventional : isConventional name = true ↔ Conventional (String.ofList name) := by
    rw [← isConventional_iff, String.toList_ofList]
  have hnaming : namingFindings (oneLine service name more) =
      if Conventional (String.ofList name) then [] else [namingFinding (String.ofList name) 1] := by
    rw [namingFindings, declarations_oneLine hname hservice hinline hmisses]
    by_cases h : Conventional (String.ofList name) <;> simp [h, hconventional]
  have hblocks : blockFindings (oneLine service name more) = [] := by
    rw [blockFindings, blocks_oneLine hname hservice hinline hmisses]
    rfl
  rw [findings, String.toList_ofList, hnaming, hblocks,
    lineFindings_oneLine hname hservice hinline, oneLine,
    serviceFindings_openingLine hservice, List.nil_append, List.append_nil, List.append_nil]

end

end TextCheck

/-! ## The grammar -/

open TextCheck

section

variable {service name front : List Char} {p : Position}

/-- A variable that is declared by a literal, and perhaps returned, is reported for its name at
most. -/
theorem analyze_declaring {script : Script} {name content : String} {literal : Literal}
    (h : script.statements = [⟨.declaration name (.literal literal), content, true, p⟩] ∨
      ∃ q other p', script.statements = [⟨.declaration name (.literal literal), content, true, p⟩,
        ⟨.returns (.reference ⟨name, [], q⟩), other, true, p'⟩]) :
    analyze script = if Conventional name then [] else [namingFinding name p.line] := by
  rcases h with h | ⟨q, other, p', h⟩ <;> by_cases hname : Conventional name <;>
    simp [analyze, namingFindings_eq, misnamed, terminationFindings_eq, unterminated,
      dataFlowFindings, Script.references, Script.declaredNames, StatementKind.references,
      Expression.references, firstUses, gqlBodyFindings, StatementKind.value?,
      StatementKind.declared?, h, hname]

theorem rendersFront_openingLine (hservice : IsName Char.isAlpha isHyphenatedChar service) :
    RendersFront (String.ofList service) (openingLine service) := by
  have hsame : (String.ofList service).toList = service := String.toList_ofList
  have hfront := RendersFront.mk .nil isGap_space (by simp)
    (hsame.symm ▸ isDashedName_of_isName hservice) isGap_space
  rw [hsame] at hfront
  rw [← List.append_nil (openingLine service), openingLine_append]
  exact hfront

/-- The declaration of a number, with its semicolon. -/
def declaringPiece (name : List Char) : Piece :=
  ⟨.declaration (String.ofList name) (.literal ⟨.number, "1"⟩), declaring name, some [], [' ']⟩

/-- The return of a variable, with its semicolon. -/
def returningPiece (p : Position) (name : List Char) : Piece :=
  ⟨.returns (.reference ⟨String.ofList name, [], p.afterText ("return".toList ++ [' '])⟩),
    "return".toList ++ ([' '] ++ name), some [], [' ']⟩

theorem proper_declaring (hname : IsDeclaredName name) {pieces : List Piece}
    (h : Proper (p.afterText (declaringPiece name).whole) pieces) :
    Proper p (declaringPiece name :: pieces) := by
  have hkind : RendersKind p (declaringPiece name).kind (declaring name) :=
    .declaration hname isGap_space (by simp) isGap_space isGap_space
      (@RendersValue.digits _ ['1'] (by decide))
  exact .cons hkind (by rintro _ ⟨⟩; exact .nil) isGap_space (by simp [declaringPiece]) h

theorem proper_returning (hname : IsIdentifier name) : Proper p [returningPiece p name] := by
  have hreference := @RendersReference.mk (p.afterText ("return".toList ++ [' '])) name [] hname
    (by simp)
  rw [List.flatMap_nil, List.append_nil] at hreference
  have hkind : RendersKind p (returningPiece p name).kind (returningPiece p name).text :=
    .returns isGap_space (stops_cons.mpr (by decide)) (.operand (.reference hreference))
  exact .cons hkind (by rintro _ ⟨⟩; exact .nil) isGap_space (by simp [returningPiece]) .nil

/-! ## Names that are declared -/

theorem parse_declaring (hname : IsDeclaredName name) :
    ∃ content, parse (String.ofList (oneLine ['a'] name [])) = .ok ⟨"a",
      [⟨.declaration (String.ofList name) (.literal ⟨.number, "1"⟩), content, true, ⟨1, 13⟩⟩]⟩ := by
  have hfront := @rendersFront_openingLine ['a'] (by decide)
  have hproper : Proper (Position.start.afterText (openingLine ['a'] ++ [' ']))
      [declaringPiece name] := proper_declaring hname .nil
  have hwritten : openingLine ['a'] ++ ([' '] ++ ([declaringPiece name].flatMap Piece.whole ++
      ['\x7d'])) = oneLine ['a'] name [] := by
    simp [oneLine, declaringPiece, Piece.whole, Piece.ending]
  exact ⟨_, hwritten ▸ hproper.parse_eq hfront isGap_space .nil⟩

/-- A name that may not be declared is a syntax error where it starts. -/
theorem parse_declaring_of_not (hname : IsName startsWord isDashedChar name)
    (hnot : ¬ IsDeclaredName name) :
    ∃ expected, parse (String.ofList (oneLine ['a'] name [])) =
      .error (.unexpected ⟨1, 17⟩ expected) := by
  have hfront := @rendersFront_openingLine ['a'] (by decide)
  have hnone : declaredName (name ++ " = 1; \x7d".toList) = none :=
    declaredName_eq_none hname (stops_cons.mpr (by decide)) hnot
  have hstops : StopsGap (name ++ " = 1; \x7d".toList) := by
    obtain ⟨c, cs, rfl, hc, -⟩ := hname
    exact stopsGap_of_isIdentifierChar (isIdentifierChar_of_isAlpha_or hc)
  have hfails := script_failsAt_of_declaredName hfront isGap_space .nil (by simp) isGap_space
    (by simp) hstops hnone
  rw [List.append_assoc] at hfails
  obtain ⟨expected, hparse⟩ := parse_of_failsAt hfront hfails
  have hwritten : openingLine ['a'] ++ ([' '] ++ [].flatMap Piece.whole ++ ("new".toList ++
      ([' '] ++ (name ++ " = 1; \x7d".toList)))) = oneLine ['a'] name [] := by
    simp only [oneLine, declaring, List.append_assoc, List.cons_append, List.nil_append,
      List.flatMap_nil]
    rfl
  rw [hwritten] at hparse
  exact ⟨expected, hparse⟩

/-- **Declared names.** A name of letters, digits, underscores and dashes, which no digit and no
dash starts and which is no reserved word, is declared. The fallback reports the name if it breaks
the convention, and nothing else. If the name does not go on with a dash behind a reserved word, the
script parses, and the grammar reports the same. Otherwise there is a syntax error at the name, and
nothing is reported on the convention. -/
theorem declared_name_reported {name : String}
    (hname : IsName (fun c => c.isAlpha || c == '_') isDashedChar name.toList)
    (hfree : name.toList ∉ reservedWords) :
    let text := "service a \x7b new " ++ name ++ " = 1; \x7d"
    let reported := if Conventional name then [] else [namingFinding name 1]
    (namingFinding name 1).Cites .naming (.ofName 1 name) ∧
    ((⟨.fallback⟩ : Validator).validate text).findings = reported ∧
    ((∀ word ∈ reservedWords, ¬ word ++ ['-'] <+: name.toList) →
      (∃ content, parse text = .ok ⟨"a",
        [⟨.declaration name (.literal ⟨.number, "1"⟩), content, true, ⟨1, 13⟩⟩]⟩) ∧
      ((⟨.grammar⟩ : Validator).validate text).findings = reported) ∧
    ((∃ word ∈ reservedWords, word ++ ['-'] <+: name.toList) →
      ∃ expected, parse text = .error (.unexpected ⟨1, 17⟩ expected) ∧
        ((⟨.grammar⟩ : Validator).validate text).findings =
          [parseFinding (.unexpected ⟨1, 17⟩ expected)] ∧
        (parseFinding (.unexpected ⟨1, 17⟩ expected)).Cites .form
          ⟨1, (ParseError.unexpected ⟨1, 17⟩ expected).message⟩) := by
  intro text reported
  have htext : text = String.ofList (oneLine ['a'] name.toList []) := by
    rw [← String.toList_inj, String.toList_ofList]
    simp only [text, String.toList_append, oneLine, declaring, openingLine_eq, List.append_assoc,
      List.cons_append, List.nil_append]
    rfl
  refine ⟨namingFinding_cites name 1, ?_, fun hother => ?_, ?_⟩
  · have hfound := @findings_oneLine ['a'] _ [] hname (by decide) (by simp [IsInline])
      fun _ _ => trivial
    rw [String.ofList_toList, ← htext] at hfound
    exact hfound
  · have hdeclared : IsDeclaredName name.toList :=
      ⟨hname, fun word hword => ⟨fun heq => hfree (heq ▸ hword),
        fun more heq => hother word hword ⟨more, by simp [heq]⟩⟩⟩
    obtain ⟨content, htree⟩ := parse_declaring hdeclared
    rw [← htext, String.ofList_toList] at htree
    exact ⟨⟨content, htree⟩, by rw [grammar_findings_of_ok htree, analyze_declaring (.inl rfl)]⟩
  · rintro ⟨word, hword, more, hstart⟩
    have hnot : ¬ IsDeclaredName name.toList := fun hdeclared =>
      (hdeclared.2 word hword).2 more (by simp [← hstart])
    obtain ⟨expected, hparse⟩ := parse_declaring_of_not hname hnot
    rw [← htext] at hparse
    exact ⟨expected, hparse, grammar_findings_of_error hparse,
      parseFinding_cites ⟨1, 17⟩ expected⟩

/-- A dash breaks the convention, but it does not keep a script from being read. -/
theorem order_id_reported :
    let text := "service a \x7b new order-id = 1; \x7d"
    let reported := [namingFinding "order-id" 1]
    (∃ content, parse text = .ok ⟨"a",
      [⟨.declaration "order-id" (.literal ⟨.number, "1"⟩), content, true, ⟨1, 13⟩⟩]⟩) ∧
    ((⟨.grammar⟩ : Validator).validate text).findings = reported ∧
    ((⟨.fallback⟩ : Validator).validate text).findings = reported := by
  have hname : IsName (fun c => c.isAlpha || c == '_') isDashedChar "order-id".toList := by
    decide
  have hbad : ¬ Conventional "order-id" := by decide
  obtain ⟨-, hfallback, hgrammar, -⟩ := declared_name_reported hname (by decide)
  obtain ⟨htree, hfound⟩ := hgrammar (by decide)
  rw [if_neg hbad] at hfallback hfound
  exact ⟨htree, hfound, hfallback⟩

/-- No script declares this name, although it is no reserved word. -/
theorem return_code_refused :
    let text := "service a \x7b new return-code = 1; \x7d"
    IsName (fun c => c.isAlpha || c == '_') isDashedChar "return-code".toList ∧
    "return-code".toList ∉ reservedWords ∧
    parse text = .error (.unexpected ⟨1, 17⟩ [.declaredName]) ∧
    ((⟨.grammar⟩ : Validator).validate text).findings ≠ [namingFinding "return-code" 1] := by
  intro text
  have hparse : parse text = .error (.unexpected ⟨1, 17⟩ [.declaredName]) := by decide +kernel
  refine ⟨by decide, by decide, hparse, fun hfound => ?_⟩
  rw [grammar_findings_of_error hparse] at hfound
  cases congrArg (List.map Finding.check) hfound

/-! ## Names that are returned -/

/-- The return of a variable, on the line of its declaration. -/
def returning (name : List Char) : List Char :=
  " return ".toList ++ (name ++ [';'])

theorem returning_eq (name : List Char) :
    returning name = " return ".toList ++ (name ++ [';']) := rfl

theorem isInline_returning (hname : ∀ c ∈ name, isDashedChar c = true) :
    IsInline (returning name) := by
  simp only [returning_eq, isInline_append, isInline_of_isDashedChar hname]
  simp [IsInline]

theorem misses_returning {word : List Char} (hword : IsKeyword word)
    (hname : ∀ c ∈ name, isDashedChar c = true) : Misses word (returning name) [' ', '\x7d'] := by
  have hletters : ∀ c ∈ "return".toList, isDashedChar c = true :=
    List.all_eq_true.mp (by decide)
  have hnot : ¬ word <:+ "return".toList := by
    rcases hword with rfl | rfl <;> decide
  have hsign : ∀ {c : Char} {rest : List Char}, c.isAlpha = false → Misses word [c] rest :=
    fun hc => hword.misses_of_forall (by simpa using hc)
  have hreturned : Misses word (name ++ [';']) [' ', '\x7d'] := by
    refine (hword.misses_run hname (stops_cons.mpr (by decide)) fun _ => ?_).append
      (hsign (by decide))
    exact (ends_cons (by decide) (by decide)).noWordNext
  have hreturn : Misses word ("return".toList ++ ([' '] ++ (name ++ [';']))) [' ', '\x7d'] := by
    refine (hword.misses_run hletters (stops_cons.mpr (by decide)) fun h => ?_).append
      (.append (hsign (by decide)) hreturned)
    exact absurd h hnot
  exact ⟨hword.not_hits (by decide) _, hreturn⟩

/-- The place behind what is read of a returned name. -/
theorem place_of_returned (hname : IsName startsWord isDashedChar name)
    (hfront : ∀ c ∈ front, isDashedChar c = true) :
    Position.start.afterText (openingLine ['s'] ++ ([' '] ++ [declaringPiece name].flatMap
      Piece.whole) ++ ("return".toList ++ ([' '] ++ front))) =
        ⟨1, 30 + name.length + front.length⟩ := by
  have hservice : IsName Char.isAlpha isHyphenatedChar ['s'] := by decide
  have hinline : IsInline ([' '] ++ [declaringPiece name].flatMap Piece.whole ++
      ("return".toList ++ ([' '] ++ front))) := by
    simp only [declaringPiece, Piece.whole, Piece.ending, List.flatMap_singleton, isInline_append,
      isInline_declaring hname, isInline_of_isDashedChar hfront]
    simp [IsInline]
  have hlength : (declaring name).length = 8 + name.length := by
    simp only [declaring, List.length_append, List.length_cons, List.length_nil]
    simp
    omega
  rw [List.append_assoc, Position.afterText_of_not_mem]
  · simp [Position.start, openingLine_eq, declaringPiece, Piece.whole, Piece.ending, hlength]
    omega
  · rw [List.mem_append, not_or]
    exact ⟨not_mem_openingLine hservice, hinline.not_mem⟩

theorem parse_returning (hname : IsDeclaredName name) (hplain : IsPlainName name) :
    ∃ content q other p', parse (String.ofList (oneLine ['s'] name (returning name))) = .ok ⟨"s",
      [⟨.declaration (String.ofList name) (.literal ⟨.number, "1"⟩), content, true, ⟨1, 13⟩⟩,
        ⟨.returns (.reference ⟨String.ofList name, [], q⟩), other, true, p'⟩]⟩ := by
  have hfront := @rendersFront_openingLine ['s'] (by decide)
  have hidentifier : IsIdentifier name := ⟨hplain, fun hmem => (hname.2 _ hmem).1 rfl⟩
  have hproper : Proper (Position.start.afterText (openingLine ['s'] ++ [' '])) _ :=
    proper_declaring hname (proper_returning hidentifier)
  have hwritten : ∀ p, openingLine ['s'] ++ ([' '] ++ ([declaringPiece name,
      returningPiece p name].flatMap Piece.whole ++ ['\x7d'])) =
        oneLine ['s'] name (returning name) := by
    intro p
    simp [oneLine, returning_eq, declaringPiece, returningPiece, Piece.whole, Piece.ending]
  have hparse := hproper.parse_eq hfront isGap_space .nil
  rw [hwritten] at hparse
  exact ⟨_, _, _, _, hparse⟩

/-- A returned name that is no plain one is a syntax error where it breaks off. -/
theorem parse_returning_of_break {c : Char} {back : List Char}
    (hname : IsDeclaredName (front ++ c :: back))
    (hstop : front = [] ∧ c = '_' ∨ IsPlainName front ∧ c = '-') :
    ∃ expected, parse (String.ofList (oneLine ['s'] (front ++ c :: back)
        (returning (front ++ c :: back)))) =
      .error (.unexpected ⟨1, 30 + (front ++ c :: back).length + front.length⟩ expected) := by
  have hfront := @rendersFront_openingLine ['s'] (by decide)
  have hread : ∀ d ∈ front, isDashedChar d = true := fun d hd =>
    hname.1.all (fun _ => isDashedChar_of_startsWord) d (List.mem_append_left _ hd)
  have hend : Stops isDashedChar (";".toList ++ " \x7d".toList) := stops_cons.mpr (by decide)
  have hfails := script_failsAt_of_returned hfront isGap_space (proper_declaring hname .nil)
    (by simp [declaringPiece]) isGap_space (by simp) hname hstop hend (stops_cons.mpr (by decide))
  rw [List.append_assoc, place_of_returned hname.1 hread] at hfails
  obtain ⟨expected, hparse⟩ := parse_of_failsAt hfront hfails
  have hwritten : openingLine ['s'] ++ ([' '] ++ [declaringPiece (front ++ c :: back)].flatMap
      Piece.whole ++ ("return".toList ++ ([' '] ++ (front ++ c :: back ++
        (";".toList ++ " \x7d".toList))))) =
          oneLine ['s'] (front ++ c :: back) (returning (front ++ c :: back)) := by
    simp [oneLine, returning_eq, declaringPiece, Piece.whole, Piece.ending]
  rw [hwritten] at hparse
  exact ⟨expected, hparse⟩

/-- **Names that break the convention.** A name that may be declared, and breaks the convention, is
declared and returned. The fallback reports the name and nothing else. So does the grammar if the
name is a plain one. Otherwise the name is read up to an underscore in front or up to its first
dash, there is a syntax error at this character, and nothing is reported on the convention. -/
theorem unconventional_name_reported {name : String} (hname : IsDeclaredName name.toList)
    (hbad : ¬ Conventional name) :
    let text := "service s \x7b new " ++ name ++ " = 1; return " ++ name ++ "; \x7d"
    (namingFinding name 1).Cites .naming (.ofName 1 name) ∧
    ((⟨.fallback⟩ : Validator).validate text).findings = [namingFinding name 1] ∧
    (IsPlainName name.toList →
      ((⟨.grammar⟩ : Validator).validate text).findings = [namingFinding name 1]) ∧
    (¬ IsPlainName name.toList → ∃ front c back expected, name.toList = front ++ c :: back ∧
      (front = [] ∧ c = '_' ∨ IsPlainName front ∧ c = '-') ∧
      let place : Position := ⟨1, 30 + name.length + front.length⟩
      parse text = .error (.unexpected place expected) ∧
        ((⟨.grammar⟩ : Validator).validate text).findings =
          [parseFinding (.unexpected place expected)] ∧
        (parseFinding (.unexpected place expected)).Cites .form
          ⟨1, (ParseError.unexpected place expected).message⟩) := by
  intro text
  have hletters : ∀ c ∈ name.toList, isDashedChar c = true :=
    hname.1.all fun _ => isDashedChar_of_startsWord
  have htext : text = String.ofList (oneLine ['s'] name.toList (returning name.toList)) := by
    rw [← String.toList_inj, String.toList_ofList]
    simp only [text, String.toList_append, oneLine, returning_eq, declaring, openingLine_eq,
      List.append_assoc, List.cons_append, List.nil_append]
    rfl
  refine ⟨namingFinding_cites name 1, ?_, fun hplain => ?_, fun hplain => ?_⟩
  · have hfound := @findings_oneLine ['s'] _ _ hname.1 (by decide) (isInline_returning hletters)
      fun _ hword => misses_returning hword hletters
    rw [String.ofList_toList, ← htext, if_neg hbad] at hfound
    exact hfound
  · obtain ⟨_, _, _, _, hparse⟩ := parse_returning hname hplain
    rw [← htext] at hparse
    rw [grammar_findings_of_ok hparse, analyze_declaring (.inr ⟨_, _, _, rfl⟩),
      String.ofList_toList, if_neg hbad]
  · obtain ⟨front, c, back, heq, hstop⟩ := exists_break hname.1 hplain
    obtain ⟨expected, hparse⟩ := parse_returning_of_break (heq ▸ hname) hstop
    rw [← heq, ← htext, String.length_toList] at hparse
    exact ⟨front, c, back, expected, heq, hstop, hparse, grammar_findings_of_error hparse,
      parseFinding_cites _ expected⟩

/-- A short name is reported by both engines. -/
theorem tmp_reported :
    let text := "service s \x7b new tmp = 1; return tmp; \x7d"
    ((⟨.fallback⟩ : Validator).validate text).findings = [namingFinding "tmp" 1] ∧
    ((⟨.grammar⟩ : Validator).validate text).findings = [namingFinding "tmp" 1] := by
  have hname : IsDeclaredName "tmp".toList := by decide
  obtain ⟨-, hfallback, hgrammar, -⟩ := unconventional_name_reported hname (by decide)
  exact ⟨hfallback, hgrammar (by decide)⟩

/-- A name with a dash is declared, but its return is not read. -/
theorem returned_order_id_refused :
    let text := "service s \x7b new order-id = 1; return order-id; \x7d"
    IsDeclaredName "order-id".toList ∧ ¬ Conventional "order-id" ∧
    parse text = .error (.unexpected ⟨1, 43⟩ [.statement, .terminator]) ∧
    ((⟨.grammar⟩ : Validator).validate text).findings ≠ [namingFinding "order-id" 1] := by
  intro text
  have hparse : parse text = .error (.unexpected ⟨1, 43⟩ [.statement, .terminator]) := by
    decide +kernel
  refine ⟨by decide, by decide, hparse, fun hfound => ?_⟩
  rw [grammar_findings_of_error hparse] at hfound
  cases congrArg (List.map Finding.check) hfound

end

end ScriptForge.Quality

import ScriptForge.Proofs.Script.Pieces

/-!
# What a script says, wherever it stands

The positions in a script depend on all that is written before them, and the content of a statement
on how it is laid out. The outline of a script leaves both out: it is the service and, for each
statement, what it does and whether it is terminated.

A value, a statement or statements in a row may be written at any other place by the same text, with
the same outline (`RendersOperand.relocate` up to `Proper.relocate`). So a statement may be put
between others, and what stands behind it only moves (`Proper.surround`). The script that a text
parses to has the outlines of the pieces that the text is made of (`Proper.exists_parse`).
-/

namespace ScriptForge.Script

open Token

/-! ## Outlines -/

mutual

/-- The value with all its references at the start of the text. -/
def Expression.unplaced : Expression → Expression
  | .query block => .query block
  | .call callee arguments => .call callee (unplacedArguments arguments)
  | .reference reference => .reference { reference with position := .start }
  | .literal literal => .literal literal

def unplacedArguments : List Expression → List Expression
  | [] => []
  | argument :: arguments => argument.unplaced :: unplacedArguments arguments

end

/-- What a statement does, with all references at the start of the text. -/
def StatementKind.unplaced : StatementKind → StatementKind
  | .declaration name value => .declaration name value.unplaced
  | .output service field value => .output service field value.unplaced
  | .returns value => .returns value.unplaced
  | .call callee arguments => .call callee (unplacedArguments arguments)

/-- What a statement does and whether it is terminated. -/
def Statement.outline (statement : Statement) : StatementKind × Bool :=
  (statement.kind.unplaced, statement.terminated)

/-- The service of a script and the outlines of its statements. -/
def outline (script : Script) : String × List (StatementKind × Bool) :=
  (script.service, script.statements.map Statement.outline)

/-- What the statement does that a piece is read as, and whether it is terminated. -/
def Piece.outline (piece : Piece) : StatementKind × Bool :=
  (piece.kind.unplaced, piece.closing.isSome)

theorem Piece.outline_statements (p : Position) (pieces : List Piece) :
    (Piece.statements p pieces).map Statement.outline = pieces.map Piece.outline := by
  induction pieces generalizing p with
  | nil => rfl
  | cons piece pieces ih =>
    rw [Piece.statements, List.map_cons, List.map_cons, ih]
    rfl

theorem Expression.endsWithWord_unplaced (value : Expression) :
    value.unplaced.endsWithWord = value.endsWithWord := by
  cases value <;> simp [unplaced, endsWithWord]

theorem StatementKind.last_unplaced (kind : StatementKind) :
    kind.unplaced.last = kind.last.unplaced := by
  cases kind <;> simp [unplaced, last, Expression.unplaced]

theorem StatementKind.endsWithWord_eq_of_unplaced {kind other : StatementKind}
    (h : other.unplaced = kind.unplaced) :
    other.last.endsWithWord = kind.last.endsWithWord := by
  rw [← Expression.endsWithWord_unplaced, ← last_unplaced, h, last_unplaced,
    Expression.endsWithWord_unplaced]

/-! ## The same text at another place -/

variable {p : Position} {text : List Char} {pieces : List Piece}

theorem RendersReference.relocate {reference : Reference}
    (h : RendersReference p reference text) (q : Position) :
    RendersReference q { reference with position := q } text := by
  cases h with
  | mk hname hpath => exact .mk hname hpath

mutual

theorem RendersOperand.relocate : ∀ {value : Expression} {p : Position} {text : List Char},
    RendersOperand p value text → ∀ q, ∃ value', RendersOperand q value' text ∧
      value'.unplaced = value.unplaced
  | .query _, _, _, h, _ => nomatch h
  | .literal _, _, _, .literal h, _ => ⟨_, .literal h, rfl⟩
  | .reference _, _, _, .reference h, q => ⟨_, .reference (h.relocate q), rfl⟩
  | .call callee arguments, _, _, h, q => by
    cases h with
    | @call _ _ _ name gap text hcallee hgap harguments =>
      obtain ⟨arguments', hrenders, hsame⟩ :=
        harguments.relocate (q.afterText (name ++ (gap ++ ['('])))
      refine ⟨.call callee arguments', .call hcallee hgap hrenders, ?_⟩
      rw [Expression.unplaced, Expression.unplaced, hsame]

theorem RendersArguments.relocate : ∀ {arguments : List Expression} {p : Position}
    {text : List Char}, RendersArguments RendersOperand p arguments text → ∀ q, ∃ arguments',
      RendersArguments RendersOperand q arguments' text ∧
      unplacedArguments arguments' = unplacedArguments arguments
  | [], _, _, .none hgap, _ => ⟨[], .none hgap, rfl⟩
  | argument :: arguments, _, _, h, q => by
    cases h with
    | @one _ before _ _ _ hbefore hargument hbehind =>
      obtain ⟨argument', hrenders, hsame⟩ := hargument.relocate (q.afterText before)
      refine ⟨[argument'], .one hbefore hrenders hbehind, ?_⟩
      simp only [unplacedArguments, hsame]
    | @more _ before text behind others _ second arguments hbefore hargument hbehind hmore =>
      obtain ⟨argument', hrenders, hsame⟩ := hargument.relocate (q.afterText before)
      obtain ⟨arguments', hothers, hrest⟩ :=
        hmore.relocate (q.afterText (before ++ (text ++ (behind ++ [',']))))
      cases arguments' with
      | nil => cases hrest
      | cons second' arguments' =>
        refine ⟨argument' :: second' :: arguments', .more hbefore hrenders hbehind hothers, ?_⟩
        rw [unplacedArguments, hrest, hsame, ← unplacedArguments]

end

theorem RendersValue.relocate {value : Expression} (h : RendersValue p value text) (q : Position) :
    ∃ value', RendersValue q value' text ∧ value'.unplaced = value.unplaced := by
  cases h with
  | operand h =>
    obtain ⟨value', hrenders, hsame⟩ := h.relocate q
    exact ⟨value', .operand hrenders, hsame⟩
  | query hbefore hne hbehind hleft hbody htrim hright =>
    exact ⟨_, .query hbefore hne hbehind hleft hbody htrim hright, rfl⟩

theorem RendersKind.relocate {kind : StatementKind} (h : RendersKind p kind text) (q : Position) :
    ∃ kind', RendersKind q kind' text ∧ kind'.unplaced = kind.unplaced := by
  cases h with
  | declaration hname hbefore hne hbehind hgap hvalue =>
    obtain ⟨value', hrenders, hsame⟩ := hvalue.relocate _
    exact ⟨_, .declaration hname hbefore hne hbehind hgap hrenders, by
      rw [StatementKind.unplaced, StatementKind.unplaced, hsame]⟩
  | returns hgap hstops hvalue =>
    obtain ⟨value', hrenders, hsame⟩ := hvalue.relocate _
    exact ⟨_, .returns hgap hstops hrenders, by
      rw [StatementKind.unplaced, StatementKind.unplaced, hsame]⟩
  | output hfirst hne hservice hfield hbehind hgap hvalue =>
    obtain ⟨value', hrenders, hsame⟩ := hvalue.relocate _
    exact ⟨_, .output hfirst hne hservice hfield hbehind hgap hrenders, by
      rw [StatementKind.unplaced, StatementKind.unplaced, hsame]⟩
  | mapping hservice hword hfield hbehind hgap hvalue =>
    obtain ⟨value', hrenders, hsame⟩ := hvalue.relocate _
    exact ⟨_, .mapping hservice hword hfield hbehind hgap hrenders, by
      rw [StatementKind.unplaced, StatementKind.unplaced, hsame]⟩
  | call hcall =>
    obtain ⟨value', hrenders, hsame⟩ := hcall.relocate q
    cases hrenders with
    | literal | reference => cases hsame
    | call hcallee hgap harguments =>
      refine ⟨_, .call (.call hcallee hgap harguments), ?_⟩
      rw [Expression.unplaced, Expression.unplaced] at hsame
      obtain ⟨rfl, harguments⟩ := Expression.call.inj hsame
      rw [StatementKind.unplaced, StatementKind.unplaced, harguments]

/-! ## Statements in a row -/

theorem Proper.relocate (h : Proper p pieces) (q : Position) :
    ∃ pieces', Proper q pieces' ∧ pieces'.map Piece.outline = pieces.map Piece.outline ∧
      pieces'.flatMap Piece.whole = pieces.flatMap Piece.whole := by
  induction h generalizing q with
  | nil => exact ⟨[], .nil, rfl, rfl⟩
  | @cons p piece pieces hkind hclosing hbehind hlast _ ih =>
    obtain ⟨kind, hrenders, hsame⟩ := hkind.relocate q
    obtain ⟨pieces', hproper, houtline, hwhole⟩ := ih (q.afterText piece.whole)
    refine ⟨{ piece with kind := kind } :: pieces', .cons hrenders hclosing hbehind ?_ hproper,
      ?_, ?_⟩
    · intro hmissing hnil hword
      rw [StatementKind.endsWithWord_eq_of_unplaced hsame] at hword
      rw [hlast hmissing hnil hword] at houtline
      exact List.map_eq_nil_iff.mp houtline
    · rw [List.map_cons, List.map_cons, houtline, Piece.outline, Piece.outline, hsame]
    · rw [List.flatMap_cons, List.flatMap_cons, hwhole]
      rfl

/-- The last piece ends with a word, and nothing sets it apart from a letter behind it. -/
def EndsInWord (pieces : List Piece) : Prop :=
  ∃ piece ∈ pieces.getLast?, piece.closing = none ∧ piece.behind = [] ∧
    piece.kind.last.endsWithWord = true

theorem Proper.append {more : List Piece} (h : Proper p pieces) (hword : ¬ EndsInWord pieces)
    (hmore : Proper (p.afterText (pieces.flatMap Piece.whole)) more) :
    Proper p (pieces ++ more) := by
  induction h with
  | nil => exact hmore
  | @cons p piece pieces hkind hclosing hbehind hlast _ ih =>
    rw [List.flatMap_cons, Position.afterText_append] at hmore
    refine .cons hkind hclosing hbehind (fun hmissing hnil hends => ?_) (ih ?_ hmore)
    · rw [hlast hmissing hnil hends] at hword
      exact absurd ⟨piece, rfl, hmissing, hnil, hends⟩ hword
    · rintro ⟨last, hmem, hopen⟩
      refine hword ⟨last, ?_, hopen⟩
      cases pieces with
      | nil => cases hmem
      | cons => exact hmem

/-- A statement between others, with its semicolon. It and what stands behind it may be written
there if they may be written anywhere. -/
theorem Proper.surround {before after : List Piece} {kind : StatementKind} {closing behind :
    List Char} {q : Position} (hbefore : Proper p before) (hword : ¬ EndsInWord before)
    (hkind : ∀ q, ∃ kind', RendersKind q kind' text ∧ kind'.unplaced = kind)
    (hclosing : IsGap closing) (hbehind : IsGap behind) (hafter : Proper q after) :
    ∃ pieces, Proper p pieces ∧
      pieces.map Piece.outline =
        before.map Piece.outline ++ (kind, true) :: after.map Piece.outline ∧
      pieces.flatMap Piece.whole = before.flatMap Piece.whole ++
        (text ++ (closing ++ ';' :: (behind ++ after.flatMap Piece.whole))) := by
  obtain ⟨kind', hrenders, rfl⟩ := hkind (p.afterText (before.flatMap Piece.whole))
  set piece : Piece := ⟨kind', text, some closing, behind⟩ with hpiece
  obtain ⟨after', hproper, houtline, hwhole⟩ := hafter.relocate
    ((p.afterText (before.flatMap Piece.whole)).afterText piece.whole)
  have hgap : ∀ gap ∈ piece.closing, IsGap gap := by
    rintro _ ⟨⟩
    exact hclosing
  have hrest : Proper (p.afterText (before.flatMap Piece.whole)) (piece :: after') :=
    .cons hrenders hgap hbehind (fun hmissing => nomatch hmissing) hproper
  refine ⟨before ++ piece :: after', hbefore.append hword hrest, ?_, ?_⟩
  · rw [List.map_append, List.map_cons, houtline]
    rfl
  · rw [List.flatMap_append, List.flatMap_cons, hwhole]
    simp only [hpiece, Piece.whole, Piece.ending, List.append_assoc, List.cons_append,
      List.nil_append]

/-- Pieces between the braces of a service parse to a script with their outlines. -/
theorem Proper.exists_parse {service : String} {front gap final : List Char}
    (h : Proper (Position.start.afterText (front ++ gap)) pieces)
    (hfront : RendersFront service front) (hgap : IsGap gap) (hfinal : IsFinalGap final) :
    ∃ script, parse (String.ofList (front ++ (gap ++ (pieces.flatMap Piece.whole ++
        '\x7d' :: final)))) = .ok script ∧
      script.outline = (service, pieces.map Piece.outline) := by
  refine ⟨_, h.parse_eq hfront hgap hfinal, ?_⟩
  rw [outline, Piece.outline_statements]

end ScriptForge.Script

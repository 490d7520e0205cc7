import ScriptForge.Proofs.Script.Parses
import ScriptForge.Proofs.Text.Collapse

/-!
# The pieces of a written script

`RendersStatements` says that statements may be written as a text, a list of pieces says how: which
part of the text each statement is, where its semicolon stands and which gaps are around it
(`RendersStatements.exists_pieces`, `Proper.renders`). The text of a statement has no blanks at its
ends (`RendersKind.trim_eq`).
-/

namespace ScriptForge.Script

open Token Text

variable {p : Position} {text : List Char}

/-! ## The ends of a statement -/

namespace Token

theorem IsName.ne_nil {first more : Char → Bool} (h : IsName first more text) : text ≠ [] := by
  obtain ⟨c, cs, rfl, -⟩ := h
  exact List.cons_ne_nil c cs

theorem IsName.trimEnd_eq {first more : Char → Bool} (h : IsName first more text)
    (hfirst : ∀ c, first c = true → isDashedChar c = true)
    (hmore : ∀ c, more c = true → isDashedChar c = true) : trimEnd text = text := by
  obtain ⟨c, cs, rfl, hc, hcs⟩ := h
  refine trimEnd_of_forall (List.forall_mem_cons.mpr ⟨?_, fun d hd => ?_⟩)
  · exact not_isBlank_of_isDashedChar (hfirst c hc)
  · exact not_isBlank_of_isDashedChar (hmore d (hcs d hd))

theorem IsPlainName.trimEnd_eq (h : IsPlainName text) : trimEnd text = text :=
  IsName.trimEnd_eq h
    (fun _ hc => isDashedChar_of_isIdentifierChar (isIdentifierChar_of_isAlpha hc))
    fun _ hc => isDashedChar_of_isIdentifierChar hc

theorem isDashedChar_of_isDigit {c : Char} (h : c.isDigit = true) : isDashedChar c = true := by
  simp [isDashedChar, isIdentifierChar, Char.isAlphanum, h]

theorem IsDigits.trimEnd_eq (h : IsDigits text) : trimEnd text = text :=
  IsName.trimEnd_eq h (fun _ => isDashedChar_of_isDigit) fun _ => isDashedChar_of_isDigit

theorem IsNumber.trimEnd_eq (h : IsNumber text) : trimEnd text = text := by
  obtain ⟨sign, whole, fraction, rfl, -, hwhole, hfraction⟩ := h
  refine trimEnd_append_of_ne_nil ?_ (List.append_ne_nil_of_left_ne_nil (IsName.ne_nil hwhole) _)
  rcases hfraction with rfl | ⟨digits, rfl, hdigits⟩
  · rw [List.append_nil]
    exact IsDigits.trimEnd_eq hwhole
  · rw [← List.singleton_append, ← List.append_assoc]
    exact trimEnd_append_of_ne_nil (IsDigits.trimEnd_eq hdigits) (IsName.ne_nil hdigits)

end Token

theorem RendersLiteral.trimEnd_eq {literal : Literal} (h : RendersLiteral literal text) :
    trimEnd text = text := by
  cases h with
  | string hstring =>
    obtain ⟨body, rfl, -⟩ := hstring
    rw [← List.cons_append]
    exact trimEnd_concat_of_not_blank (by decide)
  | number hnumber => exact IsNumber.trimEnd_eq hnumber
  | boolean hword => rcases hword with rfl | rfl <;> decide

theorem trimEnd_path {path : List (List Char)} (h : ∀ field ∈ path, IsPlainName field) :
    trimEnd (path.flatMap ('.' :: ·)) = path.flatMap ('.' :: ·) := by
  rcases List.eq_nil_or_concat path with rfl | ⟨path, field, rfl⟩
  · rfl
  · have hfield : IsPlainName field := h field (by simp)
    rw [List.concat_eq_append, List.flatMap_append, List.flatMap_singleton,
      ← List.singleton_append, ← List.append_assoc]
    exact trimEnd_append_of_ne_nil (IsPlainName.trimEnd_eq hfield) (IsName.ne_nil hfield)

theorem RendersReference.trimEnd_eq {reference : Reference}
    (h : RendersReference p reference text) : trimEnd text = text := by
  cases h with
  | @mk name path hname hpath =>
    by_cases hnil : path.flatMap ('.' :: ·) = []
    · rw [hnil, List.append_nil]
      exact IsPlainName.trimEnd_eq hname.1
    · exact trimEnd_append_of_ne_nil (trimEnd_path hpath) hnil

theorem RendersOperand.trimEnd_eq {value : Expression} (h : RendersOperand p value text) :
    trimEnd text = text := by
  cases h with
  | literal h => exact h.trimEnd_eq
  | reference h => exact h.trimEnd_eq
  | call =>
    rw [← List.cons_append, ← List.append_assoc, ← List.append_assoc]
    exact trimEnd_concat_of_not_blank (by decide)

theorem RendersValue.trimEnd_eq {value : Expression} (h : RendersValue p value text) :
    trimEnd text = text := by
  cases h with
  | operand h => exact h.trimEnd_eq
  | query =>
    simp only [← List.append_assoc, ← List.cons_append]
    exact trimEnd_concat_of_not_blank (by decide)

theorem RendersKind.trimEnd_eq {kind : StatementKind} (h : RendersKind p kind text) :
    trimEnd text = text := by
  have hbehind : ∀ {q : Position} {value : Expression} {written : List Char} (front : List Char),
      RendersValue q value written → trimEnd (front ++ written) = front ++ written :=
    fun _ hvalue => trimEnd_append_of_ne_nil hvalue.trimEnd_eq hvalue.ne_nil
  cases h with
  | declaration _ _ _ _ _ hvalue | returns _ _ hvalue | output _ _ _ _ _ _ hvalue
  | mapping _ _ _ _ _ hvalue =>
    simp only [← List.append_assoc, ← List.cons_append]
    exact hbehind _ hvalue
  | call h => exact h.trimEnd_eq

/-- A statement has no blanks at its ends. -/
theorem RendersKind.trim_eq {kind : StatementKind} (h : RendersKind p kind text) :
    trim text = text := by
  refine trim_eq_self_iff.mpr ⟨?_, h.trimEnd_eq⟩
  obtain ⟨c, cs, rfl, hc⟩ := h.front
  have hdashed := isDashedChar_of_isIdentifierChar (isIdentifierChar_of_isAlpha hc)
  exact trimStart_cons_of_not_blank (not_isBlank_of_isDashedChar hdashed)

/-! ## Pieces -/

/-- A statement as it is written: its text, the gap in front of its semicolon if it has one, and
the gap behind it. -/
structure Piece where
  kind : StatementKind
  text : List Char
  closing : Option (List Char)
  behind : List Char

namespace Piece

/-- What stands between the text of a statement and the gap behind it. -/
def ending (piece : Piece) : List Char :=
  match piece.closing with
  | some gap => gap ++ [';']
  | none => []

/-- All that is written of a statement. -/
def whole (piece : Piece) : List Char :=
  piece.text ++ (piece.ending ++ piece.behind)

/-- The statement that a piece is read as at a position. -/
def statement (p : Position) (piece : Piece) : Statement :=
  ⟨piece.kind, String.ofList (collapse piece.text), piece.closing.isSome, p⟩

/-- The statements that pieces in a row are read as, the first at a position. -/
def statements : Position → List Piece → List Statement
  | _, [] => []
  | p, piece :: pieces => piece.statement p :: statements (p.afterText piece.whole) pieces

end Piece

/-- Pieces that follow the rules, the first at a position. -/
inductive Proper : Position → List Piece → Prop
  | nil {p : Position} : Proper p []
  | cons {p : Position} {piece : Piece} {pieces : List Piece} :
      RendersKind p piece.kind piece.text → (∀ gap ∈ piece.closing, IsGap gap) →
      IsGap piece.behind →
      (piece.closing = none → piece.behind = [] → piece.kind.last.endsWithWord = true →
        pieces = []) →
      Proper (p.afterText piece.whole) pieces → Proper p (piece :: pieces)

variable {pieces : List Piece}

theorem RendersStatements.exists_pieces {statements : List Statement}
    (h : RendersStatements p statements text) :
    ∃ pieces, Proper p pieces ∧ Piece.statements p pieces = statements ∧
      pieces.flatMap Piece.whole = text := by
  induction h with
  | nil => exact ⟨[], .nil, rfl, rfl⟩
  | @cons p kind terminated statements text closing gap more hkind hend hgap hlast hmore ih =>
    obtain ⟨pieces, hproper, rfl, rfl⟩ := ih
    rw [List.append_assoc] at hproper hmore ⊢
    have hnil : Piece.statements (p.afterText (text ++ (closing ++ gap))) pieces = [] →
        pieces = [] := by
      intro hnil
      cases pieces with
      | nil => rfl
      | cons => cases hnil
    cases hend with
    | missing =>
      have hlast : gap = [] → kind.last.endsWithWord = true → pieces = [] :=
        fun hbehind hword => hnil (by simpa using hlast rfl hbehind hword)
      exact ⟨⟨kind, text, none, gap⟩ :: pieces, .cons hkind (by simp) hgap (fun _ => hlast) hproper,
        rfl, by simp [Piece.whole, Piece.ending]⟩
    | @semicolon gap' hgap' =>
      exact ⟨⟨kind, text, some gap', gap⟩ :: pieces,
        .cons hkind (by rintro _ ⟨⟩; exact hgap') hgap (fun hnone => nomatch hnone) hproper,
        rfl, by simp [Piece.whole, Piece.ending]⟩

theorem Proper.renders (h : Proper p pieces) :
    RendersStatements p (Piece.statements p pieces) (pieces.flatMap Piece.whole) := by
  induction h with
  | nil => exact .nil
  | @cons p piece pieces hkind hclosing hbehind hlast hmore ih =>
    have hend : RendersEnd piece.closing.isSome piece.ending := by
      unfold Piece.ending
      cases hclosed : piece.closing with
      | none => exact .missing
      | some gap => exact .semicolon (hclosing gap hclosed)
    rw [List.flatMap_cons, Piece.whole, List.append_assoc, List.append_assoc]
    refine .cons hkind hend hbehind (fun hmissing hnil hword => ?_)
      (by rw [List.append_assoc]; exact ih)
    rw [hlast (Option.isSome_eq_false_iff.mp hmissing |> Option.isNone_iff_eq_none.mp) hnil hword]
    rfl

/-- Pieces in a row start with a letter, if there are any. -/
theorem Proper.front (h : Proper p pieces) :
    pieces = [] ∨ ∃ c cs, pieces.flatMap Piece.whole = c :: cs ∧ c.isAlpha = true := by
  cases h with
  | nil => exact .inl rfl
  | cons hkind =>
    obtain ⟨c, cs, htext, hc⟩ := hkind.front
    exact .inr ⟨c, _, by rw [List.flatMap_cons, Piece.whole, htext]; rfl, hc⟩

/-! ## Whole scripts -/

/-- The front of a service: its name, up to the brace that opens it. -/
inductive RendersFront (service : String) : List Char → Prop
  | mk {gap before behind : List Char} : IsGap gap → IsGap before → before ≠ [] →
      IsDashedName service.toList → IsGap behind →
      RendersFront service
        (gap ++ ("service".toList ++ (before ++ (service.toList ++ (behind ++ ['\x7b'])))))

/-- A script is written as the front of a service, a gap, pieces, a closing brace and a gap behind
it. -/
structure WrittenIn (script : Script) (front gap : List Char) (pieces : List Piece)
    (final : List Char) : Prop where
  renders_front : RendersFront script.service front
  isGap : IsGap gap
  proper : Proper (Position.start.afterText (front ++ gap)) pieces
  statements_eq : script.statements =
    Piece.statements (Position.start.afterText (front ++ gap)) pieces
  isFinalGap : IsFinalGap final

theorem Renders.exists_pieces {script : Script} (h : Renders script text) :
    ∃ front gap pieces final, WrittenIn script front gap pieces final ∧
      text = front ++ (gap ++ (pieces.flatMap Piece.whole ++ '\x7d' :: final)) := by
  cases h with
  | @mk start text final hstart hservice hfinal =>
    cases hservice with
    | @mk service before behind gap text statements hbefore hne hname hbehind hgap hstatements =>
      obtain ⟨pieces, hproper, rfl, rfl⟩ := hstatements.exists_pieces
      rw [← Position.afterText_append] at hproper ⊢
      have hposition : start ++ ("service".toList ++ before ++ service ++ behind ++ '\x7b' :: gap) =
          start ++ ("service".toList ++ (before ++ (service ++ (behind ++ ['\x7b'])))) ++ gap := by
        simp
      rw [hposition] at hproper ⊢
      have hfront : RendersFront (String.ofList service)
          (start ++ ("service".toList ++ (before ++ (service ++ (behind ++ ['\x7b']))))) := by
        have hservice : (String.ofList service).toList = service := String.toList_ofList
        have hfront := RendersFront.mk hstart hbefore hne (hservice.symm ▸ hname) hbehind
        rwa [hservice] at hfront
      exact ⟨_, gap, pieces, final, ⟨hfront, hgap, hproper, rfl, hfinal⟩, by simp⟩

theorem WrittenIn.renders {script : Script} {front gap final : List Char}
    (h : WrittenIn script front gap pieces final) :
    Renders script (front ++ (gap ++ (pieces.flatMap Piece.whole ++ '\x7d' :: final))) := by
  obtain ⟨service, statements⟩ := script
  obtain ⟨hfront, hgap, hproper, hstatements, hfinal⟩ := h
  dsimp only at hfront hstatements
  subst hstatements
  cases hfront with
  | @mk start before behind hstart hbefore hne hname hbehind =>
    have hrenders := hproper.renders
    have hposition : start ++ ("service".toList ++ (before ++ (service.toList ++ (behind ++
        ['\x7b'])))) ++ gap =
        start ++ ("service".toList ++ before ++ service.toList ++ behind ++ '\x7b' :: gap) := by
      simp
    rw [hposition] at hrenders ⊢
    rw [Position.afterText_append] at hrenders ⊢
    have hservice := RendersService.mk hbefore hne hname hbehind hgap hrenders
    rw [String.ofList_toList] at hservice
    simpa using Renders.mk hstart hservice hfinal

/-- Pieces between the braces of a service parse to what they are read as. -/
theorem Proper.parse_eq {service : String} {front gap final : List Char}
    (h : Proper (Position.start.afterText (front ++ gap)) pieces)
    (hfront : RendersFront service front) (hgap : IsGap gap) (hfinal : IsFinalGap final) :
    parse (String.ofList (front ++ (gap ++ (pieces.flatMap Piece.whole ++ '\x7d' :: final)))) =
      .ok ⟨service, Piece.statements (Position.start.afterText (front ++ gap)) pieces⟩ := by
  have hwritten : WrittenIn ⟨service, _⟩ front gap pieces final :=
    ⟨hfront, hgap, h, rfl, hfinal⟩
  refine parse_of_renders ?_
  rw [String.toList_ofList]
  exact hwritten.renders

end ScriptForge.Script

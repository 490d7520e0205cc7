import ScriptForge.Proofs.Script.Occurrences
import ScriptForge.Proofs.Script.Spans

/-!
# Where the stops of the walk stand

`Along stands p items text` says that things stand in a text one behind the other and do not
overlap. The references in a value stand so in its text (`RendersOperand.along`), however deep calls
are nested in it, and the statements and references that a walk comes to stand so in the text of the
pieces (`Proper.along`), so their positions come one before the other (`Along.pairwise`).

The references in a statement stand within its span (`Proper.uses`), and the walk comes to the
statement before it comes to them (`exists_statement_of_split`).
-/

namespace ScriptForge.Script

open Token

variable {p q : Position} {text : List Char}

/-! ## Things along a text -/

/-- Things stand in a text one behind the other, the text at a position. What it is for a thing to
stand at a position with a text of its own is given; that text is not empty. -/
inductive Along {α : Type} (stands : α → Position → List Char → Prop) :
    Position → List α → List Char → Prop
  | nil {p : Position} {text : List Char} : Along stands p [] text
  | cons {p : Position} {a : α} {items : List α} {skip step behind : List Char} :
      stands a (p.afterText skip) step → step ≠ [] →
      Along stands (p.afterText (skip ++ step)) items behind →
      Along stands p (a :: items) (skip ++ (step ++ behind))

namespace Along

variable {α β : Type} {stands : α → Position → List Char → Prop}
  {stands' : β → Position → List Char → Prop} {items others : List α} {behind : List Char}

theorem skip (skip : List Char) (h : Along stands (p.afterText skip) items text) :
    Along stands p items (skip ++ text) := by
  cases h with
  | nil => exact .nil
  | @cons _ a items skip' step behind hstands hne hmore =>
    rw [← Position.afterText_append] at hstands hmore
    rw [← List.append_assoc skip]
    refine .cons hstands hne ?_
    rwa [List.append_assoc]

theorem append (h : Along stands p items text)
    (hothers : Along stands (p.afterText text) others behind) :
    Along stands p (items ++ others) (text ++ behind) := by
  induction h with
  | nil => exact hothers.skip _
  | @cons p a items skip step behind' hstands hne _ ih =>
    rw [List.append_assoc, List.append_assoc]
    refine .cons hstands hne (ih ?_)
    rwa [← Position.afterText_append, List.append_assoc]

theorem extend (h : Along stands p items text) : Along stands p items (text ++ behind) := by
  have happend : Along stands p (items ++ []) (text ++ behind) := h.append .nil
  rwa [List.append_nil] at happend

theorem map (f : α → β) (hf : ∀ a q step, stands a q step → stands' (f a) q step)
    (h : Along stands p items text) : Along stands' p (items.map f) text := by
  induction h with
  | nil => exact .nil
  | cons hstands hne _ ih => exact .cons (hf _ _ _ hstands) hne ih

/-- Each thing stands somewhere in the text. -/
theorem exists_of_mem {a : α} (h : Along stands p items text) (ha : a ∈ items) :
    ∃ skip step behind, text = skip ++ (step ++ behind) ∧ stands a (p.afterText skip) step := by
  induction h with
  | nil => cases ha
  | @cons p b items skip step behind hstands hne _ ih =>
    rcases List.mem_cons.mp ha with rfl | ha
    · exact ⟨skip, step, behind, rfl, hstands⟩
    · obtain ⟨skip', step', behind', rfl, hstands'⟩ := ih ha
      rw [← Position.afterText_append] at hstands'
      exact ⟨skip ++ step ++ skip', step', behind', by simp, hstands'⟩

end Along

/-- A position stands at itself, with any text. -/
def Position.StandsAt (place q : Position) (_ : List Char) : Prop :=
  place = q

/-- Positions along a text come one before the other. -/
theorem Along.pairwise {places : List Position} (h : Along Position.StandsAt p places text) :
    places.Pairwise fun q q' => q.before q' = true := by
  induction h with
  | nil => exact .nil
  | @cons p q places skip step behind hq hne hmore ih =>
    refine .cons (fun q' hq' => ?_) ih
    obtain ⟨skip', _, _, -, hplace⟩ := hmore.exists_of_mem hq'
    rw [Position.StandsAt] at hq hplace
    rw [hplace, hq, ← Position.afterText_append, List.append_assoc, Position.afterText_append]
    exact Position.before_afterText (List.append_ne_nil_of_left_ne_nil hne _)

/-! ## References in a value -/

/-- A reference as it is written: its name, and a point and a name for each field of its path. -/
def Reference.written (reference : Reference) : List Char :=
  reference.name.toList ++ reference.path.flatMap fun field => '.' :: field.toList

/-- A reference stands at its position as it is written. -/
def Reference.StandsAt (reference : Reference) (q : Position) (step : List Char) : Prop :=
  reference.position = q ∧ reference.written = step

theorem RendersReference.standsAt {reference : Reference}
    (h : RendersReference p reference text) : reference.StandsAt p text := by
  cases h with
  | mk => exact ⟨rfl, by simp [Reference.written, List.flatMap_map]⟩

theorem RendersReference.ne_nil {reference : Reference} (h : RendersReference p reference text) :
    text ≠ [] := by
  cases h with
  | mk hname _ => exact List.append_ne_nil_of_left_ne_nil (IsName.ne_nil hname.1) _

/-- One thing at the front of a text. -/
theorem Along.single {α : Type} {stands : α → Position → List Char → Prop} {a : α}
    (h : stands a p text) (hne : text ≠ []) : Along stands p [a] text := by
  have halong : Along stands p [a] ([] ++ (text ++ [])) := .cons h hne .nil
  rwa [List.append_nil] at halong

mutual

/-- The references in an operand stand in its text, in the order of the walk. -/
theorem RendersOperand.along : ∀ {value : Expression} {p : Position} {text : List Char},
    RendersOperand p value text → Along Reference.StandsAt p value.references text
  | .query _, _, _, h => nomatch h
  | .literal _, _, _, _ => .nil
  | .reference _, _, _, .reference h => .single h.standsAt h.ne_nil
  | .call _ arguments, p, text, h => by
    cases h with
    | @call _ _ _ name gap text _ _ harguments =>
      have hwhole : name ++ (gap ++ '(' :: (text ++ [')'])) =
          name ++ (gap ++ ['(']) ++ (text ++ [')']) := by simp
      rw [hwhole]
      exact harguments.along.extend.skip _

theorem RendersArguments.along : ∀ {arguments : List Expression} {p : Position} {text : List Char},
    RendersArguments RendersOperand p arguments text →
      Along Reference.StandsAt p (argumentReferences arguments) text
  | [], _, _, _ => .nil
  | argument :: arguments, p, text, h => by
    rw [argumentReferences]
    cases h with
    | one _ hargument _ => exact (hargument.along.append .nil).skip _
    | @more _ before text behind others _ second arguments _ hargument _ hmore =>
      have hwhole : before ++ (text ++ (behind ++ ',' :: others)) =
          before ++ (text ++ ((behind ++ [',']) ++ others)) := by simp
      have hplace : p.afterText (before ++ (text ++ (behind ++ [',']))) =
          ((p.afterText before).afterText text).afterText (behind ++ [',']) := by
        simp [Position.afterText_append]
      rw [hwhole]
      rw [hplace] at hmore
      exact (hargument.along.append (hmore.along.skip _)).skip _

end

theorem RendersValue.along {value : Expression} (h : RendersValue p value text) :
    Along Reference.StandsAt p value.references text := by
  cases h with
  | operand h => exact h.along
  | query => exact .nil

/-! ## References in a statement -/

/-- The references in a statement stand in its text, behind what it starts with. -/
theorem RendersKind.along {kind : StatementKind} (h : RendersKind p kind text) :
    ∃ front behind, front ≠ [] ∧ text = front ++ behind ∧
      Along Reference.StandsAt (p.afterText front) kind.references behind := by
  cases h with
  | @declaration name before behind gap text value hname _ _ _ _ hvalue =>
    exact ⟨"new".toList ++ before ++ name ++ behind ++ '=' :: gap, text, by simp, by simp,
      hvalue.along⟩
  | @returns gap text value _ _ hvalue =>
    exact ⟨"return".toList ++ gap, text, by simp, by simp, hvalue.along⟩
  | @output first service field behind gap text value _ _ _ _ _ _ hvalue =>
    exact ⟨"output".toList ++ first ++ service ++ '.' :: field ++ behind ++ '=' :: gap, text,
      by simp, by simp, hvalue.along⟩
  | @mapping service field behind gap text value _ _ _ _ _ hvalue =>
    exact ⟨service ++ '.' :: field ++ behind ++ '=' :: gap, text, by simp, by simp, hvalue.along⟩
  | call h =>
    cases h with
    | @call _ _ _ name gap text _ _ harguments =>
      exact ⟨name ++ (gap ++ ['(']), text ++ [')'], by simp, by simp, harguments.along.extend⟩

/-! ## Stops of the walk -/

namespace Visit

/-- The statement that the walk has come to, if it is one. -/
def statement? : Visit → Option Statement
  | statement visited => some visited
  | declaration _ _ | usage _ => none

/-- Where the statement or the reference stands that the walk has come to. -/
def place? : Visit → Option Position
  | statement visited => some visited.position
  | usage reference => some reference.position
  | declaration _ _ => none

end Visit

theorem Statement.places_visits (statement : Statement) :
    statement.visits.filterMap Visit.place? =
      statement.position :: statement.kind.references.map Reference.position := by
  simp [visits, Visit.place?, List.filterMap_append, List.filterMap_map, Function.comp_def]

theorem Statement.statements_visits (statement : Statement) :
    statement.visits.filterMap Visit.statement? = [statement] := by
  simp [visits, Visit.statement?, List.filterMap_append, List.filterMap_map]

theorem Proper.along {pieces : List Piece} (h : Proper p pieces) :
    Along Position.StandsAt p
      (((Piece.statements p pieces).flatMap Statement.visits).filterMap Visit.place?)
      (pieces.flatMap Piece.whole) := by
  induction h with
  | nil => exact .nil
  | @cons p piece pieces hkind _ _ _ _ ih =>
    obtain ⟨front, behind, hne, htext, halong⟩ := hkind.along
    have hreferences : Along Position.StandsAt (p.afterText front)
        (piece.kind.references.map Reference.position) behind :=
      halong.map Reference.position fun _ _ _ h => h.1
    have hplaces : Along Position.StandsAt p
        ((piece.statement p).visits.filterMap Visit.place?) (front ++ behind) := by
      rw [Statement.places_visits, ← List.nil_append (front ++ behind)]
      exact .cons rfl hne hreferences
    rw [Piece.statements, List.flatMap_cons, List.flatMap_cons, List.filterMap_append]
    refine Along.append ?_ ih
    rw [Piece.whole, htext]
    exact hplaces.extend

/-! ## References in the text of a statement -/

/-- A reference is written within the text of a statement that stands at a span. -/
def Uses (cs : List Char) (span : Span) (reference : Reference) : Prop :=
  ∃ offset, span.start ≤ offset ∧ offset + reference.written.length ≤ span.stop ∧
    reference.position = placeAt cs offset ∧ reference.written <+: cs.drop offset

theorem uses_of_append {reference : Reference} {before behind : List Char} {span : Span}
    (hposition : reference.position = Position.start.afterText before)
    (hstart : span.start ≤ before.length)
    (hstop : before.length + reference.written.length ≤ span.stop) :
    Uses (before ++ (reference.written ++ behind)) span reference := by
  refine ⟨before.length, hstart, hstop, ?_, ?_⟩
  · rw [placeAt_eq, List.take_left, hposition]
  · rw [List.drop_left]
    exact List.prefix_append _ _

/-- A statement in a script stands at a span, and the references in it within the span. -/
theorem Proper.uses {pieces : List Piece} {before : List Char} (h : Proper p pieces)
    (hp : p = Position.start.afterText before) (final : List Char) :
    ∀ statement ∈ Piece.statements p pieces, ∃ span,
      Stands (before ++ (pieces.flatMap Piece.whole ++ '\x7d' :: final)) statement span ∧
        ∀ reference ∈ statement.kind.references,
          Uses (before ++ (pieces.flatMap Piece.whole ++ '\x7d' :: final)) span reference := by
  induction pieces generalizing p before with
  | nil => exact fun _ hstatement => nomatch hstatement
  | cons piece pieces ih =>
    have hhead := h.stands_head hp final
    cases h with
    | cons hkind _ _ _ hmore =>
      rw [List.flatMap_cons, List.append_assoc]
      refine List.forall_mem_cons.mpr ⟨⟨_, hhead, fun reference hreference => ?_⟩, ?_⟩
      · obtain ⟨front, behind, -, htext, halong⟩ := hkind.along
        obtain ⟨skip, step, behind, rfl, hposition, rfl⟩ := halong.exists_of_mem hreference
        have hcs : ∀ rest, before ++ (piece.whole ++ rest) = before ++ front ++ skip ++
            (reference.written ++ (behind ++ (piece.ending ++ (piece.behind ++ rest)))) := by
          intro rest
          simp [Piece.whole, htext]
        rw [hcs]
        refine uses_of_append ?_ ?_ ?_
        · rw [hposition, hp, Position.afterText_append, Position.afterText_append]
        · simp only [Piece.span, List.length_append]
          omega
        · simp only [Piece.span, htext, List.length_append]
          omega
      · have hbehind : p.afterText piece.whole =
            Position.start.afterText (before ++ piece.whole) := by
          rw [hp, Position.afterText_append]
        have hmore := ih hmore hbehind
        rwa [List.append_assoc] at hmore

theorem Statement.usage_mem_visits {statement : Statement} {reference : Reference} :
    .usage reference ∈ statement.visits ↔ reference ∈ statement.kind.references := by
  simp [visits]

/-- The walk through a statement comes to the statement before it comes to a reference. -/
theorem Statement.statements_of_split {statement : Statement} {before after : List Visit}
    {reference : Reference} (h : statement.visits = before ++ .usage reference :: after) :
    before.filterMap Visit.statement? = [statement] := by
  have hstatements := statement.statements_visits
  rw [h, List.filterMap_append] at hstatements
  cases before with
  | nil => cases h
  | cons visit before =>
    obtain ⟨rfl, -⟩ := List.cons.inj h
    obtain ⟨-, hnone⟩ := List.cons.inj hstatements
    exact congrArg (statement :: ·) (List.append_eq_nil_iff.mp hnone).1

/-- The statement that the walk was at last, before it came to a reference. -/
theorem exists_statement_of_split {statements : List Statement} {before after : List Visit}
    {reference : Reference}
    (h : statements.flatMap Statement.visits = before ++ .usage reference :: after) :
    ∃ statement ∈ statements, reference ∈ statement.kind.references ∧
      (before.filterMap Visit.statement?).getLast? = some statement := by
  induction statements generalizing before with
  | nil => simp at h
  | cons statement statements ih =>
    rw [List.flatMap_cons] at h
    rcases List.append_eq_append_iff.mp h with ⟨more, hbefore, hmore⟩ | ⟨more, hvisits, hmore⟩
    · obtain ⟨found, hfound, hreference, hlast⟩ := ih hmore
      refine ⟨found, List.mem_cons_of_mem _ hfound, hreference, ?_⟩
      rw [hbefore, List.filterMap_append, List.getLast?_append, hlast, Option.some_or]
    · cases more with
      | nil =>
        -- the reference is in a later statement, which the walk was at before it
        obtain ⟨_, -, -, hlast⟩ := @ih [] hmore.symm
        cases hlast
      | cons visit more =>
        obtain ⟨rfl, -⟩ := List.cons.inj hmore
        refine ⟨statement, List.mem_cons_self, ?_, ?_⟩
        · rw [← Statement.usage_mem_visits, hvisits]
          simp
        · rw [statement.statements_of_split hvisits]
          rfl

end ScriptForge.Script

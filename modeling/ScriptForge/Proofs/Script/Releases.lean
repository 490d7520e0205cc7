import ScriptForge.Proofs.Script.Spans

/-!
# Taking semicolons away

The semicolon behind a statement may be missing, and nothing else of a script depends on it: where
the semicolons of some statements are replaced by spaces, the text still parses, and to the same
script but for the marks of those statements (`parse_withoutSemicolons`). The space keeps every
offset and every position, and parts the statement from the next one as the semicolon did.
-/

namespace ScriptForge.Script

open Token

/-- The text with spaces at some offsets. -/
def blanked (offsets : List Nat) (cs : List Char) : List Char :=
  cs.mapIdx fun i c => if i ∈ offsets then ' ' else c

/-- The offsets of the semicolons of the chosen statements. -/
def semicolons (chosen : Statement → Bool) (statements : List Statement) (spans : List Span) :
    List Nat :=
  (statements.zip spans).filterMap fun (statement, span) =>
    if chosen statement then span.semicolon else none

/-- The text with spaces in the place of the semicolons of the chosen statements. -/
def withoutSemicolons (chosen : Statement → Bool) (script : Script) (spans : List Span)
    (text : String) : String :=
  String.ofList (blanked (semicolons chosen script.statements spans) text.toList)

/-- A statement, without its semicolon if it is one of the chosen ones. -/
def Statement.released (chosen : Statement → Bool) (statement : Statement) : Statement :=
  if chosen statement then { statement with terminated := false } else statement

/-- The script without the semicolons of the chosen statements. -/
def released (chosen : Statement → Bool) (script : Script) : Script :=
  { script with statements := script.statements.map (Statement.released chosen) }

/-! ## Blanking -/

@[simp] theorem blanked_nil_offsets (cs : List Char) : blanked [] cs = cs :=
  List.ext_getElem (by simp [blanked]) (by simp [blanked])

theorem blanked_cons_offset (k : Nat) (offsets : List Nat) (cs : List Char) :
    blanked (k :: offsets) cs = (blanked offsets cs).set k ' ' := by
  refine List.ext_getElem (by simp [blanked]) fun i hi hi' => ?_
  by_cases h : i = k
  · subst h
    simp [blanked]
  · simp [blanked, h, List.getElem_set_ne (Ne.symm h)]

theorem semicolons_cons (chosen : Statement → Bool) (statement : Statement)
    (statements : List Statement) (span : Span) (spans : List Span) :
    semicolons chosen (statement :: statements) (span :: spans) =
      (if chosen statement then span.semicolon else none).toList ++
        semicolons chosen statements spans := by
  cases h : (if chosen statement then span.semicolon else none) <;>
    simp [semicolons, h]

/-! ## Pieces without their semicolons -/

namespace Piece

variable {chosen : Statement → Bool} {p q : Position} {piece : Piece}

/-- The piece with a space in the place of its semicolon. -/
def unclosed (piece : Piece) : Piece :=
  match piece.closing with
  | some gap => { piece with closing := none, behind := gap ++ ' ' :: piece.behind }
  | none => piece

/-- The piece that is left of one at a position. -/
def released (chosen : Statement → Bool) (p : Position) (piece : Piece) : Piece :=
  if chosen (piece.statement p) then piece.unclosed else piece

/-- The pieces that are left of pieces in a row, the first at a position. -/
def releasedAll (chosen : Statement → Bool) : Position → List Piece → List Piece
  | _, [] => []
  | p, piece :: pieces =>
    piece.released chosen p :: releasedAll chosen (p.afterText piece.whole) pieces

/-- A semicolon and a space take the same place. -/
theorem afterText_whole_unclosed : q.afterText piece.unclosed.whole = q.afterText piece.whole := by
  unfold unclosed
  cases hclosing : piece.closing with
  | none => rfl
  | some gap => simp [whole, ending, hclosing, Position.afterText_append, Position.after]

theorem afterText_whole_released :
    q.afterText (piece.released chosen p).whole = q.afterText piece.whole := by
  unfold released
  split
  · exact afterText_whole_unclosed
  · rfl

theorem statement_released :
    (piece.released chosen p).statement p = (piece.statement p).released chosen := by
  unfold released Statement.released
  split
  · unfold unclosed
    cases hclosing : piece.closing <;> simp [statement, hclosing]
  · rfl

theorem statements_releasedAll (chosen : Statement → Bool) (p : Position) (pieces : List Piece) :
    statements p (releasedAll chosen p pieces) =
      (statements p pieces).map (Statement.released chosen) := by
  induction pieces generalizing p with
  | nil => rfl
  | cons piece pieces ih =>
    rw [releasedAll, statements, statement_released, afterText_whole_released, ih]
    rfl

end Piece

section

variable {chosen : Statement → Bool} {p : Position} {pieces : List Piece}

theorem Proper.releasedAll (h : Proper p pieces) :
    Proper p (Piece.releasedAll chosen p pieces) := by
  induction h with
  | nil => exact .nil
  | @cons p piece pieces hkind hclosing hbehind hlast hmore ih =>
    have hnil : pieces = [] → Piece.releasedAll chosen (p.afterText piece.whole) pieces = [] := by
      rintro rfl
      rfl
    have hmore : Proper (p.afterText (piece.released chosen p).whole)
        (Piece.releasedAll chosen (p.afterText piece.whole) pieces) := by
      rwa [Piece.afterText_whole_released]
    unfold Piece.releasedAll
    generalize hreleased : piece.released chosen p = left at hmore ⊢
    unfold Piece.released Piece.unclosed at hreleased
    split at hreleased
    · split at hreleased
      · rename_i gap hclosed
        subst hreleased
        have hgap : IsGap (gap ++ ' ' :: piece.behind) :=
          (hclosing gap hclosed).append (.space (by decide) hbehind)
        -- the space parts the statement from what follows
        exact .cons hkind (by simp) hgap (fun _ hnone => by simp at hnone) hmore
      · subst hreleased
        exact .cons hkind hclosing hbehind (fun hnone hgap hword => hnil (hlast hnone hgap hword))
          hmore
    · subst hreleased
      exact .cons hkind hclosing hbehind (fun hnone hgap hword => hnil (hlast hnone hgap hword))
        hmore

theorem WrittenIn.released {script : Script} {front gap final : List Char}
    (h : WrittenIn script front gap pieces final) :
    WrittenIn (script.released chosen) front gap
      (Piece.releasedAll chosen (Position.start.afterText (front ++ gap)) pieces) final where
  renders_front := h.renders_front
  isGap := h.isGap
  proper := h.proper.releasedAll
  statements_eq := by
    rw [Piece.statements_releasedAll, ← h.statements_eq]
    rfl
  isFinalGap := h.isFinalGap

/-- Blanking the semicolons of chosen pieces leaves the released pieces. -/
theorem blanked_pieces (before after : List Char) :
    blanked (semicolons chosen (Piece.statements p pieces) (Piece.spans before.length pieces))
        (before ++ (pieces.flatMap Piece.whole ++ after)) =
      before ++ ((Piece.releasedAll chosen p pieces).flatMap Piece.whole ++ after) := by
  induction pieces generalizing p before with
  | nil => simp [semicolons, Piece.statements, Piece.releasedAll]
  | cons piece pieces ih =>
    have hbehind := @ih (p.afterText piece.whole) (before ++ piece.whole)
    rw [List.length_append, List.append_assoc, List.append_assoc] at hbehind
    rw [Piece.statements, Piece.spans, semicolons_cons, Piece.releasedAll, List.flatMap_cons,
      List.flatMap_cons, List.append_assoc, List.append_assoc]
    unfold Piece.released Piece.unclosed Piece.span
    split
    · cases hclosing : piece.closing with
      | none => simpa [hclosing] using hbehind
      | some gap =>
        generalize (Piece.releasedAll chosen (p.afterText piece.whole) pieces).flatMap
          Piece.whole ++ after = left at hbehind ⊢
        rw [Option.map_some, Option.toList_some, List.singleton_append, blanked_cons_offset,
          hbehind]
        simp [Piece.whole, Piece.ending, hclosing, Nat.add_assoc]
    · exact hbehind

end

/-- What is left when the semicolons of chosen statements are taken away. -/
theorem parse_withoutSemicolons {text : String} {script : Script} {spans : List Span}
    (hparse : parse text = .ok script) (hspans : LaidOut text.toList script spans)
    (chosen : Statement → Bool) :
    parse (withoutSemicolons chosen script spans text) = .ok (script.released chosen) := by
  obtain ⟨front, gap, pieces, final, hwritten, htext⟩ := (renders_of_parse hparse).exists_pieces
  rw [htext] at hspans
  refine parse_of_renders ?_
  rw [withoutSemicolons, String.toList_ofList, htext, hspans.unique hwritten.laidOut,
    hwritten.statements_eq, ← List.append_assoc front, ← List.length_append, blanked_pieces,
    List.append_assoc]
  exact hwritten.released.renders

end ScriptForge.Script

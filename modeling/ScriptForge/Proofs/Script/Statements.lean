import ScriptForge.Proofs.Script.Kinds

/-!
# Reading statements

A statement takes its semicolon if there is one behind a gap, and otherwise the gap alone. So the
gap behind a statement without a semicolon belongs to its node, but not to its text. Statements
follow one another until a closing brace; `statements_sound` and `statements_complete` go through
them by induction on the repetition and on `RendersStatements`.
-/

namespace ScriptForge.Script

open Token Phrase Text

variable {p : Position} {nodes : List Node} {text rest : List Char}

/-! ## One statement -/

theorem semicolon_eq_some_iff {cs : List Char} :
    (after? [';'] cs).map (fun rest => ([';'], rest)) = some (text, rest) ↔
      text = [';'] ∧ cs = text ++ rest := by
  rw [Option.map_eq_some_iff]
  constructor
  · rintro ⟨behind, hafter, heq⟩
    cases heq
    exact ⟨rfl, after?_eq_some_iff.mp hafter⟩
  · rintro ⟨rfl, rfl⟩
    exact ⟨rest, after?_eq_some_iff.mpr rfl, rfl⟩

instance : Splits fun cs => (after? [';'] cs).map fun rest => ([';'], rest) :=
  ⟨fun h => (semicolon_eq_some_iff.mp h).2⟩

/-- A semicolon or nothing. -/
def terminator : Phrase :=
  optional (token .terminator (after? [';'] · |>.map fun rest => ([';'], rest)))

instance : Lawful terminator :=
  inferInstanceAs (Lawful (optional (token .terminator _)))

instance : Lawful Grammar.statement :=
  inferInstanceAs (Lawful (rule .statement (spaced [body, terminator])))

theorem takes_statement : Takes Grammar.statement p nodes text rest ↔
    ∃ inner, nodes = [.mk .statement p text inner] ∧ ∃ nodes₁ text₁ gap nodes₂ text₂,
      inner = nodes₁ ++ nodes₂ ∧ text = text₁ ++ (gap ++ text₂) ∧
      Takes body p nodes₁ text₁ (gap ++ (text₂ ++ rest)) ∧
      Token.gap (gap ++ (text₂ ++ rest)) = (gap, text₂ ++ rest) ∧
      Takes terminator ((p.afterText text₁).afterText gap) nodes₂ text₂ rest := by
  change Takes (rule .statement (body.andThen (Phrase.gap.andThen terminator))) p nodes text rest ↔
    _
  rw [takes_rule]
  constructor
  · rintro ⟨inner, rfl, h⟩
    obtain ⟨nodes₁, text₁, nodes₂, _, rfl, rfl, hbody, hbehind⟩ := takes_andThen.mp h
    obtain ⟨gap, text₂, rfl, hgap, hend⟩ := takes_gap_andThen.mp hbehind
    rw [List.append_assoc] at hbody
    exact ⟨_, rfl, nodes₁, text₁, gap, nodes₂, text₂, rfl, rfl, hbody, hgap, hend⟩
  · rintro ⟨_, rfl, nodes₁, text₁, gap, nodes₂, text₂, rfl, rfl, hbody, hgap, hend⟩
    rw [← List.append_assoc] at hbody
    have hbehind := takes_gap_andThen.mpr ⟨gap, text₂, rfl, hgap, hend⟩
    exact ⟨_, rfl, takes_andThen.mpr ⟨_, _, _, _, rfl, rfl, hbody, hbehind⟩⟩

theorem statementOf_mk {r : Rule} {taken : List Char} {inner closing : List Node}
    {kind : StatementKind} (h : statementKindOf (.mk r p taken inner) = .ok kind) :
    statementOf (.mk .statement p text (.mk r p taken inner :: closing)) =
      .ok ⟨kind, String.ofList (collapse taken),
        closing.any fun child => child.rule == .terminator, p⟩ := by
  change (statementKindOf (.mk r p taken inner) >>= fun kind => _) = _
  rw [h]
  rfl

/-- A statement with its end, and the gap behind it if it has no semicolon. -/
theorem statement_sound (h : Takes Grammar.statement p nodes text rest)
    (hstart : Token.gap (text ++ rest) = ([], text ++ rest)) (hrest : rest ≠ []) :
    ∃ node kind terminated taken closing gap, nodes = [node] ∧ node.rule = .statement ∧
      text = taken ++ (closing ++ gap) ∧ RendersKind p kind taken ∧ RendersEnd terminated closing ∧
      IsGap gap ∧ statementOf node = .ok ⟨kind, String.ofList (collapse taken), terminated, p⟩ ∧
      (terminated = false → kind.last.endsWithWord = true →
        Stops isIdentifierChar (gap ++ rest)) := by
  obtain ⟨inner, rfl, nodes₁, taken, gap, nodes₂, text₂, rfl, rfl, hbody, hgap, hend⟩ :=
    takes_statement.mp h
  rw [List.append_assoc, List.append_assoc] at hstart
  obtain ⟨r, inner, kind, rfl, hbuilt, hrenders, hword⟩ := body_sound hbody hstart
  have hisGap := isGap_of_gap hgap (by simp [hrest])
  rcases takes_optional.mp hend with hend | ⟨rfl, rfl, -⟩
  · obtain ⟨rfl, hscan⟩ := takes_token.mp hend
    obtain ⟨rfl, -⟩ := semicolon_eq_some_iff.mp hscan
    exact ⟨_, kind, true, taken, gap ++ [';'], [], rfl, rfl, by simp, hrenders,
      .semicolon hisGap, .nil, statementOf_mk hbuilt, by simp⟩
  · exact ⟨_, kind, false, taken, [], gap, rfl, rfl, by simp, hrenders, .missing, hisGap,
      statementOf_mk hbuilt, fun _ => hword⟩

theorem statement_complete_of_semicolon {kind : StatementKind} {gap : List Char}
    (h : RendersKind p kind text) (hgap : IsGap gap) :
    ∃ node, node.rule = .statement ∧
      Takes Grammar.statement p [node] (text ++ (gap ++ [';'])) rest ∧
      statementOf node = .ok ⟨kind, String.ofList (collapse text), true, p⟩ := by
  have hparted : Parted kind.last (gap ++ ([';'] ++ rest)) :=
    parted_append hgap (by decide) (by decide) (by decide) _
  obtain ⟨r, inner, hbody, hbuilt⟩ := body_complete h hparted
  have hscan : Token.gap (gap ++ ([';'] ++ rest)) = (gap, [';'] ++ rest) :=
    gap_append hgap (stops_cons.mpr (by decide))
  have hend : Takes terminator ((p.afterText text).afterText gap) _ [';'] rest :=
    takes_optional.mpr (.inl (takes_token.mpr ⟨rfl, semicolon_eq_some_iff.mpr ⟨rfl, rfl⟩⟩))
  exact ⟨_, rfl, takes_statement.mpr ⟨_, rfl, _, _, _, _, _, rfl, rfl, hbody, hscan, hend⟩,
    statementOf_mk hbuilt⟩

/-- Where no semicolon stands, a statement takes the gap behind it. -/
theorem takes_statement_of_missing {gap : List Char} (h : Takes body p nodes text (gap ++ rest))
    (hgap : IsGap gap) (hstops : StopsGap rest) (hrest : ∀ cs, rest ≠ ';' :: cs) :
    Takes Grammar.statement p [.mk .statement p (text ++ gap) nodes] (text ++ gap) rest := by
  have hnone : (after? [';'] rest).map (fun rest => ([';'], rest)) = none := by
    rw [Option.map_eq_none_iff]
    cases hafter : after? [';'] rest with
    | none => rfl
    | some behind => exact absurd (after?_eq_some_iff.mp hafter) (hrest behind)
  have hend : Takes terminator ((p.afterText text).afterText gap) [] [] rest :=
    takes_optional.mpr (.inr ⟨rfl, rfl, refuses_token.mpr hnone⟩)
  have hscan : Token.gap (gap ++ ([] ++ rest)) = (gap, [] ++ rest) := gap_append hgap hstops
  have htakes := takes_statement.mpr ⟨_, rfl, _, _, _, _, _, rfl, rfl, h, hscan, hend⟩
  rwa [List.append_nil, List.append_nil] at htakes

theorem statement_complete_of_missing {kind : StatementKind} {gap : List Char}
    (h : RendersKind p kind text) (hgap : IsGap gap) (hparted : Parted kind.last (gap ++ rest))
    (hstops : StopsGap rest) (hrest : ∀ cs, rest ≠ ';' :: cs) :
    ∃ node, node.rule = .statement ∧ Takes Grammar.statement p [node] (text ++ gap) rest ∧
      statementOf node = .ok ⟨kind, String.ofList (collapse text), false, p⟩ := by
  obtain ⟨r, inner, hbody, hbuilt⟩ := body_complete h hparted
  exact ⟨_, rfl, takes_statement_of_missing hbody hgap hstops hrest, statementOf_mk hbuilt⟩

/-! ## Statements in a row -/

theorem RendersKind.front {kind : StatementKind} (h : RendersKind p kind text) :
    ∃ c cs, text = c :: cs ∧ c.isAlpha = true := by
  cases h with
  | declaration _ _ _ _ _ _ => exact ⟨'n', _, rfl, by decide⟩
  | returns _ _ _ => exact ⟨'r', _, rfl, by decide⟩
  | output _ _ _ _ _ _ _ => exact ⟨'o', _, rfl, by decide⟩
  | mapping hservice _ _ _ _ _ =>
    obtain ⟨c, cs, rfl, hc, -⟩ := hservice
    exact ⟨c, _, rfl, hc⟩
  | call hcall =>
    cases hcall with
    | call hcallee _ _ =>
      obtain ⟨c, cs, rfl, hc⟩ := hcallee.front
      exact ⟨c, _, rfl, hc⟩

/-- Statements in a row start with a letter, if there are any. -/
theorem RendersStatements.front {statements : List Statement}
    (h : RendersStatements p statements text) :
    statements = [] ∧ text = [] ∨ ∃ c cs, text = c :: cs ∧ c.isAlpha = true := by
  cases h with
  | nil => exact .inl ⟨rfl, rfl⟩
  | cons hkind _ _ _ _ =>
    obtain ⟨c, cs, rfl, hc⟩ := hkind.front
    exact .inr ⟨c, _, rfl, hc⟩

theorem RendersKind.ne_nil {kind : StatementKind} (h : RendersKind p kind text) : text ≠ [] := by
  obtain ⟨c, cs, rfl, -⟩ := h.front
  exact List.cons_ne_nil c cs

theorem consumes_body : Consumes body := by
  intro p nodes text rest h
  rcases takes_orElse.mp h with h | ⟨-, h⟩
  · obtain ⟨_, _, -, -, hrenders, -⟩ := declaration_sound h
    exact hrenders.ne_nil
  rcases takes_orElse.mp h with h | ⟨-, h⟩
  · obtain ⟨_, _, -, -, hrenders, -⟩ := returnStatement_sound h
    exact hrenders.ne_nil
  rcases takes_orElse.mp h with h | ⟨-, h⟩
  · obtain ⟨_, -, hbody⟩ := takes_rule.mp h
    obtain ⟨_, _, _, _, -, rfl, -, hmore⟩ := takes_andThen.mp hbody
    obtain ⟨_, _, rfl, -, hmapping⟩ := takes_gap_andThen.mp hmore
    obtain ⟨_, _, _, _, _, _, rfl, -⟩ := mapping_sound hmapping
    simp
  · obtain ⟨_, _, -, -, hrenders, -⟩ := callStatement_sound h
    exact hrenders.ne_nil

theorem consumes_statement : Consumes Grammar.statement := by
  intro p nodes text rest h
  obtain ⟨_, -, _, taken, _, _, _, -, rfl, hbody, -⟩ := takes_statement.mp h
  exact List.append_ne_nil_of_left_ne_nil (consumes_body _ _ _ _ hbody) _

/-- What is built from the nodes of statements. -/
def BuildsStatements (nodes : List Node) (statements : List Statement) : Prop :=
  nodes.mapM statementOf = .ok statements ∧ ∀ node ∈ nodes, node.rule = .statement

theorem BuildsStatements.cons {node : Node} {statement : Statement} {statements : List Statement}
    (h : BuildsStatements nodes statements) (hrule : node.rule = .statement)
    (hstatement : statementOf node = .ok statement) :
    BuildsStatements ([node] ++ nodes) (statement :: statements) := by
  refine ⟨?_, List.forall_mem_cons.mpr ⟨hrule, h.2⟩⟩
  rw [List.singleton_append, List.mapM_cons, hstatement, h.1]
  rfl

theorem statements_sound (h : Repeats Grammar.statement p nodes text rest) (hrest : rest ≠ []) :
    ∃ gap taken statements, text = gap ++ taken ∧ IsGap gap ∧ BuildsStatements nodes statements ∧
      RendersStatements (p.afterText gap) statements taken := by
  induction h with
  | @stop p gap rest hgap _ =>
    exact ⟨gap, [], [], (List.append_nil _).symm, isGap_of_gap hgap hrest, ⟨rfl, by simp⟩, .nil⟩
  | @step p nodes₁ nodes₂ gap text₁ text₂ rest hgap hstatement _ ih =>
    obtain ⟨gap', taken, statements, rfl, hgap', hbuilt, hrenders⟩ := ih hrest
    have hne : gap' ++ taken ++ rest ≠ [] := List.append_ne_nil_of_right_ne_nil _ hrest
    obtain ⟨node, kind, terminated, body, closing, behind, rfl, hrule, rfl, hkind, hend, hbehind,
      hstatement, hword⟩ := statement_sound hstatement (gap_behind hgap) hne
    have hgap := isGap_of_gap hgap (by simp [hrest])
    refine ⟨gap, body ++ (closing ++ (behind ++ gap' ++ taken)), _ :: statements, by simp, hgap,
      hbuilt.cons hrule hstatement, .cons hkind hend (hbehind.append hgap') ?_ ?_⟩
    · intro hterminated hnil hlast
      obtain ⟨rfl, rfl⟩ := List.append_eq_nil_iff.mp hnil
      rcases hrenders.front with ⟨hnone, -⟩ | ⟨c, cs, rfl, hc⟩
      · exact hnone
      · have hstops := stops_cons.mp (hword hterminated hlast)
        rw [isIdentifierChar_of_isAlpha hc] at hstops
        cases hstops
    · simpa [Position.afterText_append] using hrenders

theorem refuses_statement_of_brace : Refuses Grammar.statement p ('\x7d' :: rest) := rfl

/-- Behind a value that stands at the end of a statement without a semicolon. -/
theorem parted_of_missing {kind : StatementKind} {gap : List Char} {statements : List Statement}
    (hgap : IsGap gap) (hmore : RendersStatements p statements text)
    (hlast : gap = [] → kind.last.endsWithWord = true → statements = []) :
    Parted kind.last (gap ++ (text ++ '\x7d' :: rest)) := by
  by_cases hne : gap = []
  · subst hne
    rcases hmore.front with ⟨rfl, rfl⟩ | ⟨c, cs, rfl, hc⟩
    · exact parted_append .nil (by decide) (by decide) (by decide) _
    · have hdigit : c.isDigit = false := eq_false_of_ne_true fun h => not_isAlpha_of_isDigit h hc
      have hpoint : c ≠ '.' := by
        rintro rfl
        cases hc
      refine ⟨stops_cons.mpr (by simp [hdigit, hpoint]), fun hword => ?_⟩
      rw [hlast rfl hword] at hmore
      cases hmore
  · exact parted_of_gap hgap hne _

theorem RendersStatements.front_of_brace {statements : List Statement}
    (h : RendersStatements p statements text) (rest : List Char) :
    ∃ c cs, text ++ '\x7d' :: rest = c :: cs ∧ startsNoGap c = true ∧ c ≠ ';' := by
  rcases h.front with ⟨-, rfl⟩ | ⟨c, cs, rfl, hc⟩
  · exact ⟨'\x7d', rest, rfl, by decide, by decide⟩
  · refine ⟨c, _, rfl, startsNoGap_of_isAlpha hc, ?_⟩
    rintro rfl
    cases hc

theorem statements_complete {statements : List Statement} (h : RendersStatements p statements text)
    {q : Position} {gap : List Char} (hgap : IsGap gap) (hq : p = q.afterText gap) :
    ∃ nodes, Repeats Grammar.statement q nodes (gap ++ text) ('\x7d' :: rest) ∧
      BuildsStatements nodes statements := by
  induction h generalizing q gap with
  | @nil p =>
    have hscan : Token.gap (gap ++ '\x7d' :: rest) = (gap, '\x7d' :: rest) :=
      gap_append hgap (stops_cons.mpr (by decide))
    rw [List.append_nil]
    exact ⟨[], .stop hscan refuses_statement_of_brace, rfl, by simp⟩
  | @cons p kind terminated statements text closing behind more hkind hend hbehind hlast hmore ih =>
    subst hq
    have hscan : ∀ cs, Token.gap (gap ++ (text ++ cs)) = (gap, text ++ cs) := by
      intro cs
      obtain ⟨c, ds, rfl, hc⟩ := hkind.front
      exact gap_append hgap (stopsGap_of_startsNoGap (startsNoGap_of_isAlpha hc))
    cases hend with
    | missing =>
      -- the gap belongs to the node, so the next statement starts without one
      obtain ⟨nodes, hrepeats, hbuilt⟩ := ih .nil (Position.afterText_nil _).symm
      obtain ⟨c, cs, hfront, hstops, hsemicolon⟩ := hmore.front_of_brace rest
      obtain ⟨node, hrule, hstatement, hnode⟩ := statement_complete_of_missing hkind hbehind
        (parted_of_missing hbehind hmore (hlast rfl))
        (by rw [hfront]; exact stopsGap_of_startsNoGap hstops)
        (by rw [hfront]; exact fun _ h => hsemicolon (List.cons.inj h).1)
      have hrepeats : Repeats Grammar.statement ((q.afterText gap).afterText (text ++ behind)) nodes
          more ('\x7d' :: rest) := by
        simpa [Position.afterText_append] using hrepeats
      have hall := Repeats.step (by rw [List.append_assoc]; exact hscan _) hstatement hrepeats
      exact ⟨[node] ++ nodes, by simpa using hall, hbuilt.cons hrule hnode⟩
    | @semicolon gap' hgap' =>
      obtain ⟨nodes, hrepeats, hbuilt⟩ := ih hbehind (Position.afterText_append ..)
      obtain ⟨node, hrule, hstatement, hnode⟩ := statement_complete_of_semicolon hkind hgap'
      have hall := Repeats.step (by rw [List.append_assoc]; exact hscan _) hstatement hrepeats
      exact ⟨[node] ++ nodes, by simpa using hall, hbuilt.cons hrule hnode⟩

end ScriptForge.Script

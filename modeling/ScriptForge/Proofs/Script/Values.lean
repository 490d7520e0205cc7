import ScriptForge.Proofs.Script.Renders
import ScriptForge.Proofs.Script.Takes
import ScriptForge.Script.Parse

/-!
# Reading callees, literals and references

For each of these phrases, `…_sound` says that what it takes is written as `Renders…` has it, and
that the value is built from the node it leaves; `…_complete` that it takes every text that is
written so. A callee and a reference end with a word, a number may go on with a point, so
completeness asks that the text behind them is set apart (`Parted`).
-/

namespace ScriptForge.Script

open Token Phrase Text

variable {p : Position} {nodes : List Node} {text rest : List Char}

/-! ## Scanners split their text -/

instance (first more : Char → Bool) : Splits (name first more) :=
  ⟨fun h => (name_eq_some_iff.mp h).2.2⟩

instance : Splits plainName :=
  ⟨fun h => (name_eq_some_iff.mp h).2.2⟩

instance : Splits dashedName :=
  ⟨fun h => (name_eq_some_iff.mp h).2.2⟩

instance : Splits identifier :=
  ⟨fun h => (identifier_eq_some_iff.mp h).2.2⟩

instance : Splits declaredName :=
  ⟨fun h => (declaredName_eq_some_iff.mp h).2.2⟩

instance (expected : List Char) (more : Char → Bool) : Splits (Token.word expected more) :=
  ⟨fun h => (word_eq_some_iff.mp h).2.2⟩

instance : Splits operation :=
  ⟨fun h => (operation_eq_some_iff.mp h).2.2⟩

instance : Splits boolean :=
  ⟨fun h => (boolean_eq_some_iff.mp h).2.2⟩

instance : Splits number :=
  ⟨fun h => (number_sound h).2⟩

instance : Splits Token.string :=
  ⟨fun h => (string_eq_some_iff.mp h).2⟩

instance : Splits body :=
  ⟨fun h => (body_eq_some_iff.mp h).2⟩

/-! ## What stands behind a value -/

/-- The text behind a value does not go on with it: no digit and no point, and behind a word no
character of a dashed name, nor a slash that a function could follow. -/
def Parted (value : Expression) (rest : List Char) : Prop :=
  Stops (fun c => c.isDigit || c == '.') rest ∧ (value.endsWithWord = true →
    Stops isDashedChar rest ∧ ∀ c cs, rest = '/' :: c :: cs → c.isAlpha = false)

theorem not_isAlpha_of_isDigit {c : Char} (hdigit : c.isDigit = true) : ¬ c.isAlpha = true := by
  intro halpha
  have hnine : c.val ≤ '9'.val := of_decide_eq_true (Bool.and_eq_true_iff.mp hdigit).2
  have hletter : 'A'.val ≤ c.val := by
    rcases Bool.or_eq_true_iff.mp halpha with hupper | hlower
    · exact (of_decide_eq_true hupper).1
    · have ha : 'a'.val ≤ c.val := of_decide_eq_true (Bool.and_eq_true_iff.mp hlower).1
      exact UInt32.le_trans (by decide) ha
  exact absurd (UInt32.le_trans hletter hnine) (by decide)

theorem isDashedChar_of_isSpace {c : Char} (h : isSpace c = true) : isDashedChar c = false := by
  simp only [isSpace, Bool.or_eq_true, beq_iff_eq] at h
  rcases h with ((rfl | rfl) | rfl) | rfl <;> decide

theorem stops_append {gap : List Char} (h : IsGap gap) (hrest : Stops isDashedChar rest) :
    Stops isDashedChar (gap ++ rest) := by
  rcases h.front with rfl | ⟨c, cs, rfl, hspace⟩ | ⟨c, cs, rfl, -⟩
  · exact hrest
  · exact stops_cons.mpr (isDashedChar_of_isSpace hspace)
  · exact stops_cons.mpr (by decide)

/-- A word ends where a gap starts. -/
theorem stops_of_gap {gap : List Char} (h : IsGap gap) (hne : gap ≠ []) :
    Stops isDashedChar (gap ++ rest) := by
  rcases h.front with rfl | ⟨c, cs, rfl, hspace⟩ | ⟨c, cs, rfl, -⟩
  · exact absurd rfl hne
  · exact stops_cons.mpr (isDashedChar_of_isSpace hspace)
  · exact stops_cons.mpr (by decide)

theorem parted_of_gap {gap : List Char} (h : IsGap gap) (hne : gap ≠ []) (value : Expression) :
    Parted value (gap ++ rest) := by
  rcases h.front with rfl | ⟨d, ds, rfl, hspace⟩ | ⟨d, ds, rfl, hcomment⟩
  · exact absurd rfl hne
  · have hd : d = ' ' ∨ d = '\t' ∨ d = '\r' ∨ d = '\n' := by
      simpa [isSpace, or_assoc] using hspace
    rcases hd with rfl | rfl | rfl | rfl <;>
      exact ⟨stops_cons.mpr (by decide), fun _ => ⟨stops_cons.mpr (by decide), by simp⟩⟩
  · refine ⟨stops_cons.mpr (by decide), fun _ => ⟨stops_cons.mpr (by decide), ?_⟩⟩
    rintro _ _ ⟨⟩
    rcases hcomment with rfl | rfl <;> rfl

theorem parted_append {gap : List Char} (h : IsGap gap) {c : Char}
    (hdashed : isDashedChar c = false) (hpoint : c ≠ '.') (hslash : c ≠ '/') (value : Expression) :
    Parted value (gap ++ c :: rest) := by
  by_cases hne : gap = []
  · subst hne
    have hdigit : c.isDigit = false := by
      simp only [isDashedChar, isIdentifierChar, Char.isAlphanum, Bool.or_eq_false_iff] at hdashed
      exact hdashed.1.1.2
    refine ⟨by simp [hdigit, hpoint], fun _ => ⟨by simpa using hdashed, ?_⟩⟩
    rintro _ _ ⟨⟩
    exact absurd rfl hslash
  · exact parted_of_gap h hne value

/-! ## Callees -/

theorem callee_sound (h : Takes Grammar.callee p nodes text rest) :
    ∃ node callee, nodes = [node] ∧ calleeOf node = .ok callee ∧ RendersCallee callee text := by
  simp only [Grammar.callee, takes_rule, joined_cons, joined_singleton, takes_token_andThen,
    takes_symbol_andThen, takes_token, plainName, dashedName, name_eq_some_iff, and_true] at h
  obtain ⟨_, rfl, plugin, _, _, rfl, rfl, ⟨hplugin, -⟩, _, rfl, extension, _, _, rfl, rfl,
    ⟨hextension, -⟩, function, rfl, rfl, hfunction, -⟩ := h
  exact ⟨_, _, rfl, rfl, .mk hplugin hextension hfunction⟩

theorem callee_complete {callee : Callee} (h : RendersCallee callee text)
    (hrest : Stops isIdentifierChar rest) :
    ∃ node, Takes Grammar.callee p [node] text rest ∧ calleeOf node = .ok callee := by
  obtain ⟨hplugin, hextension, hfunction⟩ := h
  have hpoint : ∀ cs, Stops isDashedChar ('.' :: cs) := fun _ => stops_cons.mpr (by decide)
  have hslash : ∀ cs, Stops isIdentifierChar ('/' :: cs) := fun _ => stops_cons.mpr (by decide)
  simp only [Grammar.callee, takes_rule, joined_cons, joined_singleton, takes_token_andThen,
    takes_symbol_andThen, takes_token, plainName, dashedName, name_eq_some_iff, and_true]
  exact ⟨_, ⟨_, rfl, _, _, _, rfl, rfl, ⟨hplugin, hpoint _⟩, _, rfl, _, _, _, rfl, rfl,
    ⟨hextension, hslash _⟩, _, rfl, rfl, hfunction, hrest⟩, rfl⟩

/-! ## Literals -/

theorem literal_sound (h : Takes Grammar.literal p nodes text rest) :
    ∃ node literal, nodes = [node] ∧ operandOf node = .ok (.literal literal) ∧
      RendersLiteral literal text ∧
      (literal.kind = .boolean → Stops isIdentifierChar rest) := by
  simp only [Grammar.literal, takes_rule, firstOf, takes_orElse, takes_token, string_eq_some_iff,
    boolean_eq_some_iff, and_true] at h
  obtain ⟨_, rfl, ⟨rfl, hstring⟩ | ⟨-, ⟨rfl, hnumber⟩ | ⟨-, rfl, hboolean, hrest⟩⟩⟩ := h
  · exact ⟨_, _, rfl, rfl, .string hstring, fun h => by cases h⟩
  · exact ⟨_, _, rfl, rfl, .number (number_sound hnumber).1, fun h => by cases h⟩
  · exact ⟨_, _, rfl, rfl, .boolean hboolean, fun _ => hrest⟩

theorem literal_complete {literal : Literal} (h : RendersLiteral literal text)
    (hrest : Parted (.literal literal) rest) :
    ∃ node, Takes Grammar.literal p [node] text rest ∧
      operandOf node = .ok (.literal literal) := by
  simp only [Grammar.literal, takes_rule, firstOf, takes_orElse, takes_token, string_eq_some_iff,
    boolean_eq_some_iff, and_true, refuses_token]
  cases h with
  | string htext => exact ⟨_, ⟨_, rfl, .inl ⟨rfl, htext⟩⟩, rfl⟩
  | number htext =>
    refine ⟨_, ⟨_, rfl, .inr ⟨?_, .inl ⟨rfl, number_append htext hrest.1⟩⟩⟩, rfl⟩
    obtain ⟨c, cs, rfl, hc⟩ := htext.head
    refine string_eq_none ?_
    rintro rfl
    rcases hc with hc | hc <;> cases hc
  | boolean htext =>
    refine ⟨_, ⟨_, rfl, .inr ⟨?_, .inr ⟨?_, rfl, htext, ?_⟩⟩⟩, rfl⟩
    · rcases htext with rfl | rfl <;> rfl
    · rcases htext with rfl | rfl <;> rfl
    · exact (hrest.2 rfl).1.imp fun _ => isDashedChar_of_isIdentifierChar

/-! ## References -/

theorem takes_selection : Takes Grammar.selection p nodes text rest ↔
    ∃ field, text = '.' :: field ∧ nodes = [.mk .field (p.afterText ['.']) field []] ∧
      IsPlainName field ∧ Stops isIdentifierChar rest := by
  simp only [Grammar.selection, joined_cons, joined_singleton, takes_symbol_andThen, takes_token,
    plainName, name_eq_some_iff, and_true]
  rfl

instance : Lawful Grammar.selection :=
  inferInstanceAs (Lawful (joined _))

instance (limit : Nat) : Lawful (Grammar.selections limit) := by
  induction limit with
  | zero => exact inferInstanceAs (Lawful nothing)
  | succ limit ih => exact inferInstanceAs (Lawful (optional (Grammar.selection.andThen _)))

/-- The nodes of a path of fields. -/
def AreFields (nodes : List Node) (path : List (List Char)) : Prop :=
  nodes.map Node.string = path.map String.ofList ∧ ∀ node ∈ nodes, node.rule = .field

theorem areFields_cons {field : List Char} {path : List (List Char)} (h : AreFields nodes path) :
    AreFields (.mk .field p field [] :: nodes) (field :: path) := by
  obtain ⟨hstrings, hrules⟩ := h
  refine ⟨?_, List.forall_mem_cons.mpr ⟨rfl, hrules⟩⟩
  rw [List.map_cons, List.map_cons, hstrings]
  rfl

theorem selections_sound {limit : Nat} (h : Takes (Grammar.selections limit) p nodes text rest)
    (hstops : Stops isIdentifierChar (text ++ rest)) :
    ∃ path : List (List Char), text = path.flatMap ('.' :: ·) ∧
      (∀ field ∈ path, IsPlainName field) ∧ AreFields nodes path ∧ Stops isIdentifierChar rest := by
  induction limit generalizing p nodes text with
  | zero =>
    obtain ⟨rfl, rfl⟩ := takes_nothing.mp h
    exact ⟨[], rfl, by simp, ⟨rfl, by simp⟩, hstops⟩
  | succ limit ih =>
    rcases takes_optional.mp h with h | ⟨rfl, rfl, -⟩
    · obtain ⟨_, _, _, _, rfl, rfl, hfield, hmore⟩ := takes_andThen.mp h
      obtain ⟨field, rfl, rfl, hname, hstops⟩ := takes_selection.mp hfield
      obtain ⟨path, rfl, hpath, hnodes, hrest⟩ := ih hmore hstops
      exact ⟨field :: path, rfl, List.forall_mem_cons.mpr ⟨hname, hpath⟩, areFields_cons hnodes,
        hrest⟩
    · exact ⟨[], rfl, by simp, ⟨rfl, by simp⟩, hstops⟩

theorem selections_complete {limit : Nat} {path : List (List Char)} (hlimit : path.length ≤ limit)
    (hpath : ∀ field ∈ path, IsPlainName field)
    (hrest : Stops (fun c => isIdentifierChar c || c == '.') rest) :
    ∃ nodes, Takes (Grammar.selections limit) p nodes (path.flatMap ('.' :: ·)) rest ∧
      AreFields nodes path := by
  induction path generalizing limit p with
  | nil =>
    refine ⟨[], ?_, rfl, by simp⟩
    cases limit with
    | zero => exact takes_nothing.mpr ⟨rfl, rfl⟩
    | succ limit =>
      refine takes_optional.mpr (.inr ⟨rfl, rfl, refuses_andThen_of_first ?_⟩)
      refine refuses_of_not_takes fun _ _ _ heq htakes => ?_
      obtain ⟨field, rfl, -⟩ := takes_selection.mp htakes
      rw [heq] at hrest
      cases stops_cons.mp hrest
  | cons field path ih =>
    obtain ⟨hname, hpath⟩ := List.forall_mem_cons.mp hpath
    cases limit with
    | zero => cases hlimit
    | succ limit =>
      have hstops : Stops isIdentifierChar (path.flatMap ('.' :: ·) ++ rest) := by
        cases path with
        | nil => exact hrest.imp fun c hc => by simp [hc]
        | cons field path => exact stops_cons.mpr (by decide)
      obtain ⟨nodes, hmore, hnodes⟩ :=
        ih (p := p.afterText ('.' :: field)) (Nat.le_of_succ_le_succ hlimit) hpath
      have hfield := takes_selection (p := p).mpr ⟨field, rfl, rfl, hname, hstops⟩
      exact ⟨_, takes_optional.mpr (.inl (hfield.andThen hmore)), areFields_cons hnodes⟩

theorem operandOf_reference {q : Position} {name : List Char} {path : List (List Char)}
    (h : AreFields nodes path) :
    operandOf (.mk .reference p text (.mk .identifier q name [] :: nodes)) =
      .ok (.reference ⟨String.ofList name, path.map String.ofList, p⟩) := by
  have hfields : nodes.filter (fun node => node.rule == .field) = nodes :=
    List.filter_eq_self.mpr fun node hnode => by rw [h.2 node hnode]; rfl
  have hbuilt : operandOf (.mk .reference p text (.mk .identifier q name [] :: nodes)) =
      .ok (.reference ⟨String.ofList name, (nodes.filter fun node => node.rule == .field).map
        Node.string, p⟩) := rfl
  rw [hbuilt, hfields, h.1]

theorem length_le_length_flatMap (path : List (List Char)) :
    path.length ≤ (path.flatMap ('.' :: ·)).length := by
  induction path with
  | nil => exact Nat.le_refl _
  | cons field path ih =>
    rw [List.flatMap_cons, List.length_append, List.length_cons, List.length_cons]
    omega

instance : Lawful fun cursor => Grammar.selections cursor.rest.length cursor :=
  .of_cursor (fun cursor => Grammar.selections cursor.rest.length) fun _ => inferInstance

theorem reference_sound (h : Takes Grammar.reference p nodes text rest) :
    ∃ node reference, nodes = [node] ∧ operandOf node = .ok (.reference reference) ∧
      RendersReference p reference text ∧ Stops isIdentifierChar rest := by
  simp only [Grammar.reference, takes_rule, joined_cons, joined_singleton, takes_token_andThen,
    identifier_eq_some_iff, and_true] at h
  obtain ⟨_, rfl, name, _, _, rfl, rfl, ⟨hname, hstops⟩, hmore⟩ := h
  obtain ⟨path, rfl, hpath, hnodes, hrest⟩ := selections_sound hmore hstops
  exact ⟨_, _, rfl, operandOf_reference hnodes, .mk hname hpath, hrest⟩

/-- No path of fields goes on behind a reference that is set apart from the text behind it. -/
theorem Parted.stops_path {reference : Reference} (h : Parted (.reference reference) rest) :
    Stops (fun c => isIdentifierChar c || c == '.') rest := by
  obtain ⟨hpoint, hword⟩ := h
  intro c hc
  have hdashed := (hword rfl).1 c hc
  have hpoint := hpoint c hc
  simp_all [isDashedChar]

theorem reference_complete {reference : Reference} (h : RendersReference p reference text)
    (hrest : Stops (fun c => isIdentifierChar c || c == '.') rest) :
    ∃ node, Takes Grammar.reference p [node] text rest ∧
      operandOf node = .ok (.reference reference) := by
  cases h with
  | @mk name path hname hpath =>
    have hlength : path.length ≤ (path.flatMap ('.' :: ·) ++ rest).length := by
      have hpieces := length_le_length_flatMap path
      rw [List.length_append]
      omega
    obtain ⟨nodes, hmore, hnodes⟩ :=
      selections_complete (p := p.afterText name) hlength hpath hrest
    have hbehind : Stops isIdentifierChar (path.flatMap ('.' :: ·) ++ rest) := by
      cases path with
      | nil => exact hrest.imp fun c hc => by simp [hc]
      | cons field path => exact stops_cons.mpr (by decide)
    simp only [Grammar.reference, takes_rule, joined_cons, joined_singleton, takes_token_andThen,
      identifier_eq_some_iff, and_true]
    exact ⟨_, ⟨_, rfl, name, _, nodes, rfl, rfl, ⟨hname, hbehind⟩, hmore⟩,
      operandOf_reference hnodes⟩

/-! ## Telling them apart -/

instance : Lawful Grammar.callee :=
  inferInstanceAs (Lawful (rule .callee (joined _)))

instance : Lawful Grammar.literal :=
  inferInstanceAs (Lawful (rule .literal (firstOf _)))

instance : Lawful Grammar.reference :=
  inferInstanceAs (Lawful (rule .reference (joined _)))

theorem callee_refuses_of_head {c : Char} (h : c.isAlpha = false) :
    Refuses Grammar.callee p (c :: rest) := by
  refine refuses_rule.mpr (refuses_andThen_of_first (refuses_token.mpr ?_))
  simp [dashedName, name, h]

theorem reference_refuses_of_head {c : Char} (h : c.isAlpha = false) :
    Refuses Grammar.reference p (c :: rest) := by
  refine refuses_rule.mpr (refuses_andThen_of_first (refuses_token.mpr ?_))
  simp [identifier, plainName, name, h]

/-- A name with a path of fields is no callee, unless a slash and a function follow. -/
theorem callee_refuses_of_path {name : List Char} {path : List (List Char)}
    (hname : IsPlainName name) (hpath : ∀ field ∈ path, IsPlainName field)
    (hpoint : Stops (fun c => c.isDigit || c == '.') rest) (hdashed : Stops isDashedChar rest)
    (hslash : ∀ c cs, rest = '/' :: c :: cs → c.isAlpha = false) :
    Refuses Grammar.callee p (name ++ (path.flatMap ('.' :: ·) ++ rest)) := by
  refine refuses_of_not_takes fun nodes text' rest' heq htakes => ?_
  obtain ⟨-, -, -, -, @⟨plugin, extension, function, hplugin, hextension, hfunction⟩⟩ :=
    callee_sound htakes
  have hidentifier := hdashed.imp fun _ => isDashedChar_of_isIdentifierChar
  rw [List.append_assoc, List.cons_append, List.append_assoc, List.cons_append] at heq
  have hbehind : Stops isDashedChar (path.flatMap ('.' :: ·) ++ rest) := by
    cases path with
    | nil => exact hdashed
    | cons field path => exact stops_cons.mpr (by decide)
  obtain ⟨rfl, htail⟩ := run_unique (fun c hc => isDashedChar_of_isIdentifierChar (hname.all c hc))
    hbehind hplugin.all (stops_cons.mpr (by decide)) heq
  cases path with
  | nil =>
    rw [List.flatMap_nil, List.nil_append] at htail
    rw [htail] at hpoint
    cases stops_cons.mp hpoint
  | cons field path =>
    obtain ⟨hfield, -⟩ := List.forall_mem_cons.mp hpath
    rw [List.flatMap_cons, List.cons_append, List.cons_append, List.append_assoc] at htail
    have hmore : Stops isIdentifierChar (path.flatMap ('.' :: ·) ++ rest) := by
      cases path with
      | nil => exact hidentifier
      | cons field path => exact stops_cons.mpr (by decide)
    obtain ⟨rfl, hlast⟩ := run_unique hfield.all hmore hextension.all
      (stops_cons.mpr (by decide)) (List.cons.inj htail).2
    cases path with
    | nil =>
      obtain ⟨c, cs, rfl, hc, -⟩ := hfunction
      rw [hslash c _ hlast] at hc
      cases hc
    | cons field path => cases hlast

theorem callee_refuses_of_literal {literal : Literal} (h : RendersLiteral literal text)
    (hrest : Parted (.literal literal) rest) : Refuses Grammar.callee p (text ++ rest) := by
  cases h with
  | string htext =>
    obtain ⟨body, rfl, -⟩ := htext
    exact callee_refuses_of_head (by decide)
  | number htext =>
    obtain ⟨c, cs, rfl, hc⟩ := htext.head
    refine callee_refuses_of_head (eq_false_of_ne_true fun halpha => ?_)
    rcases hc with hc | rfl
    · exact not_isAlpha_of_isDigit hc halpha
    · cases halpha
  | boolean htext =>
    obtain ⟨hpoint, hword⟩ := hrest
    obtain ⟨hdashed, hslash⟩ := hword rfl
    have hname : IsPlainName text := by
      rcases htext with rfl | rfl <;>
        exact ⟨_, _, rfl, by decide, List.all_eq_true.mp (by decide)⟩
    have hpath : ∀ field ∈ ([] : List (List Char)), IsPlainName field := by simp
    exact callee_refuses_of_path hname hpath hpoint hdashed hslash

theorem callee_refuses_of_reference {reference : Reference}
    (h : RendersReference p reference text) (hrest : Parted (.reference reference) rest) :
    Refuses Grammar.callee p (text ++ rest) := by
  cases h with
  | mk hname hpath =>
    obtain ⟨hpoint, hword⟩ := hrest
    obtain ⟨hdashed, hslash⟩ := hword rfl
    rw [List.append_assoc]
    exact callee_refuses_of_path hname.1 hpath hpoint hdashed hslash

theorem boolean_eq_none_of_identifier {name : List Char} (hname : IsIdentifier name)
    (hrest : Stops isIdentifierChar rest) : boolean (name ++ rest) = none := by
  rw [boolean, either, word_eq_none_of_identifier (by decide) hname hrest,
    word_eq_none_of_identifier (by decide) hname hrest]
  rfl

theorem literal_refuses_of_reference {reference : Reference}
    (h : RendersReference p reference text) (hrest : Stops isIdentifierChar rest) :
    Refuses Grammar.literal p (text ++ rest) := by
  cases h with
  | @mk name path hname hpath =>
    have hstops : Stops isIdentifierChar (path.flatMap ('.' :: ·) ++ rest) := by
      cases path with
      | nil => exact hrest
      | cons field path => exact stops_cons.mpr (by decide)
    have hboolean := boolean_eq_none_of_identifier hname hstops
    obtain ⟨⟨c, cs, rfl, hc, -⟩, -⟩ := hname
    rw [List.append_assoc]
    refine refuses_rule.mpr (refuses_orElse.mpr ⟨?_, refuses_orElse.mpr ⟨?_, ?_⟩⟩)
    · exact refuses_token.mpr (string_eq_none (by rintro rfl; cases hc))
    · refine refuses_token.mpr (number_eq_none (eq_false_of_ne_true fun hdigit => ?_)
        (by rintro rfl; cases hc))
      exact not_isAlpha_of_isDigit hdigit hc
    · exact refuses_token.mpr hboolean

end ScriptForge.Script

import ScriptForge.Proofs.Script.Tokens

/-!
# Gaps

A gap is any mix of spaces, comments to the end of a line and closed block comments. At the end of
the text the line of the last comment may be open. The scanner takes a gap as far as it goes: what
it takes is a gap (`gap_sound`), and it takes every gap that no space and no slash follows
(`gap_append`).
-/

namespace ScriptForge.Script

namespace Token

/-- Line feed or carriage return. -/
def isLineBreak (c : Char) : Bool :=
  c == '\n' || c == '\r'

/-- A mix of spaces and comments, which may end in an open line only at the end of a text. -/
inductive IsGapTo (atEnd : Bool) : List Char → Prop
  | nil : IsGapTo atEnd []
  | space {c : Char} {cs : List Char} (hspace : isSpace c = true) :
      IsGapTo atEnd cs → IsGapTo atEnd (c :: cs)
  | line {text cs : List Char} {c : Char} (htext : ∀ d ∈ text, isLineBreak d = false)
      (hbreak : isLineBreak c = true) :
      IsGapTo atEnd cs → IsGapTo atEnd ('/' :: '/' :: (text ++ c :: cs))
  | block {text cs : List Char} (htext : ¬ ['*', '/'] <:+: text) :
      IsGapTo atEnd cs → IsGapTo atEnd ('/' :: '*' :: (text ++ '*' :: '/' :: cs))
  | openLine {text : List Char} (htext : ∀ d ∈ text, isLineBreak d = false)
      (hend : atEnd = true) : IsGapTo atEnd ('/' :: '/' :: text)

/-- A gap between two tokens. -/
abbrev IsGap : List Char → Prop := IsGapTo false

/-- A gap at the end of the text. -/
abbrev IsFinalGap : List Char → Prop := IsGapTo true

theorem isGap_space : IsGap [' '] :=
  .space (by decide) .nil

/-- The text does not go on with a space or a slash. -/
abbrev StopsGap : List Char → Prop :=
  Stops fun c => isSpace c || c == '/'

/-- No gap starts with the character. -/
def startsNoGap (c : Char) : Bool :=
  !(isSpace c || c == '/')

theorem stopsGap_of_startsNoGap {c : Char} {cs : List Char} (h : startsNoGap c = true) :
    StopsGap (c :: cs) :=
  stops_cons.mpr (by simpa [startsNoGap] using h)

theorem startsNoGap_of_isIdentifierChar {c : Char} (h : Text.isIdentifierChar c = true) :
    startsNoGap c = true := by
  refine Bool.not_eq_true' _ |>.mpr (eq_false_of_ne_true fun hgap => ?_)
  simp only [isSpace, Bool.or_eq_true, beq_iff_eq] at hgap
  rcases hgap with (((rfl | rfl) | rfl) | rfl) | rfl <;> cases h

theorem stopsGap_of_isIdentifierChar {c : Char} {cs : List Char}
    (h : Text.isIdentifierChar c = true) : StopsGap (c :: cs) :=
  stopsGap_of_startsNoGap (startsNoGap_of_isIdentifierChar h)

theorem startsNoGap_of_isAlpha {c : Char} (h : c.isAlpha = true) : startsNoGap c = true :=
  startsNoGap_of_isIdentifierChar (isIdentifierChar_of_isAlpha h)

/-- A gap ends where a dashed name starts. -/
theorem IsDashedName.stopsGap {name rest : List Char} (h : IsDashedName name) :
    StopsGap (name ++ rest) := by
  obtain ⟨c, cs, rfl, hc, -⟩ := h
  exact stopsGap_of_startsNoGap (startsNoGap_of_isAlpha hc)

/-- A word would run on into a dashed name if no gap parted them. -/
theorem ne_nil_of_stops {gap name rest : List Char} (h : IsDashedName name)
    (hstops : Stops Text.isDashedChar (gap ++ (name ++ rest))) : gap ≠ [] := by
  rintro rfl
  obtain ⟨c, cs, rfl, hc, -⟩ := h
  have hdashed := isDashedChar_of_isIdentifierChar (isIdentifierChar_of_isAlpha hc)
  rw [stops_cons.mp hstops] at hdashed
  cases hdashed

theorem IsGap.append {atEnd : Bool} {first second : List Char} (hfirst : IsGap first)
    (hsecond : IsGapTo atEnd second) : IsGapTo atEnd (first ++ second) := by
  induction hfirst with
  | nil => exact hsecond
  | space hspace _ ih => exact .space hspace ih
  | line htext hbreak _ ih =>
    rw [List.cons_append, List.cons_append, List.append_assoc]
    exact .line htext hbreak ih
  | block htext _ ih =>
    rw [List.cons_append, List.cons_append, List.append_assoc]
    exact .block htext ih
  | openLine _ hend => cases hend

/-- A gap starts with a space or a slash. -/
theorem IsGapTo.head {atEnd : Bool} {c : Char} {cs : List Char} (h : IsGapTo atEnd (c :: cs)) :
    isSpace c = true ∨ c = '/' := by
  cases h with
  | space hspace _ => exact .inl hspace
  | _ => exact .inr rfl

theorem IsGapTo.front {atEnd : Bool} {gap : List Char} (h : IsGapTo atEnd gap) :
    gap = [] ∨ (∃ c cs, gap = c :: cs ∧ isSpace c = true) ∨
      ∃ c cs, gap = '/' :: c :: cs ∧ (c = '/' ∨ c = '*') := by
  cases h with
  | nil => exact .inl rfl
  | space hspace _ => exact .inr (.inl ⟨_, _, rfl, hspace⟩)
  | line _ _ _ => exact .inr (.inr ⟨_, _, rfl, .inl rfl⟩)
  | openLine _ _ => exact .inr (.inr ⟨_, _, rfl, .inl rfl⟩)
  | block _ _ => exact .inr (.inr ⟨_, _, rfl, .inr rfl⟩)

theorem IsGapTo.eq_nil {atEnd : Bool} {gap rest cs : List Char} {c : Char} (h : IsGapTo atEnd gap)
    (heq : gap ++ rest = c :: cs) (hc : startsNoGap c = true) : gap = [] := by
  rcases h.front with rfl | ⟨d, ds, rfl, hspace⟩ | ⟨d, ds, rfl, -⟩
  · rfl
  · obtain ⟨rfl, -⟩ := List.cons.inj heq
    simp [startsNoGap, hspace] at hc
  · obtain ⟨rfl, -⟩ := List.cons.inj heq
    cases hc

/-! ## What the scanner takes -/

theorem gapIn_line_cons {text : List Char} {d : Char} (hd : isLineBreak d = false) :
    gapIn .line (d :: text) = push [d] (gapIn .line text) := by
  have hopen : ¬ (d == '\n' || d == '\r') = true := by
    rw [isLineBreak] at hd
    simp [hd]
  rw [gapIn, if_neg hopen]

theorem gapIn_line {text rest : List Char} {c : Char} (htext : ∀ d ∈ text, isLineBreak d = false)
    (hbreak : isLineBreak c = true) :
    gapIn .line (text ++ c :: rest) = push (text ++ [c]) (gapIn .between rest) := by
  induction text with
  | nil =>
    have hclosed : (c == '\n' || c == '\r') = true := hbreak
    rw [List.nil_append, gapIn, if_pos hclosed]
    rfl
  | cons d text ih =>
    obtain ⟨hd, htext⟩ := List.forall_mem_cons.mp htext
    rw [List.cons_append, gapIn_line_cons hd, ih htext]
    rfl

theorem gapIn_openLine {text : List Char} (htext : ∀ d ∈ text, isLineBreak d = false) :
    gapIn .line text = (text, []) := by
  induction text with
  | nil => rfl
  | cons d text ih =>
    obtain ⟨hd, htext⟩ := List.forall_mem_cons.mp htext
    rw [gapIn_line_cons hd, ih htext]
    rfl

theorem not_infix_cons {c : Char} {text : List Char} (h : ¬ ['*', '/'] <:+: c :: text) :
    ¬ ['*', '/'] <:+: text :=
  fun hinside => h (hinside.trans (List.suffix_cons c text).isInfix)

/-- A star and a slash do not start a text that ends before them. -/
theorem star_slash_of_not_infix {c d : Char} {text rest more : List Char}
    (h : ¬ ['*', '/'] <:+: c :: text) (heq : text ++ '*' :: '/' :: rest = d :: more) :
    ¬ (c = '*' ∧ d = '/') := by
  rintro ⟨rfl, rfl⟩
  cases text with
  | nil => simp at heq
  | cons e text =>
    rw [List.cons_append] at heq
    cases heq
    exact h ⟨[], text, rfl⟩

theorem closesComment_append {text rest : List Char} :
    closesComment (text ++ '*' :: '/' :: rest) = true := by
  induction text with
  | nil => rfl
  | cons c text ih =>
    rw [List.cons_append]
    unfold closesComment
    split
    · contradiction
    · rfl
    · rename_i heq
      cases heq
      exact ih

theorem gapIn_block {text rest : List Char} (htext : ¬ ['*', '/'] <:+: text) :
    gapIn .block (text ++ '*' :: '/' :: rest) =
      push (text ++ ['*', '/']) (gapIn .between rest) := by
  induction text with
  | nil => rfl
  | cons c text ih =>
    rw [List.cons_append, gapIn, ih (not_infix_cons htext)]
    · rfl
    · exact fun _ hstar heq => star_slash_of_not_infix htext heq ⟨hstar, rfl⟩

theorem gapIn_space {c : Char} {cs : List Char} (hspace : isSpace c = true) :
    gapIn .between (c :: cs) = push [c] (gapIn .between cs) := by
  rw [gapIn, if_pos hspace]
  · rintro _ rfl
    cases hspace
  · rintro _ rfl
    cases hspace

theorem gapIn_append {atEnd : Bool} {gap : List Char} (h : IsGapTo atEnd gap) {rest : List Char}
    (hrest : atEnd = true → rest = []) :
    gapIn .between (gap ++ rest) = push gap (gapIn .between rest) := by
  induction h with
  | nil => rfl
  | space hspace _ ih =>
    rw [List.cons_append, gapIn_space hspace, ih]
    rfl
  | line htext hbreak _ ih =>
    rw [List.cons_append, List.cons_append, gapIn, List.append_assoc, List.cons_append,
      gapIn_line htext hbreak, ih]
    simp [push]
  | block htext _ ih =>
    rw [List.cons_append, List.cons_append, gapIn, List.append_assoc, List.cons_append,
      List.cons_append, if_pos closesComment_append, gapIn_block htext, ih]
    simp [push]
  | openLine htext hend =>
    rw [hrest hend, List.append_nil, gapIn.eq_2, gapIn_openLine htext]
    simp [push, gapIn]

theorem gapIn_of_stops {rest : List Char} (h : StopsGap rest) :
    gapIn .between rest = ([], rest) := by
  cases rest with
  | nil => rfl
  | cons c cs =>
    have hc := stops_cons.mp h
    rw [Bool.or_eq_false_iff] at hc
    rw [gapIn, if_neg (by simp [hc.1])]
    · rintro _ rfl
      cases hc.2
    · rintro _ rfl
      cases hc.2

/-- The scanner takes a gap as far as it goes. -/
theorem gap_append {gap rest : List Char} (h : IsGap gap) (hrest : StopsGap rest) :
    Token.gap (gap ++ rest) = (gap, rest) := by
  rw [Token.gap, gapIn_append h (by simp), gapIn_of_stops hrest, push, List.append_nil]

theorem gap_final {gap : List Char} (h : IsFinalGap gap) : Token.gap gap = (gap, []) := by
  have hgap : gapIn .between (gap ++ []) = push gap (gapIn .between []) :=
    gapIn_append h fun _ => rfl
  rwa [gapIn_of_stops (stops_nil _), List.append_nil, push, List.append_nil] at hgap

/-! ## The scanner takes nothing but gaps -/

/-- What is left of a gap, by the mode that the scanner is in. -/
def GapFrom (atEnd : Bool) : GapMode → List Char → Prop
  | .between, text => IsGapTo atEnd text
  | .line, text => (∃ line c more, text = line ++ c :: more ∧
      (∀ d ∈ line, isLineBreak d = false) ∧ isLineBreak c = true ∧ IsGapTo atEnd more) ∨
      (atEnd = true ∧ ∀ d ∈ text, isLineBreak d = false)
  | .block, text => ∃ block more, text = block ++ '*' :: '/' :: more ∧ ¬ ['*', '/'] <:+: block ∧
      IsGapTo atEnd more

theorem push_eq_iff {taken text rest : List Char} {scanned : List Char × List Char} :
    push taken scanned = (text, rest) ↔ ∃ more, text = taken ++ more ∧ scanned = (more, rest) := by
  obtain ⟨more, rest'⟩ := scanned
  constructor
  · intro h
    cases h
    exact ⟨more, rfl, rfl⟩
  · rintro ⟨_, rfl, h⟩
    cases h
    rfl

theorem GapFrom.line_cons {atEnd : Bool} {c : Char} {text : List Char}
    (hc : isLineBreak c = false) (h : GapFrom atEnd .line text) :
    GapFrom atEnd .line (c :: text) := by
  obtain ⟨line, d, more, rfl, hline, hbreak, hgap⟩ | ⟨hend, hline⟩ := h
  · exact .inl ⟨c :: line, d, more, rfl, List.forall_mem_cons.mpr ⟨hc, hline⟩, hbreak, hgap⟩
  · exact .inr ⟨hend, List.forall_mem_cons.mpr ⟨hc, hline⟩⟩

/-- A character joins a text without a star and a slash unless they meet where it joins. -/
theorem not_infix_cons_of_not_starts {c : Char} {text behind : List Char}
    (h : ¬ ['*', '/'] <:+: text)
    (hstarts : ∀ more, c = '*' → text ++ behind = '/' :: more → False) :
    ¬ ['*', '/'] <:+: c :: text := by
  intro hinside
  rcases List.infix_cons_iff.mp hinside with hprefix | hinside
  · obtain ⟨rfl, hslash⟩ := List.cons_prefix_cons.mp hprefix
    cases text with
    | nil => simp at hslash
    | cons d text =>
      obtain ⟨rfl, -⟩ := List.cons_prefix_cons.mp hslash
      exact hstarts _ rfl rfl
  · exact h hinside

theorem gapIn_sound {mode : GapMode} {cs text rest : List Char} (h : gapIn mode cs = (text, rest))
    (hblock : mode = .block → closesComment cs = true) :
    GapFrom rest.isEmpty mode text ∧ cs = text ++ rest := by
  fun_induction gapIn mode cs generalizing text with
  | case1 mode =>
    cases mode with
    | between => cases h; exact ⟨.nil, rfl⟩
    | line => cases h; exact ⟨.inr ⟨rfl, by simp⟩, rfl⟩
    | block => cases hblock rfl
  | case2 cs ih =>
    obtain ⟨more, rfl, hmore⟩ := push_eq_iff.mp h
    obtain ⟨hline, rfl⟩ := ih hmore (by simp)
    refine ⟨?_, rfl⟩
    obtain ⟨line, c, more, rfl, hline, hbreak, hgap⟩ | ⟨hend, hline⟩ := hline
    · exact .line hline hbreak hgap
    · exact .openLine hline hend
  | case3 cs hcloses ih =>
    obtain ⟨more, rfl, hmore⟩ := push_eq_iff.mp h
    obtain ⟨⟨block, more, rfl, hcomment, hgap⟩, rfl⟩ := ih hmore fun _ => hcloses
    exact ⟨.block hcomment hgap, rfl⟩
  | case4 cs hopen => cases h; exact ⟨.nil, rfl⟩
  | case5 c cs _ _ hspace ih =>
    obtain ⟨more, rfl, hmore⟩ := push_eq_iff.mp h
    obtain ⟨hgap, rfl⟩ := ih hmore (by simp)
    exact ⟨.space hspace hgap, rfl⟩
  | case6 c cs _ _ hspace => cases h; exact ⟨.nil, rfl⟩
  | case7 c cs ih =>
    obtain ⟨more, rfl, hmore⟩ := push_eq_iff.mp h
    by_cases hbreak : (c == '\n' || c == '\r') = true
    · rw [if_pos hbreak] at ih hmore
      obtain ⟨hgap, rfl⟩ := ih hmore (by simp)
      exact ⟨.inl ⟨[], c, more, rfl, by simp, hbreak, hgap⟩, rfl⟩
    · rw [if_neg hbreak] at ih hmore
      obtain ⟨hline, rfl⟩ := ih hmore (by simp)
      exact ⟨GapFrom.line_cons (eq_false_of_ne_true hbreak) hline, rfl⟩
  | case8 cs ih =>
    obtain ⟨more, rfl, hmore⟩ := push_eq_iff.mp h
    obtain ⟨hgap, rfl⟩ := ih hmore (by simp)
    exact ⟨⟨[], more, rfl, by simp, hgap⟩, rfl⟩
  | case9 c cs hnotClosed ih =>
    obtain ⟨more, rfl, hmore⟩ := push_eq_iff.mp h
    have hcloses : closesComment cs = true := by
      have hopen := hblock rfl
      rwa [closesComment] at hopen
      exact fun _ hstar hslash => hnotClosed _ hstar hslash
    obtain ⟨⟨block, more, rfl, hcomment, hgap⟩, rfl⟩ := ih hmore fun _ => hcloses
    rw [List.append_assoc] at hnotClosed
    exact ⟨⟨c :: block, more, rfl, not_infix_cons_of_not_starts hcomment hnotClosed, hgap⟩, rfl⟩

theorem gap_sound {cs text rest : List Char} (h : Token.gap cs = (text, rest)) :
    IsGapTo rest.isEmpty text ∧ cs = text ++ rest :=
  gapIn_sound h (by simp)

/-- The gap in front of a text that is not at its end. -/
theorem isGap_of_gap {text rest : List Char} (h : Token.gap (text ++ rest) = (text, rest))
    (hrest : rest ≠ []) : IsGap text := by
  have hgap := (gap_sound h).1
  rwa [List.isEmpty_eq_false_iff.mpr hrest] at hgap

/-- No gap starts behind a gap. -/
theorem gap_behind {cs text rest : List Char} (h : Token.gap cs = (text, rest)) :
    Token.gap rest = ([], rest) := by
  obtain ⟨htext, rfl⟩ := gap_sound h
  rw [Token.gap, gapIn_append htext List.isEmpty_iff.mp] at h
  obtain ⟨more, heq, hmore⟩ := push_eq_iff.mp h
  rw [List.self_eq_append_right.mp heq] at hmore
  exact hmore

end Token

end ScriptForge.Script

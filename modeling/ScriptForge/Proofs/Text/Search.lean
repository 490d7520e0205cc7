import ScriptForge.Proofs.Text.Trim
import ScriptForge.Text.Search
import Mathlib.Data.List.Infix

/-!
# Where a word occurs

A word without some character occurs around this character only if it occurs on one side of it
(`infix_append_cons_iff`). A word that has a character at its end and nowhere else occurs up to the
first such character or behind it (`concat_infix_append_cons_iff`). Trimming a text trims what
stands on either side of the first such character (`splitAtFirst?_trim`).
-/

namespace ScriptForge.Text

variable {word body cs rest : List Char} {x : Char}

theorem containsWord_iff (hne : word ≠ []) : containsWord word cs = true ↔ word <:+: cs := by
  induction cs with
  | nil => simp [containsWord, hne]
  | cons c cs ih =>
    rw [containsWord, Bool.or_eq_true, List.isPrefixOf_iff_prefix, ih, List.infix_cons_iff]

/-- A word without a character ends before this character. -/
theorem length_le_of_isPrefix (h : word <+: cs ++ x :: rest) (hx : x ∉ word) :
    word.length ≤ cs.length := by
  by_contra hlong
  have hstart : cs ++ [x] <+: word :=
    List.prefix_of_prefix_length_le ⟨rest, by simp⟩ h (by simp; omega)
  exact hx (hstart.subset (by simp))

theorem prefix_append_cons_iff (hx : x ∉ word) : word <+: cs ++ x :: rest ↔ word <+: cs :=
  ⟨fun h => List.prefix_of_prefix_length_le h (List.prefix_append _ _) (length_le_of_isPrefix h hx),
    fun h => h.trans (List.prefix_append _ _)⟩

theorem infix_append_cons_iff (hx : x ∉ word) :
    word <:+: cs ++ x :: rest ↔ word <:+: cs ∨ word <:+: rest := by
  induction cs with
  | nil =>
    have hstart : word <+: x :: rest ↔ word <:+: [] := by
      rw [← List.nil_append (x :: rest), prefix_append_cons_iff hx, List.prefix_nil,
        List.infix_nil]
    rw [List.nil_append, List.infix_cons_iff, hstart]
  | cons c cs ih =>
    rw [List.cons_append, List.infix_cons_iff, ih, ← List.cons_append, prefix_append_cons_iff hx,
      List.infix_cons_iff, or_assoc]

theorem infix_cons_iff_of_not_mem (hx : x ∉ word) (hne : word ≠ []) :
    word <:+: x :: rest ↔ word <:+: rest := by
  have hnone : ¬ word <:+: [] := by simpa using hne
  rw [← List.nil_append (x :: rest), infix_append_cons_iff hx, or_iff_right hnone]

theorem concat_prefix_append_cons_iff (hx : x ∉ body) :
    body ++ [x] <+: cs ++ x :: rest ↔ body ++ [x] <+: cs ++ [x] := by
  have hmore : cs ++ [x] <+: cs ++ x :: rest := ⟨rest, by simp⟩
  refine ⟨fun h => List.prefix_of_prefix_length_le h hmore ?_, fun h => h.trans hmore⟩
  have hlength := length_le_of_isPrefix ((List.prefix_append _ _).trans h) hx
  simpa using hlength

theorem concat_infix_append_cons_iff (hx : x ∉ body) :
    body ++ [x] <:+: cs ++ x :: rest ↔ body ++ [x] <:+: cs ++ [x] ∨ body ++ [x] <:+: rest := by
  induction cs with
  | nil =>
    have hnone : ¬ body ++ [x] <:+: [] := by simp
    have hstart := @concat_prefix_append_cons_iff body [] rest x hx
    rw [List.nil_append, List.nil_append] at hstart
    rw [List.nil_append, List.nil_append, List.infix_cons_iff, hstart, List.infix_cons_iff,
      or_iff_left hnone]
  | cons c cs ih =>
    rw [List.cons_append, List.infix_cons_iff, ih, ← List.cons_append,
      concat_prefix_append_cons_iff hx, List.cons_append, List.infix_cons_iff, or_assoc]

/-- A word does not end in a text without its last character. -/
theorem concat_infix_append_iff (hx : x ∉ rest) :
    body ++ [x] <:+: cs ++ rest ↔ body ++ [x] <:+: cs := by
  refine ⟨?_, fun h => h.trans (List.prefix_append _ _).isInfix⟩
  rintro ⟨front, back, heq⟩
  rcases List.append_eq_append_iff.mp heq with ⟨more, rfl, -⟩ | ⟨more, hword, hrest⟩
  · exact ⟨front, more, rfl⟩
  · rcases more.eq_nil_or_concat' with rfl | ⟨more, y, rfl⟩
    · exact ⟨front, [], by simpa using hword⟩
    · rw [← List.append_assoc, ← List.append_assoc] at hword
      obtain ⟨-, hlast⟩ := List.append_inj' hword rfl
      cases hlast
      exact absurd (by simp [hrest]) hx

/-! ## First occurrences -/

theorem splitAtFirst?_eq_some_iff {text : List Char} :
    splitAtFirst? x text = some (cs, rest) ↔ text = cs ++ x :: rest ∧ x ∉ cs := by
  induction text generalizing cs with
  | nil => simp [splitAtFirst?]
  | cons c text ih =>
    rw [splitAtFirst?]
    by_cases hc : c = x
    · subst hc
      rw [if_pos rfl]
      cases cs with
      | nil => simp
      | cons d cs =>
        constructor
        · intro h
          cases h
        · rintro ⟨heq, hx⟩
          cases heq
          exact absurd List.mem_cons_self hx
    · rw [if_neg hc, Option.map_eq_some_iff]
      constructor
      · rintro ⟨⟨front, back⟩, hsplit, hpair⟩
        cases hpair
        obtain ⟨rfl, hx⟩ := ih.mp hsplit
        exact ⟨rfl, by simp [Ne.symm hc, hx]⟩
      · rintro ⟨heq, hx⟩
        cases cs with
        | nil =>
          cases heq
          exact absurd rfl hc
        | cons d cs =>
          cases heq
          rw [List.mem_cons, not_or] at hx
          exact ⟨(cs, rest), ih.mpr ⟨rfl, hx.2⟩, rfl⟩

theorem splitAtFirst?_eq_none_iff {text : List Char} : splitAtFirst? x text = none ↔ x ∉ text := by
  constructor
  · intro hnone hx
    obtain ⟨front, back, rfl, hfront⟩ := List.eq_append_cons_of_mem hx
    rw [splitAtFirst?_eq_some_iff.mpr ⟨rfl, hfront⟩] at hnone
    cases hnone
  · intro hx
    rw [Option.eq_none_iff_forall_ne_some]
    rintro ⟨front, back⟩ hsplit
    obtain ⟨rfl, -⟩ := splitAtFirst?_eq_some_iff.mp hsplit
    exact hx (by simp)

/-- Trimming a text does not move its first character of a kind that is not blank. -/
theorem splitAtFirst?_trim (hx : isBlank x = false) (text : List Char) :
    splitAtFirst? x (trim text) =
      (splitAtFirst? x text).map fun (front, back) => (trimStart front, trimEnd back) := by
  cases hsplit : splitAtFirst? x text with
  | none =>
    rw [Option.map_none, splitAtFirst?_eq_none_iff]
    exact fun hmem => splitAtFirst?_eq_none_iff.mp hsplit (mem_of_mem_trim hmem)
  | some parts =>
    obtain ⟨front, back⟩ := parts
    obtain ⟨rfl, hfront⟩ := splitAtFirst?_eq_some_iff.mp hsplit
    rw [Option.map_some, splitAtFirst?_eq_some_iff, trim, trimStart_append_cons hx,
      trimEnd_append_cons hx]
    exact ⟨rfl, fun hmem => hfront ((trimStart_suffix front).subset hmem)⟩

theorem afterFirst?_eq_none_iff (hne : word ≠ []) :
    afterFirst? word cs = none ↔ ¬ word <:+: cs := by
  induction cs with
  | nil =>
    obtain ⟨w, word, rfl⟩ := List.exists_cons_of_ne_nil hne
    simp [afterFirst?, after?]
  | cons c cs ih =>
    rw [afterFirst?, List.infix_cons_iff, not_or, ← ih]
    cases hstart : after? word (c :: cs) with
    | some behind => simp [after?_eq_some_iff.mp hstart]
    | none =>
      have hnot : ¬ word <+: c :: cs := by
        rintro ⟨behind, heq⟩
        cases hstart.symm.trans (after?_eq_some_iff.mpr heq.symm)
      simp [hnot]

theorem exists_of_afterFirst? (h : afterFirst? word cs = some rest) :
    ∃ front, cs = front ++ (word ++ rest) := by
  induction cs with
  | nil =>
    rw [afterFirst?] at h
    exact ⟨[], by rw [List.nil_append, after?_eq_some_iff.mp h]⟩
  | cons c cs ih =>
    rw [afterFirst?] at h
    cases hstart : after? word (c :: cs) with
    | some behind =>
      rw [hstart] at h
      cases h
      exact ⟨[], by rw [List.nil_append, after?_eq_some_iff.mp hstart]⟩
    | none =>
      rw [hstart] at h
      obtain ⟨front, rfl⟩ := ih h
      exact ⟨c :: front, rfl⟩

end ScriptForge.Text

import ScriptForge.Proofs.Text.Trim
import ScriptForge.Text.Letter

/-!
# Collapsing

Collapsing touches the blanks of a text alone (`filter_collapse`), so a text that ends with
something else can be told from each text that it goes on (`eq_of_collapse_eq`).
-/

namespace ScriptForge.Text

variable {cs ds : List Char}

/-! ## Words -/

theorem flatten_consFirst (c : Char) (pieces : List (List Char)) :
    (consFirst c pieces).flatten = c :: pieces.flatten := by
  cases pieces <;> rfl

/-- The words of a text are what is not blank in it. -/
theorem flatten_words (cs : List Char) : (words cs).flatten = cs.filter (!isBlank ·) := by
  fun_induction words cs with
  | case1 => rfl
  | case2 c cs hblank ih => simp [hblank, ih]
  | case3 c hblank => simp [hblank]
  | case4 c hblank d cs hd ih => simp [hblank, ih]
  | case5 c hblank d cs hd ih => simp [hblank, flatten_consFirst, ih]

theorem filter_intercalate_space (pieces : List (List Char)) :
    ([' '].intercalate pieces).filter (!isBlank ·) = pieces.flatten.filter (!isBlank ·) := by
  induction pieces with
  | nil => rfl
  | cons piece pieces ih =>
    cases pieces with
    | nil => simp
    | cons next pieces =>
      have hspace : isBlank ' ' = true := by decide
      simpa [List.intercalate_cons_cons, hspace] using ih

/-- Collapsing keeps what is not blank. -/
theorem filter_collapse (cs : List Char) :
    (collapse cs).filter (!isBlank ·) = cs.filter (!isBlank ·) := by
  rw [collapse, filter_intercalate_space, flatten_words, List.filter_filter]
  simp

/-! ## Ends of texts -/

theorem trimEnd_of_forall (h : ∀ c ∈ cs, isBlank c = false) : trimEnd cs = cs :=
  List.rdropWhile_eq_self_iff.mpr fun hne => by simp [h _ (List.getLast_mem hne)]

theorem trimEnd_append_of_ne_nil (h : trimEnd ds = ds) (hne : ds ≠ []) :
    trimEnd (cs ++ ds) = cs ++ ds := by
  refine List.rdropWhile_eq_self_iff.mpr fun _ => ?_
  rw [List.getLast_append_of_ne_nil _ hne]
  exact List.rdropWhile_eq_self_iff.mp h hne

/-- A text that ends in no blank has more in it than each shorter text that it goes on. -/
theorem eq_of_collapse_eq (hstart : cs <+: ds) (hend : trimEnd ds = ds)
    (h : collapse cs = collapse ds) : cs = ds := by
  obtain ⟨more, rfl⟩ := hstart
  have hcount := congrArg (List.filter (!isBlank ·)) h
  rw [filter_collapse, filter_collapse, List.filter_append, List.self_eq_append_right] at hcount
  have hblank : ∀ c ∈ more, isBlank c = true := by
    simpa using List.filter_eq_nil_iff.mp hcount
  have hlength := (trimEnd_prefix_self cs).length_le
  rw [trimEnd_append hblank] at hend
  rw [hend, List.length_append] at hlength
  have hnil : more = [] := List.length_eq_zero_iff.mp (by omega)
  rw [hnil, List.append_nil]

theorem toNat_of_isBlank {c : Char} (h : isBlank c = true) : c.toNat ≤ 32 ∨ 133 ≤ c.toNat := by
  simp only [isBlank, Bool.or_eq_true, Bool.and_eq_true, decide_eq_true_eq, beq_iff_eq,
    Char.le_def, UInt32.le_iff_toNat_le] at h
  rcases h with (((((((((h | h) | h) | h) | h) | h) | h) | h) | h) | h) | h
  · exact .inl (Nat.le_trans h.2 (by decide))
  · exact .inl (by rw [h]; decide)
  · exact .inr (by rw [h]; decide)
  · exact .inr (by rw [h]; decide)
  · exact .inr (by rw [h]; decide)
  · exact .inr (Nat.le_trans (by decide) h.1)
  all_goals exact .inr (by rw [h]; decide)

theorem toNat_of_isAlpha {c : Char} (h : c.isAlpha = true) : 65 ≤ c.toNat ∧ c.toNat ≤ 122 := by
  have hcase : c.isUpper = true ∨ c.isLower = true := Bool.or_eq_true_iff.mp h
  have hbounds : (65 : UInt32) ≤ c.val ∧ c.val ≤ 90 ∨ (97 : UInt32) ≤ c.val ∧ c.val ≤ 122 :=
    hcase.imp of_decide_eq_true fun hlower =>
      (Bool.and_eq_true_iff.mp hlower).imp of_decide_eq_true of_decide_eq_true
  simp only [UInt32.le_iff_toNat_le] at hbounds
  rcases hbounds with ⟨hlow, hhigh⟩ | ⟨hlow, hhigh⟩
  · exact ⟨hlow, Nat.le_trans hhigh (by decide)⟩
  · exact ⟨Nat.le_trans (by decide) hlow, hhigh⟩

theorem toNat_of_isDashedChar {c : Char} (h : isDashedChar c = true) :
    33 ≤ c.toNat ∧ c.toNat ≤ 122 := by
  simp only [isDashedChar, isIdentifierChar, Char.isAlphanum, Char.isDigit, Bool.or_eq_true,
    Bool.and_eq_true, decide_eq_true_eq, beq_iff_eq, ge_iff_le, UInt32.le_iff_toNat_le] at h
  rcases h with ((h | h) | rfl) | rfl
  · have hletter := toNat_of_isAlpha h
    omega
  · exact ⟨Nat.le_trans (by decide) h.1, Nat.le_trans h.2 (by decide)⟩
  all_goals decide

theorem not_isBlank_of_isDashedChar {c : Char} (h : isDashedChar c = true) :
    isBlank c = false := by
  refine eq_false_of_ne_true fun hblank => ?_
  have hdashed := toNat_of_isDashedChar h
  have hblank := toNat_of_isBlank hblank
  omega

end ScriptForge.Text

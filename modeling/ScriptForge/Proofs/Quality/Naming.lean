import ScriptForge.Quality.Naming

/-!
# Names by the convention

`Conventional` says in plain words what the check of names asks for. The convention is usually
written as a pattern, a letter, letters and digits, and eight digits (`Pattern`). A digit is one of
the letters and digits in the middle, so it is not obvious where the last eight start; the two
agree all the same (`conventional_iff_pattern`), and the check decides them
(`isConventional_iff_pattern`).
-/

namespace ScriptForge.Quality

/-- A letter with only letters and digits behind it, nine characters or more, the last eight of
them digits. -/
structure Conventional (name : String) : Prop where
  letter : ∀ c ∈ name.toList.head?, c.isAlpha = true
  alphanumeric : ∀ c ∈ name.toList, c.isAlphanum = true
  long : 9 ≤ name.toList.length
  digits : ∀ c ∈ name.toList.drop (name.toList.length - 8), c.isDigit = true

/-- A letter, then letters and digits, then eight digits. -/
def Pattern (name : List Char) : Prop :=
  ∃ c middle digits, name = c :: (middle ++ digits) ∧ c.isAlpha = true ∧
    (∀ d ∈ middle, d.isAlphanum = true) ∧ digits.length = 8 ∧ ∀ d ∈ digits, d.isDigit = true

theorem isAlphanum_of_isDigit {c : Char} (h : c.isDigit = true) : c.isAlphanum = true := by
  simp [Char.isAlphanum, h]

theorem isAlphanum_of_isAlpha {c : Char} (h : c.isAlpha = true) : c.isAlphanum = true := by
  simp [Char.isAlphanum, h]

theorem not_pattern_nil : ¬ Pattern [] := by
  rintro ⟨_, _, _, h, _⟩
  cases h

/-- Where the last eight characters start is no matter of choice. -/
theorem pattern_cons_iff {c : Char} {cs : List Char} :
    Pattern (c :: cs) ↔ c.isAlpha = true ∧ (∀ d ∈ cs, d.isAlphanum = true) ∧ 8 ≤ cs.length ∧
      ∀ d ∈ cs.drop (cs.length - 8), d.isDigit = true := by
  constructor
  · rintro ⟨_, middle, digits, heq, hc, hmiddle, hlength, hdigits⟩
    obtain ⟨rfl, rfl⟩ := List.cons.inj heq
    have hdrop : (middle ++ digits).drop ((middle ++ digits).length - 8) = digits := by
      rw [List.length_append, hlength, Nat.add_sub_cancel, List.drop_left]
    refine ⟨hc, fun d hd => ?_, ?_, ?_⟩
    · rcases List.mem_append.mp hd with hd | hd
      · exact hmiddle d hd
      · exact isAlphanum_of_isDigit (hdigits d hd)
    · rw [List.length_append]
      omega
    · rwa [hdrop]
  · rintro ⟨hc, hcs, hlong, hdigits⟩
    refine ⟨c, cs.take (cs.length - 8), cs.drop (cs.length - 8), ?_, hc, ?_, ?_, hdigits⟩
    · rw [List.take_append_drop]
    · exact fun d hd => hcs d (List.mem_of_mem_take hd)
    · rw [List.length_drop]
      omega

/-- The check of names accepts what the pattern matches. -/
theorem isConventional_iff_pattern {name : List Char} :
    isConventional name = true ↔ Pattern name := by
  cases name with
  | nil => simp [isConventional, not_pattern_nil]
  | cons c cs =>
    rw [pattern_cons_iff]
    simp only [isConventional, Bool.and_eq_true, List.all_eq_true, decide_eq_true_eq, and_assoc]

theorem conventional_iff_pattern {name : String} : Conventional name ↔ Pattern name.toList := by
  cases heq : name.toList with
  | nil =>
    refine ⟨fun h => ?_, fun h => absurd h not_pattern_nil⟩
    have hlong := h.long
    rw [heq] at hlong
    cases hlong
  | cons c cs =>
    have hdrop (hlong : 8 ≤ cs.length) :
        (c :: cs).drop ((c :: cs).length - 8) = cs.drop (cs.length - 8) := by
      rw [List.length_cons, Nat.sub_add_comm hlong, List.drop_succ_cons]
    rw [pattern_cons_iff]
    constructor
    · rintro ⟨hletter, halphanumeric, hlong, hdigits⟩
      rw [heq] at hletter halphanumeric hlong hdigits
      have hlong : 8 ≤ cs.length := Nat.le_of_succ_le_succ hlong
      rw [hdrop hlong] at hdigits
      exact ⟨hletter c rfl, (List.forall_mem_cons.mp halphanumeric).2, hlong, hdigits⟩
    · rintro ⟨hc, hcs, hlong, hdigits⟩
      refine ⟨?_, ?_, ?_, ?_⟩ <;> rw [heq]
      · rintro _ ⟨⟩
        exact hc
      · exact List.forall_mem_cons.mpr ⟨isAlphanum_of_isAlpha hc, hcs⟩
      · exact Nat.succ_le_succ hlong
      · rwa [hdrop hlong]

theorem isConventional_iff {name : String} :
    isConventional name.toList = true ↔ Conventional name :=
  isConventional_iff_pattern.trans conventional_iff_pattern.symm

instance (name : String) : Decidable (Conventional name) :=
  decidable_of_iff _ isConventional_iff

example : Conventional "order12345678" ∧ ¬ Conventional "order1234567" := by decide

end ScriptForge.Quality

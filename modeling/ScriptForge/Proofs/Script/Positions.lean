import ScriptForge.Proofs.Script.Takes
import Mathlib.Data.List.DropRight

/-!
# Positions in a text

The position behind a text counts its line feeds and the characters behind the last one
(`afterText_start`), and every character moves it on (`Position.before_afterText`), so an offset can
be told from its position (`placeAt_injective`).
-/

namespace ScriptForge.Script

namespace Position

variable {p q r : Position}

theorem before_iff : p.before q = true ↔
    p.line < q.line ∨ p.line = q.line ∧ p.column < q.column := by
  simp [before]

theorem not_before_self (p : Position) : ¬ p.before p = true := by
  rw [before_iff]
  omega

theorem before_trans (hpq : p.before q = true) (hqr : q.before r = true) : p.before r = true := by
  rw [before_iff] at *
  omega

theorem before_after (p : Position) (c : Char) : p.before (p.after c) = true := by
  rw [before_iff, after]
  split
  · exact .inl (Nat.lt_succ_self _)
  · exact .inr ⟨rfl, Nat.lt_succ_self _⟩

theorem before_afterText {text : List Char} (hne : text ≠ []) :
    p.before (p.afterText text) = true := by
  induction text generalizing p with
  | nil => exact absurd rfl hne
  | cons c text ih =>
    rw [afterText_cons]
    by_cases hnil : text = []
    · rw [hnil]
      exact before_after p c
    · exact before_trans (before_after p c) (ih hnil)

/-- On one line every character is one column. -/
theorem afterText_of_not_mem {text : List Char} (h : '\n' ∉ text) (p : Position) :
    p.afterText text = ⟨p.line, p.column + text.length⟩ := by
  induction text generalizing p with
  | nil => rfl
  | cons c text ih =>
    rw [List.mem_cons, not_or] at h
    rw [afterText_cons, ih h.2, after, if_neg (Ne.symm h.1), List.length_cons, Nat.add_assoc,
      Nat.add_comm 1]

end Position

/-- The line and the column of an offset, both counted from one. -/
def placeAt (cs : List Char) (offset : Nat) : Position :=
  ⟨(cs.take offset).count '\n' + 1, ((cs.take offset).rtakeWhile (· ≠ '\n')).length + 1⟩

theorem afterText_start (cs : List Char) :
    Position.start.afterText cs = ⟨cs.count '\n' + 1, (cs.rtakeWhile (· ≠ '\n')).length + 1⟩ := by
  induction cs using List.reverseRecOn with
  | nil => rfl
  | append_singleton cs c ih =>
    rw [Position.afterText_append, ih, Position.afterText_cons, Position.afterText_nil,
      Position.after, List.count_append]
    split
    · rename_i hbreak
      subst hbreak
      rw [List.rtakeWhile_concat_neg _ _ _ (by simp)]
      rfl
    · rename_i hbreak
      rw [List.rtakeWhile_concat_pos _ _ _ (by simpa using hbreak), List.length_append,
        List.count_singleton]
      simp [hbreak]

theorem placeAt_eq (cs : List Char) (offset : Nat) :
    placeAt cs offset = Position.start.afterText (cs.take offset) :=
  (afterText_start _).symm

/-- A position belongs to one offset. -/
theorem placeAt_injective {cs : List Char} {i j : Nat} (hi : i ≤ cs.length) (hj : j ≤ cs.length)
    (h : placeAt cs i = placeAt cs j) : i = j := by
  have hdistinct : ∀ {i j}, i < j → j ≤ cs.length → placeAt cs i ≠ placeAt cs j := by
    intro i j hlt hle heq
    have hne : (cs.drop i).take (j - i) ≠ [] := by
      rw [← List.length_pos_iff, List.length_take, List.length_drop]
      omega
    have hbefore := Position.before_afterText (p := placeAt cs i) hne
    rw [placeAt_eq, ← Position.afterText_append, ← List.take_add, Nat.add_sub_of_le hlt.le,
      ← placeAt_eq, ← placeAt_eq, ← heq] at hbefore
    exact Position.not_before_self _ hbefore
  rcases Nat.lt_trichotomy i j with hlt | heq | hlt
  · exact absurd h (hdistinct hlt hj)
  · exact heq
  · exact absurd h.symm (hdistinct hlt hi)

end ScriptForge.Script

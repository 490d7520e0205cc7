import ScriptForge.Text.Blank
import Mathlib.Data.List.DropRight

/-!
# Trimming

A text is the blanks in front of it, what is left when it is trimmed, and the blanks behind it
(`exists_eq_trim`). Putting blanks around a trimmed text and trimming it again gives it back
(`trim_append`). What stands between two characters that are not blank stays where it is
(`Encloses.infix_trim`).
-/

namespace ScriptForge.Text

variable {cs left right : List Char}

theorem trimEnd_eq_rdropWhile (cs : List Char) : trimEnd cs = cs.rdropWhile isBlank := rfl

theorem trimEnd_prefix_self (cs : List Char) : trimEnd cs <+: cs :=
  List.rdropWhile_prefix isBlank cs

theorem trimStart_suffix (cs : List Char) : trimStart cs <:+ cs :=
  List.dropWhile_suffix isBlank

theorem trimStart_cons_of_not_blank {c : Char} (h : isBlank c = false) :
    trimStart (c :: cs) = c :: cs :=
  List.dropWhile_cons_of_neg (by simp [h])

theorem trimStart_append (hleft : ∀ c ∈ left, isBlank c = true) {c : Char}
    (hc : isBlank c = false) : trimStart (left ++ c :: cs) = c :: cs := by
  rw [trimStart, List.dropWhile_append_of_pos hleft]
  exact trimStart_cons_of_not_blank hc

theorem trimEnd_concat_of_not_blank {c : Char} (h : isBlank c = false) :
    trimEnd (cs ++ [c]) = cs ++ [c] :=
  List.rdropWhile_concat_neg isBlank cs c (by simp [h])

theorem not_blank_of_trimStart_eq {c : Char} (h : trimStart (c :: cs) = c :: cs) :
    isBlank c = false := by
  cases hblank : isBlank c with
  | false => rfl
  | true =>
    rw [trimStart, List.dropWhile_cons_of_pos hblank] at h
    have hlength := (trimStart_suffix cs).length_le
    rw [trimStart, h, List.length_cons] at hlength
    omega

/-- What is left of a text is the text if nothing is cut off at either end. -/
theorem trim_eq_self_iff : trim cs = cs ↔ trimStart cs = cs ∧ trimEnd cs = cs := by
  constructor
  · intro h
    have hlength := (trimEnd_prefix_self (trimStart cs)).length_le
    have hstart : trimStart cs = cs :=
      (trimStart_suffix cs).eq_of_length_le (by rwa [← trim, h] at hlength)
    exact ⟨hstart, by rwa [trim, hstart] at h⟩
  · rintro ⟨hstart, hend⟩
    rw [trim, hstart, hend]

theorem trimStart_trim (cs : List Char) : trimStart (trim cs) = trim cs := by
  obtain ⟨behind, heq⟩ := trimEnd_prefix_self (trimStart cs)
  change trim cs ++ behind = trimStart cs at heq
  cases htrim : trim cs with
  | nil => rfl
  | cons c more =>
    have hstart : trimStart (c :: (more ++ behind)) = c :: (more ++ behind) := by
      rw [← List.cons_append, ← htrim, heq]
      exact List.dropWhile_idempotent isBlank cs
    exact trimStart_cons_of_not_blank (not_blank_of_trimStart_eq hstart)

theorem trim_trim (cs : List Char) : trim (trim cs) = trim cs :=
  trim_eq_self_iff.mpr ⟨trimStart_trim cs, List.rdropWhile_idempotent isBlank (trimStart cs)⟩

theorem exists_eq_trim (cs : List Char) : ∃ left right, cs = left ++ (trim cs ++ right) ∧
    (∀ c ∈ left, isBlank c = true) ∧ ∀ c ∈ right, isBlank c = true := by
  refine ⟨cs.takeWhile isBlank, (trimStart cs).rtakeWhile isBlank, ?_, ?_, ?_⟩
  · rw [trim, trimEnd_eq_rdropWhile, List.rdropWhile_append_rtakeWhile]
    exact List.takeWhile_append_dropWhile.symm
  · intro c hc
    exact List.mem_takeWhile_imp hc
  · intro c hc
    exact List.mem_rtakeWhile_imp hc

theorem trim_trimStart (cs : List Char) : trim (trimStart cs) = trim cs := by
  rw [trim, trimStart, trimStart, List.dropWhile_idempotent, ← trimStart, ← trim]

theorem mem_of_mem_trim {c : Char} (h : c ∈ trim cs) : c ∈ cs :=
  (trimStart_suffix cs).subset ((trimEnd_prefix_self (trimStart cs)).subset h)

theorem trimEnd_append (hright : ∀ c ∈ right, isBlank c = true) :
    trimEnd (cs ++ right) = trimEnd cs := by
  rw [trimEnd, List.reverse_append, List.dropWhile_append_of_pos (by simpa using hright), trimEnd]

theorem trim_append (hleft : ∀ c ∈ left, isBlank c = true)
    (hright : ∀ c ∈ right, isBlank c = true) (h : trim cs = cs) :
    trim (left ++ (cs ++ right)) = cs := by
  obtain ⟨hstart, hend⟩ := trim_eq_self_iff.mp h
  rw [trim, trimStart, List.dropWhile_append_of_pos hleft, ← trimStart]
  cases cs with
  | nil =>
    rw [List.nil_append, trimStart, List.dropWhile_eq_nil_iff.mpr hright]
    rfl
  | cons c cs =>
    have hc := not_blank_of_trimStart_eq hstart
    rw [List.cons_append, trimStart_cons_of_not_blank hc, ← List.cons_append,
      trimEnd_append hright, hend]

theorem trim_append_of_blank (hright : ∀ c ∈ right, isBlank c = true) :
    trim (cs ++ right) = trim cs := by
  obtain ⟨left, behind, heq, hleft, hbehind⟩ := exists_eq_trim cs
  have haround := @trim_append (trim cs) left (behind ++ right) hleft
    (List.forall_mem_append.mpr ⟨hbehind, hright⟩) (trim_trim cs)
  rw [← haround]
  congr 1
  conv_lhs => rw [heq]
  simp only [List.append_assoc]

theorem trim_trimEnd (cs : List Char) : trim (trimEnd cs) = trim cs := by
  have hright : ∀ c ∈ cs.rtakeWhile isBlank, isBlank c = true :=
    fun c hc => List.mem_rtakeWhile_imp hc
  conv_rhs => rw [← List.rdropWhile_append_rtakeWhile (p := isBlank) (l := cs)]
  rw [trim_append_of_blank hright, trimEnd_eq_rdropWhile]

/-- Nothing is cut off in front of a character that is not blank. -/
theorem trimEnd_append_cons {c : Char} (h : isBlank c = false) (right : List Char) :
    trimEnd (left ++ c :: right) = left ++ c :: trimEnd right := by
  rw [trimEnd, List.reverse_append, List.reverse_cons, List.append_assoc, List.dropWhile_append]
  split
  · rename_i hnil
    have hright : trimEnd right = [] := by
      rw [trimEnd, List.isEmpty_iff.mp hnil]
      rfl
    simp [hright, h]
  · simp [trimEnd]

/-- Nothing is cut off behind a character that is not blank. -/
theorem trimStart_append_cons {c : Char} (h : isBlank c = false) (right : List Char) :
    trimStart (left ++ c :: right) = trimStart left ++ c :: right := by
  rw [trimStart, List.dropWhile_append]
  split
  · rename_i hnil
    have hleft : trimStart left = [] := List.isEmpty_iff.mp hnil
    rw [hleft, List.dropWhile_cons_of_neg (by simp [h])]
    rfl
  · rfl

/-! ## What trimming leaves alone -/

/-- A text holds another one, with something that is not blank on either side. -/
def Encloses (text body : List Char) : Prop :=
  ∃ front back, text = front ++ (body ++ back) ∧ (∃ c ∈ front, isBlank c = false) ∧
    ∃ c ∈ back, isBlank c = false

/-- What stands inside a text is still there when the text is trimmed. -/
theorem Encloses.infix_trim {text body : List Char} (h : Encloses text body) :
    body <:+: trim text := by
  obtain ⟨front, back, rfl, ⟨c, hfront, hc⟩, d, hback, hd⟩ := h
  obtain ⟨left, near, rfl⟩ := List.append_of_mem hfront
  obtain ⟨far, right, rfl⟩ := List.append_of_mem hback
  have htrim : trim (left ++ c :: near ++ (body ++ (far ++ d :: right))) =
      trimStart left ++ c :: near ++ (body ++ far) ++ d :: trimEnd right := by
    rw [trim, List.append_assoc, List.cons_append, trimStart_append_cons hc,
      ← trimEnd_append_cons hd]
    simp
  rw [htrim]
  exact ⟨trimStart left ++ c :: near, far ++ d :: trimEnd right, by simp⟩

theorem Encloses.append {text body : List Char} (h : Encloses text body)
    (front back : List Char) : Encloses (front ++ (text ++ back)) body := by
  obtain ⟨left, right, rfl, ⟨c, hleft, hc⟩, d, hright, hd⟩ := h
  exact ⟨front ++ left, right ++ back, by simp, ⟨c, List.mem_append_right _ hleft, hc⟩,
    d, List.mem_append_left _ hright, hd⟩

end ScriptForge.Text

import ScriptForge.Prompt.ServiceName
import ScriptForge.Proofs.Script.Gaps
import ScriptForge.Proofs.Text.Collapse
import Mathlib.Data.String.Basic

/-!
# Labelled service names

A name behind a label and a colon is found by its label (`labelledName?_isSome`), and by whatever
label something is found, it stands behind the only colon (`exists_of_labelledName?`). So hints that
are one label with a name give this name, up to the first underscore: the grammar lets the name of
a service hold underscores, and the search takes none (`serviceName_of_label`).
-/

namespace ScriptForge.Prompt

open Script.Token Text

/-- The colons that may stand between a label and a name. -/
def IsColon (c : Char) : Prop :=
  c = ':' ∨ c = '：'

/-- Words with blanks between them, in a spelling that is seen as these words. -/
inductive Spelled (seen : Char → Char) : List (List Char) → List Char → Prop
  | word {word written : List Char} : written.map seen = word → Spelled seen [word] written
  | cons {word written gap rest : List Char} {words : List (List Char)} :
      written.map seen = word → (∀ c ∈ gap, isBlank c = true) → gap ≠ [] → words ≠ [] →
      Spelled seen words rest → Spelled seen (word :: words) (written ++ (gap ++ rest))

/-- The labels of a service, as they may be written: in any letter case, with blanks of any kind
between the words, except for one label that is written in one way only. -/
def IsLabel (written : List Char) : Prop :=
  written = "当前服务".toList ∨
    ∃ words ∈ [["service".toList, "name".toList], ["service".toList],
      ["current".toList, "service".toList], ["服务名".toList]], Spelled smallLetter words written

/-! ## Characters -/

section

variable {label : Label} {c : Char}

theorem toNat_lt_of_isDashedChar (h : isDashedChar c = true) : c.toNat < 128 :=
  Nat.lt_of_le_of_lt (toNat_of_isDashedChar h).2 (by decide)

theorem seen_of_isBlank (h : isBlank c = true) : label.seen c = c := by
  have hlong : c ≠ '\u017f' := by
    rintro rfl
    cases h
  have hkelvin : c ≠ '\u212a' := by
    rintro rfl
    cases h
  have hcapital : ¬ (c.val ≥ 'A'.val ∧ c.val ≤ 'Z'.val) := by
    intro hcapital
    have hupper : c.isUpper = true := decide_eq_true hcapital
    have hletter := @toNat_of_isAlpha c (Bool.or_eq_true_iff.mpr (.inl hupper))
    have hblank := toNat_of_isBlank h
    omega
  have hlower : c.toLower = c := dif_neg hcapital
  rw [Label.seen, smallLetter, if_neg hlong, if_neg hkelvin, hlower, ite_self]

/-- Letter case does not matter for what belongs to a name. -/
theorem isNameChar_eq (h : isDashedChar c = true) : label.isNameChar c = isHyphenatedChar c := by
  have hsmall : ∀ n < 128, isHyphenatedChar (smallLetter (Char.ofNat n)) =
      isHyphenatedChar (Char.ofNat n) := by decide +kernel
  have hc := hsmall c.toNat (toNat_lt_of_isDashedChar h)
  rw [Char.ofNat_toNat] at hc
  rw [Label.isNameChar, Label.seen]
  split
  · rfl
  · exact hc

theorem isNameStart_of_isAlpha (h : c.isAlpha = true) : label.isNameStart c = true := by
  have hsmall : ∀ n < 128, (Char.ofNat n).isAlpha = true →
      (smallLetter (Char.ofNat n)).isAlpha = true := by decide +kernel
  have hlt := Nat.lt_of_le_of_lt (toNat_of_isAlpha h).2 (show 122 < 128 by decide)
  have hc := hsmall c.toNat hlt
  rw [Char.ofNat_toNat] at hc
  rw [Label.isNameStart, Label.seen]
  split
  · exact h
  · exact hc h

/-- Whether a character may stand in a word of a label. -/
def IsPlain (c : Char) : Prop :=
  isBlank c = false ∧ ¬ IsColon c

/-- A word of a label. -/
def IsPlainWord (word : List Char) : Prop :=
  word ≠ [] ∧ ∀ c ∈ word, IsPlain c

instance : Decidable (IsColon c) :=
  inferInstanceAs (Decidable (_ ∨ _))

instance : Decidable (IsPlain c) :=
  inferInstanceAs (Decidable (_ ∧ _))

instance {word : List Char} : Decidable (IsPlainWord word) :=
  @instDecidableAnd _ _ _ (List.decidableBAll _ word)

theorem isPlain_of_seen (h : IsPlain (label.seen c)) : IsPlain c := by
  refine ⟨eq_false_of_ne_true fun hblank => ?_, fun hcolon => ?_⟩
  · rw [seen_of_isBlank hblank] at h
    exact Bool.false_ne_true (h.1.symm.trans hblank)
  · have hseen : label.seen c = c := by
      rw [Label.seen]
      rcases hcolon with rfl | rfl <;> split <;> rfl
    rw [hseen] at h
    exact h.2 hcolon

theorem not_isBlank_of_isColon (h : IsColon c) : isBlank c = false := by
  rcases h with rfl | rfl <;> decide

theorem not_isColon_of_isDashedChar (h : isDashedChar c = true) : ¬ IsColon c := by
  rintro (rfl | rfl) <;> cases h

end

section

variable {label : Label} {labels : List Label} {words : List (List Char)}
  {written gap before behind name front rest cs found : List Char} {colon : Char}

/-! ## What is found -/

theorem afterWord?_suffix {word : List Char} (h : label.afterWord? word cs = some rest) :
    rest <:+ cs := by
  induction word generalizing cs with
  | nil =>
    cases h
    exact List.suffix_rfl
  | cons w word ih =>
    cases cs with
    | nil => cases h
    | cons c cs =>
      rw [Label.afterWord?] at h
      split at h
      · exact (ih h).trans (List.suffix_cons c cs)
      · cases h

theorem afterWords?_suffix (h : label.afterWords? words cs = some rest) : rest <:+ cs := by
  fun_induction Label.afterWords? label words cs with
  | case1 cs =>
    cases h
    exact List.suffix_rfl
  | case2 cs word => exact afterWord?_suffix h
  | case3 cs word words hne ih =>
    obtain ⟨more, hword, h⟩ := Option.bind_eq_some_iff.mp h
    split at h
    · cases h
    · exact (ih more h).trans ((List.dropWhile_suffix _).trans (afterWord?_suffix hword))

/-- Whatever is found by a label stands behind a colon. -/
theorem exists_of_nameHere? (h : label.nameHere? cs = some found) :
    ∃ colon rest, IsColon colon ∧ colon :: rest <:+ cs ∧
      ∃ c more, trimStart rest = c :: more ∧ found = c :: more.takeWhile label.isNameChar := by
  obtain ⟨more, hwords, hname⟩ := Option.bind_eq_some_iff.mp h
  unfold Label.nameAfterColon? at hname
  split at hname
  · cases hname
  · rename_i colon rest htrim
    split at hname
    · rename_i hcolon
      split at hname
      · cases hname
      · rename_i c cs hrest
        split at hname
        · cases hname
          refine ⟨colon, rest, hcolon, ?_, c, cs, hrest, rfl⟩
          rw [← htrim]
          exact (trimStart_suffix more).trans (afterWords?_suffix hwords)
        · cases hname
    · cases hname

theorem exists_of_labelledName? (h : labelledName? labels cs = some found) :
    ∃ (label : Label) (colon : Char) (rest : List Char), IsColon colon ∧ colon :: rest <:+ cs ∧
      ∃ c more, trimStart rest = c :: more ∧ found = c :: more.takeWhile label.isNameChar := by
  induction cs with
  | nil => cases h
  | cons c cs ih =>
    have hmore : ∀ {part : List Char}, part <:+ cs → part <:+ c :: cs :=
      fun hpart => hpart.trans (List.suffix_cons c cs)
    rw [labelledName?] at h
    cases hfirst : labels.findSome? fun label => label.nameHere? (c :: cs) with
    | some name =>
      rw [hfirst] at h
      cases h
      obtain ⟨label, -, hname⟩ := List.exists_of_findSome?_eq_some hfirst
      exact ⟨label, exists_of_nameHere? hname⟩
    | none =>
      rw [hfirst] at h
      obtain ⟨label, colon, rest, hcolon, hrest, hfound⟩ := ih h
      exact ⟨label, colon, rest, hcolon, hmore hrest, hfound⟩

theorem not_isColon_of_blank (hgap : ∀ c ∈ gap, isBlank c = true) : ∀ c ∈ gap, ¬ IsColon c :=
  fun c hc hcolon => Bool.false_ne_true ((not_isBlank_of_isColon hcolon).symm.trans (hgap c hc))

/-- There is one colon only, so what stands behind a colon stands behind this one. -/
theorem eq_of_suffix {other : Char} {more : List Char} (hfront : ∀ c ∈ front, ¬ IsColon c)
    (hrest : ∀ c ∈ rest, ¬ IsColon c) (hother : IsColon other)
    (h : other :: more <:+ front ++ colon :: rest) : more = rest := by
  obtain ⟨lead, heq⟩ := h
  rcases List.append_eq_append_iff.mp heq with ⟨between, hsplit, hmore⟩ | ⟨between, -, hmore⟩
  · cases between with
    | nil => exact (List.cons.inj hmore).2
    | cons c between =>
      cases hmore
      exact absurd hother (hfront _ (by simp [hsplit]))
  · cases between with
    | nil => exact (List.cons.inj hmore).2.symm
    | cons c between =>
      cases hmore
      exact absurd hother (hrest _ (by simp))

/-! ## That something is found -/

theorem afterWord?_append {word : List Char} (h : written.map label.seen = word) :
    label.afterWord? word (written ++ rest) = some rest := by
  subst h
  induction written with
  | nil => rfl
  | cons c written ih =>
    rw [List.cons_append, List.map_cons, Label.afterWord?, if_pos rfl, ih]

theorem isPlain_of_map (hword : ∀ c ∈ written.map label.seen, IsPlain c) :
    ∀ c ∈ written, IsPlain c :=
  fun _ hc => isPlain_of_seen (hword _ (List.mem_map_of_mem hc))

/-- A spelled label starts with a character of its first word. -/
theorem Spelled.exists_cons (h : Spelled label.seen words written)
    (hwords : ∀ word ∈ words, IsPlainWord word) :
    ∃ c cs, written = c :: cs ∧ isBlank c = false := by
  have hpiece : ∀ {piece more}, piece.map label.seen ∈ words →
      ∃ c cs, piece ++ more = c :: cs ∧ isBlank c = false := by
    intro piece more hmem
    obtain ⟨hne, hplain⟩ := hwords _ hmem
    cases piece with
    | nil => exact absurd rfl hne
    | cons c piece => exact ⟨c, _, rfl, (isPlain_of_map hplain c List.mem_cons_self).1⟩
  cases h with
  | @word word _ hword =>
    obtain ⟨c, cs, heq, hc⟩ := @hpiece written [] (by simp [hword])
    exact ⟨c, cs, by rwa [List.append_nil] at heq, hc⟩
  | cons hword => exact hpiece (by simp [hword])

theorem Spelled.not_isColon (h : Spelled label.seen words written)
    (hwords : ∀ word ∈ words, IsPlainWord word) :
    ∀ c ∈ written, ¬ IsColon c := by
  induction h with
  | word hword =>
    subst hword
    obtain ⟨-, hplain⟩ := hwords _ List.mem_cons_self
    exact fun c hc => (isPlain_of_map hplain c hc).2
  | cons hword hgap _ _ _ ih =>
    subst hword
    obtain ⟨⟨-, hplain⟩, hwords⟩ := List.forall_mem_cons.mp hwords
    exact List.forall_mem_append.mpr ⟨fun c hc => (isPlain_of_map hplain c hc).2,
      List.forall_mem_append.mpr ⟨not_isColon_of_blank hgap, ih hwords⟩⟩

theorem afterWords?_cons {word : List Char} (hne : words ≠ []) :
    label.afterWords? (word :: words) cs = (label.afterWord? word cs).bind fun rest =>
      if rest.takeWhile isBlank = [] then none
      else label.afterWords? words (rest.dropWhile isBlank) := by
  obtain ⟨next, words, rfl⟩ := List.exists_cons_of_ne_nil hne
  rfl

theorem afterWords?_append (h : Spelled label.seen words written)
    (hwords : ∀ word ∈ words, IsPlainWord word) :
    label.afterWords? words (written ++ rest) = some rest := by
  induction h with
  | word hword => exact afterWord?_append hword
  | @cons word piece gap written words hword hgap hne hwords' hrest ih =>
    obtain ⟨-, hwords⟩ := List.forall_mem_cons.mp hwords
    obtain ⟨c, cs, heq, hc⟩ := hrest.exists_cons hwords
    have hdrop : (gap ++ (written ++ rest)).dropWhile isBlank = written ++ rest := by
      rw [heq, List.cons_append]
      exact trimStart_append hgap hc
    have htake : (gap ++ (written ++ rest)).takeWhile isBlank ≠ [] := by
      obtain ⟨d, gap, rfl⟩ := List.exists_cons_of_ne_nil hne
      rw [List.cons_append, List.takeWhile_cons_of_pos (hgap d List.mem_cons_self)]
      exact List.cons_ne_nil _ _
    rw [List.append_assoc, List.append_assoc, afterWords?_cons hwords', afterWord?_append hword]
    simp only [Option.bind_some, if_neg htake, hdrop]
    exact ih hwords

/-- A name behind a label and a colon is found. -/
theorem nameHere?_isSome (h : Spelled label.seen label.words written)
    (hwords : ∀ word ∈ label.words, IsPlainWord word)
    (hbefore : ∀ c ∈ before, isBlank c = true) (hcolon : IsColon colon)
    (hbehind : ∀ c ∈ behind, isBlank c = true) (hname : IsDashedName name) :
    (label.nameHere? (written ++ (before ++ colon :: (behind ++ name)))).isSome = true := by
  obtain ⟨c, cs, rfl, hc, hcs⟩ := hname
  have hblank : isBlank c = false := not_isBlank_of_isDashedChar
    (isDashedChar_of_isIdentifierChar (isIdentifierChar_of_isAlpha hc))
  rw [Label.nameHere?, afterWords?_append h hwords, Option.bind_some, Label.nameAfterColon?,
    trimStart_append hbefore (not_isBlank_of_isColon hcolon)]
  simp only [if_pos (show colon = ':' ∨ colon = '：' from hcolon),
    trimStart_append hbehind hblank, isNameStart_of_isAlpha hc]
  rfl

theorem labelledName?_isSome (hlabel : label ∈ labels) (hne : cs ≠ [])
    (h : (label.nameHere? cs).isSome = true) : (labelledName? labels cs).isSome = true := by
  obtain ⟨c, cs, rfl⟩ := List.exists_cons_of_ne_nil hne
  have hfirst : (labels.findSome? fun label => label.nameHere? (c :: cs)).isSome = true :=
    List.findSome?_isSome_iff.mpr ⟨label, hlabel, h⟩
  obtain ⟨name, hname⟩ := Option.isSome_iff_exists.mp hfirst
  rw [labelledName?, hname]
  rfl

/-! ## Hints that are a label with a name -/

theorem isPlainWord_of_mem_labelGroups :
    ∀ labels ∈ labelGroups, ∀ label ∈ labels, ∀ word ∈ label.words, IsPlainWord word := by
  decide

theorem IsLabel.exists_spelled (h : IsLabel written) :
    ∃ labels ∈ labelGroups, ∃ label ∈ labels, Spelled label.seen label.words written := by
  rcases h with rfl | ⟨words, hwords, hspelled⟩
  · exact ⟨[⟨["当前服务".toList], true⟩], by simp [labelGroups], _, List.mem_singleton_self _,
      .word rfl⟩
  · have hlabels : ∀ words ∈ [["service".toList, "name".toList], ["service".toList],
        ["current".toList, "service".toList], ["服务名".toList]],
        ∃ labels ∈ labelGroups, ∃ label ∈ labels,
          label.words = words ∧ label.caseMatters = false := by
      decide
    obtain ⟨labels, hlabels, label, hlabel, rfl, hcase⟩ := hlabels words hwords
    have hseen : label.seen = smallLetter := by
      funext c
      rw [Label.seen, hcase]
      rfl
    exact ⟨labels, hlabels, label, hlabel, hseen ▸ hspelled⟩

/-- What is found of a name: all of it up to an underscore. -/
theorem takeWhile_eq (hname : ∀ c ∈ name, isDashedChar c = true) :
    name.takeWhile label.isNameChar = name.takeWhile (· ≠ '_') := by
  induction name with
  | nil => rfl
  | cons c name ih =>
    obtain ⟨hc, hname⟩ := List.forall_mem_cons.mp hname
    have hletter : isHyphenatedChar c = decide (c ≠ '_') := by
      by_cases hunder : c = '_'
      · subst hunder
        decide
      · simpa [isDashedChar, isIdentifierChar, isHyphenatedChar, hunder] using hc
    rw [List.takeWhile_cons, List.takeWhile_cons, isNameChar_eq hc, hletter, ih hname]

/-- If there is one colon only, what is found is the name behind it, up to an underscore. -/
theorem eq_takeWhile_of_labelledName? (hfront : ∀ c ∈ front, ¬ IsColon c)
    (hbehind : ∀ c ∈ behind, isBlank c = true) (hname : IsDashedName name)
    (h : labelledName? labels (front ++ colon :: (behind ++ name)) = some found) :
    found = name.takeWhile (· ≠ '_') := by
  obtain ⟨label, other, rest, hother, hrest, c, more, htrim, rfl⟩ := exists_of_labelledName? h
  obtain rfl := eq_of_suffix hfront (List.forall_mem_append.mpr ⟨not_isColon_of_blank hbehind,
    fun c hc => not_isColon_of_isDashedChar (hname.all c hc)⟩) hother hrest
  rw [← @takeWhile_eq label _ hname.all]
  obtain ⟨d, name, rfl, hd, -⟩ := hname
  have hdashed := isDashedChar_of_isIdentifierChar (isIdentifierChar_of_isAlpha hd)
  have hfirst : label.isNameChar d = true := by
    rw [isNameChar_eq hdashed]
    simp [isHyphenatedChar, Char.isAlphanum, hd]
  rw [trimStart_append hbehind (not_isBlank_of_isDashedChar hdashed)] at htrim
  cases htrim
  exact (List.takeWhile_cons_of_pos hfirst).symm

/-- **Labelled names.** From hints that are a label, a colon with blanks around it or none, and the
name of a service, the name is taken up to its first underscore. So it is taken as it is exactly if
there is no underscore in it. -/
theorem serviceName_of_label (hlabel : IsLabel written) (hbefore : ∀ c ∈ before, isBlank c = true)
    (hcolon : IsColon colon) (hbehind : ∀ c ∈ behind, isBlank c = true)
    (hname : IsDashedName name) :
    let found := serviceName (String.ofList (written ++ (before ++ colon :: (behind ++ name))))
    found = String.ofList (name.takeWhile (· ≠ '_')) ∧
      (found = String.ofList name ↔ '_' ∉ name) := by
  intro found
  obtain ⟨labels, hlabels, label, hlabel, hspelled⟩ := hlabel.exists_spelled
  have hplain := isPlainWord_of_mem_labelGroups labels hlabels label hlabel
  have hfound : (labelGroups.findSome? fun labels =>
      labelledName? labels (written ++ (before ++ colon :: (behind ++ name)))).isSome = true :=
    List.findSome?_isSome_iff.mpr ⟨labels, hlabels, labelledName?_isSome hlabel (by simp)
      (nameHere?_isSome hspelled hplain hbefore hcolon hbehind hname)⟩
  obtain ⟨text, htext⟩ := Option.isSome_iff_exists.mp hfound
  have htaken : text = name.takeWhile (· ≠ '_') := by
    obtain ⟨labels, -, hlabelled⟩ := List.exists_of_findSome?_eq_some htext
    rw [← List.append_assoc] at hlabelled
    have hfront : ∀ c ∈ written ++ before, ¬ IsColon c :=
      List.forall_mem_append.mpr ⟨hspelled.not_isColon hplain, not_isColon_of_blank hbefore⟩
    exact eq_takeWhile_of_labelledName? hfront hbehind hname hlabelled
  have heq : found = String.ofList (name.takeWhile (· ≠ '_')) := by
    rw [← htaken]
    change serviceName _ = _
    rw [serviceName, String.toList_ofList, htext]
    rfl
  refine ⟨heq, ?_⟩
  rw [heq, String.ofList_inj, List.takeWhile_eq_self_iff]
  simp only [ne_eq, decide_not, Bool.not_eq_true', decide_eq_false_iff_not]
  exact ⟨fun h hmem => h _ hmem rfl, fun h c hc heq => h (heq ▸ hc)⟩

/-- Labels are found in any letter case, and a long s is an s. -/
theorem order_rpc_of_label :
    let written := "CURRENT \t\u017fervice".toList
    IsLabel written ∧ IsColon '：' ∧ IsDashedName "order-rpc".toList ∧
      serviceName (String.ofList (written ++ ("\n".toList ++
        '：' :: ("\u3000".toList ++ "order-rpc".toList)))) = "order-rpc" := by
  intro written
  have hlabel : IsLabel written := by
    refine .inr ⟨["current".toList, "service".toList], by simp, ?_⟩
    exact @Spelled.cons smallLetter _ "CURRENT".toList " \t".toList _ _ (by decide)
      (List.all_eq_true.mp (by decide)) (by decide) (by decide) (.word (by decide))
  have hcolon : IsColon '：' := .inr rfl
  have hname : IsDashedName "order-rpc".toList := by decide
  have hbefore : ∀ c ∈ "\n".toList, isBlank c = true := List.all_eq_true.mp (by decide)
  have hbehind : ∀ c ∈ "\u3000".toList, isBlank c = true := List.all_eq_true.mp (by decide)
  have hfound := serviceName_of_label hlabel hbefore hcolon hbehind hname
  exact ⟨hlabel, hcolon, hname, hfound.2.mpr (by decide)⟩

/-- A name of which only a part is found. -/
theorem order_of_order_rpc :
    IsLabel "service".toList ∧ IsDashedName "order_rpc".toList ∧
      serviceName (String.ofList ("service".toList ++ ([] ++ ':' :: ([' '] ++
        "order_rpc".toList)))) = "order" := by
  refine ⟨.inr ⟨["service".toList], by simp, .word (by decide)⟩, by decide, by decide +kernel⟩

end

end ScriptForge.Prompt

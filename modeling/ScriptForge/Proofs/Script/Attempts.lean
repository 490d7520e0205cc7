import ScriptForge.Proofs.Script.Positions
import Mathlib.Data.Prod.Lex
import Mathlib.Order.MinMax

/-!
# How far attempts go

A phrase reports the place furthest into the text at which it has attempted a rule in vain. What is
put together from phrases reports the furthest place of its parts (`Attempts.position_merge`), and a
rule that fails reports its own start at least (`Attempts.position_ofRule`).

`Within phrase p cs q` bounds this place by `q`. Phrases that take characters of one class only, and
attempt nothing behind them, are `Scans`; a phrase that is tried again and again stays within a
place if it does so each time (`RepeatsTo`). `FailsAt phrase p cs q` says that the phrase does not
match and that `q` is the place it reports, `FailsWithin phrase p cs q` that it does not match and
goes no further than `q`.
-/

namespace ScriptForge.Script

/-! ## The order of positions -/

namespace Position

variable {p q : Position}

/-- Positions are ordered as in a text: by line, and then by column. -/
instance : LinearOrder Position :=
  LinearOrder.lift' (fun p => toLex (p.line, p.column)) fun p q h => by
    cases p
    cases q
    cases h
    rfl

theorem lt_iff_before : p < q ↔ p.before q = true := by
  rw [before_iff]
  exact Prod.Lex.lt_iff

theorem le_afterText (p : Position) (text : List Char) : p ≤ p.afterText text := by
  by_cases hnil : text = []
  · rw [hnil]
    exact le_refl p
  · exact (lt_iff_before.mpr (before_afterText hnil)).le

theorem afterText_le_of_prefix {first second : List Char} (h : first <+: second) :
    p.afterText first ≤ p.afterText second := by
  obtain ⟨rest, rfl⟩ := h
  rw [afterText_append]
  exact le_afterText _ rest

end Position

/-! ## Reports put together -/

theorem Attempts.position_merge (a b : Attempts) :
    (a.merge b).position = max a.position b.position := by
  simp only [merge, ← Position.lt_iff_before]
  split
  · rename_i h
    exact (max_eq_right h.le).symm
  · rename_i h
    have hle := not_lt.mp h
    split <;> exact (max_eq_left hle).symm

theorem Attempts.position_ofRule (r : Rule) (start : Position) (inner : Attempts) :
    (inner.ofRule r start).position = max start inner.position := by
  simp only [ofRule, ← Position.lt_iff_before]
  split
  · rename_i h
    exact (max_eq_right h.le).symm
  · rename_i h
    have hle := not_lt.mp h
    split
    · rename_i hsame
      rw [hsame.1, max_self]
    · exact (max_eq_left hle).symm

namespace Phrase

variable {phrase first second : Phrase} {p q q' : Position} {nodes : List Node}
  {text rest cs : List Char}

/-- The place furthest into the text at which the phrase has attempted a rule in vain, or the start
of all texts if it has not. -/
def reach (phrase : Phrase) (p : Position) (cs : List Char) : Position :=
  (phrase ⟨p, cs⟩).attempts.position

theorem reach_rule (r : Rule) : reach (rule r phrase) p cs =
    if (phrase ⟨p, cs⟩).found.isSome then reach phrase p cs else max p (reach phrase p cs) := by
  rw [reach, reach, rule]
  rcases phrase ⟨p, cs⟩ with ⟨attempts, _ | found⟩
  · exact Attempts.position_ofRule r p attempts
  · rfl

theorem reach_andThen_of_takes (h : Takes first p nodes text rest) :
    reach (first.andThen second) p (text ++ rest) =
      max (reach first p (text ++ rest)) (reach second (p.afterText text) rest) := by
  rw [Takes] at h
  rw [reach, reach, reach, andThen]
  rcases hfirst : first ⟨p, text ++ rest⟩ with ⟨attempts, _ | found⟩
  · rw [hfirst] at h
    cases h
  · rw [hfirst] at h
    cases h
    rcases hsecond : second ⟨p.afterText text, rest⟩ with ⟨more, _ | last⟩ <;>
      simp [hsecond, Attempts.position_merge]

theorem reach_gap_andThen {taken : List Char} (hgap : Token.gap (taken ++ rest) = (taken, rest)) :
    reach (gap.andThen second) p (taken ++ rest) =
      max .start (reach second (p.afterText taken) rest) :=
  reach_andThen_of_takes (takes_gap.mpr ⟨rfl, hgap⟩)

theorem reach_andThen_of_refuses (h : Refuses first p cs) :
    reach (first.andThen second) p cs = reach first p cs := by
  rw [Refuses] at h
  rw [reach, reach, andThen]
  rcases hfirst : first ⟨p, cs⟩ with ⟨attempts, _ | found⟩
  · rfl
  · rw [hfirst] at h
    cases h

theorem reach_orElse : reach (first.orElse second) p cs =
    if (first ⟨p, cs⟩).found.isSome then reach first p cs
    else max (reach first p cs) (reach second p cs) := by
  rw [reach, reach, reach, orElse]
  rcases first ⟨p, cs⟩ with ⟨attempts, _ | found⟩
  · exact Attempts.position_merge _ _
  · rfl

/-! ## Upper bounds -/

/-- The phrase attempts nothing in vain beyond a place. -/
def Within (phrase : Phrase) (p : Position) (cs : List Char) (q : Position) : Prop :=
  reach phrase p cs ≤ max .start q

theorem Within.mono (h : Within phrase p cs q) (hle : q ≤ q') : Within phrase p cs q' :=
  le_trans h (max_le_max le_rfl hle)

theorem within_nothing : Within nothing p cs q :=
  le_max_left _ _

theorem within_symbol {symbol : List Char} : Within (Phrase.symbol symbol) p cs q := by
  rw [Within, reach, Phrase.symbol]
  split <;> exact le_max_left _ _

theorem within_gap : Within gap p cs q :=
  le_max_left _ _

theorem within_token {r : Rule} {scan : Scanner} (h : p ≤ q) : Within (token r scan) p cs q := by
  rw [Within, reach, token]
  split
  · exact le_max_left _ _
  · exact le_max_of_le_right h

theorem within_token_of_takes {r : Rule} {scan : Scanner}
    (h : Takes (token r scan) p nodes text rest) : Within (token r scan) p (text ++ rest) q := by
  rw [Within, reach, token, (takes_token.mp h).2]
  exact le_max_left _ _

theorem Within.rule {r : Rule} (h : Within phrase p cs q) (hp : p ≤ q) :
    Within (rule r phrase) p cs q := by
  rw [Within, reach_rule]
  split
  · exact h
  · exact max_le (le_max_of_le_right hp) h

theorem Within.andThen_of_takes (hfirst : Within first p (text ++ rest) q)
    (htakes : Takes first p nodes text rest) (hsecond : Within second (p.afterText text) rest q) :
    Within (first.andThen second) p (text ++ rest) q := by
  rw [Within, reach_andThen_of_takes htakes]
  exact max_le hfirst hsecond

theorem Within.andThen_of_refuses (hfirst : Within first p cs q) (hrefuses : Refuses first p cs) :
    Within (first.andThen second) p cs q := by
  rw [Within, reach_andThen_of_refuses hrefuses]
  exact hfirst

theorem Within.andThen [Lawful first] (hfirst : Within first p cs q)
    (hsecond : ∀ nodes text rest, cs = text ++ rest → Takes first p nodes text rest →
      Within second (p.afterText text) rest q) : Within (first.andThen second) p cs q := by
  rcases takes_or_refuses first p cs with ⟨nodes, text, rest, rfl, htakes⟩ | hrefuses
  · exact hfirst.andThen_of_takes htakes (hsecond nodes text rest rfl htakes)
  · exact hfirst.andThen_of_refuses hrefuses

theorem Within.orElse_of_takes (hfirst : Within first p (text ++ rest) q)
    (htakes : Takes first p nodes text rest) : Within (first.orElse second) p (text ++ rest) q := by
  rw [Within, reach_orElse, if_pos]
  · exact hfirst
  · rw [Takes] at htakes
    rw [htakes]
    rfl

theorem Within.orElse (hfirst : Within first p cs q) (hsecond : Within second p cs q) :
    Within (first.orElse second) p cs q := by
  rw [Within, reach_orElse]
  split
  · exact hfirst
  · exact max_le hfirst hsecond

theorem Within.optional (h : Within phrase p cs q) : Within (optional phrase) p cs q :=
  h.orElse within_nothing

theorem Within.gap_andThen {taken : List Char} (hgap : Token.gap cs = (taken, rest))
    (h : Within second (p.afterText taken) rest q) : Within (gap.andThen second) p cs q := by
  have hcs := (Token.gap_sound hgap).2
  rw [hcs] at hgap ⊢
  exact within_gap.andThen_of_takes (takes_gap.mpr ⟨rfl, hgap⟩) h

theorem within_symbol_andThen {symbol : List Char} (h : ∀ rest, cs = symbol ++ rest →
    Within second (p.afterText symbol) rest q) :
    Within ((Phrase.symbol symbol).andThen second) p cs q := by
  refine within_symbol.andThen fun nodes text rest hcs htakes => ?_
  obtain ⟨-, rfl⟩ := takes_symbol.mp htakes
  exact h rest hcs

theorem within_token_andThen {r : Rule} {scan : Scanner} [Splits scan] (hp : p ≤ q)
    (h : ∀ text rest, scan cs = some (text, rest) → Within second (p.afterText text) rest q) :
    Within ((token r scan).andThen second) p cs q := by
  refine (within_token hp).andThen fun nodes text rest hcs htakes => ?_
  obtain ⟨-, hscan⟩ := takes_token.mp htakes
  exact h text rest (hcs ▸ hscan)

theorem within_token_andThen_of_none {r : Rule} {scan : Scanner} (h : scan cs = none) :
    Within ((token r scan).andThen second) p cs p :=
  (within_token le_rfl).andThen_of_refuses (refuses_token.mpr h)

/-! ## Phrases of one class of characters -/

/-- The phrase takes characters of the class only, and attempts nothing in vain behind the first
character that is none. -/
structure Scans (more : Char → Bool) (phrase : Phrase) : Prop where
  all : ∀ {p nodes text rest}, Takes phrase p nodes text rest → ∀ c ∈ text, more c = true
  within : ∀ p cs, Within phrase p cs (p.afterText (cs.takeWhile more))

section

variable {more : Char → Bool}

theorem scans_token {r : Rule} {scan : Scanner}
    (h : ∀ cs text rest, scan cs = some (text, rest) → ∀ c ∈ text, more c = true) :
    Scans more (token r scan) where
  all htakes := h _ _ _ (takes_token.mp htakes).2
  within p _ := within_token (p.le_afterText _)

theorem scans_symbol {symbol : List Char} (h : ∀ c ∈ symbol, more c = true) :
    Scans more (Phrase.symbol symbol) where
  all htakes := (takes_symbol.mp htakes).2 ▸ h
  within _ _ := within_symbol

theorem scans_nothing : Scans more nothing where
  all htakes := by simp [(takes_nothing.mp htakes).2]
  within _ _ := within_nothing

theorem Scans.rule {r : Rule} (h : Scans more phrase) : Scans more (rule r phrase) where
  all htakes := (takes_rule.mp htakes).elim fun _ hinner => h.all hinner.2
  within p cs := (h.within p cs).rule (p.le_afterText _)

theorem Scans.andThen [Lawful first] [Lawful second] (hfirst : Scans more first)
    (hsecond : Scans more second) : Scans more (first.andThen second) where
  all htakes := by
    obtain ⟨_, _, _, _, rfl, rfl, htakes₁, htakes₂⟩ := takes_andThen.mp htakes
    exact List.forall_mem_append.mpr ⟨hfirst.all htakes₁, hsecond.all htakes₂⟩
  within p cs := by
    refine (hfirst.within p cs).andThen fun nodes text rest hcs htakes => ?_
    rw [hcs, List.takeWhile_append_of_pos (hfirst.all htakes), Position.afterText_append]
    exact hsecond.within _ _

theorem Scans.orElse (hfirst : Scans more first) (hsecond : Scans more second) :
    Scans more (first.orElse second) where
  all htakes := by
    rcases takes_orElse.mp htakes with htakes | ⟨-, htakes⟩
    · exact hfirst.all htakes
    · exact hsecond.all htakes
  within p cs := (hfirst.within p cs).orElse (hsecond.within p cs)

theorem Scans.optional (h : Scans more phrase) : Scans more (optional phrase) :=
  h.orElse scans_nothing

theorem takeWhile_prefix_of_stop {c : Char} (hc : more c = false) (text rest : List Char) :
    (text ++ c :: rest).takeWhile more <+: text := by
  induction text with
  | nil => simp [hc]
  | cons d text ih =>
    rw [List.cons_append, List.takeWhile_cons]
    split
    · exact List.cons_prefix_cons.mpr ⟨rfl, ih⟩
    · exact List.nil_prefix

/-- A character that is not of the class bounds all attempts. -/
theorem Scans.within_of_stop (h : Scans more phrase) {c : Char} (hc : more c = false)
    (text rest : List Char) : Within phrase p (text ++ c :: rest) (p.afterText text) :=
  (h.within p _).mono (Position.afterText_le_of_prefix (takeWhile_prefix_of_stop hc text rest))

end

/-! ## Repetition -/

/-- Up to a text the phrase matches again and again, each time behind a gap, and there it does not
match. Each time it stays within a place. -/
inductive RepeatsTo (phrase : Phrase) (q : Position) (rest : List Char) :
    Position → List Char → Prop
  | stop {p : Position} {gap : List Char} (hgap : Token.gap (gap ++ rest) = (gap, rest)) :
      Refuses phrase (p.afterText gap) rest → Within phrase (p.afterText gap) rest q →
      RepeatsTo phrase q rest p gap
  | step {p : Position} {nodes : List Node} {gap taken text : List Char}
      (hgap : Token.gap (gap ++ (taken ++ (text ++ rest))) = (gap, taken ++ (text ++ rest))) :
      Takes phrase (p.afterText gap) nodes taken (text ++ rest) →
      Within phrase (p.afterText gap) (taken ++ (text ++ rest)) q →
      RepeatsTo phrase q rest ((p.afterText gap).afterText taken) text →
      RepeatsTo phrase q rest p (gap ++ (taken ++ text))

theorem RepeatsTo.exists_repeats (h : RepeatsTo phrase q rest p text) :
    ∃ nodes, Repeats phrase p nodes text rest := by
  induction h with
  | stop hgap hrefuses _ => exact ⟨[], .stop hgap hrefuses⟩
  | step hgap htakes _ _ ih =>
    obtain ⟨nodes, hrepeats⟩ := ih
    exact ⟨_, .step hgap htakes hrepeats⟩

theorem RepeatsTo.within_more (h : RepeatsTo phrase q rest p text) (limit : Nat) :
    Within (more limit phrase) p (text ++ rest) q := by
  induction h generalizing limit with
  | stop hgap hrefuses hwithin =>
    cases limit with
    | zero => exact within_nothing
    | succ limit => exact (Within.gap_andThen hgap (hwithin.andThen_of_refuses hrefuses)).optional
  | @step p nodes gap taken text hgap htakes hwithin _ ih =>
    cases limit with
    | zero => exact within_nothing
    | succ limit =>
      rw [List.append_assoc, List.append_assoc]
      exact (Within.gap_andThen hgap (hwithin.andThen_of_takes htakes (ih limit))).optional

/-- Repetition stays within a place if the phrase does so each time. -/
theorem RepeatsTo.within_repeated (h : RepeatsTo phrase q rest p text) :
    Within (gap.andThen (repeated phrase)) p (text ++ rest) q := by
  cases h with
  | stop hgap hrefuses hwithin =>
    exact Within.gap_andThen hgap (hwithin.andThen_of_refuses hrefuses).optional
  | step hgap htakes hwithin hmore =>
    rw [List.append_assoc, List.append_assoc]
    exact Within.gap_andThen hgap
      (hwithin.andThen_of_takes htakes (hmore.within_more _)).optional

/-! ## Lower bounds -/

/-- A rule that fails is reported at its start, or further on. -/
theorem le_reach_of_refuses {r : Rule} (h : Refuses phrase p cs) :
    p ≤ reach (rule r phrase) p cs := by
  rw [Refuses] at h
  rw [reach_rule, h]
  exact le_max_left _ _

theorem le_reach_andThen (first second : Phrase) (p : Position) (cs : List Char) [Lawful first] :
    reach first p cs ≤ reach (first.andThen second) p cs := by
  rcases takes_or_refuses first p cs with ⟨nodes, text, rest, rfl, htakes⟩ | hrefuses
  · rw [reach_andThen_of_takes htakes]
    exact le_max_left _ _
  · rw [reach_andThen_of_refuses hrefuses]

theorem le_reach_andThen_second (h : Takes first p nodes text rest) :
    reach second (p.afterText text) rest ≤ reach (first.andThen second) p (text ++ rest) := by
  rw [reach_andThen_of_takes h]
  exact le_max_right _ _

theorem le_reach_gap_andThen {taken : List Char}
    (hgap : Token.gap (taken ++ rest) = (taken, rest)) :
    reach second (p.afterText taken) rest ≤ reach (gap.andThen second) p (taken ++ rest) :=
  (le_max_right _ _).trans (reach_gap_andThen hgap).ge

theorem le_reach_optional : reach phrase p cs ≤ reach (optional phrase) p cs := by
  rw [optional, reach_orElse]
  split
  · exact le_rfl
  · exact le_max_left _ _

/-- The last attempt of a repetition, which fails, is among those reported. -/
theorem RepeatsTo.le_reach_more [Lawful phrase] (hconsumes : Consumes phrase)
    (h : RepeatsTo phrase q rest p text) (hrest : rest ≠ []) {limit : Nat}
    (hlimit : (text ++ rest).length ≤ limit) :
    reach phrase (p.afterText text) rest ≤ reach (more limit phrase) p (text ++ rest) := by
  have hlength := List.length_pos_iff.mpr hrest
  induction h generalizing limit with
  | stop hgap _ _ =>
    cases limit with
    | zero =>
      rw [List.length_append] at hlimit
      omega
    | succ limit =>
      refine le_trans ?_ le_reach_optional
      exact le_trans (le_reach_andThen phrase _ _ _) (le_reach_gap_andThen hgap)
  | @step p nodes gap taken text hgap htakes _ _ ih =>
    have hpos := List.length_pos_iff.mpr (hconsumes _ _ _ _ htakes)
    cases limit with
    | zero =>
      simp only [List.length_append] at hlimit
      omega
    | succ limit =>
      have hmore := @ih limit (by simp only [List.length_append] at hlimit ⊢; omega)
      rw [List.append_assoc, List.append_assoc, Position.afterText_append,
        Position.afterText_append]
      refine le_trans ?_ le_reach_optional
      exact le_trans (le_trans hmore (le_reach_andThen_second htakes)) (le_reach_gap_andThen hgap)

theorem RepeatsTo.le_reach_repeated [Lawful phrase] (hconsumes : Consumes phrase)
    (h : RepeatsTo phrase q rest p text) (hrest : rest ≠ []) :
    reach phrase (p.afterText text) rest ≤
      reach (gap.andThen (repeated phrase)) p (text ++ rest) := by
  cases h with
  | stop hgap _ _ =>
    refine le_trans ?_ (le_reach_gap_andThen hgap)
    exact le_trans (le_reach_andThen phrase _ _ _) le_reach_optional
  | @step _ _ gap taken text hgap htakes _ hmore =>
    have hlimit : (text ++ rest).length ≤ (taken ++ (text ++ rest)).length := by simp
    rw [List.append_assoc, List.append_assoc, Position.afterText_append, Position.afterText_append]
    refine le_trans ?_ (le_reach_gap_andThen hgap)
    refine le_trans ?_ le_reach_optional
    exact le_trans (hmore.le_reach_more hconsumes hrest hlimit) (le_reach_andThen_second htakes)

/-! ## Where a phrase fails -/

/-- The phrase does not match, and `q` is the place furthest into the text at which it has attempted
a rule in vain. -/
structure FailsAt (phrase : Phrase) (p : Position) (cs : List Char) (q : Position) : Prop where
  refuses : Refuses phrase p cs
  reach_eq : reach phrase p cs = q

theorem FailsAt.rule {r : Rule} (h : FailsAt phrase p cs q) (hle : p ≤ q) :
    FailsAt (rule r phrase) p cs q := by
  refine ⟨refuses_rule.mpr h.refuses, ?_⟩
  have hnone : (phrase ⟨p, cs⟩).found = none := h.refuses
  rw [reach_rule, hnone, h.reach_eq]
  exact max_eq_right hle

theorem FailsAt.andThen_of_first (h : FailsAt first p cs q) :
    FailsAt (first.andThen second) p cs q :=
  ⟨refuses_andThen_of_first h.refuses, (reach_andThen_of_refuses h.refuses).trans h.reach_eq⟩

theorem FailsAt.andThen_of_takes (h : FailsAt second (p.afterText text) rest q) (hq : .start ≤ q)
    (hwithin : Within first p (text ++ rest) q) (htakes : Takes first p nodes text rest) :
    FailsAt (first.andThen second) p (text ++ rest) q := by
  refine ⟨refuses_andThen_of_second htakes h.refuses, ?_⟩
  rw [Within, max_eq_right hq] at hwithin
  rw [reach_andThen_of_takes htakes, h.reach_eq, max_eq_right hwithin]

theorem FailsAt.gap_andThen {taken : List Char} (h : FailsAt second (p.afterText taken) rest q)
    (hq : .start ≤ q) (hgap : Token.gap (taken ++ rest) = (taken, rest)) :
    FailsAt (gap.andThen second) p (taken ++ rest) q :=
  h.andThen_of_takes hq within_gap (takes_gap.mpr ⟨rfl, hgap⟩)

theorem failsAt_token {r : Rule} {scan : Scanner} (h : scan cs = none) :
    FailsAt (token r scan) p cs p := by
  refine ⟨refuses_token.mpr h, ?_⟩
  rw [reach, token, h]

/-- The phrase does not match, and it attempts nothing in vain beyond a place. -/
structure FailsWithin (phrase : Phrase) (p : Position) (cs : List Char) (q : Position) : Prop where
  refuses : Refuses phrase p cs
  within : Within phrase p cs q

theorem FailsWithin.mono (h : FailsWithin phrase p cs q) (hle : q ≤ q') :
    FailsWithin phrase p cs q' :=
  ⟨h.refuses, h.within.mono hle⟩

theorem failsWithin_token {r : Rule} {scan : Scanner} (h : scan cs = none) :
    FailsWithin (token r scan) p cs p :=
  ⟨refuses_token.mpr h, within_token le_rfl⟩

theorem FailsWithin.rule {r : Rule} (h : FailsWithin phrase p cs q) (hp : p ≤ q) :
    FailsWithin (rule r phrase) p cs q :=
  ⟨refuses_rule.mpr h.refuses, h.within.rule hp⟩

theorem FailsWithin.andThen_of_first (h : FailsWithin first p cs q) :
    FailsWithin (first.andThen second) p cs q :=
  ⟨refuses_andThen_of_first h.refuses, h.within.andThen_of_refuses h.refuses⟩

theorem FailsWithin.andThen_of_takes (h : FailsWithin second (p.afterText text) rest q)
    (hwithin : Within first p (text ++ rest) q) (htakes : Takes first p nodes text rest) :
    FailsWithin (first.andThen second) p (text ++ rest) q :=
  ⟨refuses_andThen_of_second htakes h.refuses, hwithin.andThen_of_takes htakes h.within⟩

theorem FailsWithin.orElse (hfirst : FailsWithin first p cs q)
    (hsecond : FailsWithin second p cs q) : FailsWithin (first.orElse second) p cs q :=
  ⟨refuses_orElse.mpr ⟨hfirst.refuses, hsecond.refuses⟩, hfirst.within.orElse hsecond.within⟩

/-- A rule that fails and goes no further than its start is reported there. -/
theorem FailsWithin.failsAt {r : Rule} (h : FailsWithin (Phrase.rule r phrase) p cs p)
    (hp : .start ≤ p) : FailsAt (Phrase.rule r phrase) p cs p := by
  have hwithin := h.within
  rw [Within, max_eq_right hp] at hwithin
  exact ⟨h.refuses, le_antisymm hwithin (le_reach_of_refuses (refuses_rule.mp h.refuses))⟩

/-- A choice fails where one of its phrases does, if the other one goes no further. -/
theorem FailsAt.orElse (h : FailsAt first p cs q) (hq : .start ≤ q)
    (hsecond : FailsWithin second p cs q) : FailsAt (first.orElse second) p cs q := by
  have hnone : (first ⟨p, cs⟩).found = none := h.refuses
  have hwithin := hsecond.within
  rw [Within, max_eq_right hq] at hwithin
  refine ⟨refuses_orElse.mpr ⟨h.refuses, hsecond.refuses⟩, ?_⟩
  rw [reach_orElse, hnone, h.reach_eq]
  exact max_eq_left hwithin

theorem FailsWithin.orElse_failsAt (hfirst : FailsWithin first p cs q) (hq : .start ≤ q)
    (h : FailsAt second p cs q) : FailsAt (first.orElse second) p cs q := by
  have hnone : (first ⟨p, cs⟩).found = none := hfirst.refuses
  have hwithin := hfirst.within
  rw [Within, max_eq_right hq] at hwithin
  refine ⟨refuses_orElse.mpr ⟨hfirst.refuses, h.refuses⟩, ?_⟩
  rw [reach_orElse, hnone, h.reach_eq]
  exact max_eq_right hwithin

/-- A repetition with a symbol behind it fails where the last attempt of the repetition does. -/
theorem RepeatsTo.failsAt [Lawful phrase] (hconsumes : Consumes phrase)
    (h : RepeatsTo phrase q rest p text) (hrest : rest ≠ []) (hq : .start ≤ q)
    (hlast : q ≤ reach phrase (p.afterText text) rest) {symbol : List Char}
    (hsymbol : Text.after? symbol rest = none) :
    FailsAt (gap.andThen ((repeated phrase).andThen (gap.andThen (Phrase.symbol symbol)))) p
      (text ++ rest) q := by
  have hupper := h.within_repeated
  have hlower := le_trans hlast (h.le_reach_repeated hconsumes hrest)
  rw [Within, max_eq_right hq] at hupper
  have hreach := le_antisymm hupper hlower
  obtain ⟨_, hrepeats⟩ := h.exists_repeats
  obtain ⟨_, tail, rfl, htail, htakes⟩ := hrepeats.takes_repeated hconsumes
  obtain ⟨before, taken, rfl, hbefore, hrepeated⟩ := takes_gap_andThen.mp htakes
  have hclose : ∀ p, Refuses (gap.andThen (Phrase.symbol symbol)) p (tail ++ rest) := by
    intro p
    rw [refuses_gap_andThen htail, Refuses, Phrase.symbol, hsymbol]
  have hwithin : ∀ p, reach (gap.andThen (Phrase.symbol symbol)) p (tail ++ rest) ≤ q :=
    fun p => (Within.gap_andThen htail (within_symbol (q := q))).trans (max_eq_right hq).le
  rw [List.append_assoc, List.append_assoc] at hreach ⊢
  rw [reach_gap_andThen hbefore] at hreach
  constructor
  · exact (refuses_gap_andThen hbefore).mpr (refuses_andThen_of_second hrepeated (hclose _))
  · rw [reach_gap_andThen hbefore, reach_andThen_of_takes hrepeated, ← max_assoc, hreach]
    exact max_eq_left (hwithin _)

end Phrase

end ScriptForge.Script

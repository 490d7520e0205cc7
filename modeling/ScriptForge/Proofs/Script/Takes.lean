import ScriptForge.Proofs.Script.Gaps
import ScriptForge.Script.Phrase

/-!
# What phrases take

`Takes phrase p nodes text rest` says that the phrase, tried at `p` in front of `text ++ rest`,
takes `text` and leaves `nodes`; `Refuses phrase p cs` that it does not match in front of `cs`. What
was attempted in vain does not matter here.

A phrase is `Lawful` if what it takes is a piece at the front of the text. All phrases that are put
together from tokens, symbols and gaps are, and for those the rules below say what they take in both
directions: `takes_andThen` for two phrases in a row and `takes_orElse` for a choice. A phrase that
is tried again and again takes what `Repeats` describes (`Repeats.of_repeated`,
`Repeats.takes_repeated`).
-/

namespace ScriptForge.Script

@[simp] theorem Position.afterText_nil (p : Position) : p.afterText [] = p := rfl

@[simp] theorem Position.afterText_cons (p : Position) (c : Char) (text : List Char) :
    p.afterText (c :: text) = (p.after c).afterText text := rfl

theorem Position.afterText_append (p : Position) (first second : List Char) :
    p.afterText (first ++ second) = (p.afterText first).afterText second :=
  List.foldl_append

namespace Phrase

/-- In front of `text ++ rest` the phrase takes `text` and leaves `nodes`. -/
def Takes (phrase : Phrase) (p : Position) (nodes : List Node) (text rest : List Char) : Prop :=
  (phrase ⟨p, text ++ rest⟩).found = some ⟨nodes, text, ⟨p.afterText text, rest⟩⟩

/-- The phrase does not match in front of a text. -/
def Refuses (phrase : Phrase) (p : Position) (cs : List Char) : Prop :=
  (phrase ⟨p, cs⟩).found = none

/-- What the phrase takes is a piece at the front of the text. -/
class Lawful (phrase : Phrase) : Prop where
  takes_of_found : ∀ p cs found, (phrase ⟨p, cs⟩).found = some found →
    ∃ nodes text rest, cs = text ++ rest ∧ found = ⟨nodes, text, ⟨p.afterText text, rest⟩⟩

variable {phrase first second : Phrase} {p : Position} {nodes : List Node}
  {text rest cs : List Char}

/-- A lawful phrase refuses what it cannot take in any way. -/
theorem refuses_of_not_takes [Lawful phrase]
    (h : ∀ nodes text rest, cs = text ++ rest → ¬ Takes phrase p nodes text rest) :
    Refuses phrase p cs := by
  rw [Refuses]
  cases hfound : (phrase ⟨p, cs⟩).found with
  | none => rfl
  | some found =>
    obtain ⟨nodes, text, rest, rfl, rfl⟩ := Lawful.takes_of_found p cs found hfound
    exact absurd hfound (h nodes text rest rfl)

theorem takes_or_refuses (phrase : Phrase) [Lawful phrase] (p : Position) (cs : List Char) :
    (∃ nodes text rest, cs = text ++ rest ∧ Takes phrase p nodes text rest) ∨
      Refuses phrase p cs := by
  cases hfound : (phrase ⟨p, cs⟩).found with
  | none => exact .inr hfound
  | some found =>
    obtain ⟨nodes, text, rest, rfl, rfl⟩ := Lawful.takes_of_found p cs found hfound
    exact .inl ⟨nodes, text, rest, rfl, hfound⟩

/-! ## Pieces -/

theorem takes_nothing : Takes nothing p nodes text rest ↔ nodes = [] ∧ text = [] := by
  constructor
  · intro h
    cases h
    exact ⟨rfl, rfl⟩
  · rintro ⟨rfl, rfl⟩
    rfl

theorem takes_symbol {symbol : List Char} :
    Takes (Phrase.symbol symbol) p nodes text rest ↔ nodes = [] ∧ text = symbol := by
  rw [Takes, Phrase.symbol]
  constructor
  · intro h
    split at h <;> cases h
    exact ⟨rfl, rfl⟩
  · rintro ⟨rfl, rfl⟩
    rw [Text.after?_eq_some_iff.mpr rfl]
    rfl

theorem takes_gap : Takes gap p nodes text rest ↔
    nodes = [] ∧ Token.gap (text ++ rest) = (text, rest) := by
  rw [Takes, gap]
  cases hgap : Token.gap (text ++ rest) with
  | mk text' rest' =>
    constructor
    · intro h
      cases h
      exact ⟨rfl, rfl⟩
    · rintro ⟨rfl, h⟩
      cases h
      rfl

theorem takes_token {r : Rule} {scan : Scanner} :
    Takes (token r scan) p nodes text rest ↔
      nodes = [.mk r p text []] ∧ scan (text ++ rest) = some (text, rest) := by
  rw [Takes, token]
  cases hscan : scan (text ++ rest) with
  | none => simp
  | some token =>
    constructor
    · intro h
      cases h
      exact ⟨rfl, rfl⟩
    · rintro ⟨rfl, h⟩
      cases h
      rfl

theorem found_rule (r : Rule) (phrase : Phrase) (cursor : Cursor) :
    (rule r phrase cursor).found = (phrase cursor).found.map fun found =>
      { found with nodes := [.mk r cursor.position found.text found.nodes] } := by
  rw [rule]
  rcases phrase cursor with ⟨attempts, _ | found⟩ <;> rfl

theorem takes_rule {r : Rule} :
    Takes (rule r phrase) p nodes text rest ↔
      ∃ inner, nodes = [.mk r p text inner] ∧ Takes phrase p inner text rest := by
  rw [Takes, found_rule, Option.map_eq_some_iff]
  constructor
  · rintro ⟨⟨inner, text', next⟩, hfound, h⟩
    simp only [Match.mk.injEq] at h
    obtain ⟨rfl, rfl, rfl⟩ := h
    exact ⟨inner, rfl, hfound⟩
  · rintro ⟨inner, rfl, h⟩
    exact ⟨_, h, rfl⟩

theorem refuses_rule {r : Rule} : Refuses (rule r phrase) p cs ↔ Refuses phrase p cs := by
  rw [Refuses, found_rule, Option.map_eq_none_iff, Refuses]

theorem refuses_token {r : Rule} {scan : Scanner} :
    Refuses (token r scan) p cs ↔ scan cs = none := by
  rw [Refuses, token]
  cases scan cs <;> simp

/-! ## Two phrases -/

theorem found_andThen (first second : Phrase) (cursor : Cursor) :
    (andThen first second cursor).found = (first cursor).found.bind fun found =>
      (second found.next).found.map fun last =>
        ⟨found.nodes ++ last.nodes, found.text ++ last.text, last.next⟩ := by
  rw [andThen]
  rcases first cursor with ⟨attempts, _ | found⟩
  · rfl
  · rcases hsecond : second found.next with ⟨more, _ | last⟩ <;> simp [hsecond]

theorem found_orElse (first second : Phrase) (cursor : Cursor) :
    (orElse first second cursor).found = (first cursor).found.or (second cursor).found := by
  rw [orElse]
  rcases first cursor with ⟨attempts, _ | found⟩ <;> rfl

theorem takes_andThen [Lawful first] [Lawful second] :
    Takes (first.andThen second) p nodes text rest ↔
      ∃ nodes₁ text₁ nodes₂ text₂, nodes = nodes₁ ++ nodes₂ ∧ text = text₁ ++ text₂ ∧
        Takes first p nodes₁ text₁ (text₂ ++ rest) ∧
        Takes second (p.afterText text₁) nodes₂ text₂ rest := by
  rw [Takes, found_andThen, Option.bind_eq_some_iff]
  constructor
  · rintro ⟨found, hfirst, h⟩
    obtain ⟨last, hsecond, h⟩ := Option.map_eq_some_iff.mp h
    obtain ⟨nodes₁, text₁, rest₁, heq, rfl⟩ := Lawful.takes_of_found p _ found hfirst
    obtain ⟨nodes₂, text₂, rest₂, rfl, rfl⟩ := Lawful.takes_of_found _ _ last hsecond
    simp only [Match.mk.injEq, Cursor.mk.injEq] at h
    obtain ⟨rfl, rfl, -, rfl⟩ := h
    rw [heq] at hfirst
    exact ⟨nodes₁, text₁, nodes₂, text₂, rfl, rfl, hfirst, hsecond⟩
  · rintro ⟨nodes₁, text₁, nodes₂, text₂, rfl, rfl, hfirst, hsecond⟩
    rw [List.append_assoc, Position.afterText_append]
    exact ⟨_, hfirst, by rw [hsecond]; rfl⟩

theorem Takes.andThen {nodes₁ nodes₂ : List Node} {text₁ text₂ : List Char}
    (hfirst : Takes first p nodes₁ text₁ (text₂ ++ rest))
    (hsecond : Takes second (p.afterText text₁) nodes₂ text₂ rest) :
    Takes (first.andThen second) p (nodes₁ ++ nodes₂) (text₁ ++ text₂) rest := by
  rw [Takes, found_andThen, List.append_assoc, Position.afterText_append, hfirst]
  exact congrArg (Option.map _) hsecond

theorem takes_orElse :
    Takes (first.orElse second) p nodes text rest ↔ Takes first p nodes text rest ∨
      Refuses first p (text ++ rest) ∧ Takes second p nodes text rest := by
  rw [Takes, found_orElse, Option.or_eq_some_iff]
  rfl

theorem refuses_orElse :
    Refuses (first.orElse second) p cs ↔ Refuses first p cs ∧ Refuses second p cs := by
  rw [Refuses, found_orElse, Option.or_eq_none_iff]
  rfl

theorem refuses_andThen_of_first (h : Refuses first p cs) :
    Refuses (first.andThen second) p cs := by
  rw [Refuses, found_andThen, h]
  rfl

theorem refuses_andThen_of_second (hfirst : Takes first p nodes text rest)
    (hsecond : Refuses second (p.afterText text) rest) :
    Refuses (first.andThen second) p (text ++ rest) := by
  rw [Refuses, found_andThen, hfirst]
  exact congrArg (Option.map _) hsecond

theorem takes_optional :
    Takes (optional phrase) p nodes text rest ↔ Takes phrase p nodes text rest ∨
      nodes = [] ∧ text = [] ∧ Refuses phrase p rest := by
  rw [optional, takes_orElse, takes_nothing]
  constructor
  · rintro (h | ⟨h, rfl, rfl⟩)
    · exact .inl h
    · exact .inr ⟨rfl, rfl, h⟩
  · rintro (h | ⟨rfl, rfl, h⟩)
    · exact .inl h
    · exact .inr ⟨h, rfl, rfl⟩

/-! ## Lawful phrases -/

instance : Lawful nothing where
  takes_of_found p cs found h := by
    cases h
    exact ⟨[], [], cs, rfl, rfl⟩

instance (symbol : List Char) : Lawful (Phrase.symbol symbol) where
  takes_of_found p cs found h := by
    rw [Phrase.symbol] at h
    split at h
    · rename_i rest hafter
      cases h
      exact ⟨[], symbol, rest, Text.after?_eq_some_iff.mp hafter, rfl⟩
    · cases h

instance : Lawful gap where
  takes_of_found p cs found h := by
    rw [gap] at h
    cases hgap : Token.gap cs with
    | mk text rest =>
      rw [hgap] at h
      cases h
      exact ⟨[], text, rest, (Token.gap_sound hgap).2, rfl⟩

/-- What the scanner takes is a piece at the front of the text. -/
class Splits (scan : Scanner) : Prop where
  eq_append : ∀ {cs text rest}, scan cs = some (text, rest) → cs = text ++ rest

instance (r : Rule) (scan : Scanner) [Splits scan] : Lawful (token r scan) where
  takes_of_found p cs found h := by
    rw [token] at h
    cases hscan : scan cs with
    | none =>
      rw [hscan] at h
      cases h
    | some taken =>
      rw [hscan] at h
      cases h
      exact ⟨_, taken.1, taken.2, Splits.eq_append hscan, rfl⟩

instance (r : Rule) [Lawful phrase] : Lawful (rule r phrase) where
  takes_of_found p cs found h := by
    rw [found_rule] at h
    obtain ⟨inner, hinner, rfl⟩ := Option.map_eq_some_iff.mp h
    obtain ⟨nodes, text, rest, rfl, rfl⟩ := Lawful.takes_of_found p cs inner hinner
    exact ⟨_, text, rest, rfl, rfl⟩

instance [Lawful first] [Lawful second] : Lawful (first.andThen second) where
  takes_of_found p cs found h := by
    rw [found_andThen] at h
    obtain ⟨head, hhead, h⟩ := Option.bind_eq_some_iff.mp h
    obtain ⟨last, hlast, rfl⟩ := Option.map_eq_some_iff.mp h
    obtain ⟨nodes₁, text₁, rest₁, rfl, rfl⟩ := Lawful.takes_of_found p cs head hhead
    obtain ⟨nodes₂, text₂, rest₂, rfl, rfl⟩ := Lawful.takes_of_found _ _ last hlast
    refine ⟨nodes₁ ++ nodes₂, text₁ ++ text₂, rest₂, (List.append_assoc ..).symm, ?_⟩
    rw [Position.afterText_append]

instance [Lawful first] [Lawful second] : Lawful (first.orElse second) where
  takes_of_found p cs found h := by
    rw [found_orElse, Option.or_eq_some_iff] at h
    rcases h with h | ⟨-, h⟩
    · exact Lawful.takes_of_found p cs found h
    · exact Lawful.takes_of_found p cs found h

instance [Lawful phrase] : Lawful (optional phrase) :=
  inferInstanceAs (Lawful (phrase.orElse nothing))

instance (limit : Nat) [Lawful phrase] : Lawful (more limit phrase) := by
  induction limit with
  | zero => exact inferInstanceAs (Lawful nothing)
  | succ limit ih => exact inferInstanceAs (Lawful (optional (gap.andThen (phrase.andThen _))))

/-- A phrase that is chosen by the text in front of it. -/
theorem Lawful.of_cursor (phrases : Cursor → Phrase) (h : ∀ cursor, Lawful (phrases cursor)) :
    Lawful fun cursor => phrases cursor cursor where
  takes_of_found p cs found hfound := (h ⟨p, cs⟩).takes_of_found p cs found hfound

instance [Lawful phrase] : Lawful (repeated phrase) :=
  .of_cursor (fun cursor => optional (phrase.andThen (more cursor.rest.length phrase)))
    fun _ => inferInstance

instance (phrases : Nat → Phrase) [∀ depth, Lawful (phrases depth)] : Lawful (nested phrases) :=
  .of_cursor (fun cursor => phrases (cursor.rest.length + 1)) fun _ => inferInstance

instance [Lawful first] : Lawful (firstOf [first]) := ‹_›

instance (phrases : List Phrase) [Lawful first] [Lawful (firstOf (second :: phrases))] :
    Lawful (firstOf (first :: second :: phrases)) :=
  inferInstanceAs (Lawful (first.orElse _))

instance [Lawful first] : Lawful (joined [first]) := ‹_›

instance (phrases : List Phrase) [Lawful first] [Lawful (joined (second :: phrases))] :
    Lawful (joined (first :: second :: phrases)) :=
  inferInstanceAs (Lawful (first.andThen _))

instance [Lawful first] : Lawful (spaced [first]) := ‹_›

instance (phrases : List Phrase) [Lawful first] [Lawful (spaced (second :: phrases))] :
    Lawful (spaced (first :: second :: phrases)) :=
  inferInstanceAs (Lawful (first.andThen (gap.andThen _)))

/-! ## Phrases in a row -/

theorem joined_singleton (phrase : Phrase) : joined [phrase] = phrase := rfl

theorem joined_cons (first second : Phrase) (phrases : List Phrase) :
    joined (first :: second :: phrases) = first.andThen (joined (second :: phrases)) := rfl

theorem spaced_singleton (phrase : Phrase) : spaced [phrase] = phrase := rfl

theorem spaced_cons (first second : Phrase) (phrases : List Phrase) :
    spaced (first :: second :: phrases) =
      first.andThen (gap.andThen (spaced (second :: phrases))) := rfl

theorem takes_symbol_andThen {symbol : List Char} [Lawful second] :
    Takes ((Phrase.symbol symbol).andThen second) p nodes text rest ↔
      ∃ behind, text = symbol ++ behind ∧ Takes second (p.afterText symbol) nodes behind rest := by
  rw [takes_andThen]
  constructor
  · rintro ⟨_, _, _, behind, rfl, rfl, hsymbol, hsecond⟩
    obtain ⟨rfl, rfl⟩ := takes_symbol.mp hsymbol
    exact ⟨behind, rfl, hsecond⟩
  · rintro ⟨behind, rfl, hsecond⟩
    exact ⟨[], symbol, nodes, behind, rfl, rfl, takes_symbol.mpr ⟨rfl, rfl⟩, hsecond⟩

theorem takes_token_andThen {r : Rule} {scan : Scanner} [Splits scan] [Lawful second] :
    Takes ((token r scan).andThen second) p nodes text rest ↔
      ∃ taken behind nodes', nodes = .mk r p taken [] :: nodes' ∧ text = taken ++ behind ∧
        scan (taken ++ (behind ++ rest)) = some (taken, behind ++ rest) ∧
        Takes second (p.afterText taken) nodes' behind rest := by
  rw [takes_andThen]
  constructor
  · rintro ⟨_, taken, nodes', behind, rfl, rfl, htoken, hsecond⟩
    obtain ⟨rfl, hscan⟩ := takes_token.mp htoken
    exact ⟨taken, behind, nodes', rfl, rfl, hscan, hsecond⟩
  · rintro ⟨taken, behind, nodes', rfl, rfl, hscan, hsecond⟩
    exact ⟨[.mk r p taken []], taken, nodes', behind, rfl, rfl, takes_token.mpr ⟨rfl, hscan⟩,
      hsecond⟩

theorem takes_gap_andThen [Lawful second] :
    Takes (gap.andThen second) p nodes text rest ↔
      ∃ taken behind, text = taken ++ behind ∧
        Token.gap (taken ++ (behind ++ rest)) = (taken, behind ++ rest) ∧
        Takes second (p.afterText taken) nodes behind rest := by
  rw [takes_andThen]
  constructor
  · rintro ⟨_, taken, _, behind, rfl, rfl, hgap, hsecond⟩
    obtain ⟨rfl, hscan⟩ := takes_gap.mp hgap
    exact ⟨taken, behind, rfl, hscan, hsecond⟩
  · rintro ⟨taken, behind, rfl, hscan, hsecond⟩
    exact ⟨[], taken, nodes, behind, rfl, rfl, takes_gap.mpr ⟨rfl, hscan⟩, hsecond⟩

theorem takes_gap_andThen_of_stops [Lawful second] {taken behind : List Char}
    (hgap : Token.IsGap taken) (hstops : Token.StopsGap (behind ++ rest))
    (hsecond : Takes second (p.afterText taken) nodes behind rest) :
    Takes (gap.andThen second) p nodes (taken ++ behind) rest :=
  takes_gap_andThen.mpr ⟨taken, behind, rfl, Token.gap_append hgap hstops, hsecond⟩

/-! ## Repetition -/

/-- The phrase matches again and again, each time behind a gap, until it does not match behind the
last gap. -/
inductive Repeats (phrase : Phrase) : Position → List Node → List Char → List Char → Prop
  | stop {p : Position} {gap rest : List Char} (hgap : Token.gap (gap ++ rest) = (gap, rest)) :
      Refuses phrase (p.afterText gap) rest → Repeats phrase p [] gap rest
  | step {p : Position} {nodes₁ nodes₂ : List Node} {gap text₁ text₂ rest : List Char}
      (hgap : Token.gap (gap ++ (text₁ ++ (text₂ ++ rest))) = (gap, text₁ ++ (text₂ ++ rest))) :
      Takes phrase (p.afterText gap) nodes₁ text₁ (text₂ ++ rest) →
      Repeats phrase ((p.afterText gap).afterText text₁) nodes₂ text₂ rest →
      Repeats phrase p (nodes₁ ++ nodes₂) (gap ++ (text₁ ++ text₂)) rest

/-- A phrase that always takes something. -/
def Consumes (phrase : Phrase) : Prop :=
  ∀ p nodes text rest, Takes phrase p nodes text rest → text ≠ []

theorem refuses_andThen [Lawful first] :
    Refuses (first.andThen second) p cs ↔ ∀ nodes text rest, cs = text ++ rest →
      Takes first p nodes text rest → Refuses second (p.afterText text) rest := by
  constructor
  · rintro h nodes text rest rfl hfirst
    rw [Refuses, found_andThen, hfirst] at h
    exact Option.map_eq_none_iff.mp h
  · intro h
    rcases takes_or_refuses first p cs with ⟨nodes, text, rest, rfl, hfirst⟩ | hfirst
    · exact refuses_andThen_of_second hfirst (h nodes text rest rfl hfirst)
    · exact refuses_andThen_of_first hfirst

theorem refuses_gap_andThen {gap : List Char} (hgap : Token.gap cs = (gap, rest)) :
    Refuses (Phrase.gap.andThen phrase) p cs ↔ Refuses phrase (p.afterText gap) rest := by
  have heq := (Token.gap_sound hgap).2
  rw [heq] at hgap
  have htakes : Takes Phrase.gap p [] gap rest := takes_gap.mpr ⟨rfl, hgap⟩
  rw [heq, Refuses, found_andThen, htakes]
  exact Option.map_eq_none_iff

theorem not_refuses_more (limit : Nat) : ¬ Refuses (more limit phrase) p cs := by
  intro h
  cases limit with
  | zero => cases h
  | succ limit => cases (refuses_orElse.mp h).2

theorem refuses_nil [Lawful phrase] (hconsumes : Consumes phrase) : Refuses phrase p [] :=
  refuses_of_not_takes fun nodes text rest heq htakes =>
    hconsumes p nodes text rest htakes (List.append_eq_nil_iff.mp heq.symm).1

theorem refuses_andThen_more [Lawful phrase] {limit : Nat} :
    Refuses (phrase.andThen (more limit phrase)) p cs ↔ Refuses phrase p cs := by
  refine ⟨fun h => ?_, refuses_andThen_of_first⟩
  rcases takes_or_refuses phrase p cs with ⟨_, _, _, rfl, htakes⟩ | hrefuses
  · exact absurd (refuses_andThen.mp h _ _ _ rfl htakes) (not_refuses_more limit)
  · exact hrefuses

/-- What is taken by repetition up to a limit that the text does not reach, with the gap behind
it. -/
theorem Repeats.of_more [Lawful phrase] (hconsumes : Consumes phrase) {limit : Nat}
    {tail : List Char} (hlimit : (text ++ (tail ++ rest)).length ≤ limit)
    (h : Takes (more limit phrase) p nodes text (tail ++ rest))
    (hgap : Token.gap (tail ++ rest) = (tail, rest)) :
    Repeats phrase p nodes (text ++ tail) rest := by
  induction limit generalizing p nodes text with
  | zero =>
    have hnil := List.eq_nil_of_length_eq_zero (Nat.le_zero.mp hlimit)
    simp only [List.append_eq_nil_iff] at hnil
    obtain ⟨rfl, rfl, rfl⟩ := hnil
    obtain ⟨rfl, -⟩ := takes_nothing.mp h
    exact .stop rfl (refuses_nil hconsumes)
  | succ limit ih =>
    rcases takes_optional.mp h with h | ⟨rfl, rfl, hrefuses⟩
    · obtain ⟨gap, _, rfl, hscan, h⟩ := takes_gap_andThen.mp h
      obtain ⟨nodes₁, text₁, nodes₂, text₂, rfl, rfl, hphrase, hmore⟩ := takes_andThen.mp h
      have hpos := List.length_pos_iff.mpr (hconsumes _ _ _ _ hphrase)
      have hrest := ih (by simp only [List.length_append] at hlimit ⊢; omega) hmore
      rw [List.append_assoc] at hscan
      rw [List.append_assoc, List.append_assoc]
      rw [← List.append_assoc text₂] at hscan hphrase
      exact .step hscan hphrase hrest
    · rw [List.nil_append]
      exact .stop hgap (refuses_andThen_more.mp ((refuses_gap_andThen hgap).mp hrefuses))

theorem Repeats.takes_more [Lawful phrase] (hconsumes : Consumes phrase) {limit : Nat}
    (h : Repeats phrase p nodes text rest) (hlimit : (text ++ rest).length ≤ limit) :
    ∃ taken tail, text = taken ++ tail ∧ Token.gap (tail ++ rest) = (tail, rest) ∧
      Takes (more limit phrase) p nodes taken (tail ++ rest) := by
  induction h generalizing limit with
  | @stop p gap rest hgap hrefuses =>
    refine ⟨[], gap, rfl, hgap, ?_⟩
    cases limit with
    | zero => exact takes_nothing.mpr ⟨rfl, rfl⟩
    | succ limit =>
      refine takes_optional.mpr (.inr ⟨rfl, rfl, ?_⟩)
      exact (refuses_gap_andThen hgap).mpr (refuses_andThen_of_first hrefuses)
  | @step p nodes₁ nodes₂ gap text₁ text₂ rest hgap hphrase _ ih =>
    have hpos := List.length_pos_iff.mpr (hconsumes _ _ _ _ hphrase)
    cases limit with
    | zero => simp only [List.length_append] at hlimit; omega
    | succ limit =>
      obtain ⟨taken, tail, rfl, htail, hmore⟩ :=
        @ih limit (by simp only [List.length_append] at hlimit ⊢; omega)
      refine ⟨gap ++ (text₁ ++ taken), tail, by simp only [List.append_assoc], htail, ?_⟩
      rw [List.append_assoc] at hgap hphrase
      refine takes_optional.mpr (.inl (takes_gap_andThen.mpr ⟨gap, _, rfl, ?_, ?_⟩))
      · rwa [List.append_assoc]
      · exact hphrase.andThen hmore

theorem Repeats.of_repeated [Lawful phrase] (hconsumes : Consumes phrase) {tail : List Char}
    (h : Takes (gap.andThen (repeated phrase)) p nodes text (tail ++ rest))
    (hgap : Token.gap (tail ++ rest) = (tail, rest)) :
    Repeats phrase p nodes (text ++ tail) rest := by
  obtain ⟨gap, behind, rfl, hscan, h⟩ := takes_gap_andThen.mp h
  change Takes (optional (phrase.andThen (more (behind ++ (tail ++ rest)).length phrase))) _ _ _ _
    at h
  rcases takes_optional.mp h with h | ⟨rfl, rfl, hrefuses⟩
  · obtain ⟨nodes₁, text₁, nodes₂, text₂, rfl, rfl, hphrase, hmore⟩ := takes_andThen.mp h
    have hrest := Repeats.of_more hconsumes (by simp only [List.length_append]; omega) hmore hgap
    rw [List.append_assoc] at hscan
    rw [List.append_assoc, List.append_assoc]
    rw [← List.append_assoc text₂] at hscan hphrase
    exact .step hscan hphrase hrest
  · have hbehind := Token.gap_behind hscan
    rw [List.nil_append, hgap] at hbehind
    obtain ⟨rfl, -⟩ := Prod.mk.inj hbehind
    rw [List.append_nil, List.append_nil]
    exact .stop hscan (refuses_andThen_more.mp hrefuses)

theorem Repeats.takes_repeated [Lawful phrase] (hconsumes : Consumes phrase)
    (h : Repeats phrase p nodes text rest) :
    ∃ taken tail, text = taken ++ tail ∧ Token.gap (tail ++ rest) = (tail, rest) ∧
      Takes (gap.andThen (repeated phrase)) p nodes taken (tail ++ rest) := by
  cases h with
  | stop hgap hrefuses =>
    refine ⟨text, [], (List.append_nil _).symm, Token.gap_behind hgap, ?_⟩
    rw [← List.append_nil text]
    refine takes_gap_andThen.mpr ⟨text, [], rfl, hgap, ?_⟩
    exact takes_optional.mpr (.inr ⟨rfl, rfl, refuses_andThen_of_first hrefuses⟩)
  | @step _ nodes₁ nodes₂ gap text₁ text₂ _ hgap hphrase hmore =>
    have hlimit : (text₂ ++ rest).length ≤ (text₁ ++ (text₂ ++ rest)).length := by simp
    obtain ⟨taken, tail, rfl, htail, hmore⟩ := hmore.takes_more hconsumes hlimit
    refine ⟨gap ++ (text₁ ++ taken), tail, by simp only [List.append_assoc], htail, ?_⟩
    rw [List.append_assoc] at hgap hphrase hmore
    refine takes_gap_andThen.mpr ⟨gap, _, rfl, by rwa [List.append_assoc], ?_⟩
    rw [← List.append_assoc] at hmore
    exact takes_optional.mpr (.inl (hphrase.andThen hmore))

end Phrase

end ScriptForge.Script

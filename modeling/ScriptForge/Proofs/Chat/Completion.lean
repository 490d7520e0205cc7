import ScriptForge.Chat.Completion
import Mathlib.Algebra.Group.Nat.Defs
import Mathlib.Logic.Basic

/-!
# What a completion is

A document is a completion if it has a text that is not blank at `choices[0].message.content`
(`completion_of_content`); any other document is an empty response (`completion_eq_error_iff`). The
usage is what the document reports, with zero for a count that is missing or no natural number of 64
bits, and the sum of the two other counts for such a total (`usageOf_of_reports`). A sum that has
more than 64 bits stops the program or loses its leading bits (`usageOf_of_overflow`).
-/

namespace ScriptForge.Json

variable {json : Json}

/-- A key that is no number leads to fields alone. -/
theorem child?_eq_get? (name : String) (h : Decimal.nat? name.toList = none) (json : Json) :
    child? name json = json.get? name := by
  cases json with
  | arr items =>
    rw [child?, h]
    rfl
  | _ => rfl

theorem string?_eq_some_iff {text : String} : string? json = some text ↔ json = .str text := by
  cases json <;> simp [string?]

theorem natBelow?_eq_some_iff {bound n : Nat} :
    natBelow? bound json = some n ↔ json = .nat n ∧ n < bound := by
  constructor
  · intro h
    unfold natBelow? at h
    split at h
    · obtain ⟨hlt, heq⟩ := Option.ite_none_right_eq_some.mp h
      cases heq
      exact ⟨rfl, hlt⟩
    · cases h
  · rintro ⟨rfl, hlt⟩
    exact if_pos hlt

end ScriptForge.Json

namespace ScriptForge.Chat

open Pipeline

/-! ## Parts of the document -/

/-- What a document has under the index 0: the first item of an array, or the field of that name. -/
inductive IsFirst : Json → Json → Prop
  | item (first : Json) (others : List Json) : IsFirst (.arr (first :: others)) first
  | field {fields : List (String × Json)} {first : Json} :
      Json.lookup? fields "0" = some first → IsFirst (.obj fields) first

/-- A document has this text at `choices[0].message.content`. -/
def HasContent (body : Json) (text : String) : Prop :=
  ∃ choices first message, body.get? "choices" = some choices ∧ IsFirst choices first ∧
    first.get? "message" = some message ∧ message.get? "content" = some (.str text)

/-- A text holds a character that is not blank. -/
def HasInk (text : String) : Prop :=
  ∃ c ∈ text.toList, Text.isBlank c = false

/-- A document reports a count of tokens: a natural number of 64 bits. -/
def Counts (body : Json) (name : String) (n : Nat) : Prop :=
  ∃ usage, body.get? "usage" = some usage ∧ usage.get? name = some (.nat n) ∧ n < 2 ^ 64

/-- The count that a document reports, or another number if it reports none. -/
def CountsOr (body : Json) (name : String) (default n : Nat) : Prop :=
  Counts body name n ∨ (∀ m, ¬ Counts body name m) ∧ n = default

/-- The usage that a document reports. -/
structure Reports (body : Json) (usage : Usage) : Prop where
  prompt : CountsOr body "prompt_tokens" 0 usage.prompt
  completion : CountsOr body "completion_tokens" 0 usage.completion
  total : CountsOr body "total_tokens" (usage.prompt + usage.completion) usage.total

/-! ## Reading the parts -/

variable {body json : Json} {text name : String} {usage : Usage}

theorem child?_zero_eq_some_iff {first : Json} :
    Json.child? "0" json = some first ↔ IsFirst json first := by
  have hzero : Decimal.nat? "0".toList = some 0 := by decide
  constructor
  · intro h
    cases json with
    | arr items =>
      rw [Json.child?, hzero, Option.bind_some] at h
      cases items with
      | nil => cases h
      | cons first others =>
        cases h
        exact .item _ others
    | obj fields => exact .field h
    | _ => cases h
  · rintro (⟨_, others⟩ | hfield)
    · rw [Json.child?, hzero]
      rfl
    · exact hfield

theorem content?_eq_some_iff :
    (body.descend? ["choices", "0", "message", "content"]).bind Json.string? = some text ↔
      HasContent body text := by
  have hchoices := Json.child?_eq_get? "choices" (by decide)
  have hmessage := Json.child?_eq_get? "message" (by decide)
  have hcontent := Json.child?_eq_get? "content" (by decide)
  simp only [Json.descend?, hchoices, hmessage, hcontent, Option.bind_eq_some_iff,
    child?_zero_eq_some_iff, Json.string?_eq_some_iff, HasContent]
  constructor
  · rintro ⟨_, ⟨choices, hget, first, hfirst, message, hmsg, value, hvalue, heq⟩, rfl⟩
    cases heq
    exact ⟨choices, first, message, hget, hfirst, hmsg, hvalue⟩
  · rintro ⟨choices, first, message, hget, hfirst, hmsg, hvalue⟩
    exact ⟨_, ⟨choices, hget, first, hfirst, message, hmsg, _, hvalue, rfl⟩, rfl⟩

theorem tokens?_eq_some_iff {n : Nat} : tokens? body name = some n ↔ Counts body name n := by
  have hsize : UInt64.size = 2 ^ 64 := rfl
  simp only [tokens?, Option.bind_eq_some_iff, Json.natBelow?_eq_some_iff, Counts, hsize]
  constructor
  · rintro ⟨_, ⟨usage, husage, hcount⟩, rfl, hlt⟩
    exact ⟨usage, husage, hcount, hlt⟩
  · rintro ⟨usage, husage, hcount, hlt⟩
    exact ⟨_, ⟨usage, husage, hcount⟩, rfl, hlt⟩

theorem countsOr_iff {default n : Nat} :
    CountsOr body name default n ↔ n = (tokens? body name).getD default := by
  simp only [CountsOr, ← tokens?_eq_some_iff]
  cases tokens? body name <;> simp [eq_comm]

/-- Every document reports a usage. -/
theorem exists_reports (body : Json) : ∃ usage, Reports body usage := by
  let prompt := (tokens? body "prompt_tokens").getD 0
  let completion := (tokens? body "completion_tokens").getD 0
  let total := (tokens? body "total_tokens").getD (prompt + completion)
  exact ⟨⟨prompt, completion, total⟩, countsOr_iff.mpr rfl, countsOr_iff.mpr rfl,
    countsOr_iff.mpr rfl⟩

/-- The counts are those that the document reports, and only the sum can overflow. -/
theorem usageOf_eq (overflow : Overflow) (h : Reports body usage) :
    usageOf overflow body =
      (overflow.fit? (2 ^ 64) (usage.prompt + usage.completion)).map fun sum =>
        ⟨usage.prompt, usage.completion, (tokens? body "total_tokens").getD sum⟩ := by
  have hprompt := countsOr_iff.mp h.prompt
  have hcompletion := countsOr_iff.mp h.completion
  rw [usageOf, ← hprompt, ← hcompletion]
  rfl

theorem usageOf_of_reports (overflow : Overflow) (h : Reports body usage)
    (hsum : usage.prompt + usage.completion < 2 ^ 64) : usageOf overflow body = some usage := by
  rw [usageOf_eq overflow h, Overflow.fit?_of_lt overflow hsum, Option.map_some,
    ← countsOr_iff.mp h.total]

/-- A sum that is too large stops the program even where a total is reported; otherwise it is
reduced where none is. -/
theorem usageOf_of_overflow (h : Reports body usage)
    (hsum : 2 ^ 64 ≤ usage.prompt + usage.completion) :
    usageOf .stops body = none ∧
      ∃ total, CountsOr body "total_tokens" ((usage.prompt + usage.completion) % 2 ^ 64) total ∧
        usageOf .wraps body = some ⟨usage.prompt, usage.completion, total⟩ := by
  constructor
  · rw [usageOf_eq .stops h, Overflow.fit?_stops hsum]
    rfl
  · refine ⟨_, countsOr_iff.mpr rfl, ?_⟩
    rw [usageOf_eq .wraps h, Overflow.fit?_wraps]
    rfl

theorem allBlank_eq_false_iff : Text.allBlank text = false ↔ HasInk text := by
  simp [Text.allBlank, HasInk]

/-! ## Completions -/

/-- A document has one content at most. -/
theorem HasContent.contentOf_eq (h : HasContent body text) : contentOf body = text := by
  rw [contentOf, content?_eq_some_iff.mpr h, Option.getD_some]

/-- A content that is not blank is there. -/
theorem hasContent_contentOf (h : HasInk (contentOf body)) :
    HasContent body (contentOf body) := by
  rw [contentOf] at h
  cases hcontent : (body.descend? ["choices", "0", "message", "content"]).bind Json.string? with
  | none =>
    rw [hcontent] at h
    obtain ⟨c, hc, -⟩ := h
    cases hc
  | some text =>
    have hhas := content?_eq_some_iff.mp hcontent
    rwa [hhas.contentOf_eq]

/-- If the content is blank, then all content is. -/
theorem not_hasInk_of_allBlank (h : Text.allBlank (contentOf body) = true)
    (hcontent : HasContent body text) : ¬ HasInk text := by
  rw [← allBlank_eq_false_iff, ← hcontent.contentOf_eq, h]
  decide

theorem completion_of_content (overflow : Overflow) (hcontent : HasContent body text)
    (hink : HasInk text) :
    completion overflow body = (usageOf overflow body).map fun usage => .ok ⟨text, usage⟩ := by
  obtain rfl := hcontent.contentOf_eq
  rw [completion, allBlank_eq_false_iff.mpr hink]
  rfl

theorem completion_eq_error_iff {overflow : Overflow} {error : StageError} :
    completion overflow body = some (.error error) ↔
      (∀ text, HasContent body text → ¬ HasInk text) ∧ error = .emptyResponse := by
  cases hblank : Text.allBlank (contentOf body) with
  | true =>
    rw [completion, if_pos hblank, Option.some.injEq, Except.error.injEq, eq_comm,
      and_iff_right fun text => not_hasInk_of_allBlank hblank]
  | false =>
    have hink := allBlank_eq_false_iff.mp hblank
    have hcontent := hasContent_contentOf hink
    refine iff_of_false ?_ fun h => h.1 _ hcontent hink
    rw [completion_of_content overflow hcontent hink]
    cases usageOf overflow body <;> simp

end ScriptForge.Chat

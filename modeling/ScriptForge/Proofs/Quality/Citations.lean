import ScriptForge.Quality.Validator
import ScriptForge.Script.Json
import Mathlib.Data.List.Forall2

/-!
# What findings cite

A finding belongs to a check and to a line, and its message quotes what is wrong there: a name, a
statement, a line of code or a block. `Finding.Cites` says so of one finding, for each kind of
finding there is a lemma that says what it cites, and `CiteEach` matches the findings of one check
with the places they are about, in their order.
-/

namespace ScriptForge.Quality

open Script

/-- A line and what stands there. -/
structure Place where
  line : Nat
  text : String
  deriving DecidableEq, Repr

namespace Place

/-- A name in quotation marks. -/
def ofName (line : Nat) (name : String) : Place :=
  ⟨line, s!"'{name}'"⟩

/-- The name that is read, where it is read. -/
def ofUse (use : Reference) : Place :=
  ofName use.position.line use.name

/-- The content of a statement, where it starts. -/
def ofStatement (statement : Statement) : Place :=
  ⟨statement.position.line, statement.content⟩

/-- What a block does. -/
def ofBlock (line : Nat) (operation : Operation) : Place :=
  ⟨line, s!"gql {operation.name}"⟩

end Place

namespace Finding

/-- The finding is of this check and at this place, and its message quotes what stands there. -/
structure Cites (finding : Finding) (check : Check) (place : Place) : Prop where
  check_eq : finding.check = check
  line_eq : finding.line = some place.line
  quotes : place.text.toList <:+: finding.message.toList

/-- The suggestion of the finding names something in quotation marks. -/
def Suggests (finding : Finding) (name : String) : Prop :=
  ∃ suggestion, finding.suggestion = some suggestion ∧ s!"'{name}'".toList <:+: suggestion.toList

end Finding

/-! ## The kinds of findings -/

theorem infix_of_append_eq {text whole : String} (before behind : String)
    (h : before ++ (text ++ behind) = whole) : text.toList <:+: whole.toList :=
  ⟨before.toList, behind.toList, by rw [← h]; simp⟩

/-- A text is inserted into another one as it is. -/
theorem toString_string (text : String) : toString text = text := rfl

theorem namingFinding_cites (name : String) (line : Nat) :
    (namingFinding name line).Cites .naming (.ofName line name) where
  check_eq := rfl
  line_eq := rfl
  quotes := by
    refine infix_of_append_eq "variable name "
      " does not follow the '<name><8 digits>' convention" ?_
    simp only [namingFinding, Place.ofName, toString_string, ← String.toList_inj,
      String.toList_append]
    simp

theorem namingFinding_suggests (name : String) (line : Nat) :
    (namingFinding name line).Suggests (suggestedName name) := by
  refine ⟨_, rfl, infix_of_append_eq s!"rename '{name}' to something like " "" ?_⟩
  simp only [toString_string, ← String.toList_inj, String.toList_append]
  simp

theorem terminationFinding_cites (statement : Statement) :
    (terminationFinding statement).Cites .termination (.ofStatement statement) where
  check_eq := rfl
  line_eq := rfl
  quotes := infix_of_append_eq
    s!"statement at line {statement.position.line} is missing its terminator: " ""
      (by simp [terminationFinding, Place.ofStatement, toString_string])

theorem dataFlowFinding_cites (use : Reference) :
    (dataFlowFinding use).Cites .dataFlow (.ofUse use) where
  check_eq := rfl
  line_eq := rfl
  quotes := by
    refine infix_of_append_eq "variable " " is used but never declared" ?_
    simp only [dataFlowFinding, Place.ofUse, Place.ofName, toString_string, ← String.toList_inj,
      String.toList_append]
    simp

theorem gqlBodyFinding_cites (operation : Operation) (line : Nat) :
    (gqlBodyFinding operation line).Cites .gqlBody (.ofBlock line operation) where
  check_eq := rfl
  line_eq := rfl
  quotes := by
    refine infix_of_append_eq "" " body is empty" ?_
    cases operation <;> rfl

theorem lineFinding_cites (number : Nat) (code : List Char) :
    (TextCheck.lineFinding number code).Cites .termination ⟨number, String.ofList code⟩ where
  check_eq := rfl
  line_eq := rfl
  quotes := infix_of_append_eq s!"line {number} is missing its terminator: " ""
    (by simp [TextCheck.lineFinding, toString_string])

theorem parseFinding_cites (place : Position) (expected : List Rule) :
    let error := ParseError.unexpected place expected
    (parseFinding error).Cites .form ⟨place.line, error.message⟩ where
  check_eq := rfl
  line_eq := rfl
  quotes := infix_of_append_eq "syntax error at " "" (by simp [parseFinding])

theorem check_parseFinding (error : ParseError) : (parseFinding error).check = .form := by
  cases error <;> rfl

/-! ## The findings of a check -/

/-- One finding of this check for each place, in the order of the places. -/
def CiteEach (check : Check) (findings : List Finding) (places : List Place) : Prop :=
  List.Forall₂ (fun finding place => finding.Cites check place) findings places

section

variable {α : Type} {check : Check} {findings : List Finding} {places : List Place}

theorem citeEach_map {find : α → Finding} {place : α → Place}
    (h : ∀ a, (find a).Cites check (place a)) (items : List α) :
    CiteEach check (items.map find) (items.map place) := by
  rw [CiteEach, List.forall₂_map_left_iff, List.forall₂_map_right_iff, List.forall₂_same]
  exact fun a _ => h a

theorem citeEach_flatMap {find : α → List Finding} {place : α → List Place}
    (h : ∀ a, CiteEach check (find a) (place a)) (items : List α) :
    CiteEach check (items.flatMap find) (items.flatMap place) := by
  induction items with
  | nil => exact .nil
  | cons a items ih =>
    rw [List.flatMap_cons, List.flatMap_cons]
    exact List.rel_append (h a) ih

theorem CiteEach.check_eq (h : CiteEach check findings places) {finding : Finding}
    (hmem : finding ∈ findings) : finding.check = check := by
  induction h with
  | nil => cases hmem
  | cons hfirst _ ih =>
    rcases List.mem_cons.mp hmem with rfl | hmem
    · exact hfirst.check_eq
    · exact ih hmem

end

end ScriptForge.Quality

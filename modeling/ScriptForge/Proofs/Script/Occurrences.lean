import ScriptForge.Proofs.Script.Renders
import ScriptForge.Script.Walk

/-!
# What stands in a script

`Expression.Contains` reaches every value in the tree of a value, through the arguments of calls
nested to any depth. The values that are no calls, its leaves, stand in the order of the source
(`mem_leaves_iff`); the walk through a script meets the references among them and no others
(`mem_references_iff`).

The rules of writing leave no place for an embedded block within the arguments of a call
(`RendersOperand.not_contains_query`). So the blocks of a script are the values of its statements
(`RendersKind.blocks_eq`).
-/

namespace ScriptForge.Script

/-! ## Values within values -/

/-- A value stands in another when it is the same, or stands in an argument of a call. -/
inductive Expression.Contains : Expression → Expression → Prop
  | self {value : Expression} : Contains value value
  | argument {callee : Callee} {arguments : List Expression} {argument part : Expression} :
      argument ∈ arguments → Contains argument part → Contains (.call callee arguments) part

/-- A value stands in a script when it stands in one of the statements. -/
def Contains (script : Script) (part : Expression) : Prop :=
  ∃ statement ∈ script.statements, statement.kind.last.Contains part

/-- Some statement of a script declares the name. -/
def Declares (script : Script) (name : String) : Prop :=
  ∃ statement ∈ script.statements, statement.kind.declared? = some name

mutual

/-- The values in a value that are no calls, in source order. -/
def Expression.leaves : Expression → List Expression
  | .call _ arguments => argumentLeaves arguments
  | .query block => [.query block]
  | .reference reference => [.reference reference]
  | .literal literal => [.literal literal]

/-- The values in the arguments of a call that are no calls, in source order. -/
def argumentLeaves : List Expression → List Expression
  | [] => []
  | argument :: arguments => argument.leaves ++ argumentLeaves arguments

end

variable {value part : Expression} {arguments : List Expression}

mutual

/-- A leaf of a value stands in it, and is a leaf. -/
theorem contains_of_mem_leaves {part : Expression} :
    ∀ {value : Expression}, part ∈ value.leaves → value.Contains part ∧ part.leaves = [part]
  | .call _ _, h => by
    obtain ⟨⟨argument, hmem, hcontains⟩, hleaf⟩ := contains_of_mem_argumentLeaves h
    exact ⟨.argument hmem hcontains, hleaf⟩
  | .query _, h => by
    rcases List.mem_singleton.mp h with rfl
    exact ⟨.self, rfl⟩
  | .reference _, h => by
    rcases List.mem_singleton.mp h with rfl
    exact ⟨.self, rfl⟩
  | .literal _, h => by
    rcases List.mem_singleton.mp h with rfl
    exact ⟨.self, rfl⟩

theorem contains_of_mem_argumentLeaves {part : Expression} :
    ∀ {arguments : List Expression}, part ∈ argumentLeaves arguments →
      (∃ argument ∈ arguments, argument.Contains part) ∧ part.leaves = [part]
  | [], h => nomatch h
  | first :: _, h => by
    rcases List.mem_append.mp h with h | h
    · obtain ⟨hcontains, hleaf⟩ := contains_of_mem_leaves h
      exact ⟨⟨first, List.mem_cons_self, hcontains⟩, hleaf⟩
    · obtain ⟨⟨argument, hmem, hcontains⟩, hleaf⟩ := contains_of_mem_argumentLeaves h
      exact ⟨⟨argument, List.mem_cons_of_mem _ hmem, hcontains⟩, hleaf⟩

end

theorem mem_argumentLeaves {argument : Expression} (hmem : argument ∈ arguments)
    (h : part ∈ argument.leaves) : part ∈ argumentLeaves arguments := by
  induction hmem with
  | head => exact List.mem_append_left _ h
  | tail _ _ ih => exact List.mem_append_right _ ih

theorem mem_leaves_of_contains (h : value.Contains part) (hleaf : part.leaves = [part]) :
    part ∈ value.leaves := by
  induction h with
  | self =>
    rw [hleaf]
    exact List.mem_singleton_self _
  | argument hmem _ ih => exact mem_argumentLeaves hmem (ih hleaf)

/-- The leaves of a value are the values in it that are no calls. -/
theorem mem_leaves_iff : part ∈ value.leaves ↔ value.Contains part ∧ part.leaves = [part] :=
  ⟨contains_of_mem_leaves, fun h => mem_leaves_of_contains h.1 h.2⟩

/-- Leaves picked out of a value are the leaves of that kind that stand in it. -/
theorem mem_filterMap_leaves {α : Type} {pick : Expression → Option α} {a : α} {leaf : Expression}
    (hpick : ∀ part, pick part = some a ↔ part = leaf) (hleaf : leaf.leaves = [leaf]) :
    a ∈ value.leaves.filterMap pick ↔ value.Contains leaf := by
  simp only [List.mem_filterMap, hpick, exists_eq_right, mem_leaves_iff, hleaf, and_true]

/-! ## References -/

/-- The reference that a value is. -/
def Expression.reference? : Expression → Option Reference
  | .reference use => some use
  | _ => none

mutual

theorem references_eq_leaves :
    ∀ value : Expression, value.references = value.leaves.filterMap Expression.reference?
  | .call _ arguments => argumentReferences_eq_leaves arguments
  | .query _ => rfl
  | .reference _ => rfl
  | .literal _ => rfl

theorem argumentReferences_eq_leaves : ∀ arguments : List Expression,
    argumentReferences arguments = (argumentLeaves arguments).filterMap Expression.reference?
  | [] => rfl
  | argument :: arguments => by
    rw [argumentReferences, argumentLeaves, List.filterMap_append, references_eq_leaves argument,
      argumentReferences_eq_leaves arguments]

end

theorem reference?_eq_some_iff {use : Reference} :
    part.reference? = some use ↔ part = .reference use := by
  cases part <;> simp [Expression.reference?]

theorem references_kind (kind : StatementKind) : kind.references = kind.last.references := by
  cases kind <;> rfl

/-- The walk through a value meets every reference in it, and no other. -/
theorem Expression.mem_references_iff {use : Reference} :
    use ∈ value.references ↔ value.Contains (.reference use) := by
  rw [references_eq_leaves]
  exact mem_filterMap_leaves (fun _ => reference?_eq_some_iff) rfl

/-- The walk through a script meets every reference in it, and no other. -/
theorem mem_references_iff {script : Script} {use : Reference} :
    use ∈ script.references ↔ script.Contains (.reference use) := by
  simp only [references, List.mem_flatMap, references_kind, Expression.mem_references_iff, Contains]

theorem mem_declaredNames_iff {script : Script} {name : String} :
    name ∈ script.declaredNames ↔ script.Declares name := by
  simp only [declaredNames, List.mem_filterMap, Declares]

/-! ## Embedded blocks -/

/-- The embedded block that a value is. -/
def Expression.block? : Expression → Option GqlBlock
  | .query block => some block
  | _ => none

/-- The embedded blocks in a value, in source order. -/
def Expression.blocks (value : Expression) : List GqlBlock :=
  value.leaves.filterMap Expression.block?

theorem block?_eq_some_iff {block : GqlBlock} : part.block? = some block ↔ part = .query block := by
  cases part <;> simp [Expression.block?]

theorem mem_blocks_iff {block : GqlBlock} :
    block ∈ value.blocks ↔ value.Contains (.query block) :=
  mem_filterMap_leaves (fun _ => block?_eq_some_iff) rfl

variable {p : Position} {text : List Char}

theorem RendersArguments.mem {operand : Position → Expression → List Char → Prop}
    {argument : Expression} (h : RendersArguments operand p arguments text)
    (hmem : argument ∈ arguments) : ∃ q cs, operand q argument cs := by
  induction h with
  | none => cases hmem
  | one _ hfirst _ =>
    rcases List.mem_singleton.mp hmem with rfl
    exact ⟨_, _, hfirst⟩
  | more _ hfirst _ _ ih =>
    rcases List.mem_cons.mp hmem with rfl | hmem
    · exact ⟨_, _, hfirst⟩
    · exact ih hmem

/-- No embedded block stands in an operand, however deep its calls are nested. -/
theorem RendersOperand.not_contains_query {block : GqlBlock} (h : RendersOperand p value text) :
    ¬ value.Contains (.query block) := by
  intro hcontains
  generalize hpart : Expression.query block = part at hcontains
  induction hcontains generalizing p text with
  | self =>
    subst hpart
    cases h
  | argument hmem _ ih =>
    cases h with
    | call _ _ harguments =>
      obtain ⟨q, cs, hargument⟩ := harguments.mem hmem
      exact ih hargument hpart

theorem RendersOperand.blocks_eq_nil (h : RendersOperand p value text) : value.blocks = [] :=
  List.eq_nil_iff_forall_not_mem.mpr fun _ hmem => h.not_contains_query (mem_blocks_iff.mp hmem)

theorem RendersValue.blocks_eq (h : RendersValue p value text) :
    value.blocks = value.block?.toList := by
  cases h with
  | operand h =>
    rw [h.blocks_eq_nil]
    cases h <;> rfl
  | query => rfl

/-- The blocks of a written statement: the one that is its value, if it is one. -/
theorem RendersKind.blocks_eq {kind : StatementKind} (h : RendersKind p kind text) :
    kind.last.blocks = (kind.value?.bind Expression.block?).toList := by
  cases h with
  | declaration _ _ _ _ _ h => exact h.blocks_eq
  | returns _ _ h => exact h.blocks_eq
  | output _ _ _ _ _ _ h => exact h.blocks_eq
  | mapping _ _ _ _ _ h => exact h.blocks_eq
  | call h => exact h.blocks_eq_nil

theorem RendersStatements.mem {statements : List Statement} {statement : Statement}
    (h : RendersStatements p statements text) (hmem : statement ∈ statements) :
    ∃ q cs, RendersKind q statement.kind cs := by
  induction h with
  | nil => cases hmem
  | cons hkind _ _ _ _ ih =>
    rcases List.mem_cons.mp hmem with rfl | hmem
    · exact ⟨_, _, hkind⟩
    · exact ih hmem

theorem Renders.mem {script : Script} {statement : Statement} (h : Renders script text)
    (hmem : statement ∈ script.statements) : ∃ q cs, RendersKind q statement.kind cs := by
  obtain ⟨-, hservice, -⟩ := h
  obtain ⟨-, -, -, -, -, hstatements⟩ := hservice
  exact hstatements.mem hmem

end ScriptForge.Script

import ScriptForge.Proofs.Json.Fields
import ScriptForge.Script.Json
import ScriptForge.Script.Walk

/-!
# Scripts read back from JSON

A script whose positions are numbers of 64 bits is read back from its written form
(`Script.restores`). A value is written as a tagged record that shares its object with the fields of
what it wraps, and calls contain values again. So the reader looks only as deep as the written form
is nested, and the induction is on the value with a bound on that depth.
-/

namespace ScriptForge.Script

open Json

/-! ## Parts without positions -/

@[simp] theorem Operation.ofName?_name (operation : Operation) :
    ofName? operation.name = some operation := by
  cases operation <;> rfl

@[simp] theorem LiteralKind.ofName?_name (kind : LiteralKind) : ofName? kind.name = some kind := by
  cases kind <;> rfl

theorem GqlBlock.reader_fields (block : GqlBlock) :
    reader (.named block.fields) = some (block, .named block.fields) := by
  rw [reader, field_bind rfl (Operation.ofName?_name block.operation),
    field_bind rfl (string?_str block.body)]
  rfl

theorem Literal.reader_fields (literal : Literal) :
    reader (.named literal.fields) = some (literal, .named literal.fields) := by
  rw [reader, field_bind rfl (LiteralKind.ofName?_name literal.kind),
    field_bind rfl (string?_str literal.raw)]
  rfl

/-! ## Positions -/

/-- Line and column are numbers of 64 bits. -/
def Position.Fits (position : Position) : Prop :=
  position.line < UInt64.size ∧ position.column < UInt64.size

theorem Position.restores : Restores Position.toJson Position.ofJson? Position.Fits := by
  rintro position ⟨hline, hcolumn⟩
  refine record?_obj ?_
  rw [field_bind rfl (word64?_nat hline), field_bind rfl (word64?_nat hcolumn)]
  rfl

theorem Reference.reader_fields {reference : Reference} (h : reference.position.Fits) :
    reader (.named reference.fields) = some (reference, .named reference.fields) := by
  rw [reader, field_bind rfl (string?_str reference.name),
    field_bind rfl (items?_strings reference.path),
    field_bind rfl (Position.restores reference.position h)]
  rfl

/-! ## Values -/

/-- The positions of the references in a value are numbers of 64 bits. -/
def Expression.Fits (value : Expression) : Prop :=
  ∀ reference ∈ value.references, reference.position.Fits

/-- A call is read if its arguments are. -/
theorem Callee.reader_fields (callee : Callee) {argument : Json → Option Expression}
    {written : List Json} {arguments : List Expression}
    (h : items? argument (.arr written) = some arguments) :
    reader argument (.named (callee.fields written)) =
      some ((callee, arguments), .named (callee.fields written)) := by
  rw [reader, field_bind rfl (string?_str callee.plugin),
    field_bind rfl (string?_str callee.extension), field_bind rfl (string?_str callee.function),
    field_bind rfl h]
  rfl

theorem Expression.ofJsonTo?_node {depth : Nat} {name : String} {fields : List (String × Json)}
    {value : Expression} (htag : valuesOf "node" fields = [])
    (h : alternative (ofJsonTo? depth) name (.named fields) = some (value, .named fields)) :
    ofJsonTo? (depth + 1) (node name fields) = some value :=
  tagged?_obj htag h

theorem Expression.depth_pos (value : Expression) : 0 < value.toJson.depth := by
  cases value <;> exact Nat.succ_pos _

theorem itemsDepth_le_of_call {callee : Callee} {arguments : List Expression} {depth : Nat}
    (h : (Expression.call callee arguments).toJson.depth ≤ depth + 1) :
    itemsDepth (argumentsToJson arguments) ≤ depth := by
  simp only [Expression.toJson, node, Callee.fields, Json.depth, fieldsDepth] at h
  omega

mutual

theorem Expression.ofJsonTo?_toJson : ∀ (value : Expression) {depth : Nat},
    value.toJson.depth ≤ depth → value.Fits →
    Expression.ofJsonTo? depth value.toJson = some value
  | value, 0, hdepth, _ => absurd value.depth_pos (Nat.not_lt.mpr hdepth)
  | .query block, _ + 1, _, _ =>
    Expression.ofJsonTo?_node rfl (run_map Expression.query block.reader_fields)
  | .literal literal, _ + 1, _, _ =>
    Expression.ofJsonTo?_node rfl (run_map Expression.literal literal.reader_fields)
  | .reference reference, _ + 1, _, hfits =>
    Expression.ofJsonTo?_node rfl (run_map Expression.reference
      (Reference.reader_fields (hfits reference List.mem_cons_self)))
  | .call callee arguments, _ + 1, hdepth, hfits =>
    Expression.ofJsonTo?_node rfl (run_map _ (callee.reader_fields
      (items?_argumentsToJson arguments (itemsDepth_le_of_call hdepth) hfits)))

theorem items?_argumentsToJson : ∀ (arguments : List Expression) {depth : Nat},
    itemsDepth (argumentsToJson arguments) ≤ depth →
    (∀ reference ∈ argumentReferences arguments, reference.position.Fits) →
    items? (Expression.ofJsonTo? depth) (.arr (argumentsToJson arguments)) = some arguments
  | [], _, _, _ => rfl
  | argument :: arguments, depth, hdepth, hfits => by
    obtain ⟨hfirst, hmore⟩ := Nat.max_le.mp hdepth
    rw [argumentReferences, List.forall_mem_append] at hfits
    have hargument := Expression.ofJsonTo?_toJson argument hfirst hfits.1
    have harguments := items?_argumentsToJson arguments hmore hfits.2
    rw [items?] at harguments
    rw [argumentsToJson, items?, List.mapM_cons, hargument, harguments]
    rfl

end

theorem Expression.restores : Restores toJson ofJson? Fits :=
  fun value hfits => ofJsonTo?_toJson value (Nat.le_refl _) hfits

theorem argumentsToJson_eq_map (arguments : List Expression) :
    argumentsToJson arguments = arguments.map Expression.toJson := by
  induction arguments with
  | nil => rfl
  | cons argument arguments ih => rw [argumentsToJson, ih, List.map_cons]

theorem fits_of_mem {arguments : List Expression}
    (h : ∀ reference ∈ argumentReferences arguments, reference.position.Fits) :
    ∀ argument ∈ arguments, argument.Fits := by
  induction arguments with
  | nil => simp
  | cons argument arguments ih =>
    rw [argumentReferences, List.forall_mem_append] at h
    exact List.forall_mem_cons.mpr ⟨h.1, ih h.2⟩

/-! ## Statements -/

/-- The positions of the references in a statement are numbers of 64 bits. -/
def StatementKind.Fits (kind : StatementKind) : Prop :=
  ∀ reference ∈ kind.references, reference.position.Fits

theorem StatementKind.restores : Restores toJson (tagged? "node" alternative) Fits := by
  intro kind hfits
  cases kind with
  | declaration name value =>
    refine tagged?_obj rfl ?_
    rw [alternative, field_bind rfl (string?_str name),
      field_bind rfl (Expression.restores value hfits)]
    rfl
  | output service field value =>
    refine tagged?_obj rfl ?_
    rw [alternative, field_bind rfl (string?_str service), field_bind rfl (string?_str field),
      field_bind rfl (Expression.restores value hfits)]
    rfl
  | returns value =>
    refine tagged?_obj rfl ?_
    rw [alternative, field_bind rfl (Expression.restores value hfits)]
    rfl
  | call callee arguments =>
    have harguments : items? Expression.ofJson? (.arr (argumentsToJson arguments)) =
        some arguments := by
      rw [argumentsToJson_eq_map]
      exact Expression.restores.list arguments (fits_of_mem hfits)
    refine tagged?_obj rfl ?_
    rw [alternative, field_bind rfl (record?_obj (callee.reader_fields harguments))]
    rfl

/-- The positions of a statement and of the references in it are numbers of 64 bits. -/
def Statement.Fits (statement : Statement) : Prop :=
  statement.position.Fits ∧ statement.kind.Fits

theorem Statement.restores : Restores toJson ofJson? Fits := by
  rintro statement ⟨hposition, hkind⟩
  refine record?_obj ?_
  rw [field_bind rfl (StatementKind.restores statement.kind hkind),
    field_bind rfl (string?_str statement.content),
    field_bind rfl (bool?_bool statement.terminated),
    field_bind rfl (Position.restores statement.position hposition)]
  rfl

/-! ## Scripts -/

/-- The positions in a script are numbers of 64 bits. -/
def Fits (script : Script) : Prop :=
  ∀ statement ∈ script.statements, statement.Fits

theorem restores : Restores toJson ofJson? Fits := by
  intro script hfits
  refine record?_obj ?_
  rw [field_bind rfl (string?_str script.service),
    field_bind rfl (Statement.restores.list script.statements hfits)]
  rfl

end ScriptForge.Script

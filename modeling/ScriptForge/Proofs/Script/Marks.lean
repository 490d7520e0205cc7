import ScriptForge.Proofs.Script.Parses
import ScriptForge.Proofs.Script.Visits

/-!
# What the walk comes to

The grammar leaves a node for each statement, each declared name and each reference of a text. Their
marks in the order of the text, `Node.marks`, are the marks of the stops of the walk.

`Leaves phrase P` says that all nodes which a phrase leaves have a property. It is shown along the
grammar, for phrases that leave no marks and for those from which values and statements are built.
-/

namespace ScriptForge.Script

open Phrase

/-! ## Marks -/

/-- What a statement, a declared name or a reference is known by in a text. -/
inductive Mark
  | statement (position : Position)
  | declaration (name : List Char)
  | usage (position : Position) (text : List Char)
  deriving DecidableEq, Repr

/-- The mark of a rule that matched a text at a position. -/
def Mark.of? (position : Position) (text : List Char) : Rule → Option Mark
  | .statement => some (.statement position)
  | .declaredName => some (.declaration text)
  | .reference => some (.usage position text)
  | _ => none

mutual

/-- The marks of a node and those inside, in the order of the text. -/
def Node.marks : Node → List Mark
  | .mk rule position text children => (Mark.of? position text rule).toList ++ marksOf children

def marksOf : List Node → List Mark
  | [] => []
  | node :: nodes => node.marks ++ marksOf nodes

end

def Reference.mark (reference : Reference) : Mark :=
  .usage reference.position reference.written

def Visit.mark : Visit → Mark
  | statement visited => .statement visited.position
  | declaration name _ => .declaration name.toList
  | usage reference => reference.mark

variable {p : Position} {nodes others : List Node} {text rest : List Char}

theorem marksOf_append : marksOf (nodes ++ others) = marksOf nodes ++ marksOf others := by
  induction nodes with
  | nil => rfl
  | cons node nodes ih => rw [List.cons_append, marksOf, marksOf, ih, List.append_assoc]

theorem marksOf_singleton (node : Node) : marksOf [node] = node.marks :=
  List.append_nil _

/-! ## What phrases leave -/

namespace Phrase

/-- Every node that the phrase leaves has the property. -/
def Leaves (phrase : Phrase) (P : Node → Prop) : Prop :=
  ∀ p nodes text rest, Takes phrase p nodes text rest → ∀ node ∈ nodes, P node

variable {phrase first second : Phrase} {P Q : Node → Prop}

theorem leaves_nothing : Leaves nothing P := by
  intro p nodes text rest h
  obtain ⟨rfl, -⟩ := takes_nothing.mp h
  exact List.forall_mem_nil P

theorem leaves_symbol (symbol : List Char) : Leaves (Phrase.symbol symbol) P := by
  intro p nodes text rest h
  obtain ⟨rfl, -⟩ := takes_symbol.mp h
  exact List.forall_mem_nil P

theorem leaves_gap : Leaves gap P := by
  intro p nodes text rest h
  obtain ⟨rfl, -⟩ := takes_gap.mp h
  exact List.forall_mem_nil P

theorem leaves_token {r : Rule} {scan : Scanner} (h : ∀ p text, P (.mk r p text [])) :
    Leaves (token r scan) P := by
  intro p nodes text rest htakes
  obtain ⟨rfl, -⟩ := takes_token.mp htakes
  exact List.forall_mem_singleton.mpr (h p text)

theorem leaves_rule {r : Rule} (h : Leaves phrase Q)
    (hrule : ∀ p text inner, (∀ node ∈ inner, Q node) → P (.mk r p text inner)) :
    Leaves (rule r phrase) P := by
  intro p nodes text rest htakes
  obtain ⟨inner, rfl, hinner⟩ := takes_rule.mp htakes
  exact List.forall_mem_singleton.mpr (hrule p text inner (h _ _ _ _ hinner))

theorem Leaves.andThen [Lawful first] [Lawful second] (hfirst : Leaves first P)
    (hsecond : Leaves second P) : Leaves (first.andThen second) P := by
  intro p nodes text rest h
  obtain ⟨_, _, _, _, rfl, rfl, hfirst', hsecond'⟩ := takes_andThen.mp h
  exact List.forall_mem_append.mpr ⟨hfirst _ _ _ _ hfirst', hsecond _ _ _ _ hsecond'⟩

theorem Leaves.orElse (hfirst : Leaves first P) (hsecond : Leaves second P) :
    Leaves (first.orElse second) P := by
  intro p nodes text rest h
  rcases takes_orElse.mp h with h | ⟨-, h⟩
  · exact hfirst p nodes text rest h
  · exact hsecond p nodes text rest h

theorem Leaves.optional (h : Leaves phrase P) : Leaves (optional phrase) P :=
  h.orElse leaves_nothing

theorem Leaves.more [Lawful phrase] (h : Leaves phrase P) (limit : Nat) :
    Leaves (more limit phrase) P := by
  induction limit with
  | zero => exact leaves_nothing
  | succ limit ih => exact (leaves_gap.andThen (h.andThen ih)).optional

theorem Leaves.repeated [Lawful phrase] (h : Leaves phrase P) : Leaves (repeated phrase) P :=
  fun p nodes text rest htakes =>
    (h.andThen (h.more (text ++ rest).length)).optional p nodes text rest htakes

end Phrase

/-! ## Phrases without marks -/

/-- There are no marks in a node. -/
def Unmarked (node : Node) : Prop :=
  node.marks = []

theorem marksOf_of_unmarked (h : ∀ node ∈ nodes, Unmarked node) : marksOf nodes = [] := by
  induction nodes with
  | nil => rfl
  | cons node nodes ih =>
    obtain ⟨hnode, hnodes⟩ := List.forall_mem_cons.mp h
    rw [marksOf, hnode, ih hnodes]
    rfl

theorem leaves_unmarked_token {r : Rule} {scan : Scanner} (h : ∀ p text, Mark.of? p text r = none) :
    Leaves (token r scan) Unmarked :=
  leaves_token fun p text => by
    rw [Unmarked, Node.marks, h]
    rfl

theorem leaves_unmarked_rule {r : Rule} {phrase : Phrase} (h : Leaves phrase Unmarked)
    (hrule : ∀ p text, Mark.of? p text r = none) : Leaves (rule r phrase) Unmarked :=
  leaves_rule h fun p text inner hinner => by
    rw [Unmarked, Node.marks, hrule, marksOf_of_unmarked hinner]
    rfl

theorem leaves_callee : Leaves Grammar.callee Unmarked := by
  refine leaves_unmarked_rule ?_ fun _ _ => rfl
  refine (leaves_unmarked_token fun _ _ => rfl).andThen ((leaves_symbol _).andThen ?_)
  refine (leaves_unmarked_token fun _ _ => rfl).andThen ((leaves_symbol _).andThen ?_)
  exact leaves_unmarked_token fun _ _ => rfl

theorem leaves_literal : Leaves Grammar.literal Unmarked := by
  refine leaves_unmarked_rule ?_ fun _ _ => rfl
  refine (leaves_unmarked_token fun _ _ => rfl).orElse ?_
  refine (leaves_unmarked_token fun _ _ => rfl).orElse ?_
  exact leaves_unmarked_token fun _ _ => rfl

theorem leaves_gqlBlock : Leaves Grammar.gqlBlock Unmarked := by
  refine leaves_unmarked_rule ?_ fun _ _ => rfl
  refine (leaves_unmarked_token fun _ _ => rfl).andThen (leaves_gap.andThen ?_)
  refine (leaves_unmarked_token fun _ _ => rfl).andThen (leaves_gap.andThen ?_)
  exact leaves_unmarked_token fun _ _ => rfl

theorem leaves_selections (limit : Nat) : Leaves (Grammar.selections limit) Unmarked := by
  induction limit with
  | zero => exact leaves_nothing
  | succ limit ih =>
    have hfield : Leaves Grammar.selection Unmarked :=
      (leaves_symbol _).andThen (leaves_unmarked_token fun _ _ => rfl)
    exact (hfield.andThen ih).optional

/-! ## Values -/

/-- An operand is built from the node, and the marks of the node are the references in it. -/
def MarksOperand (node : Node) : Prop :=
  ∃ value, operandOf node = .ok value ∧ node.marks = value.references.map Reference.mark

/-- A value is built from the node, and the marks of the node are the references in it. -/
def MarksValue (node : Node) : Prop :=
  ∃ value, valueOf node = .ok value ∧ node.marks = value.references.map Reference.mark

theorem leaves_literal_operand : Leaves Grammar.literal MarksOperand := by
  intro p nodes text rest h
  have hunmarked := leaves_literal p nodes text rest h
  obtain ⟨node, literal, rfl, hbuilt, -⟩ := literal_sound h
  rw [List.forall_mem_singleton] at hunmarked ⊢
  exact ⟨_, hbuilt, hunmarked⟩

theorem leaves_gqlBlock_operand : Leaves Grammar.gqlBlock MarksOperand := by
  intro p nodes text rest h
  have hunmarked := leaves_gqlBlock p nodes text rest h
  obtain ⟨node, block, rfl, hbuilt, -⟩ := gqlBlock_sound h
  rw [List.forall_mem_singleton] at hunmarked ⊢
  exact ⟨_, hbuilt, hunmarked⟩

theorem leaves_reference_operand : Leaves Grammar.reference MarksOperand := by
  intro p nodes text rest h
  obtain ⟨node, reference, rfl, hbuilt, hrenders, -⟩ := reference_sound h
  obtain ⟨inner, hnode, hinner⟩ := takes_rule.mp h
  have hunmarked : ∀ node ∈ inner, Unmarked node := by
    refine Leaves.andThen (leaves_unmarked_token fun _ _ => rfl) ?_ p inner text rest hinner
    exact fun p nodes text rest h => leaves_selections _ p nodes text rest h
  obtain ⟨hposition, hwritten⟩ := hrenders.standsAt
  refine List.forall_mem_singleton.mpr ⟨_, hbuilt, ?_⟩
  rw [List.singleton_inj.mp hnode, Node.marks, marksOf_of_unmarked hunmarked,
    Expression.references, List.map_singleton, Reference.mark, hposition, hwritten]
  rfl

theorem marksValue_of_operand {r : Rule} {operand : Node} (hrule : Mark.of? p text r = none)
    (h : MarksOperand operand) : MarksValue (.mk r p text [operand]) := by
  obtain ⟨value, hbuilt, hmarks⟩ := h
  refine ⟨value, hbuilt, ?_⟩
  rw [Node.marks, hrule, marksOf_singleton]
  exact hmarks

theorem exists_arguments (h : ∀ node ∈ nodes, MarksValue node) :
    ∃ arguments, argumentsOf nodes = .ok arguments ∧
      marksOf nodes = (argumentReferences arguments).map Reference.mark := by
  induction nodes with
  | nil => exact ⟨[], rfl, rfl⟩
  | cons node nodes ih =>
    obtain ⟨⟨value, hvalue, hmarks⟩, hnodes⟩ := List.forall_mem_cons.mp h
    obtain ⟨arguments, hbuilt, hmore⟩ := ih hnodes
    refine ⟨value :: arguments, argumentsOf_cons hvalue hbuilt, ?_⟩
    rw [marksOf, hmarks, hmore, argumentReferences, List.map_append]

section

variable {call : Phrase}

theorem leaves_operand (hcall : Leaves call MarksOperand) : Leaves (operand call) MarksOperand :=
  hcall.orElse (leaves_literal_operand.orElse leaves_reference_operand)

theorem leaves_argument (hsound : CallSound call) (hcall : Leaves call MarksOperand) :
    Leaves (Grammar.argument call) MarksValue := by
  intro p nodes text rest h
  obtain ⟨inner, rfl, hoperand⟩ := takes_rule.mp h
  have hmarks := leaves_operand hcall p inner text rest hoperand
  obtain ⟨node, _, rfl, -⟩ := operand_sound hsound hoperand
  rw [List.forall_mem_singleton] at hmarks ⊢
  exact marksValue_of_operand rfl hmarks

theorem leaves_arguments [Lawful call] (hsound : CallSound call)
    (hcall : Leaves call MarksOperand) : Leaves (Grammar.arguments call) MarksValue := by
  have hargument := leaves_argument hsound hcall
  have hnext : Leaves (nextArgument call) MarksValue :=
    (leaves_symbol _).andThen (leaves_gap.andThen hargument)
  exact Leaves.optional (hargument.andThen (leaves_gap.andThen hnext.repeated))

end

/-- A call is marked as its arguments are, at any depth. -/
theorem leaves_callTo (depth : Nat) : Leaves (Grammar.callTo depth) MarksOperand := by
  induction depth with
  | zero =>
    intro p nodes text rest h
    obtain ⟨_, -, h⟩ := takes_rule.mp h
    cases h
  | succ depth ih =>
    intro p nodes text rest h
    obtain ⟨_, rfl, hbody⟩ := takes_rule.mp h
    obtain ⟨_, name, behind, _, rfl, rfl, hcallee, hbehind⟩ := takes_andThen.mp hbody
    have hvalues : ∀ node ∈ behind, MarksValue node := by
      refine Leaves.andThen leaves_gap ?_ _ _ _ _ hbehind
      refine (leaves_symbol _).andThen (leaves_gap.andThen ?_)
      exact (leaves_arguments (callTo_sound depth) ih).andThen
        (leaves_gap.andThen (leaves_symbol _))
    have hunmarked := leaves_callee _ _ _ _ hcallee
    obtain ⟨node, callee, rfl, hname, -⟩ := callee_sound hcallee
    obtain ⟨arguments, hbuilt, hmarks⟩ := exists_arguments hvalues
    refine List.forall_mem_singleton.mpr
      ⟨_, operandOf_call (callOf_cons hname hbuilt), ?_⟩
    rw [Node.marks, marksOf_append, marksOf_of_unmarked hunmarked, hmarks]
    rfl

theorem leaves_call : Leaves Grammar.call MarksOperand :=
  fun p nodes text rest h => leaves_callTo _ p nodes text rest (takes_call.mp h)

theorem leaves_expression : Leaves Grammar.expression MarksValue := by
  intro p nodes text rest h
  obtain ⟨inner, rfl, hbody⟩ := takes_rule.mp h
  have hmarks : ∀ node ∈ inner, MarksOperand node :=
    leaves_gqlBlock_operand.orElse (leaves_operand leaves_call) p inner text rest hbody
  have hsingle : ∃ node, inner = [node] := by
    rcases takes_orElse.mp hbody with hblock | ⟨-, hoperand⟩
    · obtain ⟨node, _, rfl, -⟩ := gqlBlock_sound hblock
      exact ⟨node, rfl⟩
    · obtain ⟨node, _, rfl, -⟩ := operand_sound call_sound hoperand
      exact ⟨node, rfl⟩
  obtain ⟨node, rfl⟩ := hsingle
  rw [List.forall_mem_singleton] at hmarks ⊢
  exact marksValue_of_operand rfl hmarks

/-! ## Statements -/

/-- The marks of what a statement does: the name that it declares, and the references in it. -/
def StatementKind.marks (kind : StatementKind) : List Mark :=
  (kind.declared?.toList.map fun name => .declaration name.toList) ++
    kind.references.map Reference.mark

/-- What a statement does is built from the node, with the marks of the node. -/
def MarksKind (node : Node) : Prop :=
  ∃ kind, statementKindOf node = .ok kind ∧ node.marks = kind.marks

theorem leaves_declaration : Leaves Grammar.declaration MarksKind := by
  intro p nodes text rest h
  simp only [Grammar.declaration, takes_rule, spaced_cons, spaced_singleton, takes_token_andThen,
    takes_gap_andThen, takes_symbol_andThen] at h
  obtain ⟨_, rfl, _, _, _, rfl, rfl, -, before, _, rfl, -, name, _, _, rfl, rfl, -, behind, _, rfl,
    -, _, rfl, gap, text, rfl, -, hvalue⟩ := h
  have hmarks := leaves_expression _ _ _ _ hvalue
  obtain ⟨inner, rfl, -⟩ := takes_rule.mp hvalue
  obtain ⟨value, hbuilt, hmarks⟩ := List.forall_mem_singleton.mp hmarks
  refine List.forall_mem_singleton.mpr ⟨_, statementKindOf_declaration hbuilt, ?_⟩
  rw [Node.marks, marksOf, marksOf, marksOf_singleton, hmarks]
  simp [Node.marks, marksOf, Mark.of?, StatementKind.marks, StatementKind.declared?,
    StatementKind.references]

theorem leaves_returnStatement : Leaves Grammar.returnStatement MarksKind := by
  intro p nodes text rest h
  simp only [Grammar.returnStatement, takes_rule, spaced_cons, spaced_singleton,
    takes_token_andThen, takes_gap_andThen] at h
  obtain ⟨_, rfl, _, _, _, rfl, rfl, -, gap, text, rfl, -, hvalue⟩ := h
  have hmarks := leaves_expression _ _ _ _ hvalue
  obtain ⟨inner, rfl, -⟩ := takes_rule.mp hvalue
  obtain ⟨value, hbuilt, hmarks⟩ := List.forall_mem_singleton.mp hmarks
  refine List.forall_mem_singleton.mpr ⟨_, statementKindOf_returns hbuilt, ?_⟩
  rw [Node.marks, marksOf, marksOf_singleton, hmarks]
  rfl

theorem leaves_outputStatement : Leaves Grammar.outputStatement MarksKind := by
  intro p nodes text rest h
  obtain ⟨_, rfl, hbody⟩ := takes_rule.mp h
  obtain ⟨words, _, _, _, rfl, rfl, hoptional, hmore⟩ := takes_andThen.mp hbody
  obtain ⟨first, _, rfl, -, hmapping⟩ := takes_gap_andThen.mp hmore
  simp only [spaced_cons, spaced_singleton] at hmapping
  obtain ⟨_, _, _, _, rfl, rfl, htarget, hmore⟩ := takes_andThen.mp hmapping
  obtain ⟨behind, _, rfl, -, hsign⟩ := takes_gap_andThen.mp hmore
  obtain ⟨_, rfl, hlast⟩ := takes_symbol_andThen.mp hsign
  obtain ⟨gap, last, rfl, -, hvalue⟩ := takes_gap_andThen.mp hlast
  obtain ⟨service, field, rfl, -, -, -, rfl⟩ := takes_outputTarget.mp htarget
  have hmarks := leaves_expression _ _ _ _ hvalue
  obtain ⟨inner, rfl, -⟩ := takes_rule.mp hvalue
  obtain ⟨value, hbuilt, hmarks⟩ := List.forall_mem_singleton.mp hmarks
  have hwords : AreWords words := by
    rcases takes_optional.mp hoptional with h | ⟨rfl, -⟩
    · exact .inr ⟨_, _, (takes_token.mp h).1⟩
    · exact .inl rfl
  have hunmarked : marksOf words = [] := by
    rcases hwords with rfl | ⟨_, _, rfl⟩ <;> rfl
  refine List.forall_mem_singleton.mpr ⟨_, statementKindOf_output hwords hbuilt, ?_⟩
  rw [Node.marks, marksOf_append, marksOf_append, hunmarked, marksOf_singleton, marksOf_singleton,
    hmarks]
  rfl

theorem leaves_callStatement : Leaves Grammar.callStatement MarksKind := by
  intro p nodes text rest h
  obtain ⟨_, rfl, hcall⟩ := takes_rule.mp h
  have hmarks := leaves_call _ _ _ _ hcall
  obtain ⟨inner, callee, arguments, rfl, hbuilt, -⟩ := call_sound _ _ _ _ hcall
  obtain ⟨value, hvalue, hmarks⟩ := List.forall_mem_singleton.mp hmarks
  cases hvalue.symm.trans (operandOf_call hbuilt)
  refine List.forall_mem_singleton.mpr ⟨.call callee arguments, ?_, ?_⟩
  · change (callOf inner >>= fun call => _) = _
    rw [hbuilt]
    rfl
  · rw [Node.marks, marksOf_singleton, hmarks]
    rfl

theorem leaves_body : Leaves body MarksKind :=
  leaves_declaration.orElse (leaves_returnStatement.orElse
    (leaves_outputStatement.orElse leaves_callStatement))

theorem exists_of_takes_body (h : Takes body p nodes text rest) :
    ∃ r inner, nodes = [.mk r p text inner] := by
  rcases takes_orElse.mp h with h | ⟨-, h⟩
  · exact ⟨_, (takes_rule.mp h).imp fun _ h => h.1⟩
  rcases takes_orElse.mp h with h | ⟨-, h⟩
  · exact ⟨_, (takes_rule.mp h).imp fun _ h => h.1⟩
  rcases takes_orElse.mp h with h | ⟨-, h⟩
  · exact ⟨_, (takes_rule.mp h).imp fun _ h => h.1⟩
  · exact ⟨_, (takes_rule.mp h).imp fun _ h => h.1⟩

theorem Statement.marks_visits (statement : Statement) :
    statement.visits.map Visit.mark = .statement statement.position :: statement.kind.marks := by
  simp [visits, StatementKind.marks, Visit.mark, Function.comp_def]

/-- A statement is built from the node, which is one of a statement, and the marks of the node are
those of the walk through it. -/
def MarksStatement (node : Node) : Prop :=
  node.rule = .statement ∧ ∃ statement, statementOf node = .ok statement ∧
    node.marks = statement.visits.map Visit.mark

theorem leaves_statement : Leaves Grammar.statement MarksStatement := by
  intro p nodes text rest h
  obtain ⟨_, rfl, nodes₁, taken, gap, nodes₂, last, rfl, rfl, hbody, -, hend⟩ :=
    takes_statement.mp h
  have hmarks := leaves_body _ _ _ _ hbody
  obtain ⟨r, inner, rfl⟩ := exists_of_takes_body hbody
  obtain ⟨kind, hbuilt, hmarks⟩ := List.forall_mem_singleton.mp hmarks
  have hunmarked : ∀ node ∈ nodes₂, Unmarked node :=
    (leaves_unmarked_token fun _ _ => rfl).optional _ _ _ _ hend
  refine List.forall_mem_singleton.mpr ⟨rfl, _, statementOf_mk hbuilt, ?_⟩
  rw [Node.marks, List.singleton_append, marksOf, hmarks, marksOf_of_unmarked hunmarked,
    List.append_nil, Statement.marks_visits]
  rfl

theorem exists_statements (h : ∀ node ∈ nodes, MarksStatement node) :
    ∃ statements, BuildsStatements nodes statements ∧
      marksOf nodes = (statements.flatMap Statement.visits).map Visit.mark := by
  induction nodes with
  | nil => exact ⟨[], ⟨rfl, List.forall_mem_nil _⟩, rfl⟩
  | cons node nodes ih =>
    obtain ⟨⟨hrule, statement, hbuilt, hmarks⟩, hnodes⟩ := List.forall_mem_cons.mp h
    obtain ⟨statements, hmore, hothers⟩ := ih hnodes
    refine ⟨statement :: statements, hmore.cons hrule hbuilt, ?_⟩
    rw [marksOf, hmarks, hothers, List.flatMap_cons, List.map_append]

/-! ## Scripts -/

/-- A script is built from the node of a whole text, and the marks of the node are those of the walk
through it. -/
theorem leaves_script : Leaves Grammar.script fun node => ∃ script,
    scriptOf node = .ok script ∧ node.marks = script.visits.map Visit.mark := by
  intro p nodes text rest h
  obtain ⟨_, rfl, hbody⟩ := takes_rule.mp h
  obtain ⟨_, _, rfl, -, hspaced⟩ := takes_gap_andThen.mp hbody
  obtain ⟨_, _, closing, _, rfl, rfl, hservice, hend⟩ := takes_andThen.mp hspaced
  have hend' : Leaves Grammar.endOfScript Unmarked := leaves_unmarked_token fun _ _ => rfl
  have hunmarked : ∀ node ∈ closing, Unmarked node := leaves_gap.andThen hend' _ _ _ _ hend
  obtain ⟨_, rfl, hparts⟩ := takes_rule.mp hservice
  obtain ⟨_, _, _, rfl, rfl, -, hmore⟩ := takes_token_andThen.mp hparts
  obtain ⟨_, _, rfl, -, hnamed⟩ := takes_gap_andThen.mp hmore
  obtain ⟨name, _, nodes, rfl, rfl, -, hopen⟩ := takes_token_andThen.mp hnamed
  have hstatements : ∀ node ∈ nodes, MarksStatement node := by
    refine Leaves.andThen leaves_gap ?_ _ _ _ _ hopen
    refine (leaves_symbol _).andThen (leaves_gap.andThen ?_)
    exact leaves_statement.repeated.andThen (leaves_gap.andThen (leaves_symbol _))
  obtain ⟨statements, hbuilt, hmarks⟩ := exists_statements hstatements
  refine List.forall_mem_singleton.mpr ⟨_, scriptOf_mk hbuilt, ?_⟩
  rw [Node.marks, List.singleton_append, marksOf, marksOf_of_unmarked hunmarked, Node.marks,
    marksOf, marksOf, hmarks, List.append_nil]
  rfl

/-- What the walk through a parsed script comes to are the statements, the declared names and the
references for which the grammar has left a node, each once and in the order of the text. -/
theorem marks_of_parse {source : String} {script : Script} (h : parse source = .ok script) :
    ∃ node, (Grammar.script ⟨.start, source.toList⟩).found.map Match.nodes = some [node] ∧
      node.marks = script.visits.map Visit.mark := by
  rw [parse] at h
  split at h
  · cases h
  dsimp only at h
  rcases takes_or_refuses Grammar.script .start source.toList with
    ⟨nodes, taken, rest, heq, htakes⟩ | hrefuses
  · have hmarks := leaves_script _ _ _ _ htakes
    obtain ⟨node, -, rfl, -⟩ := script_sound htakes
    rw [heq, htakes] at h ⊢
    obtain ⟨script', hbuilt, hmarks⟩ := List.forall_mem_singleton.mp hmarks
    cases hbuilt.symm.trans h
    exact ⟨node, rfl, hmarks⟩
  · rw [hrefuses] at h
    cases h

/-! ## The walk -/

/-- **The walk goes through the source.** The walk through a parsed script comes to each statement,
each declared name and each reference of the text once. The statements and the references that it
comes to stand one behind the other. A reference stands within the text of the statement that the
walk was at last, with its name and its path at its position. -/
theorem visits_of_parse {source : String} {script : Script} (h : parse source = .ok script) :
    (∃ node, (Grammar.script ⟨.start, source.toList⟩).found.map Match.nodes = some [node] ∧
      node.marks = script.visits.map Visit.mark) ∧
    (script.visits.filterMap Visit.place?).Pairwise (fun p q => p.before q = true) ∧
    ∀ before reference after, script.visits = before ++ .usage reference :: after →
      ∃ statement span offset, (before.filterMap Visit.statement?).getLast? = some statement ∧
        Stands source.toList statement span ∧
        span.start ≤ offset ∧ offset + reference.written.length ≤ span.stop ∧
        reference.position = placeAt source.toList offset ∧
        reference.written <+: source.toList.drop offset := by
  obtain ⟨front, gap, pieces, final, hwritten, htext⟩ := (renders_of_parse h).exists_pieces
  refine ⟨marks_of_parse h, ?_, fun before reference after hsplit => ?_⟩
  · rw [visits, hwritten.statements_eq]
    exact hwritten.proper.along.pairwise
  · obtain ⟨statement, hstatement, hreference, hlast⟩ := exists_statement_of_split hsplit
    rw [hwritten.statements_eq] at hstatement
    obtain ⟨span, hstands, huses⟩ := hwritten.proper.uses rfl final statement hstatement
    obtain ⟨offset, hstart, hstop, hposition, hprefix⟩ := huses reference hreference
    rw [List.append_assoc, ← htext] at hstands hposition hprefix
    exact ⟨statement, span, offset, hlast, hstands, hstart, hstop, hposition, hprefix⟩

theorem visits_of_nested_calls :
    let source := "service s \x7b\n  new a = p.exe/f(b.c, q.exe/g(d), 1);\n  return a.e; \x7d"
    ∃ script, parse source = .ok script ∧
      ((∃ node, (Grammar.script ⟨.start, source.toList⟩).found.map Match.nodes = some [node] ∧
        node.marks = script.visits.map Visit.mark) ∧
      (script.visits.filterMap Visit.place?).Pairwise (fun p q => p.before q = true) ∧
      ∀ before reference after, script.visits = before ++ .usage reference :: after →
        ∃ statement span offset, (before.filterMap Visit.statement?).getLast? = some statement ∧
          Stands source.toList statement span ∧
          span.start ≤ offset ∧ offset + reference.written.length ≤ span.stop ∧
          reference.position = placeAt source.toList offset ∧
          reference.written <+: source.toList.drop offset) := by
  intro source
  have hparses : (parse source).toBool = true := by decide +kernel
  cases hparse : parse source with
  | ok script => exact ⟨script, rfl, visits_of_parse hparse⟩
  | error error =>
    rw [hparse] at hparses
    cases hparses

end ScriptForge.Script

import Mathlib.Computability.Language
import ScriptForge.Proofs.Script.Parses

/-!
# What the grammar leaves for the builder

`Rule.parts` lists, for each rule, the rules of the nodes that a match of it has inside, as a
language over the rules: it is the grammar without its tokens and symbols. A node is `Shaped` if it
and all nodes inside it, however deep, are as this list has them.

The development has two halves that meet in `Shaped`. `Yields phrase language` follows the grammar
phrase by phrase: all that the grammar leaves is shaped (`yields_script`). `Builds` follows the
builder: whatever it looks up in a shaped node is there, and of a rule that it handles
(`Shaped.builds`). So a text is a script, is blank, or is refused at a place, and the error of a
missing part never comes up (`parse_handles_grammar`).
-/

namespace ScriptForge.Script

open Phrase
open scoped Computability

/-! ## Shapes -/

/-- The rule once. -/
def Rule.once (rule : Rule) : Language Rule :=
  {[rule]}

/-- The rules of the nodes inside a node, by the rule of the node. -/
def Rule.parts : Rule → Language Rule
  | script => service.once * endOfScript.once
  | service => serviceWord.once * (serviceName.once * statement.once∗)
  | statement =>
    (declaration.once + (returnStatement.once + (outputStatement.once + callStatement.once))) *
      (terminator.once + 1)
  | declaration => newWord.once * (declaredName.once * expression.once)
  | returnStatement => returnWord.once * expression.once
  | outputStatement => (outputWord.once + 1) * (outputTarget.once * expression.once)
  | callStatement => call.once
  | outputTarget => serviceName.once * field.once
  | expression => gqlBlock.once + (call.once + (literal.once + reference.once))
  | gqlBlock => gqlWord.once * (gqlOperation.once * gqlBody.once)
  | call => callee.once * argument.once∗
  | callee => pluginName.once * (extension.once * functionName.once)
  | argument => call.once + (literal.once + reference.once)
  | reference => identifier.once * field.once∗
  | literal => string.once + (number.once + boolean.once)
  | endOfScript | serviceName | terminator | gqlOperation | gqlBody | pluginName | extension
  | functionName | field | string | number | boolean | identifier | declaredName | serviceWord
  | newWord | returnWord | outputWord | gqlWord => 1

namespace Node

/-- The property holds of the node and of all nodes inside it. -/
inductive Throughout (P : Node → Prop) : Node → Prop
  | mk {rule : Rule} {position : Position} {text : List Char} {children : List Node} :
      P (.mk rule position text children) → (∀ child ∈ children, Throughout P child) →
      Throughout P (.mk rule position text children)

/-- The nodes inside have the rules that the rule of the node asks for. -/
def HasParts (node : Node) : Prop :=
  node.children.map Node.rule ∈ node.rule.parts

/-- The node and all nodes inside it have the parts that their rules ask for. -/
abbrev Shaped : Node → Prop :=
  Throughout HasParts

theorem Throughout.and {P Q : Node → Prop} {node : Node} (h : Throughout P node)
    (hstep : ∀ node, P node → (∀ child ∈ node.children, Q child) → Q node) :
    Throughout (fun inner => P inner ∧ Q inner) node := by
  induction h with
  | mk hnode _ ih =>
    refine .mk ⟨hnode, hstep _ hnode fun child hchild => ?_⟩ ih
    cases ih child hchild with
    | mk hboth _ => exact hboth.2

end Node

/-! ## What phrases leave -/

variable {p : Position} {nodes : List Node} {text rest : List Char}

namespace Phrase

/-- The nodes that the phrase leaves are shaped, and their rules make up a word of the language. -/
def Yields (phrase : Phrase) (language : Language Rule) : Prop :=
  ∀ p nodes text rest, Takes phrase p nodes text rest →
    (∀ node ∈ nodes, node.Shaped) ∧ nodes.map Node.rule ∈ language

variable {phrase first second : Phrase} {L M : Language Rule}

theorem yields_nothing (hnil : [] ∈ L) : Yields nothing L := by
  intro p nodes text rest h
  obtain ⟨rfl, -⟩ := takes_nothing.mp h
  exact ⟨List.forall_mem_nil _, hnil⟩

theorem yields_symbol (symbol : List Char) : Yields (Phrase.symbol symbol) 1 := by
  intro p nodes text rest h
  obtain ⟨rfl, -⟩ := takes_symbol.mp h
  exact ⟨List.forall_mem_nil _, Language.nil_mem_one⟩

theorem yields_gap : Yields gap 1 := by
  intro p nodes text rest h
  obtain ⟨rfl, -⟩ := takes_gap.mp h
  exact ⟨List.forall_mem_nil _, Language.nil_mem_one⟩

theorem yields_rule {r : Rule} (h : Yields phrase r.parts) : Yields (rule r phrase) r.once := by
  intro p nodes text rest htakes
  obtain ⟨inner, rfl, hinner⟩ := takes_rule.mp htakes
  obtain ⟨hshaped, hparts⟩ := h _ _ _ _ hinner
  exact ⟨List.forall_mem_singleton.mpr (.mk hparts hshaped), rfl⟩

theorem yields_token {r : Rule} {scan : Scanner} (hparts : r.parts = 1) :
    Yields (token r scan) r.once := by
  intro p nodes text rest htakes
  obtain ⟨rfl, -⟩ := takes_token.mp htakes
  refine ⟨List.forall_mem_singleton.mpr (.mk ?_ (List.forall_mem_nil _)), rfl⟩
  rw [Node.HasParts, Node.rule, hparts]
  exact Language.nil_mem_one

theorem Yields.andThen [Lawful first] [Lawful second] (hfirst : Yields first L)
    (hsecond : Yields second M) : Yields (first.andThen second) (L * M) := by
  intro p nodes text rest h
  obtain ⟨_, _, _, _, rfl, rfl, hfirst', hsecond'⟩ := takes_andThen.mp h
  obtain ⟨hshaped, hwordL⟩ := hfirst _ _ _ _ hfirst'
  obtain ⟨hmore, hwordM⟩ := hsecond _ _ _ _ hsecond'
  rw [List.map_append]
  exact ⟨List.forall_mem_append.mpr ⟨hshaped, hmore⟩, Language.append_mem_mul hwordL hwordM⟩

/-- Gaps leave no nodes. -/
theorem Yields.behindGap [Lawful second] (h : Yields second L) : Yields (gap.andThen second) L :=
  one_mul L ▸ yields_gap.andThen h

theorem Yields.behindSymbol [Lawful second] (symbol : List Char) (h : Yields second L) :
    Yields ((Phrase.symbol symbol).andThen second) L :=
  one_mul L ▸ (yields_symbol symbol).andThen h

theorem Yields.orElse (hfirst : Yields first L) (hsecond : Yields second M) :
    Yields (first.orElse second) (L + M) := by
  intro p nodes text rest h
  rcases takes_orElse.mp h with h | ⟨-, h⟩
  · exact (hfirst p nodes text rest h).imp_right .inl
  · exact (hsecond p nodes text rest h).imp_right .inr

theorem Yields.optional (h : Yields phrase L) : Yields (optional phrase) (L + 1) :=
  h.orElse (yields_nothing Language.nil_mem_one)

theorem mul_kstar_add_one (L : Language Rule) : L * L∗ + 1 = L∗ := by
  rw [add_comm, Language.one_add_self_mul_kstar_eq_kstar]

theorem Yields.more [Lawful phrase] (h : Yields phrase L) (limit : Nat) :
    Yields (more limit phrase) L∗ := by
  induction limit with
  | zero => exact yields_nothing (Language.nil_mem_kstar _)
  | succ limit ih => exact mul_kstar_add_one L ▸ (h.andThen ih).behindGap.optional

theorem Yields.repeated [Lawful phrase] (h : Yields phrase L) : Yields (repeated phrase) L∗ := by
  intro p nodes text rest htakes
  have hall := (h.andThen (h.more (text ++ rest).length)).optional
  rw [mul_kstar_add_one] at hall
  exact hall p nodes text rest htakes

end Phrase

/-! ## Values -/

theorem yields_callee : Yields Grammar.callee Rule.callee.once :=
  yields_rule <| (yields_token rfl).andThen <| .behindSymbol _ <| (yields_token rfl).andThen <|
    .behindSymbol _ <| yields_token rfl

theorem yields_literal : Yields Grammar.literal Rule.literal.once :=
  yields_rule <| (yields_token rfl).orElse <| (yields_token rfl).orElse <| yields_token rfl

theorem yields_gqlBlock : Yields Grammar.gqlBlock Rule.gqlBlock.once :=
  yields_rule <| (yields_token rfl).andThen <| .behindGap <| (yields_token rfl).andThen <|
    .behindGap <| yields_token rfl

theorem yields_selections (limit : Nat) : Yields (Grammar.selections limit) Rule.field.once∗ := by
  induction limit with
  | zero => exact yields_nothing (Language.nil_mem_kstar _)
  | succ limit ih =>
    have hfield : Yields Grammar.selection Rule.field.once := .behindSymbol _ (yields_token rfl)
    exact mul_kstar_add_one _ ▸ (hfield.andThen ih).optional

theorem yields_reference : Yields Grammar.reference Rule.reference.once :=
  yields_rule <| (yields_token rfl).andThen fun p nodes text rest h =>
    yields_selections _ p nodes text rest h

section

variable {call : Phrase}

theorem yields_argument (h : Yields call Rule.call.once) :
    Yields (Grammar.argument call) Rule.argument.once :=
  yields_rule <| h.orElse <| yields_literal.orElse yields_reference

theorem yields_arguments [Lawful call] (h : Yields call Rule.call.once) :
    Yields (Grammar.arguments call) Rule.argument.once∗ := by
  have hargument := yields_argument h
  have hnext : Yields (nextArgument call) Rule.argument.once := .behindSymbol _ hargument.behindGap
  have hall := (hargument.andThen hnext.repeated.behindGap).optional
  exact mul_kstar_add_one _ ▸ hall

end

/-- The arguments of a call are shaped at any depth. -/
theorem yields_callTo (depth : Nat) : Yields (Grammar.callTo depth) Rule.call.once := by
  induction depth with
  | zero =>
    -- nothing is read at this depth
    intro p nodes text rest h
    obtain ⟨_, -, h⟩ := takes_rule.mp h
    cases h
  | succ depth ih =>
    have hclosed := (yields_arguments ih).andThen (yields_symbol [')']).behindGap
    rw [mul_one] at hclosed
    exact yields_rule <| yields_callee.andThen <| .behindGap <| .behindSymbol _ <|
      .behindGap hclosed

theorem yields_call : Yields Grammar.call Rule.call.once :=
  fun p nodes text rest h => yields_callTo _ p nodes text rest (takes_call.mp h)

theorem yields_expression : Yields Grammar.expression Rule.expression.once :=
  yields_rule <| yields_gqlBlock.orElse <| yields_call.orElse <|
    yields_literal.orElse yields_reference

/-! ## Statements -/

theorem yields_declaration : Yields Grammar.declaration Rule.declaration.once :=
  yields_rule <| (yields_token rfl).andThen <| .behindGap <| (yields_token rfl).andThen <|
    .behindGap <| .behindSymbol _ yields_expression.behindGap

theorem yields_returnStatement : Yields Grammar.returnStatement Rule.returnStatement.once :=
  yields_rule <| (yields_token rfl).andThen yields_expression.behindGap

theorem yields_outputTarget : Yields Grammar.outputTarget Rule.outputTarget.once :=
  yields_rule <| (yields_token rfl).andThen <| .behindSymbol _ <| yields_token rfl

theorem yields_outputStatement : Yields Grammar.outputStatement Rule.outputStatement.once :=
  yields_rule <| (yields_token rfl).optional.andThen <| .behindGap <|
    yields_outputTarget.andThen <| .behindGap <| .behindSymbol _ yields_expression.behindGap

theorem yields_callStatement : Yields Grammar.callStatement Rule.callStatement.once :=
  yields_rule yields_call

theorem yields_statement : Yields Grammar.statement Rule.statement.once := by
  have hbody := yields_declaration.orElse <| yields_returnStatement.orElse <|
    yields_outputStatement.orElse yields_callStatement
  exact yields_rule <| hbody.andThen <| .behindGap <| (yields_token rfl).optional

theorem yields_service : Yields Grammar.service Rule.service.once := by
  have hclosed := yields_statement.repeated.andThen (yields_symbol ['\x7d']).behindGap
  rw [mul_one] at hclosed
  exact yields_rule <| (yields_token rfl).andThen <| .behindGap <| (yields_token rfl).andThen <|
    .behindGap <| .behindSymbol _ hclosed.behindGap

/-- All that the grammar leaves is shaped. -/
theorem yields_script : Yields Grammar.script Rule.script.once :=
  yields_rule <| .behindGap <| yields_service.andThen <| .behindGap <| yields_token rfl

/-! ## The builder -/

namespace Node

/-- What the builder does with a node of its rule succeeds. -/
def Builds (node : Node) : Prop :=
  match node.rule with
  | .script => ∃ script, scriptOf node = .ok script
  | .service => ∃ name statements, node.requireText .serviceName = .ok name ∧
      (node.childrenOf .statement).mapM statementOf = .ok statements
  | .statement => ∃ statement, statementOf node = .ok statement
  | .declaration | .returnStatement | .outputStatement | .callStatement =>
      ∃ kind, statementKindOf node = .ok kind
  | .outputTarget => ∃ service field, node.requireText .serviceName = .ok service ∧
      node.requireText .field = .ok field
  | .expression | .argument => ∃ value, valueOf node = .ok value
  | .gqlBlock | .literal | .reference => ∃ value, operandOf node = .ok value
  | .call => (∃ value, operandOf node = .ok value) ∧ ∃ call, callOf node.children = .ok call
  | .callee => ∃ callee, calleeOf node = .ok callee
  | _ => True

end Node

/-! ### Children by their rules -/

theorem mem_once_iff {r : Rule} : nodes.map Node.rule ∈ r.once ↔
    ∃ node, nodes = [node] ∧ node.rule = r := by
  change nodes.map Node.rule = [r] ↔ _
  rw [List.map_eq_singleton_iff]

theorem mem_once_mul_iff {r : Rule} {L : Language Rule} : nodes.map Node.rule ∈ r.once * L ↔
    ∃ node others, nodes = node :: others ∧ node.rule = r ∧ others.map Node.rule ∈ L := by
  rw [Language.mem_mul]
  constructor
  · rintro ⟨_, rfl, word, hword, heq⟩
    obtain ⟨node, others, rfl, hrule, rfl⟩ := List.map_eq_cons_iff.mp heq.symm
    exact ⟨node, others, rfl, hrule, hword⟩
  · rintro ⟨node, others, rfl, rfl, hothers⟩
    exact ⟨[node.rule], rfl, _, hothers, rfl⟩

theorem forall_rule_of_mem_kstar {r : Rule} (h : nodes.map Node.rule ∈ r.once∗) :
    ∀ node ∈ nodes, node.rule = r := by
  obtain ⟨words, hwords, hmem⟩ := Language.mem_kstar.mp h
  intro node hnode
  have hrule : node.rule ∈ words.flatten := hwords ▸ List.mem_map_of_mem hnode
  obtain ⟨word, hword, hin⟩ := List.mem_flatten.mp hrule
  rw [show word = [r] from hmem word hword] at hin
  exact List.mem_singleton.mp hin

/-! ### Looking children up -/

section

variable {r rule : Rule} {position : Position} {node : Node}

theorem require_cons {others : List Node} :
    (Node.mk r position text (node :: others)).require rule =
      if node.rule = rule then .ok node
      else (Node.mk r position text others).require rule := by
  by_cases h : node.rule = rule <;> simp [Node.require, Node.child?, Node.children, h]

theorem requireText_cons {others : List Node} :
    (Node.mk r position text (node :: others)).requireText rule =
      if node.rule = rule then .ok node.string
      else (Node.mk r position text others).requireText rule := by
  rw [Node.requireText, require_cons, apply_ite (Node.string <$> ·)]
  rfl

end

/-! ### The builder, rule by rule -/

theorem exists_ok_bind {α β : Type} {step : Except ParseError α} {next : α → Except ParseError β}
    {a : α} (h : step = .ok a) (hnext : ∃ b, next a = .ok b) : ∃ b, step >>= next = .ok b := by
  rw [h]
  exact hnext

theorem exists_ok_map {α β : Type} {step : Except ParseError α} (f : α → β)
    (h : ∃ a, step = .ok a) : ∃ b, f <$> step = .ok b := by
  obtain ⟨a, rfl⟩ := h
  exact ⟨f a, rfl⟩

theorem Node.Builds.exists_value {node : Node} (h : node.Builds)
    (hrule : node.rule = .expression ∨ node.rule = .argument) :
    ∃ value, valueOf node = .ok value := by
  rcases hrule with hrule | hrule <;> rwa [Node.Builds, hrule] at h

section

variable {position : Position}

theorem builds_callee (h : nodes.map Node.rule ∈ Rule.callee.parts) :
    Node.Builds (.mk .callee position text nodes) := by
  obtain ⟨plugin, _, rfl, hplugin, h⟩ := mem_once_mul_iff.mp h
  obtain ⟨extension, _, rfl, hextension, h⟩ := mem_once_mul_iff.mp h
  obtain ⟨function, rfl, hfunction⟩ := mem_once_iff.mp h
  set node := Node.mk .callee position text [plugin, extension, function]
  have hfirst : node.requireText .pluginName = .ok plugin.string := by
    simp only [node, requireText_cons, hplugin, if_true]
  have hsecond : node.requireText .extension = .ok extension.string := by
    simp only [node, requireText_cons, hplugin, hextension, reduceCtorEq, if_true, if_false]
  have hthird : node.requireText .functionName = .ok function.string := by
    simp only [node, requireText_cons, hplugin, hextension, hfunction, reduceCtorEq, if_true,
      if_false]
  exact exists_ok_bind hfirst (exists_ok_bind hsecond (exists_ok_bind hthird ⟨_, rfl⟩))

theorem builds_literal (h : nodes.map Node.rule ∈ Rule.literal.parts) :
    Node.Builds (.mk .literal position text nodes) := by
  have hone : ∃ node, nodes = [node] := by
    rcases h with h | h | h <;> obtain ⟨node, rfl, -⟩ := mem_once_iff.mp h <;> exact ⟨node, rfl⟩
  obtain ⟨node, rfl⟩ := hone
  exact ⟨_, rfl⟩

theorem builds_gqlBlock (h : nodes.map Node.rule ∈ Rule.gqlBlock.parts) :
    Node.Builds (.mk .gqlBlock position text nodes) := by
  obtain ⟨word, _, rfl, hword, h⟩ := mem_once_mul_iff.mp h
  obtain ⟨operation, _, rfl, hoperation, h⟩ := mem_once_mul_iff.mp h
  obtain ⟨body, rfl, hbody⟩ := mem_once_iff.mp h
  set node := Node.mk .gqlBlock position text [word, operation, body]
  have hfirst : node.requireText .gqlOperation = .ok operation.string := by
    simp only [node, requireText_cons, hword, hoperation, reduceCtorEq, if_true, if_false]
  have hsecond : node.require .gqlBody = .ok body := by
    simp only [node, require_cons, hword, hoperation, hbody, reduceCtorEq, if_true, if_false]
  have hblock : ∃ block, gqlBlockOf node = .ok block :=
    exists_ok_bind hfirst (exists_ok_bind hsecond ⟨_, rfl⟩)
  exact exists_ok_map Expression.query hblock

theorem builds_reference (h : nodes.map Node.rule ∈ Rule.reference.parts) :
    Node.Builds (.mk .reference position text nodes) := by
  obtain ⟨name, fields, rfl, hname, -⟩ := mem_once_mul_iff.mp h
  have hfirst : (Node.mk .reference position text (name :: fields)).requireText .identifier =
      .ok name.string := by
    simp only [requireText_cons, hname, if_true]
  exact exists_ok_map Expression.reference (exists_ok_bind hfirst ⟨_, rfl⟩)

/-- A value or an argument wraps one operand. -/
theorem builds_value {rule : Rule} (h : nodes.map Node.rule ∈ Rule.expression.parts)
    (hnodes : ∀ node ∈ nodes, node.Builds) :
    ∃ value, valueOf (.mk rule position text nodes) = .ok value := by
  rcases h with h | h | h | h
  all_goals
    obtain ⟨node, rfl, hrule⟩ := mem_once_iff.mp h
    obtain ⟨r, _, _, _⟩ := node
    obtain rfl : r = _ := hrule
    have hbuilds := hnodes _ (List.mem_singleton_self _)
  · exact hbuilds
  · exact hbuilds.1
  · exact hbuilds
  · exact hbuilds

theorem exists_arguments_of_builds (hrules : ∀ node ∈ nodes, node.rule = .argument)
    (hnodes : ∀ node ∈ nodes, node.Builds) : ∃ values, argumentsOf nodes = .ok values := by
  induction nodes with
  | nil => exact ⟨[], rfl⟩
  | cons node nodes ih =>
    obtain ⟨hrule, hrules⟩ := List.forall_mem_cons.mp hrules
    obtain ⟨hnode, hnodes⟩ := List.forall_mem_cons.mp hnodes
    obtain ⟨value, hvalue⟩ := hnode.exists_value (.inr hrule)
    obtain ⟨values, hvalues⟩ := ih hrules hnodes
    exact ⟨value :: values, argumentsOf_cons hvalue hvalues⟩

theorem builds_call (h : nodes.map Node.rule ∈ Rule.call.parts)
    (hnodes : ∀ node ∈ nodes, node.Builds) : Node.Builds (.mk .call position text nodes) := by
  obtain ⟨name, arguments, rfl, hname, harguments⟩ := mem_once_mul_iff.mp h
  obtain ⟨hcallee, hnodes⟩ := List.forall_mem_cons.mp hnodes
  rw [Node.Builds, hname] at hcallee
  obtain ⟨callee, hcallee⟩ := hcallee
  obtain ⟨values, hvalues⟩ :=
    exists_arguments_of_builds (forall_rule_of_mem_kstar harguments) hnodes
  have hbuilt := callOf_cons hcallee hvalues
  exact ⟨⟨_, operandOf_call hbuilt⟩, _, hbuilt⟩

theorem builds_outputTarget (h : nodes.map Node.rule ∈ Rule.outputTarget.parts) :
    Node.Builds (.mk .outputTarget position text nodes) := by
  obtain ⟨service, _, rfl, hservice, h⟩ := mem_once_mul_iff.mp h
  obtain ⟨field, rfl, hfield⟩ := mem_once_iff.mp h
  refine ⟨service.string, field.string, ?_, ?_⟩ <;>
    simp only [requireText_cons, hservice, hfield, reduceCtorEq, if_true, if_false]

theorem builds_declaration (h : nodes.map Node.rule ∈ Rule.declaration.parts)
    (hnodes : ∀ node ∈ nodes, node.Builds) :
    Node.Builds (.mk .declaration position text nodes) := by
  obtain ⟨word, _, rfl, hword, h⟩ := mem_once_mul_iff.mp h
  obtain ⟨name, _, rfl, hname, h⟩ := mem_once_mul_iff.mp h
  obtain ⟨wrapped, rfl, hwrapped⟩ := mem_once_iff.mp h
  obtain ⟨value, hvalue⟩ := (hnodes wrapped (by simp)).exists_value (.inl hwrapped)
  set node := Node.mk .declaration position text [word, name, wrapped]
  have hfirst : node.requireText .declaredName = .ok name.string := by
    simp only [node, requireText_cons, hword, hname, reduceCtorEq, if_true, if_false]
  have hsecond : node.require .expression = .ok wrapped := by
    simp only [node, require_cons, hword, hname, hwrapped, reduceCtorEq, if_true, if_false]
  exact exists_ok_bind hfirst (exists_ok_bind hsecond (exists_ok_bind hvalue ⟨_, rfl⟩))

theorem builds_returnStatement (h : nodes.map Node.rule ∈ Rule.returnStatement.parts)
    (hnodes : ∀ node ∈ nodes, node.Builds) :
    Node.Builds (.mk .returnStatement position text nodes) := by
  obtain ⟨word, _, rfl, hword, h⟩ := mem_once_mul_iff.mp h
  obtain ⟨wrapped, rfl, hwrapped⟩ := mem_once_iff.mp h
  obtain ⟨value, hvalue⟩ := (hnodes wrapped (by simp)).exists_value (.inl hwrapped)
  have hfirst : (Node.mk .returnStatement position text [word, wrapped]).require .expression =
      .ok wrapped := by
    simp only [require_cons, hword, hwrapped, reduceCtorEq, if_true, if_false]
  exact exists_ok_bind hfirst (exists_ok_bind hvalue ⟨_, rfl⟩)

/-- The word in front of a mapping may be missing. -/
theorem require_of_optional {r rule : Rule} {words : List Node}
    (hwords : words.map Node.rule ∈ r.once + 1) (hne : r ≠ rule) :
    (Node.mk .outputStatement position text (words ++ nodes)).require rule =
      (Node.mk .outputStatement position text nodes).require rule := by
  rcases hwords with hword | hnil
  · obtain ⟨word, rfl, rfl⟩ := mem_once_iff.mp hword
    rw [List.singleton_append, require_cons, if_neg hne]
  · rw [List.map_eq_nil_iff.mp hnil, List.nil_append]

theorem builds_outputStatement (h : nodes.map Node.rule ∈ Rule.outputStatement.parts)
    (hnodes : ∀ node ∈ nodes, node.Builds) :
    Node.Builds (.mk .outputStatement position text nodes) := by
  obtain ⟨_, hwords, _, hparts, heq⟩ := Language.mem_mul.mp h
  obtain ⟨words, parts, rfl, rfl, rfl⟩ := List.map_eq_append_iff.mp heq.symm
  obtain ⟨target, _, rfl, htarget, hparts⟩ := mem_once_mul_iff.mp hparts
  obtain ⟨wrapped, rfl, hwrapped⟩ := mem_once_iff.mp hparts
  have hfields := hnodes target (by simp)
  rw [Node.Builds, htarget] at hfields
  obtain ⟨service, field, hservice, hfield⟩ := hfields
  obtain ⟨value, hvalue⟩ := (hnodes wrapped (by simp)).exists_value (.inl hwrapped)
  set node := Node.mk .outputStatement position text (words ++ [target, wrapped])
  have hfirst : node.require .outputTarget = .ok target := by
    rw [require_of_optional hwords (by decide), require_cons, if_pos htarget]
  have hsecond : node.require .expression = .ok wrapped := by
    rw [require_of_optional hwords (by decide)]
    simp only [require_cons, htarget, hwrapped, reduceCtorEq, if_true, if_false]
  exact exists_ok_bind hfirst (exists_ok_bind hservice (exists_ok_bind hfield
    (exists_ok_bind hsecond (exists_ok_bind hvalue ⟨_, rfl⟩))))

theorem builds_callStatement (h : nodes.map Node.rule ∈ Rule.callStatement.parts)
    (hnodes : ∀ node ∈ nodes, node.Builds) :
    Node.Builds (.mk .callStatement position text nodes) := by
  obtain ⟨call, rfl, hcall⟩ := mem_once_iff.mp h
  have hbuilds := hnodes call (List.mem_singleton_self call)
  rw [Node.Builds, hcall] at hbuilds
  obtain ⟨-, ⟨callee, arguments⟩, hbuilt⟩ := hbuilds
  have hfirst : (Node.mk .callStatement position text [call]).require .call = .ok call := by
    rw [require_cons, if_pos hcall]
  exact exists_ok_bind hfirst (exists_ok_bind hbuilt ⟨_, rfl⟩)

theorem builds_statement (h : nodes.map Node.rule ∈ Rule.statement.parts)
    (hnodes : ∀ node ∈ nodes, node.Builds) :
    Node.Builds (.mk .statement position text nodes) := by
  obtain ⟨_, hbody, _, -, heq⟩ := Language.mem_mul.mp h
  obtain ⟨bodies, closing, rfl, rfl, -⟩ := List.map_eq_append_iff.mp heq.symm
  simp only [Language.mem_add, mem_once_iff] at hbody
  have hkind : ∃ body kind, bodies = [body] ∧ statementKindOf body = .ok kind := by
    rcases hbody with ⟨body, rfl, hrule⟩ | ⟨body, rfl, hrule⟩ | ⟨body, rfl, hrule⟩ |
      ⟨body, rfl, hrule⟩
    all_goals
      have hbuilds := hnodes body (by simp)
      rw [Node.Builds, hrule] at hbuilds
      obtain ⟨kind, hkind⟩ := hbuilds
      exact ⟨body, kind, rfl, hkind⟩
  obtain ⟨body, kind, rfl, hkind⟩ := hkind
  exact exists_ok_bind hkind ⟨_, rfl⟩

theorem exists_statements_of_builds (hrules : ∀ node ∈ nodes, node.rule = .statement)
    (hnodes : ∀ node ∈ nodes, node.Builds) :
    ∃ statements, nodes.mapM statementOf = .ok statements := by
  induction nodes with
  | nil => exact ⟨[], rfl⟩
  | cons node nodes ih =>
    obtain ⟨hrule, hrules⟩ := List.forall_mem_cons.mp hrules
    obtain ⟨hnode, hnodes⟩ := List.forall_mem_cons.mp hnodes
    rw [Node.Builds, hrule] at hnode
    obtain ⟨statement, hstatement⟩ := hnode
    obtain ⟨statements, hstatements⟩ := ih hrules hnodes
    refine ⟨statement :: statements, ?_⟩
    rw [List.mapM_cons, hstatement, hstatements]
    rfl

theorem builds_service (h : nodes.map Node.rule ∈ Rule.service.parts)
    (hnodes : ∀ node ∈ nodes, node.Builds) : Node.Builds (.mk .service position text nodes) := by
  obtain ⟨word, _, rfl, hword, h⟩ := mem_once_mul_iff.mp h
  obtain ⟨name, statements, rfl, hname, hstatements⟩ := mem_once_mul_iff.mp h
  have hrules := forall_rule_of_mem_kstar hstatements
  obtain ⟨built, hbuilt⟩ := exists_statements_of_builds hrules fun node hnode =>
    hnodes node (by simp [hnode])
  refine ⟨name.string, built, ?_, ?_⟩
  · simp only [requireText_cons, hword, hname, reduceCtorEq, if_true, if_false]
  · have hall : (statements.filter fun child => child.rule == .statement) = statements :=
      List.filter_eq_self.mpr fun node hnode => beq_iff_eq.mpr (hrules node hnode)
    simpa [Node.childrenOf, Node.children, List.filter_cons, hword, hname, hall] using hbuilt

theorem builds_script (h : nodes.map Node.rule ∈ Rule.script.parts)
    (hnodes : ∀ node ∈ nodes, node.Builds) : Node.Builds (.mk .script position text nodes) := by
  obtain ⟨service, closing, rfl, hservice, -⟩ := mem_once_mul_iff.mp h
  have hparts := hnodes service (by simp)
  rw [Node.Builds, hservice] at hparts
  obtain ⟨name, statements, hname, hstatements⟩ := hparts
  have hfirst : (Node.mk .script position text (service :: closing)).require .service =
      .ok service := by
    rw [require_cons, if_pos hservice]
  exact exists_ok_bind hfirst (exists_ok_bind hname (exists_ok_bind hstatements ⟨_, rfl⟩))

end

/-- The builder succeeds on a node with the parts that its rule asks for, if it does on the nodes
inside. -/
theorem Node.HasParts.builds {node : Node} (h : node.HasParts)
    (hchildren : ∀ child ∈ node.children, child.Builds) : node.Builds := by
  obtain ⟨rule, position, text, nodes⟩ := node
  cases rule
  case script => exact builds_script h hchildren
  case service => exact builds_service h hchildren
  case statement => exact builds_statement h hchildren
  case declaration => exact builds_declaration h hchildren
  case returnStatement => exact builds_returnStatement h hchildren
  case outputStatement => exact builds_outputStatement h hchildren
  case callStatement => exact builds_callStatement h hchildren
  case outputTarget => exact builds_outputTarget h
  case expression => exact builds_value h hchildren
  case argument => exact builds_value (.inr h) hchildren
  case gqlBlock => exact builds_gqlBlock h
  case call => exact builds_call h hchildren
  case callee => exact builds_callee h
  case reference => exact builds_reference h
  case literal => exact builds_literal h
  -- nothing is built from a token
  all_goals trivial

/-- Nothing that the builder looks up is missing from a shaped node, at any depth. -/
theorem Node.Shaped.builds {node : Node} (h : node.Shaped) :
    node.Throughout fun inner => inner.HasParts ∧ inner.Builds :=
  Throughout.and h fun _ hparts hchildren => hparts.builds hchildren

/-- A script is built from whatever the grammar leaves for a text. -/
theorem exists_script_of_takes (h : Takes Grammar.script p nodes text rest) :
    ∃ node script, nodes = [node] ∧ node.rule = .script ∧
      (node.Throughout fun inner => inner.HasParts ∧ inner.Builds) ∧
      scriptOf node = .ok script := by
  obtain ⟨hshaped, hrules⟩ := yields_script p nodes text rest h
  obtain ⟨node, rfl, hrule⟩ := mem_once_iff.mp hrules
  have hthroughout := Node.Shaped.builds (List.forall_mem_singleton.mp hshaped)
  have hbuilds : node.Builds := by
    cases hthroughout with
    | mk hnode _ => exact hnode.2
  rw [Node.Builds, hrule] at hbuilds
  obtain ⟨script, hscript⟩ := hbuilds
  exact ⟨node, script, rfl, hrule, hthroughout, hscript⟩

/-- A text that is not blank is a script or is refused at a place. -/
theorem parse_of_not_blank {source : String} (h : Text.allBlank source = false) :
    (∃ script, parse source = .ok script) ∨
      ∃ place expected, parse source = .error (.unexpected place expected) := by
  rw [parse, h]
  rcases takes_or_refuses Grammar.script .start source.toList with
    ⟨nodes, taken, rest, heq, htakes⟩ | hrefuses
  · obtain ⟨node, script, rfl, -, -, hscript⟩ := exists_script_of_takes htakes
    left
    refine ⟨script, ?_⟩
    dsimp only
    rw [heq, htakes]
    exact hscript
  · right
    refine ⟨(Grammar.script ⟨.start, source.toList⟩).attempts.position,
      (Grammar.script ⟨.start, source.toList⟩).attempts.expected, ?_⟩
    dsimp only
    rw [hrefuses]
    rfl

/-- **The grammar and the builder agree.** A text is refused as empty exactly if it is blank. Any
other text is a script or is refused at a place, so that a part is never missing: the grammar leaves
one node for a script, and in this node, at any depth of arguments, the builder finds what it looks
up, and of a rule that it handles. -/
theorem parse_handles_grammar (source : String) :
    (parse source = .error .empty ↔ Text.allBlank source = true) ∧
    (Text.allBlank source = false → (∃ script, parse source = .ok script) ∨
      ∃ place expected, parse source = .error (.unexpected place expected)) ∧
    (∀ part, parse source ≠ .error (.missing part)) ∧
    ∀ cursor found, (Grammar.script cursor).found = some found →
      ∃ node script, found.nodes = [node] ∧ node.rule = .script ∧
        (node.Throughout fun inner => inner.HasParts ∧ inner.Builds) ∧
        scriptOf node = .ok script := by
  have hblank : Text.allBlank source = true → parse source = .error .empty := fun h => if_pos h
  refine ⟨⟨fun hempty => ?_, hblank⟩, parse_of_not_blank, fun part hmissing => ?_,
    fun cursor found hfound => ?_⟩
  · cases h : Text.allBlank source with
    | true => rfl
    | false =>
      rcases parse_of_not_blank h with ⟨_, hparse⟩ | ⟨_, _, hparse⟩ <;>
        cases hempty.symm.trans hparse
  · cases h : Text.allBlank source with
    | true => cases hmissing.symm.trans (hblank h)
    | false =>
      rcases parse_of_not_blank h with ⟨_, hparse⟩ | ⟨_, _, hparse⟩ <;>
        cases hmissing.symm.trans hparse
  · obtain ⟨nodes, text, rest, heq, rfl⟩ := Lawful.takes_of_found _ _ found hfound
    have htakes : Takes Grammar.script cursor.position nodes text rest := by
      rw [Takes, ← heq]
      exact hfound
    exact exists_script_of_takes htakes

end ScriptForge.Script

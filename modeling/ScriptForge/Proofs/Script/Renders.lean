import ScriptForge.Proofs.Script.Gaps
import ScriptForge.Script.Phrase
import ScriptForge.Text.Blank

/-!
# How scripts are written

`Renders script text`: the script may be written as the text. The rules speak of the texts of the
tokens and of the gaps between them, one rule for each form of a value or statement. They say
nothing of how a text is read: no order in which forms are tried, no look at what comes next.

A gap may stand wherever two tokens meet, except inside a callee, the target of a mapping and a
reference. Where two words would run together it must not be empty.
-/

namespace ScriptForge.Script

open Token

/-! ## Values -/

/-- A literal and its text. -/
inductive RendersLiteral : Literal → List Char → Prop
  | string {text : List Char} : IsString text → RendersLiteral ⟨.string, String.ofList text⟩ text
  | number {text : List Char} : IsNumber text → RendersLiteral ⟨.number, String.ofList text⟩ text
  | boolean {text : List Char} : text = "true".toList ∨ text = "false".toList →
      RendersLiteral ⟨.boolean, String.ofList text⟩ text

/-- A callee and its text. -/
inductive RendersCallee : Callee → List Char → Prop
  | mk {plugin extension function : List Char} : IsDashedName plugin → IsPlainName extension →
      IsPlainName function →
      RendersCallee ⟨String.ofList plugin, String.ofList extension, String.ofList function⟩
        (plugin ++ '.' :: (extension ++ '/' :: function))

/-- A reference at a position and its text. -/
inductive RendersReference (p : Position) : Reference → List Char → Prop
  | mk {name : List Char} {path : List (List Char)} : IsIdentifier name →
      (∀ field ∈ path, IsPlainName field) →
      RendersReference p ⟨String.ofList name, path.map String.ofList, p⟩
        (name ++ path.flatMap ('.' :: ·))

/-- Arguments and what stands between the parentheses around them, given how an operand is
written. -/
inductive RendersArguments (operand : Position → Expression → List Char → Prop) :
    Position → List Expression → List Char → Prop
  | none {p : Position} {gap : List Char} : IsGap gap → RendersArguments operand p [] gap
  | one {p : Position} {before text behind : List Char} {argument : Expression} :
      IsGap before → operand (p.afterText before) argument text → IsGap behind →
      RendersArguments operand p [argument] (before ++ (text ++ behind))
  | more {p : Position} {before text behind others : List Char} {first second : Expression}
      {arguments : List Expression} :
      IsGap before → operand (p.afterText before) first text → IsGap behind →
      RendersArguments operand (p.afterText (before ++ (text ++ (behind ++ [',']))))
        (second :: arguments) others →
      RendersArguments operand p (first :: second :: arguments)
        (before ++ (text ++ (behind ++ ',' :: others)))

/-- An operand at a position and its text: a literal, a reference or a call, whose arguments are
operands again. -/
inductive RendersOperand : Position → Expression → List Char → Prop
  | literal {p : Position} {literal : Literal} {text : List Char} :
      RendersLiteral literal text → RendersOperand p (.literal literal) text
  | reference {p : Position} {reference : Reference} {text : List Char} :
      RendersReference p reference text → RendersOperand p (.reference reference) text
  | call {p : Position} {callee : Callee} {arguments : List Expression}
      {name gap text : List Char} : RendersCallee callee name → IsGap gap →
      RendersArguments RendersOperand (p.afterText (name ++ (gap ++ ['(']))) arguments text →
      RendersOperand p (.call callee arguments) (name ++ (gap ++ '(' :: (text ++ [')'])))

/-- The word of an operation. -/
def Operation.word : Operation → List Char
  | .query => "query".toList
  | .mutation => "mutation".toList

/-- A value at a position and its text: an operand, or an embedded block whose body may have blanks
around it. -/
inductive RendersValue : Position → Expression → List Char → Prop
  | operand {p : Position} {value : Expression} {text : List Char} :
      RendersOperand p value text → RendersValue p value text
  | query {p : Position} {operation : Operation} {before behind left body right : List Char} :
      IsGap before → before ≠ [] → IsGap behind → (∀ c ∈ left, Text.isBlank c = true) →
      Balanced body → Text.trim body = body → (∀ c ∈ right, Text.isBlank c = true) →
      RendersValue p (.query ⟨operation, String.ofList body⟩)
        ("gql".toList ++ (before ++ (operation.word ++ (behind ++
          '\x7b' :: (left ++ (body ++ (right ++ ['\x7d'])))))))

theorem RendersValue.digits {p : Position} {text : List Char} (h : IsDigits text) :
    RendersValue p (.literal ⟨.number, String.ofList text⟩) text :=
  .operand (.literal (.number h.isNumber))

/-! ## Statements -/

/-- What a statement does, at a position, and its text without the semicolon. The word `output` may
be missing before any service but one of that name. -/
inductive RendersKind : Position → StatementKind → List Char → Prop
  | declaration {p : Position} {name before behind gap text : List Char} {value : Expression} :
      IsDeclaredName name → IsGap before → before ≠ [] → IsGap behind → IsGap gap →
      RendersValue (p.afterText ("new".toList ++ before ++ name ++ behind ++ '=' :: gap)) value
        text →
      RendersKind p (.declaration (String.ofList name) value)
        ("new".toList ++ (before ++ (name ++ (behind ++ '=' :: (gap ++ text)))))
  | returns {p : Position} {gap text : List Char} {value : Expression} :
      IsGap gap → Stops Text.isDashedChar (gap ++ text) →
      RendersValue (p.afterText ("return".toList ++ gap)) value text →
      RendersKind p (.returns value) ("return".toList ++ (gap ++ text))
  | output {p : Position} {first service field behind gap text : List Char}
      {value : Expression} : IsGap first → first ≠ [] → IsDashedName service → IsPlainName field →
      IsGap behind → IsGap gap →
      RendersValue
        (p.afterText ("output".toList ++ first ++ service ++ '.' :: field ++ behind ++ '=' :: gap))
        value text →
      RendersKind p (.output (String.ofList service) (String.ofList field) value)
        ("output".toList ++ (first ++ (service ++ '.' :: (field ++ (behind ++ '=' ::
          (gap ++ text))))))
  | mapping {p : Position} {service field behind gap text : List Char} {value : Expression} :
      IsDashedName service → service ≠ "output".toList → IsPlainName field → IsGap behind →
      IsGap gap →
      RendersValue (p.afterText (service ++ '.' :: field ++ behind ++ '=' :: gap)) value text →
      RendersKind p (.output (String.ofList service) (String.ofList field) value)
        (service ++ '.' :: (field ++ (behind ++ '=' :: (gap ++ text))))
  | call {p : Position} {callee : Callee} {arguments : List Expression} {text : List Char} :
      RendersOperand p (.call callee arguments) text → RendersKind p (.call callee arguments) text

/-- The value that a statement ends with. -/
def StatementKind.last : StatementKind → Expression
  | .declaration _ value => value
  | .output _ _ value => value
  | .returns value => value
  | .call callee arguments => .call callee arguments

/-- Whether a value ends with a word, which a letter behind it would go on with. -/
def Expression.endsWithWord : Expression → Bool
  | .reference _ => true
  | .literal ⟨kind, _⟩ => kind == .boolean
  | _ => false

/-- The end of a statement: nothing, or a semicolon behind a gap. -/
inductive RendersEnd : Bool → List Char → Prop
  | missing : RendersEnd false []
  | semicolon {gap : List Char} : IsGap gap → RendersEnd true (gap ++ [';'])

/-- Statements, the first at a position, and their text with the gaps behind them. -/
inductive RendersStatements : Position → List Statement → List Char → Prop
  | nil {p : Position} : RendersStatements p [] []
  | cons {p : Position} {kind : StatementKind} {terminated : Bool} {statements : List Statement}
      {text closing gap more : List Char} :
      RendersKind p kind text → RendersEnd terminated closing → IsGap gap →
      (terminated = false → gap = [] → kind.last.endsWithWord = true → statements = []) →
      RendersStatements (p.afterText (text ++ closing ++ gap)) statements more →
      RendersStatements p
        (⟨kind, String.ofList (Text.collapse text), terminated, p⟩ :: statements)
        (text ++ (closing ++ (gap ++ more)))

/-- A service at a position and its text: its name and its statements between braces. -/
inductive RendersService (p : Position) : Script → List Char → Prop
  | mk {service before behind gap text : List Char} {statements : List Statement} :
      IsGap before → before ≠ [] → IsDashedName service → IsGap behind → IsGap gap →
      RendersStatements
        (p.afterText ("service".toList ++ before ++ service ++ behind ++ '\x7b' :: gap)) statements
        text →
      RendersService p ⟨String.ofList service, statements⟩
        ("service".toList ++ (before ++ (service ++ (behind ++ '\x7b' ::
          (gap ++ (text ++ ['\x7d']))))))

/-- A script and its text: a service with gaps around it. The last one may be an open line. -/
inductive Renders : Script → List Char → Prop
  | mk {script : Script} {gap text final : List Char} :
      IsGap gap → RendersService (Position.start.afterText gap) script text → IsFinalGap final →
      Renders script (gap ++ (text ++ final))

end ScriptForge.Script

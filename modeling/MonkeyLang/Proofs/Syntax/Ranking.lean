import MonkeyLang.Proofs.Syntax.Grammar

namespace MonkeyLang.Grammar

/-! # The grammar with binding powers

`Expression` leaves open how operators group.  Here they group as their powers say: what stands under
a power takes in what binds tighter and ends where nothing does.  The forms inside an expression lie
one level less deep than the expression itself, as far down as the depth allows.
-/

variable {E F : Nat → Tokens → Node → Tokens → Prop} {input rest : Tokens} {node : Node}

/-- What an expression begins with, up to the first operator behind it. -/
inductive Begins (admitted : Token → Prop) (E : Nat → Tokens → Node → Tokens → Prop) :
    Tokens → Node → Tokens → Prop
  | unary {operator : Token} {input rest : Tokens} {operand : Node}
      (isOperator : operator.kind ∈ unaryOperators) (applied : E Parse.unaryPower input operand rest) :
      Begins admitted E (operator :: input) (.unary operator operator.literal operand) rest
  | primary {token : Token} {input rest : Tokens} {node : Node}
      (primary : Primary (E Parse.loosest) (token :: input) node rest) (admits : admitted token)
      (noElse : token.kind = .ifKeyword → ∀ condition consequence,
        node = .conditional token condition consequence none → kindOf rest ≠ .elseKeyword) :
      Begins admitted E (token :: input) node rest

/-- What the operators behind a tree make of it under a power. -/
inductive Extends (E : Nat → Tokens → Node → Tokens → Prop) (power : Nat) :
    Node → Tokens → Node → Tokens → Prop
  | none {left : Node} {rest : Tokens} (stops : Parse.bindingPower (kindOf rest) ≤ power) :
      Extends E power left rest left rest
  | call {opening : Token} {left whole : Node} {input between rest : Tokens} {arguments : List Node}
      (opens : opening.kind = .leftParen)
      (listed : Listed (E Parse.loosest) .rightParen input arguments between)
      (others : Extends E power (.call opening left arguments) between whole rest) :
      Extends E power left (opening :: input) whole rest
  | index {opening closing : Token} {left position whole : Node} {input between rest : Tokens}
      (opens : opening.kind = .leftBracket)
      (selected : E Parse.loosest input position (closing :: between))
      (closes : closing.kind = .rightBracket)
      (others : Extends E power (.index opening left position) between whole rest) :
      Extends E power left (opening :: input) whole rest
  | binary {operator : Token} {left right whole : Node} {input between rest : Tokens}
      (isOperator : operator.kind ∈ binaryOperators)
      (binds : power < Parse.bindingPower operator.kind)
      (second : E (Parse.bindingPower operator.kind) input right between)
      (others : Extends E power (.binary operator operator.literal left right) between whole rest) :
      Extends E power left (operator :: input) whole rest

/-- The expressions under a power at a depth. -/
def Ranked (admitted : Token → Prop) : Nat → Nat → Tokens → Node → Tokens → Prop
  | 0, _, _, _, _ => False
  | depth + 1, power, input, whole, rest =>
      ∃ first between, Begins admitted (Ranked admitted depth) input first between ∧
        Extends (Ranked admitted depth) power first between whole rest

theorem Extends.stops {power : Nat} {left whole : Node} (extends' : Extends E power left input whole rest) :
    Parse.bindingPower (kindOf rest) ≤ power := by
  induction extends' with
  | none stops => exact stops
  | call _ _ _ ih | index _ _ _ _ ih | binary _ _ _ _ ih => exact ih

theorem Ranked.stops {admitted : Token → Prop} {depth power : Nat}
    (ranked : Ranked admitted depth power input node rest) :
    Parse.bindingPower (kindOf rest) ≤ power := by
  cases depth with
  | zero => exact ranked.elim
  | succ depth =>
      obtain ⟨first, between, _, extended⟩ := ranked
      exact extended.stops

section Monotone

variable {α : Type} {Item Wider : Tokens → α → Tokens → Prop} {items : List α}

theorem More.mono (wider : ∀ {input item rest}, Item input item rest → Wider input item rest)
    (more : More Item input items rest) : More Wider input items rest := by
  induction more with
  | none rest => exact .none rest
  | next separator first _ ih => exact .next separator (wider first) ih

theorem Listed.mono (wider : ∀ {input item rest}, Item input item rest → Wider input item rest)
    {closing : Token.Kind} (listed : Listed Item closing input items rest) :
    Listed Wider closing input items rest := by
  cases listed with
  | empty closes => exact .empty closes
  | items first others closes => exact .items (wider first) (others.mono wider) closes

variable {G H : Tokens → Node → Tokens → Prop}
  (wider : ∀ {input node rest}, G input node rest → H input node rest)

include wider

theorem Statement.mono (statement : Statement G input node rest) : Statement H input node rest := by
  cases statement with
  | letStatement isLet isName isAssign bound ends =>
      exact .letStatement isLet isName isAssign (wider bound) ends
  | returnStatement isReturn given ends => exact .returnStatement isReturn (wider given) ends
  | expressionStatement evaluated ends => exact .expressionStatement (wider evaluated) ends

theorem Statements.mono {body : List Node} (statements : Statements G input body rest) :
    Statements H input body rest := by
  induction statements with
  | none rest => exact .none rest
  | next first _ ih => exact .next (first.mono wider) ih

theorem Braced.mono {block : Block Node} (braced : Braced G input block rest) :
    Braced H input block rest := by
  cases braced with
  | closed opens statements closes => exact .closed opens (statements.mono wider) closes
  | unclosed opens statements => exact .unclosed opens (statements.mono wider)

theorem Entry.mono {pair : Node × Node} (entry : Entry G input pair rest) :
    Entry H input pair rest := by
  cases entry with
  | pair named isColon given => exact .pair (wider named) isColon (wider given)

theorem Entries.mono {pairs : List (Node × Node)} (entries : Entries G input pairs rest) :
    Entries H input pairs rest := by
  have each : ∀ {input pair rest}, Entry G input pair rest → Entry H input pair rest :=
    fun entry => entry.mono wider
  cases entries with
  | listed entries => exact .listed (entries.mono each)
  | trailing first others separator closes =>
      exact .trailing (each first) (others.mono each) separator closes

theorem Primary.mono (primary : Primary G input node rest) : Primary H input node rest := by
  cases primary with
  | identifier rest isName => exact .identifier rest isName
  | integer rest isInteger numeral bounded => exact .integer rest isInteger numeral bounded
  | string rest isString => exact .string rest isString
  | trueKeyword rest isTrue => exact .trueKeyword rest isTrue
  | falseKeyword rest isFalse => exact .falseKeyword rest isFalse
  | grouped opens grouped closes => exact .grouped opens (wider grouped) closes
  | conditional isIf opens tested closes consequent =>
      exact .conditional isIf opens (wider tested) closes (consequent.mono wider)
  | alternative isIf opens tested closes consequent isElse alternate =>
      exact .alternative isIf opens (wider tested) closes (consequent.mono wider) isElse
        (alternate.mono wider)
  | function isFunction opens named braced =>
      exact .function isFunction opens named (braced.mono wider)
  | array opens listed => exact .array opens (listed.mono wider)
  | hash opens listed => exact .hash opens (listed.mono wider)

end Monotone

theorem Suffixes.more {G : Tokens → Node → Tokens → Prop} {first left whole : Node}
    {between : Tokens} (suffixes : Suffixes G first input left between)
    (others : Suffixes G left between whole rest) : Suffixes G first input whole rest := by
  induction suffixes with
  | none => exact others
  | call opens listed _ ih => exact .call opens listed (ih others)
  | index opens selected closes _ ih => exact .index opens selected closes (ih others)

/-- What stands to the left of the next operator: an operand to which suffixes may still be added,
or an expression behind which none comes. -/
def Extensible (power : Nat) (tokens : Tokens) (left : Node) (place : Tokens) : Prop :=
  (∃ first between, Primary Expression tokens first between ∧
    Suffixes Expression first between left place) ∨
  (Expression tokens left place ∧ (Parse.unaryPower ≤ power → Operand Expression tokens left place) ∧
    Parse.bindingPower (kindOf place) ≤ Parse.unaryPower)

section Extensible

variable {power : Nat} {tokens place : Tokens} {left : Node}

theorem Extensible.derived (extensible : Extensible power tokens left place) :
    Expression tokens left place ∧ (Parse.unaryPower ≤ power → Operand Expression tokens left place) := by
  rcases extensible with ⟨first, between, primary, suffixes⟩ | ⟨derived, operand, _⟩
  · exact ⟨.joined (.operand (.suffixed primary suffixes)), fun _ => .suffixed primary suffixes⟩
  · exact ⟨derived, operand⟩

/-- Behind an operator of greater power only an operand to which suffixes may be added is left. -/
theorem Extensible.suffix (extensible : Extensible power tokens left place)
    (binds : Parse.unaryPower < Parse.bindingPower (kindOf place)) {longer : Node} {behind : Tokens}
    (suffixes : Suffixes Expression left place longer behind) :
    Extensible power tokens longer behind := by
  rcases extensible with ⟨first, between, primary, earlier⟩ | ⟨_, _, stops⟩
  · exact .inl ⟨first, between, primary, earlier.more suffixes⟩
  · omega

theorem binaryOperator_binds {kind : Token.Kind} (isOperator : kind ∈ binaryOperators) :
    Parse.loosest < Parse.bindingPower kind ∧ Parse.bindingPower kind < Parse.unaryPower := by
  simp only [binaryOperators, List.mem_cons, List.not_mem_nil, or_false] at isOperator
  rcases isOperator with rfl | rfl | rfl | rfl | rfl | rfl | rfl | rfl <;> decide

theorem Extensible.binary {operator : Token} {input behind : Tokens} {right : Node}
    (extensible : Extensible power tokens left (operator :: input))
    (isOperator : operator.kind ∈ binaryOperators) (binds : power < Parse.bindingPower operator.kind)
    (second : Expression input right behind)
    (stops : Parse.bindingPower (kindOf behind) ≤ Parse.bindingPower operator.kind) :
    Extensible power tokens (.binary operator operator.literal left right) behind := by
  have loose := (binaryOperator_binds isOperator).2
  refine .inr ⟨?_, fun tight => by omega, Nat.le_trans stops (Nat.le_of_lt loose)⟩
  cases extensible.derived.1 with
  | joined firstJoined =>
      cases second with
      | joined secondJoined => exact .joined (.binary firstJoined isOperator secondJoined)

theorem Extends.extensible {whole : Node}
    (expressions : ∀ {power input node rest}, E power input node rest →
      Expression input node rest ∧ Parse.bindingPower (kindOf rest) ≤ power)
    (extended : Extends E power left place whole rest)
    (extensible : Extensible power tokens left place) : Extensible power tokens whole rest := by
  induction extended with
  | none => exact extensible
  | @call opening left whole input between rest arguments opens listed _ ih =>
      have supplied := listed.mono (fun argument => (expressions argument).1)
      refine ih (extensible.suffix ?_ (.call opens supplied (.none _ _)))
      rw [show kindOf (opening :: input) = .leftParen from opens]
      decide
  | @index opening closing left position whole input between rest opens selected closes _ ih =>
      refine ih (extensible.suffix ?_ (.index opens (expressions selected).1 closes (.none _ _)))
      rw [show kindOf (opening :: input) = .leftBracket from opens]
      decide
  | binary isOperator binds second _ ih =>
      obtain ⟨derived, stops⟩ := expressions second
      exact ih (extensible.binary isOperator binds derived stops)

end Extensible

theorem Ranked.derived {admitted : Token → Prop} {depth power : Nat}
    (ranked : Ranked admitted depth power input node rest) :
    Expression input node rest ∧ (Parse.unaryPower ≤ power → Operand Expression input node rest) := by
  induction depth generalizing power input node rest with
  | zero => exact ranked.elim
  | succ depth ih =>
      obtain ⟨first, between, begins, extended⟩ := ranked
      refine (extended.extensible (fun ranked => ⟨(ih ranked).1, ranked.stops⟩) ?_).derived
      cases begins with
      | unary isOperator applied =>
          have operand : Operand Expression _ _ _ :=
            .unary isOperator ((ih applied).2 (Nat.le_refl _))
          exact .inr ⟨.joined (.operand operand), fun _ => operand, applied.stops⟩
      | primary primary =>
          have derived := primary.mono (fun ranked => (ih ranked).1)
          exact .inl ⟨first, between, derived, .none _ _⟩

theorem Ranked.expression {admitted : Token → Prop} {depth power : Nat}
    (ranked : Ranked admitted depth power input node rest) : Expression input node rest :=
  ranked.derived.1

end MonkeyLang.Grammar

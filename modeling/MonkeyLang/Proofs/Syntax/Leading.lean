import MonkeyLang.Proofs.Syntax.Exactness

namespace MonkeyLang

open Grammar (Tokens kindOf)

namespace Parse

/-! # Trees that lead an expression

A tree leads the tokens up to a place if whatever the operators behind that place make of it is an
expression.  This is what is known of a tree before it is known what stands behind it.
-/

def Leads (depth : Nat) (input : Tokens) (left : Node) (place : Tokens) : Prop :=
  ∀ power whole rest, Grammar.Extends (Readable depth) power left place whole rest →
    Readable (depth + 1) power input whole rest

variable {depth power : Nat} {input place rest : Tokens} {node : Node}

theorem Leads.readable (leads : Leads depth input node place)
    (stops : bindingPower (kindOf place) ≤ power) : Readable (depth + 1) power input node place :=
  leads _ _ _ (.none stops)

/-- Tokens that close an expression, whatever its power. -/
def closers : List Token.Kind := [.rightParen, .rightBracket, .rightBrace, .comma, .colon, .semicolon]

theorem closer_binds {token : Token} (closes : token.kind ∈ closers) :
    bindingPower (kindOf (token :: rest)) ≤ loosest :=
  (Stops.closing closes).binds

theorem Leads.before {token : Token} (leads : Leads depth input node (token :: rest))
    (closes : token.kind ∈ closers) : Readable (depth + 1) loosest input node (token :: rest) :=
  leads.readable (closer_binds closes)

theorem leads_primary {token : Token}
    (primary : Grammar.Primary (Readable depth loosest) (token :: input) node rest)
    (limited : ¬ token.Oversized) (other : token.kind ≠ .ifKeyword) :
    Leads depth (token :: input) node rest :=
  fun _ _ _ extended => ⟨node, rest, .primary primary limited fun isIf => absurd isIf other, extended⟩

theorem not_oversized {token : Token} {kind : Token.Kind} (isKind : token.kind = kind)
    (other : kind ≠ .integer) : ¬ token.Oversized :=
  fun oversized => other (isKind.symm.trans oversized.isInteger)

theorem leads_unary {operator : Token} {operand : Node} {rest : Tokens}
    (isOperator : operator.kind ∈ Grammar.unaryOperators)
    (applied : Readable depth unaryPower input operand rest) :
    Leads depth (operator :: input) (.unary operator operator.literal operand) rest :=
  fun _ _ _ extended => ⟨_, rest, .unary isOperator applied, extended⟩

/-- Parentheses make any expression an operand. -/
theorem leads_grouped {opening closing : Token} {inner : Node} {rest : Tokens}
    (opens : opening.kind = .leftParen) (grouped : Readable depth loosest input inner (closing :: rest))
    (closes : closing.kind = .rightParen) : Leads depth (opening :: input) inner rest :=
  leads_primary (.grouped opens grouped closes) (not_oversized opens nofun)
    (by rw [opens]; exact nofun)

theorem Leads.call {opening : Token} {callee : Node} {between rest : Tokens} {arguments : List Node}
    (leads : Leads depth input callee (opening :: between)) (opens : opening.kind = .leftParen)
    (listed : Grammar.Listed (Readable depth loosest) .rightParen between arguments rest) :
    Leads depth input (.call opening callee arguments) rest :=
  fun _ _ _ extended => leads _ _ _ (.call opens listed extended)

theorem Leads.index {opening closing : Token} {left position : Node} {between rest : Tokens}
    (leads : Leads depth input left (opening :: between)) (opens : opening.kind = .leftBracket)
    (selected : Readable depth loosest between position (closing :: rest))
    (closes : closing.kind = .rightBracket) :
    Leads depth input (.index opening left position) rest :=
  fun _ _ _ extended => leads _ _ _ (.index opens selected closes extended)

theorem Leads.binary {operator : Token} {left right : Node} {between rest : Tokens}
    (leads : Leads depth input left (operator :: between))
    (isOperator : operator.kind ∈ Grammar.binaryOperators)
    (second : Readable depth (bindingPower operator.kind) between right rest)
    (stops : bindingPower (kindOf rest) ≤ loosest) :
    Readable (depth + 1) loosest input (.binary operator operator.literal left right) rest :=
  leads _ _ _ (.binary isOperator (Grammar.binaryOperator_binds isOperator).1 second (.none stops))

end Parse

end MonkeyLang

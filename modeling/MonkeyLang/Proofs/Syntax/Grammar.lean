import MonkeyLang.Syntax.Parse

namespace MonkeyLang.Grammar

/-! # The grammar

Every form of the grammar relates the tokens from some point on to a tree and to the tokens behind
it, so that the tree, read in order, spells exactly the tokens between.  The forms are written over
any notion of the expressions inside them; `Expression` ties the knot.

Two conditions look ahead: a statement without a semicolon ends only where no operator could take
its expression further, and the closing brace of a block is missing only at the end of the input.
-/

abbrev Tokens := List Token

/-- The kind of the next token, which is that of the end token if there is none. -/
def kindOf : Tokens → Token.Kind
  | [] => .endOfInput
  | token :: _ => token.kind

theorem exists_cons {tokens : Tokens} {kind : Token.Kind} (same : kindOf tokens = kind)
    (proper : kind ≠ .endOfInput) : ∃ token rest, tokens = token :: rest ∧ token.kind = kind := by
  cases tokens with
  | nil => exact absurd same.symm proper
  | cons token rest => exact ⟨token, rest, rfl, same⟩

def binaryOperators : List Token.Kind :=
  [.equal, .unequal, .less, .greater, .plus, .minus, .star, .slash]

/-- What takes an expression further that could as well end. -/
def continuations : List Token.Kind := binaryOperators ++ [.leftParen, .leftBracket]

def unaryOperators : List Token.Kind := [.bang, .minus]

/-- The digits of a literal and the number that they stand for. -/
structure Numeral (literal : String) (value : Nat) : Prop where
  nonempty : literal.toList ≠ []
  digits : ∀ digit ∈ literal.toList, Token.isDigit digit = true
  value : value = literal.toList.foldl (fun value digit => 10 * value + (digit.toNat - 48)) 0

section Items

variable {α : Type} (Item : Tokens → α → Tokens → Prop)

/-- Further items, each behind a comma. -/
inductive More : Tokens → List α → Tokens → Prop
  | none (rest : Tokens) : More rest [] rest
  | next {comma : Token} {input between rest : Tokens} {item : α} {items : List α}
      (separator : comma.kind = .comma) (first : Item input item between)
      (others : More between items rest) : More (comma :: input) (item :: items) rest

/-- Items with commas between them, up to the closing token. -/
inductive Listed (closing : Token.Kind) : Tokens → List α → Tokens → Prop
  | empty {token : Token} {rest : Tokens} (closes : token.kind = closing) :
      Listed closing (token :: rest) [] rest
  | items {token : Token} {input between rest : Tokens} {item : α} {items : List α}
      (first : Item input item between) (others : More Item between items (token :: rest))
      (closes : token.kind = closing) : Listed closing input (item :: items) rest

end Items

inductive Name : Tokens → Identifier → Tokens → Prop
  | identifier {token : Token} (rest : Tokens) (isName : token.kind = .identifier) :
      Name (token :: rest) ⟨token, token.literal⟩ rest

section Forms

variable (E : Tokens → Node → Tokens → Prop)

inductive Ending : Tokens → Tokens → Prop
  | semicolon {token : Token} (rest : Tokens) (isSemicolon : token.kind = .semicolon) :
      Ending (token :: rest) rest
  | bare {rest : Tokens} (stops : kindOf rest ∉ continuations) : Ending rest rest

inductive Statement : Tokens → Node → Tokens → Prop
  | letStatement {keyword name assign : Token} {input after rest : Tokens} {value : Node}
      (isLet : keyword.kind = .letKeyword) (isName : name.kind = .identifier)
      (isAssign : assign.kind = .assign) (bound : E input value after) (ends : Ending after rest) :
      Statement (keyword :: name :: assign :: input)
        (.letStatement keyword ⟨name, name.literal⟩ value) rest
  | returnStatement {keyword : Token} {input after rest : Tokens} {value : Node}
      (isReturn : keyword.kind = .returnKeyword) (given : E input value after)
      (ends : Ending after rest) :
      Statement (keyword :: input) (.returnStatement keyword value) rest
  | expressionStatement {first : Token} {input after rest : Tokens} {value : Node}
      (evaluated : E (first :: input) value after) (ends : Ending after rest) :
      Statement (first :: input) (.expressionStatement first value) rest

inductive Statements : Tokens → List Node → Tokens → Prop
  | none (rest : Tokens) : Statements rest [] rest
  | next {input between rest : Tokens} {statement : Node} {statements : List Node}
      (first : Statement E input statement between) (others : Statements between statements rest) :
      Statements input (statement :: statements) rest

inductive Braced : Tokens → Block Node → Tokens → Prop
  | closed {opening closing : Token} {input rest : Tokens} {body : List Node}
      (opens : opening.kind = .leftBrace) (statements : Statements E input body (closing :: rest))
      (closes : closing.kind = .rightBrace) : Braced (opening :: input) ⟨opening, body⟩ rest
  | unclosed {opening : Token} {input : Tokens} {body : List Node}
      (opens : opening.kind = .leftBrace) (statements : Statements E input body []) :
      Braced (opening :: input) ⟨opening, body⟩ []

inductive Entry : Tokens → Node × Node → Tokens → Prop
  | pair {colon : Token} {input between rest : Tokens} {key value : Node}
      (named : E input key (colon :: between)) (isColon : colon.kind = .colon)
      (given : E between value rest) : Entry input (key, value) rest

/-- The entries of a hash up to its closing brace; a comma may stand before it. -/
inductive Entries : Tokens → List (Node × Node) → Tokens → Prop
  | listed {input rest : Tokens} {pairs : List (Node × Node)}
      (entries : Listed (Entry E) .rightBrace input pairs rest) : Entries input pairs rest
  | trailing {comma closing : Token} {input between rest : Tokens} {pair : Node × Node}
      {pairs : List (Node × Node)} (first : Entry E input pair between)
      (others : More (Entry E) between pairs (comma :: closing :: rest))
      (separator : comma.kind = .comma) (closes : closing.kind = .rightBrace) :
      Entries input (pair :: pairs) rest

/-- What an expression may consist of without any operator. -/
inductive Primary : Tokens → Node → Tokens → Prop
  | identifier {token : Token} (rest : Tokens) (isName : token.kind = .identifier) :
      Primary (token :: rest) (.identifier ⟨token, token.literal⟩) rest
  | integer {token : Token} (rest : Tokens) {value : Nat} (isInteger : token.kind = .integer)
      (numeral : Numeral token.literal value) (bounded : value ≤ 0x7fffffffffffffff) :
      Primary (token :: rest) (.integer token value) rest
  | string {token : Token} (rest : Tokens) (isString : token.kind = .string) :
      Primary (token :: rest) (.string token token.literal) rest
  | trueKeyword {token : Token} (rest : Tokens) (isTrue : token.kind = .trueKeyword) :
      Primary (token :: rest) (.boolean token true) rest
  | falseKeyword {token : Token} (rest : Tokens) (isFalse : token.kind = .falseKeyword) :
      Primary (token :: rest) (.boolean token false) rest
  | grouped {opening closing : Token} {input rest : Tokens} {inner : Node}
      (opens : opening.kind = .leftParen) (grouped : E input inner (closing :: rest))
      (closes : closing.kind = .rightParen) : Primary (opening :: input) inner rest
  | conditional {keyword opening closing : Token} {input body rest : Tokens} {condition : Node}
      {consequence : Block Node} (isIf : keyword.kind = .ifKeyword)
      (opens : opening.kind = .leftParen) (tested : E input condition (closing :: body))
      (closes : closing.kind = .rightParen) (consequent : Braced E body consequence rest) :
      Primary (keyword :: opening :: input) (.conditional keyword condition consequence none) rest
  | alternative {keyword opening closing otherwise : Token} {input body behind rest : Tokens}
      {condition : Node} {consequence alternative : Block Node} (isIf : keyword.kind = .ifKeyword)
      (opens : opening.kind = .leftParen) (tested : E input condition (closing :: body))
      (closes : closing.kind = .rightParen)
      (consequent : Braced E body consequence (otherwise :: behind))
      (isElse : otherwise.kind = .elseKeyword) (alternate : Braced E behind alternative rest) :
      Primary (keyword :: opening :: input)
        (.conditional keyword condition consequence (some alternative)) rest
  | function {keyword opening : Token} {input body rest : Tokens} {parameters : List Identifier}
      {block : Block Node} (isFunction : keyword.kind = .fnKeyword)
      (opens : opening.kind = .leftParen) (named : Listed Name .rightParen input parameters body)
      (braced : Braced E body block rest) :
      Primary (keyword :: opening :: input) (.function keyword parameters block) rest
  | array {opening : Token} {input rest : Tokens} {items : List Node}
      (opens : opening.kind = .leftBracket) (listed : Listed E .rightBracket input items rest) :
      Primary (opening :: input) (.array opening items) rest
  | hash {opening : Token} {input rest : Tokens} {pairs : List (Node × Node)}
      (opens : opening.kind = .leftBrace) (listed : Entries E input pairs rest) :
      Primary (opening :: input) (.hash opening pairs) rest

/-- Argument lists and indices behind a tree, with the tree that they make of it. -/
inductive Suffixes : Node → Tokens → Node → Tokens → Prop
  | none (left : Node) (rest : Tokens) : Suffixes left rest left rest
  | call {opening : Token} {left whole : Node} {input between rest : Tokens}
      {arguments : List Node} (opens : opening.kind = .leftParen)
      (listed : Listed E .rightParen input arguments between)
      (others : Suffixes (.call opening left arguments) between whole rest) :
      Suffixes left (opening :: input) whole rest
  | index {opening closing : Token} {left position whole : Node} {input between rest : Tokens}
      (opens : opening.kind = .leftBracket) (selected : E input position (closing :: between))
      (closes : closing.kind = .rightBracket)
      (others : Suffixes (.index opening left position) between whole rest) :
      Suffixes left (opening :: input) whole rest

/-- Unary operators, a primary and its suffixes. -/
inductive Operand : Tokens → Node → Tokens → Prop
  | unary {operator : Token} {input rest : Tokens} {operand : Node}
      (isOperator : operator.kind ∈ unaryOperators) (applied : Operand input operand rest) :
      Operand (operator :: input) (.unary operator operator.literal operand) rest
  | suffixed {input between rest : Tokens} {first whole : Node} (primary : Primary E input first between)
      (suffixes : Suffixes E first between whole rest) : Operand input whole rest

/-- Operands with binary operators between them, grouped in any way. -/
inductive Joined : Tokens → Node → Tokens → Prop
  | operand {input rest : Tokens} {node : Node} (operand : Operand E input node rest) :
      Joined input node rest
  | binary {operator : Token} {input between rest : Tokens} {left right : Node}
      (first : Joined input left (operator :: between))
      (isOperator : operator.kind ∈ binaryOperators) (second : Joined between right rest) :
      Joined input (.binary operator operator.literal left right) rest

end Forms

inductive Expression : Tokens → Node → Tokens → Prop
  | joined {input rest : Tokens} {node : Node} (joined : Joined Expression input node rest) :
      Expression input node rest

/-- The whole input is a sequence of statements. -/
def Program (input : Tokens) (statements : List Node) : Prop :=
  Statements Expression input statements []

end MonkeyLang.Grammar

import MonkeyLang.Token.Basic

namespace MonkeyLang

/-! Syntax trees.

Every node keeps the token that names its place: an operator for a binary expression, the opening
bracket for a call, an index or a block, the first token for everything else.  Any node may stand
where a node is asked for; which trees a program text gives is the business of the grammar.
-/

/-- A name as it stands in a text. -/
structure Identifier where
  token : Token
  name : String
deriving DecidableEq, Repr

/-- Statements in a row, with the token that opens them. -/
structure Block (Statement : Type) where
  token : Token
  statements : List Statement
deriving Repr

/-- Nodes without any content of their own. -/
inductive BareKind where
  | node | statement | expression
deriving DecidableEq, Repr

inductive Node where
  | program (body : Block Node)
  | block (body : Block Node)
  | letStatement (token : Token) (name : Identifier) (value : Node)
  | returnStatement (token : Token) (value : Node)
  | expressionStatement (token : Token) (expression : Node)
  | identifier (name : Identifier)
  | integer (token : Token) (value : Int)
  | boolean (token : Token) (value : Bool)
  | string (token : Token) (value : String)
  | array (token : Token) (items : List Node)
  | hash (token : Token) (pairs : List (Node × Node))
  | unary (token : Token) (operator : String) (operand : Node)
  | binary (token : Token) (operator : String) (left right : Node)
  | conditional (token : Token) (condition : Node) (consequence : Block Node)
      (alternative : Option (Block Node))
  | function (token : Token) (parameters : List Identifier) (body : Block Node)
  | call (token : Token) (callee : Node) (arguments : List Node)
  | index (token : Token) (left position : Node)
  | bare (token : Token) (kind : BareKind)
deriving Repr

namespace Node

def token : Node → Token
  | program body => body.token
  | block body => body.token
  | identifier name => name.token
  | letStatement token _ _ | returnStatement token _ | expressionStatement token _ | integer token _
  | boolean token _ | string token _ | array token _ | hash token _ | unary token _ _
  | binary token _ _ _ | conditional token _ _ _ | function token _ _ | call token _ _
  | index token _ _ | bare token _ => token

/-- The name of the node's form in messages and step logs. -/
def formName : Node → String
  | program _ => "Program"
  | block _ => "Block"
  | letStatement .. => "Let"
  | returnStatement .. => "Return"
  | expressionStatement .. => "ExpressionStatement"
  | identifier _ => "Identifier"
  | integer .. => "IntegerLiteral"
  | boolean .. => "BooleanLiteral"
  | string .. => "StringLiteral"
  | array .. => "ArrayLiteral"
  | hash .. => "HashLiteral"
  | unary .. => "Prefix"
  | binary .. => "Infix"
  | conditional .. => "If"
  | function .. => "FunctionLiteral"
  | call .. => "Call"
  | index .. => "Index"
  | bare _ .node => "Node"
  | bare _ .statement => "Statement"
  | bare _ .expression => "Expression"

mutual

/-- How many nodes stand above one another on the longest way down. -/
def depth : Node → Nat
  | program ⟨_, body⟩ | block ⟨_, body⟩ => depthOfAll body + 1
  | letStatement _ _ value | returnStatement _ value | expressionStatement _ value => value.depth + 1
  | identifier _ | integer .. | boolean .. | string .. | bare .. => 1
  | array _ items => depthOfAll items + 1
  | hash _ pairs => depthOfPairs pairs + 1
  | unary _ _ operand => operand.depth + 1
  | binary _ _ left right => max left.depth right.depth + 1
  | conditional _ condition ⟨_, consequence⟩ none =>
      max condition.depth (depthOfAll consequence) + 1
  | conditional _ condition ⟨_, consequence⟩ (some ⟨_, alternative⟩) =>
      max condition.depth (max (depthOfAll consequence) (depthOfAll alternative)) + 1
  | function _ _ ⟨_, body⟩ => depthOfAll body + 1
  | call _ callee arguments => max callee.depth (depthOfAll arguments) + 1
  | index _ left position => max left.depth position.depth + 1

def depthOfAll : List Node → Nat
  | [] => 0
  | node :: nodes => max node.depth (depthOfAll nodes)

def depthOfPairs : List (Node × Node) → Nat
  | [] => 0
  | (key, value) :: pairs => max (max key.depth value.depth) (depthOfPairs pairs)

end

end Node

end MonkeyLang

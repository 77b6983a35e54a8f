import MonkeyLang.Syntax.Node
import MonkeyLang.Text.Quoted

namespace MonkeyLang

/-! The text of a syntax tree.

Unary, binary and index expressions stand in parentheses; statements follow one another without
anything between them; strings and conditions stand bare.
-/

def Token.describe (token : Token) : String :=
  "Token(type=" ++ Text.quoted token.kind.name ++ ", literal=" ++ Text.quoted token.literal ++
    ", line=" ++ toString token.line ++ ", column=" ++ toString token.column ++ ")"

namespace Node

def renderNames (names : List Identifier) : String :=
  ", ".intercalate (names.map (·.name))

mutual

def render : Node → String
  | program ⟨_, body⟩ | block ⟨_, body⟩ => renderAll body
  | letStatement _ name value => "let " ++ name.name ++ " = " ++ value.render ++ ";"
  | returnStatement _ value => "return " ++ value.render ++ ";"
  | expressionStatement _ expression => expression.render
  | identifier name => name.name
  | integer token _ | boolean token _ => token.literal
  | string _ value => value
  | array _ items => "[" ++ renderListed items ++ "]"
  | hash _ pairs => "\x7b" ++ renderPairs pairs ++ "\x7d"
  | unary _ operator operand => "(" ++ operator ++ operand.render ++ ")"
  | binary _ operator left right =>
      "(" ++ left.render ++ " " ++ operator ++ " " ++ right.render ++ ")"
  | conditional _ condition ⟨_, consequence⟩ none =>
      "if" ++ condition.render ++ " " ++ renderAll consequence
  | conditional _ condition ⟨_, consequence⟩ (some ⟨_, alternative⟩) =>
      "if" ++ condition.render ++ " " ++ renderAll consequence ++ "else " ++ renderAll alternative
  | function token parameters ⟨_, body⟩ =>
      token.literal ++ "(" ++ renderNames parameters ++ ") " ++ renderAll body
  | call _ callee arguments => callee.render ++ "(" ++ renderListed arguments ++ ")"
  | index _ left position => "(" ++ left.render ++ "[" ++ position.render ++ "])"
  | node@(bare token _) => node.formName ++ "(token=" ++ token.describe ++ ")"

/-- Statements in a row. -/
def renderAll : List Node → String
  | [] => ""
  | node :: nodes => node.render ++ renderAll nodes

/-- Expressions with commas between them. -/
def renderListed : List Node → String
  | [] => ""
  | [node] => node.render
  | node :: next :: nodes => node.render ++ ", " ++ renderListed (next :: nodes)

def renderPairs : List (Node × Node) → String
  | [] => ""
  | [(key, value)] => key.render ++ ":" ++ value.render
  | (key, value) :: next :: pairs =>
      key.render ++ ":" ++ value.render ++ ", " ++ renderPairs (next :: pairs)

end

end Node

end MonkeyLang

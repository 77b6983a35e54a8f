import MonkeyLang.Arithmetic
import MonkeyLang.Syntax.Node
import MonkeyLang.Token.Scan

namespace MonkeyLang

/-! From tokens to a program, by binding powers.

A construct that does not fit the grammar is refused with one error; the statement it belongs to is
dropped, the error is kept, and reading goes on behind the token at which it stopped.  Blocks may end
with the input.  Two things break reading off altogether: expressions nested too deeply, and an
integer with too many digits.
-/

inductive SyntaxError where
  | noExpression (kind : Token.Kind)
  | unexpected (wanted found : Token.Kind)
  | notAnInteger (literal : String)
deriving DecidableEq, Repr

def SyntaxError.message : SyntaxError → String
  | noExpression kind => "no prefix parse function for " ++ kind.name ++ " found"
  | unexpected wanted found =>
      "expected next token to be " ++ wanted.name ++ ", got " ++ found.name ++ " instead"
  | notAnInteger literal => "could not parse \"" ++ literal ++ "\" as integer"

/-- Why reading was broken off. -/
inductive Breakoff where
  | tooDeep
  | tooManyDigits (count : Nat)
deriving DecidableEq, Repr

namespace Parse

/-- The tokens from the current one on with their number, the end token that stands behind them all,
and the errors so far. -/
structure Cursor where
  tokens : List Token
  count : Nat
  ending : Token
  errors : Array SyntaxError
  length_tokens : tokens.length = count
deriving Repr

namespace Cursor

def current (cursor : Cursor) : Token := cursor.tokens.headD cursor.ending

def upcoming (cursor : Cursor) : Token := cursor.tokens.tail.headD cursor.ending

def advance (cursor : Cursor) : Cursor where
  tokens := cursor.tokens.tail
  count := cursor.count - 1
  ending := cursor.ending
  errors := cursor.errors
  length_tokens := by simp [cursor.length_tokens]

/-- Keeps an error. -/
def report (cursor : Cursor) (error : SyntaxError) : Cursor :=
  { cursor with errors := cursor.errors.push error }

end Cursor

inductive Stop where
  | refused (error : SyntaxError)
  | broken (reason : Breakoff)
deriving Repr

end Parse

abbrev Parse := EStateM Parse.Stop Parse.Cursor

namespace Parse

/-- Largest number of digits that an integer may be written with. -/
def digitLimit : Nat := 4300

def refuse {α : Type} (error : SyntaxError) : Parse α := throw (.refused error)

def current : Parse Token := return (← get).current

def upcoming : Parse Token := return (← get).upcoming

def advance : Parse Unit := modify Cursor.advance

/-- Moves on to the next token, which has to be of the given kind. -/
def expect (wanted : Token.Kind) : Parse Unit := do
  let found := (← upcoming).kind
  if found = wanted then advance else refuse (.unexpected wanted found)

def skipSemicolon : Parse Unit := do
  if (← upcoming).kind = .semicolon then advance

/-- How many tokens are left; no loop below turns more often. -/
def remaining : Parse Nat := return (← get).count

/-! Binding powers, from loose to tight. -/

def loosest : Nat := 1

def unaryPower : Nat := 6

def bindingPower : Token.Kind → Nat
  | .equal | .unequal => 2
  | .less | .greater => 3
  | .plus | .minus => 4
  | .slash | .star => 5
  | .leftParen => 7
  | .leftBracket => 8
  | _ => loosest

/-! The forms of the grammar.  `expression` reads an expression whose outer operators bind tighter
than the power it is given; it may nest one level less deep than the form that contains it. -/

def integer (token : Token) : Parse Node :=
  let digits := token.literal.toList
  if digits.isEmpty || !digits.all Token.isDigit then refuse (.notAnInteger token.literal)
  else if digitLimit < digits.length then throw (.broken (.tooManyDigits digits.length))
  else
    let value : Nat := digits.foldl (fun value digit => 10 * value + (digit.toNat - 48)) 0
    if greatestInteger < value then refuse (.notAnInteger token.literal)
    else return .integer token value

section Forms

variable (expression : Nat → Parse Node)

def letStatement (token : Token) : Parse Node := do
  expect .identifier
  let name ← current
  expect .assign
  advance
  let value ← expression loosest
  skipSemicolon
  return .letStatement token ⟨name, name.literal⟩ value

def returnStatement (token : Token) : Parse Node := do
  advance
  let value ← expression loosest
  skipSemicolon
  return .returnStatement token value

def expressionStatement (token : Token) : Parse Node := do
  let value ← expression loosest
  skipSemicolon
  return .expressionStatement token value

def statementForm : Parse Node := do
  let token ← current
  match token.kind with
  | .letKeyword => letStatement expression token
  | .returnKeyword => returnStatement expression token
  | _ => expressionStatement expression token

/-- A statement, or nothing if it was refused; then its error is kept. -/
def statement : Parse (Option Node) := fun cursor =>
  match statementForm expression cursor with
  | .ok node after => .ok (some node) after
  | .error (.refused error) after => .ok none (after.report error)
  | .error (.broken reason) after => .error (.broken reason) after

/-- Statements up to a token that closes them, or the end of the input. -/
def statements (closes : Token.Kind → Bool) : Nat → Array Node → Parse (Array Node)
  | 0, found => return found
  | turns + 1, found => do
      let kind := (← current).kind
      if closes kind || kind == .endOfInput then return found
      else
        let next ← statement expression
        advance
        statements closes turns (match next with | some node => found.push node | none => found)

def block : Parse (Block Node) := do
  let token ← current
  advance
  let body ← statements expression (· == .rightBrace) (← remaining) #[]
  return ⟨token, body.toList⟩

/-- Further expressions, each behind a comma. -/
def moreExpressions : Nat → Array Node → Parse (Array Node)
  | 0, found => return found
  | turns + 1, found => do
      if (← upcoming).kind = .comma then
        advance
        advance
        let item ← expression loosest
        moreExpressions turns (found.push item)
      else return found

/-- Expressions with commas between them, up to the closing token. -/
def expressions (closing : Token.Kind) : Parse (List Node) := do
  if (← upcoming).kind = closing then
    advance
    return []
  else
    advance
    let first ← expression loosest
    let items ← moreExpressions expression (← remaining) #[first]
    expect closing
    return items.toList

def pairs : Nat → Array (Node × Node) → Parse (Array (Node × Node))
  | 0, found => return found
  | turns + 1, found => do
      if (← upcoming).kind = .rightBrace then return found
      else
        advance
        let key ← expression loosest
        expect .colon
        advance
        let value ← expression loosest
        if (← upcoming).kind ≠ .rightBrace then expect .comma
        pairs turns (found.push (key, value))

def hash (token : Token) : Parse Node := do
  let found ← pairs expression (← remaining) #[]
  expect .rightBrace
  return .hash token found.toList

def grouped : Parse Node := do
  advance
  let inner ← expression loosest
  expect .rightParen
  return inner

def conditional (token : Token) : Parse Node := do
  expect .leftParen
  advance
  let condition ← expression loosest
  expect .rightParen
  expect .leftBrace
  let consequence ← block expression
  if (← upcoming).kind = .elseKeyword then
    advance
    expect .leftBrace
    let alternative ← block expression
    return .conditional token condition consequence (some alternative)
  else return .conditional token condition consequence none

def parameter : Parse Identifier := do
  expect .identifier
  let token ← current
  return ⟨token, token.literal⟩

def moreParameters : Nat → Array Identifier → Parse (Array Identifier)
  | 0, found => return found
  | turns + 1, found => do
      if (← upcoming).kind = .comma then
        advance
        let next ← parameter
        moreParameters turns (found.push next)
      else return found

def parameters : Parse (List Identifier) := do
  if (← upcoming).kind = .rightParen then
    advance
    return []
  else
    let first ← parameter
    let names ← moreParameters (← remaining) #[first]
    expect .rightParen
    return names.toList

def function (token : Token) : Parse Node := do
  expect .leftParen
  let names ← parameters
  expect .leftBrace
  let body ← block expression
  return .function token names body

/-- What may begin an expression, up to the first operator behind it. -/
def operand : Parse Node := do
  let token ← current
  match token.kind with
  | .identifier => return .identifier ⟨token, token.literal⟩
  | .integer => integer token
  | .string => return .string token token.literal
  | .trueKeyword => return .boolean token true
  | .falseKeyword => return .boolean token false
  | .bang | .minus => do
      advance
      let operand ← expression unaryPower
      return .unary token token.literal operand
  | .leftParen => grouped expression
  | .ifKeyword => conditional expression token
  | .fnKeyword => function expression token
  | .leftBracket => return .array token (← expressions expression .rightBracket)
  | .leftBrace => hash expression token
  | kind => refuse (.noExpression kind)

/-- The operator at the current token, with the expression to its left. -/
def extension (left : Node) : Parse Node := do
  let token ← current
  match token.kind with
  | .leftParen => return .call token left (← expressions expression .rightParen)
  | .leftBracket => do
      advance
      let position ← expression loosest
      expect .rightBracket
      return .index token left position
  | kind => do
      advance
      let right ← expression (bindingPower kind)
      return .binary token token.literal left right

/-- Takes in operators as long as they bind tighter than the given power. -/
def extensions (power : Nat) : Nat → Node → Parse Node
  | 0, left => return left
  | turns + 1, left => do
      if power < bindingPower (← upcoming).kind then
        advance
        let longer ← extension expression left
        extensions power turns longer
      else return left

end Forms

/-- An expression of at most the given nesting. -/
def expression : Nat → Nat → Parse Node
  | 0, _ => throw (.broken .tooDeep)
  | depth + 1, power => do
      let first ← operand (expression depth)
      extensions (expression depth) power (← remaining) first

def programForm (depth : Nat) : Parse Node := do
  let token ← current
  let body ← statements (expression depth) (fun _ => false) (← remaining) #[]
  return .program ⟨token, body.toList⟩

/-- The end token behind a list of tokens: it has the place of the last of them. -/
def endingOf (tokens : List Token) : Token :=
  match tokens.getLast? with
  | some last => ⟨.endOfInput, "", last.line, last.column⟩
  | none => ⟨.endOfInput, "", 0, 0⟩

end Parse

/-- A program as far as it was understood, and what was not. -/
structure Parsed where
  program : Node
  errors : List SyntaxError
deriving Repr

namespace Parsed

/-- Reads a program from tokens, with expressions nested at most `depth` deep.  An end token may be
missing; what stands behind the first one at top level is left alone. -/
def ofTokens (depth : Nat) (tokens : List Token) : Except Breakoff Parsed :=
  match Parse.programForm depth ⟨tokens, tokens.length, Parse.endingOf tokens, #[], rfl⟩ with
  | .ok program after => .ok ⟨program, after.errors.toList⟩
  | .error (.refused error) after => .ok ⟨.program ⟨after.current, []⟩, [error]⟩
  | .error (.broken reason) _ => .error reason

/-- How deep the expressions of a program may nest. -/
def depthLimit : Nat := 5000

def ofText (text : String) : Except Breakoff Parsed :=
  ofTokens depthLimit (Token.scan text)

end Parsed

end MonkeyLang

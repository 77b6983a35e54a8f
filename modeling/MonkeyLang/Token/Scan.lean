import MonkeyLang.Token.Basic

namespace MonkeyLang

/-! Scanning a text into tokens.

Blanks, tabs, carriage returns and line feeds separate tokens and are dropped.  Letters are the ASCII
letters and the underscore.  A string runs to the next double quote, or to the end of the text, and
has no escapes.  Lines are counted by line feeds alone.
-/

/-- How far a text has been read: characters passed, line and column of the next one. -/
structure Position where
  index : Nat
  line : Nat
  column : Nat
deriving DecidableEq, Repr

namespace Position

def start : Position := ⟨0, 1, 1⟩

def advance (position : Position) (character : Char) : Position :=
  if character == '\n' then ⟨position.index + 1, position.line + 1, 1⟩
  else ⟨position.index + 1, position.line, position.column + 1⟩

def advanceBy (position : Position) (text : List Char) : Position :=
  text.foldl advance position

end Position

namespace Token

def isLayout (character : Char) : Bool :=
  character == ' ' || character == '\t' || character == '\r' || character == '\n'

def isLetter (character : Char) : Bool :=
  ('a' ≤ character && character ≤ 'z') || ('A' ≤ character && character ≤ 'Z') || character == '_'

def isDigit (character : Char) : Bool :=
  '0' ≤ character && character ≤ '9'

/-- The kind of a word made of letters. -/
def wordKind (word : List Char) : Kind :=
  match String.ofList word with
  | "let" => .letKeyword
  | "fn" => .fnKeyword
  | "true" => .trueKeyword
  | "false" => .falseKeyword
  | "if" => .ifKeyword
  | "else" => .elseKeyword
  | "return" => .returnKeyword
  | _ => .identifier

/-- Symbols that are a token whatever follows them. -/
def symbolKind? (character : Char) : Option Kind :=
  match character with
  | '+' => some .plus
  | '-' => some .minus
  | '*' => some .star
  | '/' => some .slash
  | '<' => some .less
  | '>' => some .greater
  | ',' => some .comma
  | ';' => some .semicolon
  | ':' => some .colon
  | '(' => some .leftParen
  | ')' => some .rightParen
  | '{' => some .leftBrace
  | '}' => some .rightBrace
  | '[' => some .leftBracket
  | ']' => some .rightBracket
  | _ => none

/-- Symbols that form another one together with an equals sign directly behind them: the kind
alone, and the kind of the two. -/
def doubledKinds? (character : Char) : Option (Kind × Kind) :=
  match character with
  | '=' => some (.assign, .equal)
  | '!' => some (.bang, .unequal)
  | _ => none

/-- One token at the head of a text: its kind, its literal, and how many characters it takes. -/
structure Lexeme where
  kind : Kind
  literal : List Char
  extent : Nat
deriving DecidableEq, Repr

/-- The token that begins with `first`, which is no layout character. -/
def lexeme (first : Char) (rest : List Char) : Lexeme :=
  match doubledKinds? first with
  | some (single, double) =>
      if rest.head? == some '=' then ⟨double, [first, '='], 2⟩ else ⟨single, [first], 1⟩
  | none =>
      match symbolKind? first with
      | some kind => ⟨kind, [first], 1⟩
      | none =>
          if first == '"' then
            let body := rest.takeWhile (· != '"')
            ⟨.string, body, 1 + body.length + (if body.length < rest.length then 1 else 0)⟩
          else if isLetter first then
            let word := first :: rest.takeWhile isLetter
            ⟨wordKind word, word, word.length⟩
          else if isDigit first then
            let digits := first :: rest.takeWhile isDigit
            ⟨.integer, digits, digits.length⟩
          else ⟨.illegal, [first], 1⟩

end Token

/-- A text in the course of being scanned. -/
structure Scanner where
  rest : List Char
  position : Position
deriving DecidableEq, Repr

namespace Scanner

def ofText (text : List Char) : Scanner := ⟨text, .start⟩

/-- Passes over the next `count` characters. -/
def skip (scanner : Scanner) (count : Nat) : Scanner :=
  ⟨scanner.rest.drop count, scanner.position.advanceBy (scanner.rest.take count)⟩

def skipLayout (scanner : Scanner) : Scanner :=
  scanner.skip (scanner.rest.takeWhile Token.isLayout).length

/-- The next token; at the end of the text it is an end token, again and again. -/
def next (scanner : Scanner) : Token × Scanner :=
  let scanner := scanner.skipLayout
  let place := scanner.position
  match scanner.rest with
  | [] => (⟨.endOfInput, "", place.line, place.column⟩, scanner)
  | first :: rest =>
      let lexeme := Token.lexeme first rest
      (⟨lexeme.kind, String.ofList lexeme.literal, place.line, place.column⟩,
        scanner.skip lexeme.extent)

/-- Reads on to the first end token, with at most `count` tokens before it, behind the tokens found
so far (last one first). -/
def collect : Nat → List Token → Scanner → List Token × Scanner
  | 0, found, scanner => ((scanner.next.1 :: found).reverse, scanner.next.2)
  | count + 1, found, scanner =>
      let (token, after) := scanner.next
      if token.kind = .endOfInput then ((token :: found).reverse, after)
      else collect count (token :: found) after

/-- All tokens of the text with the end token.  A text has no more tokens than characters. -/
def tokens (scanner : Scanner) : List Token × Scanner :=
  collect scanner.rest.length [] scanner

/-- The next `count` tokens, end tokens included. -/
def pull : Nat → Scanner → List Token × Scanner
  | 0, scanner => ([], scanner)
  | count + 1, scanner =>
      let (token, after) := scanner.next
      let (tokens, final) := pull count after
      (token :: tokens, final)

end Scanner

namespace Token

/-- The tokens of a text, the last of them the end token. -/
def scan (text : String) : List Token :=
  (Scanner.ofText text.toList).tokens.1

end Token

end MonkeyLang

namespace MonkeyLang

/-! Tokens: kind, spelling and place of each lexical unit. -/

namespace Token

/-- Kinds of tokens.  `other` is any kind that no scanner makes; it may stand in a list of tokens
that comes from elsewhere. -/
inductive Kind where
  | illegal | endOfInput
  | identifier | integer | string
  | assign | plus | minus | star | slash | equal | unequal | greater | less | bang
  | comma | semicolon | colon
  | leftParen | rightParen | leftBrace | rightBrace | leftBracket | rightBracket
  | letKeyword | fnKeyword | trueKeyword | falseKeyword | ifKeyword | elseKeyword | returnKeyword
  | other (name : String)
deriving DecidableEq, Repr, Inhabited

namespace Kind

/-- The kind's name in messages. -/
def name : Kind → String
  | illegal => "ILLEGAL"
  | endOfInput => "EOF"
  | identifier => "IDENTIFIER"
  | integer => "INT"
  | string => "STRING"
  | assign => "ASSIGN"
  | plus => "PLUS"
  | minus => "MINUS"
  | star => "STAR"
  | slash => "SLASH"
  | equal => "EQ"
  | unequal => "NEQ"
  | greater => "GR"
  | less => "LE"
  | bang => "EXCLA"
  | comma => "COMMA"
  | semicolon => "SEMICOLON"
  | colon => "COLON"
  | leftParen => "LP"
  | rightParen => "RP"
  | leftBrace => "LB"
  | rightBrace => "RB"
  | leftBracket => "LSB"
  | rightBracket => "RSB"
  | letKeyword => "LET"
  | fnKeyword => "FUNCTION"
  | trueKeyword => "TRUE"
  | falseKeyword => "FALSE"
  | ifKeyword => "IF"
  | elseKeyword => "ELSE"
  | returnKeyword => "RETURN"
  | other name => name

/-- Every kind that a scanner makes. -/
def standard : List Kind :=
  [illegal, endOfInput, identifier, integer, string, assign, plus, minus, star, slash, equal,
    unequal, greater, less, bang, comma, semicolon, colon, leftParen, rightParen, leftBrace,
    rightBrace, leftBracket, rightBracket, letKeyword, fnKeyword, trueKeyword, falseKeyword,
    ifKeyword, elseKeyword, returnKeyword]

def ofName (name : String) : Kind :=
  (standard.find? (fun kind => kind.name == name)).getD (other name)

theorem ofName_name {kind : Kind} (known : kind ∈ standard) : ofName kind.name = kind := by
  simp only [standard, List.mem_cons, List.not_mem_nil, or_false] at known
  rcases known with rfl | rfl | rfl | rfl | rfl | rfl | rfl | rfl | rfl | rfl | rfl | rfl | rfl |
    rfl | rfl | rfl | rfl | rfl | rfl | rfl | rfl | rfl | rfl | rfl | rfl | rfl | rfl | rfl | rfl |
    rfl | rfl <;> decide

end Kind

end Token

structure Token where
  kind : Token.Kind
  literal : String
  line : Nat
  column : Nat
deriving DecidableEq, Repr, Inhabited

end MonkeyLang

import MonkeyLang.Text.Quoted

namespace MonkeyLang.Text

/-! JSON documents and their text: two blanks of indentation per level, an empty list or object on
one line, and ASCII only.  A character outside printable ASCII is written as one escape of four
hexadecimal digits, or as two for a code point beyond U+FFFF. -/

inductive Json where
  | null
  | integer (value : Int)
  | text (value : String)
  | array (items : List Json)
  | object (fields : List (String × Json))
deriving Repr

namespace Json

def unitEscape (unit : Nat) : List Char :=
  '\\' :: 'u' :: hexDigits 4 unit

def escapedCharacter (character : Char) : List Char :=
  let code := character.toNat
  if character == '"' then ['\\', '"']
  else if character == '\\' then ['\\', '\\']
  else if character == '\n' then ['\\', 'n']
  else if character == '\r' then ['\\', 'r']
  else if character == '\t' then ['\\', 't']
  else if code == 0x08 then ['\\', 'b']
  else if code == 0x0c then ['\\', 'f']
  else if 0x20 ≤ code && code ≤ 0x7e then [character]
  else if code < 0x10000 then unitEscape code
  else unitEscape (0xd800 + (code - 0x10000) / 0x400) ++ unitEscape (0xdc00 + (code - 0x10000) % 0x400)

def string (value : String) : List Char :=
  '"' :: value.toList.flatMap escapedCharacter ++ ['"']

def newline (level : Nat) : List Char :=
  '\n' :: List.replicate (2 * level) ' '

mutual

def chars (level : Nat) : Json → List Char
  | .null => "null".toList
  | .integer value => (toString value).toList
  | .text value => string value
  | .array [] => ['[', ']']
  | .array (item :: items) =>
      '[' :: newline (level + 1) ++ chars (level + 1) item ++ moreItems (level + 1) items ++
        newline level ++ [']']
  | .object [] => ['{', '}']
  | .object ((key, value) :: fields) =>
      '{' :: newline (level + 1) ++ string key ++ ':' :: ' ' :: chars (level + 1) value ++
        moreFields (level + 1) fields ++ newline level ++ ['}']

def moreItems (level : Nat) : List Json → List Char
  | [] => []
  | item :: items => ',' :: newline level ++ chars level item ++ moreItems level items

def moreFields (level : Nat) : List (String × Json) → List Char
  | [] => []
  | (key, value) :: fields =>
      ',' :: newline level ++ string key ++ ':' :: ' ' :: chars level value ++
        moreFields level fields

end

def render (document : Json) : String :=
  String.ofList (chars 0 document)

end Json

end MonkeyLang.Text

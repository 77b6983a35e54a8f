import MonkeyLang.Text.Case
import MonkeyLang.Text.PrintableTable

namespace MonkeyLang.Text

/-! Names in quotation marks.

A name stands in single quotes, or in double quotes if it holds a single quote and no double quote.
The chosen quote and the backslash are escaped, line feed, carriage return and tab have their short
escapes, and every other unprintable character is written by its code in two, four or eight
hexadecimal digits.
-/

def hexDigit (value : Nat) : Char :=
  if value < 10 then Char.ofNat (48 + value) else Char.ofNat (87 + value)

/-- The `width` lowest hexadecimal digits of a number, highest first. -/
def hexDigits : Nat → Nat → List Char
  | 0, _ => []
  | width + 1, value => hexDigits width (value / 16) ++ [hexDigit (value % 16)]

def isPrintable (character : Char) : Bool :=
  !inRanges unprintableRanges character.toNat

def quotedCharacter (quote character : Char) : List Char :=
  if character == quote || character == '\\' then ['\\', character]
  else if character == '\n' then ['\\', 'n']
  else if character == '\r' then ['\\', 'r']
  else if character == '\t' then ['\\', 't']
  else if isPrintable character then [character]
  else
    let code := character.toNat
    if code < 0x100 then '\\' :: 'x' :: hexDigits 2 code
    else if code < 0x10000 then '\\' :: 'u' :: hexDigits 4 code
    else '\\' :: 'U' :: hexDigits 8 code

def quotedChars (name : List Char) : List Char :=
  let quote := if name.contains '\'' && !name.contains '"' then '"' else '\''
  quote :: name.flatMap (quotedCharacter quote) ++ [quote]

def quoted (name : String) : String :=
  String.ofList (quotedChars name.toList)

end MonkeyLang.Text

import MonkeyLang.Text.Json
import MonkeyLang.Token.Scan

namespace MonkeyLang.Text

/-! # Reading JSON

Documents are read from a text of any layout.  What no document of this kind has is not read: truth values,
fractions and exponents, and surrogates without a partner.  A reader takes something from the head of a
text and gives it with the rest of the text.
-/

namespace JsonReader

def isLayout (character : Char) : Bool :=
  character == ' ' || character == '\t' || character == '\n' || character == '\r'

def skip (text : List Char) : List Char :=
  text.dropWhile isLayout

def hexValue? (digit : Char) : Option Nat :=
  if '0' ≤ digit ∧ digit ≤ '9' then some (digit.toNat - 48)
  else if 'a' ≤ digit ∧ digit ≤ 'f' then some (digit.toNat - 87)
  else if 'A' ≤ digit ∧ digit ≤ 'F' then some (digit.toNat - 55)
  else none

/-- Four hexadecimal digits. -/
def readUnit : List Char → Option (Nat × List Char)
  | first :: second :: third :: fourth :: rest => do
      let first ← hexValue? first
      let second ← hexValue? second
      let third ← hexValue? third
      let fourth ← hexValue? fourth
      return (((first * 16 + second) * 16 + third) * 16 + fourth, rest)
  | _ => none

/-- The character of an escape by code whose beginning was read: one unit, or two surrogates for a code
point beyond U+FFFF. -/
def readCodePoint (text : List Char) : Option (Char × List Char) := do
  let (unit, rest) ← readUnit text
  if 0xd800 ≤ unit ∧ unit < 0xdc00 then
    match rest with
    | '\\' :: 'u' :: rest => do
        let (low, rest) ← readUnit rest
        if 0xdc00 ≤ low ∧ low < 0xe000 then
          return (Char.ofNat (0x10000 + (unit - 0xd800) * 0x400 + (low - 0xdc00)), rest)
        else none
    | _ => none
  else if 0xdc00 ≤ unit ∧ unit < 0xe000 then none
  else return (Char.ofNat unit, rest)

/-- The characters that may stand behind a backslash, and what they stand for. -/
def shortEscapes : List (Char × Char) :=
  [('"', '"'), ('\\', '\\'), ('/', '/'), ('b', '\x08'), ('f', '\x0c'), ('n', '\n'), ('r', '\r'),
    ('t', '\t')]

/-- One character of a string. -/
def readCharacter : List Char → Option (Char × List Char)
  | '\\' :: 'u' :: rest => readCodePoint rest
  | '\\' :: short :: rest => (shortEscapes.lookup short).map (·, rest)
  | plain :: rest =>
      if plain = '\\' ∨ plain = '"' ∨ plain.toNat < 0x20 then none else some (plain, rest)
  | [] => none

/-- The rest of a string of at most so many characters, whose opening quote was read. -/
def readString : Nat → List Char → Option (List Char × List Char)
  | _, '"' :: rest => some ([], rest)
  | 0, _ => none
  | limit + 1, text => do
      let (character, rest) ← readCharacter text
      let (characters, rest) ← readString limit rest
      return (character :: characters, rest)

def readNatural (text : List Char) : Option (Nat × List Char) :=
  let digits := text.takeWhile Token.isDigit
  let rest := text.dropWhile Token.isDigit
  if digits = [] ∨ (digits.head? = some '0' ∧ digits ≠ ['0']) ∨
      rest.head? ∈ [some '.', some 'e', some 'E'] then none
  else some (digits.foldl (fun value digit => 10 * value + (digit.toNat - 48)) 0, rest)

def readInteger : List Char → Option (Int × List Char)
  | '-' :: rest => (readNatural rest).map fun (value, rest) => (-value, rest)
  | text => (readNatural text).map fun (value, rest) => (value, rest)

section Rows

variable {α : Type} (readItem : List Char → Option (α × List Char)) (close : Char)

/-- At least one item and at most so many of them, with commas in between, and a closing bracket. -/
def readItems : Nat → List Char → Option (List α × List Char)
  | 0, _ => none
  | limit + 1, text => do
      let (item, rest) ← readItem text
      match skip rest with
      | [] => none
      | mark :: rest =>
          if mark = ',' then
            let (items, rest) ← readItems limit rest
            return (item :: items, rest)
          else if mark = close then return ([item], rest)
          else none

/-- Items in brackets, of which the opening one was read. -/
def readRow (text : List Char) : Option (List α × List Char) :=
  match skip text with
  | [] => none
  | mark :: rest =>
      if mark = close then some ([], rest) else readItems readItem close text.length text

end Rows

def readField (readValue : List Char → Option (Json × List Char)) (text : List Char) :
    Option ((String × Json) × List Char) :=
  match skip text with
  | '"' :: rest => do
      let (key, rest) ← readString rest.length rest
      match skip rest with
      | ':' :: rest => do
          let (value, rest) ← readValue rest
          return ((String.ofList key, value), rest)
      | _ => none
  | _ => none

/-- A document in which at most so many stand in one another. -/
def readValue : Nat → List Char → Option (Json × List Char)
  | 0, _ => none
  | depth + 1, text =>
      match skip text with
      | '"' :: rest =>
          (readString rest.length rest).map fun (value, rest) => (.text (String.ofList value), rest)
      | '[' :: rest =>
          (readRow (readValue depth) ']' rest).map fun (items, rest) => (.array items, rest)
      | '{' :: rest =>
          (readRow (readField (readValue depth)) '}' rest).map fun (fields, rest) =>
            (.object fields, rest)
      | 'n' :: 'u' :: 'l' :: 'l' :: rest => some (.null, rest)
      | text => (readInteger text).map fun (value, rest) => (.integer value, rest)

/-- The document that a whole text is. -/
def read? (text : String) : Option Json :=
  match readValue text.length text.toList with
  | some (document, rest) => if skip rest = [] then some document else none
  | none => none

end JsonReader

end MonkeyLang.Text

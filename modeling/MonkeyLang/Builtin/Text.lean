import MonkeyLang.Builtin.Basic
import MonkeyLang.Text.Blank
import MonkeyLang.Text.Case
import MonkeyLang.Text.Separated

namespace MonkeyLang.Builtin

/-! Builtins on strings: `upper`, `lower`, `split` and `join`. -/

def notAString (builtin : String) (position : Nat) (value : Value) : Script :=
  failed builtin ("argument " ++ toString position ++ " to \x60" ++ builtin ++
    "\x60 must be STRING, got " ++ value.typeName)

/-- Ends with a new array of the given texts. -/
def giveTexts (texts : List (List Char)) : Script :=
  .giveStrings (texts.map String.ofList) []

def upper : Builtin where
  name := "upper"
  arity := ⟨1, some 1⟩
  run
    | .string _ text :: _ => .giveNew (.string · (String.ofList (Text.upper text.toList)))
    | value :: _ => notAString "upper" 1 value
    | [] => .give none

def lower : Builtin where
  name := "lower"
  arity := ⟨1, some 1⟩
  run
    | .string _ text :: _ => .giveNew (.string · (String.ofList (Text.lower text.toList)))
    | value :: _ => notAString "lower" 1 value
    | [] => .give none

/-- With a separator cuts at its occurrences, without one gives the words. -/
def split : Builtin where
  name := "split"
  arity := ⟨1, some 2⟩
  run
    | [.string _ text] => giveTexts (Text.words text.toList)
    | .string _ text :: .string _ separator :: _ =>
        if separator.isEmpty then failed "split" "empty separator passed to \x60split\x60"
        else giveTexts (Text.splitAt separator.toList text.toList)
    | .string _ _ :: value :: _ => notAString "split" 2 value
    | value :: _ => notAString "split" 1 value
    | [] => .give none

/-- The texts of strings, or the first value that is none. -/
def texts : List Value → Except Value (List (List Char))
  | [] => .ok []
  | .string _ text :: values =>
      match texts values with
      | .ok others => .ok (text.toList :: others)
      | .error value => .error value
  | value :: _ => .error value

def joined (separator : List Char) (items : List Value) : Script :=
  match texts items with
  | .ok pieces => .giveNew (.string · (String.ofList (Text.join separator pieces)))
  | .error value =>
      failed "join" ("\x60join\x60 expects an array of STRING, got element " ++ value.typeName)

def join : Builtin where
  name := "join"
  arity := ⟨1, some 2⟩
  run
    | [.array _ items] => joined [] items
    | .array _ items :: .string _ separator :: _ => joined separator.toList items
    | .array _ _ :: value :: _ => notAString "join" 2 value
    | value :: _ =>
        failed "join" ("argument 1 to \x60join\x60 must be ARRAY, got " ++ value.typeName)
    | [] => .give none

def strings : List Builtin := [upper, lower, split, join]

end MonkeyLang.Builtin

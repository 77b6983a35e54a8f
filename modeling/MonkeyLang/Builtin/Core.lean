import MonkeyLang.Arithmetic
import MonkeyLang.Builtin.Basic
import MonkeyLang.Value.Inspect

namespace MonkeyLang.Builtin

/-! The builtins of every run: `len`, `first`, `last`, `rest`, `push` and `puts`. -/

def notAnArray (builtin : String) (value : Value) : Script :=
  failed builtin ("argument to \x60" ++ builtin ++ "\x60 must be ARRAY, got " ++ value.typeName)

def len : Builtin where
  name := "len"
  arity := ⟨1, some 1⟩
  run
    | .array _ items :: _ => .giveNew (.integer · (counted items.length))
    | .string _ text :: _ => .giveNew (.integer · (counted text.length))
    | value :: _ => failed "len" ("argument to \x60len\x60 not supported, got " ++ value.typeName)
    | [] => .give none

def first : Builtin where
  name := "first"
  arity := ⟨1, some 1⟩
  run
    | .array _ items :: _ => .give (some (items.headD .null))
    | value :: _ => notAnArray "first" value
    | [] => .give none

def last : Builtin where
  name := "last"
  arity := ⟨1, some 1⟩
  run
    | .array _ items :: _ => .give (some (items.getLastD .null))
    | value :: _ => notAnArray "last" value
    | [] => .give none

def rest : Builtin where
  name := "rest"
  arity := ⟨1, some 1⟩
  run
    | .array _ [] :: _ => .give (some .null)
    | .array _ (_ :: items) :: _ => .giveNew (.array · items)
    | value :: _ => notAnArray "rest" value
    | [] => .give none

def push : Builtin where
  name := "push"
  arity := ⟨2, some 2⟩
  run
    | .array _ items :: item :: _ => .giveNew (.array · (items ++ [item]))
    | value :: _ => notAnArray "push" value
    | [] => .give none

/-- Prints one line for each value and gives `null`. -/
def printAll : List Value → Script
  | [] => .give (some .null)
  | value :: values => .print value.inspect (printAll values)

def puts : Builtin where
  name := "puts"
  arity := ⟨0, none⟩
  run := printAll

def core : List Builtin := [len, first, last, rest, push, puts]

end MonkeyLang.Builtin

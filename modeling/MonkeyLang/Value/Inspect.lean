import MonkeyLang.Syntax.Render
import MonkeyLang.Value.Basic

namespace MonkeyLang

/-! The text of a value, as `puts` and the dialogue show it, and its short form in snapshots. -/

def Key.inspect : Key → String
  | .integer _ value => toString value
  | .boolean value => if value then "true" else "false"
  | .string _ text => text

namespace Value

mutual

def inspect : Value → String
  | integer _ value => toString value
  | boolean value => if value then "true" else "false"
  | null => "null"
  | string _ text => text
  | array _ items => "[" ++ inspectAll items ++ "]"
  | hash _ entries => "\x7b" ++ inspectEntries entries ++ "\x7d"
  | function _ parameters body _ =>
      "fn(" ++ Node.renderNames parameters ++ ") \x7b\n" ++ Node.renderAll body.statements ++ "\n\x7d"
  | builtin .. => "built-in function"
  | returned value => value.inspect
  | failed failure => "ERROR: " ++ failure.message

def inspectAll : List Value → String
  | [] => ""
  | [item] => item.inspect
  | item :: next :: items => item.inspect ++ ", " ++ inspectAll (next :: items)

def inspectEntries : List (Key × Value) → String
  | [] => ""
  | [(key, value)] => key.inspect ++ ":" ++ value.inspect
  | (key, value) :: next :: entries =>
      key.inspect ++ ":" ++ value.inspect ++ ", " ++ inspectEntries (next :: entries)

end

mutual

/-- How deep the parts of a value's text stand inside one another. -/
def depth : Value → Nat
  | integer .. | boolean _ | null | string .. | builtin .. | failed _ => 1
  | array _ items => depthOfAll items + 1
  | hash _ entries => depthOfEntries entries + 1
  | function _ _ body _ => Node.depthOfAll body.statements + 1
  | returned value => value.depth + 1

def depthOfAll : List Value → Nat
  | [] => 0
  | item :: items => max item.depth (depthOfAll items)

def depthOfEntries : List (Key × Value) → Nat
  | [] => 0
  | (_, value) :: entries => max value.depth (depthOfEntries entries)

end

/-- Longest text that a snapshot shows in full. -/
def snapshotWidth : Nat := 80

/-- Type and text of a binding.  A function shows its parameters only, and a text that is too long
is cut off. -/
def snapshot (value : Value) : String :=
  let text :=
    match value with
    | function _ parameters _ _ => "fn(" ++ Node.renderNames parameters ++ ")"
    | other => other.inspect
  let shown :=
    if text.length > snapshotWidth then
      String.ofList (text.toList.take (snapshotWidth - 3)) ++ "..."
    else text
  value.typeName ++ ":" ++ shown

end Value

end MonkeyLang

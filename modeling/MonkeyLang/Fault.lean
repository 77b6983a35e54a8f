import MonkeyLang.Syntax.Parse
import MonkeyLang.Trace.Basic

namespace MonkeyLang

/-! Faults: what breaks a run off, as opposed to failures, which are values of the language. -/

/-- Kinds of errors that foreign code raises. -/
inductive ForeignKind where
  | value | type | index
deriving DecidableEq, Repr

inductive Fault where
  /-- The text of the named file does not parse. -/
  | unparsable (file : String) (errors : List SyntaxError)
  /-- A fault of the run itself, of a builtin or of a hook. -/
  | runtime (failure : Failure)
  /-- Any error that a builtin or a hook raises without knowing about runs. -/
  | foreign (kind : ForeignKind) (message : String)
  /-- An integer of the text is written with too many digits. -/
  | digits (count : Nat)
  /-- Evaluation, reading or rendering nests too deeply. -/
  | depth
deriving DecidableEq, Repr

namespace Fault

def ofBreakoff : Breakoff → Fault
  | .tooDeep => .depth
  | .tooManyDigits count => .digits count

def digitsMessage (count : Nat) : String :=
  "Exceeds the limit (" ++ toString Parse.digitLimit ++
    " digits) for integer string conversion: value has " ++ toString count ++
    " digits; use sys.set_int_max_str_digits() to increase the limit"

def message : Fault → String
  | unparsable file errors =>
      (if file.isEmpty then "" else file ++ ": ") ++ "; ".intercalate (errors.map (·.message))
  | runtime failure => failure.message
  | foreign _ message => message
  | digits count => digitsMessage count
  | depth => "maximum recursion depth exceeded"

end Fault

end MonkeyLang

import MonkeyLang.Builtin.Basic
import MonkeyLang.Machine

namespace MonkeyLang

/-- What never changes during a run. -/
structure Setting where
  /-- The file that locations name. -/
  file : String
  /-- Whether steps keep the bindings of their frame. -/
  verbose : Bool
  builtins : List Builtin
  hooks : Hooks

/-- A machine that has run nothing.  The builtins have the first identities. -/
def Machine.initial (setting : Setting) : Machine where
  scopes := .empty
  nextObject := setting.builtins.length
  lines := #[]
  steps := .empty
  stack := []
  nextSerial := 0
  printed := #[]
  recorded := #[]
  hookCalls := Array.replicate setting.hooks.count 0
  exhausted := false

end MonkeyLang

import MonkeyLang.Fault
import MonkeyLang.Trace.Traceback
import MonkeyLang.Value.Basic

namespace MonkeyLang

/-! What a run announces to hooks, and how hooks answer. -/

inductive Event where
  | programStart | beforeStatement | afterStatement | beforeCall | afterCall | onError | programEnd
deriving DecidableEq, Repr

namespace Event

/-- All events, in the order in which they first occur. -/
def all : List Event :=
  [programStart, beforeStatement, afterStatement, beforeCall, afterCall, onError, programEnd]

def name : Event → String
  | programStart => "program_start"
  | beforeStatement => "before_statement"
  | afterStatement => "after_statement"
  | beforeCall => "before_call"
  | afterCall => "after_call"
  | onError => "on_error"
  | programEnd => "program_end"

def ofName? (name : String) : Option Event :=
  all.find? fun event => event.name == name

theorem ofName?_name (event : Event) : ofName? event.name = some event := by
  cases event <;> decide

end Event

/-- One announcement with all that belongs to it. -/
inductive Notice where
  | programStart (program : Node)
  | beforeStatement (statement : Node) (scope : ScopeId)
  | afterStatement (statement : Node) (scope : ScopeId)
  | beforeCall (name : String) (arguments : List Value) (scope : Option ScopeId)
      (site : Option Location)
  | afterCall (name : String) (result : Option Value) (scope : Option ScopeId)
      (site : Option Location)
  | onError (kind : FailureClass) (failure : Failure)
  | programEnd (result : Option Value)

def Notice.event : Notice → Event
  | programStart _ => .programStart
  | beforeStatement .. => .beforeStatement
  | afterStatement .. => .afterStatement
  | beforeCall .. => .beforeCall
  | afterCall .. => .afterCall
  | onError .. => .onError
  | programEnd _ => .programEnd

/-- What a hook sees of the run besides the notice: how often it was called before, and how many
frames are open. -/
structure Circumstance where
  earlier : Nat
  frames : Nat
deriving DecidableEq, Repr

inductive Reaction where
  | ignore
  | record
  | print (line : String)
  | raise (fault : Fault)

/-- A subscription to an event.  The serial number tells hooks of one registry apart. -/
structure Hook where
  extension : String
  priority : Int
  serial : Nat
  react : Circumstance → Notice → Reaction

/-- The hooks of every event, in the order in which they are called. -/
structure Hooks where
  count : Nat
  of : Event → List Hook

namespace Hooks

def none : Hooks := ⟨0, fun _ => []⟩

/-- Puts a hook behind those of its own and of higher priority. -/
def place (hook : Hook) : List Hook → List Hook
  | [] => [hook]
  | other :: others =>
      if other.priority < hook.priority then hook :: other :: others
      else other :: place hook others

def add (hooks : Hooks) (event : Event) (extension : String) (priority : Int)
    (react : Circumstance → Notice → Reaction) : Hooks where
  count := hooks.count + 1
  of := fun other =>
    if other = event then place ⟨extension, priority, hooks.count, react⟩ (hooks.of other)
    else hooks.of other

end Hooks

end MonkeyLang

import MonkeyLang.Extension.Event
import MonkeyLang.Scope
import MonkeyLang.Text.Blank
import MonkeyLang.Text.Lines
import MonkeyLang.Trace.Steps

namespace MonkeyLang

/-! The state of a run and its elementary operations. -/

/-- A line of output: from a program, or from a hook. -/
structure Printed where
  text : String
  byProgram : Bool
deriving DecidableEq, Repr

/-- What a recording hook keeps of a notice. -/
inductive Details where
  | program (text : String)
  | statement (form text : String) (bindings : List (String × String))
  | callOpened (name : String) (arguments : List String)
      (bindings : Option (List (String × String))) (site : Option Location)
  | callClosed (name : String) (result : Option String)
      (bindings : Option (List (String × String))) (site : Option Location)
  | error (kind : FailureClass) (message : String)
  | result (text : Option String)
deriving DecidableEq, Repr

structure Recorded where
  extension : String
  event : Event
  frames : Nat
  steps : Nat
  details : Details
deriving DecidableEq, Repr

structure Machine where
  scopes : Scopes
  /-- The identity that the next object gets. -/
  nextObject : ObjectId
  /-- The lines of the text that is running, trimmed. -/
  lines : Array String
  steps : StepLog
  /-- Open frames, innermost first. -/
  stack : List Frame
  nextSerial : Nat
  printed : Array Printed
  recorded : Array Recorded
  /-- How often each hook was called, by its serial number. -/
  hookCalls : Array Nat
  /-- Whether a run was broken off for its depth. -/
  exhausted : Bool

namespace Machine

/-- The trimmed lines of a text. -/
def trimmedLines (text : String) : Array String :=
  ((Text.lines text.toList).map fun line => String.ofList (Text.trimmed line)).toArray

def openCalls (machine : Machine) : List OpenCall :=
  MonkeyLang.openCalls machine.steps machine.stack

/-- A failure with the place and the open calls of the moment. -/
def failure (machine : Machine) (message : String) (origin : Option String) : Failure where
  message := message
  origin := origin
  location := machine.steps.last.bind (·.location)
  step := machine.steps.last.map (·.index)
  calls := machine.openCalls

/-- Opens a frame; the new frame comes first in the stack. -/
def pushFrame (machine : Machine) (name : String) (scope : ScopeId) (site : Option Location) :
    Machine :=
  { machine with
    stack := ⟨name, scope, machine.nextSerial, site⟩ :: machine.stack
    nextSerial := machine.nextSerial + 1 }

/-- Closes whatever frame is innermost, and forgets the step of the frame with a serial number. -/
def closeFrame (machine : Machine) (serial : Nat) : Machine :=
  { machine with stack := machine.stack.tail, steps := machine.steps.forget serial }

/-- Closes frames from the innermost on, up to and including the one with the serial number; all of
them if there is none. -/
def unwindStack (serial : Nat) : List Frame → StepLog → List Frame × StepLog
  | [], log => ([], log)
  | frame :: frames, log =>
      let log := log.forget frame.serial
      if frame.serial = serial then (frames, log) else unwindStack serial frames log

def unwind (machine : Machine) (serial : Nat) : Machine :=
  let (stack, steps) := unwindStack serial machine.stack machine.steps
  { machine with stack := stack, steps := steps }

/-- What closes a frame: one step, or unwinding down to it. -/
inductive Closing where
  | innermost | unwinding

def close (machine : Machine) (serial : Nat) : Closing → Machine
  | .innermost => machine.closeFrame serial
  | .unwinding => machine.unwind serial

/-- Logs a step in the innermost frame. -/
def logStep (machine : Machine) (verbose : Bool) (form : String) (location : Option Location)
    (callee : Option String) : Machine :=
  let frame := machine.stack.head?
  let bindings :=
    match verbose, frame with
    | true, some frame => some (machine.scopes.snapshot frame.scope)
    | _, _ => none
  let step : Step := ⟨machine.steps.count, form, location, callee, bindings⟩
  { machine with steps := machine.steps.record (frame.map (·.serial)) step }

end Machine

end MonkeyLang

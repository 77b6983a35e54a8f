import MonkeyLang.Trace.Basic
import MonkeyLang.Value.Basic

namespace MonkeyLang

/-! The step log and the stack of open calls. -/

/-- A call that is being evaluated, or the top level. -/
structure Frame where
  name : String
  scope : ScopeId
  serial : Nat
  site : Option Location
deriving DecidableEq, Repr

/-- The number of steps logged, the latest of them, and the latest in each frame that is still open,
under the frame's serial number. -/
structure StepLog where
  count : Nat
  last : Option Step
  latest : List (Nat × Step)
deriving DecidableEq, Repr

namespace StepLog

def empty : StepLog := ⟨0, none, []⟩

def forget (log : StepLog) (serial : Nat) : StepLog :=
  { log with latest := log.latest.filter fun entry => entry.1 != serial }

/-- Logs a step in the given frame, which comes first in the record. -/
def record (log : StepLog) (frame : Option Nat) (step : Step) : StepLog where
  count := log.count + 1
  last := some step
  latest :=
    match frame with
    | some serial => (serial, step) :: (log.forget serial).latest
    | none => log.latest

def forFrame (log : StepLog) (serial : Nat) : Option Step :=
  log.latest.lookup serial

/-- The serial numbers of frames with a step, ascending. -/
def live (log : StepLog) : List Nat :=
  (log.latest.map (·.1)).mergeSort

end StepLog

/-- The open calls as a traceback shows them, from a stack that begins with the innermost.  A frame
without a step is shown where it was called. -/
def openCalls (log : StepLog) (stack : List Frame) : List OpenCall :=
  stack.reverse.map fun frame =>
    match log.forFrame frame.serial with
    | some step => ⟨frame.name, step.location, some step⟩
    | none => ⟨frame.name, frame.site, none⟩

end MonkeyLang

import MonkeyLang.Session

namespace MonkeyLang

/-! What can be told after a step or a run.

Once a run was broken off for its depth the number of steps is not known any more: everything that
depends on it is left out of later reports.
-/

def Failure.withoutStep (failure : Failure) : Failure :=
  { failure with location := none, step := none }

namespace Value

mutual

/-- The value with the places and step numbers of its failures left out. -/
def withoutSteps : Value → Value
  | array id items => .array id (withoutStepsAll items)
  | hash id entries => .hash id (withoutStepsEntries entries)
  | returned value => .returned value.withoutSteps
  | failed failure => .failed failure.withoutStep
  | other => other

def withoutStepsAll : List Value → List Value
  | [] => []
  | item :: items => item.withoutSteps :: withoutStepsAll items

def withoutStepsEntries : List (Key × Value) → List (Key × Value)
  | [] => []
  | (key, value) :: entries => (key, value.withoutSteps) :: withoutStepsEntries entries

end

end Value

/-- The failure that a step ended in, if it did. -/
def Outcome.failure? : Except Fault Outcome → Option (FailureClass × Failure)
  | .ok (.value (some (.failed failure))) => some (.language, failure)
  | .error (.runtime failure) => some (.host, failure)
  | _ => none

structure Report where
  outcome : Except Fault Outcome
  output : List String
  recorded : List Recorded
  /-- Whether step numbers are known. -/
  counted : Bool
  steps : Nat
  depth : Nat
  live : List Nat
  /-- The traceback of a step that ended in a failure. -/
  text : Option String
  json : Option String

namespace Report

def knownOutcome (counted : Bool) : Except Fault Outcome → Except Fault Outcome
  | .ok (.value (some value)) =>
      .ok (.value (some (if counted then value else value.withoutSteps)))
  | .error (.runtime failure) =>
      .error (.runtime (if counted then failure else failure.withoutStep))
  | other => other

/-- What a machine shows after it came to an outcome.  A failure that captured no calls is shown with
those that are open now. -/
def make (setting : Setting) (machine : Machine) (outcome : Except Fault Outcome) : Report :=
  let counted := !machine.exhausted
  let traced := (Outcome.failure? outcome).map fun (kind, failure) =>
    (kind, failure, if failure.calls.isEmpty then machine.openCalls else failure.calls)
  { outcome := knownOutcome counted outcome
    output := (machine.printed.toList.filter (·.byProgram)).map (·.text)
    recorded := machine.recorded.toList
    counted := counted
    steps := machine.steps.count
    depth := machine.stack.length
    live := machine.steps.live
    text :=
      if counted || !setting.verbose then
        traced.map fun (kind, failure, calls) =>
          Traceback.text setting.verbose kind failure.message calls
      else none
    json :=
      if counted then traced.map fun (kind, failure, calls) => Traceback.json kind failure calls
      else none }

end Report

namespace Session

def report (session : Session) (outcome : Except Fault Outcome) : Report :=
  .make session.setting session.machine outcome

/-- The reports on requests carried out one after the other. -/
def reports : Session → List Request → List Report
  | _, [] => []
  | session, request :: requests =>
      let (outcome, session) := session.perform request
      session.report outcome :: session.reports requests

end Session

/-- The report on one run of a text. -/
def Setting.report (setting : Setting) (text : String) : Report :=
  match setting.run text (Machine.initial setting) with
  | .ok result after => .make setting after (.ok (.value result))
  | .error fault after => .make setting after (.error fault)

end MonkeyLang

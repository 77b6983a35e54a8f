import MonkeyLang.Evaluation.Evaluate
import MonkeyLang.Value.Recipe

namespace MonkeyLang

/-! Sessions: several steps on one machine and one outermost scope, and what a step shows. -/

/-- What a step results in. -/
inductive Outcome where
  | value (result : Option Value)
  | bindings (bindings : List (String × String))
  | serial (serial : Nat)
  | names (names : List String)

/-- What a host may do with a session. -/
inductive Request where
  | execute (text : String)
  | apply (callee : Recipe) (arguments : List Recipe) (name : String)
  | invoke (builtin : String) (arguments : List Recipe)
  | bind (name : String) (value : Recipe)
  | find (name : String)
  | snapshot
  | pushFrame (name : String) (site : Option Location)
  /-- Closes the frame that was pushed by the session's so-manieth push, and all inside it. -/
  | popFrame (push : Nat)
  | fail (message : String) (origin : Option String)

structure Session where
  setting : Setting
  machine : Machine
  scope : ScopeId
  /-- The serial numbers of the frames that the session pushed, in order. -/
  pushed : List Nat

namespace Session

/-- A session with an outermost scope, and with a top-level frame if asked for. -/
def start (setting : Setting) (withFrame : Bool) : Session :=
  let machine := Machine.initial setting
  let scope := machine.scopes.size
  let machine := { machine with scopes := machine.scopes.add none }
  if withFrame then
    ⟨setting, machine.pushFrame topLevel scope none, scope, [machine.nextSerial]⟩
  else ⟨setting, machine, scope, []⟩

/-- What a request makes the machine do, requests about the stack excepted. -/
def effect (session : Session) : Request → Eval Outcome
  | .execute text => return .value (← session.setting.execute text session.scope)
  | .apply callee arguments name => do
      let callee ← callee.make session.scope
      let arguments ← Recipe.makeAll session.scope arguments
      return .value (← apply session.setting depthLimit callee arguments name none)
  | .invoke builtin arguments => do
      let arguments ← Recipe.makeAll session.scope arguments
      match session.setting.builtins.find? (·.name == builtin) with
      | some found =>
          return .value (← Eval.invoke session.setting (evaluate session.setting depthLimit)
            (apply session.setting depthLimit) found.name found.arity arguments)
      | none => return .value none
  | .bind name value => do
      let value ← value.make session.scope
      return .value (some (← Eval.bind session.scope name value))
  | .find name => return .value ((← get).scopes.find? session.scope name)
  | .snapshot => return .bindings ((← get).scopes.snapshot session.scope)
  | .pushFrame name site => do
      let serial := (← get).nextSerial
      modify fun machine => machine.pushFrame name session.scope site
      return .serial serial
  | .popFrame push =>
      match session.pushed[push]? with
      | some serial => do
          modify fun machine => machine.unwind serial
          return .names ((← get).stack.reverse.map (·.name))
      | none => Eval.raise (.foreign .index "list index out of range")
  | .fail message origin => return .value (some (← Eval.fail message origin))

/-- Carries a request out.  What the machine printed and recorded before is cleared. -/
def perform (session : Session) (request : Request) : Except Fault Outcome × Session :=
  let machine := { session.machine with printed := #[], recorded := #[] }
  match session.effect request machine with
  | .ok (.serial serial) after =>
      (.ok (.serial serial),
        { session with machine := after, pushed := session.pushed ++ [serial] })
  | .ok outcome after => (.ok outcome, { session with machine := after })
  | .error fault after =>
      (.error fault,
        { session with
          machine := { after with exhausted := after.exhausted || fault == .depth } })

end Session

end MonkeyLang

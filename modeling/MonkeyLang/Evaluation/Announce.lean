import MonkeyLang.Evaluation.Course

namespace MonkeyLang

/-! Announcing events to hooks.

Hooks are called in their order until one of them raises a fault.  A runtime fault goes on as it is,
and so does one of depth; any other is reported as a failure of the hook.
-/

/-- How deep a tree may be to have a text. -/
def renderLimit : Nat := 10000

/-- The text of a tree that is not too deep. -/
def Node.render? (node : Node) : Option String :=
  if node.depth ≤ renderLimit then some node.render else none

namespace Notice

/-- What a recording hook keeps, unless a tree in it is too deep. -/
def details? (scopes : Scopes) : Notice → Option Details
  | programStart program => program.render?.map .program
  | beforeStatement statement scope | afterStatement statement scope =>
      statement.render?.map (.statement statement.formName · (scopes.snapshot scope))
  | beforeCall name arguments scope site =>
      some (.callOpened name (arguments.map (·.inspect)) (scope.map scopes.snapshot) site)
  | afterCall name result scope site =>
      some (.callClosed name (result.map (·.inspect)) (scope.map scopes.snapshot) site)
  | onError kind failure => some (.error kind failure.message)
  | programEnd result => some (.result (result.map (·.inspect)))

end Notice

/-- A hook's fault as the run sees it. -/
def Hook.fault (hook : Hook) (event : Event) : Fault → Fault
  | .runtime failure => .runtime failure
  | .depth => .depth
  | other =>
      .runtime (.bare ("Extension hook '" ++ event.name ++ "' failed: " ++ other.message ++
        " (extension '" ++ hook.extension ++ "')") (some event.name))

namespace Machine

def hookCall (machine : Machine) (hook : Hook) : Machine :=
  { machine with hookCalls := machine.hookCalls.modify hook.serial (· + 1) }

def circumstance (machine : Machine) (hook : Hook) : Circumstance :=
  ⟨machine.hookCalls.getD hook.serial 0, machine.stack.length⟩

def record (machine : Machine) (hook : Hook) (event : Event) (details : Details) : Machine :=
  { machine with
    recorded := machine.recorded.push
      ⟨hook.extension, event, machine.stack.length, machine.steps.count, details⟩ }

end Machine

namespace Eval

def callHook (hook : Hook) (notice : Notice) : Eval Unit := do
  let before ← modifyGet fun machine => (machine, machine.hookCall hook)
  match hook.react (before.circumstance hook) notice with
  | .ignore => return ()
  | .print line => print line false
  | .raise fault => raiseFor (.hook notice.event) (hook.fault notice.event fault)
  | .record =>
      match notice.details? before.scopes with
      | some details => modify fun machine => machine.record hook notice.event details
      | none => raiseFor (.hook notice.event) .depth

def callHooks : List Hook → Notice → Eval Unit
  | [], _ => return ()
  | hook :: hooks, notice => do
      callHook hook notice
      callHooks hooks notice

def announce (hooks : Hooks) (notice : Notice) : Eval Unit := do
  note fun machine => .announced ⟨notice, machine⟩
  callHooks (hooks.of notice.event) notice

end Eval

end MonkeyLang

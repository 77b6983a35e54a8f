import MonkeyLang.Builtin.Basic

namespace MonkeyLang

/-! Builtins and hooks by description: what a small extension does, said in a word. -/

/-- What a described builtin does.  Its subject is its first argument, or `null` if there is none. -/
inductive Behaviour where
  /-- Gives the subject. -/
  | echo
  /-- Gives no value. -/
  | nothing
  /-- Raises an error that knows nothing of runs. -/
  | raise (message : String)
  /-- Raises a runtime fault. -/
  | fault (message : String)
  /-- Gives the subject as a returned value. -/
  | giveBack
  /-- Fails at the place of the moment. -/
  | fail (message : String)
  /-- Fails at no place. -/
  | failNowhere (message : String)
  /-- Applies the subject to the other arguments. -/
  | apply
  /-- Binds a name to the subject in the innermost frame. -/
  | define (name : String)
  /-- Tries to bind a name to the subject as a returned value. -/
  | defineReturned (name : String)
  /-- Runs the subject as a text in the innermost frame. -/
  | execute
  /-- Gives the names of the open frames. -/
  | frames
deriving DecidableEq, Repr

namespace Behaviour

def subject (arguments : List Value) : Value := arguments.headD .null

/-- Binds a name in the scope of the innermost frame, and gives what it is bound to. -/
def bindInInnermost (name : String) (value : Value) : Script :=
  .inInnermost fun scope => .define scope name value fun bound => .give (some bound)

def script (builtin : String) (arguments : List Value) : Behaviour → Script
  | echo => .give (some (subject arguments))
  | nothing => .give none
  | raise message => .raise (.foreign .value message)
  | fault message => .raise (.runtime (.bare message (some builtin)))
  | giveBack => .give (some (.returned (subject arguments)))
  | fail message => .fail message (some builtin)
  | failNowhere message => .give (some (.failed (.bare message none)))
  | apply => .applying (subject arguments) arguments.tail anonymous none .give
  | define name => bindInInnermost name (subject arguments)
  | defineReturned name => bindInInnermost name (.returned (subject arguments))
  | execute =>
      match subject arguments with
      | .string _ text =>
          .inInnermost fun scope =>
            .executing text scope fun result => .give (some (result.getD .null))
      | _ => .raise (.foreign .value "exec wants STRING")
  | frames => .inspect fun machine => .giveStrings (machine.stack.reverse.map (·.name)) []

/-- A described behaviour by its short name, with the text that belongs to it. -/
def ofName? (name text : String) : Option Behaviour :=
  match name with
  | "echo" => some echo
  | "none" => some nothing
  | "raise" => some (raise text)
  | "fault" => some (fault text)
  | "ret" => some giveBack
  | "err" => some (fail text)
  | "rawerr" => some (failNowhere text)
  | "apply" => some apply
  | "define" => some (define text)
  | "bindret" => some (defineReturned text)
  | "exec" => some execute
  | "frames" => some frames
  | _ => none

def builtin (behaviour : Behaviour) (name : String) (arity : Arity) : Builtin where
  name := name
  arity := arity
  run := fun arguments => behaviour.script name arguments

end Behaviour

/-- What a described hook does. -/
inductive HookAction where
  | record
  /-- Raises an error that knows nothing of runs, at one call only. -/
  | fail (call : Nat) (message : String)
  /-- Raises a runtime fault, at one call only. -/
  | fault (call : Nat) (message : String)
deriving DecidableEq, Repr

namespace HookAction

def react : HookAction → Circumstance → Notice → Reaction
  | record, _, _ => .record
  | fail call message, circumstance, _ =>
      if circumstance.earlier + 1 = call then .raise (.foreign .value message) else .ignore
  | fault call message, circumstance, _ =>
      if circumstance.earlier + 1 = call then .raise (.runtime (.bare message (some "hook")))
      else .ignore

def ofName? (name : String) (call : Nat) (message : String) : Option HookAction :=
  match name with
  | "record" => some record
  | "fail" => some (fail call message)
  | "runtime" => some (fault call message)
  | _ => none

end HookAction

end MonkeyLang

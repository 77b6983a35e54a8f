import MonkeyLang.Machine

namespace MonkeyLang

/-! Builtins.

A builtin is a script for each list of arguments: what it asks of the run, one request after the
other, and what it gives in the end.  A fault that ends a request ends the script too, unless the
script catches it.
-/

/-- The name of a call whose callee has none. -/
def anonymous : String := "<anonymous>"

inductive Script where
  /-- Ends with a value, or with none. -/
  | give (result : Option Value)
  /-- Breaks the run off. -/
  | raise (fault : Fault)
  /-- Ends with a failure that carries the place and the open calls of the moment. -/
  | fail (message : String) (origin : Option String)
  /-- Makes a new object. -/
  | create (make : ObjectId → Value) (next : Value → Script)
  | print (line : String) (next : Script)
  /-- Applies a value under a name, at a place, and goes on with the result or a caught fault. -/
  | apply (callee : Value) (arguments : List Value) (name : String) (site : Option Location)
      (catches : Fault → Bool) (next : Except Fault (Option Value) → Script)
  /-- Runs a text in a scope, and goes on with the result or a caught fault. -/
  | execute (text : String) (scope : ScopeId) (catches : Fault → Bool)
      (next : Except Fault (Option Value) → Script)
  /-- Binds a name in a scope. -/
  | define (scope : ScopeId) (name : String) (value : Value) (next : Value → Script)
  /-- Looks at the state of the run. -/
  | inspect (next : Machine → Script)

namespace Script

/-- Goes on with a result.  A fault that has been caught all the same is raised anew. -/
def onResult (next : Option Value → Script) : Except Fault (Option Value) → Script
  | .ok result => next result
  | .error fault => .raise fault

/-- Applies a value, and catches nothing. -/
def applying (callee : Value) (arguments : List Value) (name : String) (site : Option Location)
    (next : Option Value → Script) : Script :=
  .apply callee arguments name site (fun _ => false) (onResult next)

/-- Runs a text, and catches nothing. -/
def executing (text : String) (scope : ScopeId) (next : Option Value → Script) : Script :=
  .execute text scope (fun _ => false) (onResult next)

end Script

/-- Goes on with the scope of the innermost frame. -/
def Script.inInnermost (next : ScopeId → Script) : Script :=
  .inspect fun machine =>
    match machine.stack with
    | frame :: _ => next frame.scope
    | [] => .raise (.foreign .index "list index out of range")

/-- Ends with a new object. -/
def Script.giveNew (make : ObjectId → Value) : Script :=
  .create make fun value => .give (some value)

/-- Ends with a new array of new strings, made in order behind the values made before (last one
first); the array is made last. -/
def Script.giveStrings : List String → List Value → Script
  | [], made => .giveNew (.array · made.reverse)
  | text :: texts, made =>
      .create (.string · text) fun value => giveStrings texts (value :: made)

def Arity.accepts (arity : Arity) (supplied : Nat) : Bool :=
  arity.least ≤ supplied &&
    match arity.most with
    | none => true
    | some most => supplied ≤ most

/-- The bound that a refused number of arguments offends. -/
def Arity.wanted (arity : Arity) (supplied : Nat) : Int :=
  if (supplied : Int) < arity.least then arity.least else arity.most.getD arity.least

structure Builtin where
  name : String
  arity : Arity
  run : List Value → Script

namespace Builtin

def failed (builtin message : String) : Script := .fail message (some builtin)

end Builtin

end MonkeyLang

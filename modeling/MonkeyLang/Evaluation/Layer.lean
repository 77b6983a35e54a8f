import MonkeyLang.Evaluation.Announce
import MonkeyLang.Evaluation.Operators
import MonkeyLang.Setting

namespace MonkeyLang

/-! One layer of evaluation.

The functions here evaluate a node, apply a value and run a text, given how to evaluate nodes and
apply values one layer further down.
-/

/-- The value of a node in a scope, if it has one. -/
abbrev Evaluator := Node → ScopeId → Eval (Option Value)

/-- The result of a value applied to arguments under a name, at a place. -/
abbrev Applier := Value → List Value → String → Option Location → Eval (Option Value)

def topLevel : String := "<top-level>"

namespace Setting

/-- A builtin by its name, as a value. -/
def builtinValue? (setting : Setting) (name : String) : Option Value :=
  match setting.builtins.findIdx? (·.name == name) with
  | some id => (setting.builtins[id]?).map fun builtin => .builtin id builtin.name builtin.arity
  | none => none

/-- The script of a builtin for some arguments. -/
def script (setting : Setting) (name : String) (arguments : List Value) : Script :=
  match setting.builtins.find? (·.name == name) with
  | some builtin => builtin.run arguments
  | none => .give none

end Setting

namespace Eval

section Layer

variable (setting : Setting) (evaluate : Evaluator) (apply : Applier)

/-- The place of a node: its token's line of the running text, or the node's own text if the text
has no such line. -/
def locate (node : Node) : Eval Location := do
  let place := node.token
  let lines := (← get).lines
  match (if place.line = 0 then none else lines[place.line - 1]?) with
  | some line => return ⟨setting.file, place.line, place.column, line⟩
  | none =>
      match node.render? with
      | some text => return ⟨setting.file, place.line, place.column, text⟩
      | none => raise .depth

/-- The value that a node has to have. -/
def require (node : Node) : Option Value → Eval Value
  | some value => return value
  | none => do
      let location ← locate setting node
      raise (.runtime ⟨node.formName ++ " produced no value", some node.formName, some location,
        none, []⟩)

/-- Goes on with a result unless it is a signal, which is then the result of the whole. -/
def unlessSignal (result : Option Value) (go : Option Value → Eval (Option Value)) :
    Eval (Option Value) :=
  match result with
  | some value => if value.isSignal then return some value else go (some value)
  | none => go none

/-- The node that stands for a statement: an expression statement is its expression. -/
def content : Node → Node
  | .expressionStatement _ expression => expression
  | statement => statement

/-- Runs a body between two events, after its step was logged. -/
@[inline]
def bracket (opening : Notice) (log : Eval Unit) (body : Eval (Option Value))
    (closing : Option Value → Notice) : Eval (Option Value) := do
  announce setting.hooks opening
  log
  let result ← body
  announce setting.hooks (closing result)
  return result

def logStatement (statement : Node) : Eval Unit := do
  let location ← locate setting statement
  logStep setting.verbose statement.formName (some location) none

def inStatement (statement : Node) (scope : ScopeId) (body : Eval (Option Value)) :
    Eval (Option Value) :=
  bracket setting (.beforeStatement statement scope) (logStatement setting statement) body
    fun _ => .afterStatement statement scope

/-- Runs statements in a row.  The result is that of the last statement with a value, or the first
signal. -/
def statements (scope : ScopeId) : List Node → Option Value → Eval (Option Value)
  | [], result => return result
  | statement :: others, result => do
      match ← inStatement setting statement scope (evaluate (content statement) scope) with
      | some value =>
          if value.isSignal then return some value else statements scope others (some value)
      | none => statements scope others result

/-- The values of expressions from left to right, behind those found so far (last one first), or the
first signal. -/
def expressions (scope : ScopeId) : List Node → List Value → Eval (Except Value (List Value))
  | [], found => return .ok found.reverse
  | expression :: others, found => do
      match ← evaluate expression scope with
      | some value =>
          if value.isSignal then return .error value
          else expressions scope others (value :: found)
      | none =>
          let value ← require setting expression none
          expressions scope others (value :: found)

/-- The pairs of a hash, keys before their values, or the first signal or unusable key. -/
def entries (scope : ScopeId) : List (Node × Node) → List (Key × Value) → Eval (Option Value)
  | [], found => return some (← create (.hash · found))
  | (keyNode, valueNode) :: others, found => do
      unlessSignal (← evaluate keyNode scope) fun result => do
        let keyValue ← require setting keyNode result
        match keyValue.toKey? with
        | none => return some (← fail ("unusable as hash key: " ++ keyValue.typeName) (some "HashLiteral"))
        | some key =>
            unlessSignal (← evaluate valueNode scope) fun result => do
              let value ← require setting valueNode result
              entries scope others (putEntry key value found)

def lookUp (scope : ScopeId) (name : String) : Eval Value := do
  match (← get).scopes.find? scope name with
  | some value => return value
  | none =>
      match setting.builtinValue? name with
      | some value => return value
      | none => fail ("identifier not found: " ++ name) (some "Identifier")

/-- The name under which a callee is called. -/
def calleeName : Node → String
  | .identifier name => name.name
  | _ => anonymous

/-- The value of one node. -/
def node (tree : Node) (scope : ScopeId) : Eval (Option Value) :=
  match tree with
  | .program body | .block body => statements setting evaluate scope body.statements none
  | .expressionStatement _ expression => evaluate expression scope
  | .letStatement _ name value => do
      unlessSignal (← evaluate value scope) fun result => do
        let value ← require setting tree result
        let _ ← bind scope name.name value
        return none
  | .returnStatement _ value => do
      unlessSignal (← evaluate value scope) fun result => do
        let value ← require setting tree result
        return some (.returned value)
  | .integer _ value => return some (← create (.integer · value))
  | .boolean _ value => return some (.boolean value)
  | .string _ value => return some (← create (.string · value))
  | .identifier name => return some (← lookUp setting scope name.name)
  | .unary _ operator operand => do
      unlessSignal (← evaluate operand scope) fun result => do
        let value ← require setting tree result
        return some (← unary operator value)
  | .binary _ operator left right => do
      unlessSignal (← evaluate left scope) fun leftResult => do
        unlessSignal (← evaluate right scope) fun rightResult => do
          let left ← require setting tree leftResult
          let right ← require setting tree rightResult
          return some (← binary operator left right)
  | .conditional _ condition consequence alternative => do
      unlessSignal (← evaluate condition scope) fun result => do
        let value ← require setting tree result
        if value.isTruthy then
          return some ((← statements setting evaluate scope consequence.statements none).getD .null)
        else
          match alternative with
          | some alternative =>
              return some
                ((← statements setting evaluate scope alternative.statements none).getD .null)
          | none => return some .null
  | .function _ parameters body => return some (← create (.function · parameters body scope))
  | .call _ callee arguments => do
      unlessSignal (← evaluate callee scope) fun result => do
        match ← expressions setting evaluate scope arguments [] with
        | .error signal => return some signal
        | .ok values =>
            let function ← require setting tree result
            let location ← locate setting tree
            apply function values (calleeName callee) (some location)
  | .array _ items => do
      match ← expressions setting evaluate scope items [] with
      | .error signal => return some signal
      | .ok values => return some (← create (.array · values))
  | .hash _ pairs => entries setting evaluate scope pairs []
  | .index _ left position => do
      unlessSignal (← evaluate left scope) fun leftResult => do
        unlessSignal (← evaluate position scope) fun positionResult => do
          let left ← require setting tree leftResult
          let position ← require setting tree positionResult
          return some (← element left position)
  | .bare _ _ => raise (.runtime (.bare ("Unsupported node " ++ tree.formName) (some "evaluate")))

/-- Binds parameters to arguments.  Arguments too many are dropped, and parameters too many stay
unbound. -/
def bindParameters (scope : ScopeId) : List Identifier → List Value → Eval Unit
  | parameter :: parameters, argument :: arguments => do
      let _ ← bind scope parameter.name argument
      bindParameters scope parameters arguments
  | _, _ => return ()

/-- A runtime fault without open calls takes those of the moment. -/
def capture (machine : Machine) : Fault → Fault
  | .runtime failure =>
      .runtime (if failure.calls.isEmpty then { failure with calls := machine.openCalls } else failure)
  | other => other

/-- Evaluates inside a new frame, which is closed whatever happens. -/
def enclosed {α : Type} (closing : Machine.Closing) (name : String) (scope : ScopeId)
    (site : Option Location) (body : Eval α) : Eval α := do
  let serial ← modifyGet fun machine => (machine.nextSerial, machine.pushFrame name scope site)
  let result ← recover body fun fault => do
    modify fun machine => machine.close serial closing
    reraise fault
  modify fun machine => machine.close serial closing
  return result

/-- Evaluates inside a new frame.  A fault captures the open calls before the frame is closed. -/
def inFrame {α : Type} (name : String) (scope : ScopeId) (site : Option Location) (body : Eval α) :
    Eval α :=
  enclosed .innermost name scope site
    (recover body fun fault => do reraise (capture (← get) fault))

/-- Names a fault of a text by the message that a run reports. -/
def internal (fault : Fault) : Failure :=
  .bare ("Internal interpreter error: " ++ fault.message) (some "internal")

/-- A failure with what it lacks taken from the moment: the latest step, its place, the open calls. -/
def stamp (machine : Machine) (failure : Failure) : Failure where
  message := failure.message
  origin := failure.origin
  location := failure.location.or (machine.steps.last.bind (·.location))
  step := failure.step.or (machine.steps.last.map (·.index))
  calls := if failure.calls.isEmpty then machine.openCalls else failure.calls

/-- Announces a failure that ends a text, and raises it again. -/
def abandon {α : Type} (failure : Failure) : Eval α := do
  let stamped := stamp (← get) failure
  announce setting.hooks (.onError .host stamped)
  reraise (.runtime stamped)

/-- Runs the body of a text.  Its faults are stamped and announced, those of syntax excepted, and
every fault that is none of a run becomes one. -/
def settle {α : Type} (body : Eval α) : Eval α :=
  recover body fun
    | .unparsable file errors => reraise (.unparsable file errors)
    | .runtime failure => abandon setting failure
    | .depth => do
        modify fun machine => { machine with exhausted := true }
        abandon setting (internal .depth)
    | fault => abandon setting (internal fault)

/-- The program of a text without errors. -/
def parse (text : String) : Eval Node :=
  match Parsed.ofText text with
  | .ok ⟨program, []⟩ => return program
  | .ok ⟨_, errors⟩ => raise (.unparsable setting.file errors)
  | .error reason => raise (.ofBreakoff reason)

/-- The program of a text, evaluated in a scope. -/
def body (text : String) (scope : ScopeId) : Eval (Option Value) := do
  let program ← parse setting text
  announce setting.hooks (.programStart program)
  evaluate program scope

/-- What a text results in when its program has ended. -/
def textResult : Option Value → Option Value
  | some (.returned value) => some value
  | other => other

/-- Runs a text in a scope.  A value that the text returns is its result; a failure is its result
too. -/
def execute (text : String) (scope : ScopeId) : Eval (Option Value) := do
  modify fun machine => { machine with lines := Machine.trimmedLines text }
  let result := textResult (← settle setting (body setting evaluate text scope))
  match result with
  | some (.failed failure) => announce setting.hooks (.onError .language failure)
  | _ => pure ()
  announce setting.hooks (.programEnd result)
  return result

def script : Script → Eval (Option Value)
  | .give result => return result
  | .raise fault => raiseFor .builtin fault
  | .fail message origin => return some (← fail message origin)
  | .create make next => do
      let value ← create make
      script (next value)
  | .print line next => do
      print line true
      script next
  | .apply callee arguments name site catches next => do
      let answer ← attempt catches (apply callee arguments name site)
      script (next answer)
  | .execute text scope catches next => do
      let answer ← attempt catches (execute setting evaluate text scope)
      script (next answer)
  | .define scope name value next => do
      let bound ← bind scope name value
      script (next bound)
  | .inspect next => do
      script (next (← get))

/-- Runs a builtin's script if the number of arguments is right. -/
def invoke (name : String) (arity : Arity) (arguments : List Value) : Eval (Option Value) :=
  if arity.accepts arguments.length then
    script setting evaluate apply (setting.script name arguments)
  else
    return some (← fail ("wrong number of arguments. got=" ++ toString arguments.length ++ ", want=" ++
      toString (arity.wanted arguments.length)) (some name))

/-- What a call of a function results in when its body has ended. -/
def callResult : Option Value → Value
  | some (.returned value) => value
  | some value => value
  | none => .null

def inCall (name : String) (arguments : List Value) (scope : Option ScopeId)
    (site : Option Location) (body : Eval (Option Value)) : Eval (Option Value) :=
  bracket setting (.beforeCall name arguments scope site)
    (logStep setting.verbose "Call" site (some name)) body fun result =>
      .afterCall name result scope site

/-- Applies one value. -/
def application (callee : Value) (arguments : List Value) (name : String)
    (site : Option Location) : Eval (Option Value) :=
  match callee with
  | .function _ parameters body closure => do
      let scope ← newScope (some closure)
      bindParameters scope parameters arguments
      inCall setting name arguments (some scope) site do
        return some (callResult
          (← inFrame name scope site (statements setting evaluate scope body.statements none)))
  | .builtin _ builtinName arity =>
      inCall setting builtinName arguments none site
        (invoke setting evaluate apply builtinName arity arguments)
  | other => return some (← fail ("not a function: " ++ other.typeName) (some "Call"))

end Layer

end Eval

end MonkeyLang

import MonkeyLang.Builtin.Core
import MonkeyLang.Evaluation.Course

namespace MonkeyLang

/-! Values by description, for hosts that hand values to a run. -/

inductive Recipe where
  | integer (value : Int)
  | string (text : String)
  | boolean (value : Bool)
  | null
  | array (items : List Recipe)
  | hash (entries : List (Recipe × Recipe))
  | returned (value : Recipe)
  | failed (message : String)
  /-- The function literal that a text consists of. -/
  | function (text : String)
  /-- A core builtin as an object of its own. -/
  | builtin (name : String)
  /-- What a name is bound to. -/
  | bound (name : String)

namespace Recipe

/-- The function literal of a text that is one. -/
def functionLiteral? (text : String) : Option (List Identifier × Block Node) :=
  match Parsed.ofText text with
  | .ok ⟨.program ⟨_, .expressionStatement _ (.function _ parameters body) :: _⟩, _⟩ =>
      some (parameters, body)
  | _ => none

mutual

/-- Makes the value in a scope.  What describes nothing is `null`. -/
def make (scope : ScopeId) : Recipe → Eval Value
  | integer value => Eval.create (.integer · value)
  | string text => Eval.create (.string · text)
  | boolean value => return .boolean value
  | null => return .null
  | array items => do
      let values ← makeAll scope items
      Eval.create (.array · values)
  | hash entries => do
      let pairs ← makeEntries scope entries
      Eval.create (.hash · pairs)
  | returned value => return .returned (← make scope value)
  | failed message => return .failed (.bare message none)
  | function text =>
      match functionLiteral? text with
      | some (parameters, body) => Eval.create (.function · parameters body scope)
      | none => return .null
  | builtin name =>
      match Builtin.core.find? (·.name == name) with
      | some found => Eval.create (.builtin · found.name found.arity)
      | none => return .null
  | bound name => return ((← get).scopes.find? scope name).getD .null

def makeAll (scope : ScopeId) : List Recipe → Eval (List Value)
  | [] => return []
  | item :: items => do
      let value ← make scope item
      let values ← makeAll scope items
      return value :: values

def makeEntries (scope : ScopeId) : List (Recipe × Recipe) → Eval (List (Key × Value))
  | [] => return []
  | (key, value) :: entries => do
      let key ← make scope key
      let value ← make scope value
      let others ← makeEntries scope entries
      match key.toKey? with
      | some key => return (key, value) :: others
      | none => return others

end

end Recipe

end MonkeyLang

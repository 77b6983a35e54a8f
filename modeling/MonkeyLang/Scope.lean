import MonkeyLang.Value.Inspect

namespace MonkeyLang

/-! Scopes: ordered bindings of names, each scope inside an older one or outermost. -/

structure Scope where
  parent : Option ScopeId
  bindings : List (String × Value)

namespace Scope

/-- Binds a name to a value.  A name that is bound already keeps its place. -/
def bind (name : String) (value : Value) : List (String × Value) → List (String × Value)
  | [] => [(name, value)]
  | (present, old) :: bindings =>
      if present == name then (present, value) :: bindings
      else (present, old) :: bind name value bindings

def snapshot (scope : Scope) : List (String × String) :=
  scope.bindings.map fun (name, value) => (name, value.snapshot)

end Scope

/-- All scopes of a run, numbered by age. -/
structure Scopes where
  table : Array Scope

namespace Scopes

def empty : Scopes := ⟨#[]⟩

def size (scopes : Scopes) : Nat := scopes.table.size

/-- Opens a scope; its number is the count of those before it. -/
def add (scopes : Scopes) (parent : Option ScopeId) : Scopes :=
  ⟨scopes.table.push ⟨parent, []⟩⟩

/-- Binds in the scope itself, whatever the scopes around it bind. -/
def bind (scopes : Scopes) (id : ScopeId) (name : String) (value : Value) : Scopes :=
  ⟨scopes.table.modify id fun scope => { scope with bindings := Scope.bind name value scope.bindings }⟩

/-- The value of a name in a scope or in the nearest one around it that binds the name, at most
`reach` scopes out. -/
def findWithin (scopes : Scopes) : Nat → ScopeId → String → Option Value
  | 0, _, _ => none
  | reach + 1, id, name =>
      match scopes.table[id]? with
      | none => none
      | some scope =>
          match scope.bindings.lookup name with
          | some value => some value
          | none =>
              match scope.parent with
              | none => none
              | some parent => scopes.findWithin reach parent name

/-- The value of a name as seen from a scope.  A scope is younger than the one around it, so there
are not more scopes on the way out than its number tells. -/
def find? (scopes : Scopes) (id : ScopeId) (name : String) : Option Value :=
  scopes.findWithin (id + 1) id name

/-- Whether a name means one and the same object in two scopes, or nothing in both. -/
def sameBinding (scopes : Scopes) (left right : ScopeId) (name : String) : Bool :=
  match scopes.find? left name, scopes.find? right name with
  | some leftValue, some rightValue => leftValue.same rightValue
  | none, none => true
  | _, _ => false

def snapshot (scopes : Scopes) (id : ScopeId) : List (String × String) :=
  match scopes.table[id]? with
  | some scope => scope.snapshot
  | none => []

end Scopes

end MonkeyLang

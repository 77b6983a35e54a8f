import MonkeyLang.Syntax.Node
import MonkeyLang.Trace.Basic

namespace MonkeyLang

/-! Runtime values.

Integers, strings, arrays, hashes, functions and builtins are objects with an identity; there is one
`null` and one of each boolean.  A returned value and a failed one are signals: they end the
evaluation of what they occur in.
-/

abbrev ObjectId := Nat

abbrev ScopeId := Nat

/-- How many arguments a builtin takes. -/
structure Arity where
  least : Int
  most : Option Int
deriving DecidableEq, Repr

/-- Objects that may be the key of a hash. -/
inductive Key where
  | integer (id : ObjectId) (value : Int)
  | boolean (value : Bool)
  | string (id : ObjectId) (text : String)
deriving DecidableEq, Repr

/-- Keys match if they are of one type and have one content, whatever their identities. -/
def Key.matching : Key → Key → Bool
  | .integer _ left, .integer _ right => left == right
  | .boolean left, .boolean right => left == right
  | .string _ left, .string _ right => left == right
  | _, _ => false

inductive Value where
  | integer (id : ObjectId) (value : Int)
  | boolean (value : Bool)
  | null
  | string (id : ObjectId) (text : String)
  | array (id : ObjectId) (items : List Value)
  | hash (id : ObjectId) (entries : List (Key × Value))
  | function (id : ObjectId) (parameters : List Identifier) (body : Block Node) (scope : ScopeId)
  | builtin (id : ObjectId) (name : String) (arity : Arity)
  | returned (value : Value)
  | failed (failure : Failure)

namespace Key

def toValue : Key → Value
  | .integer id value => .integer id value
  | .boolean value => .boolean value
  | .string id text => .string id text

end Key

namespace Value

def typeName : Value → String
  | integer .. => "INTEGER"
  | boolean _ => "BOOLEAN"
  | null => "NULL"
  | string .. => "STRING"
  | array .. => "ARRAY"
  | hash .. => "HASH"
  | function .. => "FUNCTION"
  | builtin .. => "BUILTIN"
  | returned _ => "RETURN_VALUE"
  | failed _ => "ERROR"

/-- Signals are passed on instead of being used. -/
def isSignal : Value → Bool
  | returned _ | failed _ => true
  | _ => false

/-- Only `false` is not truthy. -/
def isTruthy : Value → Bool
  | boolean value => value
  | _ => true

def toKey? : Value → Option Key
  | integer id value => some (.integer id value)
  | boolean value => some (.boolean value)
  | string id text => some (.string id text)
  | _ => none

/-- What makes a value the one it is.  Signals are never compared. -/
inductive Identity where
  | object (id : ObjectId)
  | boolean (value : Bool)
  | null
deriving DecidableEq, Repr

def identity? : Value → Option Identity
  | integer id _ | string id _ | array id _ | hash id _ | function id .. | builtin id .. =>
      some (.object id)
  | boolean value => some (.boolean value)
  | null => some .null
  | returned _ | failed _ => none

/-- Whether two values are one and the same. -/
def same (left right : Value) : Bool :=
  match left.identity?, right.identity? with
  | some leftIdentity, some rightIdentity => leftIdentity == rightIdentity
  | _, _ => false

end Value

/-- Puts a pair into a hash: a matching key keeps its place and its object and takes the new value,
any other pair goes to the end. -/
def putEntry (key : Key) (value : Value) : List (Key × Value) → List (Key × Value)
  | [] => [(key, value)]
  | (present, old) :: entries =>
      if present.matching key then (present, value) :: entries
      else (present, old) :: putEntry key value entries

end MonkeyLang

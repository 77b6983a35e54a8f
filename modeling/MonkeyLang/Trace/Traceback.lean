import MonkeyLang.Text.Json
import MonkeyLang.Trace.Basic

namespace MonkeyLang

/-! Tracebacks of a failure, as text and as a JSON document. -/

/-- Whether a failure is a value of the language or a fault of the host. -/
inductive FailureClass where
  | language | host
deriving DecidableEq, Repr

def FailureClass.name : FailureClass → String
  | language => "Error"
  | host => "MonkeyRuntimeError"

namespace Traceback

def bindingList (bindings : List (String × String)) : String :=
  ", ".intercalate (bindings.map fun (name, value) => name ++ "=" ++ value)

def placeLines (name : String) : Option Location → List String
  | none => ["  <unknown location> in " ++ name]
  | some place =>
      ("  File \"" ++ place.file ++ "\", line " ++ toString place.line ++ ", column " ++
        toString place.column ++ ", in " ++ name) ::
      if place.statement.isEmpty then [] else ["    " ++ place.statement]

def stepLines (verbose : Bool) : Option Step → List String
  | none => []
  | some step =>
      match verbose, step.bindings with
      | true, some bindings =>
          ["    [step " ++ toString step.index ++ "] " ++ bindingList bindings]
      | _, _ => []

def callLines (verbose : Bool) (call : OpenCall) : List String :=
  placeLines call.name call.location ++ stepLines verbose call.step

/-- The text of a traceback, outermost call first. -/
def text (verbose : Bool) (kind : FailureClass) (message : String) (calls : List OpenCall) : String :=
  "\n".intercalate (["Traceback (most recent call last):"] ++ calls.flatMap (callLines verbose) ++
    [kind.name ++ ": " ++ message])

def optionalText : Option String → Text.Json
  | some text => .text text
  | none => .null

def optionalIndex : Option Nat → Text.Json
  | some index => .integer index
  | none => .null

def placeFields : Option Location → List (String × Text.Json)
  | none => []
  | some place =>
      [("source_location", .object [("file", .text place.file), ("line", .integer place.line),
        ("column", .integer place.column), ("statement", .text place.statement)])]

def stepFields : Option Step → List (String × Text.Json)
  | none => []
  | some step =>
      [("step_index", .integer step.index), ("node_kind", .text step.form)] ++
      (match step.callee with
        | some callee => [("callee", .text callee)]
        | none => []) ++
      match step.bindings with
      | some bindings =>
          [("env_snapshot", .object (bindings.map fun (name, value) => (name, .text value)))]
      | none => []

def callDocument (index : Nat) (call : OpenCall) : Text.Json :=
  .object ([("frame_index", .integer index), ("name", .text call.name)] ++
    placeFields call.location ++ stepFields call.step)

/-- A traceback as a document; `failure` gives all but the calls. -/
def document (kind : FailureClass) (failure : Failure) (calls : List OpenCall) : Text.Json :=
  .object [
    ("error", .object [("type", .text kind.name), ("message", .text failure.message),
      ("origin", optionalText failure.origin), ("step_index", optionalIndex failure.step)]),
    ("traceback", .array (calls.mapIdx callDocument))]

def json (kind : FailureClass) (failure : Failure) (calls : List OpenCall) : String :=
  (document kind failure calls).render

end Traceback

end MonkeyLang

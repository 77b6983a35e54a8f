namespace MonkeyLang

/-! Where and how a run failed: places in a text, recorded steps, and the calls that were open. -/

structure Location where
  file : String
  line : Nat
  column : Nat
  statement : String
deriving DecidableEq, Repr

/-- One logged step: a statement that is about to run, or a call.  The bindings of the innermost
call are kept only in verbose runs. -/
structure Step where
  index : Nat
  form : String
  location : Option Location
  callee : Option String
  bindings : Option (List (String × String))
deriving DecidableEq, Repr

/-- A call that was open when a failure was captured, with the latest step logged in it. -/
structure OpenCall where
  name : String
  location : Option Location
  step : Option Step
deriving DecidableEq, Repr

/-- What is known of a failure, be it a value of the language or a fault of the host. -/
structure Failure where
  message : String
  origin : Option String
  location : Option Location
  step : Option Nat
  calls : List OpenCall
deriving DecidableEq, Repr

/-- A failure of which only the message and the origin are known. -/
def Failure.bare (message : String) (origin : Option String) : Failure :=
  ⟨message, origin, none, none, []⟩

end MonkeyLang

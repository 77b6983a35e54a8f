import MonkeyLang.Machine

namespace MonkeyLang

/-! Evaluations: what changes the machine step by step, and may break off with a fault.

An evaluation goes from one state to the next.  Its course tells how it ends, which states it passes
on the way, what it has announced, and where the fault that ends it comes from.  All but the ending
are mere propositions, so that nothing of them is left in a run.
-/

/-- What may break an evaluation off. -/
inductive Cause where
  /-- A hook that was called for an event. -/
  | hook (event : Event)
  | builtin
  /-- The evaluator itself: a text that cannot be read, a value that is missing, and the like. -/
  | evaluator
deriving DecidableEq, Repr

/-- Where a fault comes from: what raised it, what it was then, and the state at that moment. -/
structure Origin where
  cause : Cause
  fault : Fault
  machine : Machine

/-- An announced notice, with the state in which it was announced. -/
structure Emission where
  notice : Notice
  machine : Machine

/-- What leaves a mark on an evaluation. -/
inductive Mark where
  | announced (emission : Emission)
  /-- A builtin has caught the fault that broke a request of its off, which began when some steps had
  been logged. -/
  | caught (fault : Fault) (begun : Nat)

/-- The marks of an evaluation in their order, told by a property of lists. -/
abbrev Trace := List Mark → Prop

namespace Trace

def none : Trace := fun marks => marks = []

def one (mark : Mark) : Trace := fun marks => marks = [mark]

def append (first second : Trace) : Trace := fun marks =>
  ∃ front back, first front ∧ second back ∧ marks = front ++ back

/-- Exactly one list has the property. -/
def Exact (trace : Trace) : Prop := ∃ marks, ∀ other, trace other ↔ other = marks

theorem none_exact : none.Exact := ⟨[], fun _ => .rfl⟩

theorem one_exact (mark : Mark) : (one mark).Exact := ⟨[mark], fun _ => .rfl⟩

theorem Exact.append {first second : Trace} (isFirst : first.Exact) (isSecond : second.Exact) :
    (first.append second).Exact := by
  obtain ⟨front, isFront⟩ := isFirst
  obtain ⟨back, isBack⟩ := isSecond
  refine ⟨front ++ back, fun other => ?_⟩
  simp only [Trace.append, isFront, isBack]
  constructor
  · rintro ⟨_, _, rfl, rfl, same⟩
    exact same
  · exact fun same => ⟨front, back, rfl, rfl, same⟩

end Trace

/-- The course of an evaluation from one state on. -/
structure Course (α : Type) where
  ending : EStateM.Result Fault Machine α
  /-- The states that the evaluation passes, its first and its last one among them. -/
  passes : Machine → Prop
  /-- The origin of the fault with which the evaluation ends. -/
  raised : Origin → Prop
  trace : Trace
  exact : trace.Exact

namespace Course

@[match_pattern]
abbrev ok {α : Type} (result : α) (machine : Machine) {passes : Machine → Prop}
    {raised : Origin → Prop} {trace : Trace} {exact : trace.Exact} : Course α :=
  ⟨.ok result machine, passes, raised, trace, exact⟩

@[match_pattern]
abbrev error {α : Type} (fault : Fault) (machine : Machine) {passes : Machine → Prop}
    {raised : Origin → Prop} {trace : Trace} {exact : trace.Exact} : Course α :=
  ⟨.error fault machine, passes, raised, trace, exact⟩

/-- How an evaluation ends, without its state. -/
def outcome {α : Type} (course : Course α) : Except Fault α :=
  match course.ending with
  | .ok result _ => .ok result
  | .error fault _ => .error fault

/-- The last state. -/
def machine {α : Type} (course : Course α) : Machine :=
  match course.ending with
  | .ok _ machine | .error _ machine => machine

/-- What an evaluation has announced and caught, in that order. -/
noncomputable def marks {α : Type} (course : Course α) : List Mark := course.exact.choose

theorem trace_iff {α : Type} (course : Course α) (marks : List Mark) :
    course.trace marks ↔ marks = course.marks :=
  course.exact.choose_spec marks

end Course

def Eval (α : Type) := Machine → Course α

namespace Eval

variable {α β : Type}

@[always_inline, inline]
def give (result : α) : Eval α := fun before =>
  ⟨.ok result before, fun machine => machine = before, fun _ => False, .none, Trace.none_exact⟩

@[always_inline, inline]
def andThen (first : Eval α) (next : α → Eval β) : Eval β := fun before =>
  match first before with
  | ⟨.ok result between, passes, _, trace, exact⟩ =>
      let course := next result between
      ⟨course.ending, fun machine => passes machine ∨ course.passes machine, course.raised,
        trace.append course.trace, exact.append course.exact⟩
  | ⟨.error fault after, passes, raised, trace, exact⟩ =>
      ⟨.error fault after, passes, raised, trace, exact⟩

/-- Breaks off for a cause. -/
@[always_inline, inline]
def raiseFor (cause : Cause) (fault : Fault) : Eval α := fun before =>
  ⟨.error fault before, fun machine => machine = before,
    fun origin => origin = ⟨cause, fault, before⟩, .none, Trace.none_exact⟩

/-- Breaks off without being told to by a hook or a builtin. -/
abbrev raise (fault : Fault) : Eval α := raiseFor .evaluator fault

/-- Breaks off again, with a fault that comes from elsewhere. -/
@[always_inline, inline]
def reraise (fault : Fault) : Eval α := fun before =>
  ⟨.error fault before, fun machine => machine = before, fun _ => False, .none, Trace.none_exact⟩

/-- Goes on from the fault that broke an evaluation off, if one did.  Where this raises nothing of its
own, the fault with which it ends comes from where that one came from. -/
@[always_inline, inline]
def recover (body : Eval α) (resume : Fault → Eval α) : Eval α := fun before =>
  match body before with
  | ⟨.ok result after, passes, raised, trace, exact⟩ =>
      ⟨.ok result after, passes, raised, trace, exact⟩
  | ⟨.error fault between, passes, raised, trace, exact⟩ =>
      let course := resume fault between
      ⟨course.ending, fun machine => passes machine ∨ course.passes machine,
        fun origin => course.raised origin ∨ (raised origin ∧ ∀ own, ¬ course.raised own),
        trace.append course.trace, exact.append course.exact⟩

/-- Leaves a mark of the moment, and does nothing else. -/
@[always_inline, inline]
def note (mark : Machine → Mark) : Eval Unit := fun before =>
  ⟨.ok () before, fun machine => machine = before, fun _ => False, .one (mark before),
    Trace.one_exact _⟩

/-- One change of the state, together with what is read off it. -/
@[always_inline, inline]
def change (step : Machine → α × Machine) : Eval α := fun before =>
  ⟨.ok (step before).1 (step before).2,
    fun machine => machine = before ∨ machine = (step before).2, fun _ => False, .none,
    Trace.none_exact⟩

instance : Monad Eval where
  pure := give
  bind := andThen

instance : MonadStateOf Machine Eval where
  get := fun before =>
    ⟨.ok before before, fun machine => machine = before, fun _ => False, .none, Trace.none_exact⟩
  set machine := change fun _ => ((), machine)
  modifyGet := change

/-- Goes on from a fault that is caught, and hands any other one on. -/
def attempt (catches : Fault → Bool) (action : Eval α) : Eval (Except Fault α) := do
  let begun := (← get).steps.count
  recover (do return .ok (← action)) fun fault =>
    if catches fault then do
      note fun _ => .caught fault begun
      return .error fault
    else reraise fault

/-- A new object. -/
def create (make : ObjectId → Value) : Eval Value :=
  modifyGet fun machine =>
    (make machine.nextObject, { machine with nextObject := machine.nextObject + 1 })

def newScope (parent : Option ScopeId) : Eval ScopeId :=
  modifyGet fun machine => (machine.scopes.size, { machine with scopes := machine.scopes.add parent })

/-- Binds a name in a scope.  Signals cannot be bound. -/
def bind (scope : ScopeId) (name : String) (value : Value) : Eval Value := do
  if value.isSignal then
    raise (.runtime (.bare ("Cannot bind " ++ value.typeName ++ " to '" ++ name ++ "'") (some "Let")))
  else
    modify fun machine => { machine with scopes := machine.scopes.bind scope name value }
    return value

def print (line : String) (byProgram : Bool) : Eval Unit :=
  modify fun machine => { machine with printed := machine.printed.push ⟨line, byProgram⟩ }

/-- A failure as a value. -/
def fail (message : String) (origin : Option String) : Eval Value :=
  return .failed ((← get).failure message origin)

def logStep (verbose : Bool) (form : String) (location : Option Location) (callee : Option String) :
    Eval Unit :=
  modify fun machine => machine.logStep verbose form location callee

end Eval

end MonkeyLang

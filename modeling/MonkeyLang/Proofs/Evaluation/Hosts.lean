import MonkeyLang.Proofs.Evaluation.Invariant
import MonkeyLang.Session

namespace MonkeyLang

/-! # What hosts do with a machine

A host calls for evaluations, one after the other, and also changes the machine itself between them.
The states that a machine reaches under a host are those in which its calls end, and all those that
they pass.
-/

/-- One call of a host.  How deep it may evaluate depends on how much room the host has left. -/
inductive HostCall where
  | execute (depth : Nat) (text : String) (scope : ScopeId)
  | run (text : String)
  | evaluate (depth : Nat) (tree : Node) (scope : ScopeId)
  | apply (depth : Nat) (callee : Value) (arguments : List Value) (name : String)
      (site : Option Location)
  | invoke (depth : Nat) (builtin : String) (arity : Arity) (arguments : List Value)
  | create (make : ObjectId → Value)
  | newScope (parent : Option ScopeId)
  | bind (scope : ScopeId) (name : String) (value : Value)
  | pushFrame (name : String) (scope : ScopeId) (site : Option Location)
  | unwind (serial : Nat)

namespace HostCall

/-- Whether a call changes the stack itself, without any evaluation. -/
def changesStack : HostCall → Bool
  | pushFrame .. | unwind _ => true
  | _ => false

/-- A call hands good values to the run.  Signals that it tries to bind do not matter. -/
def Hands (good : Value → Prop) : HostCall → Prop
  | apply _ callee arguments _ _ => good callee ∧ ∀ argument ∈ arguments, good argument
  | invoke _ _ _ arguments => ∀ argument ∈ arguments, good argument
  | create make => ∀ id, good (make id)
  | bind _ _ value => value.isSignal = false → good value
  | _ => True

def perform (setting : Setting) : HostCall → Eval (Option Value)
  | execute depth text scope =>
      Eval.execute setting (MonkeyLang.evaluate setting depth) text scope
  | run text => setting.run text
  | evaluate depth tree scope => MonkeyLang.evaluate setting depth tree scope
  | apply depth callee arguments name site =>
      MonkeyLang.apply setting depth callee arguments name site
  | invoke depth builtin arity arguments =>
      Eval.invoke setting (MonkeyLang.evaluate setting depth) (MonkeyLang.apply setting depth)
        builtin arity arguments
  | create make => do return some (← Eval.create make)
  | newScope parent => do
      let _ ← Eval.newScope parent
      return none
  | bind scope name value => do return some (← Eval.bind scope name value)
  | pushFrame name scope site => do
      modify fun machine => machine.pushFrame name scope site
      return none
  | unwind serial => do
      modify fun machine => machine.unwind serial
      return none

end HostCall

/-- The states that a machine reaches from a state on, under a host that keeps to the allowed
calls. -/
inductive Machine.Reaches (setting : Setting) (allowed : HostCall → Prop) (first : Machine) :
    Machine → Prop
  | start : Reaches setting allowed first first
  | passing {before machine : Machine} (call : HostCall)
      (reached : Reaches setting allowed first before) (allows : allowed call)
      (passed : (call.perform setting before).passes machine) :
      Reaches setting allowed first machine
  | ending {before : Machine} (call : HostCall) (reached : Reaches setting allowed first before)
      (allows : allowed call) :
      Reaches setting allowed first (call.perform setting before).machine

/-- What every allowed call keeps, from its start to its end and all the way through, holds of all
states that are reached. -/
theorem Machine.Reaches.keeps {setting : Setting} {allowed : HostCall → Prop}
    {first machine : Machine} {kept : Machine → Prop}
    (reached : Machine.Reaches setting allowed first machine) (started : kept first)
    (calls : ∀ call before, allowed call → kept before →
      (∀ machine, (call.perform setting before).passes machine → kept machine) ∧
        kept (call.perform setting before).machine) : kept machine := by
  induction reached with
  | start => exact started
  | passing call _ allows passed ih => exact (calls call _ allows ih).1 _ passed
  | ending call _ allows ih => exact (calls call _ allows ih).2

namespace Machine

/-- To unwind is to close the innermost frame, and to go on so until the frame was closed. -/
theorem unwind_cons (machine : Machine) (serial : Nat) {frame : Frame} {frames : List Frame}
    (opened : machine.stack = frame :: frames) :
    machine.unwind serial =
      if frame.serial = serial then machine.closeFrame frame.serial
      else (machine.closeFrame frame.serial).unwind serial := by
  simp only [unwind, closeFrame, opened, unwindStack]
  split <;> rfl

theorem unwind_keeps {kept : Machine → Prop}
    (closes : ∀ {machine : Machine} {frame frames}, machine.stack = frame :: frames → kept machine →
      kept (machine.closeFrame frame.serial))
    (machine : Machine) (serial : Nat) (holds : kept machine) : kept (machine.unwind serial) := by
  generalize opened : machine.stack = stack
  induction stack generalizing machine with
  | nil =>
      have unchanged : machine.unwind serial = machine := by
        simp only [unwind, opened, unwindStack]
        rw [← opened]
      rw [unchanged]
      exact holds
  | cons frame frames ih =>
      rw [machine.unwind_cons serial opened]
      split
      · exact closes opened holds
      · refine ih (machine.closeFrame frame.serial) (closes opened holds) ?_
        simp only [closeFrame, opened, List.tail_cons]

/-- Where the frame is the innermost one, it does not matter how it is closed. -/
theorem close_innermost {machine : Machine} {frame : Frame} {frames : List Frame}
    (opened : machine.stack = frame :: frames) (closing : Closing) :
    machine.close frame.serial closing = machine.closeFrame frame.serial := by
  cases closing with
  | innermost => rfl
  | unwinding =>
      change machine.unwind frame.serial = _
      rw [machine.unwind_cons frame.serial opened, if_pos rfl]

end Machine

/-- What a standing asks of a call: to leave the stack to evaluations, and to hand over and ask for
what the standing allows. -/
def HostCall.Fits {setting : Setting} (standing : Standing setting) : HostCall → Prop
  | execute .. => standing.executes
  | run _ => standing.executes ∧ ∀ machine, standing.ready topLevel none machine
  | evaluate _ tree scope => standing.allows tree scope
  | apply _ callee arguments _ _ => standing.good callee ∧ ∀ argument ∈ arguments, standing.good argument
  | invoke _ builtin arity arguments =>
      (∃ id, standing.good (.builtin id builtin arity)) ∧
        ∀ argument ∈ arguments, standing.good argument
  | create make => ∀ id, standing.good (make id)
  | newScope _ => True
  | bind scope name value =>
      standing.binds scope name ∧ (value.isSignal = false → standing.good value) ∧
        (standing.total → value.isSignal = false)
  | pushFrame .. | unwind _ => False

/-- A call that fits a standing keeps it. -/
theorem Standing.performs {setting : Setting} (standing : Standing setting)
    (admits : ∀ {id name arity arguments}, standing.good (.builtin id name arity) →
      (∀ argument ∈ arguments, standing.good argument) → arity.accepts arguments.length = true →
      standing.regime.Admits (setting.script name arguments))
    (call : HostCall) (fits : call.Fits standing) :
    standing.Holds (Result standing.good) (call.perform setting) := by
  have evaluates := fun depth => (standing.regime.evaluatesAndApplies admits depth).1
  have applies := fun depth => (standing.regime.evaluatesAndApplies admits depth).2
  have admissible : ∀ {action : Eval (Option Value)}, standing.regime.Holds standing.Yields action →
      standing.Holds (Result standing.good) action := fun holds => .weaken holds fun _ => And.left
  cases call with
  | execute depth text scope => exact .execute text scope fits (evaluates depth)
  | run text =>
      intro index before started
      exact Standing.Holds.run text started
        (fun scope parent added => standing.frame topLevel scope none added (fits.2 _))
        fun scope => .execute text scope fits.1 (evaluates depthLimit)
  | evaluate depth tree scope => exact .weaken (evaluates depth tree scope fits) fun _ => And.left
  | apply depth callee arguments name site =>
      exact admissible (applies depth callee arguments name site fits.1 fits.2
        fun location _ => standing.anywhere location)
  | invoke depth builtin arity arguments =>
      obtain ⟨⟨id, isGood⟩, argumentsGood⟩ := fits
      exact admissible (standing.regime.invoke (evaluates depth) (applies depth) builtin arity
        fun accepted => admits isGood argumentsGood accepted)
  | create make => exact admissible (standing.regime.asResult (standing.regime.created fits))
  | newScope parent => exact .bind (standing.rules.newScope parent) fun _ _ => .pure .none
  | bind scope name value =>
      refine .bind (standing.rules.define fits.1 fits.2.1 fits.2.2) fun bound given => .pure ?_
      obtain ⟨rfl, usable⟩ := given
      exact .some (standing.admissible (fits.2.1 usable))
  | pushFrame | unwind => exact fits.elim

/-- A call of a host that leaves the stack to evaluations keeps every invariant. -/
theorem Invariant.performs (invariant : Invariant) {setting : Setting}
    (obeying : ∀ builtin ∈ setting.builtins, ∀ arguments,
      (∀ argument ∈ arguments, invariant.good argument) →
      (builtin.run arguments).Obeys invariant.good invariant.known True)
    (call : HostCall) (hands : call.Hands invariant.good) (leaves : call.changesStack = false) :
    invariant.Holds (Result invariant.good) (call.perform setting) := by
  have fits : call.Fits (invariant.standing setting) := by
    cases call with
    | apply | create => exact hands
    | invoke _ builtin arity _ => exact ⟨⟨0, invariant.builtin 0 builtin arity⟩, hands⟩
    | bind => exact ⟨trivial, hands, False.elim⟩
    | run => exact ⟨trivial, fun _ => trivial⟩
    | pushFrame | unwind => cases leaves
    | _ => exact trivial
  refine (Invariant.holds_iff setting).mpr ((invariant.standing setting).performs ?_ call fits)
  intro _ name _ _ _ argumentsGood _
  exact invariant.toGoodness.scriptAdmitted obeying name argumentsGood

/-- A call that changes the stack itself does so in one step. -/
theorem HostCall.changes {setting : Setting} {call : HostCall} {before : Machine}
    {through : Machine → Prop} (changing : call.changesStack = true) (started : through before)
    (pushed : ∀ name scope site, call = .pushFrame name scope site →
      through (before.pushFrame name scope site))
    (unwound : ∀ serial, through (before.unwind serial)) :
    (call.perform setting before).Keeps through := by
  have changed : ∀ step : Machine → Machine, through (step before) →
      ((do modify step; return none : Eval (Option Value)) before).Keeps through := fun step after =>
    .bind (.modifies started after after) fun _ _ ended => .pure ended ended
  cases call with
  | pushFrame name scope site => exact changed _ (pushed name scope site rfl)
  | unwind serial => exact changed _ (unwound serial)
  | _ => cases changing

/-- What is only about scopes is kept if the calls keep it that leave the stack to evaluations. -/
theorem Machine.Reaches.scopes {setting : Setting} {allowed : HostCall → Prop}
    {first machine : Machine} {kept : Scopes → Prop}
    (reached : Machine.Reaches setting allowed first machine) (started : kept first.scopes)
    (calls : ∀ call before, allowed call → call.changesStack = false → kept before.scopes →
      (call.perform setting before).Keeps fun machine => kept machine.scopes) :
    kept machine.scopes := by
  refine @Machine.Reaches.keeps _ _ _ _ (fun machine => kept machine.scopes) reached started
    fun call before allows holds => ?_
  have meets : (call.perform setting before).Keeps fun machine => kept machine.scopes := by
    cases changing : call.changesStack with
    | false => exact calls call before allows changing holds
    | true => exact HostCall.changes changing holds (fun _ _ _ _ => holds) fun _ => holds
  exact ⟨meets.passing, meets.last⟩

theorem Script.obeysAll (known : Machine → Prop) (script : Script) :
    script.Obeys Goodness.all.good known True := by
  have admissible : ∀ result, Result Goodness.all.good result := fun _ _ _ =>
    Goodness.all.admissible trivial
  induction script with
  | give result => exact admissible result
  | raise | fail => exact trivial
  | create make next ih => exact fun id => ih (make id)
  | print line next ih => exact ih
  | apply callee arguments name site catches next ih =>
      exact ⟨trivial, fun _ _ => trivial, fun result _ => ih (.ok result),
        fun fault _ => ih (.error fault)⟩
  | execute text scope catches next ih =>
      exact ⟨trivial, fun result _ => ih (.ok result), fun fault _ => ih (.error fault)⟩
  | define scope name value next ih => exact ⟨fun _ => trivial, ih value⟩
  | inspect next ih => exact fun machine _ => ih machine

end MonkeyLang

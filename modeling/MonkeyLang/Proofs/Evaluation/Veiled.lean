import MonkeyLang.Proofs.Evaluation.Veil

namespace MonkeyLang

/-! # Evaluations under a veil

Evaluations of a tree that avoids the hidden name go side by side from corresponding states on.  They
end alike, at the same depth if they are broken off for it, and in corresponding states again.
-/

variable {α β γ δ : Type}

namespace Veil

/-- What two settings have to do with each other so that runs under them correspond. -/
structure Settings (veil : Veil) (setting other : Setting) : Prop where
  file : setting.file = other.file
  terse : other.verbose = false
  quiet : ∀ event, setting.hooks.of event = []
  otherQuiet : ∀ event, other.hooks.of event = []
  offered : ∀ name ≠ veil.name,
    veil.Results (setting.builtinValue? name) (other.builtinValue? name)
  scripts : ∀ name ≠ veil.name, setting.script name = other.script name
  uniform : ∀ builtin ∈ setting.builtins, builtin.name ≠ veil.name → builtin.Uniform

inductive Endings (veil : Veil) (post : α → β → Prop) :
    EStateM.Result Fault Machine α → EStateM.Result Fault Machine β → Prop
  | done {left : α} {right : β} {first second : Machine} (results : post left right)
      (machines : veil.Machines first second) : Endings veil post (.ok left first) (.ok right second)
  | broken {left right : Fault} {first second : Machine}
      (faults : Leeway.snapshotsOnly.Faults left right) (machines : veil.Machines first second) :
      Endings veil post (.error left first) (.error right second)

/-- Two evaluations that end alike from corresponding states on. -/
def Agree (veil : Veil) (post : α → β → Prop) (left : Eval α) (right : Eval β) : Prop :=
  ∀ first second, veil.Machines first second →
    veil.Endings post (left first).ending (right second).ending

namespace Agree

variable {veil : Veil} {post : α → β → Prop} {last : γ → δ → Prop} {left : Eval α} {right : Eval β}

theorem pure {result : α} {other : β} (results : post result other) :
    veil.Agree post (Pure.pure result) (Pure.pure other) :=
  fun _ _ machines => .done results machines

theorem bind {next : α → Eval γ} {otherNext : β → Eval δ} (agree : veil.Agree post left right)
    (onward : ∀ result other, post result other →
      veil.Agree last (next result) (otherNext other)) :
    veil.Agree last (left >>= next) (right >>= otherNext) := by
  intro first second machines
  have ended := agree first second machines
  generalize ran : (left first).ending = ending, otherRan : (right second).ending = otherEnding
    at ended
  cases ended with
  | done results machines =>
      rw [Eval.bind_ok ran, Eval.bind_ok otherRan]
      exact onward _ _ results _ _ machines
  | broken faults machines =>
      rw [Eval.bind_error ran, Eval.bind_error otherRan]
      exact .broken faults machines

theorem recover {post : α → β → Prop} {resume : Fault → Eval α} {otherResume : Fault → Eval β}
    (agree : veil.Agree post left right)
    (resumes : ∀ fault other, Leeway.snapshotsOnly.Faults fault other →
      veil.Agree post (resume fault) (otherResume other)) :
    veil.Agree post (Eval.recover left resume) (Eval.recover right otherResume) := by
  intro first second machines
  have ended := agree first second machines
  generalize ran : (left first).ending = ending, otherRan : (right second).ending = otherEnding
    at ended
  cases ended with
  | done results machines =>
      rw [Eval.recover_ok ran, Eval.recover_ok otherRan]
      exact .done results machines
  | broken faults machines =>
      rw [Eval.recover_error ran, Eval.recover_error otherRan]
      exact resumes _ _ faults _ _ machines

theorem raise {cause : Cause} {fault other : Fault}
    (faults : Leeway.snapshotsOnly.Faults fault other) :
    veil.Agree post (Eval.raiseFor cause fault) (Eval.raiseFor cause other) :=
  fun _ _ machines => .broken faults machines

theorem reraise {fault other : Fault} (faults : Leeway.snapshotsOnly.Faults fault other) :
    veil.Agree post (Eval.reraise fault) (Eval.reraise other) :=
  fun _ _ machines => .broken faults machines

theorem get : veil.Agree veil.Machines MonadState.get MonadState.get :=
  fun _ _ machines => .done machines machines

theorem change {step : Machine → α × Machine} {otherStep : Machine → β × Machine}
    (steps : ∀ first second, veil.Machines first second →
      post (step first).1 (otherStep second).1 ∧ veil.Machines (step first).2 (otherStep second).2) :
    veil.Agree post (Eval.change step) (Eval.change otherStep) := by
  intro first second machines
  obtain ⟨results, after⟩ := steps first second machines
  exact .done results after

theorem modifies {step otherStep : Machine → Machine}
    (steps : ∀ first second, veil.Machines first second →
      veil.Machines (step first) (otherStep second)) :
    veil.Agree (fun _ _ => True) (modify step : Eval PUnit) (modify otherStep : Eval PUnit) :=
  change fun first second machines => ⟨trivial, steps first second machines⟩

theorem create {make otherMake : ObjectId → Value}
    (makes : ∀ id, veil.Values (make id) (otherMake (veil.object id))) :
    veil.Agree veil.Values (Eval.create make) (Eval.create otherMake) := by
  refine change fun first second machines => ⟨?_, machines.create⟩
  have next : veil.object first.nextObject = second.nextObject := machines.objects 0
  exact next ▸ makes first.nextObject

theorem newScope {parent : Option ScopeId} (around : ∀ id, parent = some id → veil.base ≤ id) :
    veil.Agree (fun left right => left = right ∧ veil.base ≤ left) (Eval.newScope parent)
      (Eval.newScope parent) :=
  change fun _ _ machines => ⟨⟨machines.scopes.size, machines.scopes.opened⟩,
    { machines with scopes := machines.scopes.add around }⟩

theorem define {scope : ScopeId} {name : String} {value other : Value} (named : name ≠ veil.name)
    (values : veil.Values value other) :
    veil.Agree veil.Values (Eval.bind scope name value) (Eval.bind scope name other) := by
  unfold Eval.bind
  rw [values.isSignal, values.typeName]
  cases other.isSignal with
  | true => exact raise (.same _)
  | false =>
      refine bind (modifies fun _ _ machines => ?_) fun _ _ _ => pure values
      exact { machines with scopes := machines.scopes.bind named values }

theorem print (line : String) (byProgram : Bool) :
    veil.Agree (fun _ _ => True) (Eval.print line byProgram) (Eval.print line byProgram) :=
  modifies fun _ _ machines =>
    { machines with
      rest := { machines.rest with
        printed := congrArg (·.push ⟨line, byProgram⟩) machines.rest.printed } }

theorem fail (message : String) (origin : Option String) :
    veil.Agree veil.Values (Eval.fail message origin) (Eval.fail message origin) :=
  bind get fun _ _ machines => pure (.failed (machines.rest.failure message origin))

section Layer

variable {setting other : Setting} (settings : veil.Settings setting other)

include settings

theorem announce (notice otherNotice : Notice) :
    veil.Agree (fun _ _ => True) (Eval.announce setting.hooks notice)
      (Eval.announce other.hooks otherNotice) := by
  unfold Eval.announce
  rw [settings.quiet, settings.otherQuiet]
  exact pure trivial

theorem locate {tree otherTree : Node} (trees : veil.Trees tree otherTree) :
    veil.Agree Leeway.snapshotsOnly.Locations (Eval.locate setting tree)
      (Eval.locate other otherTree) := by
  obtain ⟨rfl, _⟩ := trees
  refine bind get fun first second machines => ?_
  have lines : first.lines = second.lines := machines.rest.lines.resolve_left id
  dsimp only
  rw [lines, settings.file]
  split
  · exact pure (Leeway.locations_refl _ _)
  · split
    · exact pure (Leeway.locations_refl _ _)
    · exact raise (.same _)

theorem logStep (form : String) {location otherLocation : Option Location}
    (places : Leeway.snapshotsOnly.Places location otherLocation) (callee : Option String) :
    veil.Agree (fun _ _ => True) (Eval.logStep setting.verbose form location callee)
      (Eval.logStep other.verbose form otherLocation callee) := by
  rw [settings.terse]
  exact modifies fun _ _ machines => machines.logStep setting.verbose form places callee

theorem lookUp {scope : ScopeId} {name : String} (inside : veil.base ≤ scope)
    (named : name ≠ veil.name) :
    veil.Agree veil.Values (Eval.lookUp setting scope name) (Eval.lookUp other scope name) := by
  refine bind get fun first second machines => ?_
  have found := machines.scopes.find? named inside
  have offered := settings.offered name named
  generalize first.scopes.find? scope name = value, second.scopes.find? scope name = otherValue
    at found
  cases found with
  | some values => exact pure values
  | none =>
      dsimp only
      generalize setting.builtinValue? name = builtin, other.builtinValue? name = otherBuiltin
        at offered
      cases offered with
      | some values => exact pure values
      | none => exact fail _ _

theorem bracket {opening otherOpening : Notice} {closing otherClosing : Option Value → Notice}
    {log otherLog : Eval Unit} {body otherBody : Eval (Option Value)}
    (logs : veil.Agree (fun _ _ => True) log otherLog)
    (bodies : veil.Agree veil.Results body otherBody) :
    veil.Agree veil.Results (Eval.bracket setting opening log body closing)
      (Eval.bracket other otherOpening otherLog otherBody otherClosing) := by
  refine bind (announce settings _ _) fun _ _ _ => bind logs fun _ _ _ => ?_
  exact bind bodies fun _ _ results => bind (announce settings _ _) fun _ _ _ => pure results

theorem inStatement {statement otherStatement : Node} {scope : ScopeId}
    {body otherBody : Eval (Option Value)} (statements : veil.Trees statement otherStatement)
    (bodies : veil.Agree veil.Results body otherBody) :
    veil.Agree veil.Results (Eval.inStatement setting statement scope body)
      (Eval.inStatement other otherStatement scope otherBody) := by
  refine bracket settings (bind (locate settings statements) fun _ _ locations => ?_) bodies
  rw [statements.same]
  exact logStep settings _ (.some locations) none

theorem inCall {arguments otherArguments : List Value} {site otherSite : Option Location}
    {body otherBody : Eval (Option Value)} (name : String) (scope : Option ScopeId)
    (sites : Leeway.snapshotsOnly.Places site otherSite)
    (bodies : veil.Agree veil.Results body otherBody) :
    veil.Agree veil.Results (Eval.inCall setting name arguments scope site body)
      (Eval.inCall other name otherArguments scope otherSite otherBody) :=
  bracket settings (logStep settings "Call" sites (some name)) bodies

end Layer

theorem close (serial : Nat) (closing : Machine.Closing) :
    veil.Agree (fun _ _ => True) (modify fun machine => machine.close serial closing : Eval PUnit)
      (modify fun machine => machine.close serial closing) := by
  refine modifies fun first second machines => ?_
  have rest := machines.rest.close serial closing
  cases closing <;> exact ⟨machines.scopes, machines.objects, rest⟩

theorem enclosed {post : Option Value → Option Value → Prop} (closing : Machine.Closing)
    (name : String) (scope : ScopeId) {site otherSite : Option Location}
    (sites : Leeway.snapshotsOnly.Places site otherSite) {body otherBody : Eval (Option Value)}
    (bodies : veil.Agree post body otherBody) :
    veil.Agree post (Eval.enclosed closing name scope site body)
      (Eval.enclosed closing name scope otherSite otherBody) := by
  have opened : veil.Agree Eq
      (modifyGet fun machine => (machine.nextSerial, machine.pushFrame name scope site) : Eval Nat)
      (modifyGet fun machine => (machine.nextSerial, machine.pushFrame name scope otherSite)) :=
    change fun _ _ machines => ⟨machines.rest.nextSerial,
      { machines with rest := machines.rest.pushFrame name scope sites }⟩
  refine bind opened fun serial _ same => ?_
  subst same
  refine bind (recover bodies fun _ _ faults => ?_) fun _ _ results => ?_
  · exact bind (close serial closing) fun _ _ _ => reraise faults
  · exact bind (close serial closing) fun _ _ _ => pure results

theorem inFrame {post : Option Value → Option Value → Prop} (name : String) (scope : ScopeId)
    {site otherSite : Option Location} (sites : Leeway.snapshotsOnly.Places site otherSite)
    {body otherBody : Eval (Option Value)} (bodies : veil.Agree post body otherBody) :
    veil.Agree post (Eval.inFrame name scope site body)
      (Eval.inFrame name scope otherSite otherBody) :=
  enclosed .innermost name scope sites <| recover bodies fun _ _ faults =>
    bind get fun _ _ machines => reraise (Leeway.Agree.captured machines.rest faults)

end Agree

variable {veil : Veil} {setting other : Setting}

theorem textResult {result otherResult : Option Value} (results : veil.Results result otherResult) :
    veil.Results (Eval.textResult result) (Eval.textResult otherResult) := by
  have alike : veil.likeness.Results () result otherResult := results
  exact Likeness.textResult alike

theorem callResult {result otherResult : Option Value} (results : veil.Results result otherResult) :
    veil.Values (Eval.callResult result) (Eval.callResult otherResult) := by
  have alike : veil.likeness.Results () result otherResult := results
  exact Likeness.callResult alike

/-- Evaluations at one depth correspond under a veil. -/
def Settings.concord (settings : veil.Settings setting other) : Concord setting other where
  toLikeness := veil.likeness
  Holds _ post := veil.Agree (post ())
  Depths := Eq
  pure := .pure
  bind agree onward := agree.bind fun result otherResult given =>
    onward () result otherResult trivial given
  raise {_ _ _ _} _ _ {_ _} sites := .raise (.runtime ⟨rfl, rfl, sites, rfl, .nil⟩)
  deep := .raise (.same _)
  deeper := by
    intro depth otherDepth same
    exact Nat.succ.inj same
  leftDeep := nofun
  rightDeep := nofun
  create made := .create (makes made)
  fail _ := .fail
  lookUp _ {_ _} inside named := .lookUp settings inside named
  define {_ _ _ _ _} _ named values := .define named values
  newScope _ {_} inside := .newScope fun _ same => Option.some.inj same ▸ inside
  print _ line := .print line true
  locate _ {_ _} trees := .locate settings trees
  inStatement {_ _ _} _ {_ _} trees bodies := .inStatement settings trees bodies
  inFunction {_} name scope {_ _ _ _ _ _} _ sites bodies :=
    .inCall settings name (some scope) sites (.bind (.inFrame name scope sites bodies)
      fun _ _ results => .pure (.some (callResult results)))
  inBuiltin {_} name {_ _ _ _ _ _} _ sites bodies := .inCall settings name none sites bodies

namespace Agree

variable (settings : veil.Settings setting other)

include settings

theorem evaluates (depth : Nat) {scope : ScopeId} (inside : veil.base ≤ scope)
    {tree otherTree : Node} (trees : veil.Trees tree otherTree) :
    veil.Agree veil.Results (evaluate setting depth tree scope)
      (evaluate other depth otherTree scope) := by
  have admits : ∀ {id otherId : ObjectId} {name : String} {arity : Arity}
      {arguments otherArguments : List Value},
      veil.Values (.builtin id name arity) (.builtin otherId name arity) →
      veil.likeness.Rows () arguments otherArguments →
      veil.likeness.Scripts () (setting.script name arguments) (other.script name otherArguments) := by
    intro id otherId name arity arguments otherArguments builtins alike
    cases builtins with
    | builtin _ _ named =>
        rw [← settings.scripts name named]
        unfold Setting.script
        split
        · rename_i builtin found
          have matching := List.find?_some found
          have same : builtin.name = name := eq_of_beq matching
          exact settings.uniform builtin (List.mem_of_find?_eq_some found) (same ▸ named)
            veil.likeness () alike
        · exact .none
  exact (settings.concord.evaluatesAndApplies (fun builtins alike _ => admits builtins alike) rfl).1 ()
    inside trees

theorem abandon {post : Option Value → Option Value → Prop} {left right : Failure}
    (failures : Leeway.snapshotsOnly.Failures left right) :
    veil.Agree post (Eval.abandon setting left) (Eval.abandon other right) :=
  bind get fun _ _ machines => bind (announce settings _ _) fun _ _ _ =>
    reraise (.runtime (machines.rest.stamp failures))

theorem settle {post : Option Value → Option Value → Prop} {body otherBody : Eval (Option Value)}
    (bodies : veil.Agree post body otherBody) :
    veil.Agree post (Eval.settle setting body) (Eval.settle other otherBody) := by
  refine recover bodies fun fault otherFault faults => ?_
  have abandoned : ∀ failure, veil.Agree post (Eval.abandon setting failure)
      (Eval.abandon other failure) :=
    fun failure => abandon settings (Leeway.failures_refl _ failure)
  cases faults with
  | runtime failures => exact abandon settings failures
  | same fault =>
      cases fault with
      | unparsable file errors => exact reraise (.same _)
      | runtime failure => exact abandoned _
      | depth =>
          have exhausted : veil.Agree (fun _ _ => True)
              (modify fun machine => { machine with exhausted := true } : Eval PUnit)
              (modify fun machine => { machine with exhausted := true }) :=
            modifies fun _ _ machines =>
              { machines with rest := { machines.rest with exhausted := rfl } }
          exact bind exhausted fun _ _ _ => abandoned _
      | _ => exact abandoned _

/-- A text whose program avoids the hidden name runs alike in corresponding states. -/
theorem execute {text : String} {program : Node} (read : Parsed.ofText text = .ok ⟨program, []⟩)
    (avoids : program.Avoids veil.name) {scope : ScopeId} (inside : veil.base ≤ scope) (depth : Nat) :
    veil.Agree veil.Results (Eval.execute setting (evaluate setting depth) text scope)
      (Eval.execute other (evaluate other depth) text scope) := by
  have reading : veil.Agree (fun _ _ => True)
      (modify fun machine => { machine with lines := Machine.trimmedLines text } : Eval PUnit)
      (modify fun machine => { machine with lines := Machine.trimmedLines text }) :=
    modifies fun _ _ machines => { machines with rest := { machines.rest with lines := .inr rfl } }
  have parsed : veil.Agree veil.Trees (Eval.parse setting text) (Eval.parse other text) := by
    unfold Eval.parse
    rw [read]
    exact pure ⟨rfl, avoids⟩
  have body : veil.Agree veil.Results (Eval.body setting (evaluate setting depth) text scope)
      (Eval.body other (evaluate other depth) text scope) :=
    bind parsed fun _ _ trees => bind (announce settings _ _) fun _ _ _ =>
      evaluates settings depth inside trees
  refine bind reading fun _ _ _ => bind (settle settings body) fun result otherResult given => ?_
  have results := textResult given
  have concluded : veil.Agree veil.Results
      (do
        Eval.announce setting.hooks (.programEnd (Eval.textResult result))
        return Eval.textResult result)
      (do
        Eval.announce other.hooks (.programEnd (Eval.textResult otherResult))
        return Eval.textResult otherResult) :=
    bind (announce settings _ _) fun _ _ _ => pure results
  dsimp only
  generalize Eval.textResult result = final, Eval.textResult otherResult = otherFinal
    at results concluded
  cases results with
  | none => exact concluded
  | some values =>
      cases values with
      | failed failures => exact bind (announce settings _ _) fun _ _ _ => concluded
      | _ => exact concluded

end Agree

end Veil

end MonkeyLang

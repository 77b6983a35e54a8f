import MonkeyLang.Proofs.Evaluation.Regime

namespace MonkeyLang

/-! # Elementary rules

For a property of evaluations that carries over from one step to the next, and that the elementary
changes of the machine have, all that an evaluator does besides opening frames and running texts has it
too: it announces events, logs steps, looks for places and binds names.
-/

/-- An elementary change of the machine that leaves the open frames alone. -/
inductive Machine.Adjustment (good : Value → Prop) (before : Machine) : Machine → Prop
  | object : Adjustment good before { before with nextObject := before.nextObject + 1 }
  | scope (parent : Option ScopeId) :
      Adjustment good before { before with scopes := before.scopes.add parent }
  | binding (scope : ScopeId) (name : String) {value : Value} (isGood : good value) :
      Adjustment good before { before with scopes := before.scopes.bind scope name value }
  | print (line : Printed) : Adjustment good before { before with printed := before.printed.push line }
  | hookCall (hook : Hook) : Adjustment good before (before.hookCall hook)
  | record (hook : Hook) (event : Event) (details : Details) :
      Adjustment good before (before.record hook event details)
  | step (verbose : Bool) (form : String) (location : Option Location) (callee : Option String) :
      Adjustment good before (before.logStep verbose form location callee)
  | text (lines : Array String) : Adjustment good before { before with lines := lines }
  | exhaustion : Adjustment good before { before with exhausted := true }

/-- An elementary change that binds nothing. -/
abbrev Machine.Minor (before after : Machine) : Prop := before.Adjustment (fun _ => False) after

theorem Setting.quiet_of_false (setting : Setting) (impossible : False) :
    ∀ event, setting.hooks.of event = [] :=
  impossible.elim

/-- A property of evaluations that the elementary steps have, whatever places are recorded. -/
structure Rules (setting : Setting) extends Domain setting where
  known : Machine → Prop
  Holds : {α : Type} → (α → Prop) → Eval α → Prop
  found : ∀ {machine scope name value}, known machine →
    machine.scopes.find? scope name = some value → good value
  unused : ∀ {machine}, known machine → fresh machine.scopes.size
  pure : ∀ {α : Type} {post : α → Prop} {result : α}, post result → Holds post (Pure.pure result)
  bind : ∀ {α β : Type} {middle : α → Prop} {post : β → Prop} {first : Eval α} {next : α → Eval β},
    Holds middle first → (∀ result, middle result → Holds post (next result)) →
    Holds post (first >>= next)
  weaken : ∀ {α : Type} {strong weak : α → Prop} {action : Eval α},
    Holds strong action → (∀ result, strong result → weak result) → Holds weak action
  raise : ∀ {α : Type} {post : α → Prop} (cause : Cause) {fault : Fault},
    (total → fault = .depth) → Holds post (Eval.raiseFor cause fault)
  attempt : ∀ {α : Type} {post : α → Prop} {action : Eval α} (caught : Fault → Bool),
    Holds post action → Holds (toDomain.Answered caught post) (Eval.attempt caught action)
  get : Holds known MonadState.get
  note : ∀ mark, Holds (fun _ => True) (Eval.note mark)
  change : ∀ {α : Type} {post : α → Prop} {step : Machine → α × Machine},
    (∀ machine : Machine, machine.Minor (step machine).2) →
    (∀ machine, known machine → post (step machine).1) → Holds post (Eval.change step)
  anywhere : ∀ location, placed location
  bound : ∀ {scope name value}, binds scope name → good value →
    Holds (fun _ => True) (modify fun machine =>
      { machine with scopes := machine.scopes.bind scope name value } : Eval PUnit)
  /-- A total domain has no hooks, and its builtins run no texts. -/
  quiet : total → ∀ event, setting.hooks.of event = []

namespace Rules

variable {setting : Setting} (rules : Rules setting)

theorem modifies {step : Machine → Machine} (minor : ∀ machine : Machine, machine.Minor (step machine)) :
    rules.Holds (fun _ => True) (modify step : Eval PUnit) :=
  rules.change minor fun _ _ => trivial

theorem create (make : ObjectId → Value) :
    rules.Holds (fun value => ∃ id, value = make id) (Eval.create make) :=
  rules.change (fun _ => .object) fun machine _ => ⟨machine.nextObject, rfl⟩

theorem newScope (parent : Option ScopeId) : rules.Holds rules.fresh (Eval.newScope parent) :=
  rules.change (fun _ => .scope parent) fun _ known => rules.unused known

theorem define {scope : ScopeId} {name : String} {value : Value} (binds : rules.binds scope name)
    (isGood : value.isSignal = false → rules.good value)
    (usable : rules.total → value.isSignal = false) :
    rules.Holds (fun bound => bound = value ∧ value.isSignal = false) (Eval.bind scope name value) := by
  unfold Eval.bind
  cases signal : value.isSignal with
  | true => exact rules.raise _ fun isTotal => nomatch signal.symm.trans (usable isTotal)
  | false => exact rules.bind (rules.bound binds (isGood signal)) fun _ _ => rules.pure ⟨rfl, rfl⟩

theorem locate (node : Node) : rules.Holds (fun _ => True) (Eval.locate setting node) := by
  refine rules.bind rules.get fun machine _ => ?_
  dsimp only
  split
  · exact rules.pure trivial
  · split
    · exact rules.pure trivial
    · exact rules.raise _ fun _ => rfl

theorem callHook (hook : Hook) (notice : Notice) (breaks : ¬ rules.total) :
    rules.Holds (fun _ => True) (Eval.callHook hook notice) := by
  have deep : ∀ {fault : Fault}, rules.total → fault = .depth := fun isTotal => absurd isTotal breaks
  have called : rules.Holds (fun _ => True)
      (modifyGet fun machine => (machine, machine.hookCall hook) : Eval Machine) :=
    rules.change (fun _ => .hookCall hook) fun _ _ => trivial
  refine rules.bind called fun before _ => ?_
  split
  · exact rules.pure trivial
  · exact rules.modifies fun _ => .print _
  · exact rules.raise _ deep
  · split
    · exact rules.modifies fun _ => .record _ _ _
    · exact rules.raise _ deep

theorem callHooks (notice : Notice) {hooks : List Hook} (quiet : rules.total → hooks = []) :
    rules.Holds (fun _ => True) (Eval.callHooks hooks notice) := by
  induction hooks with
  | nil => exact rules.pure trivial
  | cons hook others ih =>
      have breaks : ¬ rules.total := fun isTotal => nomatch quiet isTotal
      exact rules.bind (rules.callHook hook notice breaks)
        fun _ _ => ih fun isTotal => absurd isTotal breaks

theorem announce (notice : Notice) :
    rules.Holds (fun _ => True) (Eval.announce setting.hooks notice) :=
  rules.bind (rules.note _) fun _ _ =>
    rules.callHooks notice fun isTotal => rules.quiet isTotal notice.event

theorem logStep (form : String) (location : Option Location) (callee : Option String) :
    rules.Holds (fun _ => True) (Eval.logStep setting.verbose form location callee) :=
  rules.modifies fun _ => .step _ _ _ _

theorem bracket {post : Option Value → Prop} {body : Eval (Option Value)} {log : Eval Unit}
    (opening : Notice) (closing : Option Value → Notice)
    (logs : rules.Holds (fun _ => True) log) (holds : rules.Holds post body) :
    rules.Holds post (Eval.bracket setting opening log body closing) := by
  refine rules.bind (rules.announce _) fun _ _ => rules.bind logs fun _ _ => ?_
  refine rules.bind holds fun value given => ?_
  exact rules.bind (rules.announce _) fun _ _ => rules.pure given

theorem inStatement {post : Option Value → Prop} {body : Eval (Option Value)} (statement : Node)
    (scope : ScopeId) (holds : rules.Holds post body) :
    rules.Holds post (Eval.inStatement setting statement scope body) :=
  rules.bracket _ _ (rules.bind (rules.locate statement) fun _ _ => rules.logStep _ _ _) holds

theorem inCall {post : Option Value → Prop} {body : Eval (Option Value)} (name : String)
    (arguments : List Value) (scope : Option ScopeId) (site : Option Location)
    (holds : rules.Holds post body) :
    rules.Holds post (Eval.inCall setting name arguments scope site body) :=
  rules.bracket _ _ (rules.logStep _ _ _) holds

theorem parse (text : String) (breaks : ¬ rules.total) :
    rules.Holds
      (fun program => ∃ parsed, Parsed.ofText text = .ok parsed ∧ parsed.errors = [] ∧
        program = parsed.program)
      (Eval.parse setting text) := by
  have deep : ∀ {fault : Fault}, rules.total → fault = .depth := fun isTotal =>
    absurd isTotal breaks
  unfold Eval.parse
  split
  · rename_i program read
    exact rules.pure ⟨_, read, rfl, rfl⟩
  · exact rules.raise _ deep
  · exact rules.raise _ deep

/-- What is left to say is what happens in frames and in texts. -/
def regime
    (inFunction : ∀ {post body} name arguments scope site, rules.Holds post body →
      rules.Holds (fun result => ∃ outcome, result = some (Eval.callResult outcome) ∧ post outcome)
        (Eval.inCall setting name arguments (some scope) site do
          return some (Eval.callResult (← Eval.inFrame name scope site body))))
    (execute : ∀ {evaluate : Evaluator} text scope, rules.executes →
      (∀ tree scope, rules.allows tree scope →
        rules.Holds (rules.Answers tree) (evaluate tree scope)) →
      rules.Holds (Result rules.good) (Eval.execute setting evaluate text scope)) :
    Regime setting where
  toDomain := rules.toDomain
  known := rules.known
  Holds := rules.Holds
  found := rules.found
  pure := rules.pure
  bind := rules.bind
  weaken := rules.weaken
  raise cause _ deep _ := rules.raise cause deep
  attempt caught _ holds := rules.attempt caught holds
  get := rules.get
  create := rules.create
  newScope := rules.newScope
  define := rules.define
  print _ := rules.modifies fun _ => .print _
  locate {_ _} _ := rules.weaken (rules.locate _) fun location _ => rules.anywhere location
  inStatement {_ _ _ _} _ holds := rules.inStatement _ _ holds
  inFunction name arguments scope _ _ holds := inFunction name arguments scope _ holds
  inBuiltin name arguments _ _ holds := rules.inCall name arguments none _ holds
  execute := execute

end Rules

/-- What a text results in is admissible if its program ended so. -/
theorem Domain.textResult {setting : Setting} (domain : Domain setting) {ending : Option Value}
    (admissible : Result domain.good ending) : Result domain.good (Eval.textResult ending) := by
  unfold Eval.textResult
  split
  · rename_i value
    exact .some (domain.admissible (admissible (.returned value) rfl))
  · exact admissible

end MonkeyLang

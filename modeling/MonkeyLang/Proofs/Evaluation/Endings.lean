import MonkeyLang.Proofs.Evaluation.Invariant
import MonkeyLang.Proofs.Evaluation.Moves
import MonkeyLang.Proofs.Pieces
import MonkeyLang.Proofs.Tables
import MonkeyLang.Proofs.Writing

namespace MonkeyLang

/-! # How programs end that nobody watches

Without hooks, a construct ends like its last part, from the state in which the parts before it have
ended.  What it does besides shows in new objects, scopes, frames and steps alone.
-/

namespace Scopes

variable {before middle after scopes : Scopes} {id target : ScopeId}

/-- All scopes that there were are as they were. -/
def PersistIn (before after : Scopes) : Prop :=
  ∀ (id : ScopeId) scope, before.table[id]? = some scope → after.table[id]? = some scope

theorem PersistIn.rfl : scopes.PersistIn scopes := fun _ _ found => found

theorem PersistIn.trans (first : before.PersistIn middle) (second : middle.PersistIn after) :
    before.PersistIn after :=
  fun id scope found => second id scope (first id scope found)

theorem within_of_found {scope : Scope} (found : scopes.table[id]? = some scope) : id < scopes.size :=
  (Array.getElem?_eq_some_iff.mp found).1

theorem PersistIn.add (persist : before.PersistIn after) (parent : Option ScopeId) :
    before.PersistIn (after.add parent) := by
  intro id scope found
  have present := persist id scope found
  rw [← present, Array.getElem?_eq_getElem (within_of_found present)]
  exact Array.getElem?_push_lt (within_of_found present)

theorem PersistIn.bind (persist : before.PersistIn after) (later : before.size ≤ target)
    (name : String) (value : Value) : before.PersistIn (after.bind target name value) := by
  intro id scope found
  have apart : target ≠ id := by
    rintro rfl
    exact Nat.not_lt.mpr later (within_of_found found)
  simp only [Scopes.bind, Array.getElem?_modify, if_neg apart]
  exact persist id scope found

theorem Writes.persist (writes : before.Writes target (fun _ => False) after) :
    before.PersistIn after := by
  intro id scope found
  rw [writes.unchanged (within_of_found found)]
  exact found

/-- What is bound in a scope and in those around it, out to an outermost one. -/
inductive Layers (scopes : Scopes) : ScopeId → List (List (String × Value)) → Prop
  | outermost {id : ScopeId} {bindings : List (String × Value)}
      (found : scopes.table[id]? = some ⟨none, bindings⟩) : Layers scopes id [bindings]
  | inner {id parent : ScopeId} {bindings : List (String × Value)}
      {others : List (List (String × Value))}
      (found : scopes.table[id]? = some ⟨some parent, bindings⟩) (older : parent < id)
      (around : Layers scopes parent others) : Layers scopes id (bindings :: others)

variable {layers : List (List (String × Value))}

theorem Layers.persist (all : before.Layers id layers) (persist : before.PersistIn after) :
    after.Layers id layers := by
  induction all with
  | outermost found => exact .outermost (persist _ _ found)
  | inner found older _ ih => exact .inner (persist _ _ found) older ih

theorem Layers.within (all : scopes.Layers id layers) : id < scopes.size := by
  cases all with
  | outermost found => exact within_of_found found
  | inner found => exact within_of_found found

/-- A name means what it is bound to in the nearest layer that binds it. -/
theorem Layers.find? (all : scopes.Layers id layers) (name : String) :
    scopes.find? id name = layers.findSome? (·.lookup name) := by
  have within : ∀ reach, id < reach →
      scopes.findWithin reach id name = layers.findSome? (·.lookup name) := by
    induction all with
    | outermost found =>
        intro reach far
        obtain ⟨reach, rfl⟩ := Nat.exists_eq_succ_of_ne_zero (Nat.ne_zero_of_lt far)
        simp only [findWithin, found, List.findSome?_cons, List.findSome?_nil]
        cases List.lookup name _ <;> rfl
    | inner found older _ ih =>
        intro reach far
        obtain ⟨reach, rfl⟩ := Nat.exists_eq_succ_of_ne_zero (Nat.ne_zero_of_lt far)
        simp only [findWithin, found, List.findSome?_cons]
        rw [ih reach (Nat.lt_of_lt_of_le older (Nat.le_of_lt_succ far))]
        cases List.lookup name _ <;> rfl
  exact within (id + 1) (Nat.lt_succ_self id)

end Scopes

namespace Machine

variable {before middle after machine : Machine}

/-- A state further on, in which all scopes are as they were, and nothing has been printed. -/
structure Onward (before after : Machine) : Prop where
  scopes : before.scopes.PersistIn after.scopes
  printed : after.printed = before.printed

theorem Onward.rfl : machine.Onward machine := ⟨.rfl, Eq.refl _⟩

theorem Onward.trans (first : before.Onward middle) (second : middle.Onward after) :
    before.Onward after :=
  ⟨first.scopes.trans second.scopes, second.printed.trans first.printed⟩

/-- A state in which frames have been closed, and nothing else has happened: no step was logged. -/
structure Unwound (before after : Machine) : Prop where
  rest : after = { before with stack := after.stack, steps := after.steps }
  stack : after.stack <:+ before.stack
  count : after.steps.count = before.steps.count

theorem Unwound.trans (first : before.Unwound middle) (second : middle.Unwound after) :
    before.Unwound after where
  rest := by rw [second.rest, first.rest]
  stack := second.stack.trans first.stack
  count := second.count.trans first.count

theorem unwound_closeFrame (machine : Machine) (serial : Nat) :
    machine.Unwound (machine.closeFrame serial) :=
  ⟨Eq.refl _, List.tail_suffix _, Eq.refl _⟩

theorem onward_logStep (machine : Machine) (verbose : Bool) (form : String)
    (location : Option Location) (callee : Option String) :
    machine.Onward (machine.logStep verbose form location callee) :=
  ⟨.rfl, Eq.refl _⟩

theorem onward_created (machine : Machine) :
    machine.Onward { machine with nextObject := machine.nextObject + 1 } :=
  ⟨.rfl, Eq.refl _⟩

end Machine

/-- What is printed comes behind all that was printed before. -/
def Invariant.printing : Invariant where
  toGoodness := .all
  Index := Array Printed
  through earlier machine := ∃ lines, machine.printed = earlier ++ lines
  ends earlier machine := ∃ lines, machine.printed = earlier ++ lines
  passable _ _ := id
  found _ _ := trivial
  adjust := by
    rintro earlier before after ⟨lines, printed⟩ adjustment
    cases adjustment with
    | print line => exact ⟨lines.push line, by rw [printed, Array.append_push]⟩
    | _ => exact ⟨lines, printed⟩
  frame name scope site printed :=
    ⟨_, printed, fun _ => id, fun machine closing ended => by cases closing <;> exact ended⟩

section Applications

variable {setting : Setting}

theorem apply_prints (core : ∀ builtin ∈ setting.builtins, builtin ∈ Builtin.core) (depth : Nat)
    (callee : Value) (arguments : List Value) (name : String) (site : Option Location)
    (before : Machine) :
    (apply setting depth callee arguments name site before).Keeps fun machine =>
      ∃ lines, machine.printed = before.printed ++ lines := by
  have obeying : ∀ builtin ∈ setting.builtins, ∀ arguments,
      (∀ argument ∈ arguments, Invariant.printing.good argument) →
      (builtin.run arguments).Obeys Invariant.printing.good Invariant.printing.known True :=
    fun builtin member arguments good =>
      (Builtin.core_plain Goodness.all.composes good (core builtin member)).obeys
        Goodness.all.admissible
  have holds : Invariant.printing.Holds _ (apply setting depth callee arguments name site) :=
    (Invariant.holds_iff setting).mpr
      ((Invariant.printing.standing setting).regime.applies
        (fun {_ name _ _} _ argumentsGood _ =>
          Invariant.printing.toGoodness.scriptAdmitted obeying name argumentsGood)
        depth name trivial (fun _ _ => trivial) fun _ _ => trivial)
  exact (holds before.printed before ⟨#[], Array.append_empty.symm⟩).leads
    (fun _ _ => And.left) fun _ _ => id

end Applications

section Nodes

variable {setting : Setting} {depth : Nat} {scope : ScopeId} {before between after : Machine}
  {tree : Node} {value signal : Value}

theorem evaluate_builtin {name : Identifier} (unbound : before.scopes.find? scope name.name = none)
    (found : setting.builtinValue? name.name = some value) :
    (evaluate setting (depth + 1) (.identifier name) scope before).ending =
      .ok (some value) before := by
  have seen : ((MonadState.get : Eval Machine) before).ending = .ok before before := rfl
  have looked : (Eval.lookUp setting scope name.name before).ending = .ok value before := by
    unfold Eval.lookUp
    rw [Eval.bind_ok seen, unbound, found]
    rfl
  exact Eval.bind_ok looked

section Branches

variable {token opening : Token} {branch : List Node}

theorem evaluate_consequence {otherwise : Option (Block Node)}
    (gives : (evaluate setting depth tree scope before).ending = .ok (some (.boolean true)) between)
    (ran : (Eval.statements setting (evaluate setting depth) scope branch none between).ending =
      .ok (some value) after) :
    (evaluate setting (depth + 1) (.conditional token tree ⟨opening, branch⟩ otherwise) scope
      before).ending = .ok (some value) after :=
  (Eval.operand gives rfl _).trans (Eval.bind_ok ran)

theorem evaluate_alternative {consequence : Block Node}
    (gives : (evaluate setting depth tree scope before).ending = .ok (some (.boolean false)) between)
    (ran : (Eval.statements setting (evaluate setting depth) scope branch none between).ending =
      .ok (some value) after) :
    (evaluate setting (depth + 1) (.conditional token tree consequence (some ⟨opening, branch⟩))
      scope before).ending = .ok (some value) after :=
  (Eval.operand gives rfl _).trans (Eval.bind_ok ran)

end Branches

theorem locate_ending (setting : Setting) (shallow : tree.depth ≤ renderLimit) (before : Machine) :
    ∃ location, (Eval.locate setting tree before).ending = .ok location before := by
  have seen : ((MonadState.get : Eval Machine) before).ending = .ok before before := rfl
  unfold Eval.locate
  dsimp only
  rw [Eval.bind_ok seen]
  generalize (if tree.token.line = 0 then none else before.lines[tree.token.line - 1]?) = line
  cases line with
  | some line => exact ⟨_, rfl⟩
  | none =>
      simp only [Node.render?, shallow, if_true]
      exact ⟨_, rfl⟩

variable {token : Token} {arguments others : List Node} {values : List Value}

theorem evaluate_call_applies (token : Token)
    (gives : (evaluate setting depth tree scope before).ending = .ok (some value) between)
    (usable : value.isSignal = false)
    (gathers : Eval.Gathers (evaluate setting depth) scope between arguments values after)
    (shallow : (Node.call token tree arguments).depth ≤ renderLimit) :
    ∃ site, (evaluate setting (depth + 1) (.call token tree arguments) scope before).ending =
      (apply setting depth value values (Eval.calleeName tree) (some site) after).ending := by
  obtain ⟨site, located⟩ := locate_ending setting shallow after
  exact ⟨site, (evaluate_call token gives usable gathers).trans (Eval.bind_ok located)⟩

/-- The first signal among expressions. -/
theorem Eval.Gathers.stopped {evaluate : Evaluator}
    (gathers : Gathers evaluate scope before arguments values between)
    (gives : (evaluate tree scope between).ending = .ok (some signal) after)
    (isSignal : signal.isSignal = true) (found : List Value) :
    (Eval.expressions setting evaluate scope (arguments ++ tree :: others) found before).ending =
      .ok (.error signal) after := by
  induction gathers generalizing found with
  | none before =>
      rw [List.nil_append, Eval.expressions, Eval.bind_ok gives]
      simp only [isSignal, if_true]
      rfl
  | next first usable _ ih =>
      rw [List.cons_append, Eval.expressions, Eval.bind_ok first]
      simp only [usable, Bool.false_eq_true, if_false]
      exact ih gives _

/-- A call of which an argument gives a signal gives that signal, and nothing is applied. -/
theorem evaluate_call_signal {callee : Node} {nodes : List Node}
    (gives : (evaluate setting depth callee scope before).ending = .ok (some value) between)
    (usable : value.isSignal = false) {middle : Machine}
    (gathers : Eval.Gathers (evaluate setting depth) scope between arguments values middle)
    (signals : (evaluate setting depth tree scope middle).ending = .ok (some signal) after)
    (isSignal : signal.isSignal = true) (split : nodes = arguments ++ tree :: others) :
    (evaluate setting (depth + 1) (.call token callee nodes) scope before).ending =
      .ok (some signal) after := by
  subst split
  exact (Eval.operand gives usable _).trans (Eval.bind_ok (gathers.stopped signals isSignal []))

end Nodes

section Unhooked

variable {setting : Setting} (hooks : ∀ event, setting.hooks.of event = []) {depth : Nat}
  {scope : ScopeId} {before middle after : Machine}

include hooks

theorem bracket_ending {opening : Notice} {log : Eval Unit} {body : Eval (Option Value)}
    {closing : Option Value → Notice} (logged : (log before).ending = .ok () middle) :
    (Eval.bracket setting opening log body closing before).ending = (body middle).ending := by
  rw [Eval.bracket, Eval.bind_ok (announce_ending hooks _), Eval.bind_ok logged]
  cases ran : (body middle).ending with
  | error fault after => exact Eval.bind_error ran
  | ok result after => rw [Eval.bind_ok ran, Eval.bind_ok (announce_ending hooks _)]; rfl

theorem inStatement_ending (statement : Node) (shallow : statement.depth ≤ renderLimit)
    (scope : ScopeId) (body : Eval (Option Value)) (before : Machine) :
    ∃ logged, before.Onward logged ∧
      (Eval.inStatement setting statement scope body before).ending = (body logged).ending := by
  obtain ⟨location, located⟩ := locate_ending setting shallow before
  exact ⟨_, before.onward_logStep .., bracket_ending hooks (Eval.bind_ok located)⟩

/-- A statement alone, which has a value. -/
theorem statements_alone (statement : Node) (shallow : statement.depth ≤ renderLimit)
    (evaluate : Evaluator) (scope : ScopeId) (before : Machine) :
    ∃ logged, before.Onward logged ∧ ∀ value after,
      (evaluate (Eval.content statement) scope logged).ending = .ok (some value) after →
      (Eval.statements setting evaluate scope [statement] none before).ending =
        .ok (some value) after := by
  obtain ⟨logged, onward, same⟩ := inStatement_ending hooks statement shallow scope
    (evaluate (Eval.content statement) scope) before
  refine ⟨logged, onward, fun value after ran => ?_⟩
  cases signal : value.isSignal with
  | true => exact statements_signal (same.trans ran) signal
  | false => exact statements_usable (same.trans ran) (unsignalled_some signal)

/-- A statement without a value, and those behind it. -/
theorem statements_behind (statement : Node) (shallow : statement.depth ≤ renderLimit)
    (evaluate : Evaluator) (scope : ScopeId) (others : List Node) (before : Machine) :
    ∃ logged, before.Onward logged ∧ ∀ after,
      (evaluate (Eval.content statement) scope logged).ending = .ok none after →
      (Eval.statements setting evaluate scope (statement :: others) none before).ending =
        (Eval.statements setting evaluate scope others none after).ending := by
  obtain ⟨logged, onward, same⟩ := inStatement_ending hooks statement shallow scope
    (evaluate (Eval.content statement) scope) before
  exact ⟨logged, onward, fun after ran => statements_usable (same.trans ran) unsignalled_none⟩

variable {id : ObjectId} {name builtin : String} {arity : Arity} {arguments : List Value}
  {site : Option Location}

/-- A builtin is its script. -/
theorem apply_builtin (accepted : arity.accepts arguments.length = true) (before : Machine) :
    ∃ logged, before.Onward logged ∧
      (apply setting (depth + 1) (.builtin id builtin arity) arguments name site before).ending =
        (Eval.script setting (evaluate setting depth) (apply setting depth)
          (setting.script builtin arguments) logged).ending := by
  refine ⟨_, before.onward_logStep setting.verbose "Call" site (some builtin), ?_⟩
  refine (bracket_ending hooks rfl).trans ?_
  rw [Eval.invoke, if_pos accepted]

theorem apply_giving {result : Option Value} (accepted : arity.accepts arguments.length = true)
    (script : setting.script builtin arguments = .give result) (before : Machine) :
    ∃ after, before.Onward after ∧
      (apply setting (depth + 1) (.builtin id builtin arity) arguments name site before).ending =
        .ok result after := by
  obtain ⟨logged, onward, same⟩ := apply_builtin hooks accepted before
  rw [script] at same
  exact ⟨logged, onward, same⟩

theorem apply_creating {make : ObjectId → Value} (accepted : arity.accepts arguments.length = true)
    (script : setting.script builtin arguments = .giveNew make) (before : Machine) :
    ∃ new after, before.Onward after ∧
      (apply setting (depth + 1) (.builtin id builtin arity) arguments name site before).ending =
        .ok (some (make new)) after := by
  obtain ⟨logged, onward, same⟩ := apply_builtin hooks accepted before
  rw [script] at same
  exact ⟨_, _, onward.trans logged.onward_created, same⟩

section Calls

variable {token : Token} {callee : Identifier} {nodes : List Node}
  (shallow : (Node.call token (.identifier callee) nodes).depth ≤ renderLimit)
  (unbound : before.scopes.find? scope callee.name = none)
  (found : setting.builtinValue? callee.name = some (.builtin id builtin arity))
  (gathers : Eval.Gathers (evaluate setting (depth + 1)) scope before nodes arguments middle)
  (accepted : arity.accepts arguments.length = true)

include shallow unbound found gathers accepted

/-- The call of a builtin that gives a value that there is. -/
theorem call_giving {result : Option Value}
    (script : setting.script builtin arguments = .give result) :
    ∃ after, middle.Onward after ∧
      (evaluate setting (depth + 2) (.call token (.identifier callee) nodes) scope before).ending =
        .ok result after := by
  obtain ⟨site, called⟩ :=
    evaluate_call_applies token (evaluate_builtin unbound found) rfl gathers shallow
  obtain ⟨after, onward, gives⟩ := apply_giving hooks accepted script middle
  exact ⟨after, onward, called.trans gives⟩

/-- The call of a builtin that makes a new object. -/
theorem call_creating {make : ObjectId → Value}
    (script : setting.script builtin arguments = .giveNew make) :
    ∃ new after, middle.Onward after ∧
      (evaluate setting (depth + 2) (.call token (.identifier callee) nodes) scope before).ending =
        .ok (some (make new)) after := by
  obtain ⟨site, called⟩ :=
    evaluate_call_applies token (evaluate_builtin unbound found) rfl gathers shallow
  obtain ⟨new, after, onward, gives⟩ := apply_creating hooks accepted script middle
  exact ⟨new, after, onward, called.trans gives⟩

end Calls

omit hooks in
/-- Parameters are bound in the order of their names. -/
theorem bindParameters_written {rows : List (String × Value)} {parent : Option ScopeId}
    {start : Machine} (parameters : List Identifier)
    (usable : ∀ argument ∈ arguments, argument.isSignal = false)
    (opened : before.scopes.table[scope]? = some ⟨parent, Scope.written rows⟩)
    (onward : start.Onward before) (later : start.scopes.size ≤ scope) :
    ∃ after, (Eval.bindParameters scope parameters arguments before).ending = .ok () after ∧
      start.Onward after ∧ after.scopes.table[scope]? =
        some ⟨parent, Scope.written (rows ++ (parameters.map (·.name)).zip arguments)⟩ := by
  induction parameters generalizing before rows arguments with
  | nil => exact ⟨before, rfl, onward, by simpa using opened⟩
  | cons parameter parameters ih =>
      cases arguments with
      | nil => exact ⟨before, rfl, onward, by simpa using opened⟩
      | cons argument arguments =>
          obtain ⟨argumentUsable, othersUsable⟩ := List.forall_mem_cons.mp usable
          let bound : Machine :=
            { before with scopes := before.scopes.bind scope parameter.name argument }
          have binds : (Eval.bind scope parameter.name argument before).ending =
              .ok argument bound := by
            unfold Eval.bind
            rw [argumentUsable]
            rfl
          have written : bound.scopes.table[scope]? =
              some ⟨parent, Scope.written (rows ++ [(parameter.name, argument)])⟩ := by
            simp only [bound, Scopes.bind, Array.getElem?_modify, if_true, opened, Option.map_some,
              Scope.written_concat]
          have further : start.Onward bound :=
            ⟨onward.scopes.bind later parameter.name argument, onward.printed⟩
          obtain ⟨after, ran, reached, all⟩ := ih othersUsable written further
          refine ⟨after, (Eval.bind_ok binds).trans ran, reached, ?_⟩
          simpa using all

/-- A function runs its body in a new scope, which binds its parameters.  When that has ended, a frame
is closed and nothing else happens. -/
theorem apply_opens (depth : Nat) (id : ObjectId) (parameters : List Identifier) (body : Block Node)
    (closure : ScopeId) (usable : ∀ argument ∈ arguments, argument.isSignal = false) (name : String)
    (site : Option Location) (before : Machine) :
    ∃ opened, before.Onward opened ∧
      opened.scopes.table[before.scopes.size]? =
        some ⟨some closure, Scope.written ((parameters.map (·.name)).zip arguments)⟩ ∧
      ∀ result after, (Eval.statements setting (evaluate setting depth) before.scopes.size
          body.statements none opened).ending = .ok result after →
        ∃ final, after.Unwound final ∧
          (apply setting (depth + 1) (.function id parameters body closure) arguments name site
            before).ending = .ok (some (Eval.callResult result)) final := by
  let added : Machine := { before with scopes := before.scopes.add (some closure) }
  have adds : (Eval.newScope (some closure) before).ending = .ok before.scopes.size added := rfl
  have isNew : added.scopes.table[before.scopes.size]? = some ⟨some closure, Scope.written []⟩ :=
    Array.getElem?_push_size
  have further : before.Onward added := ⟨Scopes.PersistIn.rfl.add _, rfl⟩
  obtain ⟨bound, binds, onward, written⟩ :=
    bindParameters_written parameters usable isNew further (Nat.le_refl _)
  let logged := bound.logStep setting.verbose "Call" site (some name)
  let opened := logged.pushFrame name before.scopes.size site
  refine ⟨opened, ⟨onward.scopes, onward.printed⟩, written, fun result after ran => ?_⟩
  refine ⟨after.closeFrame logged.nextSerial, after.unwound_closeFrame _, ?_⟩
  have pushes : ((modifyGet fun machine => (machine.nextSerial, machine.pushFrame name
      before.scopes.size site) : Eval Nat) logged).ending = .ok logged.nextSerial opened := rfl
  have framed : (Eval.inFrame name before.scopes.size site
      (Eval.statements setting (evaluate setting depth) before.scopes.size body.statements none)
      logged).ending = .ok result (after.closeFrame logged.nextSerial) := by
    refine (Eval.bind_ok pushes).trans ((Eval.bind_ok (Eval.recover_ok (Eval.recover_ok ran))).trans ?_)
    rfl
  refine (Eval.bind_ok adds).trans ((Eval.bind_ok binds).trans ?_)
  exact (bracket_ending hooks rfl).trans (Eval.bind_ok framed)

end Unhooked

end MonkeyLang
